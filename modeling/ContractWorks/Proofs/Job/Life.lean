import ContractWorks.Proofs.Storage.JobStore

namespace ContractWorks

/-- A step is forward when it leads from waiting to running, or from running to an end. -/
def JobState.Forward (origin target : JobState) : Prop :=
  (origin = .queued ∧ target = .running) ∨ (origin = .running ∧ target.isTerminal = true)

theorem JobState.canBecome_iff (origin target : JobState) : origin.canBecome target = true ↔ Forward origin target := by
  cases origin <;> cases target <;> simp [canBecome, Forward, isTerminal]

/-- A trial is a transition that is tried on a job, and when. -/
structure Trial where
  now : Time.Instant
  transition : Transition
  deriving DecidableEq, Repr

/-- A course is a record together with the trials that it took, the first one first. -/
structure Course where
  record : JobRecord
  taken : List Trial
  deriving DecidableEq, Repr

namespace Course

/-- This function tries a transition; a refused one changes nothing. -/
def attempt (course : Course) (trial : Trial) : Course :=
  match course.record.apply trial.now trial.transition with
  | .ok next => ⟨next, course.taken ++ [trial]⟩
  | .error _ => course

/-- This test holds of the trials that a record takes next. -/
def admits (course : Course) (trial : Trial) : Bool :=
  course.record.status.canBecome trial.transition.target

variable {course : Course} {trial : Trial}

theorem apply_of_admits (admitted : course.admits trial = true) : course.record.apply trial.now trial.transition =
    .ok (course.record.write trial.now trial.transition) :=
  if_pos admitted

theorem apply_of_not_admits (refused : course.admits trial = false) : course.record.apply trial.now trial.transition =
    .error ⟨course.record.status, trial.transition.target⟩ :=
  if_neg (by rw [← admits, refused]; simp)

theorem attempt_of_admits (admitted : course.admits trial = true) : course.attempt trial =
    ⟨course.record.write trial.now trial.transition, course.taken ++ [trial]⟩ := by
  rw [attempt, apply_of_admits admitted]

theorem attempt_of_not_admits (refused : course.admits trial = false) : course.attempt trial = course := by
  rw [attempt, apply_of_not_admits refused]

theorem taken_attempt_sublist (course : Course) (trial : Trial) :
    (course.attempt trial).taken.Sublist (course.taken ++ [trial]) := by
  cases admitted : course.admits trial with
  | true => rw [attempt_of_admits admitted]
  | false =>
    rw [attempt_of_not_admits admitted]
    exact List.sublist_append_left _ _

/-- These are the courses of a new record: it waits, or it runs, or it came to one of its two ends. -/
inductive Proper (first : JobRecord) : Course → Prop
  | queued : Proper first ⟨first, []⟩
  | running (begun : Time.Instant) : Proper first ⟨first.write begun .start, [⟨begun, .start⟩]⟩
  | completed (begun ended : Time.Instant) (artifact : ArtifactId) :
      Proper first ⟨(first.write begun .start).write ended (.complete artifact),
        [⟨begun, .start⟩, ⟨ended, .complete artifact⟩]⟩
  | failed (begun ended : Time.Instant) (error : ErrorRecord) :
      Proper first ⟨(first.write begun .start).write ended (.fail error),
        [⟨begun, .start⟩, ⟨ended, .fail error⟩]⟩

/-- A trial takes a proper course to a proper course: a record that waits takes a start only, one that runs an end
only, and one that has ended takes nothing. -/
theorem Proper.attempt {first : JobRecord} (new : first.status = .queued) (proper : Proper first course)
    (trial : Trial) : Proper first (course.attempt trial) := by
  obtain ⟨now, transition⟩ := trial
  cases proper with
  | queued =>
    cases transition with
    | start =>
      rw [attempt_of_admits (by rw [admits, new]; rfl)]
      exact .running now
    | complete artifact =>
      rw [attempt_of_not_admits (by rw [admits, new]; rfl)]
      exact .queued
    | fail error =>
      rw [attempt_of_not_admits (by rw [admits, new]; rfl)]
      exact .queued
  | running begun =>
    cases transition with
    | start =>
      rw [attempt_of_not_admits rfl]
      exact .running begun
    | complete artifact =>
      rw [attempt_of_admits rfl]
      exact .completed begun now artifact
    | fail error =>
      rw [attempt_of_admits rfl]
      exact .failed begun now error
  | completed begun ended artifact =>
    rw [attempt_of_not_admits (by cases transition <;> rfl)]
    exact .completed begun ended artifact
  | failed begun ended error =>
    rw [attempt_of_not_admits (by cases transition <;> rfl)]
    exact .failed begun ended error

end Course

namespace JobRecord

/-- This function gives the course of a record on which transitions are tried one after the other. -/
def course (record : JobRecord) (trials : List Trial) : Course :=
  trials.foldl Course.attempt ⟨record, []⟩

variable {record : JobRecord} {trials : List Trial}

theorem course_concat (record : JobRecord) (trials : List Trial) (trial : Trial) :
    record.course (trials ++ [trial]) = (record.course trials).attempt trial := by
  rw [course, List.foldl_append]
  rfl

/-- However many transitions are tried on a new record, its course is a proper one. -/
theorem proper_course (new : record.status = .queued) (trials : List Trial) :
    Course.Proper record (record.course trials) := by
  induction trials using List.reverseRecOn with
  | nil => exact .queued
  | append_singleton trials trial inductionHypothesis =>
    rw [course_concat]
    exact inductionHypothesis.attempt new trial

theorem taken_course_sublist (record : JobRecord) (trials : List Trial) :
    (record.course trials).taken.Sublist trials := by
  induction trials using List.reverseRecOn with
  | nil => exact List.Sublist.refl []
  | append_singleton trials trial inductionHypothesis =>
    rw [course_concat]
    exact (Course.taken_attempt_sublist _ trial).trans (inductionHypothesis.append_right [trial])

end JobRecord

/-- A record stands as it was made when it has the id, the time, the job and the input that it was made with, and the
hash of the source. -/
structure JobRecord.StandsAs (record : JobRecord) (id : JobId) (now : Time.Instant) (kind : JobKind)
    (input : JobInput) : Prop where
  id : record.id = id
  createdAt : record.createdAt = now
  kind : record.kind = kind
  sourceHash : record.sourceHash = Digest.ofText input.source
  input : record.input = input

namespace Course

/-- A course is faithful when its record is in the state that the last trial led to, and each field of its progress
is set just in the states that go with it, and to what the trial brought that set it. -/
structure Faithful (course : Course) : Prop where
  status : course.record.status = (course.taken.getLast?.map fun trial => trial.transition.target).getD .queued
  started : course.record.startedAt.isSome = true ↔ course.record.status ≠ .queued
  startedAt : ∀ now, course.record.startedAt = some now ↔ ⟨now, .start⟩ ∈ course.taken
  ended : course.record.completedAt.isSome = true ↔ course.record.status.isTerminal = true
  completedAt : ∀ now, course.record.completedAt = some now ↔
    ∃ transition, transition.target.isTerminal = true ∧ ⟨now, transition⟩ ∈ course.taken
  furnished : course.record.artifactId.isSome = true ↔ course.record.status = .completed
  artifactId : ∀ artifact, course.record.artifactId = some artifact ↔ ∃ now, ⟨now, .complete artifact⟩ ∈ course.taken
  broken : course.record.error.isSome = true ↔ course.record.status = .failed
  error : ∀ error, course.record.error = some error ↔ ∃ now, ⟨now, .fail error⟩ ∈ course.taken
  atMostTwo : course.taken.length ≤ 2

/-- A course refuses a trial when the report names the state of its record and the one that was tried for, and the
trial leaves no trace: a store that has the record is afterwards as it was, and so is its disk. -/
structure Refuses (course : Course) (trial : Trial) : Prop where
  reported : course.record.apply trial.now trial.transition = .error ⟨course.record.status, trial.transition.target⟩
  unchanged : course.attempt trial = course
  kept : ∀ (id : JobId) (store : JobStore) (fault : Option StoreFault) (disk : Disk),
    Table.get? id store.records = some course.record → (∀ text, fault ≠ some (.refused text)) →
      store.transition id trial.transition trial.now fault disk =
        (disk, store, .error (.invalidTransition ⟨course.record.status, trial.transition.target⟩))

variable {first : JobRecord} {course : Course} {trial : Trial} {id : JobId} {now : Time.Instant} {kind : JobKind}
  {input : JobInput}

theorem Proper.standsAs (proper : Proper (.new id now kind input) course) :
    course.record.StandsAs id now kind input := by
  cases proper <;> exact ⟨rfl, rfl, rfl, rfl, rfl⟩

/-- Each of the four proper courses is faithful: what a record shows is what the trials on its way brought. -/
theorem Proper.faithful (proper : Proper (.new id now kind input) course) : course.Faithful := by
  cases proper with
  | queued => constructor <;> grind [JobRecord.new, JobState.isTerminal]
  | running begun =>
    constructor <;> grind [JobRecord.new, JobRecord.write, JobState.isTerminal, Transition.target]
  | completed begun ended artifact =>
    constructor <;> grind [JobRecord.new, JobRecord.write, JobState.isTerminal, Transition.target]
  | failed begun ended error =>
    constructor <;> grind [JobRecord.new, JobRecord.write, JobState.isTerminal, Transition.target]

theorem refuses_of_not_admits (refused : course.admits trial = false) : course.Refuses trial where
  reported := apply_of_not_admits refused
  unchanged := attempt_of_not_admits refused
  kept id store fault disk found granted := by
    rw [JobStore.transition.eq_def]
    split
    · next text => exact absurd rfl (granted text)
    · rw [found]
      simp only [apply_of_not_admits refused]

end Course

/-- Whatever transitions are tried on a new record, in any number and order, it stands as it was made, its progress
is faithful to the trials it took, and it took two at most. A further trial is taken when it leads forward; else it
is refused, and then nothing is changed. -/
theorem JobRecord.course_of_new (id : JobId) (now : Time.Instant) (kind : JobKind) (input : JobInput)
    (trials : List Trial) :
    let course := (new id now kind input).course trials
    course.record.StandsAs id now kind input ∧ course.Faithful ∧ course.taken.Sublist trials ∧ ∀ trial,
      (JobState.Forward course.record.status trial.transition.target ∧
        ∃ after, course.record.apply trial.now trial.transition = .ok after ∧
          (new id now kind input).course (trials ++ [trial]) = ⟨after, course.taken ++ [trial]⟩) ∨
      (¬JobState.Forward course.record.status trial.transition.target ∧ course.Refuses trial ∧
        (new id now kind input).course (trials ++ [trial]) = course) := by
  intro course
  have proper : Course.Proper (new id now kind input) course := proper_course rfl trials
  refine ⟨proper.standsAs, proper.faithful, taken_course_sublist _ trials, fun trial => ?_⟩
  rw [course_concat, ← JobState.canBecome_iff, ← Course.admits]
  cases admitted : course.admits trial with
  | true => exact .inl ⟨rfl, _, Course.apply_of_admits admitted, Course.attempt_of_admits admitted⟩
  | false =>
    have refuses : course.Refuses trial := Course.refuses_of_not_admits admitted
    exact .inr ⟨by simp, refuses, refuses.unchanged⟩

/-- A job that has completed keeps its artifact when it is asked to fail, and its store does not change. -/
theorem JobRecord.course_of_new_completed :
    let trials : List Trial := [⟨.sample, .complete "early"⟩, ⟨.sample, .start⟩, ⟨.sample, .complete "a"⟩]
    let record := ((new "j" .sample .evm ⟨"contract Token", "Token", none, none⟩).course trials).record
    let store := JobStore.memory [("j", record)]
    record.artifactId = some "a" ∧ record.error = none ∧
      store.transition "j" (.fail ⟨.toolchain, "late", none⟩) .sample none .empty =
        (.empty, store, .error (.invalidTransition ⟨.completed, .failed⟩)) := by
  intro trials record store
  obtain ⟨-, faithful, -, further⟩ := course_of_new "j" .sample .evm ⟨"contract Token", "Token", none, none⟩ trials
  have unbroken : ¬record.error.isSome = true := fun broken => absurd (faithful.broken.mp broken) (by decide)
  refine ⟨(faithful.artifactId "a").mpr ⟨.sample, ?taken⟩, by simpa using unbroken, ?refused⟩
  case taken => exact List.mem_cons_of_mem _ List.mem_cons_self
  case refused =>
    rcases further ⟨.sample, .fail ⟨.toolchain, "late", none⟩⟩ with ⟨forward, -⟩ | ⟨-, refuses, -⟩
    · exact absurd ((JobState.canBecome_iff _ _).mpr forward) (by decide)
    · exact refuses.kept "j" store none .empty rfl (by simp)

end ContractWorks

import ContractWorks.Proofs.Queue.Delivery
import ContractWorks.Proofs.Queue.Founded
import ContractWorks.Proofs.Queue.Sparing
import ContractWorks.Proofs.Queue.Verdict

namespace ContractWorks

open ArtifactStore (isSafeId)

/-- A status of a job is well formed over a world when it has an error exactly as a failed one, a result exactly as a
completed one, and a progress that goes with its state. The result names what the record of the job says and the
warnings of the artifact that the store has, and the error is sparing with diagnostics. -/
structure JobStatus.WellFormed (world : World) (id : JobId) (status : JobStatus) : Prop where
  own : status.id = id
  error : status.error.isSome = true ↔ status.state = .failed
  result : status.result.isSome = true ↔ status.state = .completed
  names : ∀ result, status.result = some result → ∃ record artifact,
    Table.get? id world.jobs.records = some record ∧ record.status = .completed ∧
      record.artifactId = some result.artifactId ∧ result.contractName = record.input.contractName ∧
        world.artifacts.get result.artifactId none world.disk = .ok (some artifact) ∧
          result.warnings = artifact.warnings
  pending : status.state = .pending → status.progress = 0
  processing : status.state = .processing → status.progress ≤ 90
  ended : status.IsFinal → status.progress = 100
  sparing : ∀ error, status.error = some error → error.Sparing

/-- A live entry is modest when it does not say that its job has ended. -/
def LiveJob.Modest (entry : LiveJob) : Prop :=
  entry.progress ≤ Progress.outputCollected

theorem LiveJob.modest_raised {live : Option LiveJob} {progress : UInt8} (modest : ∀ entry ∈ live, entry.Modest)
    (low : progress ≤ Progress.outputCollected) : (LiveJob.raised live progress).Modest := by
  cases live with
  | none => exact low
  | some entry =>
    obtain ⟨_, same, few⟩ := View.raised_isLow ⟨entry, rfl, modest entry rfl⟩ low
    exact Option.some.inj same ▸ few

/-- The live entry of a job stays modest. -/
theorem View.modest_of_change {reason : Mark → Prop} {view next : View} (modest : ∀ entry ∈ view.live, entry.Modest)
    (change : Change reason view next) : ∀ entry ∈ next.live, entry.Modest := by
  have fresh : LiveJob.Modest ⟨.queued, Progress.queued⟩ := UInt8.zero_le
  cases change with
  | announce held becomes => exact becomes ▸ fun entry here => Option.some.inj here ▸ fresh
  | raise held works low becomes =>
    exact becomes ▸ fun entry here => Option.some.inj here ▸ LiveJob.modest_raised modest low
  | leave held becomes => exact becomes ▸ fun entry here => by simp at here
  | enter why becomes => exact becomes ▸ fun entry here => Option.some.inj here ▸ fresh
  | restart why becomes => exact becomes ▸ fun entry here => by simp at here
  | _ =>
    subst_vars
    exact modest

namespace StatusStep

/-- This function gives the job that a look is at. -/
def job : StatusStep → JobId
  | .reading id => id
  | .looking id _ => id
  | .fetching record _ => record.id

/-- A look is informed when the live entry that it has read is modest and belongs to a job that has a record, and when
the record that it has read is the one of a completed job and still stands. -/
def Informed (jobs : JobStore) : StatusStep → Prop
  | .reading _ => True
  | .looking id live => ∀ entry ∈ live, entry.Modest ∧ Table.get? id jobs.records ≠ none
  | .fetching record artifact => Table.get? record.id jobs.records = some record ∧ record.status = .completed ∧
      record.artifactId = some artifact

end StatusStep

/-- A task is informed when it is an informed look at the job that its call has asked for, if it is a look. -/
def Task.Informed (world : World) (number : Nat) : Task → Prop
  | .status step => .called number (.status step.job) ∈ world.history ∧ step.Informed world.jobs
  | _ => True

theorem Task.informed_of_duty {world : World} {number : Nat} {task : Task} (other : task.duty ≠ .status) :
    task.Informed world number := by
  cases task with
  | status step => exact absurd rfl other
  | _ => trivial

theorem ErrorRecord.Sparing.shown {error : Option ErrorRecord} (sparing : ∀ own, error = some own → own.Sparing) :
    (World.shownError error).Sparing := by
  rw [World.shownError.eq_def]
  split
  · split
    · exact .bare _ _
    · exact sparing _ rfl
  · exact .bare _ _

/-- A store finds an artifact that it has, if it can read it. -/
theorem ArtifactStore.Has.found {store : ArtifactStore} {artifact : Artifact} {disk : Disk}
    (has : store.Has artifact disk) (safe : isSafeId artifact.id = true) {found : Option Artifact}
    (got : store.get artifact.id none disk = .ok found) : ∃ read, found = some read := by
  cases store with
  | memory artifacts => exact ⟨artifact, Except.ok.inj (got.symm.trans (congrArg Except.ok has))⟩
  | file directory =>
    rw [ArtifactStore.get.eq_def] at got
    dsimp only at got
    rw [if_pos safe, JsonFile.load, has] at got
    dsimp only at got
    split at got
    · simp at got
    · split at got
      · exact ⟨_, (Except.ok.inj got).symm⟩
      · simp at got

namespace World

variable {setting : Setting} {storage : StorageConfig} {start world next : World} {first : Table JobId JobRecord}
  {number : Nat} {chance : Chance} {moves : List Move} {id : JobId} {record : JobRecord}

/-- A status without an artifact is well formed, if its job is not completed. -/
theorem wellFormed_statusOf {live : Option LiveJob} (own : record.id = id) (modest : ∀ entry ∈ live, entry.Modest)
    (sparing : record.Sparing) (lacks : record.status ≠ .completed) :
    (statusOf record live).WellFormed world id := by
  rw [statusOf.eq_def]
  split
  · constructor <;> simp [own, JobStatus.IsFinal, Progress.queued]
  · next entry _ =>
    have few : entry.progress ≤ 90 := modest entry rfl
    constructor <;> simp [own, JobStatus.IsFinal, few]
  · have bare : ErrorRecord.infra.Sparing := .bare _ _
    constructor <;> simp [own, bare, Progress.terminal]
  · next completed => exact absurd completed lacks
  · have shown : (shownError record.error).Sparing := .shown sparing
    constructor <;> simp [own, shown, Progress.terminal]

/-- A status with an artifact is well formed, if the store has it. -/
theorem wellFormed_statusWithResult {name : ArtifactId} {artifact : Artifact}
    (stands : Table.get? record.id world.jobs.records = some record) (completed : record.status = .completed)
    (names : record.artifactId = some name) (read : world.artifacts.get name none world.disk = .ok (some artifact)) :
    (statusWithResult record name (some artifact)).WellFormed world record.id where
  own := rfl
  error := by simp [statusWithResult]
  result := by simp [statusWithResult]
  names result same := by
    obtain rfl := Option.some.inj same
    exact ⟨record, artifact, stands, completed, names, rfl, read, rfl⟩
  pending := by simp [statusWithResult]
  processing := by simp [statusWithResult]
  ended _ := rfl
  sparing := by simp [statusWithResult]

/-- A world is poised to answer when its jobs are founded and its errors sparing, when no live entry says that its job
has ended, and when all looks are informed. -/
structure Poised (world : World) : Prop where
  founded : world.Founded
  sparing : world.IsSparing
  modest : ∀ id, ∀ entry ∈ (world.view id).live, entry.Modest
  informed : ∀ number task, Table.get? number world.tasks = some task → task.Informed world number

/-- What has been seen of a queue is not forgotten. -/
theorem kept_of_move {move : Move} (numbered : world.Numbered) (moved : move? setting world move = some next)
    {event : Event} (told : event ∈ world.history) : event ∈ next.history := by
  cases move with
  | call call =>
    rw [← Option.some.inj moved]
    exact (outcome_call numbered call).kept (List.mem_append_left _ told)
  | deliver id => exact Option.some.inj moved ▸ told
  | restart =>
    obtain ⟨_, _, _, _, _, _, rfl⟩ := stores_of_restart moved
    exact told
  | step number chance =>
    obtain ⟨task, _, stepped⟩ := task_of_step moved
    exact (outcome_of_step numbered stepped).kept told

theorem kept_of_run (confined : ∀ data, storage = .file data → setting.Confined data) {event : Event}
    (moves : List Move) : ∀ {world : World}, world.Guarded setting storage → event ∈ world.history →
      (∀ number chance, .step number chance ∈ moves → isSafeId chance.name = true) →
        event ∈ (run setting world moves).history := by
  induction moves with
  | nil => exact fun _ told _ => told
  | cons move moves inductionHypothesis =>
    intro world guarded told safe
    have after := (guarded.move confined move fun number chance same =>
      safe number chance (same ▸ List.mem_cons_self)).1
    refine inductionHypothesis after ?_ fun number chance member => safe number chance (List.mem_cons_of_mem _ member)
    rw [World.move]
    cases moved : move? setting world move with
    | none => exact told
    | some next => exact kept_of_move guarded.tidy.numbered moved told

/-- A look stays informed when other tasks move. -/
theorem informed_of_move {task : Task} (informed : task.Informed world number)
    (guarded : world.Guarded setting storage) {move : Move} (moved : move? setting world move = some next) :
    task.Informed next number := by
  have change := (guarded.advances moved).change
  cases task with
  | status step =>
    obtain ⟨asked, knows⟩ := informed
    refine ⟨kept_of_move guarded.tidy.numbered moved asked, ?_⟩
    cases step with
    | reading id => trivial
    | looking id live =>
      exact fun entry here => ⟨(knows entry here).1, View.recorded_of_change (change id) (knows entry here).2⟩
    | fetching record artifact =>
      obtain ⟨stands, completed, names⟩ := knows
      exact ⟨View.record_of_change (change record.id) stands (by rw [completed]; rfl), completed, names⟩
  | _ => trivial

/-- What a look comes to is informed. -/
theorem Poised.look (poised : world.Poised) (keyed : world.jobs.Keyed) {step : StatusStep}
    (informed : (Task.status step).Informed world number) :
    (world.stepStatus number chance step).Comes number
      (Task.Informed (world.stepStatus number chance step) number) := by
  obtain ⟨asked, knows⟩ := informed
  generalize stepped : world.stepStatus number chance step = next
  cases statusBranch stepped with
  | @reads id =>
    exact comes_goOn ⟨asked, fun entry here =>
      ⟨poised.modest id entry here, (poised.founded.jobs id).live (Option.ne_none_iff_exists'.mpr ⟨entry, here⟩)⟩⟩
  | finds got completed made =>
    have stands := (JobStore.get_eq_ok got).symm
    obtain rfl := keyed.keyed stands
    exact comes_goOn ⟨asked, stands, completed, made⟩
  | _ => exact comes_endTask

/-- Every move keeps a world poised. -/
theorem Poised.proceed (poised : world.Poised) (guarded : world.Guarded setting storage) {move : Move}
    (moved : move? setting world move = some next) : next.Poised where
  founded := poised.founded.move guarded.tidy (guarded.advances moved) moved
  sparing := poised.sparing.proceed guarded moved
  modest id := View.modest_of_change (poised.modest id) ((guarded.advances moved).change id)
  informed := by
    refine tasks_of_move (Task.Informed world) guarded.tidy.numbered poised.informed moved
      (fun _ _ before => informed_of_move before guarded moved) (fun number task helps => ?_)
      (fun call task begins opening => ?_) fun number chance task _ before stepped => ?_
    · exact Task.informed_of_duty (by cases task <;> simp_all [Task.Helps, Task.duty])
    · subst begins
      cases opening with
      | status id =>
        obtain rfl := Option.some.inj moved
        exact ⟨List.mem_append_right _ (List.mem_singleton_self _), trivial⟩
      | _ => trivial
    · have others (other : task.duty ≠ .status) : next.Comes number (Task.Informed next number) :=
        comes_of_duty guarded.tidy.numbered stepped fun _ same => Task.informed_of_duty (same ▸ other)
      cases task with
      | status step =>
        obtain rfl := Option.some.inj stepped
        exact poised.look guarded.tidy.keyed before
      | _ => exact others (by simp [Task.duty])

/-- Every run keeps a world poised. -/
theorem poised_run (confined : ∀ data, storage = .file data → setting.Confined data)
    (guarded : start.Guarded setting storage) (poised : start.Poised) (moves : List Move)
    (safe : ∀ number chance, .step number chance ∈ moves → isSafeId chance.name = true) :
    (run setting start moves).Poised := by
  induction moves using List.reverseRecOn with
  | nil => exact poised
  | append_singleton moves last inductionHypothesis =>
    have safeBefore (number : Nat) (chance : Chance) (member : .step number chance ∈ moves) :
        isSafeId chance.name = true := safe number chance (List.mem_append_left _ member)
    have before := inductionHypothesis safeBefore
    rw [run_concat, World.move]
    cases moved : move? setting (run setting start moves) last with
    | none => exact before
    | some next => exact before.proceed (guarded.run confined safeBefore) moved

/-- A new process over stores without records is poised. -/
theorem poised_new {disk : Disk} {jobs : JobStore} {artifacts : ArtifactStore}
    (bare : ∀ id, Table.get? id jobs.records = none) : (new setting disk jobs artifacts).Poised where
  founded := founded_of_idle (fun _ => rfl) rfl rfl
  sparing := ⟨fun _ _ found => by simp [new] at found, fun id record found => by
    have none : Table.get? id jobs.records = some record := found
    simp [bare] at none⟩
  modest id entry here := by simp [view, viewWith, new] at here
  informed _ _ found := by simp [new] at found

/-- An answer that a move brings is the verdict on the call that begins, or a step of the task gives it. -/
theorem origin_of_told {move : Move} {answer : Answer} (numbered : world.Numbered)
    (moved : move? setting world move = some next) (new : .answered number answer ∉ world.history)
    (told : .answered number answer ∈ next.history) :
    (∃ call error, move = .call call ∧ number = world.nextTask ∧ setting.verdict? call = some error ∧
      answer = .submitted (.error error)) ∨
    ∃ chance task, move = .step number chance ∧ Table.get? number world.tasks = some task ∧
      answer.duty = task.duty ∧ stepTask setting world number chance task = some next := by
  cases move with
  | call call =>
    rw [← Option.some.inj moved, history_beginCall, opened, note] at told
    rcases List.mem_append.mp told with before | now
    · exact absurd (by simpa using before) new
    · obtain ⟨error, verdict, same⟩ := List.mem_map.mp now
      obtain ⟨rfl, rfl⟩ := Event.answered.inj same
      exact .inl ⟨call, error, rfl, rfl, Option.mem_toList.mp verdict, rfl⟩
  | deliver id =>
    rw [← Option.some.inj moved] at told
    exact absurd told new
  | restart =>
    obtain ⟨_, _, _, _, _, _, rfl⟩ := stores_of_restart moved
    exact absurd told new
  | step other chance =>
    obtain ⟨task, found, stepped⟩ := task_of_step moved
    rcases (outcome_of_step numbered stepped).answers told with before | ⟨rfl, duty, _⟩
    · exact absurd before new
    · exact .inr ⟨chance, task, rfl, found, duty, stepped⟩

/-- An answer to a look that a move brings is given by a step of this look. -/
theorem step_of_told {move : Move} {result : Except QueueError (Option JobStatus)} (numbered : world.Numbered)
    (moved : move? setting world move = some next) (new : .answered number (.status result) ∉ world.history)
    (told : .answered number (.status result) ∈ next.history) :
    ∃ chance step, move = .step number chance ∧ Table.get? number world.tasks = some (.status step) ∧
      next = world.stepStatus number chance step := by
  rcases origin_of_told numbered moved new told with
    ⟨_, _, _, _, _, other⟩ | ⟨chance, task, rfl, found, duty, stepped⟩
  · simp at other
  · cases task with
    | status step => exact ⟨chance, step, rfl, found, (Option.some.inj stepped).symm⟩
    | _ => simp [Answer.duty, Task.duty] at duty

/-- What has been seen after a run has been seen first after one of its moves. -/
theorem exists_first {event : Event} (absent : event ∉ start.history)
    (told : event ∈ (run setting start moves).history) :
    ∃ early move late next, moves = early ++ move :: late ∧ move? setting (run setting start early) move = some next ∧
      event ∉ (run setting start early).history ∧ event ∈ next.history := by
  induction moves using List.reverseRecOn with
  | nil => exact absurd told absent
  | append_singleton moves last inductionHypothesis =>
    by_cases before : event ∈ (run setting start moves).history
    · obtain ⟨early, move, late, next, rfl, rest⟩ := inductionHypothesis before
      exact ⟨early, move, late ++ [last], next, by simp, rest⟩
    · rw [run_concat, World.move] at told
      cases moved : move? setting (run setting start moves) last with
      | none => exact absurd (by simpa [moved] using told) before
      | some next => exact ⟨moves, last, [], next, rfl, moved, before, by simpa [moved] using told⟩

/-- A world shows of a job what it may when nothing is found of a job that has neither a record nor a live entry, and
only of such a one, and when what is found is well formed. -/
def Shows (world : World) (id : JobId) (found : Option JobStatus) : Prop :=
  (found = none ↔ Table.get? id world.jobs.records = none ∧ Table.get? id world.live = none) ∧
    ∀ status, found = some status → status.WellFormed world id

theorem shows_some {status : JobStatus} (stands : Table.get? id world.jobs.records = some record)
    (formed : status.WellFormed world id) : world.Shows id (some status) :=
  ⟨by simp [stands], fun _ same => Option.some.inj same ▸ formed⟩

/-- What a look tells is what the world shows in which it tells it. -/
theorem Poised.shows (poised : world.Poised) (accounted : Accounted setting storage start moves world)
    (stamps : setting.Stamps) (fresh : Fresh first moves) {step : StatusStep}
    (informed : (Task.status step).Informed world number) {found : Option JobStatus}
    (new : .answered number (.status (.ok found)) ∉ world.history)
    (told : .answered number (.status (.ok found)) ∈ (world.stepStatus number chance step).history) :
    world.Shows step.job found := by
  have now {result : Except QueueError (Option JobStatus)}
      (here : .answered number (.status (.ok found)) ∈ (world.answer number (.status result)).history) :
      result = .ok found := by
    rcases List.mem_append.mp here with before | last
    · exact absurd before new
    · obtain ⟨_, same⟩ := Event.answered.inj (List.mem_singleton.mp last)
      exact (Answer.status.inj same).symm
  have knows := informed.2
  generalize stepped : world.stepStatus number chance step = next at told
  cases statusBranch stepped with
  | reads | finds => exact absurd told new
  | unread | breaks => simpa using now told
  | @misses id got =>
    have absent := (JobStore.get_eq_ok got).symm
    have alone : Table.get? id world.live = none := by
      by_contra there
      exact (poised.founded.jobs id).live there absent
    obtain rfl := Except.ok.inj (now told)
    exact ⟨⟨fun _ => ⟨absent, alone⟩, fun _ => rfl⟩, fun _ same => by simp at same⟩
  | @shows id entry got =>
    -- A live entry that has been read belongs to a job that has a record now.
    exact absurd (JobStore.get_eq_ok got).symm (knows entry rfl).2
  | @tells id live record got rest =>
    have stands := (JobStore.get_eq_ok got).symm
    obtain rfl := Except.ok.inj (now told)
    refine shows_some stands (wellFormed_statusOf (accounted.guarded.tidy.keyed.keyed stands)
      (fun entry here => (knows entry here).1) (poised.sparing.records id record stands) fun completed => ?_)
    obtain ⟨artifact, names, _⟩ := accounted.completed id record stands completed
    exact rest artifact completed names
  | fetches got =>
    obtain ⟨stands, completed, names⟩ := knows
    obtain rfl := Except.ok.inj (now told)
    obtain ⟨_, same, work, made, _, rfl, _, makes, has⟩ := accounted.completed _ _ stands completed
    obtain rfl := Option.some.inj (names.symm.trans same)
    have safe : isSafeId made.id = true := fresh.safe _ (makes.named stamps)
    obtain ⟨read, rfl⟩ := has.found safe (ArtifactStore.get_eq_ok got)
    exact shows_some stands (wellFormed_statusWithResult stands completed names (ArtifactStore.get_eq_ok got))

/-- Whatever the compilers make, however the stores fail and whenever the process is lost, each answer to a look at a
job is what the world shows in which it is given: nothing of a job without a record and a live entry, and else a status
that is well formed. -/
theorem answers_wellFormed {before disk : Disk} {stores : Stores}
    (opened : Stores.ofConfig storage before = (disk, .ok stores))
    (empty : ∀ data, storage = .file data → disk.list (Path.join data "jobs") = .ok []) (stamps : setting.Stamps)
    (confined : ∀ data, storage = .file data → setting.Confined data) (moves : List Move)
    (fresh : Fresh stores.jobs.records moves) :
    let start := new setting disk stores.jobs stores.artifacts
    ∀ number id found, .called number (.status id) ∈ (run setting start moves).history →
      .answered number (.status (.ok found)) ∈ (run setting start moves).history →
        ∃ early chance late, moves = early ++ .step number chance :: late ∧
          .answered number (.status (.ok found)) ∉ (run setting start early).history ∧
            .answered number (.status (.ok found)) ∈ (run setting start (early ++ [.step number chance])).history ∧
              (run setting start early).Shows id found := by
  intro start number id found called told
  obtain ⟨stored, bare⟩ := Stored.of_ofConfig opened empty
  have guarded : start.Guarded setting storage := guarded_new stored
  have safe (number : Nat) (chance : Chance) (member : .step number chance ∈ moves) : isSafeId chance.name = true :=
    fresh.safe _ (List.mem_filterMap.mpr ⟨_, member, rfl⟩)
  have judged := judged_run guarded confined rfl rfl moves safe
  have silent : start.history = [] := rfl
  obtain ⟨early, move, late, next, rfl, moved, new, brought⟩ := exists_first (by simp [silent]) told
  have safeEarly (number : Nat) (chance : Chance) (member : .step number chance ∈ early) :
      isSafeId chance.name = true := safe number chance (List.mem_append_left _ member)
  have between := guarded.run confined safeEarly
  have poised := poised_run confined guarded (poised_new bare) early safeEarly
  have accounted : Accounted setting storage start early (run setting start early) :=
    accounted_run (accounted_new opened empty) stamps confined fresh.left
  obtain ⟨chance, step, rfl, found, rfl⟩ := step_of_told between.tidy.numbered moved new brought
  have informed := poised.informed number _ found
  have asked :
      .called number (.status step.job) ∈ (run setting start (early ++ .step number chance :: late)).history := by
    rw [run_append]
    refine kept_of_run confined _ between informed.1 fun other chance member => ?_
    exact safe other chance (List.mem_append_right _ member)
  have same : Call.status step.job = .status id := judged.single asked called
  obtain rfl : step.job = id := Call.status.inj same
  refine ⟨early, chance, late, rfl, new, ?_, poised.shows accounted stamps fresh.left informed new brought⟩
  rw [run_concat, World.move, moved]
  exact brought

/-- This host answers as a compiler does that gives up. -/
def faultyHost : Host :=
  Playback.host { stderr := "Stack too deep.".toUTF8, exit := 1 }

/-- This setting compiles on that host, with one worker. -/
def faultySetting : Setting :=
  ⟨{ workers := 1 }, ⟨"work", "forge-job-"⟩, ToolchainConfig.compiler {} faultyHost⟩

/-- In these moves a client asks for the job after its compiler has given up. -/
def faultyAsked : List Move :=
  tokenMoves ++ .call (.status "i") :: takeSteps 3 ["x", "y"]

/-- This is the world after these moves. -/
def faultyShown : World :=
  run faultySetting (new faultySetting servedDisk (.file (Path.join "data" "jobs") [])
    (.file (Path.join "data" "artifacts"))) faultyAsked

/-- This function gives the looks that have begun, by their numbers. -/
def looks (history : List Event) : List (Nat × JobId) :=
  history.filterMap fun event =>
    match event with
    | .called number (.status id) => some (number, id)
    | _ => none

/-- This function gives what looks have found, by their numbers. -/
def finds (history : List Event) : List (Nat × Option JobStatus) :=
  history.filterMap fun event =>
    match event with
    | .answered number (.status (.ok found)) => some (number, found)
    | _ => none

theorem mem_of_looks {history : List Event} (member : (number, id) ∈ looks history) :
    .called number (.status id) ∈ history := by
  obtain ⟨event, told, same⟩ := List.mem_filterMap.mp member
  split at same
  · obtain ⟨rfl, rfl⟩ := Prod.mk.inj (Option.some.inj same)
    exact told
  · simp at same

theorem mem_of_finds {history : List Event} {found : Option JobStatus} (member : (number, found) ∈ finds history) :
    .answered number (.status (.ok found)) ∈ history := by
  obtain ⟨event, told, same⟩ := List.mem_filterMap.mp member
  split at same
  · obtain ⟨rfl, rfl⟩ := Prod.mk.inj (Option.some.inj same)
    exact told
  · simp at same

theorem answers_wellFormed_faultyAsked : ∃ (early late : List Move) (chance : Chance) (status : JobStatus),
    faultyAsked = early ++ .step 3 chance :: late ∧
      status.error = some ⟨.toolchain, "solc exited with status Some(1)", some "Stack too deep."⟩ ∧
        status.WellFormed (run faultySetting (new faultySetting servedDisk (.file (Path.join "data" "jobs") [])
          (.file (Path.join "data" "artifacts"))) early) "i" := by
  have empty (data : String) (same : StorageConfig.file "data" = .file data) :
      servedDisk.list (Path.join data "jobs") = .ok [] := by
    obtain rfl := StorageConfig.file.inj same
    exact list_servedDisk
  have stamps : faultySetting.Stamps := ToolchainConfig.stamps {} faultyHost _ _
  have confined (data : String) (same : StorageConfig.file "data" = .file data) : faultySetting.Confined data := by
    obtain rfl := StorageConfig.file.inj same
    exact ToolchainConfig.confined (Playback.confined rfl rfl) Setting.scripted_confined.apart
  have fresh : Fresh (JobStore.file (Path.join "data" "jobs") []).records faultyAsked := by
    have names : faultyAsked.filterMap Move.name? = ["a", "b", "c", "d", "e", "f", "g", "h", "i", "j", "k", "l", "m",
        "n", "o", "p", "q", "r", "s", "t", "u", "v", "w", "x", "y"] := rfl
    refine ⟨?_, ?_, ?_⟩
    · rw [names]
      decide
    · rw [names]
      decide
    · rintro name _ ⟨id, record, found, _⟩
      simp [JobStore.records] at found
  have asked : (3, "i") ∈ looks faultyShown.history := by decide +kernel
  have found : (3, some ⟨"i", .failed, 100, none,
      some ⟨.toolchain, "solc exited with status Some(1)", some "Stack too deep."⟩⟩) ∈ finds faultyShown.history := by
    decide +kernel
  obtain ⟨early, chance, late, split, _, _, _, shown⟩ := answers_wellFormed ofConfig_servedDisk empty stamps confined
    faultyAsked fresh 3 "i" _ (mem_of_looks asked) (mem_of_finds found)
  exact ⟨early, late, chance, _, split, rfl, shown _ rfl⟩

end World

end ContractWorks

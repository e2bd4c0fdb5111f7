import ContractWorks.Proofs.Queue.Dealing
import ContractWorks.Proofs.Queue.Attempt
import ContractWorks.Proofs.Queue.Resolution

namespace ContractWorks

open Path (Plain)

theorem View.holds_of_change {reason : Mark → Prop} {view next : View} (change : Change reason view next)
    {asked : JobKind} {given : JobInput} {record : JobRecord} (found : view.record = some record)
    (holds : record.Holds asked given) : ∃ after, next.record = some after ∧ after.Holds asked given := by
  rcases change.record_cases with same | ⟨_, free, _⟩ | ⟨before, after, transition, now, there, becomes, applied⟩
  · exact ⟨record, same.trans found, holds⟩
  · simp [found] at free
  · obtain rfl := Option.some.inj (found.symm.trans there)
    obtain ⟨_, rfl⟩ := JobStore.apply_eq_ok applied
    exact ⟨_, becomes, holds.write now transition⟩

/-- A verdict on a call is the error that it is answered with at once. -/
def Setting.verdict? (setting : Setting) (call : Call) : Option QueueError :=
  match call.asked? with
  | none => none
  | some (.error error) => some error
  | some (.ok (kind, input)) =>
    let outcome := setting.gate kind input
    if outcome.valid then none
    else some (.validation (outcome.code.getD .invalidInput) (outcome.error.getD ""))

/-- The verdict on a submission that offers a source is that of the gate. -/
theorem Setting.verdict?_of_offers (setting : Setting) {submission : Submission} {source : String}
    (offers : submission.Offers source) (code : ErrorCode) (message : String) :
    setting.verdict? (.request submission) = some (.validation code message) ↔
      Source.validate setting.config.maxSourceBytes.toNat source submission.kind.language = .invalid code message := by
  obtain ⟨input, resolved, rfl⟩ := offers.resolve
  rw [Setting.verdict?, Call.asked?, resolved]
  dsimp only
  rw [Setting.gate]
  rcases Source.validate_cases setting.config.maxSourceBytes.toNat input.source submission.kind.language with
    passes | ⟨own, text, refused⟩
  · rw [passes]
    simp [ValidationOutcome.ok, ValidationOutcome.invalid]
  · rw [refused]
    simp [ValidationOutcome.invalid, and_comm]

namespace World

variable {setting : Setting} {storage : StorageConfig} {start world next : World} {number other : Nat}
  {chance : Chance} {moves : List Move} {code : ErrorCode} {message : String}

/-- A call is answered at once when there is a verdict on it, and not yet when there is none. -/
theorem history_beginCall (setting : Setting) (world : World) (call : Call) :
    (beginCall setting world call).history = (world.opened call).history ++
      (setting.verdict? call).toList.map fun error => .answered world.nextTask (.submitted (.error error)) := by
  generalize begun : beginCall setting world call = next
  cases callBranch begun with
  | unresolved asked =>
    rw [Setting.verdict?, asked]
    rfl
  | refuses asked refused =>
    rw [Setting.verdict?, asked]
    dsimp only
    rw [if_neg (by simp [refused])]
    rfl
  | submits asked valid =>
    rw [Setting.verdict?, asked]
    dsimp only
    rw [if_pos valid]
    exact (List.append_nil _).symm
  | _ => exact (List.append_nil _).symm

/-- A world is judged when each number belongs to one call, and when the calls that are told of a source that is refused
are those on which this is the verdict. -/
structure Judged (setting : Setting) (world : World) : Prop where
  numbered : ∀ {number call}, .called number call ∈ world.history → number < world.nextTask
  single : ∀ {number first second}, .called number first ∈ world.history → .called number second ∈ world.history →
    first = second
  verdict : ∀ {number call}, .called number call ∈ world.history → ∀ code message,
    .answered number (.submitted (.error (.validation code message))) ∈ world.history ↔
      setting.verdict? call = some (.validation code message)

theorem judged_of_silent (silent : world.history = []) : world.Judged setting where
  numbered told := by simp [silent] at told
  single told := by simp [silent] at told
  verdict told := by simp [silent] at told

/-- What adds no call and tells nobody of a refused source leaves a world judged. -/
theorem Judged.pass (judged : world.Judged setting) (nextTask : world.nextTask ≤ next.nextTask)
    (calls : ∀ number call, .called number call ∈ next.history → .called number call ∈ world.history)
    (answers : ∀ number code message, .answered number (.submitted (.error (.validation code message))) ∈ next.history →
      .answered number (.submitted (.error (.validation code message))) ∈ world.history)
    (kept : ∀ event ∈ world.history, event ∈ next.history) : next.Judged setting where
  numbered told := Nat.lt_of_lt_of_le (judged.numbered (calls _ _ told)) nextTask
  single first second := judged.single (calls _ _ first) (calls _ _ second)
  verdict told code message :=
    ⟨fun answered => (judged.verdict (calls _ _ told) code message).mp (answers _ _ _ answered),
      fun verdict => kept _ ((judged.verdict (calls _ _ told) code message).mpr verdict)⟩

/-- No step of a submission finds that its source is refused. -/
theorem validation_of_stepSubmit {step : SubmitStep}
    (told : .answered other (.submitted (.error (.validation code message))) ∈
      (world.stepSubmit number chance step).history) :
    .answered other (.submitted (.error (.validation code message))) ∈ world.history := by
  have old {base : World} {answer : Answer} (history : base.history = world.history)
      (apart : answer ≠ .submitted (.error (.validation code message)))
      (member : .answered other (.submitted (.error (.validation code message))) ∈
        (base.answer number answer).history) :
      .answered other (.submitted (.error (.validation code message))) ∈ world.history := by
    rcases List.mem_append.mp member with before | now
    · exact history ▸ before
    · obtain ⟨_, same⟩ := Event.answered.inj (List.mem_singleton.mp now)
      exact absurd same.symm apart
  generalize stepped : world.stepSubmit number chance step = next at told
  cases submitBranch stepped with
  | closed | full | sends => exact old rfl (by simp) told
  | fails =>
    refine old ?_ (by simp) told
    rfl
  | reserves | inserts | enters => exact told

/-- A step makes no call. -/
theorem Outcome.calls {duty : Duty} (outcome : Outcome number duty world next) {other : Nat} {call : Call}
    (told : .called other call ∈ next.history) : .called other call ∈ world.history := by
  cases outcome with
  | goOn follows same => exact follows.history ▸ told
  | ended follows => exact follows.history ▸ told
  | invoked follows same =>
    rcases List.mem_append.mp told with before | now
    · exact follows.history ▸ before
    · simp at now
  | answered follows same =>
    rcases List.mem_append.mp told with before | now
    · exact follows.history ▸ before
    · simp at now

/-- A call is judged as it begins. -/
theorem Judged.call (judged : world.Judged setting) (closed : world.Closed) (call : Call) :
    (beginCall setting world call).Judged setting := by
  have events (event : Event) : event ∈ (beginCall setting world call).history ↔ event ∈ world.history ∨
      event = .called world.nextTask call ∨ ∃ error, setting.verdict? call = some error ∧
        event = .answered world.nextTask (.submitted (.error error)) := by
    rw [history_beginCall, opened, note]
    cases setting.verdict? call <;> simp
  have silent (answer : Answer) : .answered world.nextTask answer ∉ world.history :=
    fun told => Nat.lt_irrefl _ (closed _ _ told).1
  have calls {number : Nat} {made : Call} (told : .called number made ∈ (beginCall setting world call).history) :
      (.called number made ∈ world.history ∧ number < world.nextTask) ∨ (number = world.nextTask ∧ made = call) := by
    rcases (events _).mp told with before | now | ⟨_, _, other⟩
    · exact .inl ⟨before, judged.numbered before⟩
    · exact .inr (Event.called.inj now)
    · simp at other
  refine ⟨fun told => ?_, fun first second => ?_, fun told code message => ?_⟩
  · rw [nextTask_beginCall]
    rcases calls told with ⟨_, below⟩ | ⟨rfl, _⟩
    · exact Nat.lt_succ_of_lt below
    · exact Nat.lt_succ_self _
  · rcases calls first with ⟨before, below⟩ | ⟨rfl, rfl⟩
    · rcases calls second with ⟨earlier, _⟩ | ⟨rfl, _⟩
      · exact judged.single before earlier
      · exact absurd below (Nat.lt_irrefl _)
    · rcases calls second with ⟨_, below⟩ | ⟨_, rfl⟩
      · exact absurd below (Nat.lt_irrefl _)
      · rfl
  · rw [events]
    rcases calls told with ⟨before, below⟩ | ⟨rfl, rfl⟩
    · rw [← judged.verdict before]
      refine ⟨fun answered => ?_, .inl⟩
      rcases answered with earlier | other | ⟨_, _, other⟩
      · exact earlier
      · simp at other
      · exact absurd (Event.answered.inj other).1 (Nat.ne_of_lt below)
    · refine ⟨fun answered => ?_, fun verdict => .inr (.inr ⟨_, verdict, rfl⟩)⟩
      rcases answered with earlier | other | ⟨error, verdict, same⟩
      · exact absurd earlier (silent _)
      · simp at other
      · obtain ⟨_, same⟩ := Event.answered.inj same
        obtain rfl : QueueError.validation code message = error := by simpa using same
        exact verdict

/-- Each move leaves a world judged. -/
theorem Judged.move (judged : world.Judged setting) (tidy : world.Tidy) (closed : world.Closed) {move : Move}
    (moved : move? setting world move = some next) : next.Judged setting := by
  cases move with
  | call call =>
    rw [← Option.some.inj moved]
    exact judged.call closed call
  | deliver id =>
    rw [← Option.some.inj moved]
    exact judged.pass (Nat.le_refl _) (fun _ _ told => told) (fun _ _ _ told => told) fun _ told => told
  | restart =>
    obtain ⟨_, _, _, _, _, _, rfl⟩ := stores_of_restart moved
    exact judged.pass (Nat.le_refl _) (fun _ _ told => told) (fun _ _ _ told => told) fun _ told => told
  | step number chance =>
    obtain ⟨task, found, stepped⟩ := task_of_step moved
    have outcome := outcome_of_step tidy.numbered stepped
    refine judged.pass outcome.nextTask (fun _ _ told => outcome.calls told) (fun other code message told => ?_)
      fun _ told => outcome.kept told
    rcases outcome.answers told with before | ⟨_, duty, _⟩
    · exact before
    · cases task with
      | submit step =>
        rw [← Option.some.inj stepped] at told
        exact validation_of_stepSubmit told
      | _ => simp [Answer.duty, Task.duty] at duty

/-- Each world that a run comes to is judged. -/
theorem judged_run (guarded : start.Guarded setting storage)
    (confined : ∀ data, storage = .file data → setting.Confined data) (idle : start.tasks = [])
    (silent : start.history = []) (moves : List Move)
    (safe : ∀ number chance, .step number chance ∈ moves → ArtifactStore.isSafeId chance.name = true) :
    (run setting start moves).Judged setting := by
  induction moves using List.reverseRecOn with
  | nil => exact judged_of_silent silent
  | append_singleton moves last inductionHypothesis =>
    have safeBefore (number : Nat) (chance : Chance) (member : .step number chance ∈ moves) :
        ArtifactStore.isSafeId chance.name = true := safe number chance (List.mem_append_left _ member)
    have before := inductionHypothesis safeBefore
    have tidy := (guarded.run confined safeBefore).tidy
    have closed := (deals_of_run guarded confined idle silent 0 moves safeBefore).1
    rw [run_concat, World.move]
    cases moved : move? setting (run setting start moves) last with
    | none => exact before
    | some next => exact before.move tidy closed moved

/-- The record of a job holds the same input through a run. -/
theorem holds_run (confined : ∀ data, storage = .file data → setting.Confined data) {id : JobId} {asked : JobKind}
    {given : JobInput} {moves : List Move} : ∀ {world : World} {record : JobRecord}, world.Guarded setting storage →
      (world.view id).record = some record → record.Holds asked given →
        (∀ number chance, .step number chance ∈ moves → ArtifactStore.isSafeId chance.name = true) →
          ∃ after, ((run setting world moves).view id).record = some after ∧ after.Holds asked given := by
  induction moves with
  | nil => exact fun _ found holds _ => ⟨_, found, holds⟩
  | cons move moves inductionHypothesis =>
    intro world record guarded found holds safe
    obtain ⟨later, stands, still⟩ :
        ∃ after, ((World.move setting world move).view id).record = some after ∧ after.Holds asked given := by
      rw [World.move]
      cases moved : move? setting world move with
      | none => exact ⟨record, found, holds⟩
      | some next => exact View.holds_of_change ((guarded.advances moved).change id) found holds
    have after := (guarded.move confined move fun number chance same =>
      safe number chance (same ▸ List.mem_cons_self)).1
    exact inductionHypothesis after stands still fun number chance member =>
      safe number chance (List.mem_cons_of_mem _ member)

/-- A run comes to the world after each dealing, and goes on from there. -/
theorem run_of_mem_dealings {deal : World × World} (member : deal ∈ dealings setting number start moves) :
    ∃ early late, moves = early ++ late ∧ deal.2 = run setting start early := by
  induction moves generalizing start with
  | nil => simp [dealings] at member
  | cons move moves inductionHypothesis =>
    have further (next : World) (becomes : World.move setting start move = next)
        (later : deal ∈ dealings setting number next moves) :
        ∃ early late, move :: moves = early ++ late ∧ deal.2 = run setting start early := by
      obtain ⟨early, late, rfl, same⟩ := inductionHypothesis later
      exact ⟨move :: early, late, rfl, by rw [same, ← becomes]; rfl⟩
    rw [dealings] at member
    cases moved : move? setting start move with
    | none =>
      rw [moved] at member
      exact further start (by rw [World.move, moved, Option.getD_none]) member
    | some next =>
      have becomes : World.move setting start move = next := by rw [World.move, moved, Option.getD_some]
      rw [moved] at member
      dsimp only at member
      split at member
      · rcases List.mem_cons.mp member with rfl | later
        · exact ⟨[move], moves, rfl, becomes.symm⟩
        · exact further next becomes later
      · exact further next becomes member

/-- The job of a submission that has been accepted has a record, and this holds what was asked for. -/
theorem holds_of_accepted (guarded : start.Guarded setting storage)
    (confined : ∀ data, storage = .file data → setting.Confined data) (idle : start.tasks = [])
    (silent : start.history = [])
    (safe : ∀ number chance, .step number chance ∈ moves → ArtifactStore.isSafeId chance.name = true) {id : JobId}
    (accepted : .answered number (.submitted (.ok id)) ∈ (run setting start moves).history) :
    ∃ kind input record, (run setting start moves).Wants number kind input ∧
      ((run setting start moves).view id).record = some record ∧ record.Holds kind input := by
  have made := (deals_of_run guarded confined idle silent number moves safe).2.accepted id accepted
  generalize shape : dealings setting number start moves = deals at made
  cases made with
  | @made called reserved stored entered sent now kind input wanted calls reserves stores enters sends =>
    have member : stored ∈ dealings setting number start moves := by simp [shape]
    obtain ⟨early, late, rfl, same⟩ := run_of_mem_dealings member
    have here : (stored.2.view id).record = some (.new id now kind input) := by
      show Table.get? id stored.2.jobs.records = _
      rw [stores.jobs, JobStore.records_withRecords]
      exact Table.get?_insert_self _ _ _
    rw [same] at here
    have safeEarly (number : Nat) (chance : Chance) (member : .step number chance ∈ early) :=
      safe number chance (List.mem_append_left _ member)
    have safeLate (number : Nat) (chance : Chance) (member : .step number chance ∈ late) :=
      safe number chance (List.mem_append_right _ member)
    obtain ⟨record, found, holds⟩ := holds_run confined (guarded.run confined safeEarly) here ⟨rfl, rfl, rfl⟩ safeLate
    refine ⟨kind, input, record, wanted, ?_, holds⟩
    rw [run, List.foldl_append]
    exact found

end World

end ContractWorks

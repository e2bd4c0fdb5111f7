import ContractWorks.Proofs.Queue.Startup
import ContractWorks.Proofs.Toolchain.Confined

namespace ContractWorks

namespace Table

variable {κ ν : Type} [DecidableEq κ]

theorem length_insert_of_found {key : κ} {old : ν} {table : Table κ ν} (found : get? key table = some old)
    (value : ν) : (insert key value table).length = table.length := by
  induction table with
  | nil => simp at found
  | cons entry rest inductionHypothesis =>
    obtain ⟨other, there⟩ := entry
    rw [get?] at found
    rw [insert]
    split at found
    · next same =>
      rw [if_pos same]
      rfl
    · next differ => rw [if_neg differ, List.length_cons, List.length_cons, inductionHypothesis found]

end Table

/-- This function bounds the steps that a start still takes when the store holds a number of records. -/
def StartStep.budget (size : Nat) : StartStep → Nat
  | .waiting => 3 * size + 9
  | .listing _ => 3 * size + 8
  | .failing ids _ => 2 * size + ids.length + 7
  | .sweeping _ => 2 * size + 6
  | .relisting _ => 2 * size + 5
  | .entering _ ids _ => 2 * ids.length + 5
  | .checking ids _ => 2 * ids.length + 4
  | .offering _ => 3
  | .spawning _ => 2

/-- A report accounts for some jobs that wait and some that ran when it names each of them once and no others. -/
structure RecoveryReport.Accounts (report : RecoveryReport) (waiting running : JobId → Prop) : Prop where
  requeuedOnce : report.requeued.Nodup
  orphanedOnce : report.orphaned.Nodup
  requeued : ∀ id, id ∈ report.requeued ↔ waiting id
  orphaned : ∀ id, id ∈ report.orphaned ↔ running id

namespace World

variable {setting : Setting} {world next : World} {number : Nat} {chance : Chance} {step : StartStep} {size : Nat}

/-- A start is due when it has ended, or has fewer steps to go than before. -/
def Due (size number bound : Nat) (world : World) : Prop :=
  Table.get? number world.tasks = none ∨ (world.jobs.records.length ≤ size ∧
    ∃ step : StartStep, Table.get? number world.tasks = some (.start step) ∧ step.budget size < bound)

theorem due_goOn {base : World} (fits : base.jobs.records.length ≤ size) {after : StartStep} {bound : Nat}
    (fewer : after.budget size < bound) : (base.goOn number (.start after)).Due size number bound :=
  .inr ⟨fits, after, Table.get?_insert_self _ _ _, fewer⟩

theorem due_failStart {base : World} {error : QueueError} {bound : Nat} :
    (base.failStart number error).Due size number bound :=
  .inl (Table.get?_erase_self _ _)

theorem length_listByState {store : JobStore} {state : JobState} {fault : Option StoreFault}
    {records : List JobRecord} (listed : store.listByState state fault = .ok records) :
    (records.map JobRecord.id).length ≤ store.records.length := by
  obtain rfl := JobStore.listByState_of_ok listed
  rw [List.length_map]
  refine (List.length_filter_le _ _).trans ?_
  rw [JobStore.oldestFirst, List.length_mergeSort, List.length_map]

theorem length_transition {store other : JobStore} {id : JobId} {transition : Transition} {now : Time.Instant}
    {fault : Option StoreFault} {disk after : Disk} {result : Except StoreError JobRecord}
    (done : store.transition id transition now fault disk = (after, other, result)) :
    other.records.length = store.records.length := by
  rcases JobStore.transition_cases done with ⟨_, record, found, _, _, rfl⟩ | ⟨rfl, _⟩
  · rw [JobStore.records_withRecords, Table.length_insert_of_found found]
  · rfl

/-- Each step of a start brings it nearer to its end. -/
theorem due_stepStart (fits : world.jobs.records.length ≤ size) (step : StartStep) :
    (stepStart setting world number chance step).Due size number (step.budget size) := by
  generalize stepped : stepStart setting world number chance step = next
  cases startBranch stepped with
  | late | spawns => exact .inl (Table.get?_erase_self _ _)
  | unlisted | breaks | unlistedAgain | shut => exact due_failStart
  | lists listed | listsAgain listed =>
    have few := length_listByState listed
    refine due_goOn fits ?_
    simp only [StartStep.budget]
    omega
  | orphans done | spares done =>
    refine due_goOn (length_transition done ▸ fits) ?_
    simp only [StartStep.budget, List.length_cons]
    omega
  | offers => exact due_goOn (by exact fits) (Nat.lt_succ_self 2)
  | _ =>
    refine due_goOn fits ?_
    simp only [StartStep.budget, List.length_cons, List.length_nil]
    omega

theorem run_of_ended (setting : Setting) (ended : Table.get? number world.tasks = none) (chances : List Chance) :
    run setting world (chances.map fun chance => .step number chance) = world := by
  induction chances with
  | nil => rfl
  | cons chance chances inductionHypothesis =>
    have stays : move setting world (.step number chance) = world := by
      rw [move, move?, step?, ended]
      rfl
    rw [List.map_cons, run, List.foldl_cons, stays]
    exact inductionHypothesis

/-- A start ends when it is given as many steps as it has a budget. -/
theorem start_ends (chances : List Chance) : ∀ {world : World} {step : StartStep},
    world.jobs.records.length ≤ size → Table.get? number world.tasks = some (.start step) →
      step.budget size ≤ chances.length →
        Table.get? number (run setting world (chances.map fun chance => .step number chance)).tasks = none := by
  induction chances with
  | nil =>
    intro world step _ _ few
    cases step <;> simp [StartStep.budget] at few
  | cons chance chances inductionHypothesis =>
    intro world step fits found few
    have moves : move setting world (.step number chance) = stepStart setting world number chance step := by
      rw [move, move?, step?, found]
      rfl
    rw [List.map_cons, run, List.foldl_cons, moves]
    rcases due_stepStart fits step with ended | ⟨fits, after, found, fewer⟩
    · have stays := run_of_ended setting ended chances
      rw [run] at stays
      rw [stays]
      exact ended
    · exact inductionHypothesis fits found (by rw [List.length_cons] at few; omega)

variable {disk : Disk} {jobs : JobStore} {artifacts : ArtifactStore} {start : World} {report : RecoveryReport}
  {id : JobId} {moves : List Move}

/-- A job is promised when a start has requeued it, or when its submission has been answered. -/
def Promised (report : RecoveryReport) (world : World) (id : JobId) : Prop :=
  id ∈ report.requeued ∨ ∃ number, .answered number (.submitted (.ok id)) ∈ world.history

/-- A job is left queued when the store has refused to start it, and the queue was closed when it was to be offered
again. -/
def LeftQueued (setting : Setting) (start : World) (moves : List Move) (id : JobId) : Prop :=
  (∃ record, Table.get? id (run setting start moves).jobs.records = some record ∧ record.status = .queued) ∧
    Table.get? id (run setting start moves).live = none ∧
      Happened setting start moves id .unstarted ∧ Happened setting start moves id .shelved

/-- A job is left running when the store has refused its outcome. -/
def LeftRunning (setting : Setting) (start : World) (moves : List Move) (id : JobId) : Prop :=
  (∃ record, Table.get? id (run setting start moves).jobs.records = some record ∧ record.status = .running) ∧
    Table.get? id (run setting start moves).live = none ∧ Happened setting start moves id .unwritten

/-- In a queue that is down each record has ended, or its job has been left, and what has not ended was promised. -/
theorem Begun.ended_of_down {first : Table JobId JobRecord}
    (begun : Begun (Happened setting start moves) first report (World.run setting start moves))
    (down : (World.run setting start moves).IsDown) {record : JobRecord}
    (found : Table.get? id (World.run setting start moves).jobs.records = some record) :
    record.status.isTerminal = true ∨ (Promised report (World.run setting start moves) id ∧
      ((record.status = .queued ∧ LeftQueued setting start moves id) ∨
        (record.status = .running ∧ LeftRunning setting start moves id))) := by
  have nobody := begun.drains.custody_of_down begun.serves.tidy.numbered.distinct down id
  have custody : ((World.run setting start moves).view id).custody = 0 := nobody
  have stands : ((World.run setting start moves).view id).record = some record := found
  rcases begun.serves.vouched id record stands with ended | backed
  · exact .inl ended
  · have promised : Promised report (World.run setting start moves) id := by
      rcases backed with requeued | accepted | inserted | announced
      · exact .inl requeued
      · exact .inr (accepted_pos_iff.mp accepted)
      · simp [custody] at inserted
      · simp [custody] at announced
    have served := begun.serves.served id
    rw [View.Served, stands] at served
    rcases served with ⟨_, entry, rested⟩ | ⟨stage, held, _⟩
    · rcases rested with ended | ⟨queued, unstarted, shelved⟩ | ⟨running, unwritten⟩
      · exact .inl ended
      · exact .inr ⟨promised, .inl ⟨queued, ⟨record, found, queued⟩, entry, unstarted, shelved⟩⟩
      · exact .inr ⟨promised, .inr ⟨running, ⟨record, found, running⟩, entry, unwritten⟩⟩
    · rw [custody] at held
      simp at held

/-- When a shutdown has returned, each job that was promised has ended, except for those whose start or outcome the
store has refused; a new start over the same records requeues and fails exactly these. -/
theorem none_lost (keyed : jobs.Keyed) {steps : List (Nat × Chance)} {late : List Move}
    (started : .answered 0 (.started (.ok report)) ∈
      (run setting (new setting disk jobs artifacts) (startup steps)).history)
    (ordinary : ∀ move ∈ late, move.IsOrdinary)
    (down : (run setting (new setting disk jobs artifacts) (startup steps ++ late)).IsDown) :
    let start := new setting disk jobs artifacts
    let moves := startup steps ++ late
    let world := run setting start moves
    (∀ id, Promised report world id → ∃ record, Table.get? id world.jobs.records = some record ∧
      (record.status.isTerminal = true ∨ LeftQueued setting start moves id ∨ LeftRunning setting start moves id)) ∧
      ∀ (other : Setting) (disk : Disk) (again : JobStore) (artifacts : ArtifactStore), again.Keyed →
        (∀ id, Table.get? id again.records = Table.get? id world.jobs.records) →
          (∀ steps found, .answered 0 (.started (.ok found)) ∈
              (run other (new other disk again artifacts) (startup steps)).history →
            found.Accounts (fun id => Promised report world id ∧ LeftQueued setting start moves id)
                (fun id => Promised report world id ∧ LeftRunning setting start moves id) ∧
              ∀ id ∈ found.orphaned, ∃ record,
                Table.get? id (run other (new other disk again artifacts) (startup steps)).jobs.records =
                  some record ∧ record.status = .failed ∧ record.error = some orphanError) ∧
            ∀ chances : List Chance, StartStep.waiting.budget again.records.length ≤ chances.length →
              ∃ result, .answered 0 (.started result) ∈
                  (run other (new other disk again artifacts) (startup (chances.map (0, ·)))).history ∧
                ((∃ found, result = .ok found) ∨ ∃ text, result = .error (.store (.io text))) := by
  intro start moves world
  have begun : Begun (Happened setting start moves) jobs.records report world :=
    (begun_of_started keyed started).run ordinary
  refine ⟨fun id promised => ?_, fun other disk again artifacts againKeyed same => ⟨?_, ?_⟩⟩
  · have stands : (world.view id).Established := by
      refine begun.serves.recorded id ?_
      rcases promised with requeued | answered
      · obtain ⟨record, stood, _⟩ := (begun.waited.mem id).mp requeued
        exact .inl (by simp [stood])
      · exact .inr (accepted_pos_iff.mpr answered)
    obtain ⟨record, found⟩ := Option.ne_none_iff_exists'.mp stands.stored
    rcases begun.ended_of_down down found with ended | ⟨_, ⟨_, left⟩ | ⟨_, left⟩⟩
    · exact ⟨record, found, .inl ended⟩
    · exact ⟨record, found, .inr (.inl left)⟩
    · exact ⟨record, found, .inr (.inr left)⟩
  · intro steps found answered
    have fresh := begun_of_started againKeyed answered
    refine ⟨⟨fresh.waited.nodup, fresh.ran.nodup, fun id => ?_, fun id => ?_⟩, fresh.failed⟩
    · rw [fresh.waited.mem id, same id]
      constructor
      · rintro ⟨record, stands, queued⟩
        rcases begun.ended_of_down down stands with ended | ⟨promised, ⟨_, left⟩ | ⟨running, _⟩⟩
        · simp [queued, JobState.isTerminal] at ended
        · exact ⟨promised, left⟩
        · simp [queued] at running
      · rintro ⟨_, waits, _⟩
        exact waits
    · rw [fresh.ran.mem id, same id]
      constructor
      · rintro ⟨record, stands, running⟩
        rcases begun.ended_of_down down stands with ended | ⟨promised, ⟨queued, _⟩ | ⟨_, left⟩⟩
        · simp [running, JobState.isTerminal] at ended
        · simp [running] at queued
        · exact ⟨promised, left⟩
      · rintro ⟨_, runs, _⟩
        exact runs
  · intro chances enough
    have shape : startup (chances.map (0, ·)) = .call .start :: chances.map fun chance => .step 0 chance := by
      rw [startup, List.map_map]
      rfl
    have ended : Table.get? 0
        (run other (new other disk again artifacts) (startup (chances.map (0, ·)))).tasks = none := by
      rw [shape, run, List.foldl_cons]
      exact start_ends chances (le_refl _) rfl enough
    have phase : Phase (Happened other (new other disk again artifacts) (startup (chances.map (0, ·)))) again.records
        (run other (new other disk again artifacts) (startup (chances.map (0, ·)))) := phase_startup againKeyed _
    cases phase with
    | recovering alone leaves recovery =>
      rw [alone.tasks] at ended
      simp [Table.get?] at ended
    | failed text tasks history => exact ⟨_, by simp [history], .inr ⟨text, rfl⟩⟩
    | launching launches => simp [launches.start] at ended
    | begun fresh => exact ⟨_, fresh.told, .inl ⟨_, rfl⟩⟩

/-- This record waits for a start. -/
def waitingRecord : JobRecord :=
  { id := "first", kind := .evm, status := .queued, sourceHash := "",
    createdAt := .sample
    input := { source := "contract Token \x7b\x7d", contractName := "Token" } }

/-- This world has one job that waits. -/
def oneWaiting : World :=
  new .scripted .empty (.memory [("first", waitingRecord)]) (.memory [])

/-- This chance may bring a fault. -/
def chanceOf (fault : Option StoreFault) : Chance :=
  ⟨.sample, "name", fault⟩

/-- These are the steps of a start that requeues one job. -/
def requeueing : List (Nat × Chance) :=
  List.replicate 10 (0, chanceOf none)

/-- In these moves a worker is refused the start of a job and finds the queue closed. -/
def refusedAndClosed : List Move :=
  [.step 1 (chanceOf none), .step 2 (chanceOf none), .step 2 (chanceOf (some (.refused "disk gone"))),
    .call .shutdown, .step 6 (chanceOf none), .step 6 (chanceOf none), .step 2 (chanceOf none),
    .step 2 (chanceOf none), .step 2 (chanceOf none), .step 3 (chanceOf none), .step 4 (chanceOf none),
    .step 5 (chanceOf none), .step 6 (chanceOf none)]

theorem none_lost_refusedAndClosed :
    (run .scripted oneWaiting (startup requeueing ++ refusedAndClosed)).IsDown ∧
      LeftQueued .scripted oneWaiting (startup requeueing ++ refusedAndClosed) "first" := by
  have keyed : (JobStore.memory [("first", waitingRecord)]).Keyed := by
    refine ⟨List.nodup_singleton _, fun {id record} found => ?_⟩
    have found : Table.get? id [("first", waitingRecord)] = some record := found
    rw [Table.get?] at found
    split at found
    · next same => rw [← Option.some.inj found, ← same]; rfl
    · simp at found
  have begins : (run .scripted oneWaiting (startup requeueing)).history =
      [.called 0 .start, .answered 0 (.started (.ok ⟨[], ["first"], 0⟩))] := by with_unfolding_all rfl
  have started : .answered 0 (.started (.ok ⟨[], ["first"], 0⟩)) ∈
      (run .scripted oneWaiting (startup requeueing)).history := by
    rw [begins]
    exact List.mem_cons_of_mem _ (List.mem_singleton_self _)
  have ordinary : ∀ move ∈ refusedAndClosed, move.IsOrdinary := by
    intro move member
    simp only [refusedAndClosed, List.mem_cons, List.not_mem_nil, or_false] at member
    rcases member with rfl | rfl | rfl | rfl | rfl | rfl | rfl | rfl | rfl | rfl | rfl | rfl | rfl <;> trivial
  have ends : (run .scripted oneWaiting (startup requeueing ++ refusedAndClosed)).history =
      [.called 0 .start, .answered 0 (.started (.ok ⟨[], ["first"], 0⟩)), .called 6 .shutdown,
        .answered 6 .stopped] := by with_unfolding_all rfl
  have idle : (run .scripted oneWaiting (startup requeueing ++ refusedAndClosed)).tasks = [] := by
    with_unfolding_all rfl
  have stands : (run .scripted oneWaiting (startup requeueing ++ refusedAndClosed)).jobs.records =
      [("first", waitingRecord)] := by with_unfolding_all rfl
  have down : (run .scripted oneWaiting (startup requeueing ++ refusedAndClosed)).IsDown := by
    refine ⟨⟨6, ?_⟩, fun number step => ?_⟩
    · rw [ends]
      simp
    · rw [idle]
      simp
  have kept := (none_lost keyed started ordinary down).1 "first" (.inl (List.mem_singleton_self _))
  obtain ⟨record, found, ended | queued | ⟨⟨other, there, running⟩, _⟩⟩ := kept
  · have same : record = waitingRecord := by
      have found := found.symm.trans (congrArg (Table.get? "first") stands)
      exact Option.some.inj found
    rw [same] at ended
    exact absurd ended (by decide)
  · exact ⟨down, queued⟩
  · have same : other = waitingRecord := by
      have there := there.symm.trans (congrArg (Table.get? "first") stands)
      exact Option.some.inj there
    rw [same] at running
    exact absurd running (by decide)

end World

end ContractWorks

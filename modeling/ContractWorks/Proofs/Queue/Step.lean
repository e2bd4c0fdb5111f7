import ContractWorks.Proofs.Queue.Branch
import ContractWorks.Proofs.Queue.Change

namespace ContractWorks.World

open Custody (one row)

variable {setting : Setting} {world next : World} {number : Nat} {chance : Chance} {id other : JobId}

/-- A store with one more record has the records of the other ids as before. -/
theorem get?_withRecords_of_ne {store : JobStore} {record : JobRecord} (differ : other ≠ id) :
    Table.get? other (store.withRecords (Table.insert id record store.records)).records =
      Table.get? other store.records := by
  rw [JobStore.records_withRecords, Table.get?_insert_of_ne differ]

theorem get?_withRecords_self {store : JobStore} {record : JobRecord} :
    Table.get? id (store.withRecords (Table.insert id record store.records)).records = some record := by
  rw [JobStore.records_withRecords, Table.get?_insert_self]

theorem advances_insert (tidy : world.Tidy) {record : JobRecord} {disk : Disk} {jobs : JobStore}
    (found : Table.get? number world.tasks = some (.submit (.reserved record)))
    (done : world.jobs.insert record chance.fault world.disk = (disk, jobs, .ok ())) :
    Advances world (.step number chance)
      ({ world with disk, jobs }.goOn number (.submit (.inserted record.id))) := by
  have queued : record.status = .queued := tidy.sane _ _ found
  have keyed := tidy.keyed.insert done
  obtain ⟨free, rfl⟩ := JobStore.insert_of_ok done
  refine advances_goOn tidy found ⟨rfl, rfl, keyed⟩ rfl trivial ?_
  refine works_of_held (fun _ _ => rfl) (fun _ => Custody.one_of_ne _) ?_ fun rest => ?_
  · intro id custody differ
    exact View.ext (get?_withRecords_of_ne (Ne.symm differ)) rfl rfl rfl rfl
  · simp only [Task.custody, Custody.one_self, add_zero]
    exact .insert free queued (View.ext get?_withRecords_self rfl rfl rfl rfl)

theorem view_note_accepts {held : JobId} :
    (world.note (.answered number (.submitted (.ok held)))).view id =
      { world.view id with
        accepted := (world.view id).accepted + if held = id then 1 else 0 } := by
  have accepted : (world.history ++ [Event.answered number (.submitted (.ok held))]).countP
      (Event.accepts id) = world.history.countP (Event.accepts id) + if held = id then 1 else 0 := by
    rw [List.countP_append, List.countP_singleton, Event.accepts]
    simp
  have invoked : (world.history ++ [Event.answered number (.submitted (.ok held))]).countP
      (Event.invokes id) = world.history.countP (Event.invokes id) := by
    rw [List.countP_append, List.countP_singleton]
    rfl
  exact View.ext rfl rfl rfl invoked accepted

theorem advances_announced (tidy : world.Tidy) {held : JobId}
    (found : Table.get? number world.tasks = some (.submit (.announced held))) :
    Advances world (.step number chance) (world.stepSubmit number chance (.announced held)) := by
  obtain ⟨base, shape⟩ : ∃ base : World, base = { world with channel := world.channel.release.push held } :=
    ⟨_, rfl⟩
  have carries : Carries world base := by
    subst shape
    exact ⟨rfl, rfl, tidy.keyed⟩
  have same (id : JobId) (custody : Custody) : base.viewWith id custody = world.viewWith id custody := by
    subst shape
    rfl
  have sent : (world.channel.receiver = .gone ∧ Shifts world base (fun _ => 0) fun _ => 0) ∨
      (world.channel.receiver ≠ .gone ∧ Shifts world base (fun _ => 0) (one .waiting held)) := by
    subst shape
    exact shifts_push rfl rfl rfl
  rw [stepSubmit, ← shape]
  refine ⟨((carries.tidy tidy).endTask number).note _, fun id => ?_⟩
  rw [World.answer, view_note_accepts, view_endTask, view_of_found tidy.numbered.distinct found]
  rcases sent with ⟨gone, shifts⟩ | ⟨there, shifts⟩
  · obtain ⟨rest, before, after⟩ := shifts.others carries number id
    rw [before, after, add_zero, same, Task.custody]
    by_cases here : held = id
    · subst here
      rw [if_pos rfl, Custody.one_self]
      exact .acceptInVain (.inl gone) rfl rfl
    · rw [if_neg here, Custody.one_of_ne _ here, add_zero]
      exact .none rfl
  · obtain ⟨rest, before, after⟩ := shifts.others carries number id
    rw [before, after, add_zero, same, Task.custody]
    by_cases here : held = id
    · subst here
      rw [if_pos rfl, Custody.one_self, Custody.one_self]
      exact .accept rfl rfl
    · rw [if_neg here, Custody.one_of_ne _ here, Custody.one_of_ne _ here, add_zero]
      exact .none rfl

theorem advances_submit (tidy : world.Tidy) {step : SubmitStep}
    (found : Table.get? number world.tasks = some (.submit step)) :
    Advances world (.step number chance) (world.stepSubmit number chance step) := by
  generalize stepped : world.stepSubmit number chance step = next
  cases submitBranch stepped with
  | closed | full =>
    exact Advances.answer (advances_endTask tidy found (.refl tidy) rfl fun _ _ => .none rfl) fun _ => rfl
  | reserves => exact advances_goOn tidy found ⟨rfl, rfl, tidy.keyed⟩ rfl rfl fun _ _ => .none rfl
  | inserts done => exact advances_insert tidy found done
  | fails done =>
    obtain rfl := JobStore.insert_of_error done
    refine Advances.answer ?_ fun _ => rfl
    exact advances_endTask tidy found ⟨rfl, rfl, tidy.keyed⟩ rfl fun _ _ => .none rfl
  | enters =>
    refine advances_goOn tidy found ⟨rfl, rfl, tidy.keyed⟩ rfl trivial ?_
    refine works_of_held (fun _ => Custody.one_of_ne _) (fun _ => Custody.one_of_ne _) ?_ fun rest => ?_
    · intro id custody differ
      exact View.ext rfl (LiveTable.get?_queued_of_ne (Ne.symm differ)) rfl rfl rfl
    · simp only [Task.custody, Custody.one_self]
      exact .announce rfl (View.ext rfl LiveTable.get?_queued_self rfl rfl rfl)
  | sends => exact advances_announced tidy found

section Claim

variable {held : JobId} {disk : Disk} {jobs : JobStore}

/-- A claimed job that can be started is held for its compiler. -/
theorem advances_begin (tidy : world.Tidy) {record : JobRecord}
    (found : Table.get? number world.tasks = some (.worker (.claimed held)))
    (done : world.jobs.transition held .start chance.now chance.fault world.disk = (disk, jobs, .ok record)) :
    Advances world (.step number chance) ({ world with disk, jobs }.goOn number (.worker (.started record))) := by
  have keyed := tidy.keyed.transition done
  obtain ⟨before, standing, applied, rfl⟩ := JobStore.transition_of_ok done
  obtain rfl := tidy.keyed.id_of_apply standing applied
  refine advances_goOn tidy found ⟨rfl, rfl, keyed⟩ rfl trivial ?_
  refine works_of_held (fun _ => Custody.one_of_ne _) (fun _ => Custody.one_of_ne _) ?_ fun rest => ?_
  · intro id custody differ
    exact View.ext (get?_withRecords_of_ne (Ne.symm differ)) rfl rfl rfl rfl
  · simp only [Task.custody, WorkerStep.custody, Custody.one_self]
    exact .start rfl standing applied (View.ext get?_withRecords_self rfl rfl rfl rfl)

/-- A claimed job that has been started before is let go. -/
theorem advances_skip (tidy : world.Tidy) {refusal : InvalidTransition}
    (found : Table.get? number world.tasks = some (.worker (.claimed held)))
    (done : world.jobs.transition held .start chance.now chance.fault world.disk =
      (disk, jobs, .error (.invalidTransition refusal))) :
    Advances world (.step number chance) ({ world with disk, jobs }.goOn number (.worker .idle)) := by
  obtain ⟨before, standing, applied⟩ := JobStore.transition_of_invalid done
  have started : before.status ≠ .queued := by
    intro queued
    simp [JobRecord.apply, queued, Transition.target, JobState.canBecome] at applied
  obtain rfl := JobStore.transition_of_error done
  refine advances_goOn tidy found ⟨rfl, rfl, tidy.keyed⟩ rfl trivial ?_
  refine works_of_held (fun _ => Custody.one_of_ne _) (fun _ _ => rfl) (fun _ _ _ => rfl) fun rest => ?_
  simp only [Task.custody, WorkerStep.custody, Custody.one_self]
  exact .skip rfl standing started (View.ext rfl rfl (add_zero rest) rfl rfl)

/-- A claimed job that the store fails to start is held to be sent again. -/
theorem advances_postpone (tidy : world.Tidy) {error : StoreError}
    (found : Table.get? number world.tasks = some (.worker (.claimed held)))
    (done : world.jobs.transition held .start chance.now chance.fault world.disk = (disk, jobs, .error error))
    (other : ∀ refusal, error ≠ .invalidTransition refusal) :
    Advances world (.step number chance) ({ world with disk, jobs }.goOn number (.worker (.retrying held))) := by
  have failed : (world.jobs.transition held .start chance.now chance.fault world.disk).2.2 = .error error := by
    rw [done]
  obtain rfl := JobStore.transition_of_error done
  refine advances_goOn tidy found ⟨rfl, rfl, tidy.keyed⟩ rfl trivial ?_
  refine works_of_held (fun _ => Custody.one_of_ne _) (fun _ => Custody.one_of_ne _) (fun _ _ _ => rfl)
    fun rest => ?_
  simp only [Task.custody, WorkerStep.custody, Custody.one_self]
  exact .unstarted ⟨number, chance, rfl, found, error, failed, other⟩ rfl rfl

end Claim

/-- A worker that reports progress raises the live entry of its job. -/
theorem advances_raise (tidy : world.Tidy) {old task : Task} {held : JobId} {stage : Stage} {progress : UInt8}
    (found : Table.get? number world.tasks = some old) (sane : task.Sane)
    (before : ∀ id, old.custody id = one stage held id) (after : ∀ id, task.custody id = one stage held id)
    (works : stage = .pending ∨ stage = .busy) (low : progress ≤ Progress.outputCollected) :
    Advances world (.step number chance)
      ({ world with live := world.live.running held progress }.goOn number task) := by
  refine advances_goOn tidy found ⟨rfl, rfl, tidy.keyed⟩ rfl sane ?_
  simp only [before, after]
  refine works_of_held (fun _ => Custody.one_of_ne _) (fun _ => Custody.one_of_ne _) ?_ fun rest => ?_
  · intro id custody differ
    exact View.ext rfl (LiveTable.get?_running_of_ne (Ne.symm differ) progress) rfl rfl rfl
  · rw [Custody.one_self]
    exact .raise rfl works low (View.ext rfl (LiveTable.get?_running_self progress) rfl rfl rfl)

/-- A worker that gives up a job before its compiler runs holds it for its outcome to be written. -/
theorem advances_yield (tidy : world.Tidy) {base : World} {old task : Task} {held : JobId}
    (found : Table.get? number world.tasks = some old) (carries : Carries world base)
    (ids : base.channel.ids = world.channel.ids) (sane : task.Sane)
    (same : ∀ id custody, base.viewWith id custody = world.viewWith id custody)
    (before : ∀ id, old.custody id = one .pending held id) (after : ∀ id, task.custody id = one .busy held id) :
    Advances world (.step number chance) (base.goOn number task) := by
  refine advances_goOn tidy found carries ids sane ?_
  simp only [before, after]
  refine works_of_held (fun _ => Custody.one_of_ne _) (fun _ => Custody.one_of_ne _)
    (fun id custody _ => same id custody) fun rest => ?_
  rw [same, Custody.one_self, Custody.one_self]
  exact .yield rfl rfl

theorem view_note_invokes {held : JobId} {kind : JobKind} {input : JobInput} {hasDirectory : Bool} :
    (world.note (.invoked held kind input hasDirectory)).view id =
      { world.view id with invoked := (world.view id).invoked + if held = id then 1 else 0 } := by
  have invoked : (world.history ++ [Event.invoked held kind input hasDirectory]).countP
      (Event.invokes id) = world.history.countP (Event.invokes id) + if held = id then 1 else 0 := by
    rw [List.countP_append, List.countP_singleton, Event.invokes]
    simp
  have accepted : (world.history ++ [Event.invoked held kind input hasDirectory]).countP
      (Event.accepts id) = world.history.countP (Event.accepts id) := by
    rw [List.countP_append, List.countP_singleton]
    rfl
  exact View.ext rfl rfl rfl invoked accepted

theorem advances_invoking (tidy : world.Tidy) {record : JobRecord} {workspace : Workspace} {directory : String}
    (found : Table.get? number world.tasks = some (.worker (.invoking record workspace directory)))
    {hasDirectory : Bool} :
    Advances world (.step number chance)
      ((world.goOn number (.worker (.running record workspace directory))).note
        (.invoked record.id record.kind record.input hasDirectory)) := by
  have sane : (Task.worker (.running record workspace directory)).Sane := trivial
  refine ⟨(tidy.goOn (tidy.numbered.below found) sane).note _, fun id => ?_⟩
  rw [view_note_invokes, view_goOn tidy.numbered.distinct, view_of_found tidy.numbered.distinct found]
  by_cases same : record.id = id
  · subst same
    simp only [Task.custody, WorkerStep.custody, Custody.one_self, if_pos]
    exact .invoke rfl rfl
  · simp only [Task.custody, WorkerStep.custody, Custody.one_of_ne _ same, if_neg same]
    exact .none rfl

theorem advances_finish (tidy : world.Tidy) {held : JobId} {transition : Transition} {disk : Disk} {jobs : JobStore}
    {result : Except StoreError JobRecord}
    (found : Table.get? number world.tasks = some (.worker (.finishing held transition)))
    (done : world.jobs.transition held transition chance.now chance.fault world.disk = (disk, jobs, result)) :
    Advances world (.step number chance) ({ world with disk, jobs }.goOn number (.worker (.leaving held))) := by
  have keyed := tidy.keyed.transition done
  cases result with
  | ok after =>
    obtain ⟨before, standing, applied, rfl⟩ := JobStore.transition_of_ok done
    refine advances_goOn tidy found ⟨rfl, rfl, keyed⟩ rfl trivial ?_
    refine works_of_held (fun _ => Custody.one_of_ne _) (fun _ => Custody.one_of_ne _) ?_ fun rest => ?_
    · intro id custody differ
      exact View.ext (get?_withRecords_of_ne (Ne.symm differ)) rfl rfl rfl rfl
    · simp only [Task.custody, WorkerStep.custody, Custody.one_self]
      exact .finish rfl standing applied (View.ext get?_withRecords_self rfl rfl rfl rfl)
  | error error =>
    obtain rfl := JobStore.transition_of_error done
    refine advances_goOn tidy found ⟨rfl, rfl, keyed⟩ rfl trivial ?_
    refine works_of_held (fun _ => Custody.one_of_ne _) (fun _ => Custody.one_of_ne _) (fun _ _ _ => rfl)
      fun rest => ?_
    simp only [Task.custody, WorkerStep.custody, Custody.one_self]
    exact .unwritten ⟨number, chance, transition, rfl, found, error, by rw [done]⟩ rfl rfl

/-- A step of a worker changes the job it holds, and no other one. -/
theorem advances_worker (tidy : world.Tidy) {step : WorkerStep}
    (found : Table.get? number world.tasks = some (.worker step))
    (stepped : stepWorker setting world number chance step = some next) :
    Advances world (.step number chance) next := by
  have quiet {base : World} {after : WorkerStep} (carries : Carries world base)
      (ids : base.channel.ids = world.channel.ids) (sane : (Task.worker after).Sane)
      (works : Works world base (.step number chance) (fun id => (Task.worker step).custody id)
        fun id => (Task.worker after).custody id) :
      Advances world (.step number chance) (base.goOn number (.worker after)) :=
    advances_goOn tidy found carries ids sane works
  have keeps {disk : Disk} {artifacts : ArtifactStore} : Carries world { world with disk, artifacts } :=
    ⟨rfl, rfl, tidy.keyed⟩
  cases workerBranch stepped with
  | takes waiting =>
    refine advances_goOn_of_shifts tidy found ⟨rfl, rfl, tidy.keyed⟩ (shifts_take waiting) trivial ?_
    intro id rest
    refine .none ?_
    simp only [Task.custody, WorkerStep.custody, add_zero, zero_add]
    rfl
  | stops => exact advances_endTask tidy found (.refl tidy) rfl fun _ _ => .none rfl
  | begins done => exact advances_begin tidy found done
  | skips done => exact advances_skip tidy found done
  | postpones done other => exact advances_postpone tidy found done other
  | retries =>
    refine advances_spawn tidy found trivial trivial ?_
    refine works_of_held (fun _ => Custody.one_of_ne _) ?_ (fun _ _ _ => rfl) fun rest => ?_
    · intro id differ
      simp only [Task.custody, WorkerStep.custody, Custody.one_of_ne _ differ, add_zero]
    · simp only [Task.custody, WorkerStep.custody, Custody.one_self, add_zero]
      exact .again rfl rfl
  | shelves closed =>
    refine quiet (.refl tidy) rfl trivial ?_
    refine works_of_held (fun _ => Custody.one_of_ne _) (fun _ => Custody.one_of_ne _) (fun _ _ _ => rfl)
      fun rest => ?_
    simp only [Task.custody, WorkerStep.custody, Custody.one_self]
    exact .shelve ⟨number, chance, rfl, found, closed⟩ rfl rfl
  | started | prepared | ready =>
    exact advances_raise tidy found trivial (fun _ => rfl) (fun _ => rfl) (.inl rfl) (by decide)
  | collected => exact advances_raise tidy found trivial (fun _ => rfl) (fun _ => rfl) (.inr rfl) (by decide)
  | refused => exact advances_yield tidy found (.refl tidy) rfl rfl (fun _ _ => rfl) (fun _ => rfl) fun _ => rfl
  | unlodged => exact advances_yield tidy found keeps rfl rfl (fun _ _ => rfl) (fun _ => rfl) fun _ => rfl
  | lodged => exact quiet keeps rfl trivial fun _ _ => .none rfl
  | invokes => exact advances_invoking tidy found
  | @compiles record workspace directory disk ending =>
    cases ending with
    | made artifact => exact quiet keeps rfl trivial fun _ _ => .none rfl
    | failed error => exact quiet keeps rfl rfl fun _ _ => .none rfl
    | brokeOff => exact quiet keeps rfl rfl fun _ _ => .none rfl
  | keeps | loses => exact quiet keeps rfl rfl fun _ _ => .none rfl
  | finishes done => exact advances_finish tidy found done
  | leaves =>
    refine quiet ⟨rfl, rfl, tidy.keyed⟩ rfl trivial ?_
    refine works_of_held (fun _ => Custody.one_of_ne _) (fun _ _ => rfl) ?_ fun rest => ?_
    · intro id custody differ
      exact View.ext rfl (LiveTable.get?_finish_of_ne (Ne.symm differ)) rfl rfl rfl
    · simp only [Task.custody, WorkerStep.custody, Custody.one_self]
      exact .leave rfl (View.ext rfl LiveTable.get?_finish_self (add_zero rest) rfl rfl)

/-- A start that fails loses the ids on the channel and those it has entered. -/
theorem advances_failStart (tidy : world.Tidy) {base : World} {step : StartStep} {error : QueueError}
    (found : Table.get? number world.tasks = some (.start step)) (recovers : step.Recovers)
    (carries : Carries world base) (same : ∀ id custody, base.viewWith id custody = world.viewWith id custody) :
    Advances world (.step number chance) (base.failStart number error) := by
  refine Advances.answer ?_ fun _ => rfl
  have carried : Carries world { base with channel := base.channel.lose } :=
    ⟨carries.tasks, carries.nextTask, carries.keyed⟩
  refine advances_endTask_of_shifts tidy found carried (shifts_lose rfl) fun id rest => ?_
  refine .drop (.inr ⟨number, chance, step, rfl, found, recovers⟩) rfl ?_
  exact (same id (rest + 0)).trans (congrArg (world.viewWith id) (add_zero rest))

theorem advances_orphan (tidy : world.Tidy) {held : JobId} {ids : List JobId} {report : RecoveryReport} {disk : Disk}
    {jobs : JobStore} {record : JobRecord}
    (found : Table.get? number world.tasks = some (.start (.failing (held :: ids) report)))
    (done : world.jobs.transition held (.fail orphanError) chance.now chance.fault world.disk =
      (disk, jobs, .ok record)) :
    Advances world (.step number chance)
      ({ world with disk, jobs }.goOn number
        (.start (.failing ids { report with orphaned := report.orphaned ++ [held] }))) := by
  have keyed := tidy.keyed.transition done
  obtain ⟨before, standing, applied, rfl⟩ := JobStore.transition_of_ok done
  refine advances_goOn tidy found ⟨rfl, rfl, keyed⟩ rfl trivial fun id rest => ?_
  by_cases same : held = id
  · subst same
    refine .orphan ⟨number, chance, _, rfl, found, trivial⟩ standing applied ?_
    exact View.ext get?_withRecords_self rfl rfl rfl rfl
  · exact .none (View.ext (get?_withRecords_of_ne (Ne.symm same)) rfl rfl rfl rfl)

/-- New workers hold no ids. -/
theorem spawnWorkers_spec (count : Nat) : ∀ {world : World}, world.Tidy → number < world.nextTask →
    (spawnWorkers count world).Tidy ∧ ∀ id, (spawnWorkers count world).others number id = world.others number id ∧
      ∀ custody, (spawnWorkers count world).viewWith id custody = world.viewWith id custody := by
  induction count with
  | zero =>
    intro world tidy _
    exact ⟨tidy, fun _ => ⟨rfl, fun _ => rfl⟩⟩
  | succ count inductionHypothesis =>
    intro world tidy there
    have sane : (Task.worker .idle).Sane := trivial
    have carries : Carries (world.spawn (.worker .idle))
        { world.spawn (.worker .idle) with pool := world.pool ++ [world.nextTask] } := ⟨rfl, rfl, tidy.keyed⟩
    obtain ⟨rest, same⟩ := inductionHypothesis (carries.tidy (tidy.spawn sane)) (Nat.lt_succ_of_lt there)
    refine ⟨rest, fun id => ⟨(same id).1.trans ?_, (same id).2⟩⟩
    have differ : number ≠ world.nextTask := Nat.ne_of_lt there
    have free : Table.get? world.nextTask (Table.erase number world.tasks) = none := by
      rw [Table.get?_erase_of_ne (Ne.symm differ), tidy.numbered.fresh]
    have sum := Table.total_insert_new (Task.custody id) free (.worker .idle)
    rw [← Table.erase_insert_of_ne differ] at sum
    exact congrArg (row world.channel.ids id + ·) (sum.trans (add_zero _))

/-- A step of a start changes jobs of an earlier process, or enters those that wait. -/
theorem advances_start (tidy : world.Tidy) {step : StartStep}
    (found : Table.get? number world.tasks = some (.start step)) :
    Advances world (.step number chance) (stepStart setting world number chance step) := by
  have quiet {base : World} {after : StartStep} (carries : Carries world base)
      (ids : base.channel.ids = world.channel.ids)
      (works : Works world base (.step number chance) (fun id => (Task.start step).custody id)
        fun id => (Task.start after).custody id) :
      Advances world (.step number chance) (base.goOn number (.start after)) :=
    advances_goOn tidy found carries ids trivial works
  generalize stepped : stepStart setting world number chance step = next
  cases startBranch stepped with
  | late => exact Advances.answer (advances_endTask tidy found (.refl tidy) rfl fun _ _ => .none rfl) fun _ => rfl
  | unlisted | unlistedAgain | shut => exact advances_failStart tidy found trivial (.refl tidy) fun _ _ => rfl
  | orphans done => exact advances_orphan tidy found done
  | spares done =>
    obtain rfl := JobStore.transition_of_error done
    exact quiet ⟨rfl, rfl, tidy.keyed⟩ rfl fun _ _ => .none rfl
  | breaks done =>
    obtain rfl := JobStore.transition_of_error done
    exact advances_failStart tidy found trivial ⟨rfl, rfl, tidy.keyed⟩ fun _ _ => rfl
  | @enters held ids report =>
    refine quiet ⟨rfl, rfl, tidy.keyed⟩ rfl fun id rest => ?_
    simp only [Task.custody, StartStep.custody, Custody.row_concat]
    by_cases same : held = id
    · subst same
      rw [Custody.one_self, ← add_assoc]
      refine .enter ⟨number, chance, _, rfl, found, trivial⟩ ?_
      exact View.ext rfl LiveTable.get?_queued_self rfl rfl rfl
    · rw [Custody.one_of_ne _ same, add_zero]
      exact .none (View.ext rfl (LiveTable.get?_queued_of_ne (Ne.symm same)) rfl rfl rfl)
  | idles nothing =>
    refine quiet (.refl tidy) rfl fun id rest => .none ?_
    simp only [Task.custody, StartStep.custody, nothing, Custody.row_nil]
  | offers =>
    refine advances_spawn tidy found trivial trivial fun id rest => .none ?_
    simp only [Task.custody, StartStep.custody, add_zero]
  | spawns =>
    have carries : Carries world { world with channel := { world.channel with receiver := .shared } } :=
      ⟨rfl, rfl, tidy.keyed⟩
    obtain ⟨made, same⟩ := spawnWorkers_spec setting.workerCount (carries.tidy tidy) (tidy.numbered.below found)
    refine Advances.answer ⟨made.endTask number, fun id => ?_⟩ fun _ => rfl
    rw [view_endTask, view_of_found tidy.numbered.distinct found, (same id).1, (same id).2]
    exact .none (congrArg (world.viewWith id) (add_zero _).symm)
  | _ => exact quiet ⟨rfl, rfl, tidy.keyed⟩ rfl fun _ _ => .none rfl

theorem advances_shutdown (tidy : world.Tidy) {step : ShutdownStep}
    (found : Table.get? number world.tasks = some (.shutdown step))
    (stepped : world.stepShutdown number step = some next) :
    Advances world (.step number chance) next := by
  cases shutdownBranch stepped with
  | closes | collects => exact advances_goOn tidy found ⟨rfl, rfl, tidy.keyed⟩ rfl trivial fun _ _ => .none rfl
  | stops => exact Advances.answer (advances_endTask tidy found (.refl tidy) rfl fun _ _ => .none rfl) fun _ => rfl

theorem advances_status (tidy : world.Tidy) {step : StatusStep}
    (found : Table.get? number world.tasks = some (.status step)) :
    Advances world (.step number chance) (world.stepStatus number chance step) := by
  generalize stepped : world.stepStatus number chance step = next
  cases statusBranch stepped with
  | reads | finds => exact advances_goOn tidy found (.refl tidy) rfl trivial fun _ _ => .none rfl
  | _ => exact Advances.answer (advances_endTask tidy found (.refl tidy) rfl fun _ _ => .none rfl) fun _ => rfl

/-- An id that is sent while somebody may take it is held by the channel. -/
theorem shifts_send {held : JobId} (there : world.channel.receiver ≠ .gone) :
    Shifts world { world with channel := world.channel.push held } (fun _ => 0) (one .waiting held) := by
  have sent : (world.channel.receiver = .gone ∧
      Shifts world { world with channel := world.channel.push held } (fun _ => 0) fun _ => 0) ∨ _ :=
    shifts_push rfl rfl rfl
  rcases sent with ⟨gone, _⟩ | ⟨_, shifts⟩
  · exact absurd gone there
  · exact shifts

theorem advances_offer (tidy : world.Tidy) {ids : List JobId}
    (found : Table.get? number world.tasks = some (.offer ids))
    (stepped : world.stepOffer number ids = some next) :
    Advances world (.step number chance) next := by
  have carries (held : JobId) : Carries world { world with channel := world.channel.push held } :=
    ⟨rfl, rfl, tidy.keyed⟩
  cases offerBranch stepped with
  | nothing => exact advances_endTask tidy found (.refl tidy) rfl fun _ _ => .none rfl
  | gone gone =>
    refine advances_endTask tidy found (.refl tidy) rfl fun id rest => ?_
    exact .drop (.inl gone) rfl (congrArg (world.viewWith id) (add_zero rest))
  | last there =>
    refine advances_endTask_of_shifts tidy found (carries _) (shifts_send there) fun id rest => .none ?_
    simp only [Task.custody, Custody.row_cons, Custody.row_nil, add_zero, zero_add]
    rfl
  | more there =>
    refine advances_goOn_of_shifts tidy found (carries _) (shifts_send there) trivial fun id rest => .none ?_
    simp only [Task.custody, Custody.row_cons, zero_add]
    rfl

theorem advances_retry (tidy : world.Tidy) {held : JobId} {awake : Bool}
    (found : Table.get? number world.tasks = some (.retry held awake))
    (stepped : world.stepRetry number held awake = some next) :
    Advances world (.step number chance) next := by
  cases retryBranch stepped with
  | wakes => exact advances_goOn tidy found (.refl tidy) rfl trivial fun _ _ => .none rfl
  | gone gone =>
    refine advances_endTask tidy found (.refl tidy) rfl fun id rest => ?_
    exact .drop (.inl gone) rfl (congrArg (world.viewWith id) (add_zero rest))
  | sends there =>
    have carries : Carries world { world with channel := world.channel.push held } :=
      ⟨rfl, rfl, tidy.keyed⟩
    refine advances_endTask_of_shifts tidy found carries (shifts_send there) fun id rest => .none ?_
    simp only [Task.custody, zero_add]
    rfl

/-- A step of a task advances its world. -/
theorem advances_step (tidy : world.Tidy) (stepped : step? setting world number chance = some next) :
    Advances world (.step number chance) next := by
  obtain ⟨task, found, stepped⟩ := task_of_step stepped
  cases task with
  | submit step =>
    rw [← Option.some.inj stepped]
    exact advances_submit tidy found
  | start step =>
    rw [← Option.some.inj stepped]
    exact advances_start tidy found
  | shutdown step => exact advances_shutdown tidy found stepped
  | status step =>
    rw [← Option.some.inj stepped]
    exact advances_status tidy found
  | worker step => exact advances_worker tidy found stepped
  | offer ids => exact advances_offer tidy found stepped
  | retry held awake => exact advances_retry tidy found stepped

theorem others_of_none (free : Table.get? number world.tasks = none) (id : JobId) :
    world.others number id = world.custody id := by
  rw [others, custody, Table.total_erase_of_none _ free]

/-- A call that begins holds no id yet. -/
theorem advances_beginCall (tidy : world.Tidy) (call : Call) :
    Advances world (.call call) (beginCall setting world call) := by
  have free (call : Call) : Table.get? world.nextTask (world.opened call).tasks = none := tidy.numbered.fresh
  have counted (call : Call) : (world.opened call).Tidy := by
    have below {number : Nat} {task : Task} (found : Table.get? number world.tasks = some task) :
        number < world.nextTask + 1 := Nat.lt_succ_of_lt (tidy.numbered.below found)
    exact ⟨⟨tidy.numbered.distinct, below⟩, tidy.keyed, tidy.sane⟩
  have same (call : Call) (id : JobId) : (world.opened call).view id = world.view id := view_note rfl rfl
  have goesOn {call : Call} {task : Task} (sane : task.Sane) (empty : ∀ id, task.custody id = 0) :
      Advances world (.call call) ((world.opened call).goOn world.nextTask task) := by
    refine ⟨(counted call).goOn (Nat.lt_succ_self _) sane, fun id => .none ?_⟩
    rw [view_goOn (counted call).numbered.distinct, others_of_none (free call), empty, add_zero, ← same call]
    rfl
  have answers {call : Call} {answer : Answer}
      (quiet : ∀ id, Event.accepts id (.answered world.nextTask answer) = false) :
      Advances world (.call call) ((world.opened call).answer world.nextTask answer) := by
    refine ⟨((counted call).endTask _).note _, fun id => .none ?_⟩
    rw [World.answer, view_note rfl (quiet id), view_endTask, others_of_none (free call), ← same call]
    rfl
  generalize begun : beginCall setting world call = next
  cases callBranch begun with
  | unresolved | refuses => exact answers fun _ => rfl
  | _ => exact goesOn trivial fun _ => rfl

theorem advances_deliver (tidy : world.Tidy) (held : JobId) :
    Advances world (.deliver held) { world with channel := world.channel.push held } := by
  have carries : Carries world { world with channel := world.channel.push held } := ⟨rfl, rfl, tidy.keyed⟩
  refine ⟨carries.tidy tidy, fun id => ?_⟩
  by_cases gone : world.channel.receiver = .gone
  · refine .none ?_
    rw [Channel.push, if_pos gone]
  · obtain ⟨core, before, after⟩ := shifts_send gone id
    rw [add_zero] at before
    have custody : World.custody id { world with channel := world.channel.push held } =
        world.custody id + one .waiting held id := by
      rw [World.custody, World.custody, before, after, add_right_comm]
    by_cases same : held = id
    · subst same
      rw [Custody.one_self] at custody
      exact .deliver ⟨_, rfl⟩ (View.ext rfl rfl custody rfl rfl)
    · rw [Custody.one_of_ne _ same, add_zero] at custody
      exact .none (View.ext rfl rfl custody rfl rfl)

/-- A restart that finds the same records loses what the process held. -/
theorem advances_restart (restarted : restart? setting world = some next) (keyed : next.jobs.Keyed)
    (same : ∀ id, Table.get? id next.jobs.records = Table.get? id world.jobs.records) :
    Advances world .restart next := by
  obtain ⟨_, _, _, _, _, _, rfl⟩ := stores_of_restart restarted
  refine ⟨⟨⟨Table.distinct_nil, fun found => by simp [crash] at found⟩, keyed,
    fun _ _ found => by simp [crash] at found⟩, fun id => ?_⟩
  exact .restart rfl (View.ext (same id) rfl rfl rfl rfl)

/-- A move advances its world, as long as a restart finds the records again. -/
theorem advances_move (tidy : world.Tidy) {move : Move} (moved : move? setting world move = some next)
    (kept : move = .restart → next.jobs.Keyed ∧
      ∀ id, Table.get? id next.jobs.records = Table.get? id world.jobs.records) :
    Advances world move next := by
  cases move with
  | call call =>
    rw [← Option.some.inj moved]
    exact advances_beginCall tidy call
  | step number chance => exact advances_step tidy moved
  | deliver held =>
    rw [← Option.some.inj moved]
    exact advances_deliver tidy held
  | restart =>
    obtain ⟨keyed, same⟩ := kept rfl
    exact advances_restart moved keyed same

end ContractWorks.World

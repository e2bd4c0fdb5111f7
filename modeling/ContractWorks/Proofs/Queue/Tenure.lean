import ContractWorks.Proofs.Queue.Deed
import ContractWorks.Proofs.Queue.Outcome
import ContractWorks.Proofs.Storage.Lodging

namespace ContractWorks

/-- A job is in compile while its worker holds a workspace. This function gives the directory of the workspace that a
task holds, and the job that it is for. -/
def Task.lodging? : Task → Option (String × JobId)
  | .worker (.prepared record _ directory) => some (directory, record.id)
  | .worker (.ready record _ directory) => some (directory, record.id)
  | .worker (.invoking record _ directory) => some (directory, record.id)
  | .worker (.running record _ directory) => some (directory, record.id)
  | _ => none

theorem Task.lodging?_of_duty {task : Task} (apart : task.duty ≠ .worker) : task.lodging? = none := by
  cases task with
  | worker step => exact absurd rfl apart
  | _ => rfl

theorem Task.lodging?_of_helps {task : Task} (helps : task.Helps) : task.lodging? = none := by
  unfold Task.Helps at helps
  split at helps <;> first | rfl | exact helps.elim

namespace World

variable {setting : Setting} {world base next : World} {number other : Nat} {chance : Chance} {old task : Task}
  {duty : Duty} {move : Move}

/-- This function gives the workspace that the task with a number holds. -/
def lodgingAt (world : World) (number : Nat) : Option (String × JobId) :=
  (Table.get? number world.tasks).bind Task.lodging?

/-- This function gives the workspace that a move creates, and the job that it is for: the worker of the job applies the
gate, and then the directory is made. -/
def allots (setting : Setting) (world : World) : Move → Option (String × JobId)
  | .step number chance =>
    match Table.get? number world.tasks with
    | some (.worker (.compiling record)) =>
      if (setting.gate record.kind record.input).valid then
        match (Workspace.create { config := setting.workspaces } chance.name world.disk).2.2 with
        | .ok directory => some (directory, record.id)
        | .error _ => none
      else none
    | _ => none
  | _ => none

/-- These are the ways in which a move changes the workspaces: not at all, by a sweep, by a worker that gets one, and by
a worker that gives one up once its compiler has run. -/
inductive Tenure (setting : Setting) (world next : World) : Move → Prop where
  | rest {move : Move} (idle : allots setting world move = none)
      (same : ∀ number, next.lodgingAt number = world.lodgingAt number)
      (kept : ∀ place, world.disk.at? place = some .directory → next.disk.at? place = some .directory) :
      Tenure setting world next move
  | sweep {number : Nat} {chance : Chance} {report : RecoveryReport}
      (found : Table.get? number world.tasks = some (.start (.sweeping report)))
      (same : ∀ number, next.lodgingAt number = world.lodgingAt number) :
      Tenure setting world next (.step number chance)
  | enter {number : Nat} {chance : Chance} {record : JobRecord} {workspace : Workspace} {directory : String}
      (made : allots setting world (.step number chance) = some (directory, record.id))
      (created : Workspace.create { config := setting.workspaces } chance.name world.disk =
        (next.disk, workspace, .ok directory))
      (before : world.lodgingAt number = none) (own : next.lodgingAt number = some (directory, record.id))
      (others : ∀ other, other ≠ number → next.lodgingAt other = world.lodgingAt other) :
      Tenure setting world next (.step number chance)
  | leave {number : Nat} {chance : Chance} {record : JobRecord} {workspace : Workspace} {directory : String}
      (idle : allots setting world (.step number chance) = none)
      (found : Table.get? number world.tasks = some (.worker (.running record workspace directory)))
      (disk : next.disk = (workspace.cleanup
        (setting.compilers record.kind directory record.input chance world.disk).1).1)
      (own : next.lodgingAt number = none)
      (others : ∀ other, other ≠ number → next.lodgingAt other = world.lodgingAt other) :
      Tenure setting world next (.step number chance)

theorem lodgingAt_of_found (found : Table.get? number world.tasks = some task) :
    world.lodgingAt number = task.lodging? := by
  rw [lodgingAt, found, Option.bind_some]

theorem lodgingAt_goOn_self : (world.goOn number task).lodgingAt number = task.lodging? :=
  lodgingAt_of_found (Table.get?_insert_self _ _ _)

theorem allots_of_found (found : Table.get? number world.tasks = some task)
    (other : ∀ record, task ≠ .worker (.compiling record)) : allots setting world (.step number chance) = none := by
  rw [allots, found]
  split
  · next record same => exact absurd (Option.some.inj same) (other record)
  · rfl

/-- A step changes no workspace but that of its task. -/
theorem Outcome.lodgingAt_of_ne (outcome : Outcome number duty world next) (numbered : world.Numbered)
    (differ : other ≠ number) : next.lodgingAt other = world.lodgingAt other := by
  rcases Nat.lt_or_ge other world.nextTask with older | beyond
  · rw [lodgingAt, lodgingAt, outcome.others differ older]
  · have absent : Table.get? other world.tasks = none := by
      cases found : Table.get? other world.tasks with
      | none => rfl
      | some task => exact absurd (numbered.below found) (Nat.not_lt.mpr beyond)
    rw [lodgingAt, lodgingAt, absent]
    cases found : Table.get? other next.tasks with
    | none => rfl
    | some task =>
      rcases outcome.came found with ⟨_, there⟩ | ⟨same, _⟩ | ⟨_, helps⟩
      · simp [absent] at there
      · exact absurd same differ
      · exact Task.lodging?_of_helps helps

/-- A step of a task that is no worker changes no workspace. -/
theorem Outcome.lodgingAt (outcome : Outcome number duty world next) (numbered : world.Numbered)
    (apart : duty ≠ .worker) (before : world.lodgingAt number = none) (other : Nat) :
    next.lodgingAt other = world.lodgingAt other := by
  by_cases same : other = number
  · subst same
    rw [before, World.lodgingAt]
    cases found : Table.get? other next.tasks with
    | none => rfl
    | some task =>
      rcases outcome.came found with ⟨differ, _⟩ | ⟨_, alike⟩ | ⟨differ, _⟩
      · exact absurd rfl differ
      · exact Task.lodging?_of_duty (alike ▸ apart)
      · exact absurd rfl differ
  · exact outcome.lodgingAt_of_ne numbered same

/-- A submission takes away no directory. -/
theorem kept_submit (step : SubmitStep) {place : Place} (here : world.disk.at? place = some .directory) :
    (world.stepSubmit number chance step).disk.at? place = some .directory := by
  generalize stepped : world.stepSubmit number chance step = next
  cases submitBranch stepped with
  | @inserts record _ _ done | @fails record _ _ _ done =>
    have kept := JobStore.insert_keeps chance.fault world.jobs record here
    rwa [done] at kept
  | _ => exact here

/-- A start takes away no directory, unless it sweeps the workspaces. -/
theorem kept_start {step : StartStep} (keeps : ∀ report, step ≠ .sweeping report) {place : Place}
    (here : world.disk.at? place = some .directory) :
    (stepStart setting world number chance step).disk.at? place = some .directory := by
  have leaves := @leaves_start setting world number chance step
  generalize stepped : stepStart setting world number chance step = next at leaves ⊢
  cases startBranch stepped with
  | @orphans id _ _ _ _ _ done | @spares id _ _ _ _ _ done | @breaks id _ _ _ _ _ done =>
    have kept := JobStore.transition_keeps chance.fault world.jobs id (.fail orphanError) chance.now here
    rwa [done] at kept
  | sweeps | unswept => exact absurd rfl (keeps _)
  | _ =>
    rw [(leaves (by simp) (by simp)).disk]
    exact here

/-- A worker that is between workspaces changes none and takes away no directory. -/
theorem tenure_rest (found : Table.get? number world.tasks = some old) (numbered : world.Numbered)
    (outcome : Outcome number duty world next) (idle : allots setting world (.step number chance) = none)
    (own : next.lodgingAt number = old.lodging?)
    (kept : ∀ place, world.disk.at? place = some .directory → next.disk.at? place = some .directory) :
    Tenure setting world next (.step number chance) := by
  refine .rest idle (fun other => ?_) kept
  by_cases same : other = number
  · rw [same, own, lodgingAt_of_found found]
  · exact outcome.lodgingAt_of_ne numbered same

theorem allots_of_compiling {record : JobRecord}
    (found : Table.get? number world.tasks = some (.worker (.compiling record))) :
    allots setting world (.step number chance) =
      if (setting.gate record.kind record.input).valid then
        match (Workspace.create { config := setting.workspaces } chance.name world.disk).2.2 with
        | .ok directory => some (directory, record.id)
        | .error _ => none
      else none := by
  rw [allots, found]

theorem lodging?_afterRun (record : JobRecord) (ending : CompilerEnd) :
    (Task.worker (afterRun record ending)).lodging? = none := by
  cases ending <;> rfl

/-- A worker gets a workspace before the compiler runs and gives it up right after that. -/
theorem tenure_worker (numbered : world.Numbered) {step : WorkerStep}
    (found : Table.get? number world.tasks = some (.worker step))
    (stepped : stepWorker setting world number chance step = some next) :
    Tenure setting world next (.step number chance) := by
  have outcome := outcome_worker numbered stepped
  have rests (other : ∀ record, step ≠ .compiling record)
      (own : next.lodgingAt number = (Task.worker step).lodging?)
      (kept : ∀ place, world.disk.at? place = some .directory → next.disk.at? place = some .directory) :
      Tenure setting world next (.step number chance) :=
    tenure_rest found numbered outcome (allots_of_found found (by simpa using other)) own kept
  cases workerBranch stepped with
  | @refused record refused =>
    have idle : allots setting world (.step number chance) = none := by
      rw [allots_of_compiling found, if_neg (by simp [refused])]
    exact tenure_rest found numbered outcome idle lodgingAt_goOn_self fun _ here => here
  | @unlodged record _ _ _ passes created =>
    have idle : allots setting world (.step number chance) = none := by
      rw [allots_of_compiling found, if_pos passes, created]
    refine tenure_rest found numbered outcome idle lodgingAt_goOn_self fun place here => ?_
    exact (Workspace.create_spec created).1.directory here
  | @lodged record _ _ directory passes created =>
    have made : allots setting world (.step number chance) = some (directory, record.id) := by
      rw [allots_of_compiling found, if_pos passes, created]
    refine .enter made created (lodgingAt_of_found found) lodgingAt_goOn_self fun other differ => ?_
    exact outcome.lodgingAt_of_ne numbered differ
  | compiles ended =>
    refine .leave (allots_of_found found (by simp)) found (by rw [ended]; rfl) ?_ fun other differ =>
      outcome.lodgingAt_of_ne numbered differ
    exact lodgingAt_goOn_self.trans (lodging?_afterRun _ _)
  | stops =>
    have gone : (world.endTask number).lodgingAt number = none := by
      rw [lodgingAt, endTask, Table.get?_erase_self, Option.bind_none]
    exact rests (by simp) gone fun _ here => here
  | @begins id _ _ _ done | @skips id _ _ _ done | @postpones id _ _ _ done =>
    refine rests (by simp) lodgingAt_goOn_self fun place here => ?_
    have kept := JobStore.transition_keeps chance.fault world.jobs id .start chance.now here
    rwa [done] at kept
  | @finishes id transition _ _ _ done =>
    refine rests (by simp) lodgingAt_goOn_self fun place here => ?_
    have kept := JobStore.transition_keeps chance.fault world.jobs id transition chance.now here
    rwa [done] at kept
  | @keeps _ artifact _ _ done | @loses _ artifact _ _ _ done =>
    refine rests (by simp) lodgingAt_goOn_self fun place here => ?_
    have kept := ArtifactStore.put_keeps chance.fault world.artifacts artifact here
    rwa [done] at kept
  | @invokes record workspace directory =>
    have own : (world.goOn number (.worker (.running record workspace directory))).lodgingAt number =
        some (directory, record.id) := lodgingAt_goOn_self
    exact rests (by simp) own fun _ here => here
  | _ =>
    -- These steps wait, report progress or end the work, and do nothing to the disk.
    exact rests (by simp) lodgingAt_goOn_self fun _ here => here

/-- Every move of a process that goes on changes the workspaces in one of the ways there are. -/
theorem tenure_of_move (numbered : world.Numbered) (stays : move ≠ .restart)
    (moved : move? setting world move = some next) : Tenure setting world next move := by
  cases move with
  | call call =>
    rw [← Option.some.inj moved]
    have counted := numbered_opened numbered call
    have absent : (world.opened call).lodgingAt world.nextTask = none := by
      show (Table.get? world.nextTask world.tasks).bind Task.lodging? = none
      rw [numbered.fresh, Option.bind_none]
    have outcome : Outcome world.nextTask call.duty (world.opened call) (beginCall setting world call) :=
      outcome_call numbered call
    have apart : call.duty ≠ .worker := by cases call <;> simp [Call.duty]
    have leaves : Leaves world (beginCall setting world call) := leaves_beginCall call
    exact .rest rfl (outcome.lodgingAt counted apart absent) fun _ here => leaves.disk ▸ here
  | deliver id =>
    rw [← Option.some.inj moved]
    exact .rest rfl (fun _ => rfl) fun _ here => here
  | restart => exact absurd rfl stays
  | step number chance =>
    obtain ⟨task, found, stepped⟩ := task_of_step moved
    have outcome := outcome_of_step numbered stepped
    have rests (apart : task.duty ≠ .worker)
        (kept : ∀ place, world.disk.at? place = some .directory → next.disk.at? place = some .directory) :
        Tenure setting world next (.step number chance) := by
      have before := (lodgingAt_of_found found).trans (Task.lodging?_of_duty apart)
      refine .rest (allots_of_found found ?_) (outcome.lodgingAt numbered apart before) kept
      rintro record rfl
      exact apart rfl
    cases task with
    | submit step =>
      obtain rfl := Option.some.inj stepped
      exact rests (by simp [Task.duty]) fun _ here => kept_submit step here
    | start step =>
      obtain rfl := Option.some.inj stepped
      by_cases sweeps : ∃ report, step = .sweeping report
      · obtain ⟨report, rfl⟩ := sweeps
        have before := (lodgingAt_of_found found).trans (Task.lodging?_of_duty (by simp [Task.duty]))
        exact .sweep found (outcome.lodgingAt numbered (by simp [Task.duty]) before)
      · exact rests (by simp [Task.duty]) fun _ here =>
          kept_start (fun report same => sweeps ⟨report, same⟩) here
    | shutdown step =>
      have leaves := leaves_shutdown stepped
      exact rests (by simp [Task.duty]) fun _ here => leaves.disk ▸ here
    | status step =>
      obtain rfl := Option.some.inj stepped
      have leaves : Leaves world (world.stepStatus number chance step) := leaves_status step
      exact rests (by simp [Task.duty]) fun _ here => leaves.disk ▸ here
    | worker step => exact tenure_worker numbered found stepped
    | offer ids =>
      have leaves := leaves_offer stepped
      exact rests (by simp [Task.duty]) fun _ here => leaves.disk ▸ here
    | retry id awake =>
      have leaves := leaves_retry stepped
      exact rests (by simp [Task.duty]) fun _ here => leaves.disk ▸ here

end World

end ContractWorks

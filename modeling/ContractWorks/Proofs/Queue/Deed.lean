import ContractWorks.Proofs.Queue.Secure

namespace ContractWorks

open Path (Plain)

/-- A burden is what a task holds for a job: the record that it works on, an artifact to be stored, or the id of a
stored one to be noted. -/
inductive Burden where
  | work (record : JobRecord)
  | goods (record : JobRecord) (artifact : Artifact)
  | note (id : JobId) (artifact : ArtifactId)

/-- This function gives the burden of a task. -/
def Task.burden? : Task → Option Burden
  | .worker (.started record) => some (.work record)
  | .worker (.compiling record) => some (.work record)
  | .worker (.prepared record _ _) => some (.work record)
  | .worker (.ready record _ _) => some (.work record)
  | .worker (.invoking record _ _) => some (.work record)
  | .worker (.running record _ _) => some (.work record)
  | .worker (.collected record artifact) => some (.goods record artifact)
  | .worker (.storing record artifact) => some (.goods record artifact)
  | .worker (.finishing id (.complete artifact)) => some (.note id artifact)
  | _ => none

theorem Task.burden?_of_light (task : Task) (light : task.Light) : task.burden? = none := by
  unfold Task.burden?
  split <;> first | rfl | exact light.elim

/-- This condition holds of a task when a property holds of its burden. -/
def Task.Holds (property : Burden → Prop) (task : Task) : Prop :=
  ∀ burden ∈ task.burden?, property burden

theorem Task.holds_of_none {property : Burden → Prop} {task : Task} (none : task.burden? = none) :
    task.Holds property := by
  simp [Task.Holds, none]

namespace World

/-- A world bears a burden when one of its tasks holds it. -/
def Bears (burden : Burden) (world : World) : Prop :=
  ∃ number task, Table.get? number world.tasks = some task ∧ task.burden? = some burden

variable {setting : Setting} {storage : StorageConfig} {world next : World} {number : Nat} {chance : Chance}
  {property : Burden → Prop} {allows : ArtifactId → JobId → Prop} {move : Move}

theorem bears_iff : (∀ burden, world.Bears burden → property burden) ↔ world.Everywhere (Task.Holds property) := by
  constructor
  · exact fun all number task found burden held => all burden ⟨number, task, found, held⟩
  · rintro all burden ⟨number, task, found, held⟩
    exact all number task found burden held

/-- This is what a move of a process does to the stores, and to the burdens of its tasks. It leaves the stores alone
up to changes of the disk apart from the data, or inserts a record, or takes one a step on, or makes an artifact, or
puts one. -/
inductive Deed (setting : Setting) (storage : StorageConfig) (world next : World) : Move → Prop where
  | rest {move : Move} (spares : ∀ data, storage = .file data → Disk.Spares data world.disk next.disk)
      (jobs : next.jobs = world.jobs) (artifacts : next.artifacts = world.artifacts)
      (burdens : ∀ burden, next.Bears burden → world.Bears burden) : Deed setting storage world next move
  | insert {move : Move} {record : JobRecord} {fault : Option StoreFault} {result : Except StoreError Unit}
      (queued : record.status = .queued) (plain : Plain record.id)
      (done : world.jobs.insert record fault world.disk = (next.disk, next.jobs, result))
      (artifacts : next.artifacts = world.artifacts) (burdens : ∀ burden, next.Bears burden → world.Bears burden) :
      Deed setting storage world next move
  | transition {move : Move} {id : JobId} {transition : Transition} {now : Time.Instant} {fault : Option StoreFault}
      {result : Except StoreError JobRecord}
      (noted : ∀ artifact, transition = .complete artifact → world.Bears (.note id artifact))
      (done : world.jobs.transition id transition now fault world.disk = (next.disk, next.jobs, result))
      (artifacts : next.artifacts = world.artifacts)
      (burdens : ∀ burden, next.Bears burden → world.Bears burden ∨ ∃ record, result = .ok record ∧ burden = .work record) :
      Deed setting storage world next move
  | make {number : Nat} {chance : Chance} {record : JobRecord} {workspace : Workspace} {directory : String}
      {artifact : Artifact}
      (runs : Table.get? number world.tasks = some (.worker (.running record workspace directory)))
      (made : (setting.compilers record.kind directory record.input chance world.disk).2 = .made artifact)
      (spares : ∀ data, storage = .file data → Disk.Spares data world.disk next.disk)
      (jobs : next.jobs = world.jobs) (artifacts : next.artifacts = world.artifacts)
      (burdens : ∀ burden, next.Bears burden → world.Bears burden ∨ burden = .goods record artifact) :
      Deed setting storage world next (.step number chance)
  | put {move : Move} {record : JobRecord} {artifact : Artifact} {fault : Option StoreFault}
      {result : Except StoreError Unit} (held : world.Bears (.goods record artifact))
      (done : world.artifacts.put artifact fault world.disk = (next.disk, next.artifacts, result))
      (jobs : next.jobs = world.jobs)
      (burdens : ∀ burden, next.Bears burden →
        world.Bears burden ∨ result = .ok () ∧ burden = .note record.id artifact.id) :
      Deed setting storage world next move

/-- The burdens of a world are those that it bears. -/
theorem everywhere_bears (world : World) : world.Everywhere (Task.Holds world.Bears) :=
  bears_iff.mp fun _ held => held

theorem Deed.of_leaves (leaves : Leaves world next) : Deed setting storage world next move := by
  refine .rest (fun data _ => ?_) leaves.jobs leaves.artifacts ?_
  · rw [leaves.disk]
    exact .refl _ _
  · exact bears_iff.mpr (leaves.tasks (fun task light => Task.holds_of_none (task.burden?_of_light light))
      (everywhere_bears world))

/-- A task that goes on brings no burden but its own. -/
theorem bears_goOn {base : World} (same : base.tasks = world.tasks)
    (old : ∀ burden, world.Bears burden → property burden) {task : Task} (new : task.Holds property)
    (burden : Burden) (held : (base.goOn number task).Bears burden) : property burden := by
  have all : base.Everywhere (Task.Holds property) := by
    unfold Everywhere
    rw [same]
    exact bears_iff.mp old
  exact bears_iff.mpr (all.goOn number new) burden held

/-- A task that ends brings no burden. -/
theorem bears_answer {base : World} (same : base.tasks = world.tasks)
    (old : ∀ burden, world.Bears burden → property burden) {answer : Answer} (burden : Burden)
    (held : (base.answer number answer).Bears burden) : property burden := by
  have all : base.Everywhere (Task.Holds property) := by
    unfold Everywhere
    rw [same]
    exact bears_iff.mp old
  exact bears_iff.mpr (all.answer number answer) burden held

theorem deed_submit (housed : world.Everywhere (Task.Housed setting allows)) {step : SubmitStep}
    (found : Table.get? number world.tasks = some (.submit step)) :
    Deed setting storage world (world.stepSubmit number chance step) (.step number chance) := by
  have housed := housed _ _ found
  generalize stepped : world.stepSubmit number chance step = next
  cases submitBranch stepped with
  | closed | full => exact .of_leaves (leaves_answer (.refl world))
  | inserts done =>
    obtain ⟨queued, plain⟩ := housed
    exact .insert queued plain done rfl (bears_goOn rfl (fun _ held => held) (Task.holds_of_none rfl))
  | fails done =>
    obtain ⟨queued, plain⟩ := housed
    exact .insert queued plain done rfl (bears_answer rfl fun _ held => held)
  | sends => exact .rest (fun _ _ => .refl _ _) rfl rfl (bears_answer rfl fun _ held => held)
  | reserves | enters =>
    exact .rest (fun _ _ => .refl _ _) rfl rfl (bears_goOn rfl (fun _ held => held) (Task.holds_of_none rfl))

theorem deed_start (confined : ∀ data, storage = .file data → setting.Confined data) (step : StartStep) :
    Deed setting storage world (stepStart setting world number chance step) (.step number chance) := by
  have noted (id : JobId) (artifact : ArtifactId) (same : Transition.fail orphanError = .complete artifact) :
      world.Bears (.note id artifact) := by simp at same
  have leaves := @leaves_start setting world number chance step
  generalize stepped : stepStart setting world number chance step = next at leaves ⊢
  cases startBranch stepped with
  | orphans done | spares done =>
    exact .transition (noted _) done rfl (bears_goOn rfl (fun _ held => .inl held) (Task.holds_of_none rfl))
  | breaks done => exact .transition (noted _) done rfl (bears_answer rfl fun _ held => .inl held)
  | sweeps swept | unswept swept =>
    refine .rest (fun data file => ?_) rfl rfl (bears_goOn rfl (fun _ held => held) (Task.holds_of_none rfl))
    have spares : Disk.Spares data world.disk (Workspace.sweep setting.workspaces world.disk).1 :=
      Workspace.sweep_spares (confined data file).apart
    rwa [swept] at spares
  | _ => exact .of_leaves (leaves (by simp) (by simp))

/-- A compiler run makes an artifact or fails, apart from the data directory. -/
theorem deed_compile (confined : ∀ data, storage = .file data → setting.Confined data) {record : JobRecord}
    {workspace : Workspace} {directory : String} {disk : Disk} {ending : CompilerEnd}
    (houses : setting.workspaces.Houses workspace directory)
    (runs : Table.get? number world.tasks = some (.worker (.running record workspace directory)))
    (ended : setting.compilers record.kind directory record.input chance world.disk = (disk, ending)) :
    Deed setting storage world
      ({ world with disk := (workspace.cleanup disk).1 }.goOn number (.worker (afterRun record ending)))
      (.step number chance) := by
  obtain ⟨held, name, named, rfl⟩ := houses
  have spares (data : String) (file : storage = .file data) :
      Disk.Spares data world.disk (workspace.cleanup disk).1 := by
    have inside := (confined data file).inside record.kind (Path.join setting.workspaces.root name)
      record.input chance world.disk
    rw [ended] at inside
    have compiled : Disk.Spares data world.disk disk := inside.mono ((confined data file).apart name named)
    exact compiled.trans (Workspace.cleanup_spares (confined data file).apart named held)
  have rests (after : WorkerStep) (light : (Task.worker after).burden? = none) : Deed setting storage world
      ({ world with disk := (workspace.cleanup disk).1 }.goOn number (.worker after)) (.step number chance) :=
    .rest spares rfl rfl (bears_goOn rfl (fun _ held => held) (Task.holds_of_none light))
  cases ending with
  | failed error => exact rests _ rfl
  | brokeOff => exact rests _ rfl
  | made artifact =>
    refine .make runs (by rw [ended]) spares rfl rfl (bears_goOn rfl (fun _ held => .inl held) ?_)
    rintro burden ⟨⟩
    exact .inr rfl

theorem deed_worker (confined : ∀ data, storage = .file data → setting.Confined data)
    (housed : world.Everywhere (Task.Housed setting allows)) {step : WorkerStep}
    (found : Table.get? number world.tasks = some (.worker step))
    (stepped : stepWorker setting world number chance step = some next) :
    Deed setting storage world next (.step number chance) := by
  have held (burden : Burden) (same : (Task.worker step).burden? = some burden) : world.Bears burden :=
    ⟨number, _, found, same⟩
  cases workerBranch stepped with
  | stops => exact .of_leaves (leaves_endTask (.refl world))
  | begins done =>
    refine .transition (fun _ same => by simp at same) done rfl (bears_goOn rfl (fun _ held => .inl held) ?_)
    rintro burden ⟨⟩
    exact .inr ⟨_, rfl, rfl⟩
  | skips done | postpones done =>
    exact .transition (fun _ same => by simp at same) done rfl
      (bears_goOn rfl (fun _ held => .inl held) (Task.holds_of_none rfl))
  | retries =>
    refine .of_leaves (leaves_goOn (leaves_spawn (.refl world) ?_) trivial)
    trivial
  | unlodged _ created =>
    exact .rest (fun _ _ => (Workspace.create_spec created).1.growsAt _) rfl rfl
      (bears_goOn rfl (fun _ held => held) (Task.holds_of_none rfl))
  | lodged _ created =>
    exact .rest (fun _ _ => (Workspace.create_spec created).1.growsAt _) rfl rfl
      (bears_goOn rfl (fun _ held => held) held)
  | started | prepared | ready | invokes | collected =>
    exact .rest (fun _ _ => .refl _ _) rfl rfl (bears_goOn rfl (fun _ held => held) held)
  | compiles ended => exact deed_compile confined (housed _ _ found) found ended
  | keeps done =>
    refine .put (held _ rfl) done rfl (bears_goOn rfl (fun _ held => .inl held) ?_)
    rintro burden ⟨⟩
    exact .inr ⟨rfl, rfl⟩
  | loses done =>
    exact .put (held _ rfl) done rfl (bears_goOn rfl (fun _ held => .inl held) (Task.holds_of_none rfl))
  | finishes done =>
    refine .transition (fun artifact same => ?_) done rfl
      (bears_goOn rfl (fun _ held => .inl held) (Task.holds_of_none rfl))
    subst same
    exact held _ rfl
  | _ => exact .rest (fun _ _ => .refl _ _) rfl rfl (bears_goOn rfl (fun _ held => held) (Task.holds_of_none rfl))

/-- Every move of a process that goes on is a deed. -/
theorem deed_of_move (confined : ∀ data, storage = .file data → setting.Confined data)
    (housed : world.Everywhere (Task.Housed setting allows)) (stays : move ≠ .restart)
    (moved : move? setting world move = some next) : Deed setting storage world next move := by
  cases move with
  | call call =>
    rw [← Option.some.inj moved]
    exact .of_leaves (leaves_beginCall call)
  | deliver id =>
    rw [← Option.some.inj moved]
    exact .of_leaves ⟨rfl, rfl, rfl, fun _ all => all⟩
  | restart => exact absurd rfl stays
  | step number chance =>
    obtain ⟨task, found, stepped⟩ := task_of_step moved
    cases task with
    | submit step =>
      rw [← Option.some.inj stepped]
      exact deed_submit housed found
    | start step =>
      rw [← Option.some.inj stepped]
      exact deed_start confined step
    | shutdown step => exact .of_leaves (leaves_shutdown stepped)
    | status step =>
      rw [← Option.some.inj stepped]
      exact .of_leaves (leaves_status step)
    | worker step => exact deed_worker confined housed found stepped
    | offer ids => exact .of_leaves (leaves_offer stepped)
    | retry id awake => exact .of_leaves (leaves_retry stepped)

end World

end ContractWorks

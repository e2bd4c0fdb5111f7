import ContractWorks.Proofs.Queue.Step
import ContractWorks.Proofs.Toolchain.Confined
import ContractWorks.Service.Launch

namespace ContractWorks

open Path (Plain)

/-- A task is light when it holds no record, no workspace and no artifact. -/
def Task.Light : Task → Prop
  | .submit (.reserved _) => False
  | .worker (.started _) => False
  | .worker (.compiling _) => False
  | .worker (.prepared _ _ _) => False
  | .worker (.ready _ _ _) => False
  | .worker (.invoking _ _ _) => False
  | .worker (.running _ _ _) => False
  | .worker (.collected _ _) => False
  | .worker (.storing _ _) => False
  | .worker (.finishing _ _) => False
  | _ => True

/-- Stores keep to laws when what holds of them still does after each operation of a queue, as long as artifacts are
put and noted only where they are allowed. -/
structure StoreLaws (storage : StorageConfig) (allows : ArtifactId → JobId → Prop)
    (holds : JobStore → ArtifactStore → Disk → Prop) : Prop where
  spare : ∀ {jobs artifacts disk next}, holds jobs artifacts disk →
    (∀ data, storage = .file data → Disk.Spares data disk next) → holds jobs artifacts next
  insert : ∀ {jobs other artifacts disk next record fault} {result : Except StoreError Unit},
    holds jobs artifacts disk → record.status = .queued → Plain record.id →
      jobs.insert record fault disk = (next, other, result) → holds other artifacts next
  transition : ∀ {jobs other artifacts disk next id transition now fault} {result : Except StoreError JobRecord},
    holds jobs artifacts disk → (∀ artifact, transition = .complete artifact → allows artifact id) →
      jobs.transition id transition now fault disk = (next, other, result) → holds other artifacts next
  putArtifact : ∀ {jobs artifacts kept disk next artifact fault id} {result : Except StoreError Unit},
    holds jobs artifacts disk → allows artifact.id id →
      artifacts.put artifact fault disk = (next, kept, result) → holds jobs kept next

/-- This condition says that the stores are those that a configuration asks for, and that the records are sound. -/
inductive Stored : StorageConfig → JobStore → ArtifactStore → Disk → Prop where
  | memory {records : Table JobId JobRecord} {artifacts : Table ArtifactId Artifact} {disk : Disk}
      (sound : (JobStore.memory records).Sound disk) :
      Stored .memory (.memory records) (.memory artifacts) disk
  | file {data : String} {records : Table JobId JobRecord} {disk : Disk}
      (mirrors : JobStore.Mirrors (Path.join data JobStore.folder.text) records disk) :
      Stored (.file data) (.file (Path.join data JobStore.folder.text) records)
        (.file (Path.join data ArtifactStore.folder.text)) disk

namespace Stored

variable {storage : StorageConfig} {jobs other : JobStore} {artifacts kept : ArtifactStore} {disk next : Disk}
  {fault : Option StoreFault}

theorem sound (stored : Stored storage jobs artifacts disk) : jobs.Sound disk := by
  cases stored with
  | memory sound => exact sound
  | file mirrors => exact mirrors

/-- A record that a store has outlives the process. -/
theorem durable_of_found (stored : Stored storage jobs artifacts disk) {id : JobId} {record : JobRecord}
    (found : Table.get? id jobs.records = some record) : jobs.durable? disk id = some record := by
  cases stored with
  | memory sound => exact found
  | file mirrors => exact (mirrors.durable (mirrors.keyed found).2).trans found

/-- Sound records stay sound when the disk changes apart from the data directory. -/
theorem spare (stored : Stored storage jobs artifacts disk)
    (spares : ∀ data, storage = .file data → Disk.Spares data disk next) :
    Stored storage jobs artifacts next := by
  cases stored with
  | memory sound => exact .memory sound
  | file mirrors => exact .file (mirrors.spare (spares _ rfl))

theorem withRecords (stored : Stored storage jobs artifacts disk) {records : Table JobId JobRecord}
    (sound : (jobs.withRecords records).Sound next) : Stored storage (jobs.withRecords records) artifacts next := by
  cases stored with
  | memory _ => exact .memory sound
  | file _ => exact .file sound

theorem insert (stored : Stored storage jobs artifacts disk) {record : JobRecord} (plain : Plain record.id)
    {result : Except StoreError Unit} (done : jobs.insert record fault disk = (next, other, result)) :
    Stored storage other artifacts next := by
  have sound := stored.sound.insert plain done
  rcases JobStore.insert_cases done with ⟨_, _, rfl⟩ | ⟨rfl, _⟩
  · exact stored.withRecords sound
  · cases stored with
    | memory _ => exact .memory sound
    | file _ => exact .file sound

theorem transition (stored : Stored storage jobs artifacts disk) {id : JobId} {transition : Transition}
    {now : Time.Instant} {result : Except StoreError JobRecord}
    (done : jobs.transition id transition now fault disk = (next, other, result)) :
    Stored storage other artifacts next := by
  have sound := stored.sound.transition done
  rcases JobStore.transition_cases done with ⟨_, _, _, _, _, rfl⟩ | ⟨rfl, _⟩
  · exact stored.withRecords sound
  · cases stored with
    | memory _ => exact .memory sound
    | file _ => exact .file sound

/-- This condition allows the artifacts that name a file, where artifacts are kept as files. -/
def Allows (storage : StorageConfig) (artifact : ArtifactId) (_ : JobId) : Prop :=
  ∀ data, storage = .file data → Plain artifact

/-- An artifact that is put leaves the records sound; in a file store it needs a plain id for that. -/
theorem putArtifact (stored : Stored storage jobs artifacts disk) {artifact : Artifact} {id : JobId}
    (plain : Allows storage artifact.id id) {result : Except StoreError Unit}
    (done : artifacts.put artifact fault disk = (next, kept, result)) : Stored storage jobs kept next := by
  cases stored with
  | memory sound =>
    rcases ArtifactStore.put_memory done with ⟨rfl, _⟩ | rfl
    · exact .memory sound
    · exact .memory sound
  | file mirrors =>
    obtain ⟨rfl, touches⟩ := ArtifactStore.put_file done
    exact .file (mirrors.of_artifact (plain _ rfl) touches)

/-- Sound records keep to the laws. -/
theorem laws (storage : StorageConfig) : StoreLaws storage (Allows storage) (Stored storage) where
  spare := spare
  insert := fun stored _ plain done => stored.insert plain done
  transition := fun stored _ done => stored.transition done
  putArtifact := fun stored plain done => stored.putArtifact plain done

/-- A job store that is opened again has the same records. -/
theorem reopen (stored : Stored storage jobs artifacts disk) :
    ∃ again, jobs.reopen disk = (disk, .ok again) ∧ Stored storage again artifacts disk ∧
      ∀ id, Table.get? id again.records = Table.get? id jobs.records := by
  cases stored with
  | memory sound => exact ⟨_, rfl, .memory sound, fun _ => rfl⟩
  | file mirrors =>
    obtain ⟨again, opened, found, same⟩ := mirrors.openAt
    exact ⟨_, opened, .file found, same⟩

/-- An artifact store that is opened again leaves the records sound. -/
theorem reopenArtifacts (stored : Stored storage jobs artifacts disk) {result : ArtifactStore}
    (opened : artifacts.reopen disk = (next, .ok result)) : Stored storage jobs result next := by
  cases stored with
  | memory sound =>
    obtain ⟨rfl, rfl⟩ := by simpa [ArtifactStore.reopen] using opened
    exact .memory sound
  | file mirrors =>
    rw [ArtifactStore.reopen, ArtifactStore.openAt] at opened
    split at opened
    · simp at opened
    · next made created =>
      obtain ⟨rfl, rfl⟩ := by simpa using opened
      exact .file (mirrors.spare ((Disk.makeDirectories_eq_ok created).1.growsAt _))

end Stored

/-- A workspace is housed when its directory has a name of its own. -/
def WorkspaceConfig.Houses (config : WorkspaceConfig) (workspace : Workspace) (directory : String) : Prop :=
  workspace.directory = some directory ∧ ∃ name, config.Names name ∧ directory = Path.join config.root name

/-- A task is housed when the workspace it holds is, when the record that it will insert is new, and when the
artifact that it will put and note is allowed. -/
def Task.Housed (setting : Setting) (allows : ArtifactId → JobId → Prop) : Task → Prop
  | .submit (.reserved record) => record.status = .queued ∧ Plain record.id
  | .worker (.prepared _ workspace directory) => setting.workspaces.Houses workspace directory
  | .worker (.ready _ workspace directory) => setting.workspaces.Houses workspace directory
  | .worker (.invoking _ workspace directory) => setting.workspaces.Houses workspace directory
  | .worker (.running _ workspace directory) => setting.workspaces.Houses workspace directory
  | .worker (.collected record artifact) => allows artifact.id record.id
  | .worker (.storing record artifact) => allows artifact.id record.id
  | .worker (.finishing id (.complete artifact)) => allows artifact id
  | _ => True

theorem Task.housed_of_light {setting : Setting} {allows : ArtifactId → JobId → Prop} (task : Task)
    (light : task.Light) : task.Housed setting allows := by
  unfold Task.Housed
  split <;> first | exact trivial | exact light.elim

namespace World

variable {setting : Setting} {world next : World} {number : Nat} {chance : Chance} {property : Task → Prop}

/-- A move leaves the stores alone when it changes no more than the channel, the live entries and light tasks. -/
structure Leaves (world next : World) : Prop where
  disk : next.disk = world.disk
  jobs : next.jobs = world.jobs
  artifacts : next.artifacts = world.artifacts
  tasks : ∀ {property : Task → Prop}, (∀ task : Task, task.Light → property task) →
    world.Everywhere property → next.Everywhere property

theorem Leaves.refl (world : World) : Leaves world world :=
  ⟨rfl, rfl, rfl, fun _ all => all⟩

theorem leaves_of_same {base : World} (disk : base.disk = world.disk) (jobs : base.jobs = world.jobs)
    (artifacts : base.artifacts = world.artifacts) (tasks : base.tasks = world.tasks) : Leaves world base where
  disk := disk
  jobs := jobs
  artifacts := artifacts
  tasks := fun _ all => by rwa [Everywhere, tasks]

theorem leaves_goOn {base : World} (same : Leaves world base) {task : Task} (light : task.Light) :
    Leaves world (base.goOn number task) :=
  ⟨same.disk, same.jobs, same.artifacts, fun holds all => (same.tasks holds all).goOn number (holds _ light)⟩

theorem leaves_endTask {base : World} (same : Leaves world base) : Leaves world (base.endTask number) :=
  ⟨same.disk, same.jobs, same.artifacts, fun holds all => (same.tasks holds all).endTask number⟩

theorem leaves_answer {base : World} (same : Leaves world base) {answer : Answer} :
    Leaves world (base.answer number answer) :=
  ⟨same.disk, same.jobs, same.artifacts, fun holds all => (same.tasks holds all).answer number answer⟩

theorem leaves_failStart {base : World} (same : Leaves world base) {error : QueueError} :
    Leaves world (base.failStart number error) :=
  ⟨same.disk, same.jobs, same.artifacts, fun holds all => (same.tasks holds all).endTask number⟩

theorem leaves_spawn {base : World} (same : Leaves world base) {task : Task} (light : task.Light) :
    Leaves world (base.spawn task) :=
  ⟨same.disk, same.jobs, same.artifacts, fun holds all => (same.tasks holds all).spawn (holds _ light)⟩

theorem leaves_spawnWorkers (count : Nat) :
    ∀ {base : World}, Leaves world base → Leaves world (spawnWorkers count base) := by
  induction count with
  | zero => exact fun same => same
  | succ count inductionHypothesis =>
    intro base same
    have made : Leaves world (base.spawn (.worker .idle)) := leaves_spawn same trivial
    exact inductionHypothesis ⟨made.disk, made.jobs, made.artifacts, made.tasks⟩

/-- A step of a start leaves the stores alone, unless it fails a job or sweeps the workspaces. -/
theorem leaves_start {step : StartStep} (still : ∀ id ids report, step ≠ .failing (id :: ids) report)
    (keeps : ∀ report, step ≠ .sweeping report) : Leaves world (stepStart setting world number chance step) := by
  generalize stepped : stepStart setting world number chance step = next
  cases startBranch stepped with
  | orphans | spares | breaks => exact absurd rfl (still _ _ _)
  | sweeps | unswept => exact absurd rfl (keeps _)
  | late => exact leaves_answer (.refl world)
  | unlisted | unlistedAgain | shut => exact leaves_failStart (.refl world)
  | offers =>
    refine leaves_goOn (leaves_spawn (.refl world) ?_) trivial
    trivial
  | spawns =>
    refine leaves_answer (leaves_spawnWorkers _ ?_)
    exact leaves_of_same rfl rfl rfl rfl
  | _ =>
    refine leaves_goOn ?_ trivial
    exact leaves_of_same rfl rfl rfl rfl

theorem leaves_shutdown {step : ShutdownStep} (stepped : world.stepShutdown number step = some next) :
    Leaves world next := by
  cases shutdownBranch stepped with
  | closes | collects =>
    refine leaves_goOn ?_ trivial
    exact leaves_of_same rfl rfl rfl rfl
  | stops => exact leaves_answer (.refl world)

theorem leaves_status (step : StatusStep) : Leaves world (world.stepStatus number chance step) := by
  generalize stepped : world.stepStatus number chance step = next
  cases statusBranch stepped with
  | reads | finds => exact leaves_goOn (.refl world) trivial
  | _ => exact leaves_answer (.refl world)

theorem leaves_offer {ids : List JobId} (stepped : world.stepOffer number ids = some next) :
    Leaves world next := by
  cases offerBranch stepped with
  | more =>
    refine leaves_goOn ?_ trivial
    exact leaves_of_same rfl rfl rfl rfl
  | _ => exact leaves_endTask (leaves_of_same rfl rfl rfl rfl)

theorem leaves_retry {id : JobId} {awake : Bool} (stepped : world.stepRetry number id awake = some next) :
    Leaves world next := by
  cases retryBranch stepped with
  | wakes => exact leaves_goOn (.refl world) trivial
  | gone | sends => exact leaves_endTask (leaves_of_same rfl rfl rfl rfl)

theorem leaves_beginCall (call : Call) : Leaves world (beginCall setting world call) := by
  have opened (call : Call) : Leaves world (world.opened call) := leaves_of_same rfl rfl rfl rfl
  generalize begun : beginCall setting world call = next
  cases callBranch begun with
  | unresolved | refuses => exact leaves_answer (opened _)
  | _ => exact leaves_goOn (opened _) trivial

/-- A world is secure when something holds of its stores and its tasks are housed. -/
structure Secure (setting : Setting) (allows : ArtifactId → JobId → Prop)
    (holds : JobStore → ArtifactStore → Disk → Prop) (world : World) : Prop where
  stored : holds world.jobs world.artifacts world.disk
  housed : world.Everywhere (Task.Housed setting allows)

variable {storage : StorageConfig} {allows : ArtifactId → JobId → Prop}
  {holds : JobStore → ArtifactStore → Disk → Prop}

theorem Secure.leave (secure : Secure setting allows holds world) (leaves : Leaves world next) :
    Secure setting allows holds next where
  stored := by
    rw [leaves.jobs, leaves.artifacts, leaves.disk]
    exact secure.stored
  housed := leaves.tasks Task.housed_of_light secure.housed

theorem secure_submit (laws : StoreLaws storage allows holds) (secure : Secure setting allows holds world)
    (safe : ArtifactStore.isSafeId chance.name = true) {step : SubmitStep}
    (found : Table.get? number world.tasks = some (.submit step)) :
    Secure setting allows holds (world.stepSubmit number chance step) := by
  have housed := secure.housed _ _ found
  generalize stepped : world.stepSubmit number chance step = next
  cases submitBranch stepped with
  | closed | full => exact secure.leave (leaves_answer (.refl world))
  | reserves => exact ⟨secure.stored, secure.housed.goOn number ⟨rfl, Path.plain_of_safe safe⟩⟩
  | inserts done =>
    obtain ⟨queued, plain⟩ := housed
    exact ⟨laws.insert secure.stored queued plain done, secure.housed.goOn number trivial⟩
  | fails done =>
    obtain ⟨queued, plain⟩ := housed
    exact ⟨laws.insert secure.stored queued plain done, secure.housed.endTask number⟩
  | enters =>
    refine secure.leave (leaves_goOn ?_ trivial)
    exact leaves_of_same rfl rfl rfl rfl
  | sends =>
    refine secure.leave (leaves_answer ?_)
    exact leaves_of_same rfl rfl rfl rfl

theorem secure_start (laws : StoreLaws storage allows holds) (secure : Secure setting allows holds world)
    (confined : ∀ data, storage = .file data → setting.Confined data) (step : StartStep) :
    Secure setting allows holds (stepStart setting world number chance step) := by
  have leaves := @leaves_start setting world number chance step
  generalize stepped : stepStart setting world number chance step = next at leaves ⊢
  cases startBranch stepped with
  | orphans done | spares done =>
    exact ⟨laws.transition secure.stored (fun _ same => by simp at same) done, secure.housed.goOn number trivial⟩
  | breaks done =>
    exact ⟨laws.transition secure.stored (fun _ same => by simp at same) done, secure.housed.endTask number⟩
  | sweeps swept | unswept swept =>
    refine ⟨laws.spare secure.stored fun data file => ?_, secure.housed.goOn number trivial⟩
    have spares : Disk.Spares data world.disk (Workspace.sweep setting.workspaces world.disk).1 :=
      Workspace.sweep_spares (confined data file).apart
    rwa [swept] at spares
  | _ => exact secure.leave (leaves (by simp) (by simp))

theorem secure_lodge (laws : StoreLaws storage allows holds) (secure : Secure setting allows holds world)
    (safe : ArtifactStore.isSafeId chance.name = true) {record : JobRecord} {disk : Disk} {workspace : Workspace}
    {directory : String}
    (created : Workspace.create { config := setting.workspaces } chance.name world.disk =
      (disk, workspace, .ok directory)) :
    Secure setting allows holds
      ({ world with disk }.goOn number (.worker (.prepared record workspace directory))) := by
  obtain ⟨grows, made⟩ := Workspace.create_spec created
  obtain ⟨shape, held⟩ := made directory rfl
  have houses : setting.workspaces.Houses workspace directory :=
    ⟨held, _, ⟨chance.name, rfl, .inr safe⟩, shape⟩
  have housed : (Task.worker (.prepared record workspace directory)).Housed setting allows := houses
  exact ⟨laws.spare secure.stored fun _ _ => grows.growsAt _, secure.housed.goOn number housed⟩

theorem secure_compile (laws : StoreLaws storage allows holds) (secure : Secure setting allows holds world)
    (confined : ∀ data, storage = .file data → setting.Confined data)
    {record : JobRecord} {workspace : Workspace} {directory : String} {disk : Disk} {ending : CompilerEnd}
    (houses : setting.workspaces.Houses workspace directory)
    (ended : setting.compilers record.kind directory record.input chance world.disk = (disk, ending))
    (allowed : ∀ artifact, ending = .made artifact → allows artifact.id record.id) :
    Secure setting allows holds
      ({ world with disk := (workspace.cleanup disk).1 }.goOn number (.worker (afterRun record ending))) := by
  obtain ⟨held, name, named, rfl⟩ := houses
  have spares : ∀ data, storage = .file data → Disk.Spares data world.disk (workspace.cleanup disk).1 := by
    intro data file
    have inside := (confined data file).inside record.kind (Path.join setting.workspaces.root name)
      record.input chance world.disk
    rw [ended] at inside
    have compiled : Disk.Spares data world.disk disk := inside.mono ((confined data file).apart name named)
    exact compiled.trans (Workspace.cleanup_spares (confined data file).apart named held)
  refine ⟨laws.spare secure.stored spares, secure.housed.goOn number ?_⟩
  cases ending with
  | failed error => exact trivial
  | brokeOff => exact trivial
  | made artifact => exact allowed artifact rfl

theorem secure_worker (laws : StoreLaws storage allows holds) (secure : Secure setting allows holds world)
    (confined : ∀ data, storage = .file data → setting.Confined data)
    (safe : ArtifactStore.isSafeId chance.name = true) {step : WorkerStep}
    (found : Table.get? number world.tasks = some (.worker step))
    (allowed : ∀ record workspace directory artifact, step = .running record workspace directory →
      (setting.compilers record.kind directory record.input chance world.disk).2 = .made artifact →
        allows artifact.id record.id)
    (stepped : stepWorker setting world number chance step = some next) : Secure setting allows holds next := by
  have housed := secure.housed _ _ found
  have stays {base : World} {after : WorkerStep} (same : Leaves world base)
      (own : (Task.worker after).Housed setting allows) :
      Secure setting allows holds (base.goOn number (.worker after)) :=
    ⟨(secure.leave same).stored, (secure.leave same).housed.goOn number own⟩
  cases workerBranch stepped with
  | stops => exact secure.leave (leaves_endTask (.refl world))
  | begins done | skips done | postpones done =>
    exact ⟨laws.transition secure.stored (fun _ same => by simp at same) done, secure.housed.goOn number trivial⟩
  | retries =>
    refine stays (leaves_spawn (.refl world) ?_) trivial
    trivial
  | unlodged _ created =>
    have grows := (Workspace.create_spec created).1
    exact ⟨laws.spare secure.stored fun _ _ => grows.growsAt _, secure.housed.goOn number trivial⟩
  | lodged _ created => exact secure_lodge laws secure safe created
  | invokes => exact ⟨secure.stored, secure.housed.goOn number housed⟩
  | compiles ended =>
    refine secure_compile laws secure confined housed ended fun artifact made => ?_
    exact allowed _ _ _ artifact rfl (by rw [ended, made])
  | prepared | ready | collected =>
    refine stays ?_ housed
    exact leaves_of_same rfl rfl rfl rfl
  | keeps done => exact ⟨laws.putArtifact secure.stored housed done, secure.housed.goOn number housed⟩
  | loses done => exact ⟨laws.putArtifact secure.stored housed done, secure.housed.goOn number trivial⟩
  | @finishes id transition _ _ _ done =>
    have noted (artifact : ArtifactId) (same : transition = .complete artifact) : allows artifact id := by
      subst same
      exact housed
    exact ⟨laws.transition secure.stored noted done, secure.housed.goOn number trivial⟩
  | _ =>
    refine stays ?_ trivial
    exact leaves_of_same rfl rfl rfl rfl

/-- A move of a process that goes on keeps a world secure. -/
theorem Secure.move (laws : StoreLaws storage allows holds) (secure : Secure setting allows holds world)
    (confined : ∀ data, storage = .file data → setting.Confined data) {move : Move} (stays : move ≠ .restart)
    (safe : ∀ number chance, move = .step number chance → ArtifactStore.isSafeId chance.name = true)
    (allowed : ∀ number chance record workspace directory artifact, move = .step number chance →
      Table.get? number world.tasks = some (.worker (.running record workspace directory)) →
        (setting.compilers record.kind directory record.input chance world.disk).2 = .made artifact →
          allows artifact.id record.id)
    (moved : move? setting world move = some next) : Secure setting allows holds next := by
  cases move with
  | call call =>
    rw [← Option.some.inj moved]
    exact secure.leave (leaves_beginCall call)
  | deliver id =>
    rw [← Option.some.inj moved]
    exact ⟨secure.stored, secure.housed⟩
  | restart => exact absurd rfl stays
  | step number chance =>
    have named := safe number chance rfl
    obtain ⟨task, found, stepped⟩ := task_of_step moved
    cases task with
    | submit step =>
      rw [← Option.some.inj stepped]
      exact secure_submit laws secure named found
    | start step =>
      rw [← Option.some.inj stepped]
      exact secure_start laws secure confined step
    | shutdown step => exact secure.leave (leaves_shutdown stepped)
    | status step =>
      rw [← Option.some.inj stepped]
      exact secure.leave (leaves_status step)
    | worker step =>
      refine secure_worker laws secure confined named found ?_ stepped
      rintro record workspace directory artifact rfl
      exact allowed number chance record workspace directory artifact rfl found
    | offer ids => exact secure.leave (leaves_offer stepped)
    | retry id awake => exact secure.leave (leaves_retry stepped)

/-- A restart keeps a world with sound records secure, and finds these again. -/
theorem Secure.restart (secure : Secure setting (Stored.Allows storage) (Stored storage) world)
    (moved : move? setting world .restart = some next) :
    Secure setting (Stored.Allows storage) (Stored storage) next ∧ next.jobs.Keyed ∧
      ∀ id, Table.get? id next.jobs.records = Table.get? id world.jobs.records := by
  obtain ⟨again, reopened, stored, same⟩ := secure.stored.reopen
  obtain ⟨middle, jobs, disk, artifacts, opened, found, rfl⟩ := stores_of_restart moved
  obtain ⟨rfl, rfl⟩ : world.disk = middle ∧ again = jobs := by simpa using reopened.symm.trans opened
  have after := stored.reopenArtifacts found
  have housed : Everywhere (Task.Housed setting (Stored.Allows storage))
      (crash setting world again artifacts disk) := fun _ _ found => by simp [crash] at found
  exact ⟨⟨after, housed⟩, after.sound.isKeyed, same⟩

end World

end ContractWorks

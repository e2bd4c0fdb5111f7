import ContractWorks.Proofs.Queue.Once
import ContractWorks.Proofs.Storage.Masking

namespace ContractWorks

/-- This function hides the text of a failure of a store. -/
def StoreError.masked : StoreError → StoreError
  | .io _ => .io ""
  | error => error

/-- This function hides the text of a failure of a store in an error of a queue. -/
def QueueError.masked : QueueError → QueueError
  | .store error => .store error.masked
  | error => error

/-- This function hides the text of a failure of a store in an answer. -/
def Answer.masked : Answer → Answer
  | .submitted result => .submitted (result.mapError QueueError.masked)
  | .started result => .started (result.mapError QueueError.masked)
  | .stopped => .stopped
  | .status result => .status (result.mapError QueueError.masked)

/-- This function hides the text of a failure of a store in what has been seen. -/
def Event.masked : Event → Event
  | .answered number answer => .answered number answer.masked
  | event => event

/-- This function hides the text of a fault. -/
def StoreFault.masked : StoreFault → StoreFault
  | .refused _ => .refused ""
  | fault => fault

/-- This function hides the text of the fault that a chance adds. -/
def Chance.masked (chance : Chance) : Chance :=
  { chance with fault := chance.fault.map StoreFault.masked }

/-- This function hides the causes of failures that are not the client's in what a task holds. -/
def Task.masked : Task → Task
  | .submit (.reserved record) => .submit (.reserved record.masked)
  | .status (.fetching record artifact) => .status (.fetching record.masked artifact)
  | .worker (.started record) => .worker (.started record.masked)
  | .worker (.compiling record) => .worker (.compiling record.masked)
  | .worker (.prepared record workspace directory) => .worker (.prepared record.masked workspace directory)
  | .worker (.ready record workspace directory) => .worker (.ready record.masked workspace directory)
  | .worker (.invoking record workspace directory) => .worker (.invoking record.masked workspace directory)
  | .worker (.running record workspace directory) => .worker (.running record.masked workspace directory)
  | .worker (.collected record artifact) => .worker (.collected record.masked artifact)
  | .worker (.storing record artifact) => .worker (.storing record.masked artifact)
  | .worker (.finishing id transition) => .worker (.finishing id transition.masked)
  | task => task

theorem QueueError.masked_masked (error : QueueError) : error.masked.masked = error.masked := by
  cases error with
  | store error => cases error <;> rfl
  | _ => rfl

@[simp] theorem Event.masked_masked (event : Event) : event.masked.masked = event.masked := by
  have twice {α : Type} (result : Except QueueError α) :
      (result.mapError QueueError.masked).mapError QueueError.masked = result.mapError QueueError.masked := by
    cases result with
    | error error => exact congrArg Except.error error.masked_masked
    | ok value => rfl
  cases event with
  | answered number answer => cases answer <;> simp only [masked, Answer.masked, twice]
  | _ => rfl

theorem Task.masked_masked (task : Task) : task.masked.masked = task.masked := by
  rcases task with step | step | step | step | step | ids | ⟨id, awake⟩ <;> try rfl
  all_goals cases step <;> simp [masked, JobRecord.masked_masked, Transition.masked_masked]

@[simp] theorem holdsPlace_masked (task : Task) : World.holdsPlace task.masked = World.holdsPlace task := by
  rcases task with step | step | step | step | step | ids | ⟨id, awake⟩ <;> try rfl
  all_goals cases step <;> rfl

@[simp] theorem maySend_masked (task : Task) : World.maySend task.masked = World.maySend task := by
  rcases task with step | step | step | step | step | ids | ⟨id, awake⟩ <;> try rfl
  all_goals cases step <;> rfl

theorem Stored.liesAt {storage : StorageConfig} {jobs : JobStore} {artifacts : ArtifactStore} {disk : Disk}
    (stored : Stored storage jobs artifacts disk) : jobs.LiesAt storage ∧ artifacts.LiesAt storage := by
  cases stored with
  | memory _ => exact ⟨trivial, trivial⟩
  | file _ => exact ⟨rfl, rfl⟩

namespace World

/-- A world is veiled by another one that holds the same, with all hidden that clients may not see. -/
structure Veiled (storage : StorageConfig) (world shown : World) : Prop where
  disk : shown.disk = world.disk.edited storage.veil
  jobs : shown.jobs = world.jobs.masked
  artifacts : shown.artifacts = world.artifacts
  live : shown.live = world.live
  channel : shown.channel = world.channel
  tasks : shown.tasks = Table.mapValues (fun _ => Task.masked) world.tasks
  nextTask : shown.nextTask = world.nextTask
  pool : shown.pool = world.pool
  history : shown.history.map Event.masked = world.history.map Event.masked

/-- This function hides all that clients may not see in a world, apart from what has been seen of it. -/
def veil (storage : StorageConfig) (world : World) : World :=
  { world with
    disk := world.disk.edited storage.veil
    jobs := world.jobs.masked
    tasks := Table.mapValues (fun _ => Task.masked) world.tasks }

variable {setting : Setting} {storage : StorageConfig} {world next shown : World} {number : Nat} {chance : Chance}

namespace Veiled

theorem goOn (veiled : Veiled storage world shown) (number : Nat) (task : Task) :
    Veiled storage (world.goOn number task) (shown.goOn number task.masked) :=
  { veiled with
    tasks := by
      rw [World.goOn, World.goOn, veiled.tasks]
      exact Table.insert_mapValues (fun _ => Task.masked) number task world.tasks }

theorem spawn (veiled : Veiled storage world shown) (task : Task) :
    Veiled storage (world.spawn task) (shown.spawn task.masked) := by
  have further := veiled.goOn world.nextTask task
  rw [World.spawn, World.spawn, veiled.nextTask]
  exact { further with nextTask := rfl }

theorem endTask (veiled : Veiled storage world shown) (number : Nat) :
    Veiled storage (world.endTask number) (shown.endTask number) :=
  { veiled with
    tasks := by
      rw [World.endTask, World.endTask, veiled.tasks]
      exact Table.erase_mapValues (fun _ => Task.masked) number world.tasks }

theorem note (veiled : Veiled storage world shown) {event other : Event} (same : other.masked = event.masked) :
    Veiled storage (world.note event) (shown.note other) :=
  { veiled with
    history := by
      rw [World.note, World.note, List.map_append, List.map_append, veiled.history, List.map_singleton,
        List.map_singleton, same] }

theorem answer (veiled : Veiled storage world shown) (number : Nat) {answer other : Answer}
    (same : other.masked = answer.masked) : Veiled storage (world.answer number answer) (shown.answer number other) :=
  (veiled.endTask number).note (congrArg (Event.answered number) same)

theorem withDisk (veiled : Veiled storage world shown) (disk : Disk) :
    Veiled storage { world with disk } { shown with disk := disk.edited storage.veil } :=
  { veiled with disk := rfl }

theorem withStore (veiled : Veiled storage world shown) (disk : Disk) (jobs : JobStore) :
    Veiled storage { world with disk, jobs } { shown with disk := disk.edited storage.veil, jobs := jobs.masked } :=
  { veiled with disk := rfl, jobs := rfl }

theorem withArtifacts (veiled : Veiled storage world shown) (disk : Disk) (artifacts : ArtifactStore) :
    Veiled storage { world with disk, artifacts } { shown with disk := disk.edited storage.veil, artifacts } :=
  { veiled with disk := rfl, artifacts := rfl }

theorem withLive (veiled : Veiled storage world shown) (live : LiveTable) :
    Veiled storage { world with live } { shown with live } :=
  { veiled with live := rfl }

theorem withChannel (veiled : Veiled storage world shown) (channel : Channel) :
    Veiled storage { world with channel } { shown with channel } :=
  { veiled with channel := rfl }

theorem withPool (veiled : Veiled storage world shown) (pool : List Nat) :
    Veiled storage { world with pool } { shown with pool } :=
  { veiled with pool := rfl }

theorem isDrained (veiled : Veiled storage world shown) : shown.isDrained = world.isDrained := by
  rw [World.isDrained, World.isDrained, veiled.channel, veiled.tasks, Table.mapValues, List.all_map]
  simp only [Function.comp_def, maySend_masked]

theorem get? (veiled : Veiled storage world shown) (number : Nat) :
    Table.get? number shown.tasks = (Table.get? number world.tasks).map Task.masked := by
  rw [veiled.tasks, Table.get?_mapValues]

/-- A veil may be drawn twice. -/
theorem again (veiled : Veiled storage world shown) : Veiled storage world (shown.veil storage) :=
  { veiled with
    disk := by rw [veil, veiled.disk, Disk.edited_edited _ storage.veil_veil]
    jobs := by rw [veil, veiled.jobs, JobStore.masked_masked]
    tasks := by rw [veil, veiled.tasks, Table.mapValues_mapValues _ fun _ => Task.masked_masked] }

theorem goOnAgain (veiled : Veiled storage world (shown.veil storage)) (number : Nat) {task other : Task}
    (same : other.masked = task.masked) :
    Veiled storage (world.goOn number task) ((shown.goOn number other).veil storage) :=
  { veiled with
    tasks := by
      have further := (veiled.goOn number task).tasks
      rw [← same] at further
      exact (Table.insert_mapValues (fun _ => Task.masked) number other shown.tasks).symm.trans further }

theorem answerAgain (veiled : Veiled storage world (shown.veil storage)) (number : Nat) (answer : Answer) :
    Veiled storage (world.answer number answer) ((shown.answer number answer).veil storage) :=
  { veiled.answer number rfl with
    tasks := by
      have further := (veiled.endTask number).tasks
      exact (Table.erase_mapValues (fun _ => Task.masked) number shown.tasks).symm.trans further }

end Veiled

theorem veiled_submit (veiled : Veiled storage world shown) (lies : world.jobs.LiesAt storage) (step : SubmitStep)
    (plain : ∀ record, step = .reserved record → Path.Plain record.id) :
    Option.Rel (Veiled storage) (stepTask setting world number chance (.submit step))
      (stepTask setting shown number chance (Task.masked (.submit step))) := by
  cases step with
  | waiting kind input =>
    refine .some ?_
    rw [stepSubmit, stepSubmit, reserve, reserve, veiled.channel]
    split
    · exact veiled.answer number rfl
    · split
      · exact veiled.answer number rfl
      · exact (veiled.withChannel _).goOn number (.submit (.reserved _))
  | reserved record =>
    refine .some ?_
    rw [stepSubmit, stepSubmit, insertRecord, insertRecord, veiled.jobs, veiled.disk,
      JobStore.insert_masked lies (plain record rfl)]
    generalize world.jobs.insert record chance.fault world.disk = done
    obtain ⟨disk, jobs, result⟩ := done
    have stored := veiled.withStore disk jobs
    cases result with
    | ok _ => exact stored.goOn number (.submit (.inserted record.id))
    | error error =>
      dsimp only
      rw [veiled.channel]
      exact (stored.withChannel _).answer number rfl
  | inserted id =>
    refine .some ?_
    rw [stepSubmit, stepSubmit, veiled.live]
    exact (veiled.withLive _).goOn number (.submit (.announced id))
  | announced id =>
    refine .some ?_
    rw [stepSubmit, stepSubmit, veiled.channel]
    exact (veiled.withChannel _).answer number rfl

theorem veiled_shutdown (veiled : Veiled storage world shown) (step : ShutdownStep) :
    Option.Rel (Veiled storage) (stepTask setting world number chance (.shutdown step))
      (stepTask setting shown number chance (Task.masked (.shutdown step))) := by
  have same : Task.masked (.shutdown step) = .shutdown step := by cases step <;> rfl
  rw [same, stepTask, stepTask]
  cases step with
  | closing =>
    have places : (shown.tasks.any fun entry => holdsPlace entry.2) =
        world.tasks.any fun entry => holdsPlace entry.2 := by
      rw [veiled.tasks, Table.mapValues, List.any_map]
      simp only [Function.comp_def, holdsPlace_masked]
    rw [stepShutdown, stepShutdown, places, veiled.channel]
    split
    · exact .none
    · exact .some ((veiled.withChannel _).goOn number (.shutdown .collecting))
  | collecting =>
    rw [stepShutdown, stepShutdown, veiled.pool]
    exact .some ((veiled.withPool _).goOn number (.shutdown (.joining _)))
  | joining workers =>
    have still : (workers.any fun worker => (Table.get? worker shown.tasks).isSome) =
        workers.any fun worker => (Table.get? worker world.tasks).isSome := by
      simp only [veiled.get?, Option.isSome_map]
    rw [stepShutdown, stepShutdown, still]
    split
    · exact .none
    · exact .some (veiled.answer number rfl)

theorem veiled_offer (veiled : Veiled storage world shown) (ids : List JobId) :
    Option.Rel (Veiled storage) (stepTask setting world number chance (.offer ids))
      (stepTask setting shown number chance (Task.masked (.offer ids))) := by
  have same : Task.masked (.offer ids) = .offer ids := rfl
  rw [same, stepTask, stepTask]
  cases ids with
  | nil => exact .some (veiled.endTask number)
  | cons id ids =>
    rw [stepOffer, stepOffer, veiled.channel]
    split
    · exact .some (veiled.endTask number)
    · split
      · exact .none
      · dsimp only
        split
        · exact .some ((veiled.withChannel _).endTask number)
        · exact .some ((veiled.withChannel _).goOn number (.offer ids))

theorem veiled_retry (veiled : Veiled storage world shown) (id : JobId) (awake : Bool) :
    Option.Rel (Veiled storage) (stepTask setting world number chance (.retry id awake))
      (stepTask setting shown number chance (Task.masked (.retry id awake))) := by
  have same : Task.masked (.retry id awake) = .retry id awake := rfl
  rw [same, stepTask, stepTask, stepRetry, stepRetry, veiled.channel]
  split
  · exact .some (veiled.goOn number (.retry id true))
  · split
    · exact .some (veiled.endTask number)
    · split
      · exact .none
      · exact .some ((veiled.withChannel _).endTask number)

theorem shownError_masked (error : Option ErrorRecord) :
    shownError (error.map ErrorRecord.masked) = shownError error := by
  cases error with
  | none => rfl
  | some error =>
    by_cases infra : error.code = .infra
    · simp [shownError, ErrorRecord.masked, infra, ErrorRecord.infra]
    · simp [shownError, ErrorRecord.masked, infra]

/-- What clients see of a job does not depend on what is hidden. -/
theorem statusOf_masked (record : JobRecord) (live : Option LiveJob) :
    statusOf record.masked live = statusOf record live := by
  rw [statusOf.eq_def, statusOf.eq_def, JobRecord.status_masked, JobRecord.error_masked, shownError_masked]
  rfl

theorem veiled_status (veiled : Veiled storage world shown) (kept : world.artifacts.LiesAt storage)
    (step : StatusStep) :
    Option.Rel (Veiled storage) (stepTask setting world number chance (.status step))
      (stepTask setting shown number chance (Task.masked (.status step))) := by
  cases step with
  | reading id =>
    refine .some ?_
    rw [stepStatus, stepStatus, veiled.live]
    exact veiled.goOn number (.status (.looking id _))
  | looking id live =>
    refine .some ?_
    rw [stepStatus, stepStatus, lookAt.eq_def, lookAt.eq_def, veiled.jobs, JobStore.get_masked]
    cases world.jobs.get id chance.fault with
    | error error => exact veiled.answer number rfl
    | ok found =>
      cases found with
      | none => cases live <;> exact veiled.answer number rfl
      | some record =>
        dsimp only [Except.map, Option.map_some]
        rw [JobRecord.status_masked, JobRecord.artifactId_masked, statusOf_masked]
        split
        · exact veiled.goOn number (.status (.fetching record _))
        · exact veiled.answer number rfl
  | fetching record artifact =>
    refine .some ?_
    rw [stepStatus, stepStatus, fetch, fetch, veiled.artifacts, veiled.disk, ArtifactStore.get_edited kept]
    split
    · exact veiled.answer number rfl
    · exact veiled.answer number rfl

theorem Veiled.failStart (veiled : Veiled storage world shown) (number : Nat) (error : QueueError) :
    Veiled storage (world.failStart number error) (shown.failStart number error) := by
  rw [World.failStart, World.failStart, veiled.channel]
  exact (veiled.withChannel _).answer number rfl

theorem Veiled.failStartAgain (veiled : Veiled storage world (shown.veil storage)) (number : Nat) (error : QueueError) :
    Veiled storage (world.failStart number error) ((shown.failStart number error).veil storage) := by
  have channel : shown.channel = world.channel := veiled.channel
  have lost : Veiled storage { world with channel := world.channel.lose }
      ({ shown with channel := world.channel.lose }.veil storage) := veiled.withChannel _
  rw [World.failStart, World.failStart, channel]
  exact lost.answerAgain number _

theorem Veiled.spawnWorkers (count : Nat) : ∀ {world shown : World}, Veiled storage world shown →
    Veiled storage (World.spawnWorkers count world) (World.spawnWorkers count shown) := by
  induction count with
  | zero => exact fun veiled => veiled
  | succ count inductionHypothesis =>
    intro world shown veiled
    rw [World.spawnWorkers, World.spawnWorkers, veiled.pool, veiled.nextTask]
    exact inductionHypothesis ((veiled.spawn (.worker .idle)).withPool _)

theorem ids_masked (records : List JobRecord) :
    (records.map JobRecord.masked).map JobRecord.id = records.map JobRecord.id := by
  rw [List.map_map]
  rfl

/-- A job that ran is failed as an orphan in the same way, whatever is hidden. -/
theorem veiled_failOrphan (veiled : Veiled storage world shown) (lies : world.jobs.LiesAt storage)
    (plain : ∀ {id record}, Table.get? id world.jobs.records = some record → Path.Plain id) (id : JobId)
    (ids : List JobId) (report : RecoveryReport) :
    Veiled storage (world.failOrphan number chance id ids report)
      ((shown.failOrphan number chance id ids report).veil storage) := by
  have plainShown {id : JobId} {record : JobRecord} (found : Table.get? id shown.jobs.records = some record) :
      Path.Plain id := by
    rw [veiled.jobs, JobStore.records_masked, Table.get?_mapValues] at found
    obtain ⟨_, there, _⟩ := Option.map_eq_some_iff.mp found
    exact plain there
  have first : world.jobs.masked.transition id (.fail .infra) chance.now chance.fault
      (world.disk.edited storage.veil) = _ :=
    JobStore.transition_masked lies plain id (.fail orphanError) chance.now chance.fault
  have second : shown.jobs.masked.transition id (.fail .infra) chance.now chance.fault
      (shown.disk.edited storage.veil) = _ :=
    JobStore.transition_masked (veiled.jobs ▸ lies.masked) plainShown id (.fail orphanError) chance.now chance.fault
  rw [congrArg JobStore.masked veiled.jobs, JobStore.masked_masked, congrArg (Disk.edited _) veiled.disk,
    Disk.edited_edited _ storage.veil_veil, first] at second
  rw [failOrphan, failOrphan]
  generalize world.jobs.transition id (.fail orphanError) chance.now chance.fault world.disk = done at second ⊢
  generalize shown.jobs.transition id (.fail orphanError) chance.now chance.fault shown.disk = alike at second ⊢
  obtain ⟨disk, jobs, result⟩ := done
  obtain ⟨disk', jobs', result'⟩ := alike
  obtain ⟨disks, stores, results⟩ := by simpa only [Prod.mk.injEq] using second
  -- The error of an orphan is written as it is, so the two worlds agree only after the veil is drawn once more.
  have stored : Veiled storage { world with disk, jobs } ({ shown with disk := disk', jobs := jobs' }.veil storage) :=
    { veiled.again with disk := disks.symm, jobs := stores.symm }
  cases result with
  | ok record =>
    cases result' with
    | ok record' => exact stored.goOnAgain number rfl
    | error error' => cases results
  | error error =>
    cases result' with
    | ok record' => cases results
    | error error' =>
      obtain rfl : error = error' := Except.error.inj results
      cases error with
      | invalidTransition refusal => exact stored.goOnAgain number rfl
      | _ => exact stored.failStartAgain number _

theorem veiled_start (veiled : Veiled storage world shown) (lies : world.jobs.LiesAt storage)
    (plain : ∀ {id record}, Table.get? id world.jobs.records = some record → Path.Plain id) (step : StartStep) :
    Option.Rel (Veiled storage) (stepTask setting world number chance (.start step))
      ((stepTask setting shown number chance (Task.masked (.start step))).map (veil storage)) := by
  have same : Task.masked (.start step) = .start step := by cases step <;> rfl
  rw [same, stepTask, stepTask]
  by_cases orphans : ∃ id ids report, step = .failing (id :: ids) report
  · obtain ⟨id, ids, report, rfl⟩ := orphans
    exact .some (veiled_failOrphan veiled lies plain id ids report)
  refine .some (Veiled.again ?_)
  cases step with
  | waiting =>
    rw [stepStart, stepStart, veiled.channel]
    split
    · exact (veiled.withChannel _).goOn number (.start (.listing {}))
    · exact veiled.answer number rfl
  | listing report =>
    rw [stepStart, stepStart, veiled.jobs, JobStore.listByState_masked]
    cases world.jobs.listByState .running chance.fault with
    | error error => exact veiled.failStart number _
    | ok records =>
      dsimp only [Except.map]
      rw [ids_masked]
      exact veiled.goOn number (.start (.failing _ report))
  | failing ids report =>
    cases ids with
    | nil => exact veiled.goOn number (.start (.sweeping report))
    | cons id ids => exact absurd ⟨id, ids, report, rfl⟩ orphans
  | sweeping report =>
    rw [stepStart, stepStart, sweep, sweep, veiled.disk, Workspace.sweep_edited]
    generalize Workspace.sweep setting.workspaces world.disk = swept
    obtain ⟨disk, result⟩ := swept
    cases result with
    | ok removed => exact (veiled.withDisk disk).goOn number (.start (.relisting _))
    | error error => exact (veiled.withDisk disk).goOn number (.start (.relisting report))
  | relisting report =>
    rw [stepStart, stepStart, veiled.jobs, JobStore.listByState_masked]
    cases world.jobs.listByState .queued chance.fault with
    | error error => exact veiled.failStart number _
    | ok records =>
      dsimp only [Except.map]
      rw [ids_masked]
      exact veiled.goOn number (.start (.checking _ report))
  | checking ids report =>
    cases ids with
    | nil => exact veiled.goOn number (.start (.offering report))
    | cons id ids =>
      rw [stepStart, stepStart, veiled.live]
      split
      · exact veiled.goOn number (.start (.checking ids report))
      · exact veiled.goOn number (.start (.entering id ids report))
  | entering id ids report =>
    rw [stepStart, stepStart, veiled.live]
    exact (veiled.withLive _).goOn number (.start (.checking ids _))
  | offering report =>
    rw [stepStart, stepStart, offerAll, offerAll, veiled.channel]
    split
    · exact veiled.goOn number (.start (.spawning report))
    · split
      · exact (veiled.spawn (.offer _)).goOn number (.start (.spawning report))
      · exact veiled.failStart number .closed
  | spawning report =>
    rw [stepStart, stepStart, veiled.channel]
    exact ((veiled.withChannel _).spawnWorkers setting.workerCount).answer number rfl

theorem veiled_startJob (veiled : Veiled storage world shown) (lies : world.jobs.LiesAt storage)
    (plain : ∀ {id record}, Table.get? id world.jobs.records = some record → Path.Plain id) (id : JobId) :
    Veiled storage (world.startJob number chance id) (shown.startJob number chance id) := by
  have begun : world.jobs.masked.transition id .start chance.now chance.fault (world.disk.edited storage.veil) = _ :=
    JobStore.transition_masked lies plain id .start chance.now chance.fault
  rw [startJob, startJob, veiled.jobs, veiled.disk, begun]
  generalize world.jobs.transition id .start chance.now chance.fault world.disk = done
  obtain ⟨disk, jobs, result⟩ := done
  have stored := veiled.withStore disk jobs
  cases result with
  | ok record => exact stored.goOn number (.worker (.started record))
  | error error =>
    cases error with
    | invalidTransition refusal => exact stored.goOn number (.worker .idle)
    | _ => exact stored.goOn number (.worker (.retrying id))

theorem veiled_allocate (veiled : Veiled storage world shown) (record : JobRecord) :
    Veiled storage (allocate setting world number chance record)
      ((allocate setting shown number chance record.masked).veil storage) := by
  have gate : setting.gate record.masked.kind record.masked.input = setting.gate record.kind record.input := rfl
  rw [allocate, allocate, gate, veiled.disk, Workspace.create_edited]
  by_cases valid : (setting.gate record.kind record.input).valid
  · rw [valid]
    generalize Workspace.create { config := setting.workspaces } chance.name world.disk = done
    obtain ⟨disk, workspace, result⟩ := done
    have stored := veiled.withDisk disk
    cases result with
    | ok directory => exact (stored.goOn number (.worker (.prepared record workspace directory))).again
    | error error => exact stored.again.goOnAgain number rfl
  · rw [eq_false_of_ne_true valid]
    exact veiled.again.goOnAgain number rfl

/-- A worker takes a step that does not depend on what is hidden, unless its compiler runs. -/
theorem veiled_worker (veiled : Veiled storage world shown) (lies : world.jobs.LiesAt storage)
    (kept : world.artifacts.LiesAt storage)
    (plain : ∀ {id record}, Table.get? id world.jobs.records = some record → Path.Plain id) {step : WorkerStep}
    (housed : (Task.worker step).Housed setting (Stored.Allows storage))
    (still : ∀ record workspace directory, step ≠ .running record workspace directory) :
    Option.Rel (Veiled storage) (stepTask setting world number chance (.worker step))
      ((stepTask setting shown number chance (Task.masked (.worker step))).map (veil storage)) := by
  cases step with
  | idle =>
    show Option.Rel _ (world.takeId number) ((shown.takeId number).map _)
    rw [takeId, takeId, veiled.channel, veiled.isDrained]
    split
    · exact .some ((veiled.withChannel _).goOn number (.worker (.claimed _))).again
    · split
      · exact .some (veiled.endTask number).again
      · exact .none
  | claimed id => exact .some (veiled_startJob veiled lies plain id).again
  | retrying id =>
    refine .some (Veiled.again ?_)
    rw [retryLater, retryLater, veiled.channel]
    split
    · exact (veiled.spawn (.retry id false)).goOn number (.worker .idle)
    · exact veiled.goOn number (.worker (.leaving id))
  | started record =>
    refine .some (Veiled.again ?_)
    rw [veiled.live]
    exact (veiled.withLive _).goOn number (.worker (.compiling record))
  | compiling record => exact .some (veiled_allocate veiled record)
  | prepared record workspace directory =>
    refine .some (Veiled.again ?_)
    rw [veiled.live]
    exact (veiled.withLive _).goOn number (.worker (.ready record workspace directory))
  | ready record workspace directory =>
    refine .some (Veiled.again ?_)
    rw [veiled.live]
    exact (veiled.withLive _).goOn number (.worker (.invoking record workspace directory))
  | invoking record workspace directory =>
    refine .some (Veiled.again ?_)
    rw [veiled.disk, Disk.isDirectory_edited]
    exact (veiled.goOn number (.worker (.running record workspace directory))).note rfl
  | running record workspace directory => exact absurd rfl (still record workspace directory)
  | collected record artifact =>
    refine .some (Veiled.again ?_)
    rw [veiled.live]
    exact (veiled.withLive _).goOn number (.worker (.storing record artifact))
  | storing record artifact =>
    refine .some (Veiled.again ?_)
    rw [keepArtifact, keepArtifact, veiled.artifacts, veiled.disk, ArtifactStore.put_edited kept housed]
    generalize world.artifacts.put artifact chance.fault world.disk = done
    obtain ⟨disk, artifacts, result⟩ := done
    have stored := veiled.withArtifacts disk artifacts
    cases result with
    | ok _ => exact stored.goOn number (.worker (.finishing record.id (.complete artifact.id)))
    | error _ => exact stored.goOn number (.worker (.finishing record.id (.fail .infra)))
  | finishing id transition =>
    refine .some (Veiled.again ?_)
    rw [finishJob, finishJob, veiled.jobs, veiled.disk, JobStore.transition_masked lies plain]
    exact (veiled.withStore _ _).goOn number (.worker (.leaving id))
  | leaving id =>
    refine .some (Veiled.again ?_)
    rw [veiled.live]
    exact (veiled.withLive _).goOn number (.worker .idle)

theorem rel_again {next covered : Option World} (rel : Option.Rel (Veiled storage) next covered) :
    Option.Rel (Veiled storage) next (covered.map (veil storage)) := by
  cases rel with
  | none => exact .none
  | some veiled => exact .some veiled.again

/-- A step does not depend on what is hidden, unless it runs a compiler. -/
theorem veiled_step (veiled : Veiled storage world shown) (guarded : world.Guarded setting storage) {task : Task}
    (found : Table.get? number world.tasks = some task)
    (still : ∀ record workspace directory, task ≠ .worker (.running record workspace directory)) :
    Option.Rel (Veiled storage) (stepTask setting world number chance task)
      ((stepTask setting shown number chance task.masked).map (veil storage)) := by
  obtain ⟨lies, kept⟩ := guarded.secure.stored.liesAt
  have plain {id : JobId} {record : JobRecord} (there : Table.get? id world.jobs.records = some record) :
      Path.Plain id := (guarded.secure.stored.sound.keyed there).2
  have housed := guarded.secure.housed number task found
  cases task with
  | submit step =>
    refine rel_again (veiled_submit veiled lies step fun record same => ?_)
    subst same
    exact housed.2
  | start step => exact veiled_start veiled lies plain step
  | shutdown step => exact rel_again (veiled_shutdown veiled step)
  | status step => exact rel_again (veiled_status veiled kept step)
  | worker step =>
    exact veiled_worker veiled lies kept plain housed fun record workspace directory same =>
      still record workspace directory (congrArg Task.worker same)
  | offer ids => exact rel_again (veiled_offer veiled ids)
  | retry id awake => exact rel_again (veiled_retry veiled id awake)

end World

end ContractWorks

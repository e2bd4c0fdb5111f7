import ContractWorks.Queue.Step

namespace ContractWorks

/-- This function gives what a call asks to be submitted, if it is a submission. -/
def Call.asked? : Call → Option (Except QueueError (JobKind × JobInput))
  | .request submission => some submission.resolve
  | .submit kind input => some (.ok (kind, input))
  | _ => none

namespace World

variable {setting : Setting} {world next : World} {number : Nat} {chance : Chance}

section Move

/-- A step is one of a task that is there. -/
theorem task_of_step (stepped : step? setting world number chance = some next) :
    ∃ task, Table.get? number world.tasks = some task ∧ stepTask setting world number chance task = some next := by
  rw [step?] at stepped
  split at stepped
  · simp at stepped
  · next task found => exact ⟨task, found, stepped⟩

/-- A new process begins over the stores when both of them can be opened once more. -/
theorem stores_of_restart (restarted : restart? setting world = some next) :
    ∃ middle jobs disk artifacts, world.jobs.reopen world.disk = (middle, .ok jobs) ∧
      world.artifacts.reopen middle = (disk, .ok artifacts) ∧ next = crash setting world jobs artifacts disk := by
  rw [restart?] at restarted
  split at restarted
  · simp at restarted
  · next middle jobs opened =>
    split at restarted
    · simp at restarted
    · next disk artifacts found =>
      exact ⟨middle, jobs, disk, artifacts, opened, found, (Option.some.inj restarted).symm⟩

end Move

section Begin

/-- This is the world in which a call has been noted, but not begun. -/
def opened (world : World) (call : Call) : World :=
  { world with nextTask := world.nextTask + 1 }.note (.called world.nextTask call)

theorem beginCall_of_asked {call : Call} {asked : Except QueueError (JobKind × JobInput)}
    (same : call.asked? = some asked) :
    beginCall setting world call =
      match asked with
      | .error error => (world.opened call).answer world.nextTask (.submitted (.error error))
      | .ok (kind, input) => beginSubmit setting (world.opened call) world.nextTask kind input := by
  cases call with
  | request submission =>
    obtain rfl : submission.resolve = asked := by simpa [Call.asked?] using same
    rw [beginCall]
    split <;> split <;> simp_all <;> rfl
  | submit kind input =>
    obtain rfl : Except.ok (kind, input) = asked := by simpa [Call.asked?] using same
    rfl
  | _ => simp [Call.asked?] at same

/-- These are the branches of a call that begins, with what each of them has read. -/
inductive CallBranch (setting : Setting) (world : World) : Call → World → Prop where
  | unresolved {call : Call} {error : QueueError} (asked : call.asked? = some (.error error)) :
      CallBranch setting world call ((world.opened call).answer world.nextTask (.submitted (.error error)))
  | refuses {call : Call} {kind : JobKind} {input : JobInput} (asked : call.asked? = some (.ok (kind, input)))
      (refused : (setting.gate kind input).valid = false) :
      CallBranch setting world call
        ((world.opened call).answer world.nextTask (.submitted (.error
          (.validation ((setting.gate kind input).code.getD .invalidInput)
            ((setting.gate kind input).error.getD "")))))
  | submits {call : Call} {kind : JobKind} {input : JobInput} (asked : call.asked? = some (.ok (kind, input)))
      (valid : (setting.gate kind input).valid = true) :
      CallBranch setting world call ((world.opened call).goOn world.nextTask (.submit (.waiting kind input)))
  | starts :
      CallBranch setting world .start ((world.opened .start).goOn world.nextTask (.start .waiting))
  | shutsDown :
      CallBranch setting world .shutdown ((world.opened .shutdown).goOn world.nextTask (.shutdown .closing))
  | looks {id : JobId} :
      CallBranch setting world (.status id)
        ((world.opened (.status id)).goOn world.nextTask (.status (.reading id)))

theorem callBranch {call : Call} (begun : beginCall setting world call = next) :
    CallBranch setting world call next := by
  subst begun
  cases asked : call.asked? with
  | none =>
    cases call with
    | start => exact .starts
    | shutdown => exact .shutsDown
    | status id => exact .looks
    | _ => simp [Call.asked?] at asked
  | some wanted =>
    rw [beginCall_of_asked asked]
    cases wanted with
    | error error => exact .unresolved asked
    | ok wanted =>
      dsimp only
      rw [beginSubmit]
      split
      · next valid => exact .submits asked valid
      · next refused => exact .refuses asked (by simpa using refused)

end Begin

section Submit

/-- These are the branches of a submission, with what each of them has read. -/
inductive SubmitBranch (world : World) (number : Nat) (chance : Chance) : SubmitStep → World → Prop where
  | closed {kind : JobKind} {input : JobInput}
      (shut : world.channel.senderOpen = false ∨ world.channel.receiver = .gone) :
      SubmitBranch world number chance (.waiting kind input) (world.answer number (.submitted (.error .closed)))
  | full {kind : JobKind} {input : JobInput} (shut : world.channel.hasRoom = false) :
      SubmitBranch world number chance (.waiting kind input) (world.answer number (.submitted (.error .full)))
  | reserves {kind : JobKind} {input : JobInput} (opened : world.channel.senderOpen = true)
      (there : world.channel.receiver ≠ .gone) (room : world.channel.hasRoom = true) :
      SubmitBranch world number chance (.waiting kind input)
        ({ world with channel := world.channel.reserve }.goOn number
          (.submit (.reserved (.new chance.name chance.now kind input))))
  | inserts {record : JobRecord} {disk : Disk} {jobs : JobStore}
      (done : world.jobs.insert record chance.fault world.disk = (disk, jobs, .ok ())) :
      SubmitBranch world number chance (.reserved record)
        ({ world with disk, jobs }.goOn number (.submit (.inserted record.id)))
  | fails {record : JobRecord} {disk : Disk} {jobs : JobStore} {error : StoreError}
      (done : world.jobs.insert record chance.fault world.disk = (disk, jobs, .error error)) :
      SubmitBranch world number chance (.reserved record)
        ({ world with disk, jobs, channel := world.channel.release }.answer number
          (.submitted (.error (.store error))))
  | enters {id : JobId} :
      SubmitBranch world number chance (.inserted id)
        ({ world with live := world.live.queued id }.goOn number (.submit (.announced id)))
  | sends {id : JobId} :
      SubmitBranch world number chance (.announced id)
        ({ world with channel := world.channel.release.push id }.answer number (.submitted (.ok id)))

theorem submitBranch {step : SubmitStep} (stepped : world.stepSubmit number chance step = next) :
    SubmitBranch world number chance step next := by
  subst stepped
  cases step with
  | waiting kind input =>
    rw [stepSubmit, reserve]
    split
    · next shut => exact .closed (by simpa using shut)
    · next there =>
      simp only [Bool.or_eq_true, Bool.not_eq_true', decide_eq_true_eq, not_or, Bool.not_eq_false] at there
      split
      · next shut => exact .full (by simpa using shut)
      · next room => exact .reserves there.1 there.2 (by simpa using room)
  | reserved record =>
    rw [stepSubmit, insertRecord]
    split
    · next done => exact .inserts done
    · next done => exact .fails done
  | inserted id => exact .enters
  | announced id => exact .sends

end Submit

section Start

/-- These are the branches of a start, with what each of them has read. -/
inductive StartBranch (setting : Setting) (world : World) (number : Nat) (chance : Chance) :
    StartStep → World → Prop where
  | takes (free : world.channel.receiver = .free) :
      StartBranch setting world number chance .waiting
        ({ world with channel := { world.channel with receiver := .taken } }.goOn number (.start (.listing {})))
  | late (taken : world.channel.receiver ≠ .free) :
      StartBranch setting world number chance .waiting (world.answer number (.started (.error .alreadyStarted)))
  | unlisted {report : RecoveryReport} {error : StoreError}
      (failed : world.jobs.listByState .running chance.fault = .error error) :
      StartBranch setting world number chance (.listing report) (world.failStart number (.store error))
  | lists {report : RecoveryReport} {records : List JobRecord}
      (listed : world.jobs.listByState .running chance.fault = .ok records) :
      StartBranch setting world number chance (.listing report)
        (world.goOn number (.start (.failing (records.map JobRecord.id) report)))
  | failed {report : RecoveryReport} :
      StartBranch setting world number chance (.failing [] report) (world.goOn number (.start (.sweeping report)))
  | orphans {id : JobId} {ids : List JobId} {report : RecoveryReport} {disk : Disk} {jobs : JobStore}
      {record : JobRecord}
      (done : world.jobs.transition id (.fail orphanError) chance.now chance.fault world.disk =
        (disk, jobs, .ok record)) :
      StartBranch setting world number chance (.failing (id :: ids) report)
        ({ world with disk, jobs }.goOn number
          (.start (.failing ids { report with orphaned := report.orphaned ++ [id] })))
  | spares {id : JobId} {ids : List JobId} {report : RecoveryReport} {disk : Disk} {jobs : JobStore}
      {refusal : InvalidTransition}
      (done : world.jobs.transition id (.fail orphanError) chance.now chance.fault world.disk =
        (disk, jobs, .error (.invalidTransition refusal))) :
      StartBranch setting world number chance (.failing (id :: ids) report)
        ({ world with disk, jobs }.goOn number (.start (.failing ids report)))
  | breaks {id : JobId} {ids : List JobId} {report : RecoveryReport} {disk : Disk} {jobs : JobStore}
      {error : StoreError}
      (done : world.jobs.transition id (.fail orphanError) chance.now chance.fault world.disk =
        (disk, jobs, .error error))
      (other : ∀ refusal, error ≠ .invalidTransition refusal) :
      StartBranch setting world number chance (.failing (id :: ids) report)
        ({ world with disk, jobs }.failStart number (.store error))
  | sweeps {report : RecoveryReport} {disk : Disk} {removed : Nat}
      (swept : Workspace.sweep setting.workspaces world.disk = (disk, .ok removed)) :
      StartBranch setting world number chance (.sweeping report)
        ({ world with disk }.goOn number (.start (.relisting { report with workspacesRemoved := removed })))
  | unswept {report : RecoveryReport} {disk : Disk} {error : WorkspaceError}
      (swept : Workspace.sweep setting.workspaces world.disk = (disk, .error error)) :
      StartBranch setting world number chance (.sweeping report)
        ({ world with disk }.goOn number (.start (.relisting report)))
  | unlistedAgain {report : RecoveryReport} {error : StoreError}
      (failed : world.jobs.listByState .queued chance.fault = .error error) :
      StartBranch setting world number chance (.relisting report) (world.failStart number (.store error))
  | listsAgain {report : RecoveryReport} {records : List JobRecord}
      (listed : world.jobs.listByState .queued chance.fault = .ok records) :
      StartBranch setting world number chance (.relisting report)
        (world.goOn number (.start (.checking (records.map JobRecord.id) report)))
  | checked {report : RecoveryReport} :
      StartBranch setting world number chance (.checking [] report) (world.goOn number (.start (.offering report)))
  | known {id : JobId} {ids : List JobId} {report : RecoveryReport}
      (lives : (Table.get? id world.live).isSome = true) :
      StartBranch setting world number chance (.checking (id :: ids) report)
        (world.goOn number (.start (.checking ids report)))
  | unknown {id : JobId} {ids : List JobId} {report : RecoveryReport} (absent : Table.get? id world.live = none) :
      StartBranch setting world number chance (.checking (id :: ids) report)
        (world.goOn number (.start (.entering id ids report)))
  | enters {id : JobId} {ids : List JobId} {report : RecoveryReport} :
      StartBranch setting world number chance (.entering id ids report)
        ({ world with live := world.live.queued id }.goOn number
          (.start (.checking ids { report with requeued := report.requeued ++ [id] })))
  | idles {report : RecoveryReport} (nothing : report.requeued = []) :
      StartBranch setting world number chance (.offering report) (world.goOn number (.start (.spawning report)))
  | offers {report : RecoveryReport} (some : report.requeued ≠ []) (opened : world.channel.senderOpen = true) :
      StartBranch setting world number chance (.offering report)
        ((world.spawn (.offer report.requeued)).goOn number (.start (.spawning report)))
  | shut {report : RecoveryReport} (some : report.requeued ≠ []) (closed : world.channel.senderOpen = false) :
      StartBranch setting world number chance (.offering report) (world.failStart number .closed)
  | spawns {report : RecoveryReport} :
      StartBranch setting world number chance (.spawning report)
        ((spawnWorkers setting.workerCount
          { world with channel := { world.channel with receiver := .shared } }).answer number
            (.started (.ok report)))

theorem startBranch {step : StartStep} (stepped : stepStart setting world number chance step = next) :
    StartBranch setting world number chance step next := by
  subst stepped
  cases step with
  | waiting =>
    rw [stepStart]
    split
    · next free => exact .takes free
    · next taken => exact .late taken
  | listing report =>
    rw [stepStart]
    split
    · next failed => exact .unlisted failed
    · next listed => exact .lists listed
  | failing ids report =>
    cases ids with
    | nil => exact .failed
    | cons id ids =>
      rw [stepStart, failOrphan]
      split
      · next done => exact .orphans done
      · next done => exact .spares done
      · next other done => exact .breaks done other
  | sweeping report =>
    rw [stepStart, sweep]
    split
    · next swept => exact .sweeps swept
    · next swept => exact .unswept swept
  | relisting report =>
    rw [stepStart]
    split
    · next failed => exact .unlistedAgain failed
    · next listed => exact .listsAgain listed
  | checking ids report =>
    cases ids with
    | nil => exact .checked
    | cons id ids =>
      rw [stepStart]
      split
      · next lives => exact .known lives
      · next absent => exact .unknown (by simpa using absent)
  | entering id ids report => exact .enters
  | offering report =>
    rw [stepStart, offerAll]
    split
    · next nothing => exact .idles nothing
    · next some =>
      split
      · next opened => exact .offers some opened
      · next closed => exact .shut some (by simpa using closed)
  | spawning report => exact .spawns

end Start

section Shutdown

/-- These are the branches of a shutdown, with what each of them has read. -/
inductive ShutdownBranch (world : World) (number : Nat) : ShutdownStep → World → Prop where
  | closes (free : ∀ entry ∈ world.tasks, holdsPlace entry.2 = false) :
      ShutdownBranch world number .closing
        ({ world with channel := { world.channel with senderOpen := false } }.goOn number (.shutdown .collecting))
  | collects :
      ShutdownBranch world number .collecting
        ({ world with pool := [] }.goOn number (.shutdown (.joining world.pool)))
  | stops {workers : List Nat} (gone : ∀ worker ∈ workers, Table.get? worker world.tasks = none) :
      ShutdownBranch world number (.joining workers) (world.answer number .stopped)

theorem shutdownBranch {step : ShutdownStep} (stepped : world.stepShutdown number step = some next) :
    ShutdownBranch world number step next := by
  cases step with
  | closing =>
    rw [stepShutdown] at stepped
    split at stepped
    · simp at stepped
    · next free =>
      obtain rfl := Option.some.inj stepped
      exact .closes (by simpa using free)
  | collecting =>
    obtain rfl := Option.some.inj stepped
    exact .collects
  | joining workers =>
    rw [stepShutdown] at stepped
    split at stepped
    · simp at stepped
    · next gone =>
      obtain rfl := Option.some.inj stepped
      exact .stops (by simpa using gone)

end Shutdown

section Status

/-- These are the branches of a look at a job, with what each of them has read. -/
inductive StatusBranch (world : World) (number : Nat) (chance : Chance) : StatusStep → World → Prop where
  | reads {id : JobId} :
      StatusBranch world number chance (.reading id)
        (world.goOn number (.status (.looking id (Table.get? id world.live))))
  | unread {id : JobId} {live : Option LiveJob} {error : StoreError}
      (got : world.jobs.get id chance.fault = .error error) :
      StatusBranch world number chance (.looking id live) (world.answer number (.status (.error (.store error))))
  | misses {id : JobId} (got : world.jobs.get id chance.fault = .ok none) :
      StatusBranch world number chance (.looking id none) (world.answer number (.status (.ok none)))
  | shows {id : JobId} {live : LiveJob} (got : world.jobs.get id chance.fault = .ok none) :
      StatusBranch world number chance (.looking id (some live))
        (world.answer number (.status (.ok (some (statusOfLive id live)))))
  | finds {id : JobId} {live : Option LiveJob} {record : JobRecord} {artifact : ArtifactId}
      (got : world.jobs.get id chance.fault = .ok (some record)) (completed : record.status = .completed)
      (made : record.artifactId = some artifact) :
      StatusBranch world number chance (.looking id live)
        (world.goOn number (.status (.fetching record artifact)))
  | tells {id : JobId} {live : Option LiveJob} {record : JobRecord}
      (got : world.jobs.get id chance.fault = .ok (some record))
      (rest : ∀ artifact, record.status = .completed → record.artifactId ≠ some artifact) :
      StatusBranch world number chance (.looking id live)
        (world.answer number (.status (.ok (some (statusOf record live)))))
  | breaks {record : JobRecord} {id : ArtifactId} {error : StoreError}
      (got : world.artifacts.get id chance.fault world.disk = .error error) :
      StatusBranch world number chance (.fetching record id)
        (world.answer number (.status (.error (.store error))))
  | fetches {record : JobRecord} {id : ArtifactId} {artifact : Option Artifact}
      (got : world.artifacts.get id chance.fault world.disk = .ok artifact) :
      StatusBranch world number chance (.fetching record id)
        (world.answer number (.status (.ok (some (statusWithResult record id artifact)))))

theorem statusBranch {step : StatusStep} (stepped : world.stepStatus number chance step = next) :
    StatusBranch world number chance step next := by
  subst stepped
  cases step with
  | reading id => exact .reads
  | looking id live =>
    rw [stepStatus, lookAt.eq_def]
    split
    · next got => exact .unread got
    · next got => exact .misses got
    · next got => exact .shows got
    · next got =>
      split
      · next completed made => exact .finds got completed made
      · next rest => exact .tells got rest
  | fetching record artifact =>
    rw [stepStatus, fetch]
    split
    · next got => exact .breaks got
    · next got => exact .fetches got

end Status

section Worker

/-- These are the branches of a worker, with what each of them has read. -/
inductive WorkerBranch (setting : Setting) (world : World) (number : Nat) (chance : Chance) :
    WorkerStep → World → Prop where
  | takes {id : JobId} {ids : List JobId} (waiting : world.channel.ids = id :: ids) :
      WorkerBranch setting world number chance .idle
        ({ world with channel := { world.channel with ids } }.goOn number (.worker (.claimed id)))
  | stops (empty : world.channel.ids = []) (drained : world.isDrained = true) :
      WorkerBranch setting world number chance .idle (world.endTask number)
  | begins {id : JobId} {disk : Disk} {jobs : JobStore} {record : JobRecord}
      (done : world.jobs.transition id .start chance.now chance.fault world.disk = (disk, jobs, .ok record)) :
      WorkerBranch setting world number chance (.claimed id)
        ({ world with disk, jobs }.goOn number (.worker (.started record)))
  | skips {id : JobId} {disk : Disk} {jobs : JobStore} {refusal : InvalidTransition}
      (done : world.jobs.transition id .start chance.now chance.fault world.disk =
        (disk, jobs, .error (.invalidTransition refusal))) :
      WorkerBranch setting world number chance (.claimed id)
        ({ world with disk, jobs }.goOn number (.worker .idle))
  | postpones {id : JobId} {disk : Disk} {jobs : JobStore} {error : StoreError}
      (done : world.jobs.transition id .start chance.now chance.fault world.disk = (disk, jobs, .error error))
      (other : ∀ refusal, error ≠ .invalidTransition refusal) :
      WorkerBranch setting world number chance (.claimed id)
        ({ world with disk, jobs }.goOn number (.worker (.retrying id)))
  | retries {id : JobId} (opened : world.channel.senderOpen = true) :
      WorkerBranch setting world number chance (.retrying id)
        ((world.spawn (.retry id false)).goOn number (.worker .idle))
  | shelves {id : JobId} (closed : world.channel.senderOpen = false) :
      WorkerBranch setting world number chance (.retrying id) (world.goOn number (.worker (.leaving id)))
  | started {record : JobRecord} :
      WorkerBranch setting world number chance (.started record)
        ({ world with live := world.live.running record.id Progress.queued }.goOn number
          (.worker (.compiling record)))
  | refused {record : JobRecord} (refused : (setting.gate record.kind record.input).valid = false) :
      WorkerBranch setting world number chance (.compiling record)
        (world.goOn number (.worker (.finishing record.id (.fail
          ⟨(setting.gate record.kind record.input).code.getD .invalidInput,
            (setting.gate record.kind record.input).error.getD "", none⟩))))
  | unlodged {record : JobRecord} {disk : Disk} {workspace : Workspace} {error : WorkspaceError}
      (passes : (setting.gate record.kind record.input).valid = true)
      (created : Workspace.create { config := setting.workspaces } chance.name world.disk =
        (disk, workspace, .error error)) :
      WorkerBranch setting world number chance (.compiling record)
        ({ world with disk }.goOn number (.worker (.finishing record.id (.fail (.resource error.message)))))
  | lodged {record : JobRecord} {disk : Disk} {workspace : Workspace} {directory : String}
      (passes : (setting.gate record.kind record.input).valid = true)
      (created : Workspace.create { config := setting.workspaces } chance.name world.disk =
        (disk, workspace, .ok directory)) :
      WorkerBranch setting world number chance (.compiling record)
        ({ world with disk }.goOn number (.worker (.prepared record workspace directory)))
  | prepared {record : JobRecord} {workspace : Workspace} {directory : String} :
      WorkerBranch setting world number chance (.prepared record workspace directory)
        ({ world with live := world.live.running record.id Progress.workspaceReady }.goOn number
          (.worker (.ready record workspace directory)))
  | ready {record : JobRecord} {workspace : Workspace} {directory : String} :
      WorkerBranch setting world number chance (.ready record workspace directory)
        ({ world with live := world.live.running record.id Progress.toolchainStarted }.goOn number
          (.worker (.invoking record workspace directory)))
  | invokes {record : JobRecord} {workspace : Workspace} {directory : String} :
      WorkerBranch setting world number chance (.invoking record workspace directory)
        ((world.goOn number (.worker (.running record workspace directory))).note
          (.invoked record.id record.kind record.input (world.disk.isDirectory directory)))
  | compiles {record : JobRecord} {workspace : Workspace} {directory : String} {disk : Disk} {ending : CompilerEnd}
      (ended : setting.compilers record.kind directory record.input chance world.disk = (disk, ending)) :
      WorkerBranch setting world number chance (.running record workspace directory)
        ({ world with disk := (workspace.cleanup disk).1 }.goOn number (.worker (afterRun record ending)))
  | collected {record : JobRecord} {artifact : Artifact} :
      WorkerBranch setting world number chance (.collected record artifact)
        ({ world with live := world.live.running record.id Progress.outputCollected }.goOn number
          (.worker (.storing record artifact)))
  | keeps {record : JobRecord} {artifact : Artifact} {disk : Disk} {artifacts : ArtifactStore}
      (done : world.artifacts.put artifact chance.fault world.disk = (disk, artifacts, .ok ())) :
      WorkerBranch setting world number chance (.storing record artifact)
        ({ world with disk, artifacts }.goOn number (.worker (.finishing record.id (.complete artifact.id))))
  | loses {record : JobRecord} {artifact : Artifact} {disk : Disk} {artifacts : ArtifactStore} {error : StoreError}
      (done : world.artifacts.put artifact chance.fault world.disk = (disk, artifacts, .error error)) :
      WorkerBranch setting world number chance (.storing record artifact)
        ({ world with disk, artifacts }.goOn number (.worker (.finishing record.id (.fail .infra))))
  | finishes {id : JobId} {transition : Transition} {disk : Disk} {jobs : JobStore}
      {result : Except StoreError JobRecord}
      (done : world.jobs.transition id transition chance.now chance.fault world.disk = (disk, jobs, result)) :
      WorkerBranch setting world number chance (.finishing id transition)
        ({ world with disk, jobs }.goOn number (.worker (.leaving id)))
  | leaves {id : JobId} :
      WorkerBranch setting world number chance (.leaving id)
        ({ world with live := world.live.finish id }.goOn number (.worker .idle))

theorem workerBranch {step : WorkerStep} (stepped : stepWorker setting world number chance step = some next) :
    WorkerBranch setting world number chance step next := by
  cases step with
  | idle =>
    rw [stepWorker, takeId] at stepped
    split at stepped
    · next waiting =>
      obtain rfl := Option.some.inj stepped
      exact .takes waiting
    · next empty =>
      split at stepped
      · next drained =>
        obtain rfl := Option.some.inj stepped
        exact .stops empty drained
      · simp at stepped
  | claimed id =>
    obtain rfl := Option.some.inj stepped
    rw [startJob]
    split
    · next done => exact .begins done
    · next done => exact .skips done
    · next other done => exact .postpones done other
  | retrying id =>
    obtain rfl := Option.some.inj stepped
    rw [retryLater]
    split
    · next opened => exact .retries opened
    · next closed => exact .shelves (by simpa using closed)
  | compiling record =>
    obtain rfl := Option.some.inj stepped
    rw [allocate]
    split
    · next refused => exact .refused (by simpa using refused)
    · next passes =>
      split
      · next created => exact .unlodged (by simpa using passes) created
      · next created => exact .lodged (by simpa using passes) created
  | storing record artifact =>
    obtain rfl := Option.some.inj stepped
    rw [keepArtifact]
    split
    · next done => exact .keeps done
    · next done => exact .loses done
  | started record => exact Option.some.inj stepped ▸ .started
  | prepared record workspace directory => exact Option.some.inj stepped ▸ .prepared
  | ready record workspace directory => exact Option.some.inj stepped ▸ .ready
  | invoking record workspace directory => exact Option.some.inj stepped ▸ .invokes
  | running record workspace directory => exact Option.some.inj stepped ▸ .compiles rfl
  | collected record artifact => exact Option.some.inj stepped ▸ .collected
  | finishing id transition => exact Option.some.inj stepped ▸ .finishes rfl
  | leaving id => exact Option.some.inj stepped ▸ .leaves

end Worker

section Send

/-- These are the branches of an offer, with what each of them has read. -/
inductive OfferBranch (world : World) (number : Nat) : List JobId → World → Prop where
  | nothing : OfferBranch world number [] (world.endTask number)
  | gone {id : JobId} {ids : List JobId} (gone : world.channel.receiver = .gone) :
      OfferBranch world number (id :: ids) (world.endTask number)
  | last {id : JobId} (there : world.channel.receiver ≠ .gone) (room : world.channel.hasRoom = true) :
      OfferBranch world number [id] ({ world with channel := world.channel.push id }.endTask number)
  | more {id : JobId} {ids : List JobId} (there : world.channel.receiver ≠ .gone)
      (room : world.channel.hasRoom = true) (some : ids ≠ []) :
      OfferBranch world number (id :: ids)
        ({ world with channel := world.channel.push id }.goOn number (.offer ids))

theorem offerBranch {ids : List JobId} (stepped : world.stepOffer number ids = some next) :
    OfferBranch world number ids next := by
  cases ids with
  | nil => exact Option.some.inj stepped ▸ .nothing
  | cons id ids =>
    rw [stepOffer] at stepped
    split at stepped
    · next gone => exact Option.some.inj stepped ▸ .gone gone
    · next there =>
      split at stepped
      · simp at stepped
      · next room =>
        obtain rfl := Option.some.inj stepped
        have room : world.channel.hasRoom = true := by simpa using room
        split
        · next last =>
          subst last
          exact .last there room
        · next some => exact .more there room some

/-- These are the branches of a retry, with what each of them has read. -/
inductive RetryBranch (world : World) (number : Nat) (id : JobId) : Bool → World → Prop where
  | wakes : RetryBranch world number id false (world.goOn number (.retry id true))
  | gone (gone : world.channel.receiver = .gone) : RetryBranch world number id true (world.endTask number)
  | sends (there : world.channel.receiver ≠ .gone) (room : world.channel.hasRoom = true) :
      RetryBranch world number id true ({ world with channel := world.channel.push id }.endTask number)

theorem retryBranch {id : JobId} {awake : Bool} (stepped : world.stepRetry number id awake = some next) :
    RetryBranch world number id awake next := by
  rw [stepRetry] at stepped
  cases awake with
  | false => exact Option.some.inj stepped ▸ .wakes
  | true =>
    rw [if_neg (by simp)] at stepped
    split at stepped
    · next gone => exact Option.some.inj stepped ▸ .gone gone
    · next there =>
      split at stepped
      · simp at stepped
      · next room => exact Option.some.inj stepped ▸ .sends there (by simpa using room)

end Send

end World

end ContractWorks

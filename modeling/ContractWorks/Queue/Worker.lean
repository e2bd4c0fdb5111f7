import ContractWorks.Queue.World

namespace ContractWorks.World

/-- This function takes the first id from the channel, or stops when none will come. -/
def takeId (world : World) (number : Nat) : Option World :=
  match world.channel.ids with
  | id :: ids =>
    some ({ world with channel := { world.channel with ids } }.goOn number (.worker (.claimed id)))
  | [] => if world.isDrained then some (world.endTask number) else none

/-- This function writes that a job runs. A job that does not wait any more is left alone, and any other
failure is tried again later. -/
def startJob (world : World) (number : Nat) (chance : Chance) (id : JobId) : World :=
  match world.jobs.transition id .start chance.now chance.fault world.disk with
  | (disk, jobs, .ok record) => { world with disk, jobs }.goOn number (.worker (.started record))
  | (disk, jobs, .error (.invalidTransition _)) =>
    { world with disk, jobs }.goOn number (.worker .idle)
  | (disk, jobs, .error _) => { world with disk, jobs }.goOn number (.worker (.retrying id))

/-- This function has a job offered again, unless the channel is closed. -/
def retryLater (world : World) (number : Nat) (id : JobId) : World :=
  if world.channel.senderOpen then
    (world.spawn (.retry id false)).goOn number (.worker .idle)
  else world.goOn number (.worker (.leaving id))

/-- This function applies the gate once more and makes the workspace. -/
def allocate (setting : Setting) (world : World) (number : Nat) (chance : Chance)
    (record : JobRecord) : World :=
  let outcome := setting.gate record.kind record.input
  if !outcome.valid then
    world.goOn number (.worker (.finishing record.id (.fail
      ⟨outcome.code.getD .invalidInput, outcome.error.getD "", none⟩)))
  else
    match Workspace.create { config := setting.workspaces } chance.name world.disk with
    | (disk, _, .error error) =>
      { world with disk }.goOn number
        (.worker (.finishing record.id (.fail (.resource error.message))))
    | (disk, workspace, .ok directory) =>
      { world with disk }.goOn number (.worker (.prepared record workspace directory))

/-- This function gives the next step of a worker after the end of a compiler run. -/
def afterRun (record : JobRecord) : CompilerEnd → WorkerStep
  | .made artifact => .collected record artifact
  | .failed error => .finishing record.id (.fail error.record)
  | .brokeOff => .finishing record.id (.fail .infra)

/-- This function lets the compiler of a job run to its end and removes the workspace. -/
def compile (setting : Setting) (world : World) (number : Nat) (chance : Chance)
    (record : JobRecord) (workspace : Workspace) (directory : String) : World :=
  let (disk, ending) := setting.compilers record.kind directory record.input chance world.disk
  let (disk, _, _) := workspace.cleanup disk
  { world with disk }.goOn number (.worker (afterRun record ending))

/-- This function keeps the artifact of a job. -/
def keepArtifact (world : World) (number : Nat) (chance : Chance) (record : JobRecord)
    (artifact : Artifact) : World :=
  match world.artifacts.put artifact chance.fault world.disk with
  | (disk, artifacts, .ok ()) =>
    { world with disk, artifacts }.goOn number
      (.worker (.finishing record.id (.complete artifact.id)))
  | (disk, artifacts, .error _) =>
    { world with disk, artifacts }.goOn number (.worker (.finishing record.id (.fail .infra)))

/-- This function writes the outcome of a job, whether or not the store takes it. -/
def finishJob (world : World) (number : Nat) (chance : Chance) (id : JobId)
    (transition : Transition) : World :=
  let (disk, jobs, _) := world.jobs.transition id transition chance.now chance.fault world.disk
  { world with disk, jobs }.goOn number (.worker (.leaving id))

/-- This function takes the next step of a worker, if it need not wait. -/
def stepWorker (setting : Setting) (world : World) (number : Nat) (chance : Chance) :
    WorkerStep → Option World
  | .idle => world.takeId number
  | .claimed id => some (world.startJob number chance id)
  | .retrying id => some (world.retryLater number id)
  | .started record =>
    some ({ world with live := world.live.running record.id Progress.queued }.goOn number
      (.worker (.compiling record)))
  | .compiling record => some (allocate setting world number chance record)
  | .prepared record workspace directory =>
    some ({ world with live := world.live.running record.id Progress.workspaceReady }.goOn number
      (.worker (.ready record workspace directory)))
  | .ready record workspace directory =>
    some ({ world with live := world.live.running record.id Progress.toolchainStarted }.goOn number
      (.worker (.invoking record workspace directory)))
  | .invoking record workspace directory =>
    some ((world.goOn number (.worker (.running record workspace directory))).note
      (.invoked record.id record.kind record.input (world.disk.isDirectory directory)))
  | .running record workspace directory =>
    some (compile setting world number chance record workspace directory)
  | .collected record artifact =>
    some ({ world with live := world.live.running record.id Progress.outputCollected }.goOn number
      (.worker (.storing record artifact)))
  | .storing record artifact => some (world.keepArtifact number chance record artifact)
  | .finishing id transition => some (world.finishJob number chance id transition)
  | .leaving id =>
    some ({ world with live := world.live.finish id }.goOn number (.worker .idle))

end ContractWorks.World

import ContractWorks.Queue.Channel
import ContractWorks.Queue.Config
import ContractWorks.Queue.LiveTable
import ContractWorks.Queue.Status
import ContractWorks.Queue.Submission
import ContractWorks.Storage.ArtifactStore
import ContractWorks.Storage.JobStore
import ContractWorks.Toolchain.Workspace

namespace ContractWorks

/-- A chance is what the world outside adds to a step: the time, a fresh name, and a fault. -/
structure Chance where
  now : Time.Instant
  name : String
  fault : Option StoreFault := none

/-- A compiler run ends with an artifact, or with an error, or breaks off. -/
inductive CompilerEnd where
  | made (artifact : Artifact)
  | failed (error : ToolchainError)
  | brokeOff

/-- A compiler works on an input in a directory. -/
abbrev Compiler := (directory : String) → JobInput → Chance → Disk → Disk × CompilerEnd

/-- A setting stays the same while a queue runs. -/
structure Setting where
  config : QueueConfig
  workspaces : WorkspaceConfig
  compilers : JobKind → Compiler

/-- This function counts the workers of a queue, of which there is at least one. -/
def Setting.workerCount (setting : Setting) : Nat :=
  max 1 setting.config.workers.toNat

/-- This function applies the gate of a queue. -/
def Setting.gate (setting : Setting) (kind : JobKind) (input : JobInput) : ValidationOutcome :=
  Source.validate setting.config.maxSourceBytes.toNat input.source kind.language

/-- A report tells what a start found and did. -/
structure RecoveryReport where
  orphaned : List JobId := []
  requeued : List JobId := []
  workspacesRemoved : Nat := 0
  deriving DecidableEq, Repr

namespace RecoveryReport

/-- This function encodes a report. -/
def encode (report : RecoveryReport) : Json :=
  .object [("orphaned", .texts report.orphaned), ("requeued", .texts report.requeued),
    ("workspacesRemoved", .count report.workspacesRemoved)]

end RecoveryReport

/-- A call asks a queue for something. -/
inductive Call where
  | request (submission : Submission)
  | submit (kind : JobKind) (input : JobInput)
  | start
  | shutdown
  | status (id : JobId)

/-- An answer is what a call comes back with. -/
inductive Answer where
  | submitted (result : Except QueueError JobId)
  | started (result : Except QueueError RecoveryReport)
  | stopped
  | status (result : Except QueueError (Option JobStatus))

/-- A submission waits for the channel, holds a place on it with a record to be stored, then with a stored
record, and then with a live entry. -/
inductive SubmitStep where
  | waiting (kind : JobKind) (input : JobInput)
  | reserved (record : JobRecord)
  | inserted (id : JobId)
  | announced (id : JobId)

/-- A start takes the receiver, fails the jobs that ran, sweeps the workspaces, enters the jobs that wait and
offers them, and then makes the workers. -/
inductive StartStep where
  | waiting
  | listing (report : RecoveryReport)
  | failing (ids : List JobId) (report : RecoveryReport)
  | sweeping (report : RecoveryReport)
  | relisting (report : RecoveryReport)
  | checking (ids : List JobId) (report : RecoveryReport)
  | entering (id : JobId) (ids : List JobId) (report : RecoveryReport)
  | offering (report : RecoveryReport)
  | spawning (report : RecoveryReport)

/-- A shutdown closes the channel, takes the workers, and waits for each of them to stop. -/
inductive ShutdownStep where
  | closing
  | collecting
  | joining (workers : List Nat)

/-- A look at a job reads its live entry, then its record, and then its artifact. -/
inductive StatusStep where
  | reading (id : JobId)
  | looking (id : JobId) (live : Option LiveJob)
  | fetching (record : JobRecord) (artifact : ArtifactId)

/-- A worker takes an id, starts its job, compiles it in a workspace, keeps the artifact, writes the outcome
and removes the live entry. -/
inductive WorkerStep where
  | idle
  | claimed (id : JobId)
  | retrying (id : JobId)
  | started (record : JobRecord)
  | compiling (record : JobRecord)
  | prepared (record : JobRecord) (workspace : Workspace) (directory : String)
  | ready (record : JobRecord) (workspace : Workspace) (directory : String)
  | invoking (record : JobRecord) (workspace : Workspace) (directory : String)
  | running (record : JobRecord) (workspace : Workspace) (directory : String)
  | collected (record : JobRecord) (artifact : Artifact)
  | storing (record : JobRecord) (artifact : Artifact)
  | finishing (id : JobId) (transition : Transition)
  | leaving (id : JobId)

/-- A task is a piece of work that takes one step after another. Offers wait for a place on the channel, a
retry also for some time before. -/
inductive Task where
  | submit (step : SubmitStep)
  | start (step : StartStep)
  | shutdown (step : ShutdownStep)
  | status (step : StatusStep)
  | worker (step : WorkerStep)
  | offer (ids : List JobId)
  | retry (id : JobId) (awake : Bool)

/-- An event is what can be seen of a queue from outside. -/
inductive Event where
  | called (task : Nat) (call : Call)
  | answered (task : Nat) (answer : Answer)
  | invoked (id : JobId) (kind : JobKind) (input : JobInput) (hasDirectory : Bool)

/-- A world holds the disk and the stores, which outlive a process, and what a process keeps in memory. The
history of what was seen comes last. -/
structure World where
  disk : Disk
  jobs : JobStore
  artifacts : ArtifactStore
  live : LiveTable := []
  channel : Channel
  tasks : Table Nat Task := []
  nextTask : Nat := 0
  pool : List Nat := []
  history : List Event := []

namespace World

/-- This function gives the world of a new process. -/
def new (setting : Setting) (disk : Disk) (jobs : JobStore) (artifacts : ArtifactStore) : World :=
  { disk, jobs, artifacts, channel := .new setting.config.channelCapacity.toNat }

/-- This function adds a task. -/
def spawn (world : World) (task : Task) : World :=
  { world with
    tasks := Table.insert world.nextTask task world.tasks
    nextTask := world.nextTask + 1 }

/-- This function replaces a task by its next step. -/
def goOn (world : World) (number : Nat) (task : Task) : World :=
  { world with tasks := Table.insert number task world.tasks }

/-- This function ends a task. -/
def endTask (world : World) (number : Nat) : World :=
  { world with tasks := Table.erase number world.tasks }

/-- This function adds an event to the history. -/
def note (world : World) (event : Event) : World :=
  { world with history := world.history ++ [event] }

/-- This function ends a task with an answer. -/
def answer (world : World) (number : Nat) (answer : Answer) : World :=
  (world.endTask number).note (.answered number answer)

/-- A submission that holds a place keeps the channel from being closed. -/
def holdsPlace : Task → Bool
  | .submit (.waiting _ _) => false
  | .submit _ => true
  | _ => false

/-- An offer or a retry may still send. -/
def maySend : Task → Bool
  | .offer _ => true
  | .retry _ _ => true
  | _ => false

/-- No id will come any more when the channel is empty and nobody may send. -/
def isDrained (world : World) : Bool :=
  !world.channel.senderOpen && world.channel.ids.isEmpty &&
    world.tasks.all fun entry => !maySend entry.2

/-- This function loses the process and all that it keeps in memory. -/
def crash (setting : Setting) (world : World) (jobs : JobStore) (artifacts : ArtifactStore)
    (disk : Disk) : World :=
  { disk, jobs, artifacts, channel := .new setting.config.channelCapacity.toNat,
    nextTask := world.nextTask, history := world.history }

end World

end ContractWorks

import ContractWorks.Contract.Target
import ContractWorks.Digest.Blake3
import ContractWorks.Job.ErrorRecord
import ContractWorks.Job.State

namespace ContractWorks

/-- A job id names a job. -/
abbrev JobId := String

/-- An artifact id names what a job made. -/
abbrev ArtifactId := String

/-- A transition is a step of a job together with what it brings. -/
inductive Transition where
  | start
  | complete (artifact : ArtifactId)
  | fail (error : ErrorRecord)
  deriving DecidableEq, Repr

/-- This function gives the state that a transition leads to. -/
def Transition.target : Transition → JobState
  | .start => .running
  | .complete _ => .completed
  | .fail _ => .failed

/-- This decoder reads a transition: the word `start`, or an object that says how a job ends. -/
def Transition.decode : Decoder Transition
  | .text "start" => .ok .start
  | .object [(some "complete", artifact)] => (Decode.text artifact).map .complete
  | .object [(some "fail", error)] => (ErrorRecord.decode error).map .fail
  | .text name => .error (.unknownName name ["start", "complete", "fail"])
  | other => Decode.mismatch "a transition" other

/-- This type describes a step that a job may not take. -/
structure InvalidTransition where
  origin : JobState
  target : JobState
  deriving DecidableEq, Repr

/-- This function words the refusal. -/
def InvalidTransition.message (refusal : InvalidTransition) : String :=
  "invalid job transition " ++ refusal.origin.name ++ " -> " ++ refusal.target.name

/-- A job input is what a job compiles. -/
structure JobInput where
  source : String
  contractName : String
  network : Option String := none
  optimizerRuns : Option UInt32 := none
  deriving DecidableEq, Repr

namespace JobInput

/-- This decoder reads a job input. -/
def decode : Decoder JobInput := fun draft => do
  let (source, contractName, network, optimizerRuns, ()) ← Row.decode
    (.field (.required "source" Decode.text) <|
      .field (.required "contractName" Decode.text) <|
      .field (.optional "network" Decode.text) <|
      .field (.optional "optimizerRuns" Decode.uint32) .done)
    "JobInput" draft
  return ⟨source, contractName, network, optimizerRuns⟩

/-- This function encodes a job input. -/
def encode (input : JobInput) : Json :=
  .record [("source", some (.text input.source)), ("contractName", some (.text input.contractName)),
    ("network", input.network.map .text),
    ("optimizerRuns", input.optimizerRuns.map fun value => .count value.toNat)]

end JobInput

/-- A job record is all that is kept of a job; it holds the input, so that queued work outlives a restart. -/
structure JobRecord where
  id : JobId
  kind : JobKind
  status : JobState
  sourceHash : String
  createdAt : Time.Instant
  startedAt : Option Time.Instant := none
  completedAt : Option Time.Instant := none
  artifactId : Option ArtifactId := none
  error : Option ErrorRecord := none
  input : JobInput
  deriving DecidableEq, Repr

namespace JobRecord

/-- This function makes the record of a new job. -/
def new (id : JobId) (now : Time.Instant) (kind : JobKind) (input : JobInput) : JobRecord :=
  { id, kind, status := .queued, sourceHash := Digest.ofText input.source, createdAt := now, input }

/-- This function writes a transition into a record. -/
def write (record : JobRecord) (now : Time.Instant) : Transition → JobRecord
  | .start => { record with status := .running, startedAt := some now }
  | .complete artifact =>
    { record with status := .completed, artifactId := some artifact, completedAt := some now }
  | .fail error => { record with status := .failed, error := some error, completedAt := some now }

/-- This function takes a step that is allowed. -/
def apply (record : JobRecord) (now : Time.Instant) (transition : Transition) :
    Except InvalidTransition JobRecord :=
  if record.status.canBecome transition.target then .ok (record.write now transition)
  else .error ⟨record.status, transition.target⟩

/-- This function gives the message of the error that ended a job. -/
def errorMessage (record : JobRecord) : Option String :=
  record.error.map ErrorRecord.message

/-- This decoder reads a job record. -/
def decode : Decoder JobRecord := fun draft => do
  let (id, kind, status, sourceHash, createdAt, startedAt, completedAt, artifactId, error, input, ()) ←
    Row.decode
      (.field (.required "jobId" Decode.text) <|
        .field (.required "contractType" JobKind.decode) <|
        .field (.required "status" JobState.decode) <|
        .field (.required "sourceHash" Decode.text) <|
        .field (.required "createdAt" Decode.instant) <|
        .field (.optional "startedAt" Decode.instant) <|
        .field (.optional "completedAt" Decode.instant) <|
        .field (.optional "artifactId" Decode.text) <|
        .field (.optional "error" ErrorRecord.decode) <|
        .field (.required "input" JobInput.decode) .done)
      "JobRecord" draft
  return ⟨id, kind, status, sourceHash, createdAt, startedAt, completedAt, artifactId, error, input⟩

/-- This function encodes a job record. -/
def encode (record : JobRecord) : Json :=
  .record [("jobId", some (.text record.id)), ("contractType", some record.kind.encode),
    ("status", some record.status.encode), ("sourceHash", some (.text record.sourceHash)),
    ("createdAt", some (.text record.createdAt.text)),
    ("startedAt", record.startedAt.map fun instant => .text instant.text),
    ("completedAt", record.completedAt.map fun instant => .text instant.text),
    ("artifactId", record.artifactId.map .text), ("error", record.error.map ErrorRecord.encode),
    ("input", some record.input.encode)]

end JobRecord

end ContractWorks

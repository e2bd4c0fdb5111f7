import ContractWorks.Job.Record

namespace ContractWorks

/-- A result names what a completed job made. -/
structure JobResult where
  artifactId : ArtifactId
  contractName : String
  warnings : List String
  deriving DecidableEq, Repr

namespace JobResult

/-- This decoder reads a result. -/
def decode : Decoder JobResult := fun draft => do
  let (artifactId, contractName, warnings, ()) ← Row.decode
    (.field (.required "artifactId" Decode.text) <|
      .field (.required "contractName" Decode.text) <|
      .field (.required "warnings" (Decode.list Decode.text)) .done)
    "JobResult" draft
  return ⟨artifactId, contractName, warnings⟩

/-- This function encodes a result. -/
def encode (result : JobResult) : Json :=
  .object [("artifactId", .text result.artifactId), ("contractName", .text result.contractName),
    ("warnings", .texts result.warnings)]

end JobResult

/-- A status is what clients see of a job. -/
structure JobStatus where
  id : JobId
  state : ExternalState
  progress : UInt8
  result : Option JobResult := none
  error : Option ErrorRecord := none
  deriving DecidableEq, Repr

namespace JobStatus

/-- This decoder reads a status. -/
def decode : Decoder JobStatus := fun draft => do
  let (id, state, progress, result, error, ()) ← Row.decode
    (.field (.required "jobId" Decode.text) <|
      .field (.required "state" ExternalState.decode) <|
      .field (.required "progress" Decode.uint8) <|
      .field (.optional "result" JobResult.decode) <|
      .field (.optional "error" ErrorRecord.decode) .done)
    "JobStatus" draft
  return ⟨id, state, progress, result, error⟩

/-- This function encodes a status. -/
def encode (status : JobStatus) : Json :=
  .record [("jobId", some (.text status.id)), ("state", some status.state.encode),
    ("progress", some (.count status.progress.toNat)), ("result", status.result.map JobResult.encode),
    ("error", status.error.map ErrorRecord.encode)]

end JobStatus

end ContractWorks

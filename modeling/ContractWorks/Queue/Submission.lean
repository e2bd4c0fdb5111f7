import ContractWorks.Contract.Block.Wire
import ContractWorks.Queue.Error
import ContractWorks.Source.Generated

namespace ContractWorks

/-- A submission asks for a job, for a source or for a block list. -/
structure Submission where
  contractName : Option String := none
  kind : JobKind
  source : Option String := none
  blocks : Option (List Block) := none
  network : Option String := none
  optimizerRuns : Option UInt32 := none
  deriving DecidableEq, Repr

namespace Submission

/-- This function asks for a job for a source. -/
def ofSource (kind : JobKind) (contractName source : String) : Submission :=
  { contractName := some contractName, kind, source := some source }

/-- This function asks for a job for a block list. -/
def ofBlocks (kind : JobKind) (blocks : List Block) : Submission :=
  { kind, blocks := some blocks }

/-- This decoder reads a submission. -/
def decode : Decoder Submission := fun draft => do
  let (contractName, kind, source, blocks, network, optimizerRuns, ()) ← Row.decode
    (.field (.optional "contractName" Decode.text) <|
      .field (.required "kind" JobKind.decode) <|
      .field (.optional "source" Decode.text) <|
      .field (.optional "blocks" (Decode.list Block.decode)) <|
      .field (.optional "network" Decode.text) <|
      .field (.optional "optimizerRuns" Decode.uint32) .done)
    "Submission" draft
  return ⟨contractName, kind, source, blocks, network, optimizerRuns⟩

/-- This function encodes a submission; what is not there is null. -/
def encode (submission : Submission) : Json :=
  let orNull (value : Option Json) : Json := value.getD .null
  .object [("contractName", orNull (submission.contractName.map .text)),
    ("kind", submission.kind.encode),
    ("source", orNull (submission.source.map .text)),
    ("blocks", orNull (submission.blocks.map fun blocks => .array (blocks.map Block.encode))),
    ("network", orNull (submission.network.map .text)),
    ("optimizerRuns", orNull (submission.optimizerRuns.map fun runs => .count runs.toNat))]

/-- This function gives the name that was asked for, without blanks around it, unless it is blank. -/
def requestedName (submission : Submission) : Option String :=
  match submission.contractName with
  | none => none
  | some name => if Text.trim name = "" then none else some (Text.trim name)

/-- This function gives the source and the name of a submission. -/
def content (submission : Submission) : Except QueueError (String × String) :=
  match submission.source, submission.blocks with
  | some source, none =>
    match submission.requestedName with
    | some name => .ok (source, name)
    | none => .error (.invalidInput "contractName is required")
  | none, some blocks =>
    match checkBlocks blocks with
    | .error reason => .error (.invalidInput reason.message)
    | .ok () =>
      let generated := Source.generate blocks submission.kind.language
      if generated.isPlaceholder then
        .error (.invalidInput "block list has no enabled base block")
      else .ok (generated.text, submission.requestedName.getD generated.contractName)
  | _, _ => .error (.invalidInput "exactly one of source and blocks is required")

/-- This function turns a submission into the input of a job. -/
def resolve (submission : Submission) : Except QueueError (JobKind × JobInput) := do
  let (source, contractName) ← submission.content
  if submission.optimizerRuns.isSome && submission.kind != .evm then
    throw (.invalidInput "optimizerRuns only applies to EVM compilation")
  return (submission.kind,
    { source, contractName, network := submission.network,
      optimizerRuns := submission.optimizerRuns })

end Submission

end ContractWorks

import ContractWorks.Job.Record

namespace ContractWorks

/-- An artifact is what a job made: an interface and bytecode, or a binary. -/
structure Artifact where
  id : ArtifactId
  kind : JobKind
  contractName : String
  abi : Option Json
  bytecode : Option String
  wasm : Option (List UInt8)
  warnings : List String
  contentHash : String
  createdAt : Time.Instant
  deriving Repr

namespace Artifact

/-- This function makes an artifact of an interface and bytecode. -/
def ofBytecode (id : ArtifactId) (now : Time.Instant) (contractName : String) (abi : Json)
    (bytecode : String) (warnings : List String) : Artifact :=
  { id, kind := .evm, contractName, abi := some abi, bytecode := some bytecode, wasm := none, warnings,
    contentHash := Digest.ofText bytecode, createdAt := now }

/-- This function makes an artifact of a binary. -/
def ofWasm (id : ArtifactId) (now : Time.Instant) (contractName : String) (wasm : List UInt8)
    (warnings : List String) : Artifact :=
  { id, kind := .stellar, contractName, abi := none, bytecode := none, wasm := some wasm, warnings,
    contentHash := Digest.hexOf wasm, createdAt := now }

/-- This function gives the octets that the hash of an artifact covers: the bytecode, or else the binary. -/
def payload (artifact : Artifact) : Option (List UInt8) :=
  match artifact.bytecode with
  | some bytecode => some bytecode.toUTF8.toList
  | none => artifact.wasm

/-- This test compares the hash of the payload with the one that is kept. -/
def verifyHash (artifact : Artifact) : Bool :=
  match artifact.payload with
  | some octets => Digest.hexOf octets = artifact.contentHash
  | none => false

/-- This decoder reads an artifact. -/
def decode : Decoder Artifact := fun draft => do
  let (id, kind, contractName, abi, bytecode, wasm, warnings, contentHash, createdAt, ()) ←
    Row.decode
      (.field (.required "id" Decode.text) <|
        .field (.required "kind" JobKind.decode) <|
        .field (.required "contractName" Decode.text) <|
        .field (.optional "abi" Decode.value) <|
        .field (.optional "bytecode" Decode.text) <|
        .field (.optional "wasmBytes" Decode.octets) <|
        .field (.withDefault "warnings" (Decode.list Decode.text) []) <|
        .field (.required "contentHash" Decode.text) <|
        .field (.required "createdAt" Decode.instant) .done)
      "Artifact" draft
  return ⟨id, kind, contractName, abi, bytecode, wasm, warnings, contentHash, createdAt⟩

/-- This function encodes an artifact. -/
def encode (artifact : Artifact) : Json :=
  .record [("id", some (.text artifact.id)), ("kind", some artifact.kind.encode),
    ("contractName", some (.text artifact.contractName)), ("abi", artifact.abi),
    ("bytecode", artifact.bytecode.map .text),
    ("wasmBytes", artifact.wasm.map fun octets => .text (Text.Hex.encode octets)),
    ("warnings", some (.texts artifact.warnings)),
    ("contentHash", some (.text artifact.contentHash)),
    ("createdAt", some (.text artifact.createdAt.text))]

end Artifact

end ContractWorks

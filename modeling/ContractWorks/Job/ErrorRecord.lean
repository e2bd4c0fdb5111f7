import ContractWorks.Json.Record

namespace ContractWorks

/-- An error code is the part of a failure that programs read. -/
inductive ErrorCode where
  | invalidInput
  | emptySource
  | tooLarge
  | missingSdkImport
  | missingContractMarker
  | crossDomain
  | toolchain
  | timeout
  | resource
  | infra
  deriving DecidableEq, Repr

namespace ErrorCode

/-- This list holds every error code. -/
def all : List ErrorCode :=
  [.invalidInput, .emptySource, .tooLarge, .missingSdkImport, .missingContractMarker, .crossDomain,
    .toolchain, .timeout, .resource, .infra]

/-- This function gives the name of a code. -/
def name : ErrorCode → String
  | .invalidInput => "INVALID_INPUT"
  | .emptySource => "VALIDATION_EMPTY_SOURCE"
  | .tooLarge => "VALIDATION_TOO_LARGE"
  | .missingSdkImport => "VALIDATION_MISSING_SDK_IMPORT"
  | .missingContractMarker => "VALIDATION_MISSING_CONTRACT_MARKER"
  | .crossDomain => "VALIDATION_CROSS_DOMAIN"
  | .toolchain => "TOOLCHAIN_ERROR"
  | .timeout => "TIMEOUT"
  | .resource => "RESOURCE_ERROR"
  | .infra => "INFRA_ERROR"

/-- This test holds of the codes that the source gate gives. -/
def isValidation : ErrorCode → Bool
  | .emptySource => true
  | .tooLarge => true
  | .missingSdkImport => true
  | .missingContractMarker => true
  | .crossDomain => true
  | _ => false

/-- This decoder reads a code by its name. -/
def decode : Decoder ErrorCode :=
  Decode.oneOf (all.map fun code => ([code.name], code))

/-- This function encodes a code. -/
def encode (code : ErrorCode) : Json :=
  .text code.name

end ErrorCode

/-- An error record says why a job failed; only a compiler failure has diagnostics. -/
structure ErrorRecord where
  code : ErrorCode
  message : String
  diagnostics : Option String := none
  deriving DecidableEq, Repr

namespace ErrorRecord

/-- This function records a compiler failure; diagnostics without text are left out. -/
def toolchain (message diagnostics : String) : ErrorRecord :=
  ⟨.toolchain, message, if diagnostics = "" then none else some diagnostics⟩

/-- This function records that a compiler ran for too long. -/
def timeout (seconds : Nat) : ErrorRecord :=
  ⟨.timeout, "compilation exceeded " ++ toString seconds ++ "s time limit", none⟩

/-- This function records that a workspace could not be used. -/
def resource (message : String) : ErrorRecord :=
  ⟨.resource, message, none⟩

/-- This record hides the cause of a failure that is not the client's. -/
def infra : ErrorRecord :=
  ⟨.infra, "internal error while processing job", none⟩

/-- This function writes a record on one line. -/
def text (error : ErrorRecord) : String :=
  error.code.name ++ ": " ++ error.message

/-- This decoder reads an error record. -/
def decode : Decoder ErrorRecord := fun draft => do
  let (code, message, diagnostics, ()) ← Row.decode
    (.field (.required "code" ErrorCode.decode) <|
      .field (.required "message" Decode.text) <|
      .field (.optional "diagnostics" Decode.text) .done)
    "ErrorRecord" draft
  return ⟨code, message, diagnostics⟩

/-- This function encodes an error record. -/
def encode (error : ErrorRecord) : Json :=
  .record [("code", some error.code.encode), ("message", some (.text error.message)),
    ("diagnostics", error.diagnostics.map .text)]

end ErrorRecord

end ContractWorks

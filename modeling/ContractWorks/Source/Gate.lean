import ContractWorks.Contract.Target
import ContractWorks.Job.ErrorRecord
import ContractWorks.Text.Blank
import ContractWorks.Text.Search

namespace ContractWorks

/-- An outcome says whether a source may be compiled, and if not, why. -/
structure ValidationOutcome where
  valid : Bool
  error : Option String := none
  code : Option ErrorCode := none
  deriving DecidableEq, Repr

namespace ValidationOutcome

/-- This outcome lets a source pass. -/
def ok : ValidationOutcome :=
  ⟨true, none, none⟩

/-- This outcome refuses a source. -/
def invalid (code : ErrorCode) (error : String) : ValidationOutcome :=
  ⟨false, some error, some code⟩

/-- This decoder reads an outcome. -/
def decode : Decoder ValidationOutcome := fun draft => do
  let (valid, error, code, ()) ← Row.decode
    (.field (.required "valid" Decode.bool) <|
      .field (.optional "error" Decode.text) <|
      .field (.optional "code" ErrorCode.decode) .done)
    "ValidationOutcome" draft
  return ⟨valid, error, code⟩

/-- This function encodes an outcome. -/
def encode (outcome : ValidationOutcome) : Json :=
  .record [("valid", some (.bool outcome.valid)), ("error", outcome.error.map .text),
    ("code", outcome.code.map ErrorCode.encode)]

end ValidationOutcome

namespace Source

/-- This mark shows that a source uses the library of Soroban contracts. -/
def sdkImport : String := "soroban_sdk"

/-- This mark shows that a source exports a Soroban contract. -/
def contractMarker : String := "#[contractimpl]"

/-- This list holds the marks that a source of a language may not have. -/
def foreignMarkers : Language → List String
  | .solidity => [sdkImport, contractMarker]
  | .soroban => ["pragma solidity", "msg.sender"]

/-- This bound is the number of octets that a source may have unless another one is set. -/
def defaultMaxBytes : Nat := 1048576

/-- This function checks a source: it must not be blank, nor larger than a bound, nor have marks of the other
language, and a Soroban source must have its own. The first check that fails decides. -/
def validate (maxBytes : Nat) (source : String) (language : Language) : ValidationOutcome :=
  if Text.allBlank source then .invalid .emptySource "empty source"
  else if maxBytes < source.utf8ByteSize then
    .invalid .tooLarge
      ("source is " ++ toString source.utf8ByteSize ++ " bytes, limit is " ++ toString maxBytes ++
        " bytes")
  else
    match (foreignMarkers language).find? (Text.contains source) with
    | some marker =>
      .invalid .crossDomain
        (language.name ++ " source contains foreign marker `" ++ marker ++ "`")
    | none =>
      if language = .solidity then .ok
      else if !Text.contains source sdkImport then
        .invalid .missingSdkImport ("missing import: `" ++ sdkImport ++ "`")
      else if !Text.contains source contractMarker then
        .invalid .missingContractMarker ("missing contract marker: `" ++ contractMarker ++ "`")
      else .ok

end Source

end ContractWorks

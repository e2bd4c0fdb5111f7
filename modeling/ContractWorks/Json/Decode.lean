import ContractWorks.Json.Draft
import ContractWorks.Text.Quoted
import ContractWorks.Time.Reader

namespace ContractWorks

/-- This type describes a value that was found where another one belongs. -/
inductive Found where
  | null
  | bool (value : Bool)
  | whole (value : Int)
  | real (value : Binary64)
  | text (value : String)
  | sequence
  | map
  deriving DecidableEq, Repr

/-- This function words what was found. -/
def Found.wording : Found → String
  | .null => "null"
  | .bool value => "boolean `" ++ (if value then "true" else "false") ++ "`"
  | .whole value => "integer `" ++ toString value ++ "`"
  | .real value => "floating point `" ++ value.text ++ "`"
  | .text value => "string " ++ Text.quoted value
  | .sequence => "sequence"
  | .map => "map"

/-- This type gives the reasons why a draft does not have the form that is asked for. -/
inductive DecodeError where
  | malformed
  | wrongKind (found : Found) (expected : String)
  | outOfRange (value : Int) (expected : String)
  | noName (found : Found)
  | notOneKey (grammar : Bool)
  | unknownName (name : String) (known : List String)
  | missing (field : String)
  | repeated (field : String)
  | tooFew (count : Nat) (expected : String)
  | tooMany (count : Nat)
  | badConfig (block : String) (reason : DecodeError)
  | badHex (fault : Text.Hex.Fault)
  | badTime (fault : Time.Fault)
  | badAddress
  deriving DecidableEq

namespace DecodeError

/-- This function lists the names that would have been right. -/
def choice (known : List String) : String :=
  match known.map fun name => "`" ++ name ++ "`" with
  | [] => "there are no variants"
  | [only] => "expected " ++ only
  | [first, second] => "expected " ++ first ++ " or " ++ second
  | names => "expected one of " ++ ", ".intercalate names

/-- This function words a fault in a row of hexadecimal digits. -/
def hexMessage : Text.Hex.Fault → String
  | .oddLength => "Odd number of digits"
  | .badDigit octet position =>
    "Invalid character " ++ Text.quotedChar (Char.ofNat octet.toNat) ++ " at position " ++
      toString position

/-- This function words an error. -/
def message : DecodeError → String
  | .malformed => "malformed text"
  | .wrongKind found expected => "invalid type: " ++ found.wording ++ ", expected " ++ expected
  | .outOfRange value expected =>
    "invalid value: " ++ (Found.whole value).wording ++ ", expected " ++ expected
  | .noName found => "invalid type: " ++ found.wording ++ ", expected string or map"
  | .notOneKey _ => "invalid value: map, expected map with a single key"
  | .unknownName name known => "unknown variant `" ++ name ++ "`, " ++ choice known
  | .missing field => "missing field `" ++ field ++ "`"
  | .repeated field => "duplicate field `" ++ field ++ "`"
  | .tooFew count expected => "invalid length " ++ toString count ++ ", expected " ++ expected
  | .tooMany count => "invalid length " ++ toString count ++ ", expected fewer elements in array"
  | .badConfig block reason => "invalid config for block '" ++ block ++ "': " ++ reason.message
  | .badHex fault => hexMessage fault
  | .badTime fault => fault.message
  | .badAddress => "invalid socket address syntax"

/-- An error of a text read piece by piece is one of grammar when the pieces cannot even be told apart. -/
def isGrammar : DecodeError → Bool
  | .malformed => true
  | .noName _ => true
  | .notOneKey grammar => grammar
  | .tooMany _ => true
  | _ => false

end DecodeError

/-- A decoder makes a value of a draft. -/
abbrev Decoder (α : Type) := Draft → Except DecodeError α

namespace Decode

/-- This function describes a draft that is not what is expected. -/
def mismatch {α : Type} (expected : String) : Decoder α
  | .null => .error (.wrongKind .null expected)
  | .bool value => .error (.wrongKind (.bool value) expected)
  | .number (.whole value) => .error (.wrongKind (.whole value) expected)
  | .number (.real value) => .error (.wrongKind (.real value) expected)
  | .text value => .error (.wrongKind (.text value) expected)
  | .array _ => .error (.wrongKind .sequence expected)
  | .object _ => .error (.wrongKind .map expected)
  | .barred _ => .error .malformed
  | .fault => .error .malformed

/-- This decoder reads a text that a description names. -/
def textAs (expected : String) : Decoder String
  | .text value => .ok value
  | other => mismatch expected other

/-- This decoder reads a text. -/
def text : Decoder String :=
  textAs "a string"

/-- This decoder reads a truth value. -/
def bool : Decoder Bool
  | .bool value => .ok value
  | other => mismatch "a boolean" other

/-- This decoder reads a whole number from zero up to a bound. -/
def natural (bound : Nat) (expected : String) : Decoder Nat
  | .number (.whole value) =>
    if 0 ≤ value ∧ value ≤ bound then .ok value.toNat else .error (.outOfRange value expected)
  | other => mismatch expected other

/-- This decoder reads a number of 8 bits. -/
def uint8 : Decoder UInt8 := fun draft => (natural 255 "u8" draft).map UInt8.ofNat

/-- This decoder reads a number of 16 bits. -/
def uint16 : Decoder UInt16 := fun draft => (natural 65535 "u16" draft).map UInt16.ofNat

/-- This decoder reads a number of 32 bits. -/
def uint32 : Decoder UInt32 := fun draft => (natural 4294967295 "u32" draft).map UInt32.ofNat

/-- This decoder reads a number of 64 bits. -/
def uint64 : Decoder UInt64 := fun draft =>
  (natural 18446744073709551615 "u64" draft).map UInt64.ofNat

/-- This decoder reads a number of 64 bits that counts things in memory. -/
def size : Decoder UInt64 := fun draft =>
  (natural 18446744073709551615 "usize" draft).map UInt64.ofNat

/-- This decoder takes null for a value that is not there. -/
def nullable {α : Type} (decode : Decoder α) : Decoder (Option α)
  | .null => .ok none
  | other => (decode other).map some

/-- This decoder reads the items of an array in order. -/
def list {α : Type} (decode : Decoder α) : Decoder (List α)
  | .array items => items.mapM decode
  | other => mismatch "a sequence" other

/-- This decoder reads any value. -/
def value : Decoder Json := fun draft =>
  match draft.value? with
  | some value => .ok value
  | none => .error .malformed

/-- This decoder reads an instant. -/
def instant : Decoder Time.Instant := fun draft => do
  let written ← textAs "an RFC 3339 formatted date and time string" draft
  match Time.Instant.read written with
  | .ok instant => return instant
  | .error fault => throw (.badTime fault)

/-- This decoder reads octets written as hexadecimal digits. -/
def octets : Decoder (List UInt8) := fun draft => do
  let written ← text draft
  match Text.Hex.decode written with
  | .ok bytes => return bytes
  | .error fault => throw (.badHex fault)

/-- This function looks up a name among the groups of names that stand for one value each. -/
def named {α : Type} (variants : List (List String × α)) (name : String) : Except DecodeError α :=
  match variants.find? fun variant => variant.1.contains name with
  | some variant => .ok variant.2
  | none => .error (.unknownName name (variants.flatMap Prod.fst))

/-- This function reads a name that stands as a key; its value has to be null. -/
def namedKey {α : Type} (variants : List (List String × α)) (key : Option String) (content : Draft) :
    Except DecodeError α := do
  let some name := key | throw .malformed
  let found ← named variants name
  match content with
  | .null => return found
  | other => mismatch "unit" other

/-- This decoder reads one of several names, as a text or as the only key of an object. -/
def oneOf {α : Type} (variants : List (List String × α)) : Decoder α
  | .text name => named variants name
  | .object [(key, content)] => namedKey variants key content
  | .object ((key, content) :: _) =>
    match namedKey variants key content with
    | .ok _ => .error (.notOneKey true)
    | .error reason => .error (.notOneKey reason.isGrammar)
  | .object [] => .error (.notOneKey true)
  | .null => .error (.noName .null)
  | .bool value => .error (.noName (.bool value))
  | .number (.whole value) => .error (.noName (.whole value))
  | .number (.real value) => .error (.noName (.real value))
  | .array _ => .error (.noName .sequence)
  | .barred _ => .error .malformed
  | .fault => .error .malformed

end Decode

end ContractWorks

namespace ContractWorks.Text.Hex

/-- This function writes a value below sixteen as a lower-case digit. -/
def digit (value : Nat) : Char :=
  if value < 10 then Char.ofNat (48 + value) else Char.ofNat (87 + value)

/-- This function reads a hexadecimal digit of either case. -/
def value? (code : Nat) : Option Nat :=
  if 48 ≤ code ∧ code ≤ 57 then some (code - 48)
  else if 97 ≤ code ∧ code ≤ 102 then some (code - 87)
  else if 65 ≤ code ∧ code ≤ 70 then some (code - 55)
  else none

/-- This function reads a fixed number of digits as the code of a character. -/
def readChar (count : Nat) (characters : List Char) : Option (Char × List Char) := do
  let digits ← (characters.take count).mapM fun character => value? character.toNat
  let code := digits.foldl (fun value digit => value * 16 + digit) 0
  if digits.length = count ∧ code.isValidChar then
    some (Char.ofNat code, characters.drop count)
  else none

/-- Every digit reads back as its value. -/
theorem value?_digit : ∀ value < 16, value? (digit value).toNat = some value := by decide

/-- This function writes an octet as two digits. -/
def octet (byte : UInt8) : List Char :=
  [digit (byte.toNat / 16), digit (byte.toNat % 16)]

/-- This function writes octets as digits, two each. -/
def encode (bytes : List UInt8) : String :=
  String.ofList (bytes.flatMap octet)

/-- This type gives the reasons why a text is not a row of octets. -/
inductive Fault where
  | oddLength
  | badDigit (octet : UInt8) (position : Nat)
  deriving DecidableEq

/-- This function reads pairs of digits, given as octets, from a position on. -/
def decodePairs : Nat → List UInt8 → Except Fault (List UInt8)
  | position, high :: low :: rest =>
    match value? high.toNat, value? low.toNat with
    | none, _ => .error (.badDigit high position)
    | _, none => .error (.badDigit low (position + 1))
    | some upper, some lower => do
      let bytes ← decodePairs (position + 2) rest
      return UInt8.ofNat (upper * 16 + lower) :: bytes
  | _, _ => .ok []

/-- This function reads digits as octets; an odd number of octets in the text is found first. -/
def decode (text : String) : Except Fault (List UInt8) :=
  let octets := text.toUTF8.toList
  if octets.length % 2 = 1 then .error .oddLength else decodePairs 0 octets

end ContractWorks.Text.Hex

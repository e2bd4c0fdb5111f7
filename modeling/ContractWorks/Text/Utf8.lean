namespace ContractWorks.Text.Utf8

/-- This character stands for octets that are not well-formed text. -/
def replacement : Char := '\uFFFD'

/-- This bound gives the least and the greatest second octet after a first one, and how many
octets follow the first. -/
def following (first : Nat) : Option (Nat × Nat × Nat) :=
  if 0xC2 ≤ first ∧ first ≤ 0xDF then some (0x80, 0xBF, 1)
  else if first = 0xE0 then some (0xA0, 0xBF, 2)
  else if first = 0xED then some (0x80, 0x9F, 2)
  else if 0xE1 ≤ first ∧ first ≤ 0xEF then some (0x80, 0xBF, 2)
  else if first = 0xF0 then some (0x90, 0xBF, 3)
  else if 0xF1 ≤ first ∧ first ≤ 0xF3 then some (0x80, 0xBF, 3)
  else if first = 0xF4 then some (0x80, 0x8F, 3)
  else none

/-- This function gives the payload bits of the first octet of a long character. -/
def leadBits (first count : Nat) : Nat :=
  first % Nat.pow 2 (6 - count)

/-- This function reads `count` octets after the first, the next one between two bounds. It gives the
character, or the replacement at the first octet that does not fit, and what is left. -/
def continueChar (value low high : Nat) : Nat → List UInt8 → Char × List UInt8
  | 0, rest => (Char.ofNat value, rest)
  | _ + 1, [] => (replacement, [])
  | count + 1, octet :: rest =>
    if low ≤ octet.toNat ∧ octet.toNat ≤ high then
      continueChar (value * 64 + octet.toNat % 64) 0x80 0xBF count rest
    else (replacement, octet :: rest)

/-- This function reads one character that starts with a given octet. -/
def readChar (first : UInt8) (rest : List UInt8) : Char × List UInt8 :=
  if first.toNat < 0x80 then (Char.ofNat first.toNat, rest)
  else
    match following first.toNat with
    | none => (replacement, rest)
    | some (low, high, count) => continueChar (leadBits first.toNat count) low high count rest

/-- This function reads characters until the octets or the steps run out. -/
def readChars : Nat → List UInt8 → List Char
  | 0, _ => []
  | _ + 1, [] => []
  | steps + 1, first :: rest =>
    let (character, left) := readChar first rest
    character :: readChars steps left

/-- This function reads octets as text, with one replacement for each longest run that no text starts with. -/
def lossy (octets : List UInt8) : String :=
  String.ofList (readChars octets.length octets)

/-- This function reads octets as text and replaces what is not text. -/
def decodeLossy (octets : ByteArray) : String :=
  match String.fromUTF8? octets with
  | some text => text
  | none => lossy octets.toList

/-- Reading the octets of a text gives that text. -/
theorem fromUTF8?_toUTF8 (text : String) : String.fromUTF8? text.toUTF8 = some text := by
  simp only [String.fromUTF8?, String.toUTF8_eq_toByteArray, dif_pos text.isValidUTF8]
  rfl

/-- Text comes back from its octets. -/
theorem decodeLossy_toUTF8 (text : String) : decodeLossy text.toUTF8 = text := by
  rw [decodeLossy, fromUTF8?_toUTF8]

end ContractWorks.Text.Utf8

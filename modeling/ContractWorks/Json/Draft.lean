import ContractWorks.Json.Basic
import ContractWorks.Text.Hex

namespace ContractWorks

/-- A draft is what a text holds as far as it can be read. It keeps repeated members in their order. The
part `fault` stands where the text stops being JSON, and `barred` marks a part that is JSON but holds no
value: a number out of range, half a surrogate pair, or nesting that is too deep. -/
inductive Draft where
  | null
  | bool (value : Bool)
  | number (value : Json.Number)
  | text (value : String)
  | array (items : List Draft)
  | object (members : List (Option String × Draft))
  | barred (content : Draft)
  | fault
  deriving Repr, Inhabited

mutual

/-- Every value is a draft of itself. -/
def Json.draft : Json → Draft
  | .null => .null
  | .bool value => .bool value
  | .number value => .number value
  | .text value => .text value
  | .array items => .array (Json.draftItems items)
  | .object members => .object (Json.draftMembers members)

/-- This function makes drafts of the items of an array. -/
def Json.draftItems : List Json → List Draft
  | [] => []
  | item :: items => item.draft :: Json.draftItems items

/-- This function makes drafts of the members of an object. -/
def Json.draftMembers : List (String × Json) → List (Option String × Draft)
  | [] => []
  | (key, value) :: members => (some key, value.draft) :: Json.draftMembers members

end

namespace Draft

mutual

/-- This function gives the value that a draft holds, with the members of objects sorted by key. -/
def value? : Draft → Option Json
  | .null => some .null
  | .bool value => some (.bool value)
  | .number value => some (.number value)
  | .text value => some (.text value)
  | .array items => (values? items).map .array
  | .object members => (memberValues? members).map fun found => .object (Json.sortMembers found)
  | .barred _ => none
  | .fault => none

/-- This function gives the values of the items of an array. -/
def values? : List Draft → Option (List Json)
  | [] => some []
  | item :: items => do
    let value ← item.value?
    let values ← values? items
    return value :: values

/-- This function gives the members of an object in their order. -/
def memberValues? : List (Option String × Draft) → Option (List (String × Json))
  | [] => some []
  | (key, content) :: members => do
    let name ← key
    let value ← content.value?
    let values ← memberValues? members
    return (name, value) :: values

end

mutual

/-- A draft is sound when its text is JSON to the end, whether or not it holds a value. -/
def sound : Draft → Bool
  | .array items => soundItems items
  | .object members => soundMembers members
  | .barred content => content.sound
  | .fault => false
  | _ => true

/-- This test asks whether all items are sound. -/
def soundItems : List Draft → Bool
  | [] => true
  | item :: items => item.sound && soundItems items

/-- This test asks whether all members are sound. -/
def soundMembers : List (Option String × Draft) → Bool
  | [] => true
  | (_, content) :: members => content.sound && soundMembers members

end

/-- This test holds of the characters that may stand between the parts of a JSON text. -/
def isGap (character : Char) : Bool :=
  character == ' ' || character == '\n' || character == '\r' || character == '\t'

/-- This function drops the gap before the next part. -/
def dropGap (characters : List Char) : List Char :=
  characters.dropWhile isGap

/-- This function reads four hexadecimal digits. -/
def hexCode (first second third fourth : Char) : Option Nat := do
  let a ← Text.Hex.value? first.toNat
  let b ← Text.Hex.value? second.toNat
  let c ← Text.Hex.value? third.toNat
  let d ← Text.Hex.value? fourth.toNat
  return ((a * 16 + b) * 16 + c) * 16 + d

/-- This function gives the character that a mark after a backslash stands for. -/
def markedChar (mark : Char) : Option Char :=
  match mark with
  | '"' => some '"'
  | '\\' => some '\\'
  | '/' => some '/'
  | 'b' => some '\x08'
  | 'f' => some '\x0c'
  | 'n' => some '\n'
  | 'r' => some '\r'
  | 't' => some '\t'
  | _ => none

/-- A text in progress holds its characters in reverse, the first half of a surrogate pair that waits for
the second, and whether all escapes so far make characters. -/
structure Spelling where
  reversed : List Char
  half : Option Nat
  readable : Bool

namespace Spelling

/-- This function adds a character. -/
def push (spelling : Spelling) (character : Char) : Spelling :=
  { reversed := character :: spelling.reversed, half := none,
    readable := spelling.readable && spelling.half.isNone }

/-- This function adds a code unit. -/
def pushUnit (spelling : Spelling) (unit : Nat) : Spelling :=
  match spelling.half with
  | some high =>
    if 0xDC00 ≤ unit ∧ unit ≤ 0xDFFF then
      { spelling with
        reversed := Char.ofNat (0x10000 + (high - 0xD800) * 1024 + (unit - 0xDC00)) :: spelling.reversed
        half := none }
    else { spelling with half := none, readable := false }
  | none =>
    if 0xD800 ≤ unit ∧ unit ≤ 0xDBFF then { spelling with half := some unit }
    else if 0xDC00 ≤ unit ∧ unit ≤ 0xDFFF then { spelling with readable := false }
    else spelling.push (Char.ofNat unit)

/-- This function gives the draft of a finished text. -/
def draft (spelling : Spelling) : Draft :=
  if spelling.readable && spelling.half.isNone then .text (String.ofList spelling.reversed.reverse)
  else .barred .null

/-- This function gives the key of a finished text. -/
def key (spelling : Spelling) : Option String :=
  if spelling.readable && spelling.half.isNone then some (String.ofList spelling.reversed.reverse)
  else none

end Spelling

/-- This function reads a text up to its closing quote and gives what follows. -/
def readText : Spelling → List Char → Option (Spelling × List Char)
  | _, [] => none
  | spelling, '"' :: rest => some (spelling, rest)
  | spelling, '\\' :: 'u' :: first :: second :: third :: fourth :: rest =>
    match hexCode first second third fourth with
    | none => none
    | some unit => readText (spelling.pushUnit unit) rest
  | spelling, '\\' :: mark :: rest =>
    match markedChar mark with
    | none => none
    | some character => readText (spelling.push character) rest
  | spelling, character :: rest =>
    if character.toNat < 0x20 then none else readText (spelling.push character) rest

/-- This function reads decimal digits and gives their values and what follows. -/
def readDigits (characters : List Char) : List Nat × List Char :=
  ((characters.takeWhile Char.isDigit).map fun digit => digit.toNat - 48,
    characters.dropWhile Char.isDigit)

/-- This function gives the number of a row of decimal digits. -/
def ofDigits (digits : List Nat) : Nat :=
  digits.foldl (fun value digit => value * 10 + digit) 0

/-- This bound is the largest number of 64 bits. -/
def maxWord : Nat := 0xffffffffffffffff

/-- This function takes leading digits into a number as long as it fits 64 bits, and gives the digits that
are left over. -/
def takeLeading : Nat → List Nat → Nat × List Nat
  | value, [] => (value, [])
  | value, digit :: digits =>
    if value * 10 + digit ≤ maxWord then takeLeading (value * 10 + digit) digits
    else (value, digit :: digits)

/-- This function reads the exponent of a number: its sign and digits. -/
def readExponent (characters : List Char) : Option (Int × List Char) :=
  let (negative, digits) :=
    match characters with
    | '-' :: rest => (true, rest)
    | '+' :: rest => (false, rest)
    | rest => (false, rest)
  match readDigits digits with
  | ([], _) => none
  | (values, rest) =>
    let size := ofDigits values
    some (if negative then -(size : Int) else (size : Int), rest)

/-- This function gives the number of leading digits and a power of ten, if it is in range. -/
def realNumber (negative : Bool) (significand : Nat) (exponent : Int) : Draft :=
  match Binary64.ofDecimal negative significand exponent with
  | some value => .number (.real value)
  | none => .barred .null

/-- This function gives the number of a row of digits without fraction and exponent. -/
def wholeNumber (negative : Bool) (digits : List Nat) : Draft :=
  let value := ofDigits digits
  let (significand, left) := takeLeading 0 digits
  if negative then
    if 0 < value ∧ value ≤ 0x8000000000000000 then .number (.whole (-(value : Int)))
    else realNumber true significand left.length
  else if value ≤ maxWord then .number (.whole value)
  else realNumber false significand left.length

/-- This function reads what may follow the whole part of a number. -/
def readRest (negative : Bool) (digits : List Nat) (characters : List Char) :
    Draft × Option (List Char) :=
  let (significand, left) := takeLeading 0 digits
  match characters with
  | '.' :: rest =>
    match readDigits rest with
    | ([], _) => (.fault, none)
    | (places, rest) =>
      let (significand, unused) := takeLeading significand places
      let exponent : Int := (left.length : Int) - ((places.length - unused.length : Nat) : Int)
      match rest with
      | 'e' :: rest | 'E' :: rest =>
        match readExponent rest with
        | none => (.fault, none)
        | some (power, rest) => (realNumber negative significand (exponent + power), some rest)
      | rest => (realNumber negative significand exponent, some rest)
  | 'e' :: rest | 'E' :: rest =>
    match readExponent rest with
    | none => (.fault, none)
    | some (power, rest) => (realNumber negative significand ((left.length : Int) + power), some rest)
  | rest => (wholeNumber negative digits, some rest)

/-- This function reads a number after its sign; a zero at the start stands alone. -/
def readNumber (negative : Bool) (characters : List Char) : Draft × Option (List Char) :=
  match readDigits characters with
  | ([], _) => (.fault, none)
  | ([0], rest) => readRest negative [0] rest
  | (0 :: _, _) => (.fault, none)
  | (digits, rest) => readRest negative digits rest

/-- This bound is the number of containers that may be open around a value. -/
def maxDepth : Nat := 127

/-- This function bars a container that too many others enclose. -/
def limit (depth : Nat) (container : Draft) : Draft :=
  if depth < maxDepth then container else .barred container

mutual

/-- This function reads a value with a bound on the steps; the rest is missing when the text is broken. -/
def readValue : Nat → Nat → List Char → Draft × Option (List Char)
  | 0, _, _ => (.fault, none)
  | steps + 1, depth, characters =>
    match dropGap characters with
    | 'n' :: 'u' :: 'l' :: 'l' :: rest => (.null, some rest)
    | 't' :: 'r' :: 'u' :: 'e' :: rest => (.bool true, some rest)
    | 'f' :: 'a' :: 'l' :: 's' :: 'e' :: rest => (.bool false, some rest)
    | '"' :: rest =>
      match readText ⟨[], none, true⟩ rest with
      | none => (.fault, none)
      | some (spelling, rest) => (spelling.draft, some rest)
    | '[' :: rest =>
      match dropGap rest with
      | ']' :: rest => (limit depth (.array []), some rest)
      | rest =>
        let (items, left) := readItems steps (depth + 1) rest
        (limit depth (.array items), left)
    | '\x7b' :: rest =>
      match dropGap rest with
      | '\x7d' :: rest => (limit depth (.object []), some rest)
      | rest =>
        let (members, left) := readMembers steps (depth + 1) rest
        (limit depth (.object members), left)
    | '-' :: rest => readNumber true rest
    | rest => readNumber false rest

/-- This function reads the items of an array that has some. -/
def readItems : Nat → Nat → List Char → List Draft × Option (List Char)
  | 0, _, _ => ([.fault], none)
  | steps + 1, depth, characters =>
    match readValue steps depth characters with
    | (item, none) => ([item], none)
    | (item, some rest) =>
      match dropGap rest with
      | ']' :: rest => ([item], some rest)
      | ',' :: rest =>
        let (items, left) := readItems steps depth rest
        (item :: items, left)
      | _ => ([item, .fault], none)

/-- This function reads the members of an object that has some. -/
def readMembers : Nat → Nat → List Char → List (Option String × Draft) × Option (List Char)
  | 0, _, _ => ([(none, .fault)], none)
  | steps + 1, depth, characters =>
    match dropGap characters with
    | '"' :: rest =>
      match readText ⟨[], none, true⟩ rest with
      | none => ([(none, .fault)], none)
      | some (spelling, rest) =>
        match dropGap rest with
        | ':' :: rest =>
          match readValue steps depth rest with
          | (value, none) => ([(spelling.key, value)], none)
          | (value, some rest) =>
            match dropGap rest with
            | '\x7d' :: rest => ([(spelling.key, value)], some rest)
            | ',' :: rest =>
              let (members, left) := readMembers steps depth rest
              ((spelling.key, value) :: members, left)
            | _ => ([(spelling.key, value), (none, .fault)], none)
        | _ => ([(spelling.key, .fault)], none)
    | _ => ([(none, .fault)], none)

end

/-- This function reads the value at the start of a text and gives what follows it. -/
def readStart (text : String) : Draft × Option (List Char) :=
  let characters := text.toList
  readValue (2 * characters.length + 2) 0 characters

/-- This function reads a text that holds one value. -/
def read (text : String) : Draft :=
  match readStart text with
  | (draft, some rest) => if (dropGap rest).isEmpty then draft else .fault
  | (draft, none) => draft

end Draft

/-- This function reads a text as a value. -/
def Json.read (text : String) : Option Json :=
  (Draft.read text).value?

end ContractWorks

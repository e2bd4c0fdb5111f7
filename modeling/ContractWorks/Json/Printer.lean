import ContractWorks.Json.Basic
import ContractWorks.Text.Hex

namespace ContractWorks.Json

/-- A layout is compact, or has one line for each item and member. -/
inductive Layout where
  | compact
  | indented
  deriving DecidableEq, Repr

/-- This function gives what stands between two parts at a depth. -/
def Layout.gap : Layout → Nat → List Char
  | .compact, _ => []
  | .indented, depth => '\n' :: List.replicate (2 * depth) ' '

/-- This function gives what stands between a key and its value. -/
def Layout.colon : Layout → List Char
  | .compact => [':']
  | .indented => [':', ' ']

/-- This function writes one character of a text. -/
def escapeChar (character : Char) : List Char :=
  if character = '"' then ['\\', '"']
  else if character = '\\' then ['\\', '\\']
  else if character = '\x08' then ['\\', 'b']
  else if character = '\x0c' then ['\\', 'f']
  else if character = '\n' then ['\\', 'n']
  else if character = '\r' then ['\\', 'r']
  else if character = '\t' then ['\\', 't']
  else if character.toNat < 0x20 then
    ['\\', 'u', '0', '0'] ++ Text.Hex.octet (UInt8.ofNat character.toNat)
  else [character]

/-- This function writes a text between quotes. -/
def textChars (text : String) : List Char :=
  '"' :: (text.toList.flatMap escapeChar ++ ['"'])

/-- This function writes a number. -/
def Number.text : Number → String
  | .whole value => toString value
  | .real value => value.text

mutual

/-- This function writes a value that starts at a depth. -/
def chars (layout : Layout) (depth : Nat) : Json → List Char
  | .null => ['n', 'u', 'l', 'l']
  | .bool true => ['t', 'r', 'u', 'e']
  | .bool false => ['f', 'a', 'l', 's', 'e']
  | .number value => value.text.toList
  | .text value => textChars value
  | .array [] => ['[', ']']
  | .array (item :: items) =>
    '[' :: (layout.gap (depth + 1) ++ chars layout (depth + 1) item ++
      itemChars layout (depth + 1) items ++ layout.gap depth ++ [']'])
  | .object [] => ['\x7b', '\x7d']
  | .object ((key, value) :: members) =>
    '\x7b' :: (layout.gap (depth + 1) ++ textChars key ++ layout.colon ++
      chars layout (depth + 1) value ++ memberChars layout (depth + 1) members ++
      layout.gap depth ++ ['\x7d'])

/-- This function writes the items after the first one. -/
def itemChars (layout : Layout) (depth : Nat) : List Json → List Char
  | [] => []
  | item :: items =>
    ',' :: (layout.gap depth ++ chars layout depth item ++ itemChars layout depth items)

/-- This function writes the members after the first one. -/
def memberChars (layout : Layout) (depth : Nat) : List (String × Json) → List Char
  | [] => []
  | (key, value) :: members =>
    ',' :: (layout.gap depth ++ textChars key ++ layout.colon ++ chars layout depth value ++
      memberChars layout depth members)

end

/-- This function writes a value without any gap. -/
def compact (value : Json) : String :=
  String.ofList (chars .compact 0 value)

/-- This function writes a value with two spaces for each depth. -/
def indented (value : Json) : String :=
  String.ofList (chars .indented 0 value)

end ContractWorks.Json

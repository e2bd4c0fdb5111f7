import ContractWorks.Settings.Variable
import ContractWorks.Text.Hex

namespace ContractWorks.Yaml

/-- This test holds of the blanks within a line. -/
def isGap (character : Char) : Bool :=
  character = ' ' || character = '\t'

/-- This function passes blanks. -/
def dropGap (characters : List Char) : List Char :=
  characters.dropWhile isGap

/-- This function leaves out the blanks at the end. -/
def trimGap (characters : List Char) : List Char :=
  (characters.reverse.dropWhile isGap).reverse

/-- This function reads a whole number in a given base, perhaps with a sign, that fits 64 bits with a sign. -/
def readInBase (base : Nat) (characters : List Char) : Option SettingTree :=
  let (negative, digits) :=
    match characters with
    | '-' :: digits => (true, digits)
    | '+' :: digits => (false, digits)
    | digits => (false, digits)
  let values := digits.map fun digit => (Text.Hex.value? digit.toNat).getD base
  let size := values.foldl (fun value digit => value * base + digit) 0
  let value : Int := if negative then -size else size
  if values ≠ [] ∧ values.all (· < base) ∧ -0x8000000000000000 ≤ value ∧ value < 0x8000000000000000 then
    some (.whole value)
  else none

/-- This function reads a whole number with a mark for its base or with a sign. -/
def readWhole : List Char → Option SettingTree
  | '0' :: 'x' :: digits => readInBase 16 digits
  | '0' :: 'o' :: digits => readInBase 8 digits
  | '+' :: digits => readInBase 10 digits
  | digits => readInBase 10 digits

/-- These words stand for quantities without digits; no setting can be made of them. -/
def nameless : List String :=
  [".inf", ".Inf", ".INF", "+.inf", "+.Inf", "+.INF", "-.inf", "-.Inf", "-.INF", ".nan", ".NAN"]

/-- This function finds out what a text without quotes stands for. -/
def ofPlain (characters : List Char) : Option SettingTree :=
  let word := String.ofList characters
  if ["", "~", "null"].contains word then some .unset
  else if ["true", "True", "TRUE"].contains word then some (.truth true)
  else if ["false", "False", "FALSE"].contains word then some (.truth false)
  else if nameless.contains word then none
  else
    match readWhole characters with
    | some tree => some tree
    | none =>
      let quantity := if word = "NaN" || characters.any Char.isDigit then
        SettingTree.readQuantity characters else none
      some ((quantity.map SettingTree.quantity).getD (.text word))

/-- This function gives the key that a text without quotes stands for. -/
def keyOfPlain (characters : List Char) : Option String :=
  match ofPlain characters with
  | some .unset => none
  | some (.truth value) => some (if value then "true" else "false")
  | some (.whole value) => some (toString value)
  | _ => some (String.ofList characters)

/-- This function reads a text up to its closing single quote; two of them stand for one. -/
def readSingle : List Char → Option (List Char × List Char)
  | '\x27' :: '\x27' :: rest => (readSingle rest).map fun (text, rest) => ('\x27' :: text, rest)
  | '\x27' :: rest => some ([], rest)
  | character :: rest => (readSingle rest).map fun (text, rest) => (character :: text, rest)
  | [] => none

/-- This table gives the characters that marks after a backslash stand for. -/
def marks : List (Char × Char) :=
  [('0', '\x00'), ('a', '\x07'), ('b', '\x08'), ('t', '\t'), ('\t', '\t'), ('n', '\n'), ('v', '\x0B'),
   ('f', '\x0C'), ('r', '\x0D'), ('e', '\x1B'), (' ', ' '), ('"', '"'), ('/', '/'), ('\\', '\\'),
   ('N', '\u0085'), ('_', '\u00A0'), ('L', '\u2028'), ('P', '\u2029')]

/-- This function reads the character after a backslash. -/
def readEscape : List Char → Option (Char × List Char)
  | 'x' :: rest => Text.Hex.readChar 2 rest
  | 'u' :: rest => Text.Hex.readChar 4 rest
  | 'U' :: rest => Text.Hex.readChar 8 rest
  | mark :: rest => (marks.lookup mark).map fun character => (character, rest)
  | [] => none

/-- This function reads a text up to its closing double quote. -/
def readDouble : Nat → List Char → List Char → Option (List Char × List Char)
  | 0, _, _ => none
  | _, _, [] => none
  | _ + 1, reversed, '"' :: rest => some (reversed.reverse, rest)
  | fuel + 1, reversed, '\\' :: rest =>
    match readEscape rest with
    | some (character, rest) => readDouble fuel (character :: reversed) rest
    | none => none
  | fuel + 1, reversed, character :: rest => readDouble fuel (character :: reversed) rest

/-- This function reads a text in quotes. -/
def readQuoted : List Char → Option (List Char × List Char)
  | '"' :: rest => readDouble (rest.length + 1) [] rest
  | '\x27' :: rest => readSingle rest
  | _ => none

/-- This test holds of the characters around and between the values of a collection in brackets. -/
def isBracket (character : Char) : Bool :=
  [',', '[', ']', '{', '}'].contains character

/-- This test asks whether a text may begin without quotes. -/
def startsPlain : List Char → Bool
  | [] => false
  | first :: rest =>
    if first = '-' || first = '?' || first = ':' then
      match rest with
      | [] => false
      | second :: _ => !isGap second
    else !isGap first && !isBracket first && !"#&*!|>\x27\"%@\x60".toList.contains first

end ContractWorks.Yaml

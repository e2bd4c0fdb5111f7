import ContractWorks.Settings.Remark
import ContractWorks.Settings.Variable
import ContractWorks.Text.Blank
import ContractWorks.Text.Hex

namespace ContractWorks.Json5

/-- This test holds of the characters that end a line. -/
def endsLine (character : Char) : Bool :=
  ['\n', '\r', '\u2028', '\u2029'].contains character

/-- This function passes blanks and remarks. -/
def dropFiller (characters : List Char) : Option (List Char) :=
  Settings.dropRemarks
    (fun character => Text.isBlank character && character ≠ '\u0085' || character = '\uFEFF') false
    (characters.length + 1) characters

/-- This function reads what stands behind a backslash. The end of a line stands for nothing, and other characters
stand for themselves. -/
def readEscape : List Char → Option (List Char × List Char)
  | 'x' :: rest => (Text.Hex.readChar 2 rest).map fun (character, rest) => ([character], rest)
  | 'u' :: rest => (Text.Hex.readChar 4 rest).map fun (character, rest) => ([character], rest)
  | '\r' :: '\n' :: rest => some ([], rest)
  | mark :: rest =>
    let marks := [('0', '\x00'), ('b', '\x08'), ('f', '\x0C'), ('n', '\n'), ('r', '\x0D'), ('t', '\t'),
      ('v', '\x0B')]
    if endsLine mark then some ([], rest)
    else if mark.isDigit && mark ≠ '0' then none
    else some ([(marks.lookup mark).getD mark], rest)
  | [] => none

/-- This function reads a text up to its closing quote. -/
def readText (quote : Char) : Nat → List Char → Option (List Char × List Char)
  | 0, _ => none
  | _, [] => none
  | fuel + 1, character :: rest =>
    if character = quote then some ([], rest)
    else if endsLine character then none
    else do
      let (found, rest) ← if character = '\\' then readEscape rest else some ([character], rest)
      let (text, rest) ← readText quote fuel rest
      some (found ++ text, rest)

/-- This test holds of the characters of a name; a digit does not come first. -/
def isNameChar (character : Char) : Bool :=
  character.isAlphanum || character = '$' || character = '_' || 0x80 ≤ character.toNat

/-- This function reads a name. -/
def readName (characters : List Char) : Option (List Char × List Char) :=
  let name := characters.takeWhile isNameChar
  match name with
  | [] => none
  | first :: _ => if first.isDigit then none else some (name, characters.drop name.length)

/-- This function reads the name of a member, which may stand in quotes. -/
def readKey (characters : List Char) : Option (String × List Char) :=
  let found :=
    match characters with
    | '"' :: rest => readText '"' (rest.length + 1) rest
    | '\x27' :: rest => readText '\x27' (rest.length + 1) rest
    | _ => readName characters
  found.map fun (key, rest) => (.ofList key, rest)

/-- This test holds of the characters of a number. -/
def isNumberChar (character : Char) : Bool :=
  character.isAlphanum || character = '+' || character = '-' || character = '.'

/-- This function makes a number of its digits: whole if it has neither a point nor an exponent. -/
def ofDigits (negative : Bool) (digits : List Char) : Option SettingTree :=
  let signed := if negative then '-' :: digits else digits
  let leads :=
    match digits with
    | '0' :: second :: _ => !second.isDigit
    | first :: _ => first.isDigit || first = '.'
    | [] => false
  if !leads then none
  else if digits.all Char.isDigit then (SettingTree.readWhole signed).map .whole
  else (SettingTree.readDecimal negative digits).map .quantity

/-- This function makes a whole number of hexadecimal digits. -/
def ofHexDigits (negative : Bool) (digits : List Char) : Option SettingTree := do
  let values ← digits.mapM fun digit => Text.Hex.value? digit.toNat
  let size : Nat := values.foldl (fun value digit => value * 16 + digit) 0
  if values.isEmpty || 0x100000000 ≤ size then none
  else some (.whole (if negative then -(size : Int) else size))

/-- This function reads a number. -/
def readNumber (characters : List Char) : Option (SettingTree × List Char) :=
  let word := characters.takeWhile isNumberChar
  let (negative, size) :=
    match word with
    | '-' :: size => (true, size)
    | '+' :: size => (false, size)
    | size => (false, size)
  let tree :=
    match size with
    | '0' :: 'x' :: digits => ofHexDigits negative digits
    | '0' :: 'X' :: digits => ofHexDigits negative digits
    | digits =>
      if digits = "Infinity".toList then some (.quantity (.infinite negative))
      else if digits = "NaN".toList then some (.quantity .undefined)
      else ofDigits negative digits
  tree.map fun tree => (tree, characters.drop word.length)

/-- This function reads a word or a number. -/
def readPlain : List Char → Option (SettingTree × List Char)
  | 'n' :: 'u' :: 'l' :: 'l' :: rest => some (.unset, rest)
  | 't' :: 'r' :: 'u' :: 'e' :: rest => some (.truth true, rest)
  | 'f' :: 'a' :: 'l' :: 's' :: 'e' :: rest => some (.truth false, rest)
  | characters => readNumber characters

mutual

/-- This function reads a value and gives what follows it. -/
def readValue : Nat → List Char → Option (SettingTree × List Char)
  | 0, _ => none
  | fuel + 1, characters => do
    match ← dropFiller characters with
    | '[' :: rest => (readItems fuel rest).map fun (items, rest) => (.list items, rest)
    | '{' :: rest => (readPairs fuel [] rest).map fun (members, rest) => (.group members, rest)
    | '"' :: rest =>
      (readText '"' (rest.length + 1) rest).map fun (text, rest) => (.text (.ofList text), rest)
    | '\x27' :: rest =>
      (readText '\x27' (rest.length + 1) rest).map fun (text, rest) => (.text (.ofList text), rest)
    | start => readPlain start

/-- This function reads the items of a list up to its closing bracket. -/
def readItems : Nat → List Char → Option (List SettingTree × List Char)
  | 0, _ => none
  | fuel + 1, characters => do
    match ← dropFiller characters with
    | ']' :: rest => some ([], rest)
    | start =>
      let (item, rest) ← readValue fuel start
      match ← dropFiller rest with
      | ',' :: rest =>
        let (items, rest) ← readItems fuel rest
        some (item :: items, rest)
      | ']' :: rest => some ([item], rest)
      | _ => none

/-- This function reads names with their values up to a closing brace; the last value of a name counts. -/
def readPairs : Nat → Table String SettingTree → List Char →
    Option (Table String SettingTree × List Char)
  | 0, _, _ => none
  | fuel + 1, members, characters => do
    match ← dropFiller characters with
    | '}' :: rest => some (members, rest)
    | start =>
      let (key, rest) ← readKey start
      match ← dropFiller rest with
      | ':' :: rest =>
        let (value, rest) ← readValue fuel rest
        let members := Table.insert key value members
        match ← dropFiller rest with
        | ',' :: rest => readPairs fuel members rest
        | '}' :: rest => some (members, rest)
        | _ => none
      | _ => none

end

/-- This function reads a text that is one value. -/
def read (text : String) : Option SettingTree := do
  let (tree, rest) ← readValue (2 * text.length + 2) text.toList
  if (← dropFiller rest).isEmpty then some tree else none

end ContractWorks.Json5

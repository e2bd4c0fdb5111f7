import ContractWorks.Settings.Remark
import ContractWorks.Settings.Variable
import ContractWorks.Text.Hex

namespace ContractWorks.Ron

/-- This function passes blanks and remarks. -/
def dropFiller (characters : List Char) : Option (List Char) :=
  Settings.dropRemarks (fun character => [' ', '\t', '\n', '\r'].contains character) true
    (characters.length + 1) characters

/-- This function reads hexadecimal digits between braces as the code of a character. -/
def readBraced (characters : List Char) : Option (Char × List Char) :=
  let digits := characters.takeWhile (· ≠ '}')
  match Text.Hex.readChar digits.length digits, characters.drop digits.length with
  | some (character, []), '}' :: rest => some (character, rest)
  | _, _ => none

/-- This function reads the character behind a backslash. -/
def readEscape : List Char → Option (Char × List Char)
  | 'x' :: rest => Text.Hex.readChar 2 rest
  | 'u' :: '{' :: rest => readBraced rest
  | mark :: rest =>
    let marks := [('\x27', '\x27'), ('"', '"'), ('\\', '\\'), ('n', '\n'), ('r', '\x0D'), ('t', '\t'), ('0', '\x00')]
    (marks.lookup mark).map fun character => (character, rest)
  | [] => none

/-- This function reads a text up to its closing quote. -/
def readText (quote : Char) : Nat → List Char → Option (List Char × List Char)
  | 0, _ => none
  | _, [] => none
  | fuel + 1, character :: rest =>
    if character = quote then some ([], rest)
    else do
      let (found, rest) ← if character = '\\' then readEscape rest else some (character, rest)
      let (text, rest) ← readText quote fuel rest
      some (found :: text, rest)

/-- This test holds of the characters of a name; a digit does not come first. -/
def isNameChar (character : Char) : Bool :=
  character.isAlphanum || character = '_'

/-- This function reads a name. -/
def readName (characters : List Char) : Option (String × List Char) :=
  let name := characters.takeWhile isNameChar
  match name with
  | [] => none
  | first :: _ => if first.isDigit then none else some (.ofList name, characters.drop name.length)

/-- This test holds of the characters of a number. -/
def isNumberChar (character : Char) : Bool :=
  character.isAlphanum || ['+', '-', '.', '_'].contains character

/-- This function makes a whole number of digits in a base. -/
def ofDigits (base : Nat) (negative : Bool) (digits : List Char) : Option SettingTree := do
  let values ← digits.mapM fun digit => Text.Hex.value? digit.toNat
  let size : Nat := values.foldl (fun value digit => value * base + digit) 0
  if values.isEmpty || !values.all (· < base) || 0x8000000000000000 ≤ size then none
  else some (.whole (if negative then -(size : Int) else size))

/-- This function reads a number; underscores in it do not count. -/
def readNumber (characters : List Char) : Option (SettingTree × List Char) :=
  let word := characters.takeWhile isNumberChar
  let (negative, size) :=
    match word.filter (· ≠ '_') with
    | '-' :: size => (true, size)
    | '+' :: size => (false, size)
    | size => (false, size)
  let tree :=
    match size with
    | '0' :: 'x' :: digits => ofDigits 16 negative digits
    | '0' :: 'o' :: digits => ofDigits 8 negative digits
    | '0' :: 'b' :: digits => ofDigits 2 negative digits
    | digits =>
      if digits.all Char.isDigit then ofDigits 10 negative digits
      else (SettingTree.readDecimal negative digits).map .quantity
  tree.map fun tree => (tree, characters.drop word.length)

/-- This function finds what a single word stands for; the name of a structure without fields stands for nothing. -/
def ofWord (word : String) : SettingTree :=
  match word with
  | "true" => .truth true
  | "false" => .truth false
  | "inf" => .quantity (.infinite false)
  | "NaN" => .quantity .undefined
  | _ => .unset

/-- This test asks whether fields with names follow: a name and a colon. -/
def hasNames (characters : List Char) : Bool :=
  match readName characters with
  | some (_, rest) => ((dropFiller rest).bind List.head?) = some ':'
  | none => false

mutual

/-- This function reads a value and gives what follows it. -/
def readValue : Nat → List Char → Option (SettingTree × List Char)
  | 0, _ => none
  | fuel + 1, characters => do
    match ← dropFiller characters with
    | '[' :: rest => (readItems ']' fuel rest).map fun (items, rest) => (.list items, rest)
    | '{' :: rest => (readPairs '}' fuel [] rest).map fun (members, rest) => (.group members, rest)
    | '(' :: rest => readFields fuel rest
    | '"' :: rest =>
      (readText '"' (rest.length + 1) rest).map fun (text, rest) => (.text (.ofList text), rest)
    | start =>
      match readName start with
      | none => readNumber start
      | some (word, rest) =>
        match ← dropFiller rest with
        | '(' :: inner =>
          if word = "Some" then do
            let (tree, rest) ← readValue fuel inner
            match ← dropFiller rest with
            | ')' :: rest => some (tree, rest)
            | _ => none
          else readFields fuel inner
        | _ => some (ofWord word, rest)

/-- This function reads the fields of a structure, with names or without, up to its closing bracket. -/
def readFields : Nat → List Char → Option (SettingTree × List Char)
  | 0, _ => none
  | fuel + 1, characters => do
    match ← dropFiller characters with
    | ')' :: rest => some (.unset, rest)
    | start =>
      if hasNames start then
        (readPairs ')' fuel [] start).map fun (members, rest) => (.group members, rest)
      else (readItems ')' fuel start).map fun (items, rest) => (.list items, rest)

/-- This function reads items up to a closing bracket. -/
def readItems : Char → Nat → List Char → Option (List SettingTree × List Char)
  | _, 0, _ => none
  | closing, fuel + 1, characters => do
    match ← dropFiller characters with
    | [] => none
    | first :: start =>
      if first = closing then some ([], start)
      else
        let (item, rest) ← readValue fuel (first :: start)
        match ← dropFiller rest with
        | ',' :: rest =>
          let (items, rest) ← readItems closing fuel rest
          some (item :: items, rest)
        | last :: rest => if last = closing then some ([item], rest) else none
        | [] => none

/-- This function reads keys with their values up to a closing bracket; the last value of a key counts. In braces
the keys are texts. -/
def readPairs : Char → Nat → Table String SettingTree → List Char →
    Option (Table String SettingTree × List Char)
  | _, 0, _, _ => none
  | closing, fuel + 1, members, characters => do
    match ← dropFiller characters with
    | [] => none
    | first :: start =>
      if first = closing then some (members, start)
      else
        let (key, rest) ←
          if closing = ')' then readName (first :: start)
          else if first = '"' then
            (readText '"' (start.length + 1) start).map fun (key, rest) => (String.ofList key, rest)
          else none
        match ← dropFiller rest with
        | ':' :: rest =>
          let (value, rest) ← readValue fuel rest
          let members := Table.insert key value members
          match ← dropFiller rest with
          | ',' :: rest => readPairs closing fuel members rest
          | last :: rest => if last = closing then some (members, rest) else none
          | [] => none
        | _ => none

end

/-- This function reads a text that is one value. -/
def read (text : String) : Option SettingTree := do
  let (tree, rest) ← readValue (3 * text.length + 3) text.toList
  if (← dropFiller rest).isEmpty then some tree else none

end ContractWorks.Ron

import ContractWorks.Settings.Toml.Lexeme
import ContractWorks.Settings.Toml.Scalar
import ContractWorks.Settings.Toml.Section

namespace ContractWorks.Toml

/-- This bound limits how deep values may stand inside each other and how many parts a key may have. -/
def depthLimit : Nat := 79

/-- This test holds of the characters of a key without quotes. -/
def isKeyChar (character : Char) : Bool :=
  character.isAlphanum || character = '_' || character = '-'

/-- This function reads one part of a key. -/
def readKeyPart (characters : List Char) : Option (String × List Char) :=
  match characters with
  | '"' :: _ => (readShort characters).map fun (part, rest) => (.ofList part, rest)
  | '\x27' :: _ => (readShort characters).map fun (part, rest) => (.ofList part, rest)
  | _ =>
    let part := characters.takeWhile isKeyChar
    if part.isEmpty then none else some (.ofList part, characters.drop part.length)

/-- This function reads a key: parts with points between them, at most as many as `parts` says. -/
def readKey : Nat → List Char → Option (List String × List Char)
  | 0, _ => none
  | parts + 1, characters => do
    let (first, rest) ← readKeyPart (dropGap characters)
    match dropGap rest with
    | '.' :: rest =>
      let (others, rest) ← readKey parts rest
      some (first :: others, rest)
    | rest => some ([first], rest)

/-- This function reads a key and the equals sign after it. -/
def readKeySign (characters : List Char) : Option (List String × List Char) := do
  let (key, rest) ← readKey depthLimit characters
  match rest with
  | '=' :: rest => some (key, dropGap rest)
  | _ => none

/-- This function reads a truth value or a number. -/
def readPlain : List Char → Option (SettingTree × List Char)
  | 't' :: 'r' :: 'u' :: 'e' :: rest => some (.truth true, rest)
  | 'f' :: 'a' :: 'l' :: 's' :: 'e' :: rest => some (.truth false, rest)
  | characters =>
    ((readMoment characters).or (readQuantity characters)).or (readWhole characters)

mutual

/-- This function reads a value and gives what follows it. -/
def readValue : Nat → Nat → List Char → Option (SettingTree × List Char)
  | 0, _, _ => none
  | fuel + 1, depth, '[' :: rest =>
    if depth = 0 then none
    else (readItems fuel (depth - 1) rest).map fun (items, rest) => (.list items, rest)
  | fuel + 1, depth, '{' :: rest =>
    if depth = 0 then none
    else
      match dropGap rest with
      | '}' :: rest => some (.group [], rest)
      | rest =>
        (readPairs fuel (depth - 1) [] rest).map fun (members, rest) => (members.toTree, rest)
  | _ + 1, _, characters =>
    match characters with
    | '"' :: _ => (readText characters).map fun (text, rest) => (.text (.ofList text), rest)
    | '\x27' :: _ => (readText characters).map fun (text, rest) => (.text (.ofList text), rest)
    | _ => readPlain characters

/-- This function reads the items of a list up to its closing bracket. -/
def readItems : Nat → Nat → List Char → Option (List SettingTree × List Char)
  | 0, _, _ => none
  | fuel + 1, depth, characters =>
    match dropFiller (characters.length + 1) characters with
    | ']' :: rest => some ([], rest)
    | start => do
      let (item, rest) ← readValue fuel depth start
      match dropFiller (rest.length + 1) rest with
      | ',' :: rest =>
        let (items, rest) ← readItems fuel depth rest
        some (item :: items, rest)
      | ']' :: rest => some ([item], rest)
      | _ => none

/-- This function reads keys and values up to a closing brace. -/
def readPairs : Nat → Nat → Section → List Char → Option (Section × List Char)
  | 0, _, _, _ => none
  | fuel + 1, depth, members, characters => do
    let (key, rest) ← readKeySign characters
    let (value, rest) ← readValue fuel depth rest
    let members ← members.setValue key value .header
    match dropGap rest with
    | ',' :: rest => readPairs fuel depth members rest
    | '}' :: rest => some (members, rest)
    | _ => none

end

/-- A page holds what the lines so far have set, and the path of the section that is open. -/
structure Page where
  root : Section := []
  here : List String := []

namespace Page

/-- This function opens a section or the next one of a row. -/
def openHeader (page : Page) (isRow : Bool) (key : List String) : Option Page := do
  let root ← if isRow then page.root.openNext key else page.root.openSingle key
  some { root, here := key }

/-- This function sets a value in the section that is open. -/
def setValue (page : Page) (key : List String) (value : SettingTree) : Option Page := do
  let root ← Section.changeAt .stage (Section.setValue key value) page.here .header page.root
  some { page with root }

/-- This function reads a header, after its first bracket. -/
def readHeader (page : Page) (characters : List Char) : Option (Page × List Char) :=
  let (isRow, start) :=
    match characters with
    | '[' :: start => (true, start)
    | start => (false, start)
  do
    let (key, rest) ← readKey depthLimit start
    let rest ← dropMark ']' rest
    let rest ← if isRow then dropMark ']' rest else some rest
    let rest ← endLine rest
    let page ← page.openHeader isRow key
    some (page, rest)

/-- This function reads a key with its value. -/
def readPair (page : Page) (characters : List Char) : Option (Page × List Char) := do
  let (key, rest) ← readKeySign characters
  let (value, rest) ← readValue (2 * rest.length + 2) depthLimit rest
  let rest ← endLine rest
  let page ← page.setValue key value
  some (page, rest)

/-- This function reads one statement, which may be empty. -/
def readStatement (page : Page) (characters : List Char) : Option (Page × List Char) :=
  match dropGap characters with
  | '[' :: rest => page.readHeader rest
  | '#' :: rest => (endLine ('#' :: rest)).map fun rest => (page, rest)
  | start =>
    match dropBreak start with
    | some rest => some (page, rest)
    | none => page.readPair start

/-- This function reads statements up to the end of a text. -/
def readStatements : Nat → Page → List Char → Option Page
  | 0, _, _ => none
  | fuel + 1, page, characters =>
    if (dropGap characters).isEmpty then some page
    else
      match page.readStatement characters with
      | some (page, rest) => readStatements fuel page rest
      | none => none

end Page

/-- This function reads a text of sections, keys and values. A mark of the order of octets may come first. -/
def read (text : String) : Option SettingTree :=
  let characters :=
    match text.toList with
    | '\uFEFF' :: rest => rest
    | characters => characters
  (Page.readStatements (characters.length + 1) {} characters).map fun page => page.root.toTree

end ContractWorks.Toml

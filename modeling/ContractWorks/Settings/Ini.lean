import ContractWorks.Settings.Tree
import ContractWorks.Text.Blank
import ContractWorks.Text.Hex

namespace ContractWorks.Ini

/-- This function gives the character that a mark after a backslash stands for. -/
def marked : Char → Char
  | '0' => '\x00'
  | 'a' => '\x07'
  | 'b' => '\x08'
  | 't' => '\t'
  | 'r' => '\x0D'
  | 'n' => '\n'
  | mark => mark

/-- This function reads the characters that stand behind a backslash; the end of a line stands for none. -/
def readEscape : List Char → Option (List Char × List Char)
  | '\n' :: rest => some ([], rest)
  | 'x' :: rest => (Text.Hex.readChar 4 rest).map fun (character, rest) => ([character], rest)
  | mark :: rest => some ([marked mark], rest)
  | [] => none

/-- This function reads up to one of some characters, which is left; `closed` says whether there has to be one. -/
def readUntil (ends : List Char) (closed : Bool) : Nat → List Char → Option (List Char × List Char)
  | 0, _ => none
  | _, [] => if closed then none else some ([], [])
  | fuel + 1, character :: rest =>
    if ends.contains character then some ([], character :: rest)
    else do
      let (found, rest) ← if character = '\\' then readEscape rest else some ([character], rest)
      let (text, rest) ← readUntil ends closed fuel rest
      some (found ++ text, rest)

/-- This function reads the rest of a value on its line; parts in quotes keep their blanks. -/
def readParts (first : Bool) : Nat → List Char → Option (List Char × List Char)
  | 0, _ => none
  | _, [] => some ([], [])
  | fuel + 1, character :: rest =>
    if character = '"' || character = '\x27' then do
      let (part, rest) ← readUntil [character] true (rest.length + 1) rest
      let (others, rest) ← readParts false fuel (rest.drop 1)
      some (part ++ others, rest)
    else do
      let (part, rest) ← readUntil ['\n', '\r'] false (rest.length + 2) (character :: rest)
      some (Text.dropTrailingBlanks (if first then Text.dropBlanks part else part), rest)

/-- This function reads a value after the sign that stands before it. -/
def readValue (characters : List Char) : Option (List Char × List Char) :=
  let start := characters.dropWhile fun character =>
    Text.isBlank character && character ≠ '\n' && character ≠ '\r'
  readParts true (start.length + 1) start

/-- This function trims a name. -/
def trimmed (characters : List Char) : String :=
  String.ofList (Text.dropTrailingBlanks (Text.dropBlanks characters))

/-- A page holds the sections so far and the name of the one that is open. -/
structure Page where
  root : Table String SettingTree := []
  here : Option String := none

namespace Page

/-- This function opens a section, which takes the place of an earlier one of its name. -/
def openSection (page : Page) (name : String) : Page :=
  { root := Table.insert name (.group []) page.root, here := some name }

/-- This function sets a value in the section that is open. -/
def setValue (page : Page) (key : String) (value : List Char) : Page :=
  let tree := SettingTree.text (.ofList value)
  match page.here with
  | none => { page with root := Table.insert key tree page.root }
  | some name =>
    let members := ((Table.get? name page.root).getD .unset).members
    { page with root := Table.insert name (.group (Table.insert key tree members)) page.root }

/-- This function reads statements up to the end of a text. A remark stands at the start of a line only, and
`atStart` tells whether that is here. -/
def readStatements : Nat → (atStart : Bool) → Page → List Char → Option Page
  | 0, _, _, _ => none
  | _, _, page, [] => some page
  | fuel + 1, atStart, page, character :: rest =>
    if Text.isBlank character then readStatements fuel (character = '\n') page rest
    else if character = ';' || character = '#' then
      if atStart then readStatements fuel false page (rest.dropWhile (· ≠ '\n')) else none
    else if character = '[' then do
      let (name, rest) ← readUntil [']'] true (rest.length + 1) rest
      readStatements fuel false (page.openSection (trimmed name)) (rest.drop 1)
    else do
      let (key, rest) ← readUntil ['=', ':'] true (rest.length + 2) (character :: rest)
      let (value, rest) ← readValue (rest.drop 1)
      if (trimmed key).isEmpty then none
      else readStatements fuel false (page.setValue (trimmed key) value) rest

end Page

/-- This function reads a text of sections, keys and values; all values are texts. -/
def read (text : String) : Option SettingTree :=
  (Page.readStatements (text.length + 1) true {} text.toList).map fun page => .group page.root

end ContractWorks.Ini

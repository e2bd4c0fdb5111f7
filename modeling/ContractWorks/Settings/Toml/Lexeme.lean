import ContractWorks.Text.Hex

namespace ContractWorks.Toml

/-- This test holds of the blanks that may stand between the parts of a line. -/
def isGap (character : Char) : Bool :=
  character = ' ' || character = '\t'

/-- This function passes blanks. -/
def dropGap (characters : List Char) : List Char :=
  characters.dropWhile isGap

/-- This test holds of the characters that may stand neither in a text nor in a comment. -/
def isControl (character : Char) : Bool :=
  (character.toNat < 0x20 && character ≠ '\t') || character.toNat = 0x7F

/-- This function passes the end of a line. A carriage return ends no line by itself. -/
def dropBreak : List Char → Option (List Char)
  | '\n' :: rest => some rest
  | '\r' :: '\n' :: rest => some rest
  | _ => none

/-- This function passes a comment, if there is one. -/
def dropComment : List Char → List Char
  | '#' :: rest => rest.dropWhile fun character => !isControl character
  | characters => characters

/-- This function passes what may follow a statement on its line. -/
def endLine (characters : List Char) : Option (List Char) :=
  match dropComment (dropGap characters) with
  | [] => some []
  | rest => dropBreak rest

/-- This function passes blanks and ends of lines. -/
def dropBlankLines : List Char → List Char
  | '\n' :: rest => dropBlankLines rest
  | '\r' :: '\n' :: rest => dropBlankLines rest
  | character :: rest => if isGap character then dropBlankLines rest else character :: rest
  | [] => []

/-- This function passes blanks, ends of lines and comments, at most as many as `fuel` says. -/
def dropFiller : Nat → List Char → List Char
  | 0, characters => characters
  | fuel + 1, characters =>
    match dropBlankLines characters with
    | '#' :: rest => dropFiller fuel (dropComment ('#' :: rest))
    | rest => rest

/-- This function gives the character that a mark after a backslash stands for. -/
def marked : Char → Option Char
  | 'b' => some '\x08'
  | 't' => some '\t'
  | 'n' => some '\n'
  | 'f' => some '\x0C'
  | 'r' => some '\x0D'
  | '"' => some '"'
  | '\\' => some '\\'
  | _ => none

/-- This function reads the character after a backslash. -/
def readEscape : List Char → Option (Char × List Char)
  | 'u' :: rest => Text.Hex.readChar 4 rest
  | 'U' :: rest => Text.Hex.readChar 8 rest
  | mark :: rest => (marked mark).map fun character => (character, rest)
  | [] => none

/-- This function reads a text up to its closing double quote. -/
def readBasic : Nat → List Char → List Char → Option (List Char × List Char)
  | 0, _, _ => none
  | _, _, [] => none
  | _ + 1, reversed, '"' :: rest => some (reversed.reverse, rest)
  | fuel + 1, reversed, '\\' :: rest =>
    match readEscape rest with
    | some (character, rest) => readBasic fuel (character :: reversed) rest
    | none => none
  | fuel + 1, reversed, character :: rest =>
    if isControl character then none else readBasic fuel (character :: reversed) rest

/-- This function reads a text up to its closing single quote. -/
def readLiteral (characters : List Char) : Option (List Char × List Char) :=
  let text := characters.takeWhile (· ≠ '\x27')
  match characters.drop text.length with
  | '\x27' :: rest => if text.any isControl then none else some (text, rest)
  | _ => none

/-- This function passes a backslash and the end of the line after it, with all blank lines that follow. -/
def joinLines (characters : List Char) : Option (List Char) :=
  match characters with
  | '\\' :: rest => (dropBreak (dropGap rest)).map dropBlankLines
  | _ => none

/-- This function reads one character of a text of several lines; in double quotes a backslash marks some. -/
def readInLines (quote : Char) (characters : List Char) : Option (Char × List Char) :=
  match dropBreak characters, characters with
  | some rest, _ => some ('\n', rest)
  | none, [] => none
  | none, character :: rest =>
    if character = '\\' && quote = '"' then readEscape rest
    else if isControl character then none
    else some (character, rest)

/-- This function reads a text of several lines up to three closing quotes. One or two more quotes belong to the
text. -/
def readLines (quote : Char) : Nat → List Char → List Char → Option (List Char × List Char)
  | 0, _, _ => none
  | fuel + 1, reversed, characters =>
    let quotes := characters.takeWhile (· = quote)
    if 3 ≤ quotes.length then
      let more := min (quotes.length - 3) 2
      some (reversed.reverse ++ List.replicate more quote, characters.drop (more + 3))
    else
      match if quote = '"' then joinLines characters else none with
      | some rest => readLines quote fuel reversed rest
      | none =>
        match readInLines quote characters with
        | some (character, rest) => readLines quote fuel (character :: reversed) rest
        | none => none

/-- This function reads a text of several lines after its opening quotes; a line that ends there is empty. -/
def readLong (quote : Char) (characters : List Char) : Option (List Char × List Char) :=
  let start := (dropBreak characters).getD characters
  readLines quote (start.length + 1) [] start

/-- This function reads a text in quotes on one line. -/
def readShort : List Char → Option (List Char × List Char)
  | '"' :: rest => readBasic (rest.length + 1) [] rest
  | '\x27' :: rest => readLiteral rest
  | _ => none

/-- This function reads a text in quotes. -/
def readText : List Char → Option (List Char × List Char)
  | '"' :: '"' :: '"' :: rest => readLong '"' rest
  | '\x27' :: '\x27' :: '\x27' :: rest => readLong '\x27' rest
  | characters => readShort characters

end ContractWorks.Toml

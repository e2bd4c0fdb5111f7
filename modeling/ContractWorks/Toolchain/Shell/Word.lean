import ContractWorks.Table

namespace ContractWorks.Shell

/-- A segment of a word is text, or something whose value takes its place: a parameter with what stands in for it,
a sum, or the output of a script. Between quotes a value is not split at blanks. -/
inductive Segment where
  | text (characters : List Char) (quoted : Bool)
  | parameter (name : String) (otherwise : Option (Char × String)) (quoted : Bool)
  | arithmetic (expression : String)
  | output (script : String) (quoted : Bool)
  deriving DecidableEq, Repr

/-- A word is a row of segments without a blank between them. -/
abbrev Word := List Segment

/-- This test holds of the characters of a parameter's name. -/
def isNameChar (character : Char) : Bool :=
  character.isAlphanum || character = '_'

/-- This test holds of the parameters that a single mark names. -/
def isNameMark (character : Char) : Bool :=
  character.isDigit || ['@', '*', '#', '?', '$', '!'].contains character

/-- This function reads up to the bracket that closes one that is open already, and drops it. Quoted brackets do not
count. -/
def readNested (opening closing : Char) : Nat → List Char → List Char × List Char
  | _, [] => ([], [])
  | depth, '\\' :: character :: rest =>
    let (inner, left) := readNested opening closing depth rest
    ('\\' :: character :: inner, left)
  | depth, character :: rest =>
    if character = closing then
      match depth with
      | 0 => ([], rest)
      | depth + 1 =>
        let (inner, left) := readNested opening closing depth rest
        (character :: inner, left)
    else
      let (inner, left) := readNested opening closing (if character = opening then depth + 1 else depth) rest
      (character :: inner, left)

/-- This function reads the name of a parameter at the start of a text. -/
def readName (characters : List Char) : String × List Char :=
  match characters with
  | [] => ("", [])
  | first :: rest =>
    if isNameMark first then (String.singleton first, rest)
    else (String.ofList (characters.takeWhile isNameChar), characters.dropWhile isNameChar)

/-- This function reads what stands between the braces of a parameter. -/
def bracedParameter (inner : List Char) (quoted : Bool) : Segment :=
  match inner with
  | '#' :: name@(_ :: _) => .parameter (String.ofList name) (some ('#', "")) quoted
  | inner =>
    match readName inner with
    | (name, ':' :: mark :: rest) => .parameter name (some (mark, String.ofList rest)) quoted
    | (name, mark :: rest) => .parameter name (some (mark, String.ofList rest)) quoted
    | (name, []) => .parameter name none quoted

/-- This function reads what follows a dollar sign. -/
def readDollar (quoted : Bool) (characters : List Char) : Segment × List Char :=
  match characters with
  | '(' :: '(' :: rest =>
    let (inner, left) := readNested '(' ')' 1 rest
    (.arithmetic (String.ofList inner.dropLast), left)
  | '(' :: rest =>
    let (inner, left) := readNested '(' ')' 0 rest
    (.output (String.ofList inner) quoted, left)
  | '\x7b' :: rest =>
    let (inner, left) := readNested '\x7b' '\x7d' 0 rest
    (bracedParameter inner quoted, left)
  | characters =>
    match readName characters with
    | ("", rest) => (.text ['$'] quoted, rest)
    | (name, rest) => (.parameter name none quoted, rest)

/-- This function reads a script between backquotes. -/
def readBackquoted (quoted : Bool) (characters : List Char) : Segment × List Char :=
  let (inner, left) := readNested '\x60' '\x60' 0 characters
  (.output (String.ofList inner) quoted, left)

/-- This test holds of the characters that keep their meaning between double quotes. -/
def isSpecial (character : Char) : Bool :=
  character = '"' || character = '\\' || character = '$' || character = '\x60'

/-- This function reads text between double quotes and gives what follows. -/
def readQuoted : Nat → List Char → Word × List Char
  | 0, characters => ([], characters)
  | _ + 1, [] => ([], [])
  | _ + 1, '"' :: rest => ([], rest)
  | steps + 1, '\\' :: character :: rest =>
    let kept := if isSpecial character then [character] else ['\\', character]
    let (segments, left) := readQuoted steps rest
    (.text kept true :: segments, left)
  | steps + 1, '$' :: rest =>
    let (segment, rest) := readDollar true rest
    let (segments, left) := readQuoted steps rest
    (segment :: segments, left)
  | steps + 1, '\x60' :: rest =>
    let (segment, rest) := readBackquoted true rest
    let (segments, left) := readQuoted steps rest
    (segment :: segments, left)
  | steps + 1, character :: rest =>
    let plain := rest.takeWhile fun next => !isSpecial next
    let (segments, left) := readQuoted steps (rest.drop plain.length)
    (.text (character :: plain) true :: segments, left)

/-- This test holds of the characters that end a word. -/
def endsWord (character : Char) : Bool :=
  [' ', '\t', '\n', ';', '&', '|', '<', '>', '(', ')'].contains character

/-- This test holds of the characters that stand for themselves in a word. -/
def isPlain (character : Char) : Bool :=
  !endsWord character && !isSpecial character && character != '\''

/-- This function reads a word and gives what follows. -/
def readWord : Nat → List Char → Word × List Char
  | 0, characters => ([], characters)
  | _ + 1, [] => ([], [])
  | steps + 1, '\'' :: rest =>
    let inner := rest.takeWhile (· ≠ '\'')
    let (segments, left) := readWord steps (rest.drop (inner.length + 1))
    (.text inner true :: segments, left)
  | steps + 1, '"' :: rest =>
    let (inner, rest) := readQuoted (rest.length + 1) rest
    let (segments, left) := readWord steps rest
    ((if inner = [] then [.text [] true] else inner) ++ segments, left)
  | steps + 1, '\\' :: '\n' :: rest => readWord steps rest
  | steps + 1, '\\' :: character :: rest =>
    let (segments, left) := readWord steps rest
    (.text [character] true :: segments, left)
  | steps + 1, '$' :: rest =>
    let (segment, rest) := readDollar false rest
    let (segments, left) := readWord steps rest
    (segment :: segments, left)
  | steps + 1, '\x60' :: rest =>
    let (segment, rest) := readBackquoted false rest
    let (segments, left) := readWord steps rest
    (segment :: segments, left)
  | steps + 1, character :: rest =>
    if endsWord character then ([], character :: rest)
    else
      let plain := rest.takeWhile isPlain
      let (segments, left) := readWord steps (rest.drop plain.length)
      (.text (character :: plain) false :: segments, left)

/-- A word that is plain text may be a keyword. -/
def Word.plain? : Word → Option String
  | [.text characters false] => some (String.ofList characters)
  | _ => none

/-- A word that starts with a name and an equals sign is an assignment. -/
def Word.assignment? : Word → Option (String × Word)
  | .text characters false :: rest =>
    match characters.takeWhile isNameChar with
    | [] => none
    | first :: name =>
      match characters.drop (name.length + 1) with
      | '=' :: value =>
        if first.isDigit then none
        else some (String.ofList (first :: name), if value = [] then rest else .text value false :: rest)
      | _ => none
  | _ => none

end ContractWorks.Shell

import ContractWorks.Settings.Yaml.Flow

namespace ContractWorks.Yaml

/-- A line is a text after some blanks; no remark is left at its end. -/
structure Line where
  indent : Nat
  text : List Char
  deriving Repr

/-- This function splits at the ends of lines. -/
def splitLines : List Char → List (List Char)
  | [] => [[]]
  | '\r' :: '\n' :: rest => [] :: splitLines rest
  | character :: rest =>
    if character = '\n' || character = '\r' then [] :: splitLines rest
    else
      match splitLines rest with
      | [] => [[character]]
      | line :: lines => (character :: line) :: lines

/-- This type says whether a place in a line is outside of quotes, between quotes of one kind, or behind a
backslash between double quotes. -/
inductive Quoting where
  | outside
  | between (quote : Char)
  | escaped
  deriving DecidableEq, Repr

/-- This function leaves out a remark. It begins with a hash sign at the start or after a blank, outside of
quotes; `fresh` tells whether a remark or a quote may begin here. -/
def dropRemark : (fresh : Bool) → Quoting → List Char → List Char
  | _, _, [] => []
  | _, .escaped, character :: rest => character :: dropRemark false (.between '"') rest
  | _, .between quote, character :: rest =>
    character :: dropRemark false
      (if character = quote then .outside
       else if quote = '"' && character = '\\' then .escaped else .between quote) rest
  | fresh, .outside, character :: rest =>
    if fresh && character = '#' then []
    else if fresh && (character = '"' || character = '\x27') then
      character :: dropRemark false (.between character) rest
    else character :: dropRemark (isGap character || isBracket character) .outside rest

/-- This function gives the lines of a text that are not empty. -/
def lines (text : String) : List Line :=
  (splitLines text.toList).filterMap fun characters =>
    let content := trimGap (dropRemark true .outside characters)
    let spaces := content.takeWhile (· = ' ')
    if (dropGap content).isEmpty then none else some ⟨spaces.length, content.drop spaces.length⟩

/-- This function gives what follows a hyphen that begins an item, with the number of characters passed. -/
def itemOf? : List Char → Option (Nat × List Char)
  | ['-'] => some (1, [])
  | '-' :: rest =>
    let gap := rest.takeWhile isGap
    if gap.isEmpty then none else some (1 + gap.length, rest.drop gap.length)
  | _ => none

/-- This function splits at the first colon that ends a key. -/
def splitColon : List Char → Option (List Char × List Char)
  | [] => none
  | character :: rest =>
    if character = ':' && endsKey false rest then some ([], dropGap rest)
    else (splitColon rest).map fun (key, rest) => (character :: key, rest)

/-- This function reads a key and gives what follows it. -/
def keyOf? (text : List Char) : Option (String × List Char) :=
  match readQuoted text with
  | some (key, rest) =>
    match dropGap rest with
    | ':' :: rest => if endsKey false rest then some (.ofList key, dropGap rest) else none
    | _ => none
  | none =>
    if startsPlain text then do
      let (key, rest) ← splitColon text
      let key ← keyOfPlain (trimGap key)
      some (key, rest)
    else none

/-- This function reads a value in quotes or brackets, which takes as many lines as it needs. A line may be indented
by one character less than a value has to be, as a closing bracket may stand below the key. -/
def readClosed (least : Nat) (text : List Char) : List Line → Option (SettingTree × List Line)
  | [] => (readWholeFlow text).map fun tree => (tree, [])
  | line :: rest =>
    match readWholeFlow text with
    | some tree => some (tree, line :: rest)
    | none =>
      if least ≤ line.indent + 1 then readClosed least (text ++ ' ' :: line.text) rest else none

/-- This function reads a value that begins within a line. A text without quotes goes on in all lines that are
indented at least as given. -/
def readInline (least : Nat) (text : List Char) (rest : List Line) :
    Option (SettingTree × List Line) :=
  if startsPlain text then
    let more := rest.takeWhile fun line => least ≤ line.indent
    let joined := more.foldl (fun joined line => joined ++ ' ' :: line.text) text
    if (splitColon joined).isSome then none
    else (ofPlain joined).map fun tree => (tree, rest.drop more.length)
  else readClosed least text rest

mutual

/-- This function reads a value that has lines of its own: all that are indented at least as given. -/
def readBlock : Nat → Nat → List Line → Option (SettingTree × List Line)
  | 0, _, _ => none
  | _, _, [] => some (.unset, [])
  | fuel + 1, indent, line :: rest =>
    if line.indent < indent then some (.unset, line :: rest)
    else if (itemOf? line.text).isSome then
      (readItems fuel line.indent (line :: rest)).map fun (items, rest) => (.list items, rest)
    else if (keyOf? line.text).isSome then
      (readPairs fuel line.indent [] (line :: rest)).map fun (members, rest) => (.group members, rest)
    else readInline indent line.text rest

/-- This function reads the items of a list. -/
def readItems : Nat → Nat → List Line → Option (List SettingTree × List Line)
  | 0, _, _ => none
  | _, _, [] => some ([], [])
  | fuel + 1, indent, line :: rest =>
    match if line.indent = indent then itemOf? line.text else none with
    | none => if line.indent ≤ indent then some ([], line :: rest) else none
    | some (passed, text) => do
      let lines := if text.isEmpty then rest else ⟨indent + passed, text⟩ :: rest
      let (item, rest) ← readBlock fuel (indent + 1) lines
      let (items, rest) ← readItems fuel indent rest
      some (item :: items, rest)

/-- This function reads keys with their values. The items of a list may stand below their key. -/
def readPairs : Nat → Nat → Table String SettingTree → List Line →
    Option (Table String SettingTree × List Line)
  | 0, _, _, _ => none
  | _, _, members, [] => some (members, [])
  | fuel + 1, indent, members, line :: rest =>
    if line.indent < indent then some (members, line :: rest)
    else if indent < line.indent then none
    else do
      let (key, text) ← keyOf? line.text
      let (value, rest) ←
        if !text.isEmpty then readInline (indent + 1) text rest
        else
          match rest with
          | [] => some (.unset, [])
          | next :: _ =>
            if next.indent = indent && (itemOf? next.text).isSome then
              (readItems fuel indent rest).map fun (items, rest) => (.list items, rest)
            else readBlock fuel (indent + 1) rest
      let members ← addMember members key value
      readPairs fuel indent members rest

end

/-- This test holds of the line that begins a document. -/
def isStart (line : Line) : Bool :=
  line.indent = 0 && line.text = ['-', '-', '-']

/-- This test holds of the line that ends a document. -/
def isStop (line : Line) : Bool :=
  line.indent = 0 && line.text = ['.', '.', '.']

/-- This function reads a text of one document with keys, lists, values in brackets and plain or quoted texts. A
text without a document is an empty group. -/
def read (text : String) : Option SettingTree :=
  let found := lines text
  let body := (if (found.head?.map isStart).getD false then found.drop 1 else found)
  let document := body.takeWhile fun line => !isStop line
  if (body.drop (document.length + 1)).isEmpty && !document.any isStart then
    if found.isEmpty then some (.group [])
    else
      match readBlock (4 * text.length + 4) 0 document with
      | some (tree, []) => some tree
      | _ => none
  else none

end ContractWorks.Yaml

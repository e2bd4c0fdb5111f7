namespace ContractWorks

/-- A media type has a main part, a part below it, and perhaps a suffix that names a general form. -/
structure MediaType where
  main : String
  sub : String
  suffix : Option String
  deriving DecidableEq, Repr

namespace MediaType

/-- This test holds of the characters that may stand in a name. -/
def isToken (character : Char) : Bool :=
  character.isAlphanum || "!#$%&'+-.^_\x60|~".toList.contains character

/-- This test holds of the characters that a header may hold to be read as text. -/
def isPlain (character : Char) : Bool :=
  (0x20 ≤ character.toNat && character.toNat < 0x7F) || character = '\t'

/-- This function gives what follows the next semicolon after a quoted value. -/
def skipBlanks (characters : List Char) : Option (List Char) :=
  match characters.dropWhile (· = ' ') with
  | [] => some []
  | ';' :: rest => some rest
  | _ => none

/-- This function reads a quoted value and gives what follows the next semicolon. A value has at least one
character, so that a quote in the first place belongs to it. -/
def skipQuoted : List Char → Option (List Char)
  | [] => none
  | first :: rest =>
    let value := rest.takeWhile (· ≠ '"')
    if first = '\t' || value.contains '\t' then none
    else
      match rest.drop value.length with
      | '"' :: rest => skipBlanks rest
      | _ => none

/-- This function reads a value without quotes and gives what follows the next semicolon. -/
def skipPlain (characters : List Char) : Option (List Char) :=
  let value := characters.takeWhile isToken
  match characters.drop value.length with
  | [] => some []
  | ';' :: rest => if value.isEmpty then none else some rest
  | _ => none

/-- This test reads parameters: each has a name, an equals sign and a value. -/
def areParameters : Nat → List Char → Bool
  | _, [] => true
  | 0, _ => false
  | steps + 1, characters =>
    let parameters := characters.dropWhile (· = ' ')
    if parameters.isEmpty then true
    else
      let name := parameters.takeWhile isToken
      match parameters.drop name.length with
      | '=' :: '"' :: rest =>
        match skipQuoted rest with
        | some rest => !name.isEmpty && areParameters steps rest
        | none => false
      | '=' :: rest =>
        match skipPlain rest with
        | some rest => !name.isEmpty && areParameters steps rest
        | none => false
      | _ => false

/-- This function splits at the last plus sign that does not come first. -/
def splitSuffix (characters : List Char) : List Char × Option (List Char) :=
  let reversed := characters.reverse
  let suffix := reversed.takeWhile (· ≠ '+')
  match reversed.drop suffix.length with
  | '+' :: [] => (characters, none)
  | '+' :: before => (before.reverse, some suffix.reverse)
  | _ => (characters, none)

/-- This function reads a media type in any case, with parameters. -/
def read (text : String) : Option MediaType :=
  let characters := text.toList.map Char.toLower
  let main := characters.takeWhile isToken
  if !characters.all isPlain then none else
  match characters.drop main.length with
  | '/' :: rest =>
    let name := rest.takeWhile isToken
    let parametersFit :=
      match rest.drop name.length with
      | [] => true
      | ';' :: parameters => !name.isEmpty && areParameters (parameters.length + 1) parameters
      | _ => false
    if main.isEmpty || !parametersFit then none
    else
      let (sub, suffix) := splitSuffix name
      some ⟨String.ofList main, String.ofList sub, suffix.map String.ofList⟩
  | _ => none

/-- This test holds of the media types of JSON texts. -/
def isJson (mediaType : MediaType) : Bool :=
  mediaType.main = "application" && (mediaType.sub = "json" || mediaType.suffix = some "json")

end MediaType

end ContractWorks

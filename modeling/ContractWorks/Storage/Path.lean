namespace ContractWorks.Path

/-- This function puts one path after another; an absolute path replaces what comes before it. -/
def join (base rest : String) : String :=
  if rest.toList.head? = some '/' then rest
  else if base = "" ∨ base.toList.getLast? = some '/' then base ++ rest
  else base ++ "/" ++ rest

/-- This function splits at slashes. -/
def splitSlash : List Char → List (List Char)
  | [] => [[]]
  | character :: rest =>
    if character = '/' then [] :: splitSlash rest
    else
      match splitSlash rest with
      | [] => [[character]]
      | part :: parts => (character :: part) :: parts

/-- This function gives the names of a path in order. -/
def names (path : String) : List String :=
  (splitSlash path.toList).filterMap fun part =>
    if part = [] ∨ part = ['.'] then none else some (String.ofList part)

/-- A proper name can stand for an entry of a directory. -/
def isProper (name : String) : Bool :=
  name ≠ "" && name ≠ "." && name ≠ ".." && !name.toList.contains '/'

/-- This function leaves out slashes, and points between them, at the start. -/
def dropSlashes : List Char → List Char
  | '/' :: rest => dropSlashes rest
  | '.' :: '/' :: rest => dropSlashes rest
  | rest => rest

/-- This function leaves out slashes, and points between them, at the end of a path. -/
def withoutEnd (path : String) : String :=
  String.ofList (dropSlashes path.toList.reverse).reverse

/-- This function gives the last name of a path. -/
def fileName? (path : String) : Option String :=
  (names path).getLast?

/-- This function gives what stands before the last point of a name, and what stands behind it, if anything
stands before the point. -/
def splitPoint (name : String) : Option (String × String) :=
  let reversed := name.toList.reverse
  let behind := reversed.takeWhile (· ≠ '.')
  match reversed.drop behind.length with
  | '.' :: before =>
    if before = [] then none
    else some (String.ofList before.reverse, String.ofList behind.reverse)
  | _ => none

/-- This function gives the extension of a name. -/
def extension? (name : String) : Option String :=
  (splitPoint name).map Prod.snd

/-- This function replaces the extension of a name. -/
def withExtension (name extension : String) : String :=
  match splitPoint name with
  | some (stem, _) => stem ++ "." ++ extension
  | none => name ++ "." ++ extension

/-- This function replaces the extension of the last name of a path. -/
def changeExtension (path extension : String) : String :=
  let reversed := path.toList.reverse
  let name := reversed.takeWhile (· ≠ '/')
  String.ofList (reversed.drop name.length).reverse ++
    withExtension (String.ofList name.reverse) extension

end ContractWorks.Path

namespace ContractWorks

/-- A file name is a proper name. -/
structure FileName where
  text : String
  proper : Path.isProper text = true
  deriving DecidableEq

/-- A part of a path leads up, or into the entry of a name. -/
inductive PathPart where
  | up
  | into (name : FileName)
  deriving DecidableEq

namespace Path

/-- This function gives the part that a name stands for; an empty name and a point stand for none. -/
def part? (name : String) : Option PathPart :=
  if name = ".." then some .up
  else if proper : isProper name then some (.into ⟨name, proper⟩)
  else none

/-- This function gives the parts of a path in order. -/
def parts (path : String) : List PathPart :=
  (splitSlash path.toList).filterMap fun name => part? (String.ofList name)

end Path

end ContractWorks

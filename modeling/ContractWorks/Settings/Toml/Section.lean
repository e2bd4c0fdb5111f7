import ContractWorks.Settings.Tree

namespace ContractWorks.Toml

/-- An origin says how a section came to be: under a header of its own, as a stage on the way to another header,
or as a stage in a key with points. -/
inductive Origin where
  | header
  | stage
  | points
  deriving DecidableEq, Repr

/-- An entry of a section is a value, a section, or a row of sections, of which only the last can still change. -/
inductive Entry where
  | value (tree : SettingTree)
  | single (origin : Origin) (members : List (String × Entry))
  | row (earlier : List SettingTree) (last : List (String × Entry))
  deriving Inhabited

/-- A section holds entries under their names. -/
abbrev Section := Table String Entry

namespace Entry

mutual

/-- This function makes a tree of an entry. -/
def toTree : Entry → SettingTree
  | .value tree => tree
  | .single _ members => .group (toTrees members)
  | .row earlier last => .list (earlier ++ [.group (toTrees last)])

/-- This function makes trees of entries. -/
def toTrees : List (String × Entry) → List (String × SettingTree)
  | [] => []
  | (name, entry) :: entries => (name, toTree entry) :: toTrees entries

end

end Entry

namespace Section

/-- This function makes a group of a section. -/
def toTree (members : Section) : SettingTree :=
  .group (Entry.toTrees members)

/-- This function changes the section at the end of a path. Missing sections on the way are made with the given
origin, and a key with points passes no section that has a header. -/
def changeAt (made : Origin) (change : Origin → Section → Option Section) :
    List String → Origin → Section → Option Section
  | [], origin, members => change origin members
  | name :: path, _, members =>
    match Table.get? name members with
    | none => do
      let inner ← changeAt made change path made []
      some (Table.insert name (.single made inner) members)
    | some (.value _) => none
    | some (.row earlier last) => do
      let inner ← changeAt made change path .header last
      some (Table.insert name (.row earlier inner) members)
    | some (.single origin inner) => do
      let inner ← if made = .points ∧ origin = .header then none
        else changeAt made change path origin inner
      some (Table.insert name (.single origin inner) members)

/-- This function sets a value under a key with points, which may not be there. The section that gets the value
comes from a key with points exactly if this key has points. -/
def setValue (key : List String) (tree : SettingTree) (origin : Origin) (members : Section) :
    Option Section :=
  match key.getLast? with
  | none => none
  | some name =>
    let path := key.dropLast
    let change := fun origin members =>
      if decide (origin = .points) = path.isEmpty ∨ (Table.get? name members).isSome then none
      else some (Table.insert name (.value tree) members)
    changeAt .points change path origin members

/-- This function opens a section under a header; it may have been a stage on the way to another header. -/
def openSingle (key : List String) (members : Section) : Option Section :=
  match key.getLast? with
  | none => none
  | some name =>
    let change := fun (_ : Origin) members =>
      match Table.get? name members with
      | none => some (Table.insert name (.single .header []) members)
      | some (.single .stage inner) => some (Table.insert name (.single .header inner) members)
      | some _ => none
    changeAt .stage change key.dropLast .header members

/-- This function opens the next section of a row of sections. -/
def openNext (key : List String) (members : Section) : Option Section :=
  match key.getLast? with
  | none => none
  | some name =>
    let change := fun (_ : Origin) members =>
      match Table.get? name members with
      | none => some (Table.insert name (.row [] []) members)
      | some (.row earlier last) =>
        some (Table.insert name (.row (earlier ++ [toTree last]) []) members)
      | some _ => none
    changeAt .stage change key.dropLast .header members

end Section

end ContractWorks.Toml

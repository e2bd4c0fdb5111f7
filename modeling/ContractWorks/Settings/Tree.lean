import ContractWorks.Json.Basic
import ContractWorks.Number.Quantity
import ContractWorks.Settings.Key
import ContractWorks.Table

namespace ContractWorks

/-- A setting tree is one value that was set, or a group of named trees. -/
inductive SettingTree where
  | unset
  | truth (value : Bool)
  | whole (value : Int)
  | quantity (value : Quantity)
  | text (value : String)
  | list (items : List SettingTree)
  | group (members : List (String × SettingTree))
  deriving Repr, Inhabited

namespace SettingTree

/-- This function reads a number; a whole number beyond 64 bits with a sign counts as a quantity. -/
def ofNumber : Json.Number → SettingTree
  | .whole value =>
    if -0x8000000000000000 ≤ value ∧ value < 0x8000000000000000 then .whole value
    else .quantity (.ofDecimal (value < 0) [value.natAbs] 0)
  | .real value => .quantity (.finite value)

mutual

/-- This function makes a tree of a JSON value. -/
def ofJson : Json → SettingTree
  | .null => .unset
  | .bool value => .truth value
  | .number value => ofNumber value
  | .text value => .text value
  | .array items => .list (ofItems items)
  | .object members => .group (ofMembers members)

/-- This function makes trees of the items of an array. -/
def ofItems : List Json → List SettingTree
  | [] => []
  | item :: items => ofJson item :: ofItems items

/-- This function makes trees of the members of an object. -/
def ofMembers : List (String × Json) → List (String × SettingTree)
  | [] => []
  | (name, value) :: members => (name, ofJson value) :: ofMembers members

end

/-- This function gives the members of a group; nothing else has members. -/
def members : SettingTree → Table String SettingTree
  | .group members => members
  | _ => []

/-- This function gives the items of a list; nothing else has items. -/
def items : SettingTree → List SettingTree
  | .list items => items
  | _ => []

mutual

/-- This function puts a tree under a name. A group joins the group that is there, and all else takes its
place. -/
def put (root : SettingTree) (name : String) : SettingTree → SettingTree
  | .group incoming =>
    let target := (Table.get? (SettingStep.fold name) root.members).getD (.group [])
    .group (Table.insert (SettingStep.fold name) (putAll target incoming) root.members)
  | value => .group (Table.insert (SettingStep.fold name) value root.members)

/-- This function puts trees under their names, one after another. -/
def putAll (root : SettingTree) : List (String × SettingTree) → SettingTree
  | [] => root
  | (name, value) :: rest => putAll (put root name value) rest

end

/-- This function counts an index from the start. -/
def position (index : Int) (count : Nat) : Nat :=
  if 0 ≤ index then index.toNat else count - index.natAbs

/-- This function changes the item at a position; what is missing before it is unset. -/
def changeItem (change : SettingTree → SettingTree) : Nat → List SettingTree → List SettingTree
  | 0, [] => [change .unset]
  | 0, item :: items => change item :: items
  | position + 1, [] => .unset :: changeItem change position []
  | position + 1, item :: items => item :: changeItem change position items

/-- This function puts a tree at the end of a path. What is no group before a name becomes a group, and what is
no list before an index becomes a list. -/
def putAt (value : SettingTree) : List SettingStep → SettingTree → SettingTree
  | [], root => root
  | [.name key], root => put root key value
  | .name key :: rest, root =>
    let child := (Table.get? (SettingStep.fold key) root.members).getD .unset
    .group (Table.insert (SettingStep.fold key) (putAt value rest child) root.members)
  | [.item index], root =>
    .list (changeItem (fun _ => value) (position index root.items.length) root.items)
  | .item index :: rest, root =>
    .list (changeItem (putAt value rest) (position index root.items.length) root.items)

/-- This function lays the members of one tree over another tree. Their names are paths. -/
def overlay (root : SettingTree) (members : List (String × SettingTree)) : SettingTree :=
  members.foldl (fun root member => putAt member.2 (SettingStep.ofKey member.1) root) root

end SettingTree

end ContractWorks

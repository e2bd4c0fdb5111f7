import ContractWorks.Number.Binary64

namespace ContractWorks

/-- A JSON number is whole when it is written without fraction and exponent and fits 64 bits. -/
inductive Json.Number where
  | whole (value : Int)
  | real (value : Binary64)
  deriving DecidableEq, Repr

/-- This type holds JSON values; the members of an object keep their order. -/
inductive Json where
  | null
  | bool (value : Bool)
  | number (value : Json.Number)
  | text (value : String)
  | array (items : List Json)
  | object (members : List (String × Json))
  deriving Repr, Inhabited

namespace Json

instance : Coe String Json := ⟨.text⟩

/-- This function makes a whole number of a count. -/
def count (value : Nat) : Json :=
  .number (.whole value)

/-- This function makes an array of texts. -/
def texts (values : List String) : Json :=
  .array (values.map .text)

/-- This function makes an object of the members that have a value. -/
def record (members : List (String × Option Json)) : Json :=
  .object (members.filterMap fun member => member.2.map fun value => (member.1, value))

/-- This function puts a member into members sorted by key, in place of one with the same key. -/
def insertMember {α : Type} (key : String) (value : α) : List (String × α) → List (String × α)
  | [] => [(key, value)]
  | (other, old) :: rest =>
    if key < other then (key, value) :: (other, old) :: rest
    else if key = other then (key, value) :: rest
    else (other, old) :: insertMember key value rest

/-- This function sorts members by key; the last of several members with one key stays. -/
def sortMembers {α : Type} (members : List (String × α)) : List (String × α) :=
  members.foldl (fun sorted member => insertMember member.1 member.2 sorted) []

mutual

/-- This function sorts the members of all objects in a value. -/
def sorted : Json → Json
  | .array items => .array (sortedItems items)
  | .object members => .object (sortMembers (sortedMembers members))
  | other => other

/-- This function sorts the members of all objects in items. -/
def sortedItems : List Json → List Json
  | [] => []
  | item :: items => item.sorted :: sortedItems items

/-- This function sorts the members of all objects in the values of members. -/
def sortedMembers : List (String × Json) → List (String × Json)
  | [] => []
  | (key, value) :: members => (key, value.sorted) :: sortedMembers members

end

/-- This function looks up a member of an object; no other value has members. -/
def member? (value : Json) (key : String) : Option Json :=
  match value with
  | .object members => members.lookup key
  | _ => none

/-- This function gives the characters of a text value. -/
def text? : Json → Option String
  | .text value => some value
  | _ => none

/-- This function gives the items of an array. -/
def items? : Json → Option (List Json)
  | .array items => some items
  | _ => none

/-- This function gives the members of an object. -/
def members? : Json → Option (List (String × Json))
  | .object members => some members
  | _ => none

end Json

end ContractWorks

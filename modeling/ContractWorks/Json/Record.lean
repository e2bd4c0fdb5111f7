import ContractWorks.Json.Decode

namespace ContractWorks

/-- A field of a record has a name, a decoder, and a value for when it is left out, unless it must be there. -/
structure Field (α : Type) where
  name : String
  decode : Decoder α
  absent : Option α

namespace Field

/-- This function makes a field that must be there. -/
def required {α : Type} (name : String) (decode : Decoder α) : Field α :=
  ⟨name, decode, none⟩

/-- This function makes a field that has a value when it is left out. -/
def withDefault {α : Type} (name : String) (decode : Decoder α) (absent : α) : Field α :=
  ⟨name, decode, some absent⟩

/-- This function makes a field that may be left out or null. -/
def optional {α : Type} (name : String) (decode : Decoder α) : Field (Option α) :=
  ⟨name, Decode.nullable decode, some none⟩

end Field

/-- A row lists the fields of a record in order. -/
inductive Row : List Type → Type 1 where
  | done : Row []
  | field {α : Type} {rest : List Type} (head : Field α) (tail : Row rest) : Row (α :: rest)

/-- This type holds one value for each field of a row. -/
@[reducible] def Values : List Type → Type
  | [] => Unit
  | α :: rest => α × Values rest

/-- This type holds the values that have been found so far. -/
@[reducible] def Slots : List Type → Type
  | [] => Unit
  | α :: rest => Option α × Slots rest

namespace Row

/-- This function counts the fields of a row. -/
def size {types : List Type} : Row types → Nat
  | .done => 0
  | .field _ tail => tail.size + 1

/-- Nothing has been found at first. -/
def empty {types : List Type} : Row types → Slots types
  | .done => ()
  | .field _ tail => (none, tail.empty)

/-- This function offers a member to the row: the field of its name takes it, once. A name that no field has
gives no result. -/
def offer {types : List Type} : Row types → Slots types → String → Draft →
    Except DecodeError (Option (Slots types))
  | .done, (), _, _ => .ok none
  | .field head tail, (slot, slots), name, content =>
    if name = head.name then
      if slot.isSome then .error (.repeated name)
      else (head.decode content).map fun value => some (some value, slots)
    else (tail.offer slots name content).map fun found => found.map fun slots => (slot, slots)

/-- This function takes one member of an object; an unknown one only has to be sound. -/
def take {types : List Type} (row : Row types) (slots : Slots types) (member : Option String × Draft) :
    Except DecodeError (Slots types) :=
  match member.1 with
  | none => .error .malformed
  | some name => do
    match ← row.offer slots name member.2 with
    | some filled => return filled
    | none => if member.2.sound then return slots else throw .malformed

/-- This function completes what was found with the values of fields that were left out. -/
def finish {types : List Type} : Row types → Slots types → Except DecodeError (Values types)
  | .done, () => .ok ()
  | .field head tail, (slot, slots) => do
    let value ← match slot.or head.absent with
      | some value => .ok value
      | none => .error (.missing head.name)
    let values ← tail.finish slots
    return (value, values)

/-- This function reads the fields from items in order; `count` items came before. -/
def ofItems {types : List Type} (expected : String) : Row types → Nat → List Draft →
    Except DecodeError (Values types)
  | .done, _, [] => .ok ()
  | .done, count, items => .error (.tooMany (count + items.length))
  | .field head tail, count, item :: items => do
    let value ← head.decode item
    let values ← tail.ofItems expected (count + 1) items
    return (value, values)
  | .field head tail, count, [] => do
    let value ← match head.absent with
      | some value => .ok value
      | none => .error (.tooFew count expected)
    let values ← tail.ofItems expected count []
    return (value, values)

/-- This function describes a record by its title and the number of its fields. -/
def wording {types : List Type} (row : Row types) (title : String) : String :=
  "struct " ++ title ++ " with " ++ toString row.size ++ (if row.size = 1 then " element" else " elements")

/-- This decoder reads a record from an object, or from an array of the fields in order. -/
def decode {types : List Type} (row : Row types) (title : String) : Decoder (Values types)
  | .object members => do
    let slots ← members.foldlM row.take row.empty
    row.finish slots
  | .array items => row.ofItems (row.wording title) 0 items
  | other => Decode.mismatch ("struct " ++ title) other

end Row

end ContractWorks

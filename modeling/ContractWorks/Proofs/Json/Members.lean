import ContractWorks.Proofs.Json.Arrangement
import ContractWorks.Proofs.Table

namespace ContractWorks

/-- What comes of two steps in a row comes of the second, from what the first gives. -/
theorem Decode.bind_eq_ok_iff {ε α β : Type} {first : Except ε α} {second : α → Except ε β} {result : β} :
    first >>= second = .ok result ↔ ∃ value, first = .ok value ∧ second value = .ok result := by
  cases first with
  | error error => simp [bind, Except.bind]
  | ok value => simp [bind, Except.bind]

theorem Decode.map_eq_ok_iff {ε α β : Type} {first : Except ε α} {change : α → β} {result : β} :
    first.map change = .ok result ↔ ∃ value, first = .ok value ∧ change value = result := by
  cases first with
  | error error => simp [Except.map]
  | ok value => simp [Except.map]

theorem Table.erase_of_not_mem {κ ν : Type} [DecidableEq κ] {key : κ} {table : Table κ ν}
    (missing : key ∉ table.map Prod.fst) : Table.erase key table = table := by
  induction table with
  | nil => rfl
  | cons entry table inductionHypothesis =>
    rw [List.map_cons, List.mem_cons, not_or] at missing
    rw [erase, if_neg (Ne.symm missing.1), inductionHypothesis missing.2]

/-- A field takes its value from its content, or has one where there is no content. -/
def Field.Takes {α : Type} (field : Field α) : Option Draft → α → Prop
  | some content, value => field.decode content = .ok value
  | none, value => field.absent = some value

/-- The content settles the value. -/
theorem Field.Takes.unique {α : Type} {field : Field α} {content : Option Draft} {value other : α}
    (first : field.Takes content value) (second : field.Takes content other) : value = other := by
  cases content with
  | none => exact Option.some.inj (first.symm.trans second)
  | some content => exact Except.ok.inj (first.symm.trans second)

/-- A content fills the slot of a field with what is decoded from it, and leaves it empty where there is none. -/
def Field.Fills {α : Type} (field : Field α) : Option Draft → Option α → Prop
  | some content, slot => ∃ value, field.decode content = .ok value ∧ slot = some value
  | none, slot => slot = none

/-- A field takes its value from the slot that its content fills, or has one where the slot stays empty. -/
theorem Field.takes_iff {α : Type} {field : Field α} {content : Option Draft} {value : α} :
    field.Takes content value ↔ ∃ slot, field.Fills content slot ∧ slot.or field.absent = some value := by
  cases content with
  | none => simp [Takes, Fills]
  | some content => simp [Takes, Fills]

namespace Row

/-- This function lists the names of the fields. -/
def names {types : List Type} : Row types → List String
  | .done => []
  | .field head tail => head.name :: tail.names

/-- A row takes its values from contents that are found by name, each field on its own. -/
def Takes {types : List Type} : Row types → (String → Option Draft) → Values types → Prop
  | .done, _, () => True
  | .field head tail, contents, (value, values) =>
    head.Takes (contents head.name) value ∧ tail.Takes contents values

/-- These are the members of a table as they stand in an object. -/
def keyed (table : Table String Draft) : List (Option String × Draft) :=
  table.map fun member => (some member.1, member.2)

theorem keyed_cons (name : String) (content : Draft) (table : Table String Draft) :
    keyed ((name, content) :: table) = (some name, content) :: keyed table :=
  rfl

theorem Takes.congr {types : List Type} {row : Row types} {contents others : String → Option Draft} :
    ∀ {values : Values types}, (∀ name ∈ row.names, contents name = others name) →
      (row.Takes contents values ↔ row.Takes others values) := by
  induction row with
  | done => exact fun _ => Iff.rfl
  | field head tail inductionHypothesis =>
    intro values same
    rw [Takes, Takes, same head.name List.mem_cons_self,
      inductionHypothesis fun name member => same name (List.mem_cons_of_mem _ member)]

section Fold

variable {α : Type} {types : List Type} {head : Field α} {tail : Row types}

/-- Members of other names leave the slot of the first field as it is. -/
theorem foldlM_keyed_of_ne {table : Table String Draft} {slot : Option α} {slots : Slots types}
    (others : head.name ∉ table.map Prod.fst) :
    (keyed table).foldlM (Row.field head tail).take (slot, slots) =
      ((keyed table).foldlM tail.take slots).map fun slots => (slot, slots) := by
  refine foldlM_take_of_ne fun entry member => ?_
  obtain ⟨found, present, rfl⟩ := List.mem_map.mp member
  exact ⟨found.1, rfl, fun same => others (List.mem_map.mpr ⟨found, present, same⟩)⟩

/-- The first field fills its slot from the member of its name, and the other members go on to the other fields. -/
theorem foldlM_keyed_iff {table : Table String Draft} {slot : Option α} {final : Slots types} :
    ∀ {slots : Slots types}, table.Distinct →
      ((keyed table).foldlM (Row.field head tail).take (none, slots) = .ok (slot, final) ↔
        (keyed (Table.erase head.name table)).foldlM tail.take slots = .ok final ∧
          head.Fills (Table.get? head.name table) slot) := by
  induction table with
  | nil =>
    intro slots _
    simp [keyed, Table.erase, Field.Fills, pure, Except.pure, and_comm, eq_comm]
  | cons member table inductionHypothesis =>
    intro slots distinct
    obtain ⟨name, content⟩ := member
    obtain ⟨fresh, apart⟩ := List.nodup_cons.mp distinct
    by_cases same : name = head.name
    · subst same
      have gone : Table.erase head.name table = table := Table.erase_of_not_mem fresh
      have filled : (Row.field head tail).take (none, slots) (some head.name, content) =
          (head.decode content).map fun value => (some value, slots) := by
        cases read : head.decode content with
        | ok value => exact take_head read
        | error error => simp [take, offer, read, Except.map, bind, Except.bind]
      rw [keyed_cons, List.foldlM_cons, filled, Table.erase, if_pos rfl, gone, Table.get?, if_pos rfl]
      simp only [Decode.bind_eq_ok_iff, Decode.map_eq_ok_iff]
      constructor
      · rintro ⟨_, ⟨value, read, rfl⟩, rest⟩
        rw [foldlM_keyed_of_ne fresh, Decode.map_eq_ok_iff] at rest
        obtain ⟨slots, rest, same⟩ := rest
        obtain ⟨rfl, rfl⟩ := Prod.mk.inj same
        exact ⟨rest, value, read, rfl⟩
      · rintro ⟨rest, value, read, rfl⟩
        refine ⟨_, ⟨value, read, rfl⟩, ?_⟩
        rw [foldlM_keyed_of_ne fresh, rest]
        rfl
    · rw [keyed_cons, List.foldlM_cons, take_of_ne rfl same, Table.erase, if_neg same, Table.get?, if_neg same,
        keyed_cons, List.foldlM_cons]
      cases tail.take slots (some name, content) with
      | error error => simp [Except.map, bind, Except.bind]
      | ok slots => exact inductionHypothesis apart

theorem finish_field_iff {slot : Option α} {slots : Slots types} {value : α} {values : Values types} :
    (Row.field head tail).finish (slot, slots) = .ok (value, values) ↔
      slot.or head.absent = some value ∧ tail.finish slots = .ok values := by
  rw [finish]
  cases slot.or head.absent with
  | none => simp [bind, Except.bind]
  | some found =>
    cases tail.finish slots with
    | error error => simp [bind, Except.bind]
    | ok rest => simp [bind, Except.bind, pure, Except.pure]

end Fold

/-- A row fills its slots from the members of a table just when each field takes its value from the member of its
name. -/
theorem foldlM_finish_iff {types : List Type} {row : Row types} : ∀ {table : Table String Draft} {values : Values types},
    table.Distinct → (∀ name ∈ table.map Prod.fst, name ∈ row.names) → row.names.Nodup →
      ((∃ slots, (keyed table).foldlM row.take row.empty = .ok slots ∧ row.finish slots = .ok values) ↔
        row.Takes (Table.get? · table) values) := by
  induction row with
  | done =>
    intro table values _ known _
    obtain rfl : table = [] := List.map_eq_nil_iff.mp (List.eq_nil_iff_forall_not_mem.mpr fun name present =>
      List.not_mem_nil (known name present))
    exact ⟨fun _ => trivial, fun _ => ⟨(), rfl, rfl⟩⟩
  | @field α types head tail inductionHypothesis =>
    intro table values distinct known apart
    obtain ⟨value, values⟩ := values
    obtain ⟨fresh, apart⟩ := List.nodup_cons.mp apart
    have others : ∀ name ∈ (Table.erase head.name table).map Prod.fst, name ∈ tail.names := by
      intro name present
      obtain ⟨differ, stands⟩ := Table.mem_keys_erase.mp present
      exact (List.mem_cons.mp (known name stands)).resolve_left differ
    have rest := @inductionHypothesis _ values (distinct.erase head.name) others apart
    have shared : tail.Takes (Table.get? · (Table.erase head.name table)) values ↔
        tail.Takes (Table.get? · table) values :=
      Takes.congr fun name member => Table.get?_erase_of_ne (ne_of_mem_of_not_mem member fresh) table
    rw [Takes, ← shared, ← rest, Field.takes_iff, empty]
    constructor
    · rintro ⟨⟨slot, slots⟩, filled, finished⟩
      obtain ⟨filled, first⟩ := (foldlM_keyed_iff distinct).mp filled
      obtain ⟨chosen, finished⟩ := finish_field_iff.mp finished
      exact ⟨⟨slot, first, chosen⟩, slots, filled, finished⟩
    · rintro ⟨⟨slot, first, chosen⟩, slots, filled, finished⟩
      exact ⟨(slot, slots), (foldlM_keyed_iff distinct).mpr ⟨filled, first⟩, finish_field_iff.mpr ⟨chosen, finished⟩⟩

/-- A record is decoded from an object without repeated or unknown names just when each of its fields takes its value
from the member of its name, whatever the order of the members. -/
theorem decode_keyed_iff {types : List Type} {row : Row types} {title : String} {table : Table String Draft}
    {values : Values types} (distinct : table.Distinct) (known : ∀ name ∈ table.map Prod.fst, name ∈ row.names)
    (apart : row.names.Nodup) :
    row.decode title (.object (keyed table)) = .ok values ↔ row.Takes (Table.get? · table) values := by
  rw [decode, Decode.bind_eq_ok_iff]
  exact foldlM_finish_iff distinct known apart

end Row

end ContractWorks

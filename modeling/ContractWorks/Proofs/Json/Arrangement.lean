import ContractWorks.Json.Record
import ContractWorks.Proofs.Json.Value

namespace ContractWorks

/-- A field gives the value that its content is decoded as, or the one for content that is left out. -/
inductive Field.Gives {α : Type} (field : Field α) : Option Json → α → Prop where
  | present {content : Json} {value : α} (read : field.decode content.draft = .ok value) :
    Gives field (some content) value
  | absent {value : α} (left : field.absent = some value) : Gives field none value

namespace Row

/-- A row gives the values that its fields give; no two fields have the same name. -/
inductive Gives : {types : List Type} → Row types → List (String × Option Json) → Values types → Prop where
  | done : Gives .done [] ()
  | field {α : Type} {types : List Type} {head : Field α} {tail : Row types} {content : Option Json}
      {members : List (String × Option Json)} {value : α} {values : Values types}
      (first : head.Gives content value) (others : tail.Gives members values)
      (fresh : ∀ member ∈ members, member.1 ≠ head.name) :
    Gives (.field head tail) ((head.name, content) :: members) (value, values)

/-- These are the members that are written, as drafts. -/
def written (members : List (String × Option Json)) : List (Option String × Draft) :=
  Json.draftMembers (members.filterMap fun member => member.2.map fun value => (member.1, value))

theorem written_some (name : String) (content : Json) (members : List (String × Option Json)) :
    written ((name, some content) :: members) = (some name, content.draft) :: written members :=
  rfl

theorem written_none (name : String) (members : List (String × Option Json)) :
    written ((name, none) :: members) = written members :=
  rfl

theorem draft_record (members : List (String × Option Json)) :
    (Json.record members).draft = .object (written members) := by
  rw [Json.record, Json.draft, written]

theorem name_of_mem_written {members : List (String × Option Json)} :
    ∀ {entry : Option String × Draft}, entry ∈ written members →
      ∃ member ∈ members, entry.1 = some member.1 := by
  induction members with
  | nil =>
    intro entry member
    simp [written, Json.draftMembers] at member
  | cons head members inductionHypothesis =>
    intro entry member
    obtain ⟨name, content⟩ := head
    cases content with
    | none =>
      obtain ⟨found, present, same⟩ := inductionHypothesis member
      exact ⟨found, List.mem_cons_of_mem _ present, same⟩
    | some value =>
      rcases List.mem_cons.mp member with rfl | later
      · exact ⟨_, List.mem_cons_self, rfl⟩
      · obtain ⟨found, present, same⟩ := inductionHypothesis later
        exact ⟨found, List.mem_cons_of_mem _ present, same⟩

/-- A member of another name is for the fields behind the first one. -/
theorem take_of_ne {α : Type} {types : List Type} {head : Field α} {tail : Row types} {slot : Option α}
    {slots : Slots types} {entry : Option String × Draft} {name : String} (named : entry.1 = some name)
    (differ : name ≠ head.name) :
    (Row.field head tail).take (slot, slots) entry =
      (tail.take slots entry).map fun slots => (slot, slots) := by
  obtain ⟨key, content⟩ := entry
  obtain rfl : key = some name := named
  simp only [take, offer, if_neg differ]
  cases tail.offer slots name content with
  | error error => rfl
  | ok found =>
    cases found with
    | some filled => rfl
    | none =>
      simp only [Except.map, bind, Except.bind, pure, Except.pure, Option.map_none]
      split <;> rfl

theorem foldlM_take_of_ne {α : Type} {types : List Type} {head : Field α} {tail : Row types}
    {slot : Option α} {entries : List (Option String × Draft)} :
    ∀ {slots : Slots types}, (∀ entry ∈ entries, ∃ name, entry.1 = some name ∧ name ≠ head.name) →
      entries.foldlM (Row.field head tail).take (slot, slots) =
        (entries.foldlM tail.take slots).map fun slots => (slot, slots) := by
  induction entries with
  | nil =>
    intro slots _
    rfl
  | cons entry entries inductionHypothesis =>
    intro slots others
    obtain ⟨name, named, differ⟩ := others entry List.mem_cons_self
    rw [List.foldlM_cons, List.foldlM_cons, take_of_ne named differ]
    cases tail.take slots entry with
    | error error => rfl
    | ok slots => exact inductionHypothesis fun entry member => others entry (List.mem_cons_of_mem _ member)

theorem take_head {α : Type} {types : List Type} {head : Field α} {tail : Row types} {slots : Slots types}
    {content : Draft} {value : α} (read : head.decode content = .ok value) :
    (Row.field head tail).take (none, slots) (some head.name, content) = .ok (some value, slots) := by
  simp only [take, offer, if_true, Option.isSome_none, Bool.false_eq_true, if_false, read]
  rfl

/-- The members that are written may stand in any order. -/
theorem foldlM_take_perm {types : List Type} {row : Row types} {members : List (String × Option Json)}
    {values : Values types} (gives : row.Gives members values) :
    ∀ {entries : List (Option String × Draft)}, entries.Perm (written members) →
      ∃ slots, entries.foldlM row.take row.empty = .ok slots ∧ row.finish slots = .ok values := by
  induction gives with
  | done =>
    intro entries order
    obtain rfl := List.Perm.eq_nil order
    exact ⟨(), rfl, rfl⟩
  | @field α types head tail content members value values first others fresh inductionHypothesis =>
    intro entries order
    have apart : ∀ entry ∈ written members, ∃ name, entry.1 = some name ∧ name ≠ head.name := by
      intro entry member
      obtain ⟨field, present, named⟩ := name_of_mem_written member
      exact ⟨field.1, named, fresh field present⟩
    cases first with
    | @present content value read =>
      rw [written_some] at order
      obtain ⟨front, back, rfl⟩ := List.append_of_mem (order.mem_iff.mpr List.mem_cons_self)
      have rest : (front ++ back).Perm (written members) := (List.perm_middle.symm.trans order).cons_inv
      obtain ⟨slots, found, finished⟩ := inductionHypothesis rest
      have ahead := fun entry member => apart entry (rest.mem_iff.mp (List.mem_append_left back member))
      have behind := fun entry member => apart entry (rest.mem_iff.mp (List.mem_append_right front member))
      obtain ⟨middle, before, after⟩ : ∃ middle, front.foldlM tail.take tail.empty = .ok middle ∧
          back.foldlM tail.take middle = .ok slots := by
        rw [List.foldlM_append] at found
        cases before : front.foldlM tail.take tail.empty with
        | error error => simp [before, bind, Except.bind] at found
        | ok middle => exact ⟨middle, rfl, by simpa [before, bind, Except.bind] using found⟩
      refine ⟨(some value, slots), ?_, ?_⟩
      · rw [List.foldlM_append, empty, foldlM_take_of_ne ahead, before]
        simp only [Except.map, bind, Except.bind, List.foldlM_cons, take_head read]
        rw [foldlM_take_of_ne behind, after]
        rfl
      · simp only [finish, Option.some_or, finished]
        rfl
    | absent left =>
      rw [written_none] at order
      obtain ⟨slots, found, finished⟩ := inductionHypothesis order
      have all := fun entry member => apart entry (order.mem_iff.mp member)
      refine ⟨(none, slots), ?_, ?_⟩
      · rw [empty, foldlM_take_of_ne all, found]
        rfl
      · simp only [finish, Option.none_or, left, finished]
        rfl

/-- What is written field by field is decoded as the values of the fields, in whatever order it stands. -/
theorem decode_entries {types : List Type} {row : Row types} {members : List (String × Option Json)}
    (title : String) (values : Values types) (gives : row.Gives members values)
    {entries : List (Option String × Draft)} (order : entries.Perm (written members)) :
    row.decode title (.object entries) = .ok values := by
  obtain ⟨slots, found, finished⟩ := foldlM_take_perm gives order
  simp only [decode, found, bind, Except.bind, finished]

/-- What is written field by field is decoded as the values of the fields. -/
theorem decode_record {types : List Type} {row : Row types} {members : List (String × Option Json)}
    (title : String) (values : Values types) (gives : row.Gives members values) :
    row.decode title (Json.record members).draft = .ok values := by
  rw [draft_record]
  exact decode_entries title values gives (.refl _)

end Row

theorem Decode.nullable_of_ne {α : Type} {decode : Decoder α} {draft : Draft} {value : α} (there : draft ≠ .null)
    (read : decode draft = .ok value) : nullable decode draft = .ok (some value) := by
  rw [nullable.eq_def]
  split
  · exact absurd rfl there
  · rw [read]
    rfl

namespace Field

@[simp] theorem name_required {α : Type} (name : String) (decode : Decoder α) :
    (required name decode).name = name :=
  rfl

@[simp] theorem name_optional {α : Type} (name : String) (decode : Decoder α) :
    (optional name decode).name = name :=
  rfl

@[simp] theorem name_withDefault {α : Type} (name : String) (decode : Decoder α) (absent : α) :
    (withDefault name decode absent).name = name :=
  rfl

/-- A field that may be left out gives what is there, or nothing. -/
theorem gives_optional {α : Type} {name : String} {decode : Decoder α} {encode : α → Json}
    (read : ∀ value, decode (encode value).draft = .ok value)
    (shown : ∀ value, (encode value).draft ≠ .null) (value : Option α) :
    (optional name decode).Gives (value.map encode) value := by
  cases value with
  | none => exact .absent rfl
  | some value => exact .present (Decode.nullable_of_ne (shown value) (read value))

end Field

namespace Json

section Members

variable {α : Type} {key : String} {value : α} {members others : List (String × α)}

theorem insertMember_perm (fresh : key ∉ members.map Prod.fst) :
    (insertMember key value members).Perm ((key, value) :: members) := by
  induction members with
  | nil => exact .refl _
  | cons head members inductionHypothesis =>
    obtain ⟨other, old⟩ := head
    simp only [List.map_cons, List.mem_cons, not_or] at fresh
    rw [insertMember, if_neg fresh.1]
    split
    · exact .refl _
    · exact ((inductionHypothesis fresh.2).cons _).trans (.swap ..)

theorem sortMembers_perm_append : ∀ {before : List (String × α)},
    ((before ++ members).map Prod.fst).Nodup →
      (members.foldl (fun sorted member => insertMember member.1 member.2 sorted) before).Perm (before ++ members) := by
  induction members with
  | nil =>
    intro before _
    rw [List.foldl_nil, List.append_nil]
  | cons head members inductionHypothesis =>
    intro before distinct
    have fresh : head.1 ∉ before.map Prod.fst := by
      rw [List.map_append, List.map_cons, List.nodup_append] at distinct
      exact fun present => distinct.2.2 _ present _ List.mem_cons_self rfl
    have inserted : (insertMember head.1 head.2 before ++ members).Perm (before ++ head :: members) :=
      ((insertMember_perm fresh).append_right members).trans List.perm_middle.symm
    rw [List.foldl_cons]
    exact (inductionHypothesis ((inserted.map _).nodup_iff.mpr distinct)).trans inserted

/-- Members with different keys are only put in order. -/
theorem sortMembers_perm (distinct : (members.map Prod.fst).Nodup) : (sortMembers members).Perm members :=
  sortMembers_perm_append distinct

end Members

theorem sortedMembers_eq_map (members : List (String × Json)) :
    sortedMembers members = members.map fun member => (member.1, member.2.sorted) := by
  induction members with
  | nil => rfl
  | cons member members inductionHypothesis => rw [sortedMembers, inductionHypothesis, List.map_cons]

theorem sortedItems_eq_map (items : List Json) : sortedItems items = items.map sorted := by
  induction items with
  | nil => rfl
  | cons item items inductionHypothesis => rw [sortedItems, inductionHypothesis, List.map_cons]

theorem draftMembers_eq_map (members : List (String × Json)) :
    draftMembers members = members.map fun member => (some member.1, member.2.draft) := by
  induction members with
  | nil => rfl
  | cons member members inductionHypothesis => rw [draftMembers, inductionHypothesis, List.map_cons]

mutual

/-- A value is held by its draft with its members sorted. -/
theorem value?_draft_eq_sorted : (value : Json) → value.draft.value? = some value.sorted
  | .null => rfl
  | .bool _ => rfl
  | .number _ => rfl
  | .text _ => rfl
  | .array items => by
    rw [draft, Draft.value?, values?_draftItems_eq_sorted items]
    rfl
  | .object members => by
    rw [draft, Draft.value?, memberValues?_draftMembers_eq_sorted members]
    rfl

theorem values?_draftItems_eq_sorted : (items : List Json) →
    Draft.values? (draftItems items) = some (sortedItems items)
  | [] => rfl
  | item :: items => by
    rw [draftItems, Draft.values?, value?_draft_eq_sorted item, values?_draftItems_eq_sorted items]
    rfl

theorem memberValues?_draftMembers_eq_sorted : (members : List (String × Json)) →
    Draft.memberValues? (draftMembers members) = some (sortedMembers members)
  | [] => rfl
  | (_, value) :: members => by
    rw [draftMembers, Draft.memberValues?, value?_draft_eq_sorted value,
      memberValues?_draftMembers_eq_sorted members]
    rfl

end

mutual

/-- What is sorted stays as it is. -/
theorem sorted_sorted : (value : Json) → value.sorted.sorted = value.sorted
  | .null => rfl
  | .bool _ => rfl
  | .number _ => rfl
  | .text _ => rfl
  | .array items => by
    rw [sorted, sorted, sortedItems_eq_map (sortedItems items)]
    exact congrArg Json.array ((List.map_congr_left (sorted_of_mem_items items)).trans (List.map_id _))
  | .object members => by
    have kept : sortedMembers (sortMembers (sortedMembers members)) = sortMembers (sortedMembers members) := by
      rw [sortedMembers_eq_map]
      refine (List.map_congr_left fun member present => ?_).trans (List.map_id _)
      rcases mem_sortMembers present with there | none
      · exact Prod.ext rfl (sorted_of_mem_members members member there)
      · simp at none
    rw [sorted, sorted, kept]
    exact congrArg Json.object (sortMembers_of_sorted (sorted_sortMembers .nil))

theorem sorted_of_mem_items : (items : List Json) → ∀ item ∈ sortedItems items, item.sorted = item
  | [], _, present => by simp [sortedItems] at present
  | item :: items, other, present => by
    rcases List.mem_cons.mp present with rfl | later
    · exact sorted_sorted item
    · exact sorted_of_mem_items items other later

theorem sorted_of_mem_members : (members : List (String × Json)) →
    ∀ member ∈ sortedMembers members, member.2.sorted = member.2
  | [], _, present => by simp [sortedMembers] at present
  | (_, value) :: members, other, present => by
    rcases List.mem_cons.mp present with rfl | later
    · exact sorted_sorted value
    · exact sorted_of_mem_members members other later

end

mutual

/-- What can be read back can be read back sorted. -/
theorem readable_sorted : (value : Json) → ∀ {depth : Nat}, Readable depth value → Readable depth value.sorted
  | .null, _, _ => trivial
  | .bool _, _, _ => trivial
  | .number _, _, readable => readable
  | .text _, _, _ => trivial
  | .array items, _, readable => ⟨readable.1, readable_sortedItems items readable.2⟩
  | .object members, _, readable => by
    refine ⟨readable.1, trivial, fitsMembers_iff.mpr fun member present => ?_⟩
    rcases mem_sortMembers present with there | none
    · exact fitsMembers_iff.mp (readable_sortedMembers members readable.2.2) member there
    · simp at none

theorem readable_sortedItems : (items : List Json) → ∀ {depth : Nat},
    FitsItems Number.Exact (fun _ => True) depth items →
      FitsItems Number.Exact (fun _ => True) depth (sortedItems items)
  | [], _, _ => trivial
  | item :: items, _, readable => ⟨readable_sorted item readable.1, readable_sortedItems items readable.2⟩

theorem readable_sortedMembers : (members : List (String × Json)) → ∀ {depth : Nat},
    FitsMembers Number.Exact (fun _ => True) depth members →
      FitsMembers Number.Exact (fun _ => True) depth (sortedMembers members)
  | [], _, _ => trivial
  | (_, value) :: members, _, readable =>
    ⟨readable_sorted value readable.1, readable_sortedMembers members readable.2⟩

end

theorem eq_null_of_sorted {value : Json} (null : value.sorted = .null) : value = .null := by
  cases value <;> simp_all [sorted]

theorem draft_ne_null {value : Json} (there : value ≠ .null) : value.draft ≠ .null := by
  cases value <;> simp_all [draft]

/-- An arrangement writes a value with the members of its objects in some order. -/
structure Arrangement (form : Json → Json) : Prop where
  null : form .null = .null
  bool : ∀ value, form (.bool value) = .bool value
  number : ∀ value, form (.number value) = .number value
  text : ∀ value, form (.text value) = .text value
  array : ∀ items, form (.array items) = .array (items.map form)
  object : ∀ members, (members.map Prod.fst).Nodup →
    ∃ others, form (.object members) = .object others ∧
      others.Perm (members.map fun member => (member.1, form member.2))
  sorted : ∀ value, (form value).sorted = value.sorted

namespace Arrangement

/-- A value may stand as it is. -/
theorem identity : Arrangement id where
  null := rfl
  bool _ := rfl
  number _ := rfl
  text _ := rfl
  array items := by rw [List.map_id, id]
  object members _ := ⟨members, rfl, by simp⟩
  sorted _ := rfl

/-- A value may stand sorted. -/
theorem ofSorted : Arrangement Json.sorted where
  null := rfl
  bool _ := rfl
  number _ := rfl
  text _ := rfl
  array items := by rw [Json.sorted, sortedItems_eq_map]
  object members distinct := by
    refine ⟨sortMembers (sortedMembers members), rfl, ?_⟩
    rw [← sortedMembers_eq_map]
    refine sortMembers_perm ?_
    rwa [sortedMembers_eq_map, List.map_map]
  sorted := sorted_sorted

variable {form : Json → Json}

/-- What is arranged is held as a value in one form. -/
theorem value (arranged : Arrangement form) (value : Json) :
    Decode.value (form value).draft = .ok value.sorted := by
  rw [Decode.value, value?_draft_eq_sorted, arranged.sorted]

/-- Nothing but null stands for null. -/
theorem draft_ne_null (arranged : Arrangement form) {value : Json} (there : value ≠ .null) :
    (form value).draft ≠ .null := by
  refine Json.draft_ne_null fun none => there (eq_null_of_sorted ?_)
  rw [← arranged.sorted, none]
  rfl

end Arrangement

/-- Leaving out members keeps the order of the keys. -/
theorem keys_sublist (members : List (String × Option Json)) :
    ((members.filterMap fun member => member.2.map fun value => (member.1, value)).map Prod.fst).Sublist
      (members.map Prod.fst) := by
  induction members with
  | nil => exact .slnil
  | cons member members inductionHypothesis =>
    obtain ⟨key, content⟩ := member
    cases content with
    | none => exact inductionHypothesis.cons _
    | some value => exact inductionHypothesis.cons_cons _

/-- A wire form is faithful when every value is read back: from what it is encoded as, in any arrangement, and from
its text in either layout. Whatever else is read as a value, the value is encoded in one form, which is read as that
value and encoded as that form again. -/
structure Faithful {α : Type} (encode : α → Json) (decode : Decoder α) : Prop where
  value : ∀ {form : Json → Json}, Arrangement form → ∀ value, decode (form (encode value)).draft = .ok value
  text : ∀ layout value, decode (Draft.read (String.ofList (chars layout 0 (encode value)))) = .ok value
  canonical : ∀ draft value, decode draft = .ok value →
    ∃ again, decode (encode value).draft = .ok again ∧ again = value ∧ encode again = encode value

/-- A wire form is faithful when it can be read back as a text and in any arrangement. -/
theorem Faithful.of {α : Type} {encode : α → Json} {decode : Decoder α}
    (readable : ∀ value, (encode value).Readable 0)
    (value : ∀ {form : Json → Json}, Arrangement form → ∀ value, decode (form (encode value)).draft = .ok value) :
    Faithful encode decode where
  value := value
  text layout given := by
    rw [Draft.read_written layout (readable given)]
    exact value .identity given
  canonical _ given _ := ⟨given, value .identity given, rfl, rfl⟩

end Json

namespace Row

variable {types : List Type} {row : Row types} {members : List (String × Option Json)} {values : Values types}

/-- The fields of a row have different names. -/
theorem Gives.nodup (gives : row.Gives members values) : (members.map Prod.fst).Nodup := by
  induction gives with
  | done => exact .nil
  | field first others fresh inductionHypothesis =>
    refine List.nodup_cons.mpr ⟨fun present => ?_, inductionHypothesis⟩
    obtain ⟨member, there, named⟩ := List.mem_map.mp present
    exact fresh member there named

/-- What is written field by field is decoded as the values of the fields, in any arrangement. -/
theorem decode_arranged {form : Json → Json} (arranged : Json.Arrangement form) (title : String)
    (values : Values types) (gives : row.Gives (members.map fun member => (member.1, member.2.map form)) values) :
    row.decode title (form (.record members)).draft = .ok values := by
  have distinct : (members.map Prod.fst).Nodup := by
    have names := gives.nodup
    rwa [List.map_map] at names
  obtain ⟨others, shape, order⟩ := arranged.object _ ((Json.keys_sublist members).nodup distinct)
  rw [Json.record, shape, Json.draft]
  refine decode_entries title values gives ?_
  rw [written, Json.draftMembers_eq_map, Json.draftMembers_eq_map]
  refine (order.map _).trans (.of_eq ?_)
  simp only [List.map_filterMap, List.filterMap_map, Function.comp_def, Option.map_map]

end Row

namespace Field

variable {α : Type} {decode : Decoder α} {encode : α → Json} {form : Json → Json}

/-- A field that may be left out gives what is there, or nothing, in any arrangement. -/
theorem gives_arranged (arranged : Json.Arrangement form) (name : String)
    (read : ∀ value, decode (form (encode value)).draft = .ok value) (shown : ∀ value, encode value ≠ .null)
    (value : Option α) : (optional name decode).Gives ((value.map encode).map form) value := by
  rw [Option.map_map]
  exact gives_optional read (fun value => arranged.draft_ne_null (shown value)) value

/-- A field that may be null gives what is there, or nothing, in any arrangement. -/
theorem gives_orNull (arranged : Json.Arrangement form) (name : String)
    (read : ∀ value, decode (form (encode value)).draft = .ok value) (shown : ∀ value, encode value ≠ .null)
    (value : Option α) : (optional name decode).Gives (some (form ((value.map encode).getD .null))) value := by
  refine .present ?_
  cases value with
  | none =>
    rw [Option.map_none, Option.getD_none, arranged.null]
    rfl
  | some value => exact Decode.nullable_of_ne (arranged.draft_ne_null (shown value)) (read value)

end Field

end ContractWorks

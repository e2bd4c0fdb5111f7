import ContractWorks.Json.Decode
import ContractWorks.Proofs.Json.RoundTrip
import Mathlib.Data.String.Basic

namespace ContractWorks

namespace Json

/-- Keys are sorted when each one comes before all that stand behind it. -/
def Sorted (keys : List String) : Prop :=
  keys.Pairwise (· < ·)

/-- A value can be kept at a depth when its numbers are in range and its members are sorted. -/
abbrev Canonical (depth : Nat) (value : Json) : Prop :=
  Fits Number.InRange Sorted depth value

section Members

variable {α : Type} {key : String} {value : α} {members : List (String × α)}

theorem mem_insertMember {member : String × α} (present : member ∈ insertMember key value members) :
    member = (key, value) ∨ member ∈ members := by
  induction members with
  | nil => exact .inl (List.mem_singleton.mp present)
  | cons head members inductionHypothesis =>
    obtain ⟨other, old⟩ := head
    rw [insertMember] at present
    split at present
    · exact List.mem_cons.mp present
    · split at present
      · exact (List.mem_cons.mp present).imp_right (List.mem_cons_of_mem _)
      · rcases List.mem_cons.mp present with rfl | later
        · exact .inr List.mem_cons_self
        · exact (inductionHypothesis later).imp_right (List.mem_cons_of_mem _)

theorem sorted_insertMember (sorted : Sorted (members.map Prod.fst)) :
    Sorted ((insertMember key value members).map Prod.fst) := by
  induction members with
  | nil => exact List.pairwise_singleton _ _
  | cons head members inductionHypothesis =>
    obtain ⟨other, old⟩ := head
    obtain ⟨first, rest⟩ := List.pairwise_cons.mp sorted
    rw [insertMember]
    split
    · next before =>
      refine List.pairwise_cons.mpr ⟨fun name present => ?_, sorted⟩
      rcases List.mem_cons.mp present with rfl | later
      · exact before
      · exact before.trans (first name later)
    · split
      · next same =>
        subst same
        exact List.pairwise_cons.mpr ⟨first, rest⟩
      · next notBefore differ =>
        have behind : other < key := lt_of_le_of_ne (not_lt.mp notBefore) (Ne.symm differ)
        refine List.pairwise_cons.mpr ⟨fun name present => ?_, inductionHypothesis rest⟩
        obtain ⟨member, there, rfl⟩ := List.mem_map.mp present
        rcases mem_insertMember there with rfl | old
        · exact behind
        · exact first _ (List.mem_map_of_mem old)

theorem mem_sortMembers {member : String × α} : ∀ {sorted : List (String × α)},
    member ∈ members.foldl (fun sorted member => insertMember member.1 member.2 sorted) sorted →
      member ∈ members ∨ member ∈ sorted := by
  induction members with
  | nil => exact fun present => .inr present
  | cons head members inductionHypothesis =>
    intro sorted present
    rcases inductionHypothesis present with later | earlier
    · exact .inl (List.mem_cons_of_mem _ later)
    · rcases mem_insertMember earlier with rfl | old
      · exact .inl List.mem_cons_self
      · exact .inr old

theorem sorted_sortMembers : ∀ {sorted : List (String × α)}, Sorted (sorted.map Prod.fst) →
    Sorted ((members.foldl (fun sorted member => insertMember member.1 member.2 sorted) sorted).map Prod.fst) := by
  induction members with
  | nil => exact fun sorted => sorted
  | cons head members inductionHypothesis => exact fun sorted => inductionHypothesis (sorted_insertMember sorted)

/-- A member whose key comes behind all others is put at the end. -/
theorem insertMember_last (last : ∀ other ∈ members.map Prod.fst, other < key) :
    insertMember key value members = members ++ [(key, value)] := by
  induction members with
  | nil => rfl
  | cons head members inductionHypothesis =>
    obtain ⟨other, old⟩ := head
    have behind : other < key := last other List.mem_cons_self
    rw [insertMember, if_neg behind.asymm, if_neg behind.ne',
      inductionHypothesis fun name present => last name (List.mem_cons_of_mem _ present), List.cons_append]

/-- Members that are sorted stay as they are. -/
theorem sortMembers_of_sorted : ∀ {before : List (String × α)}, Sorted ((before ++ members).map Prod.fst) →
    members.foldl (fun sorted member => insertMember member.1 member.2 sorted) before = before ++ members := by
  induction members with
  | nil =>
    intro before _
    rw [List.foldl_nil, List.append_nil]
  | cons head members inductionHypothesis =>
    intro before sorted
    have assoc : before ++ head :: members = before ++ [head] ++ members := by
      rw [List.append_assoc, List.singleton_append]
    rw [assoc] at sorted ⊢
    rw [List.foldl_cons, insertMember_last fun name present => ?_]
    · exact inductionHypothesis sorted
    · rw [List.map_append, List.map_append] at sorted
      have pairs := List.pairwise_append.mp (List.pairwise_append.mp sorted).1
      exact pairs.2.2 name present head.1 (List.mem_singleton_self _)

end Members

mutual

/-- A value whose members are sorted is the value of its draft. -/
theorem value?_draft {numbers : Number → Prop} : (value : Json) → ∀ {depth : Nat}, Fits numbers Sorted depth value →
    value.draft.value? = some value
  | .null, _, _ => rfl
  | .bool _, _, _ => rfl
  | .number _, _, _ => rfl
  | .text _, _, _ => rfl
  | .array items, _, fits => by
    rw [draft, Draft.value?, values?_draftItems items fits.2]
    rfl
  | .object members, _, fits => by
    have same : sortMembers members = members := sortMembers_of_sorted fits.2.1
    rw [draft, Draft.value?, memberValues?_draftMembers members fits.2.2, Option.map_some, same]

theorem values?_draftItems {numbers : Number → Prop} : (items : List Json) → ∀ {depth : Nat},
    FitsItems numbers Sorted depth items → Draft.values? (draftItems items) = some items
  | [], _, _ => rfl
  | item :: items, _, fits => by
    rw [draftItems, Draft.values?, value?_draft item fits.1, values?_draftItems items fits.2]
    rfl

theorem memberValues?_draftMembers {numbers : Number → Prop} : (members : List (String × Json)) →
    ∀ {depth : Nat}, FitsMembers numbers Sorted depth members →
      Draft.memberValues? (draftMembers members) = some members
  | [], _, _ => rfl
  | (_, value) :: members, _, fits => by
    rw [draftMembers, Draft.memberValues?, value?_draft value fits.1, memberValues?_draftMembers members fits.2]
    rfl

end

theorem keys_rereadMembers (members : List (String × Json)) :
    (rereadMembers members).map Prod.fst = members.map Prod.fst := by
  induction members with
  | nil => rfl
  | cons member members inductionHypothesis =>
    rw [rereadMembers, List.map_cons, List.map_cons, inductionHypothesis]

mutual

/-- The members of what is read again are those that were written. -/
theorem fits_reread {numbers : Number → Prop} {keys : List String → Prop} : (value : Json) → ∀ {depth : Nat},
    Fits numbers keys depth value → Fits (fun _ => True) keys depth value.reread
  | .null, _, _ => trivial
  | .bool _, _, _ => trivial
  | .number _, _, _ => trivial
  | .text _, _, _ => trivial
  | .array items, _, fits => ⟨fits.1, fitsItems_reread items fits.2⟩
  | .object members, _, fits =>
    ⟨fits.1, (keys_rereadMembers members).symm ▸ fits.2.1, fitsMembers_reread members fits.2.2⟩

theorem fitsItems_reread {numbers : Number → Prop} {keys : List String → Prop} : (items : List Json) →
    ∀ {depth : Nat}, FitsItems numbers keys depth items → FitsItems (fun _ => True) keys depth (rereadItems items)
  | [], _, _ => trivial
  | item :: items, _, fits => ⟨fits_reread item fits.1, fitsItems_reread items fits.2⟩

theorem fitsMembers_reread {numbers : Number → Prop} {keys : List String → Prop} :
    (members : List (String × Json)) → ∀ {depth : Nat}, FitsMembers numbers keys depth members →
      FitsMembers (fun _ => True) keys depth (rereadMembers members)
  | [], _, _ => trivial
  | (_, value) :: members, _, fits => ⟨fits_reread value fits.1, fitsMembers_reread members fits.2⟩

end

/-- What is read again is the value of its draft. -/
theorem decode_reread {depth : Nat} {value : Json} (canonical : Canonical depth value) :
    Decode.value value.reread.draft = .ok value.reread := by
  rw [Decode.value, value?_draft value.reread (fits_reread value canonical)]

end Json

namespace Draft

open Json (Canonical FitsItems FitsMembers Sorted)

variable {negative : Bool} {draft : Draft} {value : Json} {left : Option (List Char)}

theorem canonical_of_realNumber {depth digits : Nat} {power : Int}
    (held : (realNumber negative digits power).value? = some value) : Canonical depth value := by
  rw [realNumber] at held
  split at held
  · next rounded =>
    rw [← Option.some.inj held]
    exact Binary64.finite_of_ofDecimal rounded
  · simp [value?] at held

theorem canonical_of_wholeNumber {depth : Nat} {digits : List Nat}
    (held : (wholeNumber negative digits).value? = some value) : Canonical depth value := by
  rw [wholeNumber] at held
  dsimp only at held
  split at held
  · split at held
    · next inside =>
      rw [← Option.some.inj held]
      exact ⟨by omega, by omega⟩
    · exact canonical_of_realNumber held
  · split at held
    · next small =>
      rw [← Option.some.inj held]
      exact ⟨by omega, by omega⟩
    · exact canonical_of_realNumber held

theorem canonical_of_readNumber {depth : Nat} {characters : List Char}
    (read : readNumber negative characters = (draft, left)) (held : draft.value? = some value) :
    Canonical depth value := by
  have rest {digits : List Nat} {behind : List Char} (read : readRest negative digits behind = (draft, left)) :
      Canonical depth value := by
    rw [readRest] at read
    dsimp only at read
    repeat' split at read
    all_goals
      obtain ⟨rfl, _⟩ := Prod.mk.inj read
      first
        | exact canonical_of_realNumber held
        | exact canonical_of_wholeNumber held
        | simp [value?] at held
  rw [readNumber] at read
  split at read
  · obtain ⟨rfl, _⟩ := Prod.mk.inj read
    simp [value?] at held
  · exact rest read
  · obtain ⟨rfl, _⟩ := Prod.mk.inj read
    simp [value?] at held
  · exact rest read

/-- A container that is not too deep holds the value of its content. -/
theorem held_of_limit {depth : Nat} {container : Draft} (held : (limit depth container).value? = some value) :
    depth < maxDepth ∧ container.value? = some value := by
  rw [limit] at held
  split at held
  · next room => exact ⟨room, held⟩
  · simp [value?] at held

theorem canonical_of_array {depth : Nat} {items : List Draft}
    (fit : ∀ {values}, values? items = some values → FitsItems Json.Number.InRange Sorted (depth + 1) values)
    (held : (limit depth (.array items)).value? = some value) : Canonical depth value := by
  obtain ⟨room, content⟩ := held_of_limit held
  obtain ⟨values, found, rfl⟩ := Option.map_eq_some_iff.mp content
  exact ⟨room, fit found⟩

theorem canonical_of_object {depth : Nat} {members : List (Option String × Draft)}
    (fit : ∀ {values}, memberValues? members = some values →
      FitsMembers Json.Number.InRange Sorted (depth + 1) values)
    (held : (limit depth (.object members)).value? = some value) : Canonical depth value := by
  obtain ⟨room, content⟩ := held_of_limit held
  obtain ⟨values, found, rfl⟩ := Option.map_eq_some_iff.mp content
  refine ⟨room, Json.sorted_sortMembers List.Pairwise.nil, Json.fitsMembers_iff.mpr fun member present => ?_⟩
  rcases Json.mem_sortMembers present with there | none
  · exact Json.fitsMembers_iff.mp (fit found) member there
  · simp at none

theorem fits_cons_item {depth : Nat} {item : Draft} {items : List Draft} {values : List Json}
    (first : ∀ {value}, item.value? = some value → Canonical depth value)
    (rest : ∀ {values}, values? items = some values → FitsItems Json.Number.InRange Sorted depth values)
    (held : values? (item :: items) = some values) : FitsItems Json.Number.InRange Sorted depth values := by
  obtain ⟨value, found, more⟩ := Option.bind_eq_some_iff.mp held
  obtain ⟨others, behind, same⟩ := Option.bind_eq_some_iff.mp more
  rw [← Option.some.inj same]
  exact ⟨first found, rest behind⟩

theorem fits_cons_member {depth : Nat} {key : Option String} {content : Draft}
    {members : List (Option String × Draft)} {values : List (String × Json)}
    (first : ∀ {value}, content.value? = some value → Canonical depth value)
    (rest : ∀ {values}, memberValues? members = some values →
      FitsMembers Json.Number.InRange Sorted depth values)
    (held : memberValues? ((key, content) :: members) = some values) :
    FitsMembers Json.Number.InRange Sorted depth values := by
  obtain ⟨name, _, inner⟩ := Option.bind_eq_some_iff.mp held
  obtain ⟨value, found, more⟩ := Option.bind_eq_some_iff.mp inner
  obtain ⟨others, behind, same⟩ := Option.bind_eq_some_iff.mp more
  rw [← Option.some.inj same]
  exact ⟨first found, rest behind⟩

theorem fits_no_items {depth : Nat} {values : List Json} (held : values? [] = some values) :
    FitsItems Json.Number.InRange Sorted depth values := by
  rw [← Option.some.inj held]
  trivial

theorem fits_no_members {depth : Nat} {values : List (String × Json)} (held : memberValues? [] = some values) :
    FitsMembers Json.Number.InRange Sorted depth values := by
  rw [← Option.some.inj held]
  trivial

mutual

/-- What is read as a value is canonical. -/
theorem canonical_of_readValue : (steps : Nat) → ∀ {depth : Nat} {characters : List Char} {draft : Draft}
    {left : Option (List Char)} {value : Json}, readValue steps depth characters = (draft, left) →
      draft.value? = some value → Canonical depth value
  | 0, _, _, _, _, _, read, held => by
    obtain ⟨rfl, _⟩ := Prod.mk.inj read
    simp [value?] at held
  | steps + 1, depth, _, draft, _, value, read, held => by
    rw [readValue] at read
    split at read
    · obtain ⟨rfl, _⟩ := Prod.mk.inj read
      rw [← Option.some.inj held]
      trivial
    · obtain ⟨rfl, _⟩ := Prod.mk.inj read
      rw [← Option.some.inj held]
      trivial
    · obtain ⟨rfl, _⟩ := Prod.mk.inj read
      rw [← Option.some.inj held]
      trivial
    · split at read
      · obtain ⟨rfl, _⟩ := Prod.mk.inj read
        simp [value?] at held
      · obtain ⟨rfl, _⟩ := Prod.mk.inj read
        rw [Spelling.draft] at held
        split at held
        · rw [← Option.some.inj held]
          trivial
        · simp [value?] at held
    · split at read
      · obtain ⟨rfl, _⟩ := Prod.mk.inj read
        exact canonical_of_array fits_no_items held
      · obtain ⟨rfl, _⟩ := Prod.mk.inj read
        exact canonical_of_array (fun found => fits_of_readItems steps rfl found) held
    · split at read
      · obtain ⟨rfl, _⟩ := Prod.mk.inj read
        exact canonical_of_object fits_no_members held
      · obtain ⟨rfl, _⟩ := Prod.mk.inj read
        exact canonical_of_object (fun found => fits_of_readMembers steps rfl found) held
    · exact canonical_of_readNumber read held
    · exact canonical_of_readNumber read held

theorem fits_of_readItems : (steps : Nat) → ∀ {depth : Nat} {characters : List Char} {items : List Draft}
    {left : Option (List Char)} {values : List Json}, readItems steps depth characters = (items, left) →
      values? items = some values → FitsItems Json.Number.InRange Sorted depth values
  | 0, _, _, _, _, _, read, held => by
    obtain ⟨rfl, _⟩ := Prod.mk.inj read
    simp [values?, value?] at held
  | steps + 1, depth, _, items, _, values, read, held => by
    rw [readItems] at read
    split at read
    · next first =>
      obtain ⟨rfl, _⟩ := Prod.mk.inj read
      exact fits_cons_item (canonical_of_readValue steps first) fits_no_items held
    · next first =>
      split at read
      · obtain ⟨rfl, _⟩ := Prod.mk.inj read
        exact fits_cons_item (canonical_of_readValue steps first) fits_no_items held
      · obtain ⟨rfl, _⟩ := Prod.mk.inj read
        exact fits_cons_item (canonical_of_readValue steps first) (fits_of_readItems steps rfl) held
      · obtain ⟨rfl, _⟩ := Prod.mk.inj read
        refine fits_cons_item (canonical_of_readValue steps first) (fun broken => ?_) held
        simp [values?, value?] at broken

theorem fits_of_readMembers : (steps : Nat) → ∀ {depth : Nat} {characters : List Char}
    {members : List (Option String × Draft)} {left : Option (List Char)} {values : List (String × Json)},
      readMembers steps depth characters = (members, left) → memberValues? members = some values →
        FitsMembers Json.Number.InRange Sorted depth values
  | 0, _, _, _, _, _, read, held => by
    obtain ⟨rfl, _⟩ := Prod.mk.inj read
    simp [memberValues?] at held
  | steps + 1, depth, _, members, _, values, read, held => by
    have broken {values : List (String × Json)} {key : Option String}
        (held : memberValues? [(key, .fault)] = some values) : FitsMembers Json.Number.InRange Sorted depth values :=
      fits_cons_member (fun none => by simp [value?] at none) fits_no_members held
    rw [readMembers] at read
    split at read
    · split at read
      · obtain ⟨rfl, _⟩ := Prod.mk.inj read
        exact broken held
      · split at read
        · split at read
          · next first =>
            obtain ⟨rfl, _⟩ := Prod.mk.inj read
            exact fits_cons_member (canonical_of_readValue steps first) fits_no_members held
          · next first =>
            split at read
            · obtain ⟨rfl, _⟩ := Prod.mk.inj read
              exact fits_cons_member (canonical_of_readValue steps first) fits_no_members held
            · obtain ⟨rfl, _⟩ := Prod.mk.inj read
              exact fits_cons_member (canonical_of_readValue steps first) (fits_of_readMembers steps rfl) held
            · obtain ⟨rfl, _⟩ := Prod.mk.inj read
              exact fits_cons_member (canonical_of_readValue steps first) broken held
        · obtain ⟨rfl, _⟩ := Prod.mk.inj read
          exact broken held
    · obtain ⟨rfl, _⟩ := Prod.mk.inj read
      exact broken held

end

/-- A text that is read as a value is read as a canonical one. -/
theorem canonical_of_read {text : String} {value : Json} (read : Json.read text = some value) : Canonical 0 value := by
  rw [Json.read, Draft.read, readStart] at read
  split at read
  · next first =>
    split at read
    · exact canonical_of_readValue _ first read
    · simp [value?] at read
  · next first => exact canonical_of_readValue _ first read

end Draft

end ContractWorks

import ContractWorks.Proofs.Json.Number

namespace ContractWorks

namespace Json

/-- A number is in range when it is whole and fits 64 bits, or when it is finite. -/
def Number.InRange : Number → Prop
  | .whole value => -2 ^ 63 ≤ value ∧ value ≤ Draft.maxWord
  | .real value => value.Finite

/-- A number is exact when it is whole and fits 64 bits. -/
def Number.Exact : Number → Prop
  | .whole value => -2 ^ 63 ≤ value ∧ value ≤ Draft.maxWord
  | .real _ => False

/-- A number is whole when it is no fraction. -/
def Number.IsWhole : Number → Prop
  | .whole _ => True
  | .real _ => False

theorem Number.inRange_of_exact {number : Number} (exact : number.Exact) : number.InRange := by
  cases number with
  | whole value => exact exact
  | real value => exact exact.elim

mutual

/-- A value fits at a depth when its numbers and the keys of its objects are as they should be, and when no more
containers are open than may be. -/
def Fits (numbers : Number → Prop) (keys : List String → Prop) (depth : Nat) : Json → Prop
  | .number value => numbers value
  | .array items => depth < Draft.maxDepth ∧ FitsItems numbers keys (depth + 1) items
  | .object members =>
    depth < Draft.maxDepth ∧ keys (members.map Prod.fst) ∧ FitsMembers numbers keys (depth + 1) members
  | _ => True

/-- This condition holds of items that all fit. -/
def FitsItems (numbers : Number → Prop) (keys : List String → Prop) (depth : Nat) : List Json → Prop
  | [] => True
  | item :: items => Fits numbers keys depth item ∧ FitsItems numbers keys depth items

/-- This condition holds of members whose values all fit. -/
def FitsMembers (numbers : Number → Prop) (keys : List String → Prop) (depth : Nat) :
    List (String × Json) → Prop
  | [] => True
  | (_, value) :: members => Fits numbers keys depth value ∧ FitsMembers numbers keys depth members

end

/-- A value can be printed at a depth when its numbers are in range. -/
abbrev Printable (depth : Nat) (value : Json) : Prop :=
  Fits Number.InRange (fun _ => True) depth value

/-- A value is whole when its numbers are. -/
abbrev Whole (value : Json) : Prop :=
  Fits Number.IsWhole (fun _ => True) 0 value

/-- A value can be read back at a depth when its numbers are exact. -/
abbrev Readable (depth : Nat) (value : Json) : Prop :=
  Fits Number.Exact (fun _ => True) depth value

/-- This function gives what the text of a number is read as. A fraction that is read again may be rounded. -/
def Number.reread : Number → Number
  | .whole value => .whole value
  | .real value =>
    match Draft.read value.text with
    | .number again => again
    | _ => .real value

mutual

/-- This function gives what the text of a value is read as. -/
def reread : Json → Json
  | .number value => .number value.reread
  | .array items => .array (rereadItems items)
  | .object members => .object (rereadMembers members)
  | other => other

/-- This function gives what the texts of items are read as. -/
def rereadItems : List Json → List Json
  | [] => []
  | item :: items => item.reread :: rereadItems items

/-- This function gives what the texts of members are read as. -/
def rereadMembers : List (String × Json) → List (String × Json)
  | [] => []
  | (key, value) :: members => (key, value.reread) :: rereadMembers members

end

section Fits

variable {numbers others : Number → Prop} {keys rules : List String → Prop}

mutual

/-- A value that fits at a depth fits where fewer containers are open and less is asked for. -/
theorem Fits.mono (less : ∀ number, numbers number → others number) (fewer : ∀ names, keys names → rules names) :
    (value : Json) → ∀ {depth outer : Nat}, outer ≤ depth → Fits numbers keys depth value →
      Fits others rules outer value
  | .null, _, _, _, _ => trivial
  | .bool _, _, _, _, _ => trivial
  | .number value, _, _, _, fits => less value fits
  | .text _, _, _, _, _ => trivial
  | .array items, _, _, order, fits =>
    ⟨Nat.lt_of_le_of_lt order fits.1, FitsItems.mono less fewer items (Nat.succ_le_succ order) fits.2⟩
  | .object members, _, _, order, fits =>
    ⟨Nat.lt_of_le_of_lt order fits.1, fewer _ fits.2.1,
      FitsMembers.mono less fewer members (Nat.succ_le_succ order) fits.2.2⟩

theorem FitsItems.mono (less : ∀ number, numbers number → others number)
    (fewer : ∀ names, keys names → rules names) : (items : List Json) → ∀ {depth outer : Nat}, outer ≤ depth →
      FitsItems numbers keys depth items → FitsItems others rules outer items
  | [], _, _, _, _ => trivial
  | item :: items, _, _, order, fits =>
    ⟨Fits.mono less fewer item order fits.1, FitsItems.mono less fewer items order fits.2⟩

theorem FitsMembers.mono (less : ∀ number, numbers number → others number)
    (fewer : ∀ names, keys names → rules names) : (members : List (String × Json)) → ∀ {depth outer : Nat},
      outer ≤ depth → FitsMembers numbers keys depth members → FitsMembers others rules outer members
  | [], _, _, _, _ => trivial
  | (_, value) :: members, _, _, order, fits =>
    ⟨Fits.mono less fewer value order fits.1, FitsMembers.mono less fewer members order fits.2⟩

end

variable {both : Number → Prop}

mutual

/-- A value fits as two conditions on its numbers ask for together when it fits as each asks for. -/
theorem Fits.and (together : ∀ number, numbers number → others number → both number) :
    (value : Json) → ∀ {depth outer : Nat}, Fits numbers keys depth value → Fits others rules outer value →
      Fits both keys depth value
  | .null, _, _, _, _ => trivial
  | .bool _, _, _, _, _ => trivial
  | .number value, _, _, first, second => together value first second
  | .text _, _, _, _, _ => trivial
  | .array items, _, _, first, second => ⟨first.1, FitsItems.and together items first.2 second.2⟩
  | .object members, _, _, first, second =>
    ⟨first.1, first.2.1, FitsMembers.and together members first.2.2 second.2.2⟩

theorem FitsItems.and (together : ∀ number, numbers number → others number → both number) :
    (items : List Json) → ∀ {depth outer : Nat}, FitsItems numbers keys depth items →
      FitsItems others rules outer items → FitsItems both keys depth items
  | [], _, _, _, _ => trivial
  | item :: items, _, _, first, second =>
    ⟨Fits.and together item first.1 second.1, FitsItems.and together items first.2 second.2⟩

theorem FitsMembers.and (together : ∀ number, numbers number → others number → both number) :
    (members : List (String × Json)) → ∀ {depth outer : Nat}, FitsMembers numbers keys depth members →
      FitsMembers others rules outer members → FitsMembers both keys depth members
  | [], _, _, _, _ => trivial
  | (_, value) :: members, _, _, first, second =>
    ⟨Fits.and together value first.1 second.1, FitsMembers.and together members first.2 second.2⟩

end

theorem fitsMembers_iff {depth : Nat} {members : List (String × Json)} :
    FitsMembers numbers keys depth members ↔ ∀ member ∈ members, Fits numbers keys depth member.2 := by
  induction members with
  | nil => simp [FitsMembers]
  | cons member members inductionHypothesis =>
    obtain ⟨key, value⟩ := member
    rw [FitsMembers, inductionHypothesis, List.forall_mem_cons]

theorem fitsItems_iff {depth : Nat} {items : List Json} :
    FitsItems numbers keys depth items ↔ ∀ item ∈ items, Fits numbers keys depth item := by
  induction items with
  | nil => simp [FitsItems]
  | cons item items inductionHypothesis => rw [FitsItems, inductionHypothesis, List.forall_mem_cons]

end Fits

mutual

/-- What can be read back exactly is read as it is. -/
theorem reread_eq_self : (value : Json) → ∀ {depth : Nat}, Readable depth value → value.reread = value
  | .null, _, _ => rfl
  | .bool _, _, _ => rfl
  | .number (.whole _), _, _ => rfl
  | .number (.real _), _, readable => readable.elim
  | .text _, _, _ => rfl
  | .array items, _, readable => congrArg Json.array (rereadItems_eq_self items readable.2)
  | .object members, _, readable => congrArg Json.object (rereadMembers_eq_self members readable.2.2)

theorem rereadItems_eq_self : (items : List Json) → ∀ {depth : Nat},
    FitsItems Number.Exact (fun _ => True) depth items → rereadItems items = items
  | [], _, _ => rfl
  | item :: items, _, readable => by
    rw [rereadItems, reread_eq_self item readable.1, rereadItems_eq_self items readable.2]

theorem rereadMembers_eq_self : (members : List (String × Json)) → ∀ {depth : Nat},
    FitsMembers Number.Exact (fun _ => True) depth members → rereadMembers members = members
  | [], _, _ => rfl
  | (_, value) :: members, _, readable => by
    rw [rereadMembers, reread_eq_self value readable.1, rereadMembers_eq_self members readable.2]

end

end Json

end ContractWorks

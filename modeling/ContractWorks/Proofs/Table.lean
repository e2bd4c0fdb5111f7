import ContractWorks.Table

namespace ContractWorks.Table

variable {κ ν : Type} [DecidableEq κ]

/-- A key that stands in a table has a value, and no other key has. -/
theorem get?_ne_none_iff {key : κ} {table : Table κ ν} :
    get? key table ≠ none ↔ key ∈ table.map Prod.fst := by
  induction table with
  | nil => simp
  | cons entry rest inductionHypothesis =>
    obtain ⟨other, value⟩ := entry
    by_cases same : other = key
    · simp [get?, same]
    · rw [get?, if_neg same, inductionHypothesis]
      simp [Ne.symm same]

theorem get?_filter {keep : κ × ν → Bool} {key : κ} {table : Table κ ν} (choice : Bool)
    (keeps : ∀ value, keep (key, value) = choice) :
    get? key (table.filter keep) = if choice then get? key table else none := by
  induction table with
  | nil => simp
  | cons entry rest inductionHypothesis =>
    obtain ⟨other, value⟩ := entry
    rw [List.filter_cons]
    by_cases same : other = key
    · subst same
      rw [keeps value]
      cases choice with
      | true => simp [get?]
      | false => simpa using inductionHypothesis
    · have behind : get? key ((other, value) :: rest) = get? key rest := by rw [get?, if_neg same]
      split
      · rw [get?, if_neg same, inductionHypothesis, behind]
      · rw [inductionHypothesis, behind]

/-- This condition says that no key stands twice in a table. -/
def Distinct (table : Table κ ν) : Prop :=
  (table.map Prod.fst).Nodup

omit [DecidableEq κ] in
theorem distinct_nil : Distinct ([] : Table κ ν) :=
  List.nodup_nil

theorem mem_keys_insert {key other : κ} {value : ν} {table : Table κ ν} :
    other ∈ (insert key value table).map Prod.fst ↔ other = key ∨ other ∈ table.map Prod.fst := by
  rw [← get?_ne_none_iff, ← get?_ne_none_iff]
  by_cases same : other = key
  · subst same
    simp [get?_insert_self]
  · simp [get?_insert_of_ne same, same]

theorem mem_keys_erase {key other : κ} {table : Table κ ν} :
    other ∈ (erase key table).map Prod.fst ↔ other ≠ key ∧ other ∈ table.map Prod.fst := by
  rw [← get?_ne_none_iff, ← get?_ne_none_iff]
  by_cases same : other = key
  · subst same
    simp [get?_erase_self]
  · simp [get?_erase_of_ne same, same]

theorem Distinct.insert {table : Table κ ν} (distinct : Distinct table) (key : κ) (value : ν) :
    Distinct (Table.insert key value table) := by
  induction table with
  | nil => simp [Distinct, Table.insert]
  | cons entry rest inductionHypothesis =>
    obtain ⟨other, old⟩ := entry
    obtain ⟨fresh, others⟩ := List.nodup_cons.mp distinct
    rw [Table.insert]
    split
    · next same =>
      subst same
      exact List.nodup_cons.mpr ⟨fresh, others⟩
    · next differ =>
      refine List.nodup_cons.mpr ⟨fun member => ?_, inductionHypothesis others⟩
      rcases mem_keys_insert.mp member with same | before
      · exact differ same
      · exact fresh before

theorem Distinct.erase {table : Table κ ν} (distinct : Distinct table) (key : κ) :
    Distinct (Table.erase key table) := by
  induction table with
  | nil => exact distinct
  | cons entry rest inductionHypothesis =>
    obtain ⟨other, old⟩ := entry
    obtain ⟨fresh, others⟩ := List.nodup_cons.mp distinct
    rw [Table.erase]
    split
    · exact inductionHypothesis others
    · exact List.nodup_cons.mpr
        ⟨fun member => fresh (mem_keys_erase.mp member).2, inductionHypothesis others⟩

omit [DecidableEq κ] in
theorem Distinct.nodup {table : Table κ ν} (distinct : Distinct table) : table.Nodup :=
  List.Pairwise.of_map Prod.fst (fun _ _ differ same => differ (congrArg Prod.fst same)) distinct

theorem erase_insert_of_ne {key other : κ} (differ : other ≠ key) (value : ν) (table : Table κ ν) :
    erase other (insert key value table) = insert key value (erase other table) := by
  induction table with
  | nil => simp [insert, erase, Ne.symm differ]
  | cons entry rest inductionHypothesis =>
    obtain ⟨first, old⟩ := entry
    by_cases same : first = key
    · subst same
      simp [insert, erase, Ne.symm differ]
    · by_cases gone : first = other
      · subst gone
        simp [insert, erase, same, inductionHypothesis]
      · simp [insert, erase, same, gone, inductionHypothesis]

theorem mem_of_get? {key : κ} {value : ν} {table : Table κ ν} (found : get? key table = some value) :
    (key, value) ∈ table := by
  induction table with
  | nil => simp at found
  | cons entry rest inductionHypothesis =>
    obtain ⟨other, old⟩ := entry
    rw [get?] at found
    split at found
    · next same =>
      subst same
      rw [Option.some.inj found]
      exact List.mem_cons_self
    · exact List.mem_cons_of_mem _ (inductionHypothesis found)

theorem get?_of_mem {key : κ} {value : ν} {table : Table κ ν} (distinct : Distinct table)
    (member : (key, value) ∈ table) : get? key table = some value := by
  induction table with
  | nil => simp at member
  | cons entry rest inductionHypothesis =>
    obtain ⟨other, old⟩ := entry
    obtain ⟨fresh, others⟩ := List.nodup_cons.mp distinct
    rcases List.mem_cons.mp member with same | later
    · obtain ⟨rfl, rfl⟩ := Prod.mk.inj same
      rw [get?, if_pos rfl]
    · have differ : other ≠ key := by
        rintro rfl
        exact fresh (List.mem_map.mpr ⟨_, later, rfl⟩)
      rw [get?, if_neg differ]
      exact inductionHypothesis others later

theorem eq_of_get?_singleton {key other : κ} {value found : ν} (there : get? other [(key, value)] = some found) :
    other = key ∧ found = value := by
  rw [get?] at there
  split at there
  · next same => exact ⟨same.symm, (Option.some.inj there).symm⟩
  · simp at there

/-- Tables without repeated keys that give the same values have the same entries. -/
theorem perm_of_get? {first second : Table κ ν} (distinctFirst : Distinct first)
    (distinctSecond : Distinct second) (same : ∀ key, get? key first = get? key second) :
    first.Perm second := by
  classical
  refine (List.perm_ext_iff_of_nodup distinctFirst.nodup distinctSecond.nodup).mpr ?_
  rintro ⟨key, value⟩
  constructor
  · intro member
    exact mem_of_get? ((same key).symm.trans (get?_of_mem distinctFirst member))
  · intro member
    exact mem_of_get? ((same key).trans (get?_of_mem distinctSecond member))

end ContractWorks.Table

namespace ContractWorks

/-- A table holds one value for each of its keys, in the order in which the keys were added. -/
abbrev Table (κ ν : Type) := List (κ × ν)

namespace Table

variable {κ ν : Type} [DecidableEq κ]

/-- This function looks up the value of a key. -/
def get? (key : κ) : Table κ ν → Option ν
  | [] => none
  | (other, value) :: rest => if other = key then some value else get? key rest

/-- This function sets the value of a key; a key that is there keeps its place. -/
def insert (key : κ) (value : ν) : Table κ ν → Table κ ν
  | [] => [(key, value)]
  | (other, old) :: rest =>
    if other = key then (key, value) :: rest else (other, old) :: insert key value rest

/-- This function removes a key. -/
def erase (key : κ) : Table κ ν → Table κ ν
  | [] => []
  | (other, value) :: rest => if other = key then erase key rest else (other, value) :: erase key rest

@[simp] theorem get?_nil (key : κ) : get? key ([] : Table κ ν) = none := rfl

theorem get?_insert_self (key : κ) (value : ν) (table : Table κ ν) :
    get? key (insert key value table) = some value := by
  induction table with
  | nil => simp [insert, get?]
  | cons entry rest inductionHypothesis =>
    obtain ⟨other, old⟩ := entry
    by_cases same : other = key <;> simp [insert, get?, same, inductionHypothesis]

theorem get?_insert_of_ne {key other : κ} (differ : other ≠ key) (value : ν) (table : Table κ ν) :
    get? other (insert key value table) = get? other table := by
  induction table with
  | nil => simp [insert, get?, Ne.symm differ]
  | cons entry rest inductionHypothesis =>
    obtain ⟨first, old⟩ := entry
    by_cases same : first = key
    · subst same
      simp [insert, get?, Ne.symm differ]
    · simp [insert, get?, same, inductionHypothesis]

theorem get?_erase_self (key : κ) (table : Table κ ν) : get? key (erase key table) = none := by
  induction table with
  | nil => rfl
  | cons entry rest inductionHypothesis =>
    obtain ⟨other, old⟩ := entry
    by_cases same : other = key <;> simp [erase, get?, same, inductionHypothesis]

theorem get?_erase_of_ne {key other : κ} (differ : other ≠ key) (table : Table κ ν) :
    get? other (erase key table) = get? other table := by
  induction table with
  | nil => rfl
  | cons entry rest inductionHypothesis =>
    obtain ⟨first, old⟩ := entry
    by_cases same : first = key
    · subst same
      simp [erase, get?, Ne.symm differ, inductionHypothesis]
    · simp [erase, get?, same, inductionHypothesis]

end Table

end ContractWorks

import ContractWorks.Proofs.Table
import ContractWorks.Queue.World
import Mathlib.Algebra.BigOperators.Group.List.Basic

namespace ContractWorks

namespace Table

variable {κ ν M : Type} [DecidableEq κ] [AddCommMonoid M]

/-- This function adds up what the values of a table weigh. -/
def total (weigh : ν → M) (table : Table κ ν) : M :=
  (table.map fun entry => weigh entry.2).sum

omit [DecidableEq κ] in
@[simp] theorem total_nil (weigh : ν → M) : total weigh ([] : Table κ ν) = 0 :=
  rfl

omit [DecidableEq κ] in
theorem total_cons (weigh : ν → M) (entry : κ × ν) (table : Table κ ν) :
    total weigh (entry :: table) = weigh entry.2 + total weigh table := by
  rw [total, List.map_cons, List.sum_cons, total]

theorem total_insert_new (weigh : ν → M) {key : κ} {table : Table κ ν}
    (free : get? key table = none) (value : ν) :
    total weigh (insert key value table) = total weigh table + weigh value := by
  induction table with
  | nil => rw [insert, total_cons, total_nil, add_comm]
  | cons entry rest inductionHypothesis =>
    obtain ⟨other, there⟩ := entry
    rw [get?] at free
    split at free
    · simp at free
    · next differ =>
      rw [insert, if_neg differ, total_cons, total_cons, inductionHypothesis free, add_assoc]

theorem total_erase_of_none (weigh : ν → M) {key : κ} {table : Table κ ν}
    (free : get? key table = none) : total weigh (erase key table) = total weigh table := by
  induction table with
  | nil => rfl
  | cons entry rest inductionHypothesis =>
    obtain ⟨other, there⟩ := entry
    rw [get?] at free
    split at free
    · simp at free
    · next differ => rw [erase, if_neg differ, total_cons, total_cons, inductionHypothesis free]

theorem get?_rest {key : κ} {value : ν} {rest : Table κ ν} (distinct : Distinct ((key, value) :: rest)) :
    get? key rest = none := by
  cases there : get? key rest with
  | none => rfl
  | some other => exact absurd (List.mem_map.mpr ⟨_, mem_of_get? there, rfl⟩) (List.nodup_cons.mp distinct).1

/-- A value that is set joins what the values of the other keys weigh. -/
theorem total_insert_erase (weigh : ν → M) {table : Table κ ν} (distinct : Distinct table) (key : κ)
    (value : ν) : total weigh (insert key value table) = total weigh (erase key table) + weigh value := by
  induction table with
  | nil => rw [insert, erase, total_cons, total_nil, add_comm]
  | cons entry rest inductionHypothesis =>
    obtain ⟨other, there⟩ := entry
    rw [insert, erase]
    split
    · next same =>
      subst same
      rw [total_cons, total_erase_of_none weigh (get?_rest distinct), add_comm]
    · rw [total_cons, total_cons, inductionHypothesis (List.nodup_cons.mp distinct).2, add_assoc]

/-- A value that is removed leaves the sum. -/
theorem total_erase (weigh : ν → M) {key : κ} {old : ν} {table : Table κ ν} (distinct : Distinct table)
    (found : get? key table = some old) :
    total weigh (erase key table) + weigh old = total weigh table := by
  induction table with
  | nil => simp at found
  | cons entry rest inductionHypothesis =>
    obtain ⟨other, there⟩ := entry
    rw [get?] at found
    rw [erase]
    split at found
    · next same =>
      subst same
      rw [if_pos rfl, total_erase_of_none weigh (get?_rest distinct), total_cons, Option.some.inj found,
        add_comm]
    · next differ =>
      have others := inductionHypothesis (List.nodup_cons.mp distinct).2 found
      rw [if_neg differ, total_cons, total_cons, add_assoc, others]

end Table

namespace World

variable {world : World} {number : Nat}

/-- This condition holds of a world when a property holds of all its tasks. -/
def Everywhere (property : Task → Prop) (world : World) : Prop :=
  ∀ number task, Table.get? number world.tasks = some task → property task

variable {property : Task → Prop}

theorem Everywhere.goOn (all : Everywhere property world) (number : Nat) {task : Task} (new : property task) :
    Everywhere property (world.goOn number task) := by
  intro other found standing
  by_cases same : other = number
  · subst same
    have here : some task = some found := (Table.get?_insert_self other task world.tasks).symm.trans standing
    exact Option.some.inj here ▸ new
  · exact all other found ((Table.get?_insert_of_ne same task world.tasks).symm.trans standing)

theorem Everywhere.spawn (all : Everywhere property world) {task : Task} (new : property task) :
    Everywhere property (world.spawn task) :=
  all.goOn world.nextTask new

theorem Everywhere.endTask (all : Everywhere property world) (number : Nat) :
    Everywhere property (world.endTask number) := by
  intro other found standing
  by_cases same : other = number
  · subst same
    have gone : none = some found := (Table.get?_erase_self other world.tasks).symm.trans standing
    simp at gone
  · exact all other found ((Table.get?_erase_of_ne same world.tasks).symm.trans standing)

theorem Everywhere.answer (all : Everywhere property world) (number : Nat) (answer : Answer) :
    Everywhere property (world.answer number answer) :=
  all.endTask number

/-- The tasks of a world are numbered when each number belongs to one task, and when the next number is new. -/
structure Numbered (world : World) : Prop where
  distinct : Table.Distinct world.tasks
  below : ∀ {number task}, Table.get? number world.tasks = some task → number < world.nextTask

theorem Numbered.fresh (numbered : world.Numbered) : Table.get? world.nextTask world.tasks = none := by
  cases found : Table.get? world.nextTask world.tasks with
  | none => rfl
  | some task => exact absurd (numbered.below found) (Nat.lt_irrefl _)

/-- A task that goes on keeps its number. -/
theorem Numbered.goOn (numbered : world.Numbered) (old : number < world.nextTask) (task : Task) :
    (world.goOn number task).Numbered where
  distinct := numbered.distinct.insert number task
  below := by
    intro other found there
    by_cases same : other = number
    · exact same ▸ old
    · exact numbered.below ((Table.get?_insert_of_ne same task world.tasks).symm.trans there)

theorem Numbered.endTask (numbered : world.Numbered) (number : Nat) : (world.endTask number).Numbered where
  distinct := numbered.distinct.erase number
  below := by
    intro other found there
    by_cases same : other = number
    · subst same
      exact absurd ((Table.get?_erase_self other world.tasks).symm.trans there) (by simp)
    · exact numbered.below ((Table.get?_erase_of_ne same world.tasks).symm.trans there)

theorem Numbered.spawn (numbered : world.Numbered) (task : Task) : (world.spawn task).Numbered where
  distinct := numbered.distinct.insert world.nextTask task
  below := by
    intro other found there
    by_cases same : other = world.nextTask
    · exact same ▸ Nat.lt_succ_self _
    · have before := numbered.below ((Table.get?_insert_of_ne same task world.tasks).symm.trans there)
      exact Nat.lt_succ_of_lt before

end World

end ContractWorks

import ContractWorks.Proofs.Queue.Tasks
import ContractWorks.Queue.Step
import Mathlib.Algebra.Order.Group.Multiset

namespace ContractWorks

/-- A stage says how far the work on a job has come with the one who holds its id. -/
inductive Stage where
  | inserted
  | announced
  | waiting
  | unstarted
  | pending
  | busy
  | leaving
  deriving DecidableEq

/-- A custody counts who holds the id of a job, and at which stages. -/
abbrev Custody := Multiset Stage

namespace Custody

/-- This is the custody of one holder, if it holds the id that is asked for. -/
def one (stage : Stage) (held id : JobId) : Custody :=
  if held = id then {stage} else 0

/-- This is the custody of a row of ids that wait for a worker. -/
def row (ids : List JobId) (id : JobId) : Custody :=
  Multiset.replicate (ids.count id) .waiting

@[simp] theorem one_self (stage : Stage) (id : JobId) : one stage id id = {stage} :=
  if_pos rfl

theorem one_of_ne (stage : Stage) {held id : JobId} (differ : held ≠ id) : one stage held id = 0 :=
  if_neg differ

@[simp] theorem row_nil (id : JobId) : row [] id = 0 :=
  rfl

theorem row_cons (held : JobId) (ids : List JobId) (id : JobId) :
    row (held :: ids) id = one .waiting held id + row ids id := by
  rw [row, row, one]
  by_cases same : held = id
  · subst same
    rw [if_pos rfl, List.count_cons_self, Multiset.replicate_succ, Multiset.singleton_add]
  · rw [if_neg same, List.count_cons_of_ne same, zero_add]

theorem row_append (first second : List JobId) (id : JobId) :
    row (first ++ second) id = row first id + row second id := by
  rw [row, row, row, List.count_append, Multiset.replicate_add]

theorem row_concat (ids : List JobId) (held id : JobId) :
    row (ids ++ [held]) id = row ids id + one .waiting held id := by
  rw [row_append, row_cons, row_nil, add_zero]

end Custody

open Custody (one row)

/-- This function gives the custody of a worker. -/
def WorkerStep.custody (id : JobId) : WorkerStep → Custody
  | .idle => 0
  | .claimed held => one .waiting held id
  | .retrying held => one .unstarted held id
  | .started record => one .pending record.id id
  | .compiling record => one .pending record.id id
  | .prepared record _ _ => one .pending record.id id
  | .ready record _ _ => one .pending record.id id
  | .invoking record _ _ => one .pending record.id id
  | .running record _ _ => one .busy record.id id
  | .collected record _ => one .busy record.id id
  | .storing record _ => one .busy record.id id
  | .finishing held _ => one .busy held id
  | .leaving held => one .leaving held id

/-- This function gives the custody of a start, which holds the ids it has entered until it offers them. -/
def StartStep.custody (id : JobId) : StartStep → Custody
  | .waiting => 0
  | .listing report => row report.requeued id
  | .failing _ report => row report.requeued id
  | .sweeping report => row report.requeued id
  | .relisting report => row report.requeued id
  | .checking _ report => row report.requeued id
  | .entering _ _ report => row report.requeued id
  | .offering report => row report.requeued id
  | .spawning _ => 0

/-- This function gives the custody of a task. -/
def Task.custody (id : JobId) : Task → Custody
  | .submit (.inserted held) => one .inserted held id
  | .submit (.announced held) => one .announced held id
  | .submit _ => 0
  | .start step => step.custody id
  | .worker step => step.custody id
  | .offer ids => row ids id
  | .retry held _ => one .waiting held id
  | .shutdown _ => 0
  | .status _ => 0

/-- This test finds the compiler runs of a job. -/
def Event.invokes (id : JobId) : Event → Bool
  | .invoked other _ _ _ => other = id
  | _ => false

/-- This test finds the submissions that are answered with an id. -/
def Event.accepts (id : JobId) : Event → Bool
  | .answered _ (.submitted (.ok other)) => other = id
  | _ => false

/-- A view shows one job of a world: its record, its live entry, who holds its id, and how often its compiler has
run and its submission was answered. -/
@[ext] structure View where
  record : Option JobRecord
  live : Option LiveJob
  custody : Custody
  invoked : Nat
  accepted : Nat

namespace World

/-- This is a view with a given custody. -/
def viewWith (id : JobId) (world : World) (custody : Custody) : View where
  record := Table.get? id world.jobs.records
  live := Table.get? id world.live
  custody := custody
  invoked := world.history.countP (Event.invokes id)
  accepted := world.history.countP (Event.accepts id)

/-- This function adds up the custody of a job on the channel and in all tasks. -/
def custody (id : JobId) (world : World) : Custody :=
  row world.channel.ids id + Table.total (Task.custody id) world.tasks

/-- This function adds up the custody of a job outside of one task. -/
def others (number : Nat) (id : JobId) (world : World) : Custody :=
  row world.channel.ids id + Table.total (Task.custody id) (Table.erase number world.tasks)

/-- This function views a job. -/
def view (id : JobId) (world : World) : View :=
  world.viewWith id (world.custody id)

variable {world next : World} {number : Nat} {old task : Task} {id : JobId} {event : Event}

/-- The custody of a job lies with one task and with the others. -/
theorem custody_of_found (distinct : Table.Distinct world.tasks)
    (found : Table.get? number world.tasks = some old) :
    world.custody id = world.others number id + old.custody id := by
  rw [custody, others, add_assoc, Table.total_erase _ distinct found]

theorem custody_goOn (distinct : Table.Distinct world.tasks) :
    (world.goOn number task).custody id = world.others number id + task.custody id := by
  have sum := Table.total_insert_erase (Task.custody id) distinct number task
  rw [custody, others, add_assoc, ← sum]
  rfl

theorem view_of_found (distinct : Table.Distinct world.tasks)
    (found : Table.get? number world.tasks = some old) :
    world.view id = world.viewWith id (world.others number id + old.custody id) := by
  rw [view, custody_of_found distinct found]

theorem view_goOn (distinct : Table.Distinct world.tasks) :
    (world.goOn number task).view id = world.viewWith id (world.others number id + task.custody id) := by
  rw [view, custody_goOn distinct]
  rfl

theorem view_endTask : (world.endTask number).view id = world.viewWith id (world.others number id) :=
  rfl

theorem view_note (quiet : event.invokes id = false) (silent : event.accepts id = false) :
    (world.note event).view id = world.view id := by
  have invoked : (world.history ++ [event]).countP (Event.invokes id) =
      world.history.countP (Event.invokes id) := by
    rw [List.countP_append, List.countP_singleton, quiet]
    rfl
  have accepted : (world.history ++ [event]).countP (Event.accepts id) =
      world.history.countP (Event.accepts id) := by
    rw [List.countP_append, List.countP_singleton, silent]
    rfl
  exact View.ext rfl rfl rfl invoked accepted

theorem accepted_pos_iff : 0 < (world.view id).accepted ↔
    ∃ number, .answered number (.submitted (.ok id)) ∈ world.history := by
  show 0 < world.history.countP (Event.accepts id) ↔ _
  rw [List.countP_pos_iff]
  constructor
  · rintro ⟨event, member, accepts⟩
    cases event with
    | answered number answer =>
      cases answer with
      | submitted result =>
        cases result with
        | ok other =>
          obtain rfl : other = id := of_decide_eq_true accepts
          exact ⟨number, member⟩
        | error error => simp [Event.accepts] at accepts
      | _ => simp [Event.accepts] at accepts
    | _ => simp [Event.accepts] at accepts
  · rintro ⟨number, member⟩
    exact ⟨_, member, decide_eq_true rfl⟩

end World

end ContractWorks

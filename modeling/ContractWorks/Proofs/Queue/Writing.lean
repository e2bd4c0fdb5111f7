import ContractWorks.Proofs.Queue.Deed
import ContractWorks.Proofs.Queue.Once

namespace ContractWorks

/-- A task writes a transition of a job when its next step makes it: a worker starts a job or writes its outcome, and a
start fails one that ran. -/
def Task.Writes (id : JobId) (transition : Transition) : Task → Prop
  | .worker (.claimed own) => own = id ∧ transition = .start
  | .worker (.finishing own outcome) => own = id ∧ transition = outcome
  | .start (.failing (own :: _) _) => own = id ∧ transition = .fail World.orphanError
  | _ => False

namespace World

variable {setting : Setting} {storage : StorageConfig} {world next : World} {number : Nat} {chance : Chance}
  {id : JobId} {move : Move} {task : Task}

/-- These are the ways in which a move deals with the record of a job: it keeps it, or a submission inserts a new one, or
a task takes it one step on. -/
inductive Writing (world next : World) (id : JobId) : Move → Prop where
  | kept {move : Move} (same : Table.get? id next.jobs.records = Table.get? id world.jobs.records) :
      Writing world next id move
  | inserted {number : Nat} {chance : Chance} {record : JobRecord}
      (found : Table.get? number world.tasks = some (.submit (.reserved record))) (own : record.id = id)
      (free : Table.get? id world.jobs.records = none) (stands : Table.get? id next.jobs.records = some record) :
      Writing world next id (.step number chance)
  | moved {number : Nat} {chance : Chance} {task : Task} {transition : Transition} {before after : JobRecord}
      (found : Table.get? number world.tasks = some task) (writes : task.Writes id transition)
      (there : Table.get? id world.jobs.records = some before)
      (applied : before.apply chance.now transition = .ok after)
      (stands : Table.get? id next.jobs.records = some after) : Writing world next id (.step number chance)

theorem Writing.of_same (same : next.jobs = world.jobs) : Writing world next id move :=
  .kept (by rw [same])

/-- A transition is a writing of the task that makes it. -/
theorem Writing.of_transition (found : Table.get? number world.tasks = some task) {own : JobId}
    {transition : Transition} (writes : task.Writes own transition) {disk : Disk}
    {result : Except StoreError JobRecord}
    (done : world.jobs.transition own transition chance.now chance.fault world.disk = (disk, next.jobs, result)) :
    Writing world next id (.step number chance) := by
  rcases JobStore.transition_cases done with ⟨before, after, there, applied, _, becomes⟩ | ⟨same, _⟩
  · have records : next.jobs.records = Table.insert own after world.jobs.records := by
      rw [becomes, JobStore.records_withRecords]
    by_cases alike : id = own
    · subst alike
      exact .moved found writes there applied (by rw [records, Table.get?_insert_self])
    · exact .kept (by rw [records, Table.get?_insert_of_ne alike])
  · exact .of_same same

theorem writing_submit {step : SubmitStep} (found : Table.get? number world.tasks = some (.submit step)) :
    Writing world (world.stepSubmit number chance step) id (.step number chance) := by
  have inserts {record : JobRecord} {disk : Disk} {jobs : JobStore} {result : Except StoreError Unit} {after : World}
      (found : Table.get? number world.tasks = some (.submit (.reserved record)))
      (done : world.jobs.insert record chance.fault world.disk = (disk, jobs, result)) (same : after.jobs = jobs) :
      Writing world after id (.step number chance) := by
    rcases JobStore.insert_cases done with ⟨_, free, rfl⟩ | ⟨rfl, _⟩
    · have records : after.jobs.records = Table.insert record.id record world.jobs.records := by
        rw [same, JobStore.records_withRecords]
      by_cases alike : id = record.id
      · subst alike
        exact .inserted found rfl free (by rw [records, Table.get?_insert_self])
      · exact .kept (by rw [records, Table.get?_insert_of_ne alike])
    · exact .of_same same
  generalize stepped : world.stepSubmit number chance step = next
  cases submitBranch stepped with
  | inserts done | fails done => exact inserts found done rfl
  | _ => exact .of_same rfl

theorem writing_start {step : StartStep} (found : Table.get? number world.tasks = some (.start step)) :
    Writing world (stepStart setting world number chance step) id (.step number chance) := by
  have leaves := @leaves_start setting world number chance step
  generalize stepped : stepStart setting world number chance step = next at leaves ⊢
  cases startBranch stepped with
  | orphans done | spares done | breaks done => exact .of_transition found ⟨rfl, rfl⟩ done
  | sweeps | unswept => exact .of_same rfl
  | _ => exact .of_same (leaves (by simp) (by simp)).jobs

theorem writing_worker {step : WorkerStep} (found : Table.get? number world.tasks = some (.worker step))
    (stepped : stepWorker setting world number chance step = some next) :
    Writing world next id (.step number chance) := by
  cases workerBranch stepped with
  | begins done | skips done | postpones done | finishes done => exact .of_transition found ⟨rfl, rfl⟩ done
  | _ => exact .of_same rfl

/-- Every move deals with the record of a job in one of these ways, as long as a restart finds the records again. -/
theorem writing_of_move (moved : move? setting world move = some next)
    (again : move = .restart → Table.get? id next.jobs.records = Table.get? id world.jobs.records) :
    Writing world next id move := by
  cases move with
  | call call =>
    rw [← Option.some.inj moved]
    exact .of_same (leaves_beginCall call).jobs
  | deliver own => exact .of_same (Option.some.inj moved ▸ rfl)
  | restart => exact .kept (again rfl)
  | step number chance =>
    obtain ⟨task, found, stepped⟩ := task_of_step moved
    cases task with
    | submit step => exact Option.some.inj stepped ▸ writing_submit found
    | start step => exact Option.some.inj stepped ▸ writing_start found
    | shutdown step => exact .of_same (leaves_shutdown stepped).jobs
    | status step => exact Option.some.inj stepped ▸ .of_same (leaves_status step).jobs
    | worker step => exact writing_worker found stepped
    | offer ids => exact .of_same (leaves_offer stepped).jobs
    | retry own awake => exact .of_same (leaves_retry stepped).jobs

theorem Guarded.writing (guarded : world.Guarded setting storage) (moved : move? setting world move = some next)
    (id : JobId) : Writing world next id move := by
  refine writing_of_move moved fun restarts => ?_
  subst restarts
  exact (guarded.secure.restart moved).2.2 id

end World

end ContractWorks

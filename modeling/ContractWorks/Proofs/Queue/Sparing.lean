import ContractWorks.Proofs.Queue.Outcome
import ContractWorks.Proofs.Queue.Writing

namespace ContractWorks

/-- An error is sparing with diagnostics when it has them only as the failure of a compiler, and never empty ones. -/
def ErrorRecord.Sparing (error : ErrorRecord) : Prop :=
  ∀ diagnostics, error.diagnostics = some diagnostics → error.code = .toolchain ∧ diagnostics ≠ ""

/-- A transition is sparing when it fails with a sparing error, if it fails. -/
def Transition.Sparing (transition : Transition) : Prop :=
  ∀ error, transition = .fail error → error.Sparing

/-- A record is sparing when its error is, if it has one. -/
def JobRecord.Sparing (record : JobRecord) : Prop :=
  ∀ error, record.error = some error → error.Sparing

/-- A task is sparing when the record that it inserts or the outcome that it writes is. -/
def Task.Sparing : Task → Prop
  | .submit (.reserved record) => record.Sparing
  | .worker (.finishing _ transition) => transition.Sparing
  | _ => True

theorem ErrorRecord.Sparing.bare (code : ErrorCode) (message : String) : ErrorRecord.Sparing ⟨code, message, none⟩ := by
  intro diagnostics here
  simp at here

theorem ErrorRecord.Sparing.toolchain (message diagnostics : String) :
    (ErrorRecord.toolchain message diagnostics).Sparing := by
  intro shown here
  rw [ErrorRecord.toolchain] at here ⊢
  dsimp only at here
  split at here
  · simp at here
  · next full => exact ⟨rfl, Option.some.inj here ▸ full⟩

/-- Of all failures of a compiler run only those that the compiler reports have diagnostics. -/
theorem ToolchainError.sparing_record (error : ToolchainError) : error.record.Sparing := by
  cases error with
  | failed message stderr => exact .toolchain message stderr
  | parse detail => exact .toolchain _ detail
  | timeout seconds => exact .bare _ _
  | spawn program text => exact .bare _ _
  | workspace error => exact .bare _ _
  | io text => exact .bare _ _

theorem Transition.sparing_fail {error : ErrorRecord} (sparing : error.Sparing) : (Transition.fail error).Sparing :=
  fun _ same => Transition.fail.inj same ▸ sparing

/-- A sparing transition of a sparing record leads to a sparing record. -/
theorem JobRecord.Sparing.write {record : JobRecord} {transition : Transition} (sparing : record.Sparing)
    (brings : transition.Sparing) (now : Time.Instant) : (record.write now transition).Sparing := by
  cases transition with
  | start => exact sparing
  | complete artifact => exact sparing
  | fail error => exact fun shown same => Option.some.inj same ▸ brings error rfl

theorem Task.sparing_of_duty {task : Task} (submits : task.duty ≠ .submit) (works : task.duty ≠ .worker) :
    task.Sparing := by
  cases task with
  | submit step => exact absurd rfl submits
  | worker step => exact absurd rfl works
  | _ => trivial

theorem Task.sparing_of_helps {task : Task} (helps : task.Helps) : task.Sparing := by
  unfold Helps at helps
  split at helps <;> trivial

namespace World

variable {setting : Setting} {storage : StorageConfig} {start world next : World} {number : Nat} {chance : Chance}
  {id : JobId}

theorem sparing_submit (step : SubmitStep) : (world.stepSubmit number chance step).Comes number Task.Sparing := by
  generalize stepped : world.stepSubmit number chance step = next
  cases submitBranch stepped with
  | reserves => exact comes_goOn fun error failed => by simp [JobRecord.new] at failed
  | inserts | enters => exact comes_goOn trivial
  | closed | full | fails | sends => exact comes_endTask

theorem sparing_afterRun (record : JobRecord) (ending : CompilerEnd) :
    (Task.worker (afterRun record ending)).Sparing := by
  cases ending with
  | made artifact => trivial
  | failed error => exact Transition.sparing_fail error.sparing_record
  | brokeOff => exact Transition.sparing_fail (.bare _ _)

/-- Whatever keeps a worker from its artifact, it is to write a sparing outcome. -/
theorem sparing_worker {step : WorkerStep} (stepped : stepWorker setting world number chance step = some next) :
    next.Comes number Task.Sparing := by
  cases workerBranch stepped with
  | stops => exact comes_endTask
  | refused | unlodged | loses => exact comes_goOn (Transition.sparing_fail (.bare _ _))
  | invokes => exact comes_goOn trivial
  | compiles => exact comes_goOn (sparing_afterRun _ _)
  | keeps => exact comes_goOn fun _ fails => by simp at fails
  | _ => exact comes_goOn trivial

theorem sparing_of_opening {call : Call} {task : Task} (opening : Opening setting call task) : task.Sparing := by
  cases opening <;> trivial

/-- A world is sparing when all of its tasks and records are. -/
structure IsSparing (world : World) : Prop where
  tasks : world.Everywhere Task.Sparing
  records : ∀ id record, Table.get? id world.jobs.records = some record → record.Sparing

/-- What a sparing task writes is sparing. -/
theorem sparing_of_writes {task : Task} {transition : Transition} (sparing : task.Sparing)
    (writes : task.Writes id transition) : transition.Sparing := by
  unfold Task.Writes at writes
  split at writes
  · exact writes.2 ▸ fun _ fails => by simp at fails
  · exact writes.2 ▸ sparing
  · exact writes.2 ▸ Transition.sparing_fail (.bare _ _)
  · exact writes.elim

/-- Every move keeps a world sparing. -/
theorem IsSparing.proceed (sparing : world.IsSparing) (guarded : world.Guarded setting storage) {move : Move}
    (moved : move? setting world move = some next) : next.IsSparing where
  tasks := by
    refine tasks_of_move (fun _ => Task.Sparing) guarded.tidy.numbered sparing.tasks moved
      (fun _ _ before => before) (fun _ _ => Task.sparing_of_helps) (fun _ _ _ => sparing_of_opening)
      fun number chance task _ _ stepped => ?_
    have others (submits : task.duty ≠ .submit) (works : task.duty ≠ .worker) : next.Comes number Task.Sparing :=
      comes_of_duty guarded.tidy.numbered stepped fun _ same => Task.sparing_of_duty (same ▸ submits) (same ▸ works)
    cases task with
    | submit step => exact Option.some.inj stepped ▸ sparing_submit step
    | worker step => exact sparing_worker stepped
    | _ => exact others (by simp [Task.duty]) (by simp [Task.duty])
  records id record found := by
    cases guarded.writing moved id with
    | kept same => exact sparing.records id record (same ▸ found)
    | inserted reserves _ _ stands =>
      obtain rfl := Option.some.inj (stands.symm.trans found)
      exact sparing.tasks _ _ reserves
    | moved held writes there applied stands =>
      obtain rfl := Option.some.inj (stands.symm.trans found)
      obtain ⟨_, rfl⟩ := JobStore.apply_eq_ok applied
      exact (sparing.records id _ there).write (sparing_of_writes (sparing.tasks _ _ held) writes) _

end World

end ContractWorks

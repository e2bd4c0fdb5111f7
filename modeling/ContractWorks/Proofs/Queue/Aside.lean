import ContractWorks.Proofs.Queue.Flow

namespace ContractWorks

/-- A task stands by when it looks at a job, shuts down, or is a start that has not taken the receiver. -/
def Task.StandsBy : Task → Prop
  | .status _ => True
  | .shutdown _ => True
  | .start .waiting => True
  | _ => False

namespace World

variable {setting : Setting} {world base next : World} {number : Nat} {chance : Chance} {old task : Task} {move : Move}

/-- A move is workless when it is no submission and no step of a worker, and when nothing befalls the process. -/
def WorklessMove (world : World) : Move → Prop
  | .call (.request _) => False
  | .call (.submit _ _) => False
  | .call _ => True
  | .step number _ => ∀ step, Table.get? number world.tasks ≠ some (.worker step)
  | _ => False

/-- Some moves are workless when each of them is. -/
def Workless (setting : Setting) (base : World) (moves : List Move) : Prop :=
  ∀ former move, former ++ [move] <+: moves → (run setting base former).WorklessMove move

theorem WorklessMove.ordinary (workless : world.WorklessMove move) : move.IsOrdinary := by
  cases move with
  | call call => trivial
  | step number chance => trivial
  | deliver id => exact workless
  | restart => exact workless

/-- A move is made aside when it changes no job, and when the task that makes it stands by afterwards. -/
structure Aside (number : Nat) (world next : World) : Prop where
  disk : next.disk = world.disk
  jobs : next.jobs = world.jobs
  live : next.live = world.live
  ids : next.channel.ids = world.channel.ids
  receiver : next.channel.receiver = world.channel.receiver
  others : ∀ other, other ≠ number → Table.get? other next.tasks = Table.get? other world.tasks
  own : ∀ task, Table.get? number next.tasks = some task → task.StandsBy
  silent : ∀ other report, .answered other (.started (.ok report)) ∈ next.history →
    .answered other (.started (.ok report)) ∈ world.history

theorem aside_refl (stands : ∀ task, Table.get? number world.tasks = some task → task.StandsBy) :
    Aside number world world :=
  ⟨rfl, rfl, rfl, rfl, rfl, fun _ _ => rfl, stands, fun _ _ member => member⟩

theorem Aside.goOn (aside : Aside number world base) (stands : task.StandsBy) :
    Aside number world (base.goOn number task) where
  disk := aside.disk
  jobs := aside.jobs
  live := aside.live
  ids := aside.ids
  receiver := aside.receiver
  others other differ := (Table.get?_insert_of_ne differ _ _).trans (aside.others other differ)
  own _ found := Option.some.inj ((Table.get?_insert_self _ _ _).symm.trans found) ▸ stands
  silent := aside.silent

theorem Aside.note (aside : Aside number world base) {event : Event}
    (plain : ∀ other report, event ≠ .answered other (.started (.ok report))) :
    Aside number world (base.note event) where
  disk := aside.disk
  jobs := aside.jobs
  live := aside.live
  ids := aside.ids
  receiver := aside.receiver
  others := aside.others
  own := aside.own
  silent other report member := by
    rcases List.mem_append.mp member with before | now
    · exact aside.silent other report before
    · exact absurd (List.mem_singleton.mp now).symm (plain other report)

theorem Aside.endTask (aside : Aside number world base) : Aside number world (base.endTask number) where
  disk := aside.disk
  jobs := aside.jobs
  live := aside.live
  ids := aside.ids
  receiver := aside.receiver
  others other differ := (Table.get?_erase_of_ne differ _).trans (aside.others other differ)
  own _ found := by
    have gone : Table.get? number (Table.erase number base.tasks) = none := Table.get?_erase_self _ _
    exact absurd (gone.symm.trans found) (by simp)
  silent := aside.silent

theorem Aside.answer (aside : Aside number world base) {answer : Answer}
    (plain : ∀ report, answer ≠ .started (.ok report)) : Aside number world (base.answer number answer) :=
  aside.endTask.note fun _ report same => plain report (Event.answered.inj same).2

/-- A look is made aside. -/
theorem aside_status {step : StatusStep} (found : Table.get? number world.tasks = some (.status step)) :
    Aside number world (world.stepStatus number chance step) := by
  have stands : Aside number world world := aside_refl fun task there => by
    rw [← Option.some.inj (found.symm.trans there)]
    trivial
  generalize stepped : world.stepStatus number chance step = next
  cases statusBranch stepped with
  | reads | finds => exact stands.goOn trivial
  | _ => exact stands.answer (by simp)

/-- A shutdown is made aside. -/
theorem aside_shutdown {step : ShutdownStep} (found : Table.get? number world.tasks = some (.shutdown step))
    (stepped : world.stepShutdown number step = some next) : Aside number world next := by
  have stands : Aside number world world := aside_refl fun task there => by
    rw [← Option.some.inj (found.symm.trans there)]
    trivial
  cases shutdownBranch stepped with
  | closes =>
    have closed : Aside number world { world with channel := { world.channel with senderOpen := false } } :=
      ⟨rfl, rfl, rfl, rfl, rfl, stands.others, stands.own, stands.silent⟩
    exact closed.goOn trivial
  | collects =>
    have emptied : Aside number world { world with pool := [] } :=
      ⟨rfl, rfl, rfl, rfl, rfl, stands.others, stands.own, stands.silent⟩
    exact emptied.goOn trivial
  | stops => exact stands.answer (by simp)

/-- A start that finds that another one has come before it is made aside. -/
theorem aside_late_start (begun : world.channel.receiver ≠ .free)
    (found : Table.get? number world.tasks = some (.start .waiting)) :
    Aside number world (stepStart setting world number chance .waiting) := by
  have stands : Aside number world world := aside_refl fun task there => by
    rw [← Option.some.inj (found.symm.trans there)]
    trivial
  generalize stepped : stepStart setting world number chance .waiting = next
  cases startBranch stepped with
  | takes free => exact absurd free begun
  | late => exact stands.answer (by simp)

/-- A call that submits nothing begins aside. -/
theorem aside_call (fresh : Table.get? world.nextTask world.tasks = none) {call : Call}
    (workless : world.WorklessMove (.call call)) : Aside world.nextTask world (beginCall setting world call) := by
  have counted : Aside world.nextTask world { world with nextTask := world.nextTask + 1 } :=
    ⟨rfl, rfl, rfl, rfl, rfl, fun _ _ => rfl, fun task found => by simp [fresh] at found, fun _ _ member => member⟩
  have called : Aside world.nextTask world ({ world with nextTask := world.nextTask + 1 }.note
      (.called world.nextTask call)) := counted.note (by simp)
  cases call with
  | request submission => exact workless.elim
  | submit kind input => exact workless.elim
  | start => exact called.goOn trivial
  | shutdown => exact called.goOn trivial
  | status id => exact called.goOn trivial

/-- A step of a task that stands by is made aside, unless it takes the receiver. -/
theorem aside_step (found : Table.get? number world.tasks = some task) (stands : task.StandsBy)
    (late : task = .start .waiting → world.channel.receiver ≠ .free)
    (stepped : stepTask setting world number chance task = some next) : Aside number world next := by
  cases task with
  | status step => exact Option.some.inj stepped ▸ aside_status found
  | shutdown step => exact aside_shutdown found stepped
  | start step =>
    cases step with
    | waiting => exact Option.some.inj stepped ▸ aside_late_start (late rfl) found
    | _ => exact stands.elim
  | _ => exact stands.elim

end World

end ContractWorks

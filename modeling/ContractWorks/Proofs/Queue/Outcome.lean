import ContractWorks.Proofs.Queue.Rescue
import ContractWorks.Proofs.Queue.Tending

namespace ContractWorks

/-- A duty is the sort of work that a task does from its beginning to its end. -/
inductive Duty where
  | submit
  | start
  | shutdown
  | status
  | worker
  | offer
  | retry
  deriving DecidableEq

/-- This function gives the duty of a task. -/
def Task.duty : Task → Duty
  | .submit _ => .submit
  | .start _ => .start
  | .shutdown _ => .shutdown
  | .status _ => .status
  | .worker _ => .worker
  | .offer _ => .offer
  | .retry _ _ => .retry

/-- This function gives the duty of the tasks that end with an answer. -/
def Answer.duty : Answer → Duty
  | .submitted _ => .submit
  | .started _ => .start
  | .stopped => .shutdown
  | .status _ => .status

/-- This function gives the duty of the task that a call begins. -/
def Call.duty : Call → Duty
  | .request _ => .submit
  | .submit _ _ => .submit
  | .start => .start
  | .shutdown => .shutdown
  | .status _ => .status

/-- A call that asks for something to be submitted begins a submission. -/
theorem Call.duty_of_asked {call : Call} {asked : Except QueueError (JobKind × JobInput)}
    (same : call.asked? = some asked) : call.duty = .submit := by
  cases call with
  | request submission => rfl
  | submit kind input => rfl
  | _ => simp [Call.asked?] at same

/-- A task helps when another task has made it: it is a worker that waits, an offer or a retry. -/
def Task.Helps : Task → Prop
  | .worker .idle => True
  | .offer _ => True
  | .retry _ _ => True
  | _ => False

namespace World

variable {setting : Setting} {world base next : World} {number other : Nat} {chance : Chance} {old task : Task}
  {duty : Duty} {answer : Answer}

/-- A world follows another one when the tasks that there were go on as they are, and when the new ones help. -/
structure Follows (world base : World) : Prop where
  history : base.history = world.history
  nextTask : world.nextTask ≤ base.nextTask
  old : ∀ other, other < world.nextTask → Table.get? other base.tasks = Table.get? other world.tasks
  new : ∀ other task, world.nextTask ≤ other → Table.get? other base.tasks = some task → task.Helps

theorem follows_of_same (numbered : world.Numbered) (history : base.history = world.history)
    (nextTask : base.nextTask = world.nextTask) (tasks : base.tasks = world.tasks) : Follows world base where
  history := history
  nextTask := Nat.le_of_eq nextTask.symm
  old := fun _ _ => by rw [tasks]
  new := fun other task beyond found => by
    rw [tasks] at found
    exact absurd (numbered.below found) (Nat.not_lt.mpr beyond)

theorem follows_spawn (numbered : world.Numbered) (helps : task.Helps) : Follows world (world.spawn task) where
  history := rfl
  nextTask := Nat.le_succ _
  old := fun _ older => Table.get?_insert_of_ne (Nat.ne_of_lt older) _ _
  new := fun other there beyond found => by
    by_cases same : other = world.nextTask
    · subst same
      have here : some task = some there := (Table.get?_insert_self _ _ _).symm.trans found
      exact Option.some.inj here ▸ helps
    · have before := (Table.get?_insert_of_ne same task world.tasks).symm.trans found
      exact absurd (numbered.below before) (Nat.not_lt.mpr beyond)

/-- These are the ways in which a step of a task with a duty ends. -/
inductive Outcome (number : Nat) (duty : Duty) (world : World) : World → Prop where
  | goOn {base : World} {task : Task} (follows : Follows world base) (same : task.duty = duty) :
      Outcome number duty world (base.goOn number task)
  | invoked {base : World} {task : Task} {id : JobId} {kind : JobKind} {input : JobInput} {hasDirectory : Bool}
      (follows : Follows world base) (same : task.duty = duty) :
      Outcome number duty world ((base.goOn number task).note (.invoked id kind input hasDirectory))
  | ended {base : World} (follows : Follows world base) : Outcome number duty world (base.endTask number)
  | answered {base : World} {answer : Answer} (follows : Follows world base) (same : answer.duty = duty) :
      Outcome number duty world (base.answer number answer)

theorem outcome_submit (numbered : world.Numbered) (step : SubmitStep) :
    Outcome number .submit world (world.stepSubmit number chance step) := by
  generalize stepped : world.stepSubmit number chance step = next
  cases submitBranch stepped with
  | reserves | inserts | enters => exact .goOn (follows_of_same numbered rfl rfl rfl) rfl
  | _ => exact .answered (follows_of_same numbered rfl rfl rfl) rfl

/-- The workers that a start makes help. -/
theorem follows_spawnWorkers (count : Nat) (numbered : world.Numbered) :
    Follows world (spawnWorkers count world) where
  history := (staffs_spawnWorkers count numbered).history
  nextTask := le_nextTask_spawnWorkers count world
  old := fun other older => by
    rcases get?_spawnWorkers count numbered other with same | ⟨absent, idle⟩
    · exact same
    · have role := (staffs_spawnWorkers count numbered).old other older
      simp [roleAt, absent, idle] at role
  new := fun other task beyond found => by
    rcases get?_spawnWorkers count numbered other with same | ⟨_, idle⟩
    · exact absurd (numbered.below (same.symm.trans found)) (Nat.not_lt.mpr beyond)
    · obtain rfl : Task.worker .idle = task := by simpa using idle.symm.trans found
      trivial

theorem outcome_start (numbered : world.Numbered) (step : StartStep) :
    Outcome number .start world (stepStart setting world number chance step) := by
  generalize stepped : stepStart setting world number chance step = next
  cases startBranch stepped with
  | late | unlisted | breaks | unlistedAgain | shut => exact .answered (follows_of_same numbered rfl rfl rfl) rfl
  | offers => exact .goOn (follows_spawn numbered trivial) rfl
  | spawns =>
    have shared : Numbered { world with channel := { world.channel with receiver := .shared } } :=
      ⟨numbered.distinct, numbered.below⟩
    have staffed := follows_spawnWorkers setting.workerCount shared
    exact .answered ⟨staffed.history, staffed.nextTask, staffed.old, staffed.new⟩ rfl
  | _ => exact .goOn (follows_of_same numbered rfl rfl rfl) rfl

theorem outcome_shutdown (numbered : world.Numbered) {step : ShutdownStep}
    (stepped : world.stepShutdown number step = some next) : Outcome number .shutdown world next := by
  cases shutdownBranch stepped with
  | closes | collects => exact .goOn (follows_of_same numbered rfl rfl rfl) rfl
  | stops => exact .answered (follows_of_same numbered rfl rfl rfl) rfl

theorem outcome_status (numbered : world.Numbered) (step : StatusStep) :
    Outcome number .status world (world.stepStatus number chance step) := by
  generalize stepped : world.stepStatus number chance step = next
  cases statusBranch stepped with
  | reads | finds => exact .goOn (follows_of_same numbered rfl rfl rfl) rfl
  | _ => exact .answered (follows_of_same numbered rfl rfl rfl) rfl

theorem outcome_worker (numbered : world.Numbered) {step : WorkerStep}
    (stepped : stepWorker setting world number chance step = some next) : Outcome number .worker world next := by
  cases workerBranch stepped with
  | stops => exact .ended (follows_of_same numbered rfl rfl rfl)
  | retries => exact .goOn (follows_spawn numbered trivial) rfl
  | invokes => exact .invoked (follows_of_same numbered rfl rfl rfl) rfl
  | _ => exact .goOn (follows_of_same numbered rfl rfl rfl) rfl

theorem outcome_offer (numbered : world.Numbered) {ids : List JobId}
    (stepped : world.stepOffer number ids = some next) : Outcome number .offer world next := by
  cases offerBranch stepped with
  | more => exact .goOn (follows_of_same numbered rfl rfl rfl) rfl
  | _ => exact .ended (follows_of_same numbered rfl rfl rfl)

theorem outcome_retry (numbered : world.Numbered) {id : JobId} {awake : Bool}
    (stepped : world.stepRetry number id awake = some next) : Outcome number .retry world next := by
  cases retryBranch stepped with
  | wakes => exact .goOn (follows_of_same numbered rfl rfl rfl) rfl
  | gone | sends => exact .ended (follows_of_same numbered rfl rfl rfl)

/-- A step of a task ends in one of the ways there are for its duty. -/
theorem outcome_of_step (numbered : world.Numbered)
    (stepped : stepTask setting world number chance old = some next) : Outcome number old.duty world next := by
  cases old with
  | submit step =>
    rw [← Option.some.inj stepped]
    exact outcome_submit numbered step
  | start step =>
    rw [← Option.some.inj stepped]
    exact outcome_start numbered step
  | shutdown step => exact outcome_shutdown numbered stepped
  | status step =>
    rw [← Option.some.inj stepped]
    exact outcome_status numbered step
  | worker step => exact outcome_worker numbered stepped
  | offer ids => exact outcome_offer numbered stepped
  | retry id awake => exact outcome_retry numbered stepped

theorem numbered_opened (numbered : world.Numbered) (call : Call) : (world.opened call).Numbered :=
  ⟨numbered.distinct, fun found => Nat.lt_succ_of_lt (numbered.below found)⟩

/-- A call begins with a task of its duty, or it is answered at once. -/
theorem outcome_call (numbered : world.Numbered) (call : Call) :
    Outcome world.nextTask call.duty (world.opened call) (beginCall setting world call) := by
  have refl (call : Call) : Follows (world.opened call) (world.opened call) :=
    follows_of_same (numbered_opened numbered call) rfl rfl rfl
  generalize begun : beginCall setting world call = next
  cases callBranch begun with
  | unresolved asked | refuses asked => exact .answered (refl _) (Call.duty_of_asked asked).symm
  | submits asked => exact .goOn (refl _) (Call.duty_of_asked asked).symm
  | _ => exact .goOn (refl _) rfl

/-- The tasks that there were, apart from the one that takes the step, are where they were. -/
theorem Outcome.others (outcome : Outcome number duty world next) (differ : other ≠ number)
    (older : other < world.nextTask) : Table.get? other next.tasks = Table.get? other world.tasks := by
  cases outcome with
  | goOn follows same => exact (Table.get?_insert_of_ne differ _ _).trans (follows.old other older)
  | invoked follows same => exact (Table.get?_insert_of_ne differ _ _).trans (follows.old other older)
  | ended follows => exact (Table.get?_erase_of_ne differ _).trans (follows.old other older)
  | answered follows same => exact (Table.get?_erase_of_ne differ _).trans (follows.old other older)

theorem Outcome.nextTask (outcome : Outcome number duty world next) : world.nextTask ≤ next.nextTask := by
  cases outcome with
  | goOn follows same => exact follows.nextTask
  | invoked follows same => exact follows.nextTask
  | ended follows => exact follows.nextTask
  | answered follows same => exact follows.nextTask

/-- A task after a step is as it was, or it has the duty of the one that takes the step, or it helps. -/
theorem Outcome.came (outcome : Outcome number duty world next) (found : Table.get? other next.tasks = some task) :
    (other ≠ number ∧ Table.get? other world.tasks = some task) ∨ (other = number ∧ task.duty = duty) ∨
      (other ≠ number ∧ task.Helps) := by
  by_cases same : other = number
  · subst same
    refine .inr (.inl ⟨rfl, ?_⟩)
    cases outcome with
    | goOn follows alike =>
      have here := (Table.get?_insert_self _ _ _).symm.trans found
      rw [← Option.some.inj here, alike]
    | invoked follows alike =>
      have here := (Table.get?_insert_self _ _ _).symm.trans found
      rw [← Option.some.inj here, alike]
    | ended follows =>
      have gone := (Table.get?_erase_self _ _).symm.trans found
      simp at gone
    | answered follows alike =>
      have gone := (Table.get?_erase_self _ _).symm.trans found
      simp at gone
  · rcases Nat.lt_or_ge other world.nextTask with older | beyond
    · exact .inl ⟨same, (outcome.others same older).symm.trans found⟩
    · refine .inr (.inr ⟨same, ?_⟩)
      cases outcome with
      | goOn follows alike =>
        exact follows.new other task beyond ((Table.get?_insert_of_ne same _ _).symm.trans found)
      | invoked follows alike =>
        exact follows.new other task beyond ((Table.get?_insert_of_ne same _ _).symm.trans found)
      | ended follows => exact follows.new other task beyond ((Table.get?_erase_of_ne same _).symm.trans found)
      | answered follows alike =>
        exact follows.new other task beyond ((Table.get?_erase_of_ne same _).symm.trans found)

/-- An answer after a step has been given before, or it is that of the task that takes the step and ends with it. -/
theorem Outcome.answers (outcome : Outcome number duty world next) (told : .answered other answer ∈ next.history) :
    .answered other answer ∈ world.history ∨
      (other = number ∧ answer.duty = duty ∧ Table.get? number next.tasks = none) := by
  cases outcome with
  | goOn follows same => exact .inl (follows.history ▸ told)
  | invoked follows same =>
    rcases List.mem_append.mp told with before | now
    · exact .inl (follows.history ▸ before)
    · simp at now
  | ended follows => exact .inl (follows.history ▸ told)
  | answered follows same =>
    rcases List.mem_append.mp told with before | now
    · exact .inl (follows.history ▸ before)
    · obtain ⟨rfl, rfl⟩ := by simpa using now
      exact .inr ⟨rfl, same, Table.get?_erase_self _ _⟩

/-- What has been told stays told. -/
theorem Outcome.kept (outcome : Outcome number duty world next) {event : Event} (told : event ∈ world.history) :
    event ∈ next.history := by
  cases outcome with
  | goOn follows same =>
    show event ∈ World.history _
    exact follows.history.symm ▸ told
  | invoked follows same => exact List.mem_append_left _ (follows.history.symm ▸ told)
  | ended follows =>
    show event ∈ World.history _
    exact follows.history.symm ▸ told
  | answered follows same => exact List.mem_append_left _ (follows.history.symm ▸ told)

/-- A world is closed when a task that has answered is gone. -/
def Closed (world : World) : Prop :=
  ∀ number answer, .answered number answer ∈ world.history →
    number < world.nextTask ∧ Table.get? number world.tasks = none

theorem Outcome.closed (outcome : Outcome number duty world next) (closed : world.Closed)
    (silent : ∀ answer, .answered number answer ∉ world.history) (there : number < world.nextTask) : next.Closed := by
  intro other answer told
  rcases outcome.answers told with before | ⟨rfl, _, gone⟩
  · obtain ⟨older, absent⟩ := closed other answer before
    have differ : other ≠ number := by
      rintro rfl
      exact silent answer before
    exact ⟨Nat.lt_of_lt_of_le older outcome.nextTask, (outcome.others differ older).trans absent⟩
  · exact ⟨Nat.lt_of_lt_of_le there outcome.nextTask, gone⟩

theorem Closed.silent (closed : world.Closed) (found : Table.get? number world.tasks = some task) (answer : Answer) :
    .answered number answer ∉ world.history := by
  intro told
  have gone := (closed number answer told).2
  simp [found] at gone

/-- A move keeps a world closed. -/
theorem Closed.move (closed : world.Closed) (numbered : world.Numbered) {move : Move}
    (moved : move? setting world move = some next) : next.Closed := by
  cases move with
  | call call =>
    rw [← Option.some.inj moved]
    have silent (answer : Answer) : .answered world.nextTask answer ∉ world.history := fun told =>
      Nat.lt_irrefl _ (closed world.nextTask answer told).1
    have noted {other : Nat} {answer : Answer} (told : .answered other answer ∈ (world.opened call).history) :
        .answered other answer ∈ world.history := by
      rcases List.mem_append.mp told with before | now
      · exact before
      · simp at now
    refine (outcome_call numbered call).closed ?_ (fun answer told => silent answer (noted told)) (Nat.lt_succ_self _)
    intro other answer told
    obtain ⟨older, gone⟩ := closed other answer (noted told)
    exact ⟨Nat.lt_succ_of_lt older, gone⟩
  | deliver id =>
    rw [← Option.some.inj moved]
    exact closed
  | restart =>
    obtain ⟨_, _, _, _, _, _, rfl⟩ := stores_of_restart moved
    exact fun other answer told => ⟨(closed other answer told).1, rfl⟩
  | step number chance =>
    obtain ⟨task, found, stepped⟩ := task_of_step moved
    exact (outcome_of_step numbered stepped).closed closed (closed.silent found) (numbered.below found)

end World

end ContractWorks

namespace ContractWorks.World

variable {setting : Setting} {base world next : World} {number : Nat} {task : Task} {move : Move}
  {property : Task → Prop}

/-- A task comes to a property in a world when it has this property there, or is no more. -/
def Comes (world : World) (number : Nat) (property : Task → Prop) : Prop :=
  ∀ task, Table.get? number world.tasks = some task → property task

theorem comes_goOn (holds : property task) : (base.goOn number task).Comes number property :=
  fun _ found => Option.some.inj ((Table.get?_insert_self _ _ _).symm.trans found) ▸ holds

theorem comes_endTask : (base.endTask number).Comes number property := by
  intro task found
  have gone : none = some task := (Table.get?_erase_self _ _).symm.trans found
  simp at gone

/-- These are the tasks that calls begin with. -/
inductive Opening (setting : Setting) : Call → Task → Prop where
  | submit {call : Call} {kind : JobKind} {input : JobInput} (valid : (setting.gate kind input).valid = true) :
      Opening setting call (.submit (.waiting kind input))
  | start : Opening setting .start (.start .waiting)
  | shutdown : Opening setting .shutdown (.shutdown .closing)
  | status (id : JobId) : Opening setting (.status id) (.status (.reading id))

/-- A call begins with one of these tasks, unless it is answered at once. -/
theorem comes_beginCall (call : Call) :
    (beginCall setting world call).Comes world.nextTask (Opening setting call) := by
  generalize begun : beginCall setting world call = next
  cases callBranch begun with
  | unresolved | refuses => exact comes_endTask
  | submits _ valid => exact comes_goOn (.submit valid)
  | starts => exact comes_goOn .start
  | shutsDown => exact comes_goOn .shutdown
  | looks => exact comes_goOn (.status _)

/-- A step comes to what all tasks of its duty have. -/
theorem comes_of_duty (numbered : world.Numbered) {chance : Chance}
    (stepped : stepTask setting world number chance task = some next)
    (holds : ∀ other : Task, other.duty = task.duty → property other) : next.Comes number property := by
  intro other found
  rcases (outcome_of_step numbered stepped).came found with ⟨differ, _⟩ | ⟨_, same⟩ | ⟨differ, _⟩
  · exact absurd rfl differ
  · exact holds other same
  · exact absurd rfl differ

/-- After a move all tasks have a property when those that there were keep what they had as this property, when tasks
that help have it, when what a call begins with has it, and when the task that takes a step comes to it. -/
theorem tasks_of_move (before : Nat → Task → Prop) {after : Nat → Task → Prop} (numbered : world.Numbered)
    (all : ∀ number task, Table.get? number world.tasks = some task → before number task)
    (moved : move? setting world move = some next) (kept : ∀ number task, before number task → after number task)
    (helps : ∀ number task, task.Helps → after number task)
    (calls : ∀ call task, move = .call call → Opening setting call task → after world.nextTask task)
    (steps : ∀ number chance task, move = .step number chance → before number task →
      stepTask setting world number chance task = some next → next.Comes number (after number)) :
    ∀ number task, Table.get? number next.tasks = some task → after number task := by
  cases move with
  | call call =>
    obtain rfl := Option.some.inj moved
    intro other task found
    rcases (outcome_call numbered call).came found with ⟨_, there⟩ | ⟨rfl, _⟩ | ⟨_, help⟩
    · exact kept other task (all other task there)
    · exact calls call task rfl (comes_beginCall call task found)
    · exact helps other task help
  | deliver id =>
    obtain rfl := Option.some.inj moved
    exact fun other task found => kept other task (all other task found)
  | restart =>
    obtain ⟨_, _, _, _, _, _, rfl⟩ := stores_of_restart moved
    exact fun _ _ found => by simp [crash] at found
  | step number chance =>
    obtain ⟨task, standing, stepped⟩ := task_of_step moved
    intro other found there
    rcases (outcome_of_step numbered stepped).came there with ⟨_, stood⟩ | ⟨rfl, _⟩ | ⟨_, help⟩
    · exact kept other found (all other found stood)
    · exact steps other chance task rfl (all other task standing) stepped found there
    · exact helps other found help

end ContractWorks.World

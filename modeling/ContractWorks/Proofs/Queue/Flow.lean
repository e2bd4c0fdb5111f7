import ContractWorks.Proofs.Queue.Branch
import ContractWorks.Proofs.Queue.Tasks

namespace ContractWorks

/-- A role says what a task can still do to the channel and to the workers. -/
inductive Role where
  | resting
  | placing
  | sending
  | working
  | collecting
  | joining (workers : List Nat)
  | launching
  | recovering

/-- This function gives the role of a task. -/
def Task.role : Task → Role
  | .submit (.waiting _ _) => .resting
  | .submit _ => .placing
  | .start .waiting => .resting
  | .start (.spawning _) => .launching
  | .start _ => .recovering
  | .shutdown .closing => .resting
  | .shutdown .collecting => .collecting
  | .shutdown (.joining workers) => .joining workers
  | .status _ => .resting
  | .worker _ => .working
  | .offer _ => .sending
  | .retry _ _ => .sending

/-- A role passes when nobody waits for the one who has it and it waits for no worker. -/
def Role.Passes : Option Role → Prop
  | none => True
  | some .resting => True
  | some .placing => True
  | some .sending => True
  | _ => False

theorem Task.holdsPlace_iff {task : Task} : World.holdsPlace task = true ↔ task.role = .placing := by
  cases task with
  | submit step => cases step <;> simp [World.holdsPlace, Task.role]
  | start step => cases step <;> simp [World.holdsPlace, Task.role]
  | shutdown step => cases step <;> simp [World.holdsPlace, Task.role]
  | _ => simp [World.holdsPlace, Task.role]

theorem Task.maySend_iff {task : Task} : World.maySend task = true ↔ task.role = .sending := by
  cases task with
  | submit step => cases step <;> simp [World.maySend, Task.role]
  | start step => cases step <;> simp [World.maySend, Task.role]
  | shutdown step => cases step <;> simp [World.maySend, Task.role]
  | _ => simp [World.maySend, Task.role]

/-- An event announces when it tells that a start has made its workers, or that a shutdown has returned. -/
def Event.Announces : Event → Prop
  | .answered _ .stopped => True
  | .answered _ (.started (.ok _)) => True
  | _ => False

namespace World

/-- This function gives the role of the task with a number. -/
def roleAt (world : World) (number : Nat) : Option Role :=
  (Table.get? number world.tasks).map Task.role

variable {setting : Setting} {world base next : World} {number other : Nat} {old task : Task} {chance : Chance}

theorem roleAt_of_found (found : Table.get? number world.tasks = some task) :
    world.roleAt number = some task.role := by
  rw [roleAt, found, Option.map_some]

theorem roleAt_goOn_self : (world.goOn number task).roleAt number = some task.role :=
  roleAt_of_found (Table.get?_insert_self _ _ _)

theorem roleAt_goOn_of_ne (differ : other ≠ number) : (world.goOn number task).roleAt other = world.roleAt other :=
  congrArg _ (Table.get?_insert_of_ne differ _ _)

theorem roleAt_endTask_self : (world.endTask number).roleAt number = none :=
  congrArg _ (Table.get?_erase_self _ _)

theorem roleAt_endTask_of_ne (differ : other ≠ number) : (world.endTask number).roleAt other = world.roleAt other :=
  congrArg _ (Table.get?_erase_of_ne differ _)

/-- A role may become another one when it passes, and new senders come only while the channel is open. -/
def Turns (world : World) (before after : Option Role) : Prop :=
  after = before ∨ (Role.Passes before ∧ (after = none ∨ after = some .resting ∨
    (world.channel.senderOpen = true ∧ (after = some .placing ∨ after = some .sending))))

/-- This condition says that somebody can put an id on the channel. -/
def Feeds (world : World) : Prop :=
  ∃ number, world.roleAt number = some .placing ∨ world.roleAt number = some .sending

/-- A change is local when it leaves all tasks but one alone, and when only this one is answered. -/
structure Local (number : Nat) (world next : World) : Prop where
  others : ∀ other, other ≠ number → other < world.nextTask →
    Table.get? other next.tasks = Table.get? other world.tasks
  answers : ∀ other answer, .answered other answer ∈ next.history →
    .answered other answer ∈ world.history ∨ other = number
  kept : ∀ event ∈ world.history, event ∈ next.history
  nextTask : world.nextTask ≤ next.nextTask

theorem local_of_same (tasks : base.tasks = world.tasks) (history : base.history = world.history)
    (nextTask : world.nextTask ≤ base.nextTask) : Local number world base where
  others := fun _ _ _ => by rw [tasks]
  answers := fun _ _ member => .inl (history ▸ member)
  kept := fun _ member => history ▸ member
  nextTask := nextTask

theorem Local.goOn (here : Local number world base) : Local number world (base.goOn number task) where
  others := fun other differ older =>
    (Table.get?_insert_of_ne differ _ _).trans (here.others other differ older)
  answers := here.answers
  kept := here.kept
  nextTask := here.nextTask

theorem Local.endTask (here : Local number world base) : Local number world (base.endTask number) where
  others := fun other differ older =>
    (Table.get?_erase_of_ne differ _).trans (here.others other differ older)
  answers := here.answers
  kept := here.kept
  nextTask := here.nextTask

theorem Local.note (here : Local number world base) {event : Event}
    (own : ∀ other answer, event = .answered other answer → other = number) :
    Local number world (base.note event) where
  others := here.others
  answers := by
    intro other answer member
    rcases List.mem_append.mp member with before | now
    · exact here.answers other answer before
    · exact .inr (own other answer (List.mem_singleton.mp now).symm)
  kept := fun event member => List.mem_append_left _ (here.kept event member)
  nextTask := here.nextTask

theorem Local.answer (here : Local number world base) (answer : Answer) :
    Local number world (base.answer number answer) := by
  refine here.endTask.note fun other _ same => ?_
  injection same with same _
  exact same.symm

/-- A change is calm when it is local, and when no worker stops and no shutdown gets further. -/
structure Calm (number : Nat) (world next : World) : Prop extends Local number world next where
  receiver : next.channel.receiver = world.channel.receiver
  sender : next.channel.senderOpen = world.channel.senderOpen
  pool : next.pool = world.pool
  announced : ∀ event : Event, event.Announces → event ∈ next.history → event ∈ world.history
  ids : world.channel.ids = [] → next.channel.ids = [] ∨ world.Feeds
  turns : ∀ other, world.Turns (world.roleAt other) (next.roleAt other)

theorem calm_of_same (tasks : base.tasks = world.tasks) (history : base.history = world.history)
    (nextTask : base.nextTask = world.nextTask) (channel : base.channel.receiver = world.channel.receiver ∧
      base.channel.senderOpen = world.channel.senderOpen) (pool : base.pool = world.pool)
    (ids : world.channel.ids = [] → base.channel.ids = [] ∨ world.Feeds) : Calm number world base where
  toLocal := local_of_same tasks history (Nat.le_of_eq nextTask.symm)
  receiver := channel.1
  sender := channel.2
  pool := pool
  announced := fun _ _ member => history ▸ member
  ids := ids
  turns := fun other => .inl (congrArg (fun tasks => (Table.get? other tasks).map Task.role) tasks)

theorem Calm.refl (number : Nat) (world : World) : Calm number world world :=
  calm_of_same rfl rfl rfl ⟨rfl, rfl⟩ rfl .inl

theorem Calm.goOn (calm : Calm number world base) (turns : world.Turns (world.roleAt number) (some task.role)) :
    Calm number world (base.goOn number task) where
  toLocal := calm.toLocal.goOn
  receiver := calm.receiver
  sender := calm.sender
  pool := calm.pool
  announced := calm.announced
  ids := calm.ids
  turns := by
    intro other
    by_cases here : other = number
    · subst here
      rw [roleAt_goOn_self]
      exact turns
    · rw [roleAt_goOn_of_ne here]
      exact calm.turns other

theorem Calm.endTask (calm : Calm number world base) (passes : Role.Passes (world.roleAt number)) :
    Calm number world (base.endTask number) where
  toLocal := calm.toLocal.endTask
  receiver := calm.receiver
  sender := calm.sender
  pool := calm.pool
  announced := calm.announced
  ids := calm.ids
  turns := by
    intro other
    by_cases here : other = number
    · subst here
      rw [roleAt_endTask_self]
      exact .inr ⟨passes, .inl rfl⟩
    · rw [roleAt_endTask_of_ne here]
      exact calm.turns other

theorem Calm.note (calm : Calm number world base) {event : Event} (plain : ¬event.Announces)
    (own : ∀ other answer, event = .answered other answer → other = number) :
    Calm number world (base.note event) where
  toLocal := calm.toLocal.note own
  receiver := calm.receiver
  sender := calm.sender
  pool := calm.pool
  announced := by
    intro other announces member
    rcases List.mem_append.mp member with before | now
    · exact calm.announced other announces before
    · exact absurd (List.mem_singleton.mp now ▸ announces) plain
  ids := calm.ids
  turns := calm.turns

theorem Calm.answer (calm : Calm number world base) (passes : Role.Passes (world.roleAt number)) {answer : Answer}
    (plain : ¬(Event.answered number answer).Announces) : Calm number world (base.answer number answer) := by
  refine (calm.endTask passes).note plain fun other _ same => ?_
  injection same with same _
  exact same.symm

/-- These are the ways in which a move changes the roles of the tasks once the workers are made. -/
inductive Flow (number : Nat) (world next : World) : Prop where
  | calm (calm : Calm number world next)
  | close (empty : ∀ other, world.roleAt other ≠ some .placing)
      (before : world.roleAt number = some .resting)
      (becomes : next = { world with channel := { world.channel with senderOpen := false } }.goOn number
        (.shutdown .collecting))
  | collect (before : world.roleAt number = some .collecting)
      (becomes : next = { world with pool := [] }.goOn number (.shutdown (.joining world.pool)))
  | join (workers : List Nat) (before : world.roleAt number = some (.joining workers))
      (gone : ∀ worker ∈ workers, world.roleAt worker = none) (becomes : next = world.answer number .stopped)
  | stop (before : world.roleAt number = some .working) (drained : world.isDrained = true)
      (becomes : next = world.endTask number)

/-- A move is local to the task that makes it. -/
theorem Flow.toLocal (flow : Flow number world next) : Local number world next := by
  cases flow with
  | calm calm => exact calm.toLocal
  | close empty before becomes =>
    subst becomes
    refine Local.goOn ?_
    exact local_of_same rfl rfl (Nat.le_refl _)
  | collect before becomes =>
    subst becomes
    refine Local.goOn ?_
    exact local_of_same rfl rfl (Nat.le_refl _)
  | join workers before gone becomes =>
    subst becomes
    exact (local_of_same rfl rfl (Nat.le_refl _)).answer _
  | stop before drained becomes =>
    subst becomes
    exact (local_of_same rfl rfl (Nat.le_refl _)).endTask

theorem push_same (channel : Channel) (id : JobId) : (channel.push id).receiver = channel.receiver ∧
    (channel.push id).senderOpen = channel.senderOpen := by
  rw [Channel.push]
  split <;> exact ⟨rfl, rfl⟩

theorem flow_submit {step : SubmitStep} (found : Table.get? number world.tasks = some (.submit step)) :
    Flow number world (world.stepSubmit number chance step) := by
  have role := roleAt_of_found found
  have passes : Role.Passes (world.roleAt number) := by
    rw [role]
    cases step <;> trivial
  have answers {base : World} (calm : Calm number world base) (result : Except QueueError JobId) :
      Flow number world (base.answer number (.submitted result)) := .calm (calm.answer passes id)
  generalize stepped : world.stepSubmit number chance step = next
  cases submitBranch stepped with
  | closed | full => exact answers (.refl number world) _
  | reserves opened =>
    have reserved : Calm number world { world with channel := world.channel.reserve } :=
      calm_of_same rfl rfl rfl ⟨rfl, rfl⟩ rfl .inl
    exact .calm (reserved.goOn (.inr ⟨passes, .inr (.inr ⟨opened, .inl rfl⟩)⟩))
  | @inserts record disk jobs =>
    have kept : Calm number world { world with disk, jobs } :=
      calm_of_same rfl rfl rfl ⟨rfl, rfl⟩ rfl .inl
    exact .calm (kept.goOn (.inl role.symm))
  | @fails record disk jobs =>
    have released : Calm number world { world with disk, jobs, channel := world.channel.release } :=
      calm_of_same rfl rfl rfl ⟨rfl, rfl⟩ rfl .inl
    exact answers released _
  | @enters id =>
    have entered : Calm number world { world with live := world.live.queued id } :=
      calm_of_same rfl rfl rfl ⟨rfl, rfl⟩ rfl .inl
    exact .calm (entered.goOn (.inl role.symm))
  | @sends id =>
    have sent : Calm number world { world with channel := world.channel.release.push id } :=
      calm_of_same rfl rfl rfl (push_same world.channel.release id) rfl fun _ => .inr ⟨number, .inl role⟩
    exact answers sent _

theorem calm_send (number : Nat) (id : JobId) (feeds : world.Feeds) :
    Calm number world { world with channel := world.channel.push id } :=
  calm_of_same rfl rfl rfl (push_same world.channel id) rfl fun _ => .inr feeds

theorem flow_offer {ids : List JobId} (found : Table.get? number world.tasks = some (.offer ids))
    (stepped : world.stepOffer number ids = some next) : Calm number world next := by
  have role : world.roleAt number = some .sending := roleAt_of_found found
  have passes : Role.Passes (world.roleAt number) := role ▸ trivial
  have sent (id : JobId) := calm_send number id ⟨number, .inr role⟩
  cases offerBranch stepped with
  | nothing | gone => exact (Calm.refl number world).endTask passes
  | last => exact (sent _).endTask passes
  | more => exact (sent _).goOn (.inl role.symm)

theorem flow_retry {id : JobId} {awake : Bool} (found : Table.get? number world.tasks = some (.retry id awake))
    (stepped : world.stepRetry number id awake = some next) : Calm number world next := by
  have role : world.roleAt number = some .sending := roleAt_of_found found
  have passes : Role.Passes (world.roleAt number) := role ▸ trivial
  cases retryBranch stepped with
  | wakes => exact (Calm.refl number world).goOn (.inl role.symm)
  | gone => exact (Calm.refl number world).endTask passes
  | sends => exact (calm_send number id ⟨number, .inr role⟩).endTask passes

theorem flow_status {step : StatusStep} (found : Table.get? number world.tasks = some (.status step)) :
    Calm number world (world.stepStatus number chance step) := by
  have role : world.roleAt number = some .resting := roleAt_of_found found
  have passes : Role.Passes (world.roleAt number) := role ▸ trivial
  generalize stepped : world.stepStatus number chance step = next
  cases statusBranch stepped with
  | reads | finds => exact (Calm.refl number world).goOn (.inl role.symm)
  | _ => exact (Calm.refl number world).answer passes id

theorem flow_shutdown {step : ShutdownStep} (found : Table.get? number world.tasks = some (.shutdown step))
    (stepped : world.stepShutdown number step = some next) : Flow number world next := by
  have role := roleAt_of_found found
  cases shutdownBranch stepped with
  | closes free =>
    refine .close (fun other places => ?_) role rfl
    cases standing : Table.get? other world.tasks with
    | none => simp [roleAt, standing] at places
    | some task =>
      rw [roleAt_of_found standing, Option.some.injEq] at places
      have holds := free _ (Table.mem_of_get? standing)
      exact absurd (Task.holdsPlace_iff.mpr places) (by simp [holds])
  | collects => exact .collect role rfl
  | @stops workers gone =>
    refine .join workers role (fun worker member => ?_) rfl
    rw [roleAt, gone worker member, Option.map_none]

/-- A worker keeps its role until the channel is drained. -/
theorem flow_worker (fresh : Table.get? world.nextTask world.tasks = none) {step : WorkerStep}
    (found : Table.get? number world.tasks = some (.worker step))
    (stepped : stepWorker setting world number chance step = some next) : Flow number world next := by
  have role : world.roleAt number = some .working := roleAt_of_found found
  have goesOn {base : World} (calm : Calm number world base) (after : WorkerStep) :
      Flow number world (base.goOn number (.worker after)) := .calm (calm.goOn (.inl role.symm))
  have keeps (disk : Disk) (jobs : JobStore) (artifacts : ArtifactStore) (live : LiveTable) (after : WorkerStep) :
      Flow number world ({ world with disk, jobs, artifacts, live }.goOn number (.worker after)) := by
    have kept : Calm number world { world with disk, jobs, artifacts, live } :=
      calm_of_same rfl rfl rfl ⟨rfl, rfl⟩ rfl .inl
    exact goesOn kept after
  cases workerBranch stepped with
  | @takes id ids waiting =>
    have taken : Calm number world { world with channel := { world.channel with ids } } :=
      calm_of_same rfl rfl rfl ⟨rfl, rfl⟩ rfl fun empty => by simp [waiting] at empty
    exact goesOn taken _
  | stops _ drained => exact .stop role drained rfl
  | @retries id opened =>
    have absent : world.roleAt world.nextTask = none := by rw [roleAt, fresh, Option.map_none]
    have spawned : Calm number world (world.spawn (.retry id false)) := by
      refine ⟨⟨fun other _ older => ?_, fun _ _ member => .inl member, fun _ member => member, Nat.le_succ _⟩,
        rfl, rfl, rfl, fun _ _ member => member, .inl, fun other => ?_⟩
      · exact Table.get?_insert_of_ne (Nat.ne_of_lt older) _ _
      · by_cases here : other = world.nextTask
        · subst here
          rw [absent]
          exact .inr ⟨trivial, .inr (.inr ⟨opened, .inr roleAt_goOn_self⟩)⟩
        · exact .inl (roleAt_goOn_of_ne here)
    exact goesOn spawned _
  | @invokes record workspace directory =>
    have goes : Calm number world (world.goOn number (.worker (.running record workspace directory))) :=
      (Calm.refl number world).goOn (.inl role.symm)
    exact .calm (goes.note id fun _ _ => by simp)
  | _ => exact keeps _ _ _ _ _

theorem flow_beginCall (fresh : Table.get? world.nextTask world.tasks = none) (call : Call) :
    Calm world.nextTask world (beginCall setting world call) := by
  have absent : world.roleAt world.nextTask = none := by rw [roleAt, fresh, Option.map_none]
  have passes : Role.Passes (world.roleAt world.nextTask) := by
    rw [absent]
    trivial
  have calm (call : Call) : Calm world.nextTask world (world.opened call) := by
    have counted : Local world.nextTask world { world with nextTask := world.nextTask + 1 } :=
      local_of_same rfl rfl (Nat.le_succ _)
    have calm : Calm world.nextTask world { world with nextTask := world.nextTask + 1 } :=
      ⟨counted, rfl, rfl, rfl, fun _ _ member => member, .inl, fun _ => .inl rfl⟩
    exact calm.note id fun _ _ => by simp
  generalize begun : beginCall setting world call = next
  cases callBranch begun with
  | unresolved | refuses => exact (calm call).answer passes id
  | _ => exact (calm _).goOn (.inr ⟨passes, .inr (.inl rfl)⟩)

/-- An ordinary move is one of a process that nothing befalls. -/
def Move.IsOrdinary : Move → Prop
  | .call _ => True
  | .step _ _ => True
  | _ => False

theorem Move.IsOrdinary.ne_restart {move : Move} (ordinary : move.IsOrdinary) : move ≠ .restart := by
  rintro rfl
  exact ordinary

/-- This function gives the number of the task that a move is made by. -/
def mover (world : World) : Move → Nat
  | .step number _ => number
  | _ => world.nextTask

theorem nextTask_beginCall (call : Call) : (beginCall setting world call).nextTask = world.nextTask + 1 := by
  generalize begun : beginCall setting world call = next
  cases callBranch begun <;> rfl

/-- The number of a task that makes a move has been given out. -/
theorem mover_lt (numbered : world.Numbered) {move : Move} (ordinary : move.IsOrdinary)
    (moved : move? setting world move = some next) (here : Local (world.mover move) world next) :
    world.mover move < next.nextTask := by
  cases move with
  | call call =>
    rw [← Option.some.inj moved, nextTask_beginCall]
    exact Nat.lt_succ_self _
  | deliver id => exact ordinary.elim
  | restart => exact ordinary.elim
  | step number chance =>
    obtain ⟨task, found, _⟩ := task_of_step moved
    exact Nat.lt_of_lt_of_le (numbered.below found) here.nextTask

/-- Ordinary moves change the roles of the tasks in one of the ways there are, unless they are steps of a start. -/
theorem flow_of_other (fresh : Table.get? world.nextTask world.tasks = none) {move : Move} (ordinary : move.IsOrdinary)
    (apart : ∀ number chance step, move = .step number chance → Table.get? number world.tasks ≠ some (.start step))
    (moved : move? setting world move = some next) : Flow (world.mover move) world next := by
  cases move with
  | call call =>
    rw [← Option.some.inj moved]
    exact .calm (flow_beginCall fresh call)
  | deliver id => exact ordinary.elim
  | restart => exact ordinary.elim
  | step number chance =>
    obtain ⟨task, found, stepped⟩ := task_of_step moved
    cases task with
    | submit step => exact Option.some.inj stepped ▸ flow_submit found
    | start step => exact absurd found (apart number chance step rfl)
    | shutdown step => exact flow_shutdown found stepped
    | status step => exact Option.some.inj stepped ▸ .calm (flow_status found)
    | worker step => exact flow_worker fresh found stepped
    | offer ids => exact .calm (flow_offer found stepped)
    | retry id awake => exact .calm (flow_retry found stepped)

/-- A start that finds that another one has come before it is answered at once. -/
theorem calm_late_start (begun : world.channel.receiver ≠ .free)
    (found : Table.get? number world.tasks = some (.start .waiting)) :
    Calm number world (stepStart setting world number chance .waiting) := by
  have passes : Role.Passes (world.roleAt number) := roleAt_of_found found ▸ trivial
  rw [stepStart, if_neg begun]
  exact (Calm.refl number world).answer passes id

/-- Ordinary moves change the roles of the tasks in one of the ways there are, once a start has come to its end. -/
theorem flow_of_move (fresh : Table.get? world.nextTask world.tasks = none)
    (begun : world.channel.receiver ≠ .free) {move : Move} (ordinary : move.IsOrdinary)
    (settled : ∀ number, world.roleAt number ≠ some .launching ∧ world.roleAt number ≠ some .recovering)
    (moved : move? setting world move = some next) : Flow (world.mover move) world next := by
  by_cases starts : ∃ number chance step, move = .step number chance ∧
      Table.get? number world.tasks = some (.start step)
  · obtain ⟨number, chance, step, rfl, found⟩ := starts
    rw [move?, step?, found] at moved
    rw [← Option.some.inj moved]
    have role := roleAt_of_found found
    cases step with
    | waiting => exact .calm (calm_late_start begun found)
    | spawning report => exact absurd role (settled number).1
    | _ => exact absurd role (settled number).2
  · refine flow_of_other fresh ordinary (fun number chance step same found => ?_) moved
    exact starts ⟨number, chance, step, same, found⟩

end World

end ContractWorks

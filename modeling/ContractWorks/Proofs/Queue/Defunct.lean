import ContractWorks.Proofs.Queue.Answering
import ContractWorks.Proofs.Queue.Gate
import ContractWorks.Proofs.Queue.Leak
import ContractWorks.Proofs.Queue.Verdict

namespace ContractWorks

namespace Channel

variable {channel : Channel}

/-- A channel is dead when its receiving end is gone, and with it the ids. -/
structure Dead (channel : Channel) : Prop where
  gone : channel.receiver = .gone
  empty : channel.ids = []

theorem dead_lose : channel.lose.Dead :=
  ⟨rfl, rfl⟩

/-- Nothing comes on a dead channel. -/
theorem Dead.push (dead : channel.Dead) (id : JobId) : (channel.push id).Dead := by
  rw [Channel.push, if_pos dead.gone]
  exact dead

theorem Dead.release (dead : channel.Dead) : channel.release.Dead :=
  ⟨dead.gone, dead.empty⟩

/-- The answer of a start tells what has become of the receiving end: the workers share it, or it is gone. A start that
came too late tells nothing. -/
def Bears (channel : Channel) : Except QueueError RecoveryReport → Prop
  | .ok _ => channel.receiver = .shared
  | .error .alreadyStarted => True
  | .error _ => channel.Dead

theorem Bears.dead {error : QueueError} (bears : channel.Bears (.error error)) (failed : error ≠ .alreadyStarted) :
    channel.Dead := by
  cases error with
  | alreadyStarted => exact absurd rfl failed
  | _ => exact bears

theorem bears_lose (error : QueueError) : channel.lose.Bears (.error error) := by
  cases error with
  | alreadyStarted => trivial
  | _ => exact dead_lose

end Channel

namespace World

variable {setting : Setting} {world base next : World} {number : Nat} {chance : Chance} {move : Move}
  {moves : List Move} {disk : Disk} {jobs : JobStore} {artifacts : ArtifactStore}

/-- A call leaves the channel as it is. -/
theorem channel_beginCall (setting : Setting) (world : World) (call : Call) :
    (beginCall setting world call).channel = world.channel := by
  generalize begun : beginCall setting world call = next
  cases callBranch begun <;> rfl

/-- Where the channel is dead, every start that goes on has come too late. -/
theorem Crewed.late_start (crewed : world.Crewed setting) (dead : world.channel.Dead) {step : StartStep}
    (found : Table.get? number world.tasks = some (.start step)) :
    stepStart setting world number chance step = world.answer number (.started (.error .alreadyStarted)) := by
  have late : ¬world.Starts number := fun starts => by
    have taken := crewed.taken number starts
    simp [dead.gone] at taken
  cases step with
  | waiting => exact if_neg (by simp [dead.gone])
  | spawning report => exact absurd (.inr (roleAt_of_found found)) late
  | _ => exact absurd (starts_of_recovers found trivial) late

/-- A submission that waits finds a dead channel closed. -/
theorem reserve_of_dead (dead : world.channel.Dead) (kind : JobKind) (input : JobInput) :
    world.reserve number chance kind input = world.answer number (.submitted (.error .closed)) := by
  rw [reserve, if_pos (by simp [dead.gone])]

/-- Where the channel is dead, nobody works. -/
theorem Crewed.no_worker (crewed : world.Crewed setting) (dead : world.channel.Dead) (step : WorkerStep) :
    Table.get? number world.tasks ≠ some (.worker step) := by
  intro found
  exact crewed.unmanned (by simp [dead.gone]) number (roleAt_of_found found)

theorem dead_stepSubmit (dead : world.channel.Dead) (step : SubmitStep) :
    (world.stepSubmit number chance step).channel.Dead := by
  generalize stepped : world.stepSubmit number chance step = next
  cases submitBranch stepped with
  | reserves _ there => exact absurd dead.gone there
  | @sends id => exact dead.release.push id
  | fails => exact dead.release
  | closed | full | inserts | enters => exact dead

theorem dead_stepShutdown (dead : world.channel.Dead) {step : ShutdownStep}
    (stepped : world.stepShutdown number step = some next) : next.channel.Dead := by
  cases shutdownBranch stepped with
  | closes => exact ⟨dead.gone, dead.empty⟩
  | collects | stops => exact dead

theorem channel_stepStatus (step : StatusStep) : (world.stepStatus number chance step).channel = world.channel := by
  generalize stepped : world.stepStatus number chance step = next
  cases statusBranch stepped <;> rfl

/-- Who wants to send on a dead channel gives up. -/
theorem dead_stepOffer (dead : world.channel.Dead) {ids : List JobId}
    (stepped : world.stepOffer number ids = some next) : next.channel.Dead := by
  cases offerBranch stepped with
  | nothing | gone => exact dead
  | last there | more there => exact absurd dead.gone there

theorem dead_stepRetry (dead : world.channel.Dead) {id : JobId} {awake : Bool}
    (stepped : world.stepRetry number id awake = some next) : next.channel.Dead := by
  cases retryBranch stepped with
  | wakes | gone => exact dead
  | sends there => exact absurd dead.gone there

/-- A dead channel stays dead through every ordinary move. -/
theorem Crewed.dead_move (crewed : world.Crewed setting) (dead : world.channel.Dead) (ordinary : move.IsOrdinary)
    (moved : move? setting world move = some next) : next.channel.Dead := by
  cases move with
  | call call =>
    rw [← Option.some.inj moved, channel_beginCall]
    exact dead
  | deliver id => exact ordinary.elim
  | restart => exact ordinary.elim
  | step number chance =>
    obtain ⟨task, found, stepped⟩ := task_of_step moved
    cases task with
    | submit step =>
      rw [← Option.some.inj stepped]
      exact dead_stepSubmit dead step
    | start step =>
      rw [← Option.some.inj stepped, crewed.late_start dead found]
      exact dead
    | shutdown step => exact dead_stepShutdown dead stepped
    | status step =>
      rw [← Option.some.inj stepped, channel_stepStatus]
      exact dead
    | worker step => exact absurd found (crewed.no_worker dead step)
    | offer ids => exact dead_stepOffer dead stepped
    | retry id awake => exact dead_stepRetry dead stepped

/-- What the answer of a start tells of the channel stays so through every ordinary move. -/
theorem Crewed.bears_move (crewed : world.Crewed setting) (numbered : world.Numbered) (ordinary : move.IsOrdinary)
    (moved : move? setting world move = some next) {result : Except QueueError RecoveryReport}
    (bears : world.channel.Bears result) : next.channel.Bears result := by
  cases result with
  | ok report => exact shared_move crewed numbered bears ordinary.ne_restart moved
  | error error =>
    cases error with
    | alreadyStarted => trivial
    | _ => exact crewed.dead_move bears ordinary moved

/-- When a step of a start answers, the answer tells what has become of the channel. -/
theorem bears_stepStart (numbered : world.Numbered) (step : StartStep) {other : Nat}
    {result : Except QueueError RecoveryReport}
    (told : .answered other (.started result) ∈ (stepStart setting world number chance step).history) :
    .answered other (.started result) ∈ world.history ∨
      (stepStart setting world number chance step).channel.Bears result := by
  have answers (base : World) (given : Except QueueError RecoveryReport) (history : base.history = world.history)
      (bears : base.channel.Bears given)
      (told : .answered other (.started result) ∈ (base.answer number (.started given)).history) :
      .answered other (.started result) ∈ world.history ∨
        (base.answer number (.started given)).channel.Bears result := by
    rcases List.mem_append.mp told with before | now
    · exact .inl (history ▸ before)
    · obtain ⟨_, rfl⟩ := by simpa using now
      exact .inr bears
  have fails {base : World} (history : base.history = world.history) (error : QueueError)
      (told : .answered other (.started result) ∈ (base.failStart number error).history) :
      .answered other (.started result) ∈ world.history ∨ (base.failStart number error).channel.Bears result :=
    answers { base with channel := base.channel.lose } _ history (Channel.bears_lose error) told
  generalize stepped : stepStart setting world number chance step = next at told ⊢
  cases startBranch stepped with
  | late => exact answers world _ rfl trivial told
  | unlisted | unlistedAgain | shut => exact fails rfl _ told
  | breaks =>
    refine fails ?_ _ told
    rfl
  | spawns =>
    have shared : Numbered { world with channel := { world.channel with receiver := .shared } } :=
      ⟨numbered.distinct, numbered.below⟩
    have staffs := staffs_spawnWorkers setting.workerCount shared
    exact answers _ _ staffs.history (congrArg Channel.receiver staffs.channel) told
  | _ => exact .inl told

/-- A queue is regular when its tasks, its crew and its answers are in order, and when its channel is as the starts have
told. -/
structure Regular (setting : Setting) (world : World) : Prop where
  tidy : world.Tidy
  crewed : world.Crewed setting
  closed : world.Closed
  bears : ∀ number result, .answered number (.started result) ∈ world.history → world.channel.Bears result

theorem regular_new (keyed : jobs.Keyed) : (new setting disk jobs artifacts).Regular setting where
  tidy := (unstarted_new keyed).tidy
  crewed := crewed_of_idle rfl
  closed _ _ told := by simp [new] at told
  bears _ _ told := by simp [new] at told

/-- A regular queue stays so through an ordinary move. -/
theorem Regular.onward (regular : world.Regular setting) (ordinary : move.IsOrdinary)
    (moved : move? setting world move = some next) : next.Regular setting where
  tidy := (advances_move regular.tidy moved fun same => absurd same ordinary.ne_restart).tidy
  crewed := regular.crewed.move regular.tidy.numbered moved
  closed := regular.closed.move regular.tidy.numbered moved
  bears number result told := by
    have numbered := regular.tidy.numbered
    by_cases before : .answered number (.started result) ∈ world.history
    · exact regular.crewed.bears_move numbered ordinary moved (regular.bears number result before)
    · rcases origin_of_told numbered moved before told with
        ⟨_, _, _, _, _, other⟩ | ⟨chance, task, rfl, found, duty, stepped⟩
      · simp at other
      · cases task with
        | start step =>
          rw [← Option.some.inj stepped] at told ⊢
          exact (bears_stepStart numbered step told).resolve_left before
        | _ => simp [Answer.duty, Task.duty] at duty

/-- A regular queue stays so through a run of ordinary moves. -/
theorem Regular.run (regular : base.Regular setting) (ordinary : ∀ move ∈ moves, move.IsOrdinary) :
    (World.run setting base moves).Regular setting := by
  induction moves using List.reverseRecOn with
  | nil => exact regular
  | append_singleton moves last inductionHypothesis =>
    have before := inductionHypothesis fun move member => ordinary move (List.mem_append_left _ member)
    rw [run_concat, World.move]
    cases moved : move? setting (World.run setting base moves) last with
    | none => exact before
    | some next => exact before.onward (ordinary last (by simp)) moved

end World

/-- A submission asks in vain when it waits for a place and there is no verdict on its call. -/
def Task.AsksInVain (setting : Setting) (world : World) (number : Nat) : Task → Prop
  | .submit step => (∃ kind input, step = .waiting kind input) ∧
      ∃ call, .called number call ∈ world.history ∧ setting.verdict? call = none
  | _ => True

theorem Task.asksInVain_of_duty {setting : Setting} {world : World} {number : Nat} {task : Task}
    (other : task.duty ≠ .submit) : task.AsksInVain setting world number := by
  cases task with
  | submit step => exact absurd rfl other
  | _ => trivial

namespace World

variable {setting : Setting} {world base next : World} {number : Nat} {call : Call} {move : Move}
  {early late : List Move} {disk : Disk} {jobs : JobStore} {artifacts : ArtifactStore} {error : QueueError}

/-- A queue is defunct since an earlier world when its channel is dead, when each start that has been answered since has
been told that another one came before it, and when each submission that has been called for since asks in vain, or has
been refused: at once where there is a verdict on it, and else because the queue is closed. -/
structure Defunct (setting : Setting) (base world : World) : Prop where
  dead : world.channel.Dead
  starts : ∀ number result, .answered number (.started result) ∈ world.history →
    .answered number (.started result) ∈ base.history ∨ result = .error .alreadyStarted
  waits : ∀ number task, Table.get? number world.tasks = some task → base.nextTask ≤ number →
    task.AsksInVain setting world number
  refused : ∀ number result, .answered number (.submitted result) ∈ world.history → base.nextTask ≤ number →
    ∃ call, .called number call ∈ world.history ∧ result = .error ((setting.verdict? call).getD .closed)

/-- A queue is defunct as soon as its channel is dead. -/
theorem Regular.defunct (regular : world.Regular setting) (dead : world.channel.Dead) :
    Defunct setting world world where
  dead := dead
  starts _ _ told := .inl told
  waits _ _ found beyond := absurd (regular.tidy.numbered.below found) (Nat.not_lt.mpr beyond)
  refused number _ told beyond := absurd (regular.closed number _ told).1 (Nat.not_lt.mpr beyond)

/-- The moves of a defunct queue answer a start only with the error that another one came before it. -/
theorem Defunct.starts_onward (defunct : Defunct setting base world) (regular : world.Regular setting)
    (moved : move? setting world move = some next) {result : Except QueueError RecoveryReport}
    (told : .answered number (.started result) ∈ next.history) :
    .answered number (.started result) ∈ base.history ∨ result = .error .alreadyStarted := by
  by_cases before : .answered number (.started result) ∈ world.history
  · exact defunct.starts number result before
  · rcases origin_of_told regular.tidy.numbered moved before told with
      ⟨_, _, _, _, _, other⟩ | ⟨chance, task, rfl, found, duty, stepped⟩
    · simp at other
    · cases task with
      | start step =>
        rw [← Option.some.inj stepped, regular.crewed.late_start defunct.dead found] at told
        obtain ⟨_, rfl⟩ := by simpa using (List.mem_append.mp told).resolve_left before
        exact .inr rfl
      | _ => simp [Answer.duty, Task.duty] at duty

theorem called_beginCall (numbered : world.Numbered) (call : Call) :
    .called world.nextTask call ∈ (beginCall setting world call).history :=
  (outcome_call numbered call).kept (List.mem_append_right _ (List.mem_singleton_self _))

/-- There is no verdict on a call that is not answered at once. -/
theorem Closed.no_verdict (closed : (beginCall setting world call).Closed) {task : Task}
    (found : Table.get? world.nextTask (beginCall setting world call).tasks = some task) :
    setting.verdict? call = none := by
  cases verdict : setting.verdict? call with
  | none => rfl
  | some error =>
    have told : .answered world.nextTask (.submitted (.error error)) ∈ (beginCall setting world call).history := by
      rw [history_beginCall, verdict]
      exact List.mem_append_right _ (List.mem_singleton_self _)
    exact absurd told (closed.silent found _)

/-- The submissions of a defunct queue go on to ask in vain. -/
theorem Defunct.waits_onward (defunct : Defunct setting base world) (regular : world.Regular setting)
    (moved : move? setting world move = some next) {task : Task}
    (found : Table.get? number next.tasks = some task) (beyond : base.nextTask ≤ number) :
    task.AsksInVain setting next number := by
  have numbered := regular.tidy.numbered
  have closed := regular.closed.move numbered moved
  -- That the task is there again stands in what is to be shown: it tells that its call has not been answered.
  suffices all : ∀ number task, Table.get? number next.tasks = some task → Table.get? number next.tasks = some task →
      base.nextTask ≤ number → task.AsksInVain setting next number from all number task found found beyond
  refine tasks_of_move (fun number task => base.nextTask ≤ number → task.AsksInVain setting world number) numbered
    defunct.waits moved (fun number task before _ beyond => ?_) (fun number task helps _ _ => ?_)
    (fun call task begins opening found _ => ?_) fun number chance task _ before stepped other found _ beyond => ?_
  · cases task with
    | submit step =>
      obtain ⟨waits, call, told, unjudged⟩ := before beyond
      exact ⟨waits, call, kept_of_move numbered moved told, unjudged⟩
    | _ => trivial
  · cases task with
    | submit step => exact helps.elim
    | _ => trivial
  · subst begins
    obtain rfl := Option.some.inj moved
    cases opening with
    | @submit _ kind input valid =>
      exact ⟨⟨kind, input, rfl⟩, call, called_beginCall numbered call, closed.no_verdict found⟩
    | _ => trivial
  · have others (apart : task.duty ≠ .submit) : next.Comes number (Task.AsksInVain setting next number) :=
      comes_of_duty numbered stepped fun _ same => Task.asksInVain_of_duty (same ▸ apart)
    cases task with
    | submit step =>
      obtain ⟨⟨kind, input, rfl⟩, _⟩ := before beyond
      rw [← Option.some.inj stepped, stepSubmit, reserve_of_dead defunct.dead] at found
      exact comes_endTask other found
    | _ => exact others (by simp [Task.duty]) other found

/-- The submissions of a defunct queue go on to be refused. -/
theorem Defunct.refused_onward (defunct : Defunct setting base world) (regular : world.Regular setting)
    (moved : move? setting world move = some next) {result : Except QueueError JobId}
    (told : .answered number (.submitted result) ∈ next.history) (beyond : base.nextTask ≤ number) :
    ∃ call, .called number call ∈ next.history ∧ result = .error ((setting.verdict? call).getD .closed) := by
  have numbered := regular.tidy.numbered
  by_cases before : .answered number (.submitted result) ∈ world.history
  · obtain ⟨call, called, same⟩ := defunct.refused number result before beyond
    exact ⟨call, kept_of_move numbered moved called, same⟩
  · rcases origin_of_told numbered moved before told with
      ⟨call, error, rfl, rfl, verdict, same⟩ | ⟨chance, task, rfl, found, duty, stepped⟩
    · refine ⟨call, ?_, by rw [verdict, Option.getD_some, Answer.submitted.inj same]⟩
      rw [← Option.some.inj moved]
      exact called_beginCall numbered call
    · cases task with
      | submit step =>
        obtain ⟨⟨kind, input, rfl⟩, call, called, unjudged⟩ := defunct.waits _ _ found beyond
        refine ⟨call, kept_of_move numbered moved called, ?_⟩
        rw [← Option.some.inj stepped, stepSubmit, reserve_of_dead defunct.dead] at told
        obtain rfl := by simpa using (List.mem_append.mp told).resolve_left before
        rw [unjudged, Option.getD_none]
      | _ => simp [Answer.duty, Task.duty] at duty

/-- A queue stays defunct through every ordinary move. -/
theorem Defunct.onward (defunct : Defunct setting base world) (regular : world.Regular setting)
    (ordinary : move.IsOrdinary) (moved : move? setting world move = some next) : Defunct setting base next where
  dead := regular.crewed.dead_move defunct.dead ordinary moved
  starts _ _ told := defunct.starts_onward regular moved told
  waits _ _ found beyond := defunct.waits_onward regular moved found beyond
  refused _ _ told beyond := defunct.refused_onward regular moved told beyond

/-- A queue whose channel is dead is defunct through each run of ordinary moves from then on. -/
theorem Regular.defunct_run (regular : base.Regular setting) (dead : base.channel.Dead) {moves : List Move}
    (ordinary : ∀ move ∈ moves, move.IsOrdinary) : Defunct setting base (World.run setting base moves) := by
  induction moves using List.reverseRecOn with
  | nil => exact regular.defunct dead
  | append_singleton moves last inductionHypothesis =>
    have earlier (move : Move) (member : move ∈ moves) : move.IsOrdinary :=
      ordinary move (List.mem_append_left _ member)
    have before := inductionHypothesis earlier
    rw [run_concat, World.move]
    cases moved : move? setting (World.run setting base moves) last with
    | none => exact before
    | some next => exact before.onward (regular.run earlier) (ordinary last (by simp)) moved

/-- A start that fails is final. When a start of a new process has answered with an error other than that another one
came before it, then through each run of ordinary moves from then on the receiving end of the channel is gone, and with
it the ids; no start succeeds, and no worker is there. The next step of each start that goes on tells it that another one
came before it, and the next step of each submission that waits tells it that the queue is closed. Whatever start or
submission is called for after the failure has no other answer, but for the verdict on a submission. -/
theorem failed_start_final (keyed : jobs.Keyed) (ordinary : ∀ move ∈ early ++ late, move.IsOrdinary)
    (told : .answered number (.started (.error error)) ∈
      (run setting (new setting disk jobs artifacts) early).history)
    (failed : error ≠ .alreadyStarted) :
    let before := run setting (new setting disk jobs artifacts) early
    let world := run setting (new setting disk jobs artifacts) (early ++ late)
    Defunct setting before world ∧
      (∀ other report, .answered other (.started (.ok report)) ∉ world.history) ∧
      (∀ other step, Table.get? other world.tasks ≠ some (.worker step)) ∧
      (∀ other step chance, Table.get? other world.tasks = some (.start step) →
        step? setting world other chance = some (world.answer other (.started (.error .alreadyStarted)))) ∧
      ∀ other kind input chance, Table.get? other world.tasks = some (.submit (.waiting kind input)) →
        step? setting world other chance = some (world.answer other (.submitted (.error .closed))) := by
  intro before world
  have ordinaryEarly (move : Move) (member : move ∈ early) : move.IsOrdinary :=
    ordinary move (List.mem_append_left _ member)
  have ordinaryLate (move : Move) (member : move ∈ late) : move.IsOrdinary :=
    ordinary move (List.mem_append_right _ member)
  have regular : before.Regular setting := (regular_new keyed).run ordinaryEarly
  have becomes : world = run setting before late := run_append setting _ early late
  have defunct : Defunct setting before world := by
    rw [becomes]
    exact regular.defunct_run ((regular.bears number _ told).dead failed) ordinaryLate
  have after : world.Regular setting := by
    rw [becomes]
    exact regular.run ordinaryLate
  refine ⟨defunct, fun other report succeeded => ?_, fun other step => after.crewed.no_worker defunct.dead step,
    fun other step chance found => ?_, fun other kind input chance found => ?_⟩
  · have shared : world.channel.receiver = .shared := after.bears other _ succeeded
    simp [defunct.dead.gone] at shared
  · rw [step?, found]
    exact congrArg some (after.crewed.late_start defunct.dead found)
  · rw [step?, found]
    exact congrArg some (reserve_of_dead defunct.dead kind input)

/-- In these moves a job is submitted and a start fails, as the store refuses to list the jobs that ran. -/
def failedFirst : List Move :=
  .call tokenCall :: plainly 0 4 ++ .call .start :: plainly 1 1 ++ [.step 1 (chanceOf (some (.refused "disk gone")))]

/-- Then the store works again, and another job is submitted and another start called for. -/
def againLater : List Move :=
  .call tokenCall :: plainly 2 1 ++ .call .start :: plainly 3 1

theorem failed_start_final_againLater :
    (∀ number report, .answered number (.started (.ok report)) ∉
      (run .scripted noJobs (failedFirst ++ againLater)).history) ∧
    ∀ number step, Table.get? number (run .scripted noJobs (failedFirst ++ againLater)).tasks ≠
      some (.worker step) := by
  have ordinary : ∀ move ∈ failedFirst ++ againLater, move.IsOrdinary := by
    simp [failedFirst, againLater, plainly, stepping, namedSteps, Move.IsOrdinary]
  have seen : (run .scripted noJobs failedFirst).history = [.called 0 tokenCall, .answered 0 (.submitted (.ok "first")),
      .called 1 .start, .answered 1 (.started (.error (.store (.io "disk gone"))))] := by with_unfolding_all rfl
  have told : .answered 1 (.started (.error (.store (.io "disk gone")))) ∈
      (run .scripted noJobs failedFirst).history := by
    rw [seen]
    simp
  obtain ⟨_, never, nobody, _⟩ := failed_start_final JobStore.keyed_empty ordinary told (by simp)
  exact ⟨never, nobody⟩

/-- A start that has failed leaves nothing to start: the id that had been accepted is on the channel no more, though its
record waits, a submission finds the queue closed, and another start is told that one came before it, though none has
succeeded. -/
theorem failed_start_unstartable :
    (run .scripted noJobs (.call tokenCall :: plainly 0 4 ++ .call .start :: plainly 1 1)).channel.ids = ["first"] ∧
    (run .scripted noJobs failedFirst).channel.ids = [] ∧
    (Table.get? "first" (run .scripted noJobs failedFirst).jobs.records).map JobRecord.status = some .queued ∧
    (run .scripted noJobs (failedFirst ++ againLater)).history =
      [.called 0 tokenCall, .answered 0 (.submitted (.ok "first")), .called 1 .start,
        .answered 1 (.started (.error (.store (.io "disk gone")))), .called 2 tokenCall,
        .answered 2 (.submitted (.error .closed)), .called 3 .start,
        .answered 3 (.started (.error .alreadyStarted))] := by
  refine ⟨?_, ?_, ?_, ?_⟩
  · with_unfolding_all rfl
  · with_unfolding_all rfl
  · with_unfolding_all rfl
  · with_unfolding_all rfl

end World

end ContractWorks

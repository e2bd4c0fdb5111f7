import ContractWorks.Proofs.Queue.Recovery

namespace ContractWorks.World

open Custody (row)

/-- A start is alone when it is the only task and the channel is empty. -/
structure Alone (world : World) (step : StartStep) : Prop where
  tasks : world.tasks = [(0, .start step)]
  nextTask : world.nextTask = 1
  ids : world.channel.ids = []
  sender : world.channel.senderOpen = true
  receiver : world.channel.receiver = step.receiver
  pool : world.pool = []
  history : world.history = [.called 0 .start]

/-- A queue is launched when its start has recovered and is about to make the workers. -/
structure Launches (evidence : JobId → Mark → Prop) (first : Table JobId JobRecord) (report : RecoveryReport)
    (world : World) : Prop where
  serves : world.Serves evidence (· ∈ report.requeued) (Table.get? · first ≠ none)
  start : Table.get? 0 world.tasks = some (.start (.spawning report))
  offers : ∀ number task, number ≠ 0 → Table.get? number world.tasks = some task → ∃ ids, task = .offer ids
  nextTask : 0 < world.nextTask
  sender : world.channel.senderOpen = true
  receiver : world.channel.receiver = .taken
  pool : world.pool = []
  history : world.history = [.called 0 .start]
  ran : Lists .running first report.orphaned
  waited : Lists .queued first report.requeued
  failed : ∀ id ∈ report.orphaned, ∃ record, Table.get? id world.jobs.records = some record ∧
    record.status = .failed ∧ record.error = some orphanError

/-- A queue has begun when its start has been answered with a report, and when it serves and drains since. -/
structure Begun (evidence : JobId → Mark → Prop) (first : Table JobId JobRecord) (report : RecoveryReport)
    (world : World) : Prop where
  serves : world.Serves evidence (· ∈ report.requeued) (Table.get? · first ≠ none)
  drains : world.Drains
  told : .answered 0 (.started (.ok report)) ∈ world.history
  answered : ∀ number other, .answered number (.started (.ok other)) ∈ world.history → other = report
  counted : ∀ number answer, .answered number answer ∈ world.history → number < world.nextTask
  ran : Lists .running first report.orphaned
  waited : Lists .queued first report.requeued
  failed : ∀ id ∈ report.orphaned, ∃ record, Table.get? id world.jobs.records = some record ∧
    record.status = .failed ∧ record.error = some orphanError

/-- These are the phases of a queue while its start goes on. -/
inductive Phase (evidence : JobId → Mark → Prop) (first : Table JobId JobRecord) (world : World) : Prop where
  | recovering {step : StartStep} {failing entering : List JobId} (alone : world.Alone step)
      (leaves : step.Leaves failing entering)
      (recovery : Recovery first world.jobs world.live step.report failing entering)
  | failed (text : String) (tasks : world.tasks = [])
      (history : world.history = [.called 0 .start, .answered 0 (.started (.error (.store (.io text))))])
  | launching {report : RecoveryReport} (launches : world.Launches evidence first report)
  | begun {report : RecoveryReport} (begun : world.Begun evidence first report)

variable {setting : Setting} {evidence later : JobId → Mark → Prop} {first : Table JobId JobRecord}
  {world base next : World} {step after : StartStep} {report : RecoveryReport} {failing entering : List JobId}
  {chance : Chance} {number : Nat} {id : JobId}

theorem Alone.goOn (alone : world.Alone step) (channel : base.channel = world.channel)
    (nextTask : base.nextTask = world.nextTask) (tasks : base.tasks = world.tasks) (pool : base.pool = world.pool)
    (history : base.history = world.history) (same : after.receiver = step.receiver) :
    (base.goOn 0 (.start after)).Alone after where
  tasks := by
    show Table.insert 0 _ base.tasks = _
    rw [tasks, alone.tasks]
    rfl
  nextTask := nextTask.trans alone.nextTask
  ids := (congrArg Channel.ids channel).trans alone.ids
  sender := (congrArg Channel.senderOpen channel).trans alone.sender
  receiver := ((congrArg Channel.receiver channel).trans alone.receiver).trans same.symm
  pool := pool.trans alone.pool
  history := history.trans alone.history

theorem Alone.failStart (alone : world.Alone step) (tasks : base.tasks = world.tasks)
    (history : base.history = world.history) (text : String) :
    Phase evidence first (base.failStart 0 (.store (.io text))) := by
  refine .failed text ?_ ?_
  · show Table.erase 0 base.tasks = []
    rw [tasks, alone.tasks]
    rfl
  · show base.history ++ _ = _
    rw [history, alone.history]
    rfl

/-- This is what the job with an id looks like while a start recovers. -/
theorem Alone.view (alone : world.Alone step) (id : JobId) :
    world.view id = ⟨Table.get? id world.jobs.records, Table.get? id world.live, step.custody id, 0, 0⟩ := by
  refine View.ext rfl rfl ?_ ?_ ?_
  · show row world.channel.ids id + Table.total (Task.custody id) world.tasks = _
    rw [alone.ids, alone.tasks, Custody.row_nil, Table.total_cons, Table.total_nil, zero_add, add_zero]
    rfl
  · show world.history.countP _ = 0
    rw [alone.history]
    rfl
  · show world.history.countP _ = 0
    rw [alone.history]
    rfl

theorem row_of_mem {ids : List JobId} (distinct : ids.Nodup) (member : id ∈ ids) : row ids id = {.waiting} := by
  rw [row, List.count_eq_one_of_mem distinct member]
  rfl

theorem row_of_not_mem {ids : List JobId} (absent : id ∉ ids) : row ids id = 0 := by
  rw [row, List.count_eq_zero_of_not_mem absent]
  rfl

/-- After a recovery each job that waits has its id entered once, and nothing is left of the others. -/
theorem served_of_recovery {jobs : JobStore} {live : LiveTable} (recovery : Recovery first jobs live report [] [])
    (marks : Mark → Prop) (id : JobId) :
    View.Served marks ⟨Table.get? id jobs.records, Table.get? id live, row report.requeued id, 0, 0⟩ := by
  have waited : id ∈ report.requeued ↔ ∃ record, Table.get? id first = some record ∧ record.status = .queued := by
    simpa using recovery.waited.mem id
  have ran : id ∈ report.orphaned ↔ ∃ record, Table.get? id first = some record ∧ record.status = .running := by
    simpa using recovery.ran.mem id
  by_cases orphan : id ∈ report.orphaned
  · obtain ⟨record, found, failed, _⟩ := recovery.failed id orphan
    obtain ⟨before, stood, running⟩ := ran.mp orphan
    have absent : id ∉ report.requeued := by
      intro member
      obtain ⟨other, there, queued⟩ := waited.mp member
      obtain rfl := Option.some.inj (stood.symm.trans there)
      simp [running] at queued
    refine View.served_at_rest found (row_of_not_mem absent) (recovery.absent id absent) (.inl ?_)
    rw [failed]
    rfl
  · have kept := recovery.kept id orphan
    by_cases member : id ∈ report.requeued
    · obtain ⟨record, stood, queued⟩ := waited.mp member
      have distinct : report.requeued.Nodup := by simpa using recovery.waited.nodup
      exact View.served_of_holder (kept.trans stood) (row_of_mem distinct member)
        ⟨queued, recovery.entered id member⟩
    · have nobody := row_of_not_mem member
      have entry := recovery.absent id member
      cases stood : Table.get? id first with
      | none =>
        rw [View.Served, kept, stood]
        exact ⟨nobody, entry⟩
      | some record =>
        refine View.served_at_rest (kept.trans stood) nobody entry (.inl ?_)
        cases status : record.status with
        | queued => exact absurd (waited.mpr ⟨record, stood, status⟩) member
        | running => exact absurd (ran.mpr ⟨record, stood, status⟩) orphan
        | completed => rfl
        | failed => rfl

/-- After a recovery only jobs that have been entered have not ended. -/
theorem vouched_of_recovery {jobs : JobStore} {live : LiveTable} (recovery : Recovery first jobs live report [] [])
    {view : View} (found : view.record = Table.get? id jobs.records) : view.Vouched (id ∈ report.requeued) := by
  intro record there
  have waited : id ∈ report.requeued ↔ ∃ record, Table.get? id first = some record ∧ record.status = .queued := by
    simpa using recovery.waited.mem id
  have ran : id ∈ report.orphaned ↔ ∃ record, Table.get? id first = some record ∧ record.status = .running := by
    simpa using recovery.ran.mem id
  rw [found] at there
  by_cases orphan : id ∈ report.orphaned
  · obtain ⟨other, stands, failed, _⟩ := recovery.failed id orphan
    obtain rfl := Option.some.inj (stands.symm.trans there)
    rw [failed]
    exact .inl rfl
  · rw [recovery.kept id orphan] at there
    cases status : record.status with
    | queued => exact .inr (.inl (waited.mpr ⟨record, there, status⟩))
    | running => exact absurd (ran.mpr ⟨record, there, status⟩) orphan
    | completed => exact .inl rfl
    | failed => exact .inl rfl

/-- After a recovery each job that has been in the store before is established. -/
theorem recorded_of_recovery {jobs : JobStore} {live : LiveTable} (recovery : Recovery first jobs live report [] [])
    {view : View} (found : view.record = Table.get? id jobs.records) (held : view.custody = row report.requeued id)
    (none : view.accepted = 0) : view.Recorded (Table.get? id first ≠ .none) := by
  rintro (known | accepted)
  · refine ⟨?_, fun member => ?_⟩
    · rw [found]
      by_cases orphan : id ∈ report.orphaned
      · obtain ⟨record, stands, _⟩ := recovery.failed id orphan
        simp [stands]
      · rw [recovery.kept id orphan]
        exact known
    · rw [held, row, Multiset.mem_replicate] at member
      exact absurd member.2 (by decide)
  · simp [none] at accepted

/-- This is a world in which a start has offered the jobs that wait. -/
theorem launches_of_recovery (tidy : next.Tidy) (recovery : Recovery first next.jobs next.live report [] [])
    (view : ∀ id, next.view id = ⟨Table.get? id next.jobs.records, Table.get? id next.live,
      row report.requeued id, 0, 0⟩)
    (start : Table.get? 0 next.tasks = some (.start (.spawning report)))
    (offers : ∀ number task, number ≠ 0 → Table.get? number next.tasks = some task → ∃ ids, task = .offer ids)
    (nextTask : 0 < next.nextTask) (sender : next.channel.senderOpen = true)
    (receiver : next.channel.receiver = .taken) (pool : next.pool = [])
    (history : next.history = [.called 0 .start]) : next.Launches evidence first report where
  serves := by
    refine ⟨tidy, .inl receiver, fun number recovers => ?_, fun id => ?_, fun id => ?_, fun id => ?_⟩
    · by_cases zero : number = 0
      · subst zero
        rw [roleAt_of_found start] at recovers
        simp [Task.role] at recovers
      · cases found : Table.get? number next.tasks with
        | none => simp [roleAt, found] at recovers
        | some task =>
          obtain ⟨ids, rfl⟩ := offers number task zero found
          rw [roleAt_of_found found] at recovers
          simp [Task.role] at recovers
    · rw [view id]
      exact served_of_recovery recovery _ id
    · rw [view id]
      exact vouched_of_recovery recovery rfl
    · rw [view id]
      exact recorded_of_recovery recovery rfl rfl rfl
  start := start
  offers := offers
  nextTask := nextTask
  sender := sender
  receiver := receiver
  pool := pool
  history := history
  ran := by simpa using recovery.ran
  waited := by simpa using recovery.waited
  failed := recovery.failed

/-- A start that finds no job that waits is launched with nothing to offer. -/
theorem Alone.idle (alone : world.Alone (.offering report)) (nothing : report.requeued = [])
    (tidy : (world.goOn 0 (.start (.spawning report))).Tidy)
    (recovery : Recovery first world.jobs world.live report [] []) :
    (world.goOn 0 (.start (.spawning report))).Launches evidence first report := by
  have goes : (world.goOn 0 (.start (.spawning report))).Alone (.spawning report) :=
    alone.goOn rfl rfl rfl rfl rfl rfl
  refine launches_of_recovery tidy recovery (fun id => ?_) ?_ ?_ ?_ goes.sender goes.receiver goes.pool goes.history
  · rw [goes.view id, nothing]
    rfl
  · rw [goes.tasks]
    rfl
  · intro number task differ found
    rw [goes.tasks, Table.get?, if_neg (Ne.symm differ)] at found
    simp at found
  · rw [goes.nextTask]
    exact Nat.one_pos

/-- A start that has entered the jobs that wait offers them and is launched. -/
theorem Alone.offer (alone : world.Alone (.offering report))
    (tidy : ((world.spawn (.offer report.requeued)).goOn 0 (.start (.spawning report))).Tidy)
    (recovery : Recovery first world.jobs world.live report [] []) :
    ((world.spawn (.offer report.requeued)).goOn 0 (.start (.spawning report))).Launches evidence first report := by
  have tasks : ((world.spawn (.offer report.requeued)).goOn 0 (.start (.spawning report))).tasks =
      [(0, .start (.spawning report)), (1, .offer report.requeued)] := by
    show Table.insert 0 _ (Table.insert world.nextTask _ world.tasks) = _
    rw [alone.tasks, alone.nextTask]
    rfl
  refine launches_of_recovery tidy recovery (fun id => ?_) ?_ ?_ (Nat.succ_pos _) alone.sender alone.receiver
    alone.pool alone.history
  · have quiet : (world.view id).invoked = 0 ∧ (world.view id).accepted = 0 := by
      rw [alone.view id]
      exact ⟨rfl, rfl⟩
    refine View.ext rfl rfl ?_ quiet.1 quiet.2
    show row world.channel.ids id + Table.total (Task.custody id) _ = row report.requeued id
    rw [tasks, alone.ids, Table.total_cons, Table.total_cons, Table.total_nil, Custody.row_nil, zero_add, add_zero]
    exact zero_add _
  · rw [tasks]
    rfl
  · intro number task differ found
    rw [tasks, Table.get?, if_neg (Ne.symm differ), Table.get?] at found
    split at found
    · exact ⟨_, (Option.some.inj found).symm⟩
    · simp at found

/-- A step of a start that is alone takes the queue from one phase to the next. -/
theorem Alone.recover (alone : world.Alone step) (tidy : world.Tidy) (leaves : step.Leaves failing entering)
    (recovery : Recovery first world.jobs world.live step.report failing entering) (chance : Chance) :
    Phase evidence first (stepStart setting world 0 chance step) := by
  have found : Table.get? 0 world.tasks = some (.start step) := by
    rw [alone.tasks]
    rfl
  have advances : Advances world (.step 0 chance) (stepStart setting world 0 chance step) := advances_start tidy found
  generalize stepped : stepStart setting world 0 chance step = next at advances ⊢
  cases startBranch stepped with
  | takes =>
    have taken : Alone ({ world with channel := { world.channel with receiver := .taken } }.goOn 0
        (.start (.listing {}))) (.listing {}) := by
      refine ⟨?_, alone.nextTask, alone.ids, alone.sender, rfl, alone.pool, alone.history⟩
      show Table.insert 0 _ world.tasks = _
      rw [alone.tasks]
      rfl
    have listing : StartStep.Leaves failing entering (.listing {}) := rfl
    exact .recovering taken listing recovery
  | late taken => exact absurd alone.receiver taken
  | unlisted listed =>
    obtain ⟨text, rfl⟩ := JobStore.listByState_of_error listed
    exact alone.failStart rfl rfl text
  | @lists report records listed =>
    have empty : report = {} := leaves
    subst empty
    exact .recovering (alone.goOn rfl rfl rfl rfl rfl rfl) ⟨rfl, rfl⟩ (recovery.listed_running listed)
  | failed =>
    obtain ⟨rfl, empty⟩ := leaves
    exact .recovering (alone.goOn rfl rfl rfl rfl rfl rfl) ⟨rfl, empty⟩ recovery
  | orphans done =>
    obtain ⟨rfl, empty⟩ := leaves
    obtain ⟨before, stands, applied, rfl⟩ := JobStore.transition_of_ok done
    exact .recovering (alone.goOn rfl rfl rfl rfl rfl rfl) ⟨rfl, empty⟩ (recovery.orphan stands applied)
  | spares done =>
    obtain ⟨rfl, _⟩ := leaves
    exact absurd done (JobStore.not_invalid_of_running recovery.running)
  | breaks done other =>
    obtain ⟨rfl, empty⟩ := leaves
    obtain ⟨record, there, running⟩ := recovery.running
    rcases JobStore.transition_cases done with ⟨_, _, _, _, failed, _⟩ | ⟨_, refused⟩
    · simp at failed
    · rcases refused with ⟨text, refused⟩ | ⟨_, missing⟩ | ⟨_, refusal, _, _, refused⟩
      · obtain rfl := Except.error.inj refused
        exact alone.failStart (by rfl) (by rfl) text
      · simp [there] at missing
      · exact absurd (Except.error.inj refused) (other refusal)
  | @sweeps report disk removed =>
    obtain ⟨rfl, empty⟩ := leaves
    have swept : Recovery first world.jobs world.live { report with workspacesRemoved := removed } [] entering :=
      { recovery with }
    exact .recovering (alone.goOn rfl rfl rfl rfl rfl rfl) ⟨rfl, empty⟩ swept
  | unswept =>
    obtain ⟨rfl, empty⟩ := leaves
    exact .recovering (alone.goOn rfl rfl rfl rfl rfl rfl) ⟨rfl, empty⟩ recovery
  | unlistedAgain listed =>
    obtain ⟨text, rfl⟩ := JobStore.listByState_of_error listed
    exact alone.failStart rfl rfl text
  | listsAgain listed =>
    obtain ⟨rfl, empty⟩ := leaves
    exact .recovering (alone.goOn rfl rfl rfl rfl rfl rfl) ⟨rfl, rfl⟩ (recovery.listed_queued empty listed)
  | checked | unknown =>
    obtain ⟨rfl, rfl⟩ := leaves
    exact .recovering (alone.goOn rfl rfl rfl rfl rfl rfl) ⟨rfl, rfl⟩ recovery
  | known lives =>
    obtain ⟨rfl, rfl⟩ := leaves
    simp [recovery.unentered] at lives
  | enters =>
    obtain ⟨rfl, rfl⟩ := leaves
    exact .recovering (alone.goOn rfl rfl rfl rfl rfl rfl) ⟨rfl, rfl⟩ recovery.enter
  | idles nothing =>
    obtain ⟨rfl, rfl⟩ := leaves
    exact .launching (alone.idle nothing advances.tidy recovery)
  | offers =>
    obtain ⟨rfl, rfl⟩ := leaves
    exact .launching (alone.offer advances.tidy recovery)
  | shut _ closed => simp [alone.sender] at closed
  | spawns => exact leaves.elim

/-- New workers stand in the pool, and nothing else is new. -/
structure Staffs (world next : World) : Prop where
  channel : next.channel = world.channel
  history : next.history = world.history
  old : ∀ number, number < world.nextTask → next.roleAt number = world.roleAt number
  new : ∀ number, world.nextTask ≤ number → next.roleAt number = none ∨
    (next.roleAt number = some .working ∧ number ∈ next.pool)
  pool : ∀ number ∈ world.pool, number ∈ next.pool

theorem staffs_spawnWorkers (count : Nat) : ∀ {world : World}, world.Numbered →
    Staffs world (spawnWorkers count world) := by
  induction count with
  | zero =>
    intro world numbered
    refine ⟨rfl, rfl, fun _ _ => rfl, fun number beyond => .inl ?_, fun _ member => member⟩
    cases found : Table.get? number world.tasks with
    | none => exact congrArg _ found
    | some task => exact absurd (numbered.below found) (Nat.not_lt.mpr beyond)
  | succ count inductionHypothesis =>
    intro world numbered
    have spawned := numbered.spawn (.worker .idle)
    have counted : Numbered { world.spawn (.worker .idle) with pool := world.pool ++ [world.nextTask] } :=
      ⟨spawned.distinct, spawned.below⟩
    have rest := inductionHypothesis counted
    have first : ({ world.spawn (.worker .idle) with pool := world.pool ++ [world.nextTask] } : World).roleAt
        world.nextTask = some .working := roleAt_goOn_self
    refine ⟨rest.channel, rest.history, fun number below => ?_, fun number beyond => ?_, fun number member => ?_⟩
    · have stays := rest.old number (Nat.lt_succ_of_lt below)
      exact stays.trans (roleAt_goOn_of_ne (Nat.ne_of_lt below))
    · rcases Nat.lt_or_eq_of_le beyond with further | rfl
      · exact rest.new number further
      · have pooled : world.nextTask ∈ world.pool ++ [world.nextTask] := by simp
        exact .inr ⟨(rest.old _ (Nat.lt_succ_self _)).trans first, rest.pool _ pooled⟩
    · exact rest.pool number (List.mem_append_left _ member)

/-- There is at least one worker. -/
theorem working_spawnWorkers (count : Nat) (numbered : world.Numbered) :
    (spawnWorkers (count + 1) world).roleAt world.nextTask = some .working := by
  have spawned := numbered.spawn (.worker .idle)
  have counted : Numbered { world.spawn (.worker .idle) with pool := world.pool ++ [world.nextTask] } :=
    ⟨spawned.distinct, spawned.below⟩
  have first : ({ world.spawn (.worker .idle) with pool := world.pool ++ [world.nextTask] } : World).roleAt
      world.nextTask = some .working := roleAt_goOn_self
  exact ((staffs_spawnWorkers count counted).old _ (Nat.lt_succ_self _)).trans first

/-- An orphan that has failed stays as it is. -/
theorem failed_of_advances {move : Move} (advances : Advances world move next)
    (failed : ∀ id ∈ report.orphaned, ∃ record, Table.get? id world.jobs.records = some record ∧
      record.status = .failed ∧ record.error = some orphanError) (id : JobId) (member : id ∈ report.orphaned) :
    ∃ record, Table.get? id next.jobs.records = some record ∧ record.status = .failed ∧
      record.error = some orphanError := by
  obtain ⟨record, found, status, error⟩ := failed id member
  have ended : record.status.isTerminal = true := status ▸ rfl
  exact ⟨record, View.record_of_change (advances.change id) found ended, status, error⟩

/-- Once a start has made its workers and is answered, all other tasks send. -/
theorem Launches.role_cases {made : World} (launches : world.Launches evidence first report)
    (staffs : Staffs { world with channel := { world.channel with receiver := .shared } } made) {role : Role}
    (stands : (made.answer 0 (.started (.ok report))).roleAt number = some role) :
    role = .sending ∨ (role = .working ∧ number ∈ made.pool) := by
  by_cases zero : number = 0
  · subst zero
    exact absurd (roleAt_endTask_self.symm.trans stands) (by simp)
  · have stood : made.roleAt number = some role := (roleAt_endTask_of_ne zero).symm.trans stands
    rcases Nat.lt_or_ge number world.nextTask with old | new
    · have before : world.roleAt number = some role := (staffs.old number old).symm.trans stood
      cases found : Table.get? number world.tasks with
      | none => simp [roleAt, found] at before
      | some task =>
        obtain ⟨ids, rfl⟩ := launches.offers number task zero found
        exact .inl (Option.some.inj (before.symm.trans (roleAt_of_found found)))
    · rcases staffs.new number new with gone | ⟨working, pooled⟩
      · simp [gone] at stood
      · exact .inr ⟨Option.some.inj (stood.symm.trans working), pooled⟩

/-- A queue drains as soon as its start has made the workers and is answered. -/
theorem Launches.drains {made : World} (launches : world.Launches evidence first report)
    (staffs : Staffs { world with channel := { world.channel with receiver := .shared } } made)
    (works : made.roleAt world.nextTask = some .working) : (made.answer 0 (.started (.ok report))).Drains := by
  have sender : made.channel.senderOpen = true := (congrArg Channel.senderOpen staffs.channel).trans launches.sender
  have history : made.history = [.called 0 .start] := staffs.history.trans launches.history
  refine ⟨congrArg Channel.receiver staffs.channel, fun number => ⟨fun stands => ?_, fun stands => ?_⟩,
    fun closed => ?_, fun number stands => ?_, fun number stands => ?_, fun number workers stands => ?_,
    fun number member => ?_, .inl ⟨world.nextTask, (roleAt_endTask_of_ne launches.nextTask.ne').trans works⟩⟩
  · rcases launches.role_cases staffs stands with other | ⟨other, _⟩ <;> simp at other
  · rcases launches.role_cases staffs stands with other | ⟨other, _⟩ <;> simp at other
  · exact absurd (sender.symm.trans closed) (by simp)
  · rcases launches.role_cases staffs stands with other | ⟨_, pooled⟩
    · simp at other
    · exact .inl pooled
  · rcases launches.role_cases staffs stands with other | ⟨other, _⟩ <;> simp at other
  · rcases launches.role_cases staffs stands with other | ⟨other, _⟩ <;> simp at other
  · have told : Event.answered number .stopped ∈ made.history ++ [.answered 0 (.started (.ok report))] := member
    simp [history] at told

/-- A start that makes the workers is answered, and its queue serves and drains from then on. -/
theorem Launches.begin (launches : world.Launches evidence first report)
    (more : ∀ id mark, evidence id mark → later id mark)
    (learned : ∀ id mark, world.Reason (.step 0 chance) id mark → later id mark) :
    Begun later first report (stepStart setting world 0 chance (.spawning report)) := by
  have tidy := launches.serves.tidy
  have advances : Advances world (.step 0 chance) (stepStart setting world 0 chance (.spawning report)) :=
    advances_start tidy launches.start
  have shared : Numbered { world with channel := { world.channel with receiver := .shared } } :=
    ⟨tidy.numbered.distinct, tidy.numbered.below⟩
  have staffs := staffs_spawnWorkers setting.workerCount shared
  obtain ⟨count, several⟩ : ∃ count, setting.workerCount = count + 1 :=
    ⟨setting.workerCount - 1, by have : 1 ≤ setting.workerCount := Nat.le_max_left _ _; omega⟩
  have works := working_spawnWorkers count shared
  rw [← several] at works
  obtain ⟨made, shape⟩ : ∃ made, made = spawnWorkers setting.workerCount
    { world with channel := { world.channel with receiver := .shared } } := ⟨_, rfl⟩
  have becomes : stepStart setting world 0 chance (.spawning report) = made.answer 0 (.started (.ok report)) := by
    rw [shape]
    rfl
  rw [← shape] at staffs works
  rw [becomes] at advances ⊢
  have receiver : made.channel.receiver = .shared := congrArg Channel.receiver staffs.channel
  have history : made.history = [.called 0 .start] := staffs.history.trans launches.history
  have drains := launches.drains staffs works
  have settled (number : Nat) := (drains.settled number).2
  have ordinary : (Move.step 0 chance).IsOrdinary := trivial
  have told (number : Nat) (answer : Answer)
      (member : .answered number answer ∈ made.history ++ [.answered 0 (.started (.ok report))]) :
      number = 0 ∧ ∀ other, answer = .started (.ok other) → other = report := by
    simp only [history, List.cons_append, List.nil_append, List.mem_cons, reduceCtorEq, Event.answered.injEq,
      List.not_mem_nil, or_false, false_or] at member
    refine ⟨member.1, fun other same => ?_⟩
    rw [member.2] at same
    simpa using same.symm
  obtain ⟨worker, stands, _⟩ := Option.map_eq_some_iff.mp ((roleAt_endTask_of_ne launches.nextTask.ne').trans works)
  refine ⟨launches.serves.advance ordinary advances (.inr receiver) settled more learned, drains,
    List.mem_append_right _ (List.mem_singleton_self _), fun number other member => (told number _ member).2 other rfl,
    fun number answer member => ?_, launches.ran, launches.waited, failed_of_advances advances launches.failed⟩
  rw [(told number answer member).1]
  exact Nat.zero_lt_of_lt (advances.tidy.numbered.below stands)

/-- An offer goes on or ends. -/
theorem offer_cases {ids : List JobId} (stepped : world.stepOffer number ids = some next) :
    ∃ base : World, (base = world ∨ ∃ id, base = { world with channel := world.channel.push id }) ∧
      (next = base.endTask number ∨ ∃ ids, next = base.goOn number (.offer ids)) := by
  cases offerBranch stepped with
  | nothing | gone => exact ⟨world, .inl rfl, .inl rfl⟩
  | @last id => exact ⟨_, .inr ⟨id, rfl⟩, .inl rfl⟩
  | @more id ids => exact ⟨_, .inr ⟨id, rfl⟩, .inr ⟨ids, rfl⟩⟩

/-- A queue that is launched stays so while its offer sends. -/
theorem Launches.send (launches : world.Launches evidence first report) {ids : List JobId} (apart : number ≠ 0)
    (found : Table.get? number world.tasks = some (.offer ids)) (stepped : world.stepOffer number ids = some next)
    (more : ∀ id mark, evidence id mark → later id mark)
    (learned : ∀ id mark, world.Reason (.step number chance) id mark → later id mark) :
    next.Launches later first report := by
  have advances : Advances world (.step number chance) next := advances_offer launches.serves.tidy found stepped
  have calm := flow_offer found stepped
  have settled (other : Nat) (recovers : next.roleAt other = some .recovering) : False :=
    launches.serves.settled other (calm.came recovers id)
  have receiver : next.channel.receiver = .taken := calm.receiver.trans launches.receiver
  have ordinary : (Move.step number chance).IsOrdinary := trivial
  have serves := launches.serves.advance ordinary advances (.inl receiver) settled more learned
  obtain ⟨base, shape, ends⟩ := offer_cases stepped
  have same : base.tasks = world.tasks ∧ base.nextTask = world.nextTask ∧ base.history = world.history := by
    rcases shape with rfl | ⟨_, rfl⟩ <;> exact ⟨rfl, rfl, rfl⟩
  have tasks (other : Nat) (task : Task) (there : Table.get? other next.tasks = some task) :
      Table.get? other world.tasks = some task ∨ ∃ ids, task = .offer ids := by
    rcases ends with rfl | ⟨rest, rfl⟩
    · by_cases here : other = number
      · subst here
        exact absurd ((Table.get?_erase_self _ _).symm.trans there) (by simp)
      · exact .inl (same.1 ▸ (Table.get?_erase_of_ne here _).symm.trans there)
    · by_cases here : other = number
      · subst here
        exact .inr ⟨rest, (Option.some.inj ((Table.get?_insert_self _ _ _).symm.trans there)).symm⟩
      · exact .inl (same.1 ▸ (Table.get?_insert_of_ne here _ _).symm.trans there)
  refine ⟨serves, ?_, fun other task differ there => ?_, ?_, calm.sender.trans launches.sender, receiver,
    calm.pool.trans launches.pool, ?_, launches.ran, launches.waited, failed_of_advances advances launches.failed⟩
  · rcases ends with rfl | ⟨rest, rfl⟩
    · exact (Table.get?_erase_of_ne apart.symm _).trans (same.1 ▸ launches.start)
    · exact (Table.get?_insert_of_ne apart.symm _ _).trans (same.1 ▸ launches.start)
  · rcases tasks other task there with stood | offers
    · exact launches.offers other task differ stood
    · exact offers
  · rcases ends with rfl | ⟨rest, rfl⟩
    · exact same.2.1 ▸ launches.nextTask
    · exact same.2.1 ▸ launches.nextTask
  · rcases ends with rfl | ⟨rest, rfl⟩
    · exact same.2.2.trans launches.history
    · exact same.2.2.trans launches.history

/-- No later move answers a start with a report. -/
theorem Flow.started {mover number : Nat} (flow : Flow mover world next)
    (answered : .answered number (.started (.ok report)) ∈ next.history) :
    .answered number (.started (.ok report)) ∈ world.history := by
  cases flow with
  | calm calm => exact calm.announced _ trivial answered
  | close empty before becomes =>
    subst becomes
    exact answered
  | collect before becomes =>
    subst becomes
    exact answered
  | join workers before gone becomes =>
    subst becomes
    have told : Event.answered number (.started (.ok report)) ∈ world.history ++ [.answered mover .stopped] :=
      answered
    simpa using told
  | stop before drained becomes =>
    subst becomes
    exact answered

/-- An ordinary move of a queue that has begun changes the roles of the tasks in one of the ways there are. -/
theorem Begun.flow (begun : world.Begun evidence first report) {move : Move} (ordinary : move.IsOrdinary)
    (moved : move? setting world move = some next) : Flow (world.mover move) world next := by
  have taken : world.channel.receiver ≠ .free := by simp [begun.drains.receiver]
  exact flow_of_move begun.serves.tidy.numbered.fresh taken ordinary begun.drains.settled moved

/-- A queue that has begun stays so from one ordinary move to the next. -/
theorem Begun.proceed (begun : world.Begun evidence first report) {move : Move} (ordinary : move.IsOrdinary)
    (more : ∀ id mark, evidence id mark → later id mark)
    (learned : ∀ id mark, world.Reason move id mark → later id mark) :
    (World.move setting world move).Begun later first report := by
  rw [World.move]
  cases moved : move? setting world move with
  | none => exact { begun with serves := begun.serves.mono more }
  | some next =>
    have flow := begun.flow ordinary moved
    have drains := begun.drains.flow flow
    have advances := advances_move begun.serves.tidy moved fun same => absurd same ordinary.ne_restart
    have settled (number : Nat) := (drains.settled number).2
    refine ⟨begun.serves.advance ordinary advances (.inr drains.receiver) settled more learned, drains,
      flow.toLocal.kept _ begun.told, fun number other member => begun.answered number other (flow.started member),
      fun number answer member => ?_, begun.ran, begun.waited, failed_of_advances advances begun.failed⟩
    rcases flow.toLocal.answers number answer member with before | own
    · exact Nat.lt_of_lt_of_le (begun.counted number answer before) flow.toLocal.nextTask
    · rw [own]
      exact mover_lt begun.serves.tidy.numbered ordinary moved flow.toLocal

theorem Alone.tidy (alone : world.Alone step) (keyed : world.jobs.Keyed) : world.Tidy := by
  have only {number : Nat} {task : Task} (found : Table.get? number world.tasks = some task) :
      number = 0 ∧ task = .start step := by
    rw [alone.tasks, Table.get?] at found
    split at found
    · next zero => exact ⟨zero.symm, (Option.some.inj found).symm⟩
    · simp at found
  refine ⟨⟨?_, fun found => ?_⟩, keyed, fun number task found => ?_⟩
  · rw [alone.tasks]
    exact List.nodup_singleton 0
  · rw [(only found).1, alone.nextTask]
    exact Nat.one_pos
  · rw [(only found).2]
    exact trivial

/-- A step takes a queue whose start goes on from one phase to the next. -/
theorem Phase.proceed (phase : Phase evidence first world) (number : Nat) (chance : Chance)
    (more : ∀ id mark, evidence id mark → later id mark)
    (learned : ∀ id mark, world.Reason (.step number chance) id mark → later id mark) :
    Phase later first (World.move setting world (.step number chance)) := by
  cases phase with
  | @recovering step failing entering alone leaves recovery =>
    by_cases zero : number = 0
    · subst zero
      have shape : World.move setting world (.step 0 chance) = stepStart setting world 0 chance step := by
        rw [World.move, move?, step?, alone.tasks]
        rfl
      rw [shape]
      exact alone.recover (alone.tidy recovery.keyed) leaves recovery chance
    · have shape : World.move setting world (.step number chance) = world := by
        rw [World.move, move?, step?, alone.tasks, Table.get?, if_neg (Ne.symm zero)]
        rfl
      rw [shape]
      exact .recovering alone leaves recovery
  | failed text tasks history =>
    have shape : World.move setting world (.step number chance) = world := by
      rw [World.move, move?, step?, tasks]
      rfl
    rw [shape]
    exact .failed text tasks history
  | @launching report launches =>
    by_cases zero : number = 0
    · subst zero
      have shape : World.move setting world (.step 0 chance) =
          stepStart setting world 0 chance (.spawning report) := by
        rw [World.move, move?, step?, launches.start]
        rfl
      rw [shape]
      exact .begun (launches.begin more learned)
    · have stays : world.Launches later first report := { launches with serves := launches.serves.mono more }
      cases found : Table.get? number world.tasks with
      | none =>
        have shape : World.move setting world (.step number chance) = world := by
          rw [World.move, move?, step?, found]
          rfl
        rw [shape]
        exact .launching stays
      | some task =>
        obtain ⟨ids, rfl⟩ := launches.offers number task zero found
        have shape : World.move setting world (.step number chance) =
            (world.stepOffer number ids).getD world := by
          rw [World.move, move?, step?, found]
          rfl
        rw [shape]
        cases stepped : world.stepOffer number ids with
        | none => exact .launching stays
        | some next => exact .launching (launches.send zero found stepped more learned)
  | begun begun => exact .begun (begun.proceed trivial more learned)

end ContractWorks.World

import ContractWorks.Proofs.Queue.Phase
import ContractWorks.Proofs.Queue.Tended

namespace ContractWorks

/-- A role is fixed when a task comes to it only through a start. -/
def Role.Fixed : Role → Prop
  | .working => True
  | .launching => True
  | .recovering => True
  | _ => False

/-- A start knows of the jobs that it has still to check that they await it, and of the one that it is about to enter
that it has no live entry. -/
def StartStep.Knows (view : JobId → View) : StartStep → Prop
  | .checking ids _ => ∀ id ∈ ids, (view id).Awaits
  | .entering id ids _ => (view id).Awaits ∧ (view id).live = none ∧ ∀ other ∈ ids, (view other).Awaits
  | _ => True

namespace World

open Custody (one row)

variable {setting : Setting} {world base next : World} {number other mover : Nat} {chance : Chance} {id : JobId}
  {step after : StartStep} {role : Role} {old task : Task} {report : RecoveryReport} {stage : Stage} {move : Move}

/-- A task starts when it is a start that has taken the receiver. -/
def Starts (world : World) (number : Nat) : Prop :=
  world.roleAt number = some .recovering ∨ world.roleAt number = some .launching

theorem mem_total {weigh : Task → Custody} {tasks : Table Nat Task} (member : stage ∈ Table.total weigh tasks) :
    ∃ entry ∈ tasks, stage ∈ weigh entry.2 := by
  induction tasks with
  | nil => simp at member
  | cons entry rest inductionHypothesis =>
    rw [Table.total_cons, Multiset.mem_add] at member
    rcases member with here | there
    · exact ⟨entry, List.mem_cons_self, here⟩
    · obtain ⟨other, inside, holds⟩ := inductionHypothesis there
      exact ⟨other, List.mem_cons_of_mem _ inside, holds⟩

/-- A stage of a job is that of an id on the channel, or that of a task. -/
theorem stage_of_custody (distinct : Table.Distinct world.tasks) (member : stage ∈ world.custody id) :
    stage = .waiting ∨ ∃ number task, Table.get? number world.tasks = some task ∧ stage ∈ task.custody id := by
  rcases Multiset.mem_add.mp member with waits | held
  · exact .inl (Multiset.eq_of_mem_replicate waits)
  · obtain ⟨⟨number, task⟩, inside, holds⟩ := mem_total held
    exact .inr ⟨number, task, Table.get?_of_mem distinct inside, holds⟩

theorem mem_one {held : JobId} {other : Stage} (member : stage ∈ one other held id) : stage = other := by
  rw [one] at member
  split at member
  · exact Multiset.mem_singleton.mp member
  · simp at member

/-- Where there is no worker, all jobs are early. -/
theorem early_of_unmanned (distinct : Table.Distinct world.tasks)
    (unmanned : ∀ number, world.roleAt number ≠ some .working) (id : JobId) : (world.view id).Early := by
  intro stage member
  rcases stage_of_custody distinct member with waits | ⟨number, task, found, holds⟩
  · exact .inr (.inr waits)
  · cases task with
    | submit step =>
      cases step with
      | inserted held => exact .inl (mem_one holds)
      | announced held => exact .inr (.inl (mem_one holds))
      | _ => simp [Task.custody] at holds
    | start step =>
      cases step with
      | waiting => simp [Task.custody, StartStep.custody] at holds
      | spawning => simp [Task.custody, StartStep.custody] at holds
      | _ => exact .inr (.inr (Multiset.eq_of_mem_replicate holds))
    | worker step => exact absurd (roleAt_of_found found) (unmanned number)
    | offer ids => exact .inr (.inr (Multiset.eq_of_mem_replicate holds))
    | retry held awake => exact .inr (.inr (mem_one holds))
    | _ => simp [Task.custody] at holds

/-- A task comes to a fixed role through no move but the steps of a start. -/
theorem Flow.came (flow : Flow mover world next) (stands : next.roleAt number = some role) (fixed : role.Fixed) :
    world.roleAt number = some role := by
  cases flow with
  | calm calm =>
    refine calm.came stands ?_
    cases role <;> first | exact id | exact fixed.elim
  | close empty before becomes =>
    subst becomes
    refine Turned.came (turned_goOn before fun _ => rfl) ?_ stands
    rintro ⟨⟩
    exact fixed
  | collect before becomes =>
    subst becomes
    refine Turned.came (turned_goOn before fun _ => rfl) ?_ stands
    rintro ⟨⟩
    exact fixed
  | join workers before gone becomes =>
    subst becomes
    exact Turned.came (turned_answer before .stopped) (by simp) stands
  | stop before drained becomes =>
    subst becomes
    exact Turned.came (turned_endTask before) (by simp) stands

theorem Flow.receiver (flow : Flow mover world next) : next.channel.receiver = world.channel.receiver := by
  cases flow with
  | calm calm => exact calm.receiver
  | close empty before becomes => exact becomes ▸ rfl
  | collect before becomes => exact becomes ▸ rfl
  | join workers before gone becomes => exact becomes ▸ rfl
  | stop before drained becomes => exact becomes ▸ rfl

/-- A queue tends its jobs when each of them is tended, when there are no workers before a start has ended, and when the
one start that goes on knows of the jobs that it has still to enter. -/
structure Tends (world : World) : Prop where
  tidy : world.Tidy
  tended : ∀ id, (world.view id).Tended
  unmanned : world.channel.receiver ≠ .shared → ∀ number, world.roleAt number ≠ some .working
  taken : ∀ number, world.Starts number → world.channel.receiver = .taken
  single : ∀ number other, world.Starts number → world.Starts other → number = other
  knows : ∀ number step, Table.get? number world.tasks = some (.start step) → step.Knows fun id => world.view id
  counted : ∀ number answer, .answered number answer ∈ world.history → number < world.nextTask

/-- A start that knows of some jobs goes on to do so as long as they await it and no live entry of them comes up. -/
theorem knows_of_kept {before now : JobId → View} (knows : step.Knows before)
    (awaits : ∀ id, (before id).Awaits → (now id).Awaits)
    (gone : ∀ id, (before id).Awaits → (before id).live = none → (now id).live = none) : step.Knows now := by
  cases step with
  | checking ids report => exact fun id member => awaits id (knows id member)
  | entering id ids report =>
    exact ⟨awaits id knows.1, gone id knows.1 knows.2.1, fun other member => awaits other (knows.2.2 other member)⟩
  | _ => trivial

theorem starts_of_recovers (found : Table.get? number world.tasks = some (.start step)) (recovers : step.Recovers) :
    world.Starts number :=
  .inl ((roleAt_of_found found).trans (congrArg some (role_of_recovers recovers)))

/-- A task that starts is a start. -/
theorem Starts.exists_step (starts : world.Starts number) :
    ∃ step, Table.get? number world.tasks = some (.start step) := by
  unfold Starts roleAt at starts
  cases found : Table.get? number world.tasks with
  | none => simp [found] at starts
  | some task =>
    cases task with
    | start step => exact ⟨step, rfl⟩
    | submit step => cases step <;> simp [found, Task.role] at starts
    | shutdown step => cases step <;> simp [found, Task.role] at starts
    | _ => simp [found, Task.role] at starts

/-- A start that knows of no jobs knows of them in any case. -/
theorem knows_or_starts (found : Table.get? number world.tasks = some (.start step)) (view : JobId → View) :
    step.Knows view ∨ world.Starts number := by
  cases step with
  | waiting => exact .inl trivial
  | spawning report => exact .inl trivial
  | _ => exact .inr (starts_of_recovers found trivial)

/-- A queue goes on to tend its jobs through a move by which no start recovers. -/
theorem Tends.flow (tends : world.Tends) (ordinary : move.IsOrdinary) (flow : Flow mover world next)
    (advances : Advances world move next) (apart : ∀ number, world.Starts number → number ≠ mover)
    (recovers : ∀ number chance step, move = .step number chance →
      Table.get? number world.tasks = some (.start step) → ¬step.Recovers)
    (old : mover < next.nextTask) : next.Tends := by
  have recovering (id : JobId) : ¬world.Reason move id .recovering := by
    rintro ⟨number, chance, step, same, found, why⟩
    exact recovers number chance step same found why
  have delivers (id : JobId) : ¬world.Reason move id .delivered := by
    rintro ⟨other, rfl⟩
    exact ordinary
  have restarts (id : JobId) : ¬world.Reason move id .restarted := fun same => ordinary.ne_restart same
  have early (unshared : world.channel.receiver ≠ .shared) (id : JobId) : (world.view id).Early :=
    early_of_unmanned tends.tidy.numbered.distinct (tends.unmanned unshared) id
  have unmanned (unshared : next.channel.receiver ≠ .shared) (number : Nat) : next.roleAt number ≠ some .working :=
    fun works => tends.unmanned (flow.receiver ▸ unshared) number (flow.came works trivial)
  have came {number : Nat} (starts : next.Starts number) : world.Starts number :=
    starts.imp (flow.came · trivial) (flow.came · trivial)
  refine ⟨advances.tidy, fun id => ?_, unmanned,
    fun number starts => flow.receiver.trans (tends.taken number (came starts)),
    fun number other first second => tends.single number other (came first) (came second),
    fun number step found => ?_, fun number answer member => ?_⟩
  · refine (tends.tended id).change (advances.change id) (recovering id) (delivers id) (restarts id) ?_
    rintro (gone | ⟨number, chance, step, same, found, why⟩)
    · exact early (by simp [gone]) id
    · exact absurd why (recovers number chance step same found)
  · rcases knows_or_starts found fun id => next.view id with knows | starts
    · exact knows
    · -- The start is not the one that moves, so that it is where it was.
      have stood := came starts
      obtain ⟨before, there⟩ := stood.exists_step
      rw [flow.toLocal.others number (apart number stood) (tends.tidy.numbered.below there)] at found
      have unshared : world.channel.receiver ≠ .shared := by simp [tends.taken number stood]
      have earlyNext (id : JobId) : (next.view id).Early :=
        early_of_unmanned advances.tidy.numbered.distinct (unmanned (flow.receiver.symm ▸ unshared)) id
      refine knows_of_kept (tends.knows number step found) (fun id awaits => ?_) fun id awaits gone => ?_
      · exact awaits.change (advances.change id) (early unshared id) (earlyNext id) (recovering id)
      · obtain ⟨record, stands, _⟩ := awaits.queued
        have same := View.unchanged_of_nobody (advances.change id) ((tends.tended id).nobody awaits.entered gone)
          (by simp [stands]) (recovering id) (delivers id) (restarts id)
        exact same.2.1.trans gone
  · rcases flow.toLocal.answers number answer member with before | own
    · exact Nat.lt_of_lt_of_le (tends.counted number answer before) flow.toLocal.nextTask
    · exact own ▸ old

/-- A queue goes on to tend its jobs through a move that is no step of a start. -/
theorem Tends.pass (tends : world.Tends) (ordinary : move.IsOrdinary)
    (apart : ∀ number chance step, move = .step number chance → Table.get? number world.tasks ≠ some (.start step))
    (moved : move? setting world move = some next) : next.Tends := by
  have flow := flow_of_other tends.tidy.numbered.fresh ordinary apart moved
  have advances := advances_move tends.tidy moved fun same => absurd same ordinary.ne_restart
  refine tends.flow ordinary flow advances ?_ (fun number chance step same found => absurd found
    (apart number chance step same)) (mover_lt tends.tidy.numbered ordinary moved flow.toLocal)
  rintro number starts rfl
  obtain ⟨step, found⟩ := starts.exists_step
  cases move with
  | call call => exact absurd (tends.tidy.numbered.below found) (Nat.lt_irrefl _)
  | deliver held => exact ordinary
  | restart => exact ordinary
  | step mover chance => exact apart mover chance step rfl found

/-- A task that goes on with the same custody leaves the custody of each job as it is. -/
theorem view_goOn_same (distinct : Table.Distinct world.tasks) (found : Table.get? number world.tasks = some old)
    (tasks : base.tasks = world.tasks) (ids : base.channel.ids = world.channel.ids)
    (held : task.custody id = old.custody id) :
    (base.goOn number task).view id = base.viewWith id (world.custody id) := by
  have others : base.others number id = world.others number id := by rw [World.others, World.others, tasks, ids]
  rw [view_goOn (tasks ▸ distinct), custody_of_found distinct found, others, held]

/-- A queue tends its jobs when its start has come one step further and offers some of them at most. -/
theorem Tends.proceed (tends : world.Tends) (only : ∀ other, world.Starts other → other = number)
    (unmanned : ∀ other, world.roleAt other ≠ some .working)
    (others : ∀ other task, other ≠ number → Table.get? other base.tasks = some task →
      Table.get? other world.tasks = some task ∨ ∃ ids, task = .offer ids)
    (history : base.history = world.history) (nextTask : world.nextTask ≤ base.nextTask)
    (taken : base.channel.receiver = .taken) (tidy : (base.goOn number (.start after)).Tidy)
    (tended : ∀ id, ((base.goOn number (.start after)).view id).Tended)
    (knows : after.Knows fun id => (base.goOn number (.start after)).view id) :
    (base.goOn number (.start after)).Tends := by
  have elsewhere {other : Nat} {task : Task} (differ : other ≠ number)
      (found : Table.get? other (base.goOn number (.start after)).tasks = some task) :
      Table.get? other world.tasks = some task ∨ ∃ ids, task = .offer ids :=
    others other task differ ((Table.get?_insert_of_ne differ _ _).symm.trans found)
  have one {other : Nat} (starts : (base.goOn number (.start after)).Starts other) : other = number := by
    by_contra differ
    obtain ⟨step, found⟩ := starts.exists_step
    rcases elsewhere differ found with before | ⟨ids, offer⟩
    · refine differ (only other ?_)
      unfold Starts at starts ⊢
      rwa [roleAt_of_found before, ← roleAt_of_found found]
    · simp at offer
  refine ⟨tidy, tended, fun _ other works => ?_, fun _ _ => taken,
    fun first second starts alike => (one starts).trans (one alike).symm, fun other step found => ?_,
    fun other answer member => Nat.lt_of_lt_of_le (tends.counted other answer (history ▸ member)) nextTask⟩
  · by_cases same : other = number
    · subst same
      rw [roleAt_goOn_self] at works
      cases after <;> simp [Task.role] at works
    · obtain ⟨task, found, role⟩ := Option.map_eq_some_iff.mp works
      rcases elsewhere same found with before | ⟨ids, rfl⟩
      · exact unmanned other ((roleAt_of_found before).trans (congrArg some role))
      · simp [Task.role] at role
  · by_cases same : other = number
    · subst same
      have here := (Table.get?_insert_self _ _ _).symm.trans found
      obtain rfl : after = step := by simpa using here
      exact knows
    · rcases knows_or_starts found fun id => (base.goOn number (.start after)).view id with knows | starts
      · exact knows
      · exact absurd (one starts) same

/-- A start that fails loses the ids on the channel and those that it has entered. -/
theorem view_failStart (distinct : Table.Distinct world.tasks)
    (found : Table.get? number world.tasks = some old) (tasks : base.tasks = world.tasks)
    (same : ∀ custody, base.viewWith id custody = world.viewWith id custody) (error : QueueError) :
    ∃ rest lost, (world.view id).custody = rest + lost ∧
      (base.failStart number error).view id = { world.view id with custody := rest } := by
  refine ⟨Table.total (Task.custody id) (Table.erase number world.tasks), row world.channel.ids id + old.custody id,
    ?_, ?_⟩
  · show world.custody id = _
    rw [custody_of_found distinct found, World.others, add_comm (row world.channel.ids id), add_assoc]
  · rw [failStart, answer, view_note rfl rfl, view_endTask]
    show base.viewWith id (row [] id + Table.total (Task.custody id) (Table.erase number base.tasks)) = _
    rw [tasks, Custody.row_nil, zero_add]
    exact same _

/-- A queue goes on to tend its jobs when its start fails. -/
theorem Tends.fail (tends : world.Tends) (found : Table.get? number world.tasks = some (.start step))
    (only : ∀ other, world.Starts other → other = number) (unmanned : ∀ other, world.roleAt other ≠ some .working)
    (tasks : base.tasks = world.tasks) (history : base.history = world.history)
    (nextTask : base.nextTask = world.nextTask) (keyed : base.jobs.Keyed)
    (same : ∀ id custody, base.viewWith id custody = world.viewWith id custody) (error : QueueError) :
    (base.failStart number error).Tends := by
  have carries : Carries world { base with channel := base.channel.lose } := ⟨tasks, nextTask, keyed⟩
  have elsewhere {other : Nat} (differ : other ≠ number) :
      Table.get? other (base.failStart number error).tasks = Table.get? other world.tasks := by
    rw [← tasks]
    exact Table.get?_erase_of_ne differ _
  have ended : Table.get? number (base.failStart number error).tasks = none := Table.get?_erase_self _ _
  have none {other : Nat} : ¬(base.failStart number error).Starts other := by
    intro starts
    unfold Starts roleAt at starts
    by_cases here : other = number
    · simp [here, ended] at starts
    · rw [elsewhere here] at starts
      exact here (only other starts)
  refine ⟨((carries.tidy tends.tidy).endTask number).note _, fun id => ?_, fun _ other works => ?_,
    fun _ starts => absurd starts none, fun _ _ starts => absurd starts none, fun other step there => ?_,
    fun other answer member => ?_⟩
  · obtain ⟨rest, lost, held, becomes⟩ := view_failStart tends.tidy.numbered.distinct found tasks (same id) error
    rw [becomes]
    exact (tends.tended id).drop (early_of_unmanned tends.tidy.numbered.distinct unmanned id) held
  · by_cases here : other = number
    · simp [roleAt, here, ended] at works
    · rw [roleAt, elsewhere here] at works
      exact unmanned other works
  · rcases knows_or_starts there fun id => (base.failStart number error).view id with knows | starts
    · exact knows
    · exact absurd starts none
  · have older : number < world.nextTask := tends.tidy.numbered.below found
    rcases List.mem_append.mp member with before | now
    · exact Nat.lt_of_lt_of_eq (tends.counted other answer (history ▸ before)) nextTask.symm
    · obtain ⟨rfl, _⟩ : other = number ∧ _ := by simpa using List.mem_singleton.mp now
      exact Nat.lt_of_lt_of_eq older nextTask.symm

/-- A start is the only one that has taken the receiver, and there are no workers beside it. -/
theorem Tends.alone (tends : world.Tends) (starts : world.Starts number) :
    (∀ other, world.Starts other → other = number) ∧ world.channel.receiver = .taken ∧
      ∀ other, world.roleAt other ≠ some .working := by
  have taken := tends.taken number starts
  exact ⟨fun other alike => tends.single other number alike starts, taken, tends.unmanned (by simp [taken])⟩

/-- A start that changes no job goes on to tend the jobs. -/
theorem Tends.stay (tends : world.Tends) (found : Table.get? number world.tasks = some (.start step))
    (only : ∀ other, world.Starts other → other = number) (unmanned : ∀ other, world.roleAt other ≠ some .working)
    (tasks : base.tasks = world.tasks) (history : base.history = world.history)
    (nextTask : base.nextTask = world.nextTask) (ids : base.channel.ids = world.channel.ids)
    (taken : base.channel.receiver = .taken) (keyed : base.jobs.Keyed)
    (same : ∀ id custody, base.viewWith id custody = world.viewWith id custody)
    (held : ∀ id, after.custody id = step.custody id) (knows : after.Knows fun id => world.view id) :
    (base.goOn number (.start after)).Tends := by
  have carries : Carries world base := ⟨tasks, nextTask, keyed⟩
  have below := tends.tidy.numbered.below found
  have view (id : JobId) : (base.goOn number (.start after)).view id = world.view id := by
    have custody : (Task.start after).custody id = (Task.start step).custody id := held id
    exact (view_goOn_same tends.tidy.numbered.distinct found tasks ids custody).trans (same id _)
  refine tends.proceed only unmanned (fun other task _ there => .inl (tasks ▸ there)) history (Nat.le_of_eq nextTask.symm)
    taken ((carries.tidy tends.tidy).goOn (nextTask ▸ below) trivial) (fun id => ?_) ?_
  · rw [view id]
    exact tends.tended id
  · simpa only [view] using knows

/-- A start that deals with the same jobs as before, and changes nothing else, goes on to tend the jobs. -/
theorem Tends.resume (tends : world.Tends) (found : Table.get? number world.tasks = some (.start step))
    (recovers : step.Recovers) (held : ∀ id, after.custody id = step.custody id)
    (knows : after.Knows fun id => world.view id) : (world.goOn number (.start after)).Tends := by
  obtain ⟨only, taken, unmanned⟩ := tends.alone (starts_of_recovers found recovers)
  exact tends.stay found only unmanned rfl rfl rfl rfl taken tends.tidy.keyed (fun _ _ => rfl) held knows

/-- A queue goes on to tend its jobs when its start fails an orphan. -/
theorem Tends.orphan (tends : world.Tends) {held : JobId} {ids : List JobId} {disk : Disk} {jobs : JobStore}
    {record : JobRecord} (found : Table.get? number world.tasks = some (.start (.failing (held :: ids) report)))
    (only : ∀ other, world.Starts other → other = number) (unmanned : ∀ other, world.roleAt other ≠ some .working)
    (taken : world.channel.receiver = .taken)
    (done : world.jobs.transition held (.fail orphanError) chance.now chance.fault world.disk =
      (disk, jobs, .ok record)) :
    ({ world with disk, jobs }.goOn number
      (.start (.failing ids { report with orphaned := report.orphaned ++ [held] }))).Tends := by
  have distinct := tends.tidy.numbered.distinct
  have below := tends.tidy.numbered.below found
  have keyed := tends.tidy.keyed.transition done
  obtain ⟨before, standing, applied, rfl⟩ := JobStore.transition_of_ok done
  have carries : Carries world { world with disk, jobs := world.jobs.withRecords (Table.insert held record
      world.jobs.records) } := ⟨rfl, rfl, keyed⟩
  refine tends.proceed only unmanned (fun _ _ _ there => .inl there) rfl (Nat.le_refl _) taken
    ((carries.tidy tends.tidy).goOn below trivial) (fun id => ?_) trivial
  rw [view_goOn_same distinct found (by rfl) (by rfl) (by rfl)]
  by_cases same : held = id
  · subst same
    have orphaned := (tends.tended held).orphan (early_of_unmanned distinct unmanned held) standing applied
    rw [viewWith, get?_withRecords_self]
    exact orphaned
  · rw [viewWith, get?_withRecords_of_ne (Ne.symm same)]
    exact tends.tended id

/-- A queue goes on to tend its jobs when its start offers those that it has entered. -/
theorem Tends.offer (tends : world.Tends) (found : Table.get? number world.tasks = some (.start (.offering report)))
    (only : ∀ other, world.Starts other → other = number) (unmanned : ∀ other, world.roleAt other ≠ some .working)
    (taken : world.channel.receiver = .taken) :
    ((world.spawn (.offer report.requeued)).goOn number (.start (.spawning report))).Tends := by
  have below := tends.tidy.numbered.below found
  have sane : (Task.offer report.requeued).Sane := trivial
  have tidy : ((world.spawn (.offer report.requeued)).goOn number (.start (.spawning report))).Tidy :=
    (tends.tidy.spawn sane).goOn (Nat.lt_succ_of_lt below) trivial
  refine tends.proceed only unmanned (fun other task _ there => ?_) rfl (Nat.le_succ _) taken tidy (fun id => ?_)
    trivial
  · by_cases new : other = world.nextTask
    · subst new
      have here := (Table.get?_insert_self _ _ _).symm.trans there
      exact .inr ⟨report.requeued, (Option.some.inj here).symm⟩
    · exact .inl ((Table.get?_insert_of_ne new _ _).symm.trans there)
  · have view : ((world.spawn (.offer report.requeued)).goOn number (.start (.spawning report))).view id =
        world.view id := by
      rw [view_goOn (tends.tidy.spawn sane).numbered.distinct, others_spawn tends.tidy.numbered below,
        view_of_found tends.tidy.numbered.distinct found]
      exact congrArg (world.viewWith id) (add_zero _)
    exact view ▸ tends.tended id

/-- A queue goes on to tend its jobs when its start enters one that awaits it. -/
theorem Tends.enter (tends : world.Tends) {held : JobId} {ids : List JobId}
    (found : Table.get? number world.tasks = some (.start (.entering held ids report)))
    (only : ∀ other, world.Starts other → other = number) (unmanned : ∀ other, world.roleAt other ≠ some .working)
    (taken : world.channel.receiver = .taken) (awaits : (world.view held).Awaits) (gone : (world.view held).live = none)
    (others : ∀ id ∈ ids, (world.view id).Awaits) :
    (stepStart setting world number chance (.entering held ids report)).Tends := by
  have carries : Carries world { world with live := world.live.queued held } := ⟨rfl, rfl, tends.tidy.keyed⟩
  have below := tends.tidy.numbered.below found
  have distinct := tends.tidy.numbered.distinct
  have shape (id : JobId) : (stepStart setting world number chance (.entering held ids report)).view id =
      { world.view id with
        live := Table.get? id (world.live.queued held)
        custody := (world.view id).custody + one .waiting held id } := by
    have base : Table.Distinct { world with live := world.live.queued held }.tasks := distinct
    rw [stepStart, view_goOn base, view_of_found distinct found]
    refine View.ext rfl rfl ?_ rfl rfl
    show world.others number id + row (report.requeued ++ [held]) id = world.others number id + row report.requeued id + _
    rw [Custody.row_concat, add_assoc]
  have here : (stepStart setting world number chance (.entering held ids report)).view held =
      { world.view held with
        live := some ⟨.queued, Progress.queued⟩, custody := (world.view held).custody + {.waiting} } := by
    rw [shape held, Custody.one_self, LiveTable.get?_queued_self]
  have elsewhere {id : JobId} (differ : held ≠ id) :
      (stepStart setting world number chance (.entering held ids report)).view id = world.view id := by
    rw [shape id, Custody.one_of_ne _ differ, add_zero, LiveTable.get?_queued_of_ne (Ne.symm differ)]
    rfl
  refine tends.proceed only unmanned (fun _ _ _ there => .inl there) rfl (Nat.le_refl _) taken
    ((carries.tidy tends.tidy).goOn below trivial) (fun id => ?_) fun id member => ?_
  · by_cases same : held = id
    · subst same
      exact here ▸ (tends.tended held).enter awaits gone
    · exact elsewhere same ▸ tends.tended id
  · show ((stepStart setting world number chance (.entering held ids report)).view id).Awaits
    by_cases same : held = id
    · subst same
      obtain ⟨queued, entered⟩ := awaits
      rw [here]
      refine ⟨queued, fun inside => ?_⟩
      rcases Multiset.mem_add.mp inside with before | now
      · exact entered before
      · exact absurd (Multiset.mem_singleton.mp now) (by decide)
    · rw [elsewhere same]
      exact others id member

/-- A start that makes the workers changes no job. -/
theorem view_launch (tidy : world.Tidy) (found : Table.get? number world.tasks = some (.start (.spawning report)))
    (id : JobId) : (stepStart setting world number chance (.spawning report)).view id = world.view id := by
  have carries : Carries world { world with channel := { world.channel with receiver := .shared } } :=
    ⟨rfl, rfl, tidy.keyed⟩
  obtain ⟨_, same⟩ := spawnWorkers_spec setting.workerCount (carries.tidy tidy) (tidy.numbered.below found)
  rw [stepStart, answer, view_note rfl rfl, view_endTask, view_of_found tidy.numbered.distinct found, (same id).1,
    (same id).2]
  exact congrArg (world.viewWith id) (add_zero _).symm

theorem le_nextTask_spawnWorkers (count : Nat) : ∀ world : World,
    world.nextTask ≤ (spawnWorkers count world).nextTask := by
  induction count with
  | zero => exact fun world => Nat.le_refl _
  | succ count inductionHypothesis =>
    intro world
    exact Nat.le_trans (Nat.le_succ _)
      (inductionHypothesis { world.spawn (.worker .idle) with pool := world.pool ++ [world.nextTask] })

/-- A queue goes on to tend its jobs when its start makes the workers. -/
theorem Tends.launch (tends : world.Tends)
    (found : Table.get? number world.tasks = some (.start (.spawning report)))
    (only : ∀ other, world.Starts other → other = number) :
    (stepStart setting world number chance (.spawning report)).Tends := by
  have advances : Advances world (.step number chance) (stepStart setting world number chance (.spawning report)) :=
    advances_start tends.tidy found
  have below := tends.tidy.numbered.below found
  have shared : Numbered { world with channel := { world.channel with receiver := .shared } } :=
    ⟨tends.tidy.numbered.distinct, tends.tidy.numbered.below⟩
  have staffs := staffs_spawnWorkers setting.workerCount shared
  have receiver : (stepStart setting world number chance (.spawning report)).channel.receiver = .shared :=
    congrArg Channel.receiver staffs.channel
  have none {other : Nat} : ¬(stepStart setting world number chance (.spawning report)).Starts other := by
    intro starts
    have role : (stepStart setting world number chance (.spawning report)).roleAt other = none ∨
        (stepStart setting world number chance (.spawning report)).roleAt other = some .working ∨
          (other ≠ number ∧ (stepStart setting world number chance (.spawning report)).roleAt other =
            world.roleAt other) := by
      by_cases same : other = number
      · subst same
        exact .inl roleAt_endTask_self
      · have kept : (stepStart setting world number chance (.spawning report)).roleAt other =
            (spawnWorkers setting.workerCount
              { world with channel := { world.channel with receiver := .shared } }).roleAt other :=
          roleAt_endTask_of_ne same
        rw [kept]
        rcases Nat.lt_or_ge other world.nextTask with older | new
        · exact .inr (.inr ⟨same, staffs.old other older⟩)
        · exact (staffs.new other new).imp_right fun works => .inl works.1
    unfold Starts at starts
    rcases role with gone | works | ⟨differ, same⟩
    · simp [gone] at starts
    · simp [works] at starts
    · rw [same] at starts
      exact differ (only other starts)
  refine ⟨advances.tidy, fun id => view_launch tends.tidy found id ▸ tends.tended id,
    fun unshared => absurd receiver unshared, fun _ starts => absurd starts none, fun _ _ starts => absurd starts none,
    fun other step there => ?_, fun other answer member => ?_⟩
  · rcases knows_or_starts there fun id =>
      (stepStart setting world number chance (.spawning report)).view id with knows | starts
    · exact knows
    · exact absurd starts none
  · have counted : world.nextTask ≤ (stepStart setting world number chance (.spawning report)).nextTask :=
      le_nextTask_spawnWorkers setting.workerCount { world with channel := { world.channel with receiver := .shared } }
    have history : (stepStart setting world number chance (.spawning report)).history =
        world.history ++ [.answered number (.started (.ok report))] := congrArg (· ++ _) staffs.history
    rw [history] at member
    rcases List.mem_append.mp member with before | now
    · exact Nat.lt_of_lt_of_le (tends.counted other answer before) counted
    · obtain ⟨rfl, _⟩ : other = number ∧ _ := by simpa using List.mem_singleton.mp now
      exact Nat.lt_of_lt_of_le below counted

/-- A queue goes on to tend its jobs when a start finds that another one has come before it. -/
theorem Tends.late (tends : world.Tends) (found : Table.get? number world.tasks = some (.start .waiting))
    (taken : world.channel.receiver ≠ .free) : (stepStart setting world number chance .waiting).Tends := by
  have calm : Calm number world (stepStart setting world number chance .waiting) := calm_late_start taken found
  have ordinary : (Move.step number chance).IsOrdinary := trivial
  refine tends.flow ordinary (.calm calm) (advances_start tends.tidy found) ?_ ?_ ?_
  · rintro other starts rfl
    unfold Starts at starts
    simp [roleAt_of_found found, Task.role] at starts
  · rintro other chance step same there recovers
    obtain ⟨rfl, _⟩ := Move.step.inj same
    obtain rfl : StartStep.waiting = step := by simpa using found.symm.trans there
    exact recovers
  · exact Nat.lt_of_lt_of_le (tends.tidy.numbered.below found) calm.nextTask

/-- A queue goes on to tend its jobs through a step of a start, as long as no submission is between its record and its
live entry when the start lists the jobs that wait. -/
theorem Tends.start (tends : world.Tends) (found : Table.get? number world.tasks = some (.start step))
    (calm : ∀ report, step = .relisting report → ∀ id, .inserted ∉ world.custody id) :
    (stepStart setting world number chance step).Tends := by
  generalize stepped : stepStart setting world number chance step = next
  cases startBranch stepped with
  | takes free =>
    have none (other : Nat) (starts : world.Starts other) : other = number := by
      have taken := tends.taken other starts
      simp [free] at taken
    exact tends.stay found none (tends.unmanned (by simp [free])) (by rfl) (by rfl) (by rfl) (by rfl) rfl
      tends.tidy.keyed (fun _ _ => by rfl) (fun _ => by rfl) trivial
  | late taken => exact stepped ▸ tends.late found taken
  | spawns =>
    obtain ⟨only, _⟩ := tends.alone (.inr (roleAt_of_found found))
    exact stepped ▸ tends.launch found only
  | unlisted | unlistedAgain | shut =>
    obtain ⟨only, _, unmanned⟩ := tends.alone (starts_of_recovers found trivial)
    exact tends.fail found only unmanned rfl rfl rfl tends.tidy.keyed (fun _ _ => rfl) _
  | orphans done =>
    obtain ⟨only, taken, unmanned⟩ := tends.alone (starts_of_recovers found trivial)
    exact tends.orphan found only unmanned taken done
  | spares done =>
    obtain ⟨only, taken, unmanned⟩ := tends.alone (starts_of_recovers found trivial)
    obtain rfl := JobStore.transition_of_error done
    exact tends.stay found only unmanned (by rfl) (by rfl) (by rfl) (by rfl) taken tends.tidy.keyed (fun _ _ => by rfl)
      (fun _ => by rfl) trivial
  | breaks done =>
    obtain ⟨only, taken, unmanned⟩ := tends.alone (starts_of_recovers found trivial)
    obtain rfl := JobStore.transition_of_error done
    exact tends.fail found only unmanned (by rfl) (by rfl) (by rfl) (by exact tends.tidy.keyed) (fun _ _ => by rfl) _
  | listsAgain listed =>
    refine tends.resume found trivial (fun _ => rfl) fun id member => ?_
    exact ⟨((tends.tidy.keyed.lists listed).mem id).mp member, calm _ rfl id⟩
  | known =>
    have knows := tends.knows number _ found
    exact tends.resume found trivial (fun _ => rfl) fun id member => knows id (List.mem_cons_of_mem _ member)
  | unknown absent =>
    have knows := tends.knows number _ found
    exact tends.resume found trivial (fun _ => rfl)
      ⟨knows _ List.mem_cons_self, absent, fun id member => knows id (List.mem_cons_of_mem _ member)⟩
  | enters =>
    obtain ⟨only, taken, unmanned⟩ := tends.alone (starts_of_recovers found trivial)
    obtain ⟨awaits, gone, others⟩ := tends.knows number _ found
    exact stepped ▸ tends.enter found only unmanned taken awaits gone others
  | @idles report nothing =>
    refine tends.resume found trivial (fun id => ?_) trivial
    show 0 = row report.requeued id
    rw [nothing, Custody.row_nil]
  | offers =>
    obtain ⟨only, taken, unmanned⟩ := tends.alone (starts_of_recovers found trivial)
    exact tends.offer found only unmanned taken
  | lists | failed | checked => exact tends.resume found trivial (fun _ => rfl) trivial
  | sweeps | unswept =>
    obtain ⟨only, taken, unmanned⟩ := tends.alone (starts_of_recovers found trivial)
    exact tends.stay found only unmanned (by rfl) (by rfl) (by rfl) (by rfl) taken tends.tidy.keyed
      (fun _ _ => by rfl) (fun _ => by rfl) trivial

end World

end ContractWorks

import ContractWorks.Proofs.Queue.View
import ContractWorks.Proofs.Storage.JobStore

namespace ContractWorks

/-- This function gives the live entry of a job that runs after its progress was reported. -/
def LiveJob.raised (live : Option LiveJob) (progress : UInt8) : LiveJob :=
  match live with
  | none => ⟨.running, progress⟩
  | some entry => ⟨.running, max entry.progress progress⟩

namespace LiveTable

variable {live : LiveTable} {id other : JobId}

theorem get?_queued_self : Table.get? id (live.queued id) = some ⟨.queued, Progress.queued⟩ :=
  Table.get?_insert_self _ _ _

theorem get?_queued_of_ne (differ : other ≠ id) : Table.get? other (live.queued id) = Table.get? other live :=
  Table.get?_insert_of_ne differ _ _

theorem get?_running_self (progress : UInt8) :
    Table.get? id (live.running id progress) = some (LiveJob.raised (Table.get? id live) progress) := by
  rw [running]
  cases Table.get? id live with
  | none => exact Table.get?_insert_self _ _ _
  | some entry => exact Table.get?_insert_self _ _ _

theorem get?_running_of_ne (differ : other ≠ id) (progress : UInt8) :
    Table.get? other (live.running id progress) = Table.get? other live := by
  rw [running]
  cases Table.get? id live with
  | none => exact Table.get?_insert_of_ne differ _ _
  | some entry => exact Table.get?_insert_of_ne differ _ _

theorem get?_finish_self : Table.get? id (live.finish id) = none :=
  Table.get?_erase_self _ _

theorem get?_finish_of_ne (differ : other ≠ id) : Table.get? other (live.finish id) = Table.get? other live :=
  Table.get?_erase_of_ne differ _

end LiveTable

/-- A mark names the changes that need more than the view of a job to be explained. -/
inductive Mark where
  | unstarted
  | shelved
  | unwritten
  | dropped
  | recovering
  | delivered
  | restarted

/-- These are the ways in which the view of a job can change in one move. -/
inductive Change (reason : Mark → Prop) (view next : View) : Prop where
  | none (becomes : next = view)
  | insert {record : JobRecord} (free : view.record = .none) (queued : record.status = .queued)
      (becomes : next = { view with record := some record, custody := view.custody + {.inserted} })
  | announce {rest : Custody} (held : view.custody = rest + {.inserted})
      (becomes : next =
        { view with live := some ⟨.queued, Progress.queued⟩, custody := rest + {.announced} })
  | accept {rest : Custody} (held : view.custody = rest + {.announced})
      (becomes : next = { view with custody := rest + {.waiting}, accepted := view.accepted + 1 })
  | start {rest : Custody} {record after : JobRecord} {now : Time.Instant}
      (held : view.custody = rest + {.waiting}) (found : view.record = some record)
      (applied : record.apply now .start = .ok after)
      (becomes : next = { view with record := some after, custody := rest + {.pending} })
  | skip {rest : Custody} {record : JobRecord} (held : view.custody = rest + {.waiting})
      (found : view.record = some record) (started : record.status ≠ .queued)
      (becomes : next = { view with custody := rest })
  | unstarted {rest : Custody} (why : reason .unstarted) (held : view.custody = rest + {.waiting})
      (becomes : next = { view with custody := rest + {.unstarted} })
  | again {rest : Custody} (held : view.custody = rest + {.unstarted})
      (becomes : next = { view with custody := rest + {.waiting} })
  | shelve {rest : Custody} (why : reason .shelved) (held : view.custody = rest + {.unstarted})
      (becomes : next = { view with custody := rest + {.leaving} })
  | raise {rest : Custody} {stage : Stage} {progress : UInt8} (held : view.custody = rest + {stage})
      (works : stage = .pending ∨ stage = .busy) (low : progress ≤ Progress.outputCollected)
      (becomes : next = { view with live := some (LiveJob.raised view.live progress) })
  | invoke {rest : Custody} (held : view.custody = rest + {.pending})
      (becomes : next = { view with custody := rest + {.busy}, invoked := view.invoked + 1 })
  | yield {rest : Custody} (held : view.custody = rest + {.pending})
      (becomes : next = { view with custody := rest + {.busy} })
  | finish {rest : Custody} {record after : JobRecord} {now : Time.Instant} {transition : Transition}
      (held : view.custody = rest + {.busy}) (found : view.record = some record)
      (applied : record.apply now transition = .ok after)
      (becomes : next = { view with record := some after, custody := rest + {.leaving} })
  | unwritten {rest : Custody} (why : reason .unwritten) (held : view.custody = rest + {.busy})
      (becomes : next = { view with custody := rest + {.leaving} })
  | leave {rest : Custody} (held : view.custody = rest + {.leaving})
      (becomes : next = { view with live := .none, custody := rest })
  | drop {rest lost : Custody} (why : reason .dropped) (held : view.custody = rest + lost)
      (becomes : next = { view with custody := rest })
  | acceptInVain {rest : Custody} (why : reason .dropped) (held : view.custody = rest + {.announced})
      (becomes : next = { view with custody := rest, accepted := view.accepted + 1 })
  | orphan {record after : JobRecord} {now : Time.Instant} (why : reason .recovering)
      (found : view.record = some record)
      (applied : record.apply now (.fail World.orphanError) = .ok after)
      (becomes : next = { view with record := some after })
  | enter (why : reason .recovering)
      (becomes : next =
        { view with live := some ⟨.queued, Progress.queued⟩, custody := view.custody + {.waiting} })
  | deliver (why : reason .delivered)
      (becomes : next = { view with custody := view.custody + {.waiting} })
  | restart (why : reason .restarted) (becomes : next = { view with live := .none, custody := 0 })

/-- These are the ways in which the record of a job can change. -/
theorem Change.record_cases {reason : Mark → Prop} {view next : View} (change : Change reason view next) :
    next.record = view.record ∨
      (∃ record, view.record = .none ∧ next.record = some record ∧ record.status = .queued) ∨
        ∃ record after transition now, view.record = some record ∧ next.record = some after ∧
          record.apply now transition = .ok after := by
  cases change with
  | @insert record free queued becomes => exact .inr (.inl ⟨record, free, becomes ▸ rfl, queued⟩)
  | start held found applied becomes => exact .inr (.inr ⟨_, _, _, _, found, becomes ▸ rfl, applied⟩)
  | finish held found applied becomes => exact .inr (.inr ⟨_, _, _, _, found, becomes ▸ rfl, applied⟩)
  | orphan why found applied becomes => exact .inr (.inr ⟨_, _, _, _, found, becomes ▸ rfl, applied⟩)
  | _ =>
    subst_vars
    exact .inl rfl

/-- A task is sane when a record to be inserted is queued, and when an outcome to be written is one. -/
def Task.Sane : Task → Prop
  | .submit (.reserved record) => record.status = .queued
  | .worker (.finishing _ transition) => transition.target.isTerminal = true
  | _ => True

/-- A start recovers from when it has taken the receiver until it goes on to make the workers. -/
def StartStep.Recovers : StartStep → Prop
  | .waiting => False
  | .spawning _ => False
  | _ => True

namespace World

open Custody (one row)

/-- These are the reasons for the changes of a job that a move makes. -/
def Reason (world : World) (move : Move) (id : JobId) : Mark → Prop
  | .unstarted => ∃ number chance, move = .step number chance ∧
      Table.get? number world.tasks = some (.worker (.claimed id)) ∧
        ∃ error, (world.jobs.transition id .start chance.now chance.fault world.disk).2.2 = .error error ∧
          ∀ refusal, error ≠ .invalidTransition refusal
  | .shelved => ∃ number chance, move = .step number chance ∧
      Table.get? number world.tasks = some (.worker (.retrying id)) ∧ world.channel.senderOpen = false
  | .unwritten => ∃ number chance transition, move = .step number chance ∧
      Table.get? number world.tasks = some (.worker (.finishing id transition)) ∧
        ∃ error, (world.jobs.transition id transition chance.now chance.fault world.disk).2.2 = .error error
  | .dropped => world.channel.receiver = .gone ∨ ∃ number chance step, move = .step number chance ∧
      Table.get? number world.tasks = some (.start step) ∧ step.Recovers
  | .recovering => ∃ number chance step, move = .step number chance ∧
      Table.get? number world.tasks = some (.start step) ∧ step.Recovers
  | .delivered => ∃ other, move = .deliver other
  | .restarted => move = .restart

/-- A world is tidy when its tasks are numbered and sane, and its records stand under their ids. -/
structure Tidy (world : World) : Prop where
  numbered : world.Numbered
  keyed : world.jobs.Keyed
  sane : world.Everywhere Task.Sane

/-- A move that advances a world keeps it tidy and changes each job in one of the ways there are. -/
structure Advances (world : World) (move : Move) (next : World) : Prop where
  tidy : next.Tidy
  change : ∀ id, Change (world.Reason move id) (world.view id) (next.view id)

/-- A world carries on another one when it has the same tasks and a keyed store. -/
structure Carries (world base : World) : Prop where
  tasks : base.tasks = world.tasks
  nextTask : base.nextTask = world.nextTask
  keyed : base.jobs.Keyed

/-- A change with one task at work leaves the custody of the others as it is. -/
def Works (world base : World) (move : Move) (before after : JobId → Custody) : Prop :=
  ∀ id rest, Change (world.Reason move id) (world.viewWith id (rest + before id))
    (base.viewWith id (rest + after id))

variable {world base : World} {move : Move} {number : Nat} {old task : Task}

theorem Carries.refl (tidy : world.Tidy) : Carries world world :=
  ⟨rfl, rfl, tidy.keyed⟩

theorem Carries.tidy (carries : Carries world base) (tidy : world.Tidy) : base.Tidy where
  numbered := by
    refine ⟨carries.tasks ▸ tidy.numbered.distinct, fun found => ?_⟩
    rw [carries.tasks] at found
    rw [carries.nextTask]
    exact tidy.numbered.below found
  keyed := carries.keyed
  sane := fun _ _ found => tidy.sane _ _ (carries.tasks ▸ found)

theorem Tidy.goOn (tidy : world.Tidy) (there : number < world.nextTask) (sane : task.Sane) :
    (world.goOn number task).Tidy :=
  ⟨tidy.numbered.goOn there task, tidy.keyed, tidy.sane.goOn number sane⟩

theorem Tidy.endTask (tidy : world.Tidy) (number : Nat) : (world.endTask number).Tidy :=
  ⟨tidy.numbered.endTask number, tidy.keyed, tidy.sane.endTask number⟩

theorem Tidy.spawn (tidy : world.Tidy) (sane : task.Sane) : (world.spawn task).Tidy :=
  ⟨tidy.numbered.spawn task, tidy.keyed, tidy.sane.spawn sane⟩

theorem Tidy.note (tidy : world.Tidy) (event : Event) : (world.note event).Tidy :=
  ⟨⟨tidy.numbered.distinct, tidy.numbered.below⟩, tidy.keyed, tidy.sane⟩

/-- A task that works on one job changes no other one. -/
theorem works_of_held {held : JobId} {before after : JobId → Custody}
    (holds : ∀ id, held ≠ id → before id = 0) (keeps : ∀ id, held ≠ id → after id = 0)
    (elsewhere : ∀ id custody, held ≠ id → base.viewWith id custody = world.viewWith id custody)
    (here : ∀ rest, Change (world.Reason move held) (world.viewWith held (rest + before held))
      (base.viewWith held (rest + after held))) : Works world base move before after := by
  intro id rest
  by_cases same : held = id
  · subst same
    exact here rest
  · rw [holds id same, keeps id same, elsewhere id _ same]
    exact .none rfl

/-- Between two worlds a channel loses the custody of some ids and gains that of others. -/
def Shifts (world base : World) (lost gained : JobId → Custody) : Prop :=
  ∀ id, ∃ core, row world.channel.ids id = core + lost id ∧ row base.channel.ids id = core + gained id

theorem shifts_same (ids : base.channel.ids = world.channel.ids) :
    Shifts world base (fun _ => 0) fun _ => 0 := by
  intro id
  exact ⟨row world.channel.ids id, (add_zero _).symm, by rw [ids, add_zero]⟩

/-- An id that is sent is held by the channel, unless nobody will take it. -/
theorem shifts_push {channel : Channel} {held : JobId} (pushed : base.channel = channel.push held)
    (ids : channel.ids = world.channel.ids) (receiver : channel.receiver = world.channel.receiver) :
    (world.channel.receiver = .gone ∧ Shifts world base (fun _ => 0) fun _ => 0) ∨
      (world.channel.receiver ≠ .gone ∧ Shifts world base (fun _ => 0) (one .waiting held)) := by
  rw [Channel.push] at pushed
  split at pushed
  · next gone => exact .inl ⟨receiver ▸ gone, shifts_same (by rw [pushed, ids])⟩
  · next there =>
    refine .inr ⟨receiver ▸ there, fun id => ⟨row world.channel.ids id, (add_zero _).symm, ?_⟩⟩
    rw [pushed, Custody.row_concat, ids]

theorem shifts_take {held : JobId} (ids : world.channel.ids = held :: base.channel.ids) :
    Shifts world base (one .waiting held) fun _ => 0 := by
  intro id
  exact ⟨row base.channel.ids id, by rw [ids, Custody.row_cons, add_comm], (add_zero _).symm⟩

theorem shifts_lose (ids : base.channel.ids = []) :
    Shifts world base (row world.channel.ids) fun _ => 0 := by
  intro id
  exact ⟨0, (zero_add _).symm, by rw [ids, Custody.row_nil, add_zero]⟩

variable {lost gained : JobId → Custody}

theorem Shifts.others (shifts : Shifts world base lost gained) (carries : Carries world base) (number : Nat)
    (id : JobId) :
    ∃ rest, world.others number id = rest + lost id ∧ base.others number id = rest + gained id := by
  obtain ⟨core, before, after⟩ := shifts id
  refine ⟨core + Table.total (Task.custody id) (Table.erase number world.tasks), ?_, ?_⟩
  · rw [World.others, before, add_right_comm]
  · rw [World.others, after, carries.tasks, add_right_comm]

/-- A task that goes on advances its world when it changes each job in one of the ways there are. -/
theorem advances_goOn_of_shifts (tidy : world.Tidy) (found : Table.get? number world.tasks = some old)
    (carries : Carries world base) (shifts : Shifts world base lost gained) (sane : task.Sane)
    (works : Works world base move (fun id => lost id + old.custody id)
      fun id => gained id + task.custody id) :
    Advances world move (base.goOn number task) where
  tidy := (carries.tidy tidy).goOn (carries.nextTask ▸ tidy.numbered.below found) sane
  change := by
    intro id
    obtain ⟨rest, before, after⟩ := shifts.others carries number id
    rw [view_of_found tidy.numbered.distinct found, view_goOn (carries.tasks ▸ tidy.numbered.distinct),
      before, after, add_assoc, add_assoc]
    exact works id rest

theorem advances_endTask_of_shifts (tidy : world.Tidy) (found : Table.get? number world.tasks = some old)
    (carries : Carries world base) (shifts : Shifts world base lost gained)
    (works : Works world base move (fun id => lost id + old.custody id) gained) :
    Advances world move (base.endTask number) where
  tidy := (carries.tidy tidy).endTask number
  change := by
    intro id
    obtain ⟨rest, before, after⟩ := shifts.others carries number id
    rw [view_of_found tidy.numbered.distinct found, view_endTask, before, after, add_assoc]
    exact works id rest

theorem advances_goOn (tidy : world.Tidy) (found : Table.get? number world.tasks = some old)
    (carries : Carries world base) (ids : base.channel.ids = world.channel.ids) (sane : task.Sane)
    (works : Works world base move (fun id => old.custody id) fun id => task.custody id) :
    Advances world move (base.goOn number task) := by
  refine advances_goOn_of_shifts tidy found carries (shifts_same ids) sane ?_
  simpa only [zero_add] using works

theorem advances_endTask (tidy : world.Tidy) (found : Table.get? number world.tasks = some old)
    (carries : Carries world base) (ids : base.channel.ids = world.channel.ids)
    (works : Works world base move (fun id => old.custody id) fun _ => 0) :
    Advances world move (base.endTask number) := by
  refine advances_endTask_of_shifts tidy found carries (shifts_same ids) ?_
  simpa only [zero_add] using works

theorem Advances.answer (advances : Advances world move (base.endTask number)) {answer : Answer}
    (quiet : ∀ id, Event.accepts id (.answered number answer) = false) :
    Advances world move (base.answer number answer) where
  tidy := advances.tidy.note _
  change := by
    intro id
    rw [World.answer, view_note rfl (quiet id)]
    exact advances.change id

/-- A task that is made holds its ids besides all others. -/
theorem others_spawn (numbered : world.Numbered) (there : number < world.nextTask) (made : Task) (id : JobId) :
    (world.spawn made).others number id = world.others number id + made.custody id := by
  have differ : number ≠ world.nextTask := Nat.ne_of_lt there
  have free : Table.get? world.nextTask (Table.erase number world.tasks) = none := by
    rw [Table.get?_erase_of_ne (Ne.symm differ), numbered.fresh]
  rw [World.others, World.others, add_assoc, ← Table.total_insert_new _ free, World.spawn,
    Table.erase_insert_of_ne differ made world.tasks]

/-- A task that makes another one goes on itself. -/
theorem advances_spawn (tidy : world.Tidy) (found : Table.get? number world.tasks = some old)
    {made : Task} (saneMade : made.Sane) (sane : task.Sane)
    (works : Works world world move (fun id => old.custody id)
      fun id => made.custody id + task.custody id) :
    Advances world move ((world.spawn made).goOn number task) where
  tidy := by
    have there := Nat.lt_succ_of_lt (tidy.numbered.below found)
    exact (tidy.spawn saneMade).goOn there sane
  change := by
    intro id
    rw [view_of_found tidy.numbered.distinct found, view_goOn (tidy.spawn saneMade).numbered.distinct,
      others_spawn tidy.numbered (tidy.numbered.below found), add_assoc]
    exact works id _

end World

end ContractWorks

import ContractWorks.Proofs.Queue.Flow
import ContractWorks.Proofs.Queue.View

namespace ContractWorks.World

open Custody (row)

/-- A worker is awaited when it stands in the pool, or when a shutdown waits for it. -/
def Awaited (world : World) (worker : Nat) : Prop :=
  worker ∈ world.pool ∨ ∃ number workers, world.roleAt number = some (.joining workers) ∧ worker ∈ workers

/-- A queue drains when it has workers until nothing is left to do, and when a shutdown waits for all of them. -/
structure Drains (world : World) : Prop where
  receiver : world.channel.receiver = .shared
  settled : ∀ number, world.roleAt number ≠ some .launching ∧ world.roleAt number ≠ some .recovering
  closed : world.channel.senderOpen = false → ∀ number, world.roleAt number ≠ some .placing
  awaited : ∀ number, world.roleAt number = some .working → world.Awaited number
  collecting : ∀ number, world.roleAt number = some .collecting → world.channel.senderOpen = false
  joining : ∀ number workers, world.roleAt number = some (.joining workers) →
    world.channel.senderOpen = false ∧ world.pool = []
  stopped : ∀ number, .answered number .stopped ∈ world.history →
    world.channel.senderOpen = false ∧ world.pool = []
  served : (∃ number, world.roleAt number = some .working) ∨ (world.channel.senderOpen = false ∧
    world.channel.ids = [] ∧ ∀ number, world.roleAt number ≠ some .sending)

variable {world next : World} {number mover : Nat} {role : Role}

/-- A role that does not pass stays until its task changes it. -/
theorem Calm.keeps (calm : Calm mover world next) (stands : world.roleAt number = some role)
    (waits : ¬Role.Passes (some role)) : next.roleAt number = some role := by
  rcases calm.turns number with same | ⟨passes, _⟩
  · rw [same, stands]
  · rw [stands] at passes
    exact absurd passes waits

theorem Calm.came (calm : Calm mover world next) (stands : next.roleAt number = some role)
    (waits : ¬Role.Passes (some role)) : world.roleAt number = some role := by
  rcases calm.turns number with same | ⟨_, gone | rests | ⟨_, places | sends⟩⟩
  · rw [← same, stands]
  · rw [gone] at stands
    simp at stands
  · rw [rests, Option.some.injEq] at stands
    exact absurd (stands ▸ trivial) waits
  · rw [places, Option.some.injEq] at stands
    exact absurd (stands ▸ trivial) waits
  · rw [sends, Option.some.injEq] at stands
    exact absurd (stands ▸ trivial) waits

theorem Calm.awaited (calm : Calm mover world next) (awaited : world.Awaited number) : next.Awaited number := by
  rcases awaited with pooled | ⟨joiner, workers, joins, member⟩
  · exact .inl (calm.pool ▸ pooled)
  · exact .inr ⟨joiner, workers, calm.keeps joins id, member⟩

/-- A queue that nobody feeds stays empty. -/
theorem Calm.quiet (calm : Calm mover world next) (closed : world.channel.senderOpen = false)
    (empty : world.channel.ids = []) (places : ∀ number, world.roleAt number ≠ some .placing)
    (sends : ∀ number, world.roleAt number ≠ some .sending) :
    next.channel.ids = [] ∧ ∀ number, next.roleAt number ≠ some .sending := by
  refine ⟨?_, fun number there => ?_⟩
  · rcases calm.ids empty with still | ⟨number, role | role⟩
    · exact still
    · exact absurd role (places number)
    · exact absurd role (sends number)
  · rcases calm.turns number with same | ⟨_, gone | rests | ⟨opened, _⟩⟩
    · exact sends number (same ▸ there)
    · simp [gone] at there
    · simp [rests] at there
    · simp [closed] at opened

theorem Drains.calm (drains : world.Drains) (calm : Calm mover world next) : next.Drains where
  receiver := calm.receiver.trans drains.receiver
  settled := fun number =>
    ⟨fun launches => (drains.settled number).1 (calm.came launches id),
      fun recovers => (drains.settled number).2 (calm.came recovers id)⟩
  closed := by
    intro closed number places
    rw [calm.sender] at closed
    rcases calm.turns number with same | ⟨_, gone | rests | ⟨opened, _⟩⟩
    · exact drains.closed closed number (same ▸ places)
    · simp [gone] at places
    · simp [rests] at places
    · simp [closed] at opened
  awaited := fun number works => calm.awaited (drains.awaited number (calm.came works id))
  collecting := fun number collects => calm.sender.trans (drains.collecting number (calm.came collects id))
  joining := by
    intro number workers joins
    obtain ⟨closed, empty⟩ := drains.joining number workers (calm.came joins id)
    exact ⟨calm.sender.trans closed, calm.pool.trans empty⟩
  stopped := by
    intro number stopped
    obtain ⟨closed, empty⟩ := drains.stopped number (calm.announced _ trivial stopped)
    exact ⟨calm.sender.trans closed, calm.pool.trans empty⟩
  served := by
    rcases drains.served with ⟨number, works⟩ | ⟨closed, empty, sends⟩
    · exact .inl ⟨number, calm.keeps works id⟩
    · exact .inr ⟨calm.sender.trans closed, calm.quiet closed empty (drains.closed closed) sends⟩

/-- A task turns when it is the only one whose role changes. -/
structure Turned (world next : World) (number : Nat) (before : Role) (after : Option Role) : Prop where
  old : world.roleAt number = some before
  new : next.roleAt number = after
  elsewhere : ∀ other, other ≠ number → next.roleAt other = world.roleAt other

namespace Turned

variable {before : Role} {after : Option Role} {other : Nat}

theorem keeps (turned : Turned world next number before after) (differ : role ≠ before)
    (stands : world.roleAt other = some role) : next.roleAt other = some role := by
  have apart : other ≠ number := by
    rintro rfl
    exact differ (Option.some.inj (stands.symm.trans turned.old))
  rw [turned.elsewhere other apart, stands]

theorem came (turned : Turned world next number before after) (differ : after ≠ some role)
    (stands : next.roleAt other = some role) : world.roleAt other = some role := by
  have apart : other ≠ number := by
    rintro rfl
    exact differ (turned.new.symm.trans stands)
  rw [← turned.elsewhere other apart, stands]

theorem settled (turned : Turned world next number before after) (drains : world.Drains)
    (launches : after ≠ some .launching) (recovers : after ≠ some .recovering) (other : Nat) :
    next.roleAt other ≠ some .launching ∧ next.roleAt other ≠ some .recovering :=
  ⟨fun stands => (drains.settled other).1 (turned.came launches stands),
    fun stands => (drains.settled other).2 (turned.came recovers stands)⟩

/-- A task that is no worker and waits for none leaves the others awaited. -/
theorem awaited (turned : Turned world next number before after) (pool : next.pool = world.pool)
    (waits : ∀ workers, before ≠ .joining workers) (awaited : world.Awaited other) : next.Awaited other := by
  rcases awaited with pooled | ⟨joiner, workers, joins, member⟩
  · exact .inl (pool ▸ pooled)
  · exact .inr ⟨joiner, workers, turned.keeps (waits workers).symm joins, member⟩

end Turned

theorem turned_goOn {task : Task} {before : Role} (old : world.roleAt number = some before)
    (same : ∀ other, next.roleAt other = world.roleAt other) :
    Turned world (next.goOn number task) number before (some task.role) :=
  ⟨old, roleAt_goOn_self, fun other differ => (roleAt_goOn_of_ne differ).trans (same other)⟩

theorem turned_endTask {before : Role} (old : world.roleAt number = some before) :
    Turned world (world.endTask number) number before none :=
  ⟨old, roleAt_endTask_self, fun _ differ => roleAt_endTask_of_ne differ⟩

theorem turned_answer {before : Role} (old : world.roleAt number = some before) (answer : Answer) :
    Turned world (world.answer number answer) number before none :=
  ⟨old, roleAt_endTask_self, fun _ differ => roleAt_endTask_of_ne differ⟩

theorem Drains.close (drains : world.Drains) (empty : ∀ other, world.roleAt other ≠ some .placing)
    (before : world.roleAt number = some .resting) :
    ({ world with channel := { world.channel with senderOpen := false } }.goOn number
      (.shutdown .collecting)).Drains := by
  have turned : Turned world ({ world with channel := { world.channel with senderOpen := false } }.goOn number
      (.shutdown .collecting)) number .resting (some .collecting) := turned_goOn before fun _ => rfl
  refine ⟨drains.receiver, turned.settled drains (by simp) (by simp), fun _ other places => ?_,
    fun other works => ?_, fun _ _ => rfl, fun other workers joins => ?_,
    fun other stopped => ⟨rfl, (drains.stopped other stopped).2⟩, ?_⟩
  · exact empty other (turned.came (by simp) places)
  · have stood := turned.came (by simp) works
    exact turned.awaited rfl (by simp) (drains.awaited other stood)
  · exact ⟨rfl, (drains.joining other workers (turned.came (by simp) joins)).2⟩
  · rcases drains.served with ⟨worker, works⟩ | ⟨_, quiet, sends⟩
    · exact .inl ⟨worker, turned.keeps (by simp) works⟩
    · exact .inr ⟨rfl, quiet, fun other there => sends other (turned.came (by simp) there)⟩

theorem Drains.collect (drains : world.Drains) (before : world.roleAt number = some .collecting) :
    ({ world with pool := [] }.goOn number (.shutdown (.joining world.pool))).Drains := by
  have turned : Turned world ({ world with pool := [] }.goOn number (.shutdown (.joining world.pool))) number
      .collecting (some (.joining world.pool)) := turned_goOn before fun _ => rfl
  have closed := drains.collecting number before
  refine ⟨drains.receiver, turned.settled drains (by simp) (by simp), fun _ other places => ?_,
    fun other works => .inr ?_, fun _ _ => closed, fun _ _ _ => ⟨closed, rfl⟩, fun _ _ => ⟨closed, rfl⟩, ?_⟩
  · exact drains.closed closed other (turned.came (by simp) places)
  · -- Whoever stood in the pool is now waited for by this shutdown.
    rcases drains.awaited other (turned.came (by simp) works) with pooled | ⟨joiner, workers, joins, member⟩
    · exact ⟨number, world.pool, turned.new, pooled⟩
    · exact ⟨joiner, workers, turned.keeps (by simp) joins, member⟩
  · rcases drains.served with ⟨worker, works⟩ | ⟨_, quiet, sends⟩
    · exact .inl ⟨worker, turned.keeps (by simp) works⟩
    · exact .inr ⟨closed, quiet, fun other there => sends other (turned.came (by simp) there)⟩

theorem Drains.join (drains : world.Drains) {workers : List Nat}
    (before : world.roleAt number = some (.joining workers))
    (gone : ∀ worker ∈ workers, world.roleAt worker = none) : (world.answer number .stopped).Drains := by
  have turned : Turned world (world.answer number .stopped) number (.joining workers) none :=
    turned_answer before .stopped
  obtain ⟨closed, empty⟩ := drains.joining number workers before
  refine ⟨drains.receiver, turned.settled drains (by simp) (by simp), fun _ other places => ?_,
    fun other works => ?_, fun other collects => ?_, fun other waited joins => ?_, fun _ _ => ⟨closed, empty⟩, ?_⟩
  · exact drains.closed closed other (turned.came (by simp) places)
  · have stood := turned.came (by simp) works
    rcases drains.awaited other stood with pooled | ⟨joiner, waited, joins, member⟩
    · exact .inl pooled
    · refine .inr ⟨joiner, waited, turned.keeps ?_ joins, member⟩
      rintro same
      obtain rfl := Role.joining.inj same
      rw [gone other member] at stood
      simp at stood
  · exact drains.collecting other (turned.came (by simp) collects)
  · exact drains.joining other waited (turned.came (by simp) joins)
  · rcases drains.served with ⟨worker, works⟩ | ⟨_, quiet, sends⟩
    · exact .inl ⟨worker, turned.keeps (by simp) works⟩
    · exact .inr ⟨closed, quiet, fun other there => sends other (turned.came (by simp) there)⟩

theorem isDrained_iff : world.isDrained = true ↔ world.channel.senderOpen = false ∧ world.channel.ids = [] ∧
    ∀ entry ∈ world.tasks, entry.2.role ≠ .sending := by
  rw [isDrained, Bool.and_eq_true, Bool.and_eq_true, Bool.not_eq_true', List.isEmpty_iff, List.all_eq_true,
    and_assoc]
  simp only [Bool.not_eq_true', ← Bool.not_eq_true, Task.maySend_iff, ne_eq]

theorem Drains.stop (drains : world.Drains) (before : world.roleAt number = some .working)
    (drained : world.isDrained = true) : (world.endTask number).Drains := by
  have turned := turned_endTask before
  obtain ⟨closed, empty, nobody⟩ := isDrained_iff.mp drained
  refine ⟨drains.receiver, turned.settled drains (by simp) (by simp), fun _ other places => ?_,
    fun other works => ?_, fun other collects => ?_, fun other waited joins => ?_, drains.stopped,
    .inr ⟨closed, empty, fun other sends => ?_⟩⟩
  · exact drains.closed closed other (turned.came (by simp) places)
  · have stood := turned.came (by simp) works
    exact turned.awaited rfl (by simp) (drains.awaited other stood)
  · exact drains.collecting other (turned.came (by simp) collects)
  · exact drains.joining other waited (turned.came (by simp) joins)
  · have stood := turned.came (by simp) sends
    cases standing : Table.get? other world.tasks with
    | none => simp [roleAt, standing] at stood
    | some task =>
      rw [roleAt_of_found standing, Option.some.injEq] at stood
      exact nobody _ (Table.mem_of_get? standing) stood

/-- A queue goes on to drain. -/
theorem Drains.flow (drains : world.Drains) (flow : Flow mover world next) : next.Drains := by
  cases flow with
  | calm calm => exact drains.calm calm
  | close empty before becomes => exact becomes ▸ drains.close empty before
  | collect before becomes => exact becomes ▸ drains.collect before
  | join workers before gone becomes => exact becomes ▸ drains.join before gone
  | stop before drained becomes => exact becomes ▸ drains.stop before drained

/-- A queue is down when a shutdown has returned and none is under way. -/
def IsDown (world : World) : Prop :=
  (∃ number, .answered number .stopped ∈ world.history) ∧
    ∀ number step, Table.get? number world.tasks ≠ some (.shutdown step)

/-- Nobody holds an id in a queue that is down. -/
theorem Drains.custody_of_down (drains : world.Drains) (distinct : Table.Distinct world.tasks)
    (down : world.IsDown) (id : JobId) : world.custody id = 0 := by
  obtain ⟨⟨number, stopped⟩, nobody⟩ := down
  obtain ⟨closed, empty⟩ := drains.stopped number stopped
  have idle (other : Nat) : world.roleAt other ≠ some .working := by
    intro works
    rcases drains.awaited other works with pooled | ⟨joiner, workers, joins, _⟩
    · simp [empty] at pooled
    · cases standing : Table.get? joiner world.tasks with
      | none => simp [roleAt, standing] at joins
      | some task =>
        rw [roleAt_of_found standing, Option.some.injEq] at joins
        cases task with
        | shutdown step => exact nobody joiner step standing
        | submit step => cases step <;> simp [Task.role] at joins
        | start step => cases step <;> simp [Task.role] at joins
        | _ => simp [Task.role] at joins
  obtain ⟨_, quiet, sends⟩ : world.channel.senderOpen = false ∧ world.channel.ids = [] ∧
      ∀ other, world.roleAt other ≠ some .sending := by
    rcases drains.served with ⟨worker, works⟩ | drained
    · exact absurd works (idle worker)
    · exact drained
  have free : ∀ entry ∈ world.tasks, Task.custody id entry.2 = 0 := by
    rintro ⟨other, task⟩ member
    have role := roleAt_of_found (Table.get?_of_mem distinct member)
    cases task with
    | submit step =>
      cases step with
      | waiting kind input => rfl
      | _ => exact absurd role (drains.closed closed other)
    | start step =>
      cases step with
      | waiting => rfl
      | spawning report => exact absurd role (drains.settled other).1
      | _ => exact absurd role (drains.settled other).2
    | shutdown step => rfl
    | status step => rfl
    | worker step => exact absurd role (idle other)
    | offer ids => exact absurd role (sends other)
    | retry held awake => exact absurd role (sends other)
  rw [custody, quiet, Custody.row_nil, zero_add, Table.total]
  exact List.sum_eq_zero fun weight member => by
    obtain ⟨entry, there, rfl⟩ := List.mem_map.mp member
    exact free entry there

end ContractWorks.World

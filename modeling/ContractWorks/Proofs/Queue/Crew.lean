import ContractWorks.Proofs.Queue.Places
import ContractWorks.Proofs.Queue.Tending

namespace ContractWorks.World

variable {setting : Setting} {world base next : World} {number : Nat} {chance : Chance} {step after : StartStep}

/-- The crew of a queue is in order when there is no worker before a start has ended, when one start has the receiver
until then, and when there are no more workers than the setting asks for. -/
structure Crewed (setting : Setting) (world : World) : Prop where
  unmanned : world.channel.receiver ≠ .shared → ∀ number, world.roleAt number ≠ some .working
  taken : ∀ number, world.Starts number → world.channel.receiver = .taken
  single : ∀ number other, world.Starts number → world.Starts other → number = other
  crew : ∃ crew : List Nat, crew.length ≤ setting.workerCount ∧
    ∀ number, world.roleAt number = some .working → number ∈ crew

/-- A world without tasks has no crew yet. -/
theorem crewed_of_idle (idle : world.tasks = []) : world.Crewed setting := by
  have absent (number : Nat) : world.roleAt number = none := by simp [roleAt, idle]
  have none (number : Nat) : ¬world.Starts number := by simp [Starts, absent]
  exact ⟨fun _ number => by simp [absent], fun number starts => absurd starts (none number),
    fun number _ starts => absurd starts (none number), [], Nat.zero_le _, fun number => by simp [absent]⟩

/-- A crew stays in order when no worker and no start comes to it and the receiver stays where it is. -/
theorem Crewed.fewer (crewed : world.Crewed setting) (receiver : next.channel.receiver = world.channel.receiver)
    (came : ∀ number role, role.Fixed → next.roleAt number = some role → world.roleAt number = some role) :
    next.Crewed setting := by
  have starts {number : Nat} (starts : next.Starts number) : world.Starts number :=
    starts.imp (came number _ trivial) (came number _ trivial)
  obtain ⟨crew, bound, inside⟩ := crewed.crew
  exact ⟨fun unshared number works => crewed.unmanned (receiver ▸ unshared) number (came number _ trivial works),
    fun number begun => receiver.trans (crewed.taken number (starts begun)),
    fun number other first second => crewed.single number other (starts first) (starts second),
    crew, bound, fun number works => inside number (came number _ trivial works)⟩

theorem Crewed.flow {mover : Nat} (crewed : world.Crewed setting) (flow : Flow mover world next) :
    next.Crewed setting :=
  crewed.fewer flow.receiver fun _ _ fixed stands => flow.came stands fixed

/-- The crew stays in order when the start goes on and offers jobs at most. -/
theorem Crewed.proceed (unmanned : ∀ other, world.roleAt other ≠ some .working)
    (only : ∀ other, world.Starts other → other = number)
    (others : ∀ other, other ≠ number → base.roleAt other = world.roleAt other ∨ base.roleAt other = some .sending)
    (taken : base.channel.receiver = .taken) : (base.goOn number (.start after)).Crewed setting := by
  have idle (other : Nat) : (base.goOn number (.start after)).roleAt other ≠ some .working := by
    by_cases same : other = number
    · subst same
      rw [roleAt_goOn_self]
      cases after <;> simp [Task.role]
    · rw [roleAt_goOn_of_ne same]
      rcases others other same with kept | sends
      · exact kept ▸ unmanned other
      · simp [sends]
  have one {other : Nat} (starts : (base.goOn number (.start after)).Starts other) : other = number := by
    by_contra differ
    rw [Starts, roleAt_goOn_of_ne differ] at starts
    rcases others other differ with kept | sends
    · rw [kept] at starts
      exact differ (only other starts)
    · simp [sends] at starts
  exact ⟨fun _ => idle, fun _ _ => taken, fun _ _ first second => (one first).trans (one second).symm,
    [], Nat.zero_le _, fun other works => absurd works (idle other)⟩

/-- Nobody works or starts any more when the start has failed. -/
theorem Crewed.fail (unmanned : ∀ other, world.roleAt other ≠ some .working)
    (only : ∀ other, world.Starts other → other = number) (tasks : base.tasks = world.tasks) (error : QueueError) :
    (base.failStart number error).Crewed setting := by
  have roles (other : Nat) : (base.failStart number error).roleAt other =
      if other = number then none else world.roleAt other := by
    split
    · next same => exact same ▸ roleAt_endTask_self
    · next differ =>
      have kept : base.roleAt other = world.roleAt other := by rw [roleAt, roleAt, tasks]
      exact (roleAt_endTask_of_ne differ).trans kept
  have idle (other : Nat) : (base.failStart number error).roleAt other ≠ some .working := by
    rw [roles]
    split
    · simp
    · exact unmanned other
  have none (other : Nat) : ¬(base.failStart number error).Starts other := by
    rw [Starts, roles]
    split
    · simp
    · next differ => exact fun starts => differ (only other starts)
  exact ⟨fun _ => idle, fun other starts => absurd starts (none other), fun other _ starts => absurd starts (none other),
    [], Nat.zero_le _, fun other works => absurd works (idle other)⟩

theorem nextTask_spawnWorkers (count : Nat) : ∀ world : World,
    (spawnWorkers count world).nextTask = world.nextTask + count := by
  induction count with
  | zero => exact fun world => rfl
  | succ count inductionHypothesis =>
    intro world
    rw [spawnWorkers, inductionHypothesis, Nat.add_comm count, ← Nat.add_assoc]
    rfl

/-- A start that makes the workers makes as many as the setting asks for. -/
theorem Crewed.launch (unmanned : ∀ other, world.roleAt other ≠ some .working)
    (only : ∀ other, world.Starts other → other = number) (numbered : world.Numbered) (report : RecoveryReport) :
    (stepStart setting world number chance (.spawning report)).Crewed setting := by
  obtain ⟨shared, shape⟩ : ∃ shared : World,
      shared = { world with channel := { world.channel with receiver := .shared } } := ⟨_, rfl⟩
  have counted : shared.Numbered := by
    rw [shape]
    exact ⟨numbered.distinct, numbered.below⟩
  have staffs := staffs_spawnWorkers setting.workerCount counted
  obtain ⟨_, all, _⟩ := total_spawnWorkers setting.workerCount shared counted
  have roles (other : Nat) (differ : other ≠ number) :
      (stepStart setting world number chance (.spawning report)).roleAt other =
        (spawnWorkers setting.workerCount shared).roleAt other := by
    rw [shape]
    exact roleAt_endTask_of_ne differ
  have own : (stepStart setting world number chance (.spawning report)).roleAt number = none := roleAt_endTask_self
  have before (other : Nat) (older : other < shared.nextTask) :
      (spawnWorkers setting.workerCount shared).roleAt other = world.roleAt other := by
    rw [staffs.old other older, shape]
    rfl
  have receiver : (stepStart setting world number chance (.spawning report)).channel.receiver = .shared := by
    have channel := congrArg Channel.receiver staffs.channel
    rw [shape] at channel
    exact channel
  have none (other : Nat) : ¬(stepStart setting world number chance (.spawning report)).Starts other := by
    intro starts
    by_cases same : other = number
    · simp [Starts, same, own] at starts
    · rw [Starts, roles other same] at starts
      rcases Nat.lt_or_ge other shared.nextTask with older | new
      · rw [before other older] at starts
        exact same (only other starts)
      · rcases staffs.new other new with absent | ⟨works, _⟩
        · simp [absent] at starts
        · simp [works] at starts
  refine ⟨fun unshared => absurd receiver unshared, fun other starts => absurd starts (none other),
    fun other _ starts => absurd starts (none other), List.range' shared.nextTask setting.workerCount, by simp,
    fun other works => ?_⟩
  have differ : other ≠ number := by
    rintro rfl
    simp [own] at works
  rw [roles other differ] at works
  obtain ⟨task, found, _⟩ := Option.map_eq_some_iff.mp works
  have bound := all.below found
  rw [nextTask_spawnWorkers] at bound
  refine List.mem_range'_1.mpr ⟨?_, bound⟩
  by_contra older
  exact unmanned other ((before other (Nat.lt_of_not_le older)) ▸ works)

/-- A step of a start leaves the crew in order. -/
theorem Crewed.start (crewed : world.Crewed setting) (numbered : world.Numbered)
    (found : Table.get? number world.tasks = some (.start step)) :
    (stepStart setting world number chance step).Crewed setting := by
  have begun (starts : world.Starts number) : (∀ other, world.Starts other → other = number) ∧
      world.channel.receiver = .taken ∧ ∀ other, world.roleAt other ≠ some .working := by
    have taken := crewed.taken number starts
    exact ⟨fun other alike => crewed.single other number alike starts, taken, crewed.unmanned (by simp [taken])⟩
  generalize stepped : stepStart setting world number chance step = next
  cases startBranch stepped with
  | takes free =>
    have none (other : Nat) (starts : world.Starts other) : other = number := by
      have taken := crewed.taken other starts
      simp [free] at taken
    exact Crewed.proceed (crewed.unmanned (by simp [free])) none (fun _ _ => .inl rfl) rfl
  | late begun => exact crewed.flow (.calm (stepped ▸ calm_late_start begun found))
  | spawns =>
    obtain ⟨only, _, unmanned⟩ := begun (.inr (roleAt_of_found found))
    exact stepped ▸ Crewed.launch unmanned only numbered _
  | unlisted | breaks | unlistedAgain | shut =>
    obtain ⟨only, _, unmanned⟩ := begun (starts_of_recovers found trivial)
    exact Crewed.fail unmanned only (by rfl) _
  | offers =>
    obtain ⟨only, taken, unmanned⟩ := begun (starts_of_recovers found trivial)
    refine Crewed.proceed unmanned only (fun other _ => ?_) taken
    by_cases new : other = world.nextTask
    · exact new ▸ .inr roleAt_goOn_self
    · exact .inl (roleAt_goOn_of_ne new)
  | _ =>
    obtain ⟨only, taken, unmanned⟩ := begun (starts_of_recovers found trivial)
    exact Crewed.proceed unmanned only (fun _ _ => .inl rfl) taken

/-- Every move leaves the crew of a queue in order. -/
theorem Crewed.move (crewed : world.Crewed setting) (numbered : world.Numbered) {move : Move}
    (moved : move? setting world move = some next) : next.Crewed setting := by
  cases move with
  | call call =>
    rw [← Option.some.inj moved]
    exact crewed.flow (.calm (flow_beginCall numbered.fresh call))
  | deliver id =>
    rw [← Option.some.inj moved]
    exact crewed.fewer (push_same world.channel id).1 fun _ _ _ stands => stands
  | restart =>
    obtain ⟨_, _, _, _, _, _, rfl⟩ := stores_of_restart moved
    exact crewed_of_idle rfl
  | step number chance =>
    by_cases starts : ∃ step, Table.get? number world.tasks = some (.start step)
    · obtain ⟨step, found⟩ := starts
      rw [move?, step?, found] at moved
      rw [← Option.some.inj moved]
      exact crewed.start numbered found
    · have ordinary : (Move.step number chance).IsOrdinary := trivial
      refine crewed.flow (flow_of_other numbered.fresh ordinary ?_ moved)
      rintro other _ step same found
      obtain ⟨rfl, _⟩ := Move.step.inj same
      exact starts ⟨step, found⟩

end ContractWorks.World

import ContractWorks.Proofs.Queue.Once
import ContractWorks.Proofs.Queue.Rescue

namespace ContractWorks

/-- This function counts the places on the channel that a task holds, of which there is at most one. -/
def Task.places (task : Task) : Nat :=
  if World.holdsPlace task then 1 else 0

/-- A channel is bounded when its ids and its reserved places fit the capacity. An id that comes from nowhere takes no
place, so that the bound is asked for only where none does. -/
structure Channel.Bounded (bound : Nat) (honest : Prop) (channel : Channel) : Prop where
  capacity : channel.capacity = bound
  room : honest → channel.ids.length + channel.reserved ≤ bound

/-- This function gives the number of ids that the channel of a queue holds at most. -/
def Setting.channelBound (setting : Setting) : Nat :=
  max 1 setting.config.channelCapacity.toNat

namespace World

variable {setting : Setting} {world base next : World} {number bound : Nat} {chance : Chance} {old task : Task}
  {honest : Prop}

/-- A world accounts for its channel when the reserved places are those that its tasks hold. -/
structure Accounts (bound : Nat) (honest : Prop) (world : World) : Prop where
  bounded : world.channel.Bounded bound honest
  reserved : world.channel.reserved = Table.total Task.places world.tasks

/-- A channel that is bounded stays so when it reserves no more and holds no more ids. -/
theorem bounded_of_fewer {channel other : Channel} (bounded : channel.Bounded bound honest)
    (capacity : other.capacity = channel.capacity)
    (fewer : other.ids.length + other.reserved ≤ channel.ids.length + channel.reserved) :
    other.Bounded bound honest :=
  ⟨capacity.trans bounded.capacity, fun sure => fewer.trans (bounded.room sure)⟩

/-- An id that is sent takes a free place. -/
theorem bounded_push {channel : Channel} (bounded : channel.Bounded bound honest) (id : JobId)
    (room : honest → channel.ids.length + channel.reserved < bound) :
    (channel.push id).Bounded bound honest ∧ (channel.push id).reserved = channel.reserved := by
  rw [Channel.push]
  split
  · exact ⟨bounded, rfl⟩
  · refine ⟨⟨bounded.capacity, fun sure => ?_⟩, rfl⟩
    have free := room sure
    show (channel.ids ++ [id]).length + channel.reserved ≤ _
    rw [List.length_append, List.length_singleton]
    omega

/-- A task that goes on takes or gives back as many places as the channel reserves more or less. -/
theorem Accounts.goOn (accounts : world.Accounts bound honest) (distinct : Table.Distinct world.tasks)
    (found : Table.get? number world.tasks = some old) (tasks : base.tasks = world.tasks)
    (bounded : base.channel.Bounded bound honest)
    (reserved : base.channel.reserved + old.places = world.channel.reserved + task.places) :
    (base.goOn number task).Accounts bound honest where
  bounded := bounded
  reserved := by
    have before := Table.total_erase Task.places distinct found
    have after := Table.total_insert_erase Task.places distinct number task
    have balance := accounts.reserved
    show base.channel.reserved = Table.total Task.places (Table.insert number task base.tasks)
    rw [tasks]
    omega

theorem Accounts.endTask (accounts : world.Accounts bound honest) (distinct : Table.Distinct world.tasks)
    (found : Table.get? number world.tasks = some old) (tasks : base.tasks = world.tasks)
    (bounded : base.channel.Bounded bound honest)
    (reserved : base.channel.reserved + old.places = world.channel.reserved) :
    (base.endTask number).Accounts bound honest where
  bounded := bounded
  reserved := by
    have before := Table.total_erase Task.places distinct found
    have balance := accounts.reserved
    show base.channel.reserved = Table.total Task.places (Table.erase number base.tasks)
    rw [tasks]
    omega

theorem Accounts.note (accounts : world.Accounts bound honest) (event : Event) :
    (world.note event).Accounts bound honest :=
  ⟨accounts.bounded, accounts.reserved⟩

theorem Accounts.answer (accounts : world.Accounts bound honest) (distinct : Table.Distinct world.tasks)
    (found : Table.get? number world.tasks = some old) (tasks : base.tasks = world.tasks)
    (bounded : base.channel.Bounded bound honest)
    (reserved : base.channel.reserved + old.places = world.channel.reserved) (answer : Answer) :
    (base.answer number answer).Accounts bound honest :=
  (accounts.endTask distinct found tasks bounded reserved).note _

theorem Accounts.spawn (accounts : world.Accounts bound honest) (numbered : world.Numbered) (task : Task)
    (free : task.places = 0) : (world.spawn task).Accounts bound honest where
  bounded := accounts.bounded
  reserved := by
    have sum := Table.total_insert_new Task.places numbered.fresh task
    have balance := accounts.reserved
    show world.channel.reserved = Table.total Task.places (Table.insert world.nextTask task world.tasks)
    omega

/-- A task that makes another one goes on, and neither of them comes to hold a place. -/
theorem Accounts.spawn_goOn (accounts : world.Accounts bound honest) (numbered : world.Numbered)
    (found : Table.get? number world.tasks = some old) {made task : Task} (free : made.places = 0)
    (same : task.places = old.places) : ((world.spawn made).goOn number task).Accounts bound honest := by
  have spawned := accounts.spawn numbered made free
  have there := (Table.get?_insert_of_ne (Nat.ne_of_lt (numbered.below found)) made world.tasks).trans found
  refine spawned.goOn (numbered.spawn made).distinct there rfl spawned.bounded ?_
  rw [same]

theorem total_spawnWorkers (count : Nat) : ∀ world : World, world.Numbered →
    (spawnWorkers count world).channel = world.channel ∧ (spawnWorkers count world).Numbered ∧
      Table.total Task.places (spawnWorkers count world).tasks = Table.total Task.places world.tasks := by
  induction count with
  | zero => exact fun _ numbered => ⟨rfl, numbered, rfl⟩
  | succ count inductionHypothesis =>
    intro world numbered
    have spawned := numbered.spawn (.worker .idle)
    obtain ⟨channel, after, sum⟩ := inductionHypothesis
      { world.spawn (.worker .idle) with pool := world.pool ++ [world.nextTask] }
      ⟨spawned.distinct, spawned.below⟩
    refine ⟨channel, after, sum.trans ?_⟩
    exact Table.total_insert_new Task.places numbered.fresh (.worker .idle)

/-- A submission reserves a place, and gives it back with its answer. -/
theorem Accounts.submit (accounts : world.Accounts bound honest) (distinct : Table.Distinct world.tasks)
    {step : SubmitStep} (found : Table.get? number world.tasks = some (.submit step)) :
    (world.stepSubmit number chance step).Accounts bound honest := by
  have holds (places : (Task.submit step).places = 1) : 0 < world.channel.reserved := by
    have sum := Table.total_erase Task.places distinct found
    have balance := accounts.reserved
    omega
  generalize stepped : world.stepSubmit number chance step = next
  cases submitBranch stepped with
  | closed | full => exact accounts.answer distinct found rfl accounts.bounded rfl _
  | reserves _ _ room =>
    refine accounts.goOn distinct found rfl ⟨accounts.bounded.capacity, fun sure => ?_⟩ rfl
    have free : world.channel.ids.length + world.channel.reserved < world.channel.capacity := by
      simpa [Channel.hasRoom] using room
    have capacity := accounts.bounded.capacity
    show world.channel.ids.length + (world.channel.reserved + 1) ≤ bound
    omega
  | inserts | enters => exact accounts.goOn distinct found (by rfl) accounts.bounded (by rfl)
  | fails =>
    have held := holds rfl
    refine accounts.answer distinct found (by rfl) (bounded_of_fewer accounts.bounded (by rfl) ?_) ?_ _
    · show world.channel.ids.length + (world.channel.reserved - 1) ≤ _
      omega
    · show world.channel.reserved - 1 + 1 = _
      omega
  | @sends id =>
    have held := holds rfl
    have released : world.channel.release.Bounded bound honest := by
      refine bounded_of_fewer accounts.bounded rfl ?_
      show world.channel.ids.length + (world.channel.reserved - 1) ≤ _
      omega
    obtain ⟨bounded, reserved⟩ := bounded_push released id fun sure => by
      have room := accounts.bounded.room sure
      show world.channel.ids.length + (world.channel.reserved - 1) < bound
      omega
    refine accounts.answer distinct found (by rfl) bounded ?_ _
    show (world.channel.release.push id).reserved + 1 = world.channel.reserved
    rw [reserved]
    show world.channel.reserved - 1 + 1 = _
    omega

/-- A start that fails loses the ids on the channel, but no place. -/
theorem Accounts.failStart (accounts : world.Accounts bound honest) (distinct : Table.Distinct world.tasks)
    {step : StartStep} (found : Table.get? number world.tasks = some (.start step)) (tasks : base.tasks = world.tasks)
    (channel : base.channel = world.channel) (error : QueueError) :
    (base.failStart number error).Accounts bound honest := by
  have fewer : base.channel.lose.ids.length + base.channel.lose.reserved ≤
      world.channel.ids.length + world.channel.reserved := by
    rw [channel]
    show 0 + world.channel.reserved ≤ _
    omega
  have capacity : base.channel.lose.capacity = world.channel.capacity := by
    rw [channel]
    rfl
  have reserved : base.channel.lose.reserved = world.channel.reserved := by
    rw [channel]
    rfl
  have lost : base.channel.lose.Bounded bound honest := bounded_of_fewer accounts.bounded capacity fewer
  exact accounts.answer distinct found (by exact tasks) (by exact lost) (by exact reserved) _

theorem Accounts.start (accounts : world.Accounts bound honest) (numbered : world.Numbered) {step : StartStep}
    (found : Table.get? number world.tasks = some (.start step)) :
    (stepStart setting world number chance step).Accounts bound honest := by
  have distinct := numbered.distinct
  generalize stepped : stepStart setting world number chance step = next
  cases startBranch stepped with
  | takes => exact accounts.goOn distinct found rfl ⟨accounts.bounded.capacity, accounts.bounded.room⟩ rfl
  | late => exact accounts.answer distinct found rfl accounts.bounded rfl _
  | unlisted | breaks | unlistedAgain | shut => exact accounts.failStart distinct found (by rfl) (by rfl) _
  | offers => exact accounts.spawn_goOn numbered found rfl rfl
  | @spawns report =>
    have numberedShared : Numbered { world with channel := { world.channel with receiver := .shared } } :=
      ⟨numbered.distinct, numbered.below⟩
    obtain ⟨channel, after, sum⟩ := total_spawnWorkers setting.workerCount _ numberedShared
    have shared : (spawnWorkers setting.workerCount
        { world with channel := { world.channel with receiver := .shared } }).Accounts bound honest := by
      refine ⟨?_, ?_⟩
      · rw [channel]
        exact ⟨accounts.bounded.capacity, accounts.bounded.room⟩
      · rw [channel, sum]
        exact accounts.reserved
    have there : Table.get? number (spawnWorkers setting.workerCount
        { world with channel := { world.channel with receiver := .shared } }).tasks =
          some (.start (.spawning report)) := by
      rcases get?_spawnWorkers setting.workerCount numberedShared number with same | ⟨absent, _⟩
      · exact same.trans found
      · simp [found] at absent
    exact shared.answer after.distinct there rfl shared.bounded rfl _
  | _ => exact accounts.goOn distinct found (by rfl) accounts.bounded (by rfl)

/-- A shutdown changes no more of the channel than that it is closed. -/
theorem Accounts.shutdown (accounts : world.Accounts bound honest) (distinct : Table.Distinct world.tasks)
    {step : ShutdownStep} (found : Table.get? number world.tasks = some (.shutdown step))
    (stepped : world.stepShutdown number step = some next) : next.Accounts bound honest := by
  cases shutdownBranch stepped with
  | closes => exact accounts.goOn distinct found rfl ⟨accounts.bounded.capacity, accounts.bounded.room⟩ rfl
  | collects => exact accounts.goOn distinct found (by rfl) accounts.bounded (by rfl)
  | stops => exact accounts.answer distinct found rfl accounts.bounded rfl _

theorem Accounts.status (accounts : world.Accounts bound honest) (distinct : Table.Distinct world.tasks)
    {step : StatusStep} (found : Table.get? number world.tasks = some (.status step)) :
    (world.stepStatus number chance step).Accounts bound honest := by
  generalize stepped : world.stepStatus number chance step = next
  cases statusBranch stepped with
  | reads | finds => exact accounts.goOn distinct found rfl accounts.bounded rfl
  | _ => exact accounts.answer distinct found rfl accounts.bounded rfl _

/-- A worker holds no place; it makes room when it takes an id. -/
theorem Accounts.worker (accounts : world.Accounts bound honest) (numbered : world.Numbered) {step : WorkerStep}
    (found : Table.get? number world.tasks = some (.worker step))
    (stepped : stepWorker setting world number chance step = some next) : next.Accounts bound honest := by
  have distinct := numbered.distinct
  cases workerBranch stepped with
  | @takes id ids waiting =>
    have fewer : ids.length + world.channel.reserved ≤ world.channel.ids.length + world.channel.reserved := by
      rw [waiting, List.length_cons]
      omega
    exact accounts.goOn distinct found (by rfl) (bounded_of_fewer accounts.bounded (by rfl) fewer) (by rfl)
  | stops => exact accounts.endTask distinct found rfl accounts.bounded rfl
  | retries => exact accounts.spawn_goOn numbered found rfl rfl
  | @invokes record workspace directory =>
    have runs : (Task.worker (.running record workspace directory)).places = 0 := rfl
    exact (accounts.goOn distinct found rfl accounts.bounded (by rw [runs]; rfl)).note _
  | _ => exact accounts.goOn distinct found (by rfl) accounts.bounded (by rfl)

/-- What has a free place fits the channel once more. -/
theorem Accounts.push (accounts : world.Accounts bound honest) (room : world.channel.hasRoom = true) (id : JobId) :
    (world.channel.push id).Bounded bound honest ∧ (world.channel.push id).reserved = world.channel.reserved := by
  refine bounded_push accounts.bounded id fun _ => ?_
  rw [← accounts.bounded.capacity]
  simpa [Channel.hasRoom] using room

theorem Accounts.offer (accounts : world.Accounts bound honest) (distinct : Table.Distinct world.tasks)
    {ids : List JobId} (found : Table.get? number world.tasks = some (.offer ids))
    (stepped : world.stepOffer number ids = some next) : next.Accounts bound honest := by
  cases offerBranch stepped with
  | nothing | gone => exact accounts.endTask distinct found rfl accounts.bounded rfl
  | @last id _ room =>
    obtain ⟨bounded, reserved⟩ := accounts.push room id
    exact accounts.endTask distinct found (by rfl) (by exact bounded) (by exact reserved)
  | @more id ids _ room =>
    obtain ⟨bounded, reserved⟩ := accounts.push room id
    exact accounts.goOn distinct found (by rfl) (by exact bounded) (by exact reserved)

theorem Accounts.retry (accounts : world.Accounts bound honest) (distinct : Table.Distinct world.tasks)
    {id : JobId} {awake : Bool} (found : Table.get? number world.tasks = some (.retry id awake))
    (stepped : world.stepRetry number id awake = some next) : next.Accounts bound honest := by
  cases retryBranch stepped with
  | wakes => exact accounts.goOn distinct found rfl accounts.bounded rfl
  | gone => exact accounts.endTask distinct found rfl accounts.bounded rfl
  | sends _ room =>
    obtain ⟨bounded, reserved⟩ := accounts.push room id
    exact accounts.endTask distinct found (by rfl) (by exact bounded) (by exact reserved)

/-- A call begins without a place. -/
theorem Accounts.call (accounts : world.Accounts bound honest) (numbered : world.Numbered) (call : Call) :
    (beginCall setting world call).Accounts bound honest := by
  have goesOn {call : Call} {task : Task} (free : task.places = 0) :
      ((world.opened call).goOn world.nextTask task).Accounts bound honest :=
    ⟨(accounts.spawn numbered task free).bounded, (accounts.spawn numbered task free).reserved⟩
  have answers {call : Call} (result : Except QueueError JobId) :
      ((world.opened call).answer world.nextTask (.submitted result)).Accounts bound honest :=
    ⟨accounts.bounded, accounts.reserved.trans (Table.total_erase_of_none Task.places numbered.fresh).symm⟩
  generalize begun : beginCall setting world call = next
  cases callBranch begun with
  | unresolved | refuses => exact answers _
  | _ => exact goesOn rfl

/-- A new process has an empty channel and no tasks. -/
theorem accounts_of_idle (channel : world.channel = .new setting.config.channelCapacity.toNat)
    (idle : world.tasks = []) : world.Accounts setting.channelBound honest where
  bounded := by
    rw [channel]
    exact ⟨rfl, fun _ => Nat.zero_le _⟩
  reserved := by
    rw [channel, idle]
    rfl

/-- A move keeps the accounts of a channel. What comes later is honest only if what was before was, and if the move
delivers nothing. -/
theorem Accounts.move {later : Prop} (accounts : world.Accounts setting.channelBound honest)
    (numbered : world.Numbered) {move : Move} (before : later → honest)
    (own : later → ∀ id, move ≠ .deliver id) (moved : move? setting world move = some next) :
    next.Accounts setting.channelBound later := by
  have accounts : world.Accounts setting.channelBound later :=
    ⟨⟨accounts.bounded.capacity, fun sure => accounts.bounded.room (before sure)⟩, accounts.reserved⟩
  cases move with
  | call call =>
    rw [← Option.some.inj moved]
    exact accounts.call numbered call
  | deliver id =>
    have dishonest (sure : later) : False := own sure id rfl
    have same : (world.channel.push id).capacity = world.channel.capacity ∧
        (world.channel.push id).reserved = world.channel.reserved := by
      rw [Channel.push]
      split <;> exact ⟨rfl, rfl⟩
    rw [← Option.some.inj moved]
    exact ⟨⟨same.1.trans accounts.bounded.capacity, fun sure => (dishonest sure).elim⟩,
      same.2.trans accounts.reserved⟩
  | restart =>
    obtain ⟨_, _, _, _, _, _, rfl⟩ := stores_of_restart moved
    exact accounts_of_idle rfl rfl
  | step number chance =>
    obtain ⟨task, found, stepped⟩ := task_of_step moved
    cases task with
    | submit step =>
      rw [← Option.some.inj stepped]
      exact accounts.submit numbered.distinct found
    | start step =>
      rw [← Option.some.inj stepped]
      exact accounts.start numbered found
    | shutdown step => exact accounts.shutdown numbered.distinct found stepped
    | status step =>
      rw [← Option.some.inj stepped]
      exact accounts.status numbered.distinct found
    | worker step => exact accounts.worker numbered found stepped
    | offer ids => exact accounts.offer numbered.distinct found stepped
    | retry id awake => exact accounts.retry numbered.distinct found stepped

/-- All moves of a run keep the accounts of the channel. -/
theorem accounts_of_run {storage : StorageConfig} {start : World} (guarded : start.Guarded setting storage)
    (confined : ∀ data, storage = .file data → setting.Confined data)
    (accounts : start.Accounts setting.channelBound True)
    (moves : List Move)
    (safe : ∀ number chance, .step number chance ∈ moves → ArtifactStore.isSafeId chance.name = true) :
    (run setting start moves).Accounts setting.channelBound (∀ id, .deliver id ∉ moves) := by
  induction moves using List.reverseRecOn with
  | nil => exact ⟨⟨accounts.bounded.capacity, fun _ => accounts.bounded.room trivial⟩, accounts.reserved⟩
  | append_singleton moves last inductionHypothesis =>
    have safeBefore (number : Nat) (chance : Chance) (member : .step number chance ∈ moves) :
        ArtifactStore.isSafeId chance.name = true := safe number chance (List.mem_append_left _ member)
    have before := inductionHypothesis safeBefore
    have numbered := (guarded.run confined safeBefore).tidy.numbered
    rw [run_concat, World.move]
    cases moved : move? setting (run setting start moves) last with
    | none =>
      exact ⟨⟨before.bounded.capacity, fun sure => before.bounded.room fun id member =>
        sure id (List.mem_append_left _ member)⟩, before.reserved⟩
    | some next =>
      refine before.move numbered (fun sure id member => sure id (List.mem_append_left _ member)) ?_ moved
      rintro sure id rfl
      exact sure id (by simp)

end World

end ContractWorks

import ContractWorks.Proofs.Queue.Founded
import ContractWorks.Proofs.Queue.Outcome

namespace ContractWorks

namespace Table

variable {κ ν : Type} [DecidableEq κ] {key : κ} {table : Table κ ν}

theorem erase_of_none (free : get? key table = none) : erase key table = table := by
  induction table with
  | nil => rfl
  | cons entry rest inductionHypothesis =>
    obtain ⟨other, value⟩ := entry
    rw [get?] at free
    split at free
    · simp at free
    · next differ => rw [erase, if_neg differ, inductionHypothesis free]

theorem erase_insert_self (value : ν) : erase key (insert key value table) = erase key table := by
  induction table with
  | nil => simp [insert, erase]
  | cons entry rest inductionHypothesis =>
    obtain ⟨other, old⟩ := entry
    rw [insert]
    split
    · next same => rw [erase, erase, if_pos rfl, if_pos same]
    · next differ => rw [erase, erase, if_neg differ, if_neg differ, inductionHypothesis]

end Table

/-- A change of a disk spreads no further than the files that the record of a job is written to. -/
def JobStore.Spreads (store : JobStore) (id : JobId) (disk next : Disk) : Prop :=
  match store with
  | .memory _ => next = disk
  | .file directory _ => JsonFile.Touches (recordPath directory id) disk next

theorem JobStore.spreads_insert {store other : JobStore} {record : JobRecord} {fault : Option StoreFault}
    {disk next : Disk} {result : Except StoreError Unit}
    (done : store.insert record fault disk = (next, other, result)) : store.Spreads record.id disk next := by
  rcases JobStore.insert_disk done with ⟨rfl, _⟩ | put
  · cases store with
    | memory records => rfl
    | file directory records => exact .refl _ _
  · cases store with
    | memory records =>
      simp only [JobStore.put] at put
      split at put
      · exact (Prod.mk.inj put).1.symm
      · exact (Prod.mk.inj put).1.symm
    | file directory records =>
      simp only [JobStore.put] at put
      split at put
      · next saved =>
        obtain ⟨rfl, _⟩ := by simpa using put
        exact JsonFile.save_touches saved
      · next saved =>
        obtain ⟨rfl, _⟩ := by simpa using put
        exact JsonFile.save_touches saved

theorem JobStore.spreads_refl (store : JobStore) (id : JobId) (disk : Disk) : store.Spreads id disk disk := by
  cases store with
  | memory records => rfl
  | file directory records => exact .refl _ _

namespace World

variable {setting : Setting} {world base : World} {number : Nat} {chance : Chance} {chances : List Chance}
  {call : Call} {kind : JobKind} {input : JobInput}

/-- These are the moves of a submission that no other task comes between. -/
def attempt (world : World) (call : Call) (chances : List Chance) : List Move :=
  .call call :: chances.map fun chance => .step world.nextTask chance

/-- This is a world after a submission that was answered with an error: nothing in it but the disk has changed. -/
def refused (world : World) (call : Call) (disk : Disk) (error : QueueError) : World :=
  { world with
    disk, nextTask := world.nextTask + 1
    history := world.history ++ [.called world.nextTask call,
      .answered world.nextTask (.submitted (.error error))] }

/-- This is a world after a submission that was answered with an id: it has one more record, one more live entry and
one more id on its channel. -/
def accepted (world : World) (call : Call) (disk : Disk) (record : JobRecord) : World :=
  { world with
    disk, jobs := world.jobs.withRecords (Table.insert record.id record world.jobs.records)
    live := Table.insert record.id ⟨.queued, Progress.queued⟩ world.live
    channel := { world.channel with ids := world.channel.ids ++ [record.id] }
    nextTask := world.nextTask + 1
    history := world.history ++ [.called world.nextTask call,
      .answered world.nextTask (.submitted (.ok record.id))] }

/-- A submission ends with an error that leaves the world as it was, or with the id of a new job that waits. -/
inductive Attempted (setting : Setting) (world : World) (call : Call) : World → Prop where
  | refused {disk : Disk} {error : QueueError} {id : JobId} (spreads : world.jobs.Spreads id world.disk disk) :
      Attempted setting world call (world.refused call disk error)
  | accepted {disk : Disk} {id : JobId} {now : Time.Instant} {kind : JobKind} {input : JobInput}
      (asked : call.asked? = some (.ok (kind, input))) (valid : (setting.gate kind input).valid = true)
      (free : Table.get? id world.jobs.records = none) (spreads : world.jobs.Spreads id world.disk disk) :
      Attempted setting world call (world.accepted call disk (.new id now kind input))

/-- A submission is told to have been called and answered. -/
theorem Attempted.told {next : World} (attempted : Attempted setting world call next) :
    ∃ result, next.history = world.history ++
      [.called world.nextTask call, .answered world.nextTask (.submitted result)] := by
  cases attempted with
  | refused spreads => exact ⟨_, rfl⟩
  | accepted asked valid free spreads => exact ⟨_, rfl⟩

/-- Once a task has ended, its steps cannot be taken any more. -/
theorem run_steps_of_none (gone : Table.get? number base.tasks = none) (chances : List Chance) :
    run setting base (chances.map fun chance => .step number chance) = base := by
  induction chances with
  | nil => rfl
  | cons chance rest inductionHypothesis =>
    have stuck : move setting base (.step number chance) = base := by
      rw [move, move?, step?, gone]
      rfl
    show run setting (move setting base (.step number chance)) _ = base
    rw [stuck]
    exact inductionHypothesis

theorem run_steps_of_submit {step : SubmitStep} (found : Table.get? number base.tasks = some (.submit step)) :
    run setting base ((chance :: chances).map fun chance => .step number chance) =
      run setting (base.stepSubmit number chance step) (chances.map fun chance => .step number chance) := by
  have moved : move setting base (.step number chance) = base.stepSubmit number chance step := by
    rw [move, move?, step?, found]
    rfl
  show run setting (move setting base (.step number chance)) _ = _
  rw [moved]

/-- An answered submission is over. -/
theorem run_steps_of_answer (answer : Answer) (chances : List Chance) :
    run setting (base.answer number answer) (chances.map fun chance => .step number chance) =
      base.answer number answer :=
  run_steps_of_none (Table.get?_erase_self _ _) chances

variable {disk : Disk} {tasks : Table Nat Task} {error : QueueError} {record : JobRecord}

/-- An answer that refuses leaves no task behind. -/
theorem answer_eq_refused (erased : Table.erase world.nextTask tasks = world.tasks) :
    ({ world.opened call with disk, tasks } : World).answer world.nextTask (.submitted (.error error)) =
      world.refused call disk error := by
  simp [answer, endTask, note, opened, refused, erased]

/-- The answer with the id of a job comes when its record and its live entry are there. -/
theorem announced_eq_accepted (call : Call) (disk : Disk) (record : JobRecord) (chance : Chance)
    (erased : Table.erase world.nextTask tasks = world.tasks)
    (there : world.channel.receiver ≠ .gone) (task : Task) :
    (({ world.opened call with
        disk, tasks, jobs := world.jobs.withRecords (Table.insert record.id record world.jobs.records)
        live := world.live.queued record.id, channel := world.channel.reserve } : World).goOn
          world.nextTask task).stepSubmit world.nextTask chance (.announced record.id) =
      world.accepted call disk record := by
  simp [stepSubmit, answer, endTask, note, goOn, opened, accepted, erased, Table.erase_insert_self, Channel.push,
    Channel.release, Channel.reserve, there, LiveTable.queued]

theorem attempted_refused {id : JobId} (erased : Table.erase world.nextTask tasks = world.tasks)
    (spreads : world.jobs.Spreads id world.disk disk) (error : QueueError) (rest : List Chance) :
    Attempted setting world call (run setting (({ world.opened call with disk, tasks } : World).answer
      world.nextTask (.submitted (.error error))) (rest.map fun chance => .step world.nextTask chance)) := by
  rw [run_steps_of_answer, answer_eq_refused erased]
  exact .refused spreads

/-- Once its record is stored, a submission enters the job and sends its id. -/
theorem attempted_inserted {id : JobId} {now : Time.Instant} (erased : Table.erase world.nextTask tasks = world.tasks)
    (asked : call.asked? = some (.ok (kind, input))) (valid : (setting.gate kind input).valid = true)
    (there : world.channel.receiver ≠ .gone) (free : Table.get? id world.jobs.records = none)
    (spreads : world.jobs.Spreads id world.disk disk) (third fourth : Chance) (rest : List Chance) :
    Attempted setting world call (run setting
      (({ world.opened call with
          disk, tasks, jobs := world.jobs.withRecords (Table.insert id (.new id now kind input) world.jobs.records)
          channel := world.channel.reserve } : World).goOn world.nextTask (.submit (.inserted id)))
      ((third :: fourth :: rest).map fun chance => .step world.nextTask chance)) := by
  have enters : Table.erase world.nextTask
      (Table.insert world.nextTask (.submit (.inserted id)) tasks) = world.tasks :=
    (Table.erase_insert_self _).trans erased
  rw [run_steps_of_submit (Table.get?_insert_self _ _ _), stepSubmit,
    run_steps_of_submit (Table.get?_insert_self _ _ _)]
  have sent := announced_eq_accepted call disk (.new id now kind input) fourth enters there (.submit (.announced id))
  have gone : Table.get? world.nextTask (world.accepted call disk (.new id now kind input)).tasks = none := by
    show Table.get? world.nextTask world.tasks = none
    rw [← erased]
    exact Table.get?_erase_self _ _
  refine (congrArg (fun after => Attempted setting world call (run setting after _)) sent).mpr ?_
  rw [run_steps_of_none gone]
  exact .accepted asked valid free spreads

/-- A submission that holds a place stores its record, or gives the place back. -/
theorem attempted_reserved (erased : Table.erase world.nextTask tasks = world.tasks)
    (asked : call.asked? = some (.ok (kind, input))) (valid : (setting.gate kind input).valid = true)
    (there : world.channel.receiver ≠ .gone) (id : JobId) (now : Time.Instant) (second third fourth : Chance)
    (rest : List Chance) :
    Attempted setting world call (run setting
      (({ world.opened call with tasks, channel := world.channel.reserve } : World).goOn world.nextTask
        (.submit (.reserved (.new id now kind input))))
      ((second :: third :: fourth :: rest).map fun chance => .step world.nextTask chance)) := by
  have holds : Table.erase world.nextTask
      (Table.insert world.nextTask (.submit (.reserved (.new id now kind input))) tasks) = world.tasks :=
    (Table.erase_insert_self _).trans erased
  rw [run_steps_of_submit (Table.get?_insert_self _ _ _), stepSubmit, insertRecord]
  split
  · next disk jobs done =>
    have spreads := JobStore.spreads_insert done
    obtain ⟨free, rfl⟩ := JobStore.insert_of_ok done
    exact attempted_inserted holds asked valid there free spreads third fourth rest
  · next disk jobs error done =>
    have spreads := JobStore.spreads_insert done
    obtain rfl := JobStore.insert_of_error done
    exact attempted_refused holds spreads _ (third :: fourth :: rest)

/-- A submission that waits for the channel takes a place on it, if it is open and has one. -/
theorem attempted_waiting (erased : Table.erase world.nextTask tasks = world.tasks)
    (asked : call.asked? = some (.ok (kind, input))) (valid : (setting.gate kind input).valid = true)
    (first second third fourth : Chance) (rest : List Chance) :
    Attempted setting world call (run setting
      (({ world.opened call with tasks } : World).goOn world.nextTask (.submit (.waiting kind input)))
      ((first :: second :: third :: fourth :: rest).map fun chance => .step world.nextTask chance)) := by
  have waits : Table.erase world.nextTask
      (Table.insert world.nextTask (.submit (.waiting kind input)) tasks) = world.tasks :=
    (Table.erase_insert_self _).trans erased
  have still := world.jobs.spreads_refl "" world.disk
  rw [run_steps_of_submit (Table.get?_insert_self _ _ _), stepSubmit, reserve]
  split
  · exact attempted_refused waits still _ (second :: third :: fourth :: rest)
  · next opened =>
    have there : world.channel.receiver ≠ .gone := by
      intro gone
      simp [World.opened, World.note, World.goOn, gone] at opened
    split
    · exact attempted_refused waits still _ (second :: third :: fourth :: rest)
    · exact attempted_reserved waits asked valid there first.name first.now second third fourth rest

/-- A submission that nothing comes between is all or nothing. -/
theorem attempted_run (numbered : world.Numbered) {asked : Except QueueError (JobKind × JobInput)}
    (same : call.asked? = some asked) (enough : 4 ≤ chances.length) :
    Attempted setting world call (run setting world (world.attempt call chances)) := by
  have bare : Table.erase world.nextTask world.tasks = world.tasks := Table.erase_of_none numbered.fresh
  have still := world.jobs.spreads_refl "" world.disk
  obtain ⟨first, second, third, fourth, rest, rfl⟩ : ∃ first second third fourth rest,
      chances = first :: second :: third :: fourth :: rest := by
    match chances, enough with
    | first :: second :: third :: fourth :: rest, _ => exact ⟨first, second, third, fourth, rest, rfl⟩
  show Attempted setting world call (run setting (beginCall setting world call) _)
  rw [beginCall_of_asked same]
  cases asked with
  | error error => exact attempted_refused bare still _ (first :: second :: third :: fourth :: rest)
  | ok wanted =>
    obtain ⟨kind, input⟩ := wanted
    dsimp only
    rw [beginSubmit]
    split
    · next valid => exact attempted_waiting bare same valid first second third fourth rest
    · exact attempted_refused bare still _ (first :: second :: third :: fourth :: rest)

end World

open Path (Plain)

/-- A record is new when it was made of an input, and its job waits to be started. -/
structure JobRecord.MadeOf (asked : JobKind) (given : JobInput) (record : JobRecord) : Prop where
  status : record.status = .queued
  kind : record.kind = asked
  input : record.input = given
  sourceHash : record.sourceHash = Digest.ofText given.source
  unstarted : record.startedAt = none ∧ record.completedAt = none
  unended : record.artifactId = none ∧ record.error = none

namespace World

variable {setting : Setting} {storage : StorageConfig} {world next : World} {call : Call} {chances : List Chance}

/-- Two worlds serve the same when they differ at most in what has been told of them, and on the disk in files that hold
no record. -/
structure Same (world next : World) : Prop where
  jobs : next.jobs = world.jobs
  durable : ∀ id, Plain id → next.durable? id = world.durable? id
  disk : ∃ id, world.jobs.Spreads id world.disk next.disk
  artifacts : next.artifacts = world.artifacts
  live : next.live = world.live
  channel : next.channel = world.channel
  tasks : next.tasks = world.tasks
  pool : next.pool = world.pool

/-- A world gains a job when there are one more record, one more live entry and one more id on the channel, and when
nothing else has changed. -/
structure Gains (record : JobRecord) (world next : World) : Prop where
  unrecorded : Table.get? record.id world.jobs.records = none
  jobs : next.jobs = world.jobs.withRecords (Table.insert record.id record world.jobs.records)
  durable : ∀ id, Plain id → next.durable? id = if id = record.id then some record else world.durable? id
  disk : world.jobs.Spreads record.id world.disk next.disk
  artifacts : next.artifacts = world.artifacts
  unentered : Table.get? record.id world.live = none
  live : next.live = Table.insert record.id ⟨.queued, Progress.queued⟩ world.live
  channel : next.channel = { world.channel with ids := world.channel.ids ++ [record.id] }
  tasks : next.tasks = world.tasks
  pool : next.pool = world.pool

theorem Gains.not_same {record : JobRecord} (gains : Gains record world next) : ¬Same world next := by
  intro same
  have found : Table.get? record.id next.jobs.records = some record := by
    rw [gains.jobs, JobStore.records_withRecords]
    exact Table.get?_insert_self _ _ _
  rw [same.jobs, gains.unrecorded] at found
  simp at found

theorem madeOf_new (id : JobId) (now : Time.Instant) (kind : JobKind) (input : JobInput) :
    (JobRecord.new id now kind input).MadeOf kind input :=
  ⟨rfl, rfl, rfl, rfl, ⟨rfl, rfl⟩, rfl, rfl⟩

/-- A submission is whole when it is answered with an error and changes nothing, or with the id of the job that the
world gains by it. -/
def Whole (call : Call) (world next : World) : Prop :=
  ∃ result, next.history = world.history ++
      [.called world.nextTask call, .answered world.nextTask (.submitted result)] ∧
    match result with
    | .error _ => Same world next
    | .ok id => ∃ kind input record, call.asked? = some (.ok (kind, input)) ∧ record.id = id ∧
        record.MadeOf kind input ∧ Gains record world next

/-- What a submission does to the records that outlive a process is what it does to the records. -/
theorem whole_of_attempted (before : world.Guarded setting storage) (founded : world.Founded)
    (after : next.Guarded setting storage) (attempted : Attempted setting world call next) :
    Whole call world next := by
  cases attempted with
  | @refused disk error id spreads =>
    refine ⟨.error error, rfl, rfl, fun id plain => ?_, ⟨id, spreads⟩, rfl, rfl, rfl, rfl, rfl⟩
    rw [after.durable plain, before.durable plain]
    rfl
  | @accepted disk id now kind input asked valid free spreads =>
    refine ⟨.ok id, rfl, kind, input, .new id now kind input, asked, rfl, madeOf_new id now kind input, free, rfl,
      fun other plain => ?_, spreads, rfl, ?_, rfl, rfl, rfl, rfl⟩
    · rw [after.durable plain, before.durable plain]
      show Table.get? other (JobStore.withRecords world.jobs _).records = _
      rw [JobStore.records_withRecords]
      split
      · next same =>
        subst same
        exact Table.get?_insert_self _ _ _
      · next differ => exact Table.get?_insert_of_ne differ _ _
    · -- A job that has no record has no live entry either.
      by_contra there
      exact (founded.jobs id).live there free

/-- A submission that nothing comes between leaves a world as it was, or adds one job to it. -/
theorem whole_of_run (guarded : world.Guarded setting storage) (founded : world.Founded)
    (confined : ∀ data, storage = .file data → setting.Confined data)
    {asked : Except QueueError (JobKind × JobInput)} (same : call.asked? = some asked) (enough : 4 ≤ chances.length)
    (safe : ∀ chance ∈ chances, ArtifactStore.isSafeId chance.name = true) :
    Whole call world (run setting world (world.attempt call chances)) := by
  refine whole_of_attempted guarded founded (guarded.run confined fun number chance member => ?_)
    (attempted_run guarded.tidy.numbered same enough)
  rcases List.mem_cons.mp member with called | stepped
  · simp at called
  · obtain ⟨other, inside, shape⟩ := List.mem_map.mp stepped
    obtain ⟨_, rfl⟩ := Move.step.inj shape
    exact safe _ inside

end World

end ContractWorks

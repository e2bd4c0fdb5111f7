import ContractWorks.Proofs.Queue.Aside
import ContractWorks.Proofs.Queue.Mending
import ContractWorks.Proofs.Queue.Polling
import ContractWorks.Proofs.Storage.Sweep

namespace ContractWorks

/-- At most the files of the records of a store have been changed on a disk. -/
def JobStore.Writes (store : JobStore) (disk next : Disk) : Prop :=
  ∀ place, (∀ directory records id, store = .file directory records → Table.get? id records ≠ none →
      place ≠ Path.place (recordPath directory id) ∧ place ≠ Path.place (JsonFile.temporary (recordPath directory id))) →
    next.at? place = disk.at? place

namespace JobStore.Writes

variable {store jobs other : JobStore} {disk next third : Disk} {id : JobId}

theorem refl (store : JobStore) (disk : Disk) : store.Writes disk disk :=
  fun _ _ => rfl

/-- A transition writes at most the file of its record. -/
theorem transition (writes : store.Writes disk next) (shape : jobs = store.withRecords jobs.records)
    (known : Table.get? id jobs.records ≠ none → Table.get? id store.records ≠ none) {transition : Transition}
    {now : Time.Instant} {fault : Option StoreFault} {result : Except StoreError JobRecord}
    (done : jobs.transition id transition now fault next = (third, other, result)) :
    store.Writes disk third ∧ other = store.withRecords other.records := by
  rcases JobStore.transition_disk done with ⟨rfl, rfl⟩ | ⟨before, after, stored, found, _, put, _⟩
  · exact ⟨writes, shape⟩
  · have there := known (by simp [found])
    cases store with
    | memory records =>
      rw [shape, JobStore.withRecords, JobStore.put] at put
      split at put
      · obtain ⟨rfl, rfl, _⟩ := by simpa using put
        exact ⟨writes, rfl⟩
      · obtain ⟨rfl, rfl, _⟩ := by simpa using put
        exact ⟨writes, rfl⟩
    | file directory records =>
      rw [shape, JobStore.withRecords, JobStore.put] at put
      have touches (third : Disk) (result : Except StoreError Unit)
          (saved : JsonFile.save (JobStore.recordPath directory id) after.encode fault next = (third, result)) :
          JobStore.Writes (.file directory records) disk third := by
        intro place apart
        obtain ⟨first, second⟩ := apart directory records id rfl there
        rw [(JsonFile.save_touches saved).others place first second]
        exact writes place apart
      split at put
      · next saved =>
        obtain ⟨rfl, rfl, _⟩ := by simpa using put
        exact ⟨touches _ _ saved, rfl⟩
      · next saved =>
        obtain ⟨rfl, rfl, _⟩ := by simpa using put
        exact ⟨touches _ _ saved, rfl⟩

end JobStore.Writes

/-- A start has written into its store, and has then removed directories right below the root of the workspaces whose
names have the prefix, and nothing else. -/
def WorkspaceConfig.Cleared (config : WorkspaceConfig) (store : JobStore) (disk next : Disk) (removed : Nat) : Prop :=
  ∃ (written : Disk) (gone : List FileName), store.Writes disk written ∧
    (∀ name ∈ gone, Text.startsWith name.text config.namePrefix = true) ∧
      Disk.Swept (Path.place config.root) gone written next ∧ removed = gone.length

namespace World

/-- Some ids have been offered when they stand on the channel, or when one task sends those that do not yet. -/
inductive Offered (world : World) (ids : List JobId) : Prop where
  | sent (all : world.channel.ids = ids)
      (done : ∀ number pending, Table.get? number world.tasks ≠ some (.offer pending))
  | sending {number : Nat} {pending : List JobId} (found : Table.get? number world.tasks = some (.offer pending))
      (all : world.channel.ids ++ pending = ids) (more : pending ≠ [])
      (single : ∀ other others, Table.get? other world.tasks = some (.offer others) → other = number)

/-- A world is restored when the jobs that ran have failed as orphans, when those that wait and had no live entry have
one and are offered, the oldest first in each case, and when all else is as it was, but for the workspaces. -/
structure Restored (setting : Setting) (base world : World) (report : RecoveryReport) : Prop where
  ran : Lists .running base.jobs.records report.orphaned
  ranByAge : ByAge base.jobs.records report.orphaned
  mended : Mended report.orphaned base.jobs.records world.jobs.records
  settled : ∀ id record, Table.get? id world.jobs.records = some record → record.status ≠ .running
  nodup : report.requeued.Nodup
  waited : ∀ id, id ∈ report.requeued ↔
    (∃ record, Table.get? id base.jobs.records = some record ∧ record.status = .queued) ∧ Table.get? id base.live = none
  waitedByAge : ByAge base.jobs.records report.requeued
  live : ∀ id, Table.get? id world.live =
    if id ∈ report.requeued then some ⟨.queued, Progress.queued⟩ else Table.get? id base.live
  offered : world.Offered (base.channel.ids ++ report.requeued)
  cleared : setting.workspaces.Cleared base.jobs base.disk world.disk report.workspacesRemoved

/-- A process is unstarted when no start has taken the receiver and when all tasks stand by. -/
structure Unstarted (base : World) : Prop where
  tidy : base.Tidy
  receiver : base.channel.receiver = .free
  tasks : base.Everywhere Task.StandsBy
  silent : ∀ number report, .answered number (.started (.ok report)) ∉ base.history

end World

/-- This is what a start has mended when it comes to a step. -/
def StartStep.Mends (setting : Setting) (base : World) (jobs : JobStore) (live : LiveTable) (disk : Disk) :
    StartStep → Prop
  | .waiting => False
  | .listing report => report = {} ∧ jobs = base.jobs ∧ live = base.live ∧ disk = base.disk
  | .failing ids report => Failing base.jobs.records jobs.records report.orphaned ids ∧ report.requeued = [] ∧
      report.workspacesRemoved = 0 ∧ jobs = base.jobs.withRecords jobs.records ∧ live = base.live ∧
        base.jobs.Writes base.disk disk
  | .sweeping report => Failing base.jobs.records jobs.records report.orphaned [] ∧ report.requeued = [] ∧
      report.workspacesRemoved = 0 ∧ live = base.live ∧ base.jobs.Writes base.disk disk
  | .relisting report => Failing base.jobs.records jobs.records report.orphaned [] ∧ report.requeued = [] ∧
      live = base.live ∧ setting.workspaces.Cleared base.jobs base.disk disk report.workspacesRemoved
  | .checking ids report => Failing base.jobs.records jobs.records report.orphaned [] ∧
      Entering base.jobs.records base.live live report.requeued ids ∧
        setting.workspaces.Cleared base.jobs base.disk disk report.workspacesRemoved
  | .entering id ids report => Failing base.jobs.records jobs.records report.orphaned [] ∧
      Entering base.jobs.records base.live live report.requeued (id :: ids) ∧ Table.get? id base.live = none ∧
        setting.workspaces.Cleared base.jobs base.disk disk report.workspacesRemoved
  | .offering report => Failing base.jobs.records jobs.records report.orphaned [] ∧
      Entering base.jobs.records base.live live report.requeued [] ∧
        setting.workspaces.Cleared base.jobs base.disk disk report.workspacesRemoved
  | .spawning _ => False

namespace World

/-- These are the phases of a recovery from a process that is unstarted. -/
inductive Rescue (setting : Setting) (base world : World) : Prop where
  | before (tasks : world.Everywhere Task.StandsBy) (receiver : world.channel.receiver = .free)
      (jobs : world.jobs = base.jobs) (live : world.live = base.live) (disk : world.disk = base.disk)
      (ids : world.channel.ids = base.channel.ids)
      (silent : ∀ number report, .answered number (.started (.ok report)) ∉ world.history)
  | recovering {leader : Nat} {step : StartStep} (found : Table.get? leader world.tasks = some (.start step))
      (others : ∀ number task, number ≠ leader → Table.get? number world.tasks = some task → task.StandsBy)
      (receiver : world.channel.receiver = .taken) (ids : world.channel.ids = base.channel.ids)
      (mends : step.Mends setting base world.jobs world.live world.disk)
      (silent : ∀ number report, .answered number (.started (.ok report)) ∉ world.history)
  | launching {leader : Nat} {report : RecoveryReport}
      (found : Table.get? leader world.tasks = some (.start (.spawning report)))
      (others : ∀ number task, number ≠ leader → Table.get? number world.tasks = some task →
        task.StandsBy ∨ ∃ ids, task = .offer ids)
      (receiver : world.channel.receiver = .taken) (restored : Restored setting base world report)
      (silent : ∀ number report, .answered number (.started (.ok report)) ∉ world.history)
  | stopped {failed : List JobId} (tasks : world.Everywhere Task.StandsBy) (receiver : world.channel.receiver = .gone)
      (mended : Mended failed base.jobs.records world.jobs.records)
      (silent : ∀ number report, .answered number (.started (.ok report)) ∉ world.history)
  | done {report : RecoveryReport}
      (tasks : ∀ number task, Table.get? number world.tasks = some task →
        task.StandsBy ∨ task = .worker .idle ∨ ∃ ids, task = .offer ids)
      (receiver : world.channel.receiver = .shared) (restored : Restored setting base world report)
      (answers : ∀ number other, .answered number (.started (.ok other)) ∈ world.history → other = report)

variable {setting : Setting} {base world next changed : World} {number leader : Nat} {chance : Chance} {ids : List JobId}
  {step after : StartStep} {report : RecoveryReport} {move : Move} {moves : List Move}

/-- What has been offered stays so through a move that is made aside. -/
theorem Offered.aside (offered : world.Offered ids) (aside : Aside number world next)
    (apart : ∀ task, Table.get? number world.tasks = some task → task.StandsBy) : next.Offered ids := by
  have back {other : Nat} {pending : List JobId} (found : Table.get? other next.tasks = some (.offer pending)) :
      Table.get? other world.tasks = some (.offer pending) := by
    by_cases same : other = number
    · subst same
      exact (aside.own _ found).elim
    · rwa [aside.others other same] at found
  cases offered with
  | sent all done => exact .sent (aside.ids.trans all) fun other pending found => done other pending (back found)
  | @sending sender pending found all more single =>
    have differ : sender ≠ number := by
      rintro rfl
      exact apart _ found
    exact .sending ((aside.others sender differ).trans found) (aside.ids ▸ all) more fun other others there =>
      single other others (back there)

/-- A world stays restored as long as its jobs, its live entries and its disk stay, and what is offered. -/
theorem Restored.keep (restored : Restored setting base world report) (jobs : next.jobs = world.jobs)
    (live : next.live = world.live) (disk : next.disk = world.disk)
    (offered : next.Offered (base.channel.ids ++ report.requeued)) : Restored setting base next report where
  ran := restored.ran
  ranByAge := restored.ranByAge
  mended := jobs ▸ restored.mended
  settled := jobs ▸ restored.settled
  nodup := restored.nodup
  waited := restored.waited
  waitedByAge := restored.waitedByAge
  live := live ▸ restored.live
  offered := offered
  cleared := disk ▸ restored.cleared

/-- A recovery stays in its phase through a move that is made aside. -/
theorem Rescue.aside (rescue : Rescue setting base world) (aside : Aside number world next)
    (apart : ∀ task, Table.get? number world.tasks = some task → task.StandsBy) : Rescue setting base next := by
  have stands {property : Task → Prop} (light : ∀ task : Task, task.StandsBy → property task)
      (all : ∀ other task, other ≠ number → Table.get? other world.tasks = some task → property task) (other : Nat)
      (task : Task) (found : Table.get? other next.tasks = some task) : property task := by
    by_cases same : other = number
    · subst same
      exact light task (aside.own task found)
    · exact all other task same (aside.others other same ▸ found)
  have keeps {leader : Nat} {step : StartStep} (found : Table.get? leader world.tasks = some (.start step))
      (begun : step ≠ .waiting) : Table.get? leader next.tasks = some (.start step) := by
    have differ : leader ≠ number := by
      rintro rfl
      have waits := apart _ found
      cases step <;> first | exact begun rfl | exact waits
    exact (aside.others leader differ).trans found
  cases rescue with
  | before tasks receiver jobs live disk ids silent =>
    exact .before (stands (fun _ => id) fun other task _ => tasks other task) (aside.receiver.trans receiver)
      (aside.jobs.trans jobs) (aside.live.trans live) (aside.disk.trans disk) (aside.ids.trans ids)
      fun other report member => silent other report (aside.silent other report member)
  | @recovering leader step found others receiver ids mends silent =>
    have begun : step ≠ .waiting := by
      rintro rfl
      exact mends
    refine .recovering (keeps found begun) (fun other task differ there => ?_) (aside.receiver.trans receiver)
      (aside.ids.trans ids) ?_ fun other report member => silent other report (aside.silent other report member)
    · by_cases same : other = number
      · exact aside.own task (same ▸ there)
      · exact others other task differ (aside.others other same ▸ there)
    · rwa [aside.jobs, aside.live, aside.disk]
  | @launching leader report found others receiver restored silent =>
    refine .launching (keeps found (by simp)) (fun other task differ there => ?_) (aside.receiver.trans receiver)
      (restored.keep aside.jobs aside.live aside.disk (restored.offered.aside aside apart))
      fun other report member => silent other report (aside.silent other report member)
    by_cases same : other = number
    · exact .inl (aside.own task (same ▸ there))
    · exact others other task differ (aside.others other same ▸ there)
  | stopped tasks receiver mended silent =>
    exact .stopped (stands (fun _ => id) fun other task _ => tasks other task) (aside.receiver.trans receiver)
      (aside.jobs ▸ mended) fun other report member => silent other report (aside.silent other report member)
  | done tasks receiver restored answers =>
    exact .done (stands (fun _ => .inl) fun other task _ => tasks other task) (aside.receiver.trans receiver)
      (restored.keep aside.jobs aside.live aside.disk (restored.offered.aside aside apart))
      fun other report member => answers other report (aside.silent other report member)

/-- A start that recovers goes on to its next step. -/
theorem recovering_goOn (others : ∀ number task, number ≠ leader → Table.get? number world.tasks = some task → task.StandsBy)
    (silent : ∀ number report, .answered number (.started (.ok report)) ∉ world.history)
    (tasks : changed.tasks = world.tasks) (history : changed.history = world.history)
    (receiver : changed.channel.receiver = .taken) (ids : changed.channel.ids = base.channel.ids)
    (mends : after.Mends setting base changed.jobs changed.live changed.disk) :
    Rescue setting base (changed.goOn leader (.start after)) := by
  refine .recovering (Table.get?_insert_self _ _ _) (fun other task differ found => ?_) receiver ids mends ?_
  · refine others other task differ ?_
    rw [← tasks, ← found]
    exact (Table.get?_insert_of_ne differ _ _).symm
  · exact fun number report member => silent number report (history ▸ member)

/-- A start that recovers is stopped when it fails. -/
theorem stopped_failStart
    (others : ∀ number task, number ≠ leader → Table.get? number world.tasks = some task → task.StandsBy)
    (silent : ∀ number report, .answered number (.started (.ok report)) ∉ world.history)
    (tasks : changed.tasks = world.tasks) (history : changed.history = world.history) {failed : List JobId}
    (mended : Mended failed base.jobs.records changed.jobs.records) (error : QueueError) :
    Rescue setting base (changed.failStart leader error) := by
  refine .stopped (fun other task found => ?_) rfl mended fun other report member => ?_
  · have differ : other ≠ leader := by
      rintro rfl
      have gone : Table.get? other (Table.erase other changed.tasks) = none := Table.get?_erase_self _ _
      exact absurd (gone.symm.trans found) (by simp)
    refine others other task differ ?_
    rw [← tasks, ← found]
    exact (Table.get?_erase_of_ne differ _).symm
  · rcases List.mem_append.mp member with before | now
    · exact silent other report (history ▸ before)
    · simp at now

/-- A start that fails an orphan goes on to the next one. -/
theorem rescue_orphan {held : JobId} {disk : Disk} {jobs : JobStore} {record : JobRecord}
    (others : ∀ number task, number ≠ leader → Table.get? number world.tasks = some task → task.StandsBy)
    (receiver : world.channel.receiver = .taken) (idle : world.channel.ids = base.channel.ids)
    (mends : (StartStep.failing (held :: ids) report).Mends setting base world.jobs world.live world.disk)
    (silent : ∀ number report, .answered number (.started (.ok report)) ∉ world.history)
    (done : world.jobs.transition held (.fail orphanError) chance.now chance.fault world.disk =
      (disk, jobs, .ok record)) :
    Rescue setting base ({ world with disk, jobs }.goOn leader
      (.start (.failing ids { report with orphaned := report.orphaned ++ [held] }))) := by
  obtain ⟨fails, empty, none, shape, live, writes⟩ := mends
  have known (some : Table.get? held world.jobs.records ≠ .none) : Table.get? held base.jobs.records ≠ .none := by
    rwa [← fails.mended.kept held fails.apart]
  obtain ⟨written, same⟩ := writes.transition shape known done
  obtain ⟨before, found, applied, becomes⟩ := JobStore.transition_of_ok done
  refine recovering_goOn others silent ?_ ?_ ?_ ?_ ⟨?_, empty, none, same, live, written⟩
  · rfl
  · rfl
  · exact receiver
  · exact idle
  · rw [becomes, JobStore.records_withRecords]
    exact fails.fail found applied

/-- What a start has mended is what a restored world shows. -/
theorem restored_of_offering (mends : (StartStep.offering report).Mends setting base world.jobs world.live world.disk)
    (jobs : next.jobs = world.jobs) (live : next.live = world.live) (disk : next.disk = world.disk)
    (offered : next.Offered (base.channel.ids ++ report.requeued)) : Restored setting base next report := by
  obtain ⟨fails, enters, cleared⟩ := mends
  have ran := fails.ran
  have aged := fails.aged
  have nodup := enters.nodup
  have waitedByAge := enters.aged
  rw [List.append_nil] at ran aged nodup waitedByAge
  refine ⟨ran, aged, jobs ▸ fails.mended, ?_, nodup, fun id => ⟨fun member => ?_, ?_⟩, waitedByAge, live ▸ enters.live,
    offered, disk ▸ cleared⟩
  · rw [jobs]
    exact fun id record => fails.settled
  · exact ⟨enters.waits id (List.mem_append_left _ member), enters.free id member⟩
  · rintro ⟨⟨record, found, queued⟩, free⟩
    simpa using enters.all id record found queued free

/-- A start that finds no job that waits launches the workers next. -/
theorem rescue_idle
    (others : ∀ number task, number ≠ leader → Table.get? number world.tasks = some task → task.StandsBy)
    (receiver : world.channel.receiver = .taken) (idle : world.channel.ids = base.channel.ids)
    (mends : (StartStep.offering report).Mends setting base world.jobs world.live world.disk)
    (silent : ∀ number report, .answered number (.started (.ok report)) ∉ world.history)
    (nothing : report.requeued = []) : Rescue setting base (world.goOn leader (.start (.spawning report))) := by
  have offered : (world.goOn leader (.start (.spawning report))).Offered (base.channel.ids ++ report.requeued) := by
    refine .sent (by rw [nothing, List.append_nil]; exact idle) fun number pending there => ?_
    by_cases same : number = leader
    · subst same
      have here := (Table.get?_insert_self _ _ _).symm.trans there
      simp at here
    · exact others number _ same ((Table.get?_insert_of_ne same _ _).symm.trans there)
  refine .launching (Table.get?_insert_self _ _ _) (fun number task differ there => .inl ?_) receiver
    (restored_of_offering mends rfl rfl rfl offered) silent
  exact others number task differ ((Table.get?_insert_of_ne differ _ _).symm.trans there)

/-- A start that has entered the jobs that wait offers them and launches the workers next. -/
theorem rescue_offer (tidy : world.Tidy)
    (found : Table.get? leader world.tasks = some (.start (.offering report)))
    (others : ∀ number task, number ≠ leader → Table.get? number world.tasks = some task → task.StandsBy)
    (receiver : world.channel.receiver = .taken) (idle : world.channel.ids = base.channel.ids)
    (mends : (StartStep.offering report).Mends setting base world.jobs world.live world.disk)
    (silent : ∀ number report, .answered number (.started (.ok report)) ∉ world.history)
    (some : report.requeued ≠ []) :
    Rescue setting base ((world.spawn (.offer report.requeued)).goOn leader (.start (.spawning report))) := by
  have below := tidy.numbered.below found
  have apart : world.nextTask ≠ leader := (Nat.ne_of_lt below).symm
  have sends : Table.get? world.nextTask ((world.spawn (.offer report.requeued)).goOn leader
      (.start (.spawning report))).tasks = .some (.offer report.requeued) :=
    (Table.get?_insert_of_ne apart _ _).trans (Table.get?_insert_self _ _ _)
  have old {number : Nat} {task : Task} (differ : number ≠ leader) (new : number ≠ world.nextTask)
      (there : Table.get? number ((world.spawn (.offer report.requeued)).goOn leader
        (.start (.spawning report))).tasks = .some task) : Table.get? number world.tasks = .some task := by
    have spawned := (Table.get?_insert_of_ne differ _ _).symm.trans there
    exact (Table.get?_insert_of_ne new _ _).symm.trans spawned
  have offered : ((world.spawn (.offer report.requeued)).goOn leader (.start (.spawning report))).Offered
      (base.channel.ids ++ report.requeued) := by
    refine .sending sends (congrArg (· ++ _) idle) some fun number pending there => ?_
    by_contra new
    by_cases same : number = leader
    · subst same
      have here := (Table.get?_insert_self _ _ _).symm.trans there
      simp at here
    · exact others number _ same (old same new there)
  refine .launching (Table.get?_insert_self _ _ _) (fun number task differ there => ?_) receiver
    (restored_of_offering mends rfl rfl rfl offered) silent
  by_cases new : number = world.nextTask
  · subst new
    exact .inr ⟨_, (Option.some.inj (sends.symm.trans there)).symm⟩
  · exact .inl (others number task differ (old differ new there))

/-- A step of a start that recovers takes it from one phase to the next. -/
theorem rescue_start (tidy : world.Tidy) (found : Table.get? leader world.tasks = some (.start step))
    (others : ∀ number task, number ≠ leader → Table.get? number world.tasks = some task → task.StandsBy)
    (receiver : world.channel.receiver = .taken) (idle : world.channel.ids = base.channel.ids)
    (mends : step.Mends setting base world.jobs world.live world.disk)
    (silent : ∀ number report, .answered number (.started (.ok report)) ∉ world.history) :
    Rescue setting base (stepStart setting world leader chance step) := by
  generalize stepped : stepStart setting world leader chance step = next
  cases startBranch stepped with
  | takes | late | spawns => exact mends.elim
  | unlisted =>
    obtain ⟨_, jobs, _⟩ := mends
    have kept : Mended [] base.jobs.records world.jobs.records := jobs ▸ .refl _
    exact stopped_failStart others silent rfl rfl kept _
  | @lists _ records listed =>
    obtain ⟨rfl, jobs, live, disk⟩ := mends
    have fails : Failing base.jobs.records world.jobs.records [] (records.map JobRecord.id) :=
      jobs ▸ failing_of_listed tidy.keyed listed
    have shape : world.jobs = base.jobs.withRecords world.jobs.records := by
      rw [jobs]
      cases base.jobs <;> rfl
    exact recovering_goOn others silent rfl rfl receiver idle
      ⟨fails, rfl, rfl, shape, live, disk ▸ .refl _ _⟩
  | failed =>
    obtain ⟨fails, empty, none, _, live, writes⟩ := mends
    exact recovering_goOn others silent rfl rfl receiver idle ⟨fails, empty, none, live, writes⟩
  | orphans done => exact rescue_orphan others receiver idle mends silent done
  | spares done => exact absurd done (JobStore.not_invalid_of_running mends.1.running)
  | @breaks _ _ report _ jobs _ done =>
    have kept : Mended report.orphaned base.jobs.records jobs.records :=
      JobStore.transition_of_error done ▸ mends.1.mended
    exact stopped_failStart others silent (by rfl) (by rfl) kept _
  | @sweeps _ disk removed ended =>
    obtain ⟨fails, empty, none, live, writes⟩ := mends
    obtain ⟨gone, starts, swept, counted⟩ := Workspace.sweep_swept setting.workspaces world.disk
    rw [ended] at swept counted
    have same : removed = gone.length := by simpa using counted
    exact recovering_goOn others silent (by rfl) (by rfl) receiver idle
      ⟨fails, empty, live, world.disk, gone, writes, starts, swept, same⟩
  | @unswept report disk error ended =>
    obtain ⟨fails, empty, none, live, writes⟩ := mends
    obtain ⟨gone, starts, swept, counted⟩ := Workspace.sweep_swept setting.workspaces world.disk
    rw [ended] at swept counted
    have same : gone = [] := by simpa using counted
    have counts : report.workspacesRemoved = gone.length := by rw [none, same, List.length_nil]
    exact recovering_goOn others silent (by rfl) (by rfl) receiver idle
      ⟨fails, empty, live, world.disk, gone, writes, starts, swept, counts⟩
  | unlistedAgain => exact stopped_failStart others silent rfl rfl mends.1.mended _
  | @listsAgain report records listed =>
    obtain ⟨fails, empty, live, cleared⟩ := mends
    have enters : Entering base.jobs.records base.live world.live report.requeued (records.map JobRecord.id) := by
      rw [empty, live]
      exact entering_of_listed tidy.keyed fails.mended listed
    exact recovering_goOn others silent rfl rfl receiver idle ⟨fails, enters, cleared⟩
  | checked =>
    obtain ⟨fails, enters, cleared⟩ := mends
    exact recovering_goOn others silent rfl rfl receiver idle ⟨fails, enters, cleared⟩
  | @known held _ _ lives =>
    obtain ⟨fails, enters, cleared⟩ := mends
    have shown : Table.get? held base.live ≠ none := by
      rw [← enters.unchanged]
      exact Option.isSome_iff_ne_none.mp lives
    exact recovering_goOn others silent rfl rfl receiver idle ⟨fails, enters.skip shown, cleared⟩
  | @unknown held _ _ free =>
    obtain ⟨fails, enters, cleared⟩ := mends
    have absent : Table.get? held base.live = none := by
      rw [← enters.unchanged]
      exact free
    exact recovering_goOn others silent rfl rfl receiver idle ⟨fails, enters, absent, cleared⟩
  | enters =>
    obtain ⟨fails, enters, absent, cleared⟩ := mends
    exact recovering_goOn others silent rfl rfl receiver idle ⟨fails, enters.enter absent, cleared⟩
  | idles nothing => exact rescue_idle others receiver idle mends silent nothing
  | offers some => exact rescue_offer tidy found others receiver idle mends silent some
  | shut => exact stopped_failStart others silent rfl rfl mends.1.mended _

/-- New workers wait, and the tasks that there were before go on. -/
theorem get?_spawnWorkers (count : Nat) : ∀ {world : World}, world.Numbered → ∀ other,
    Table.get? other (spawnWorkers count world).tasks = Table.get? other world.tasks ∨
      (Table.get? other world.tasks = none ∧
        Table.get? other (spawnWorkers count world).tasks = some (.worker .idle)) := by
  induction count with
  | zero => exact fun _ _ => .inl rfl
  | succ count inductionHypothesis =>
    intro world numbered other
    have spawned := numbered.spawn (.worker .idle)
    have counted : Numbered { world.spawn (.worker .idle) with pool := world.pool ++ [world.nextTask] } :=
      ⟨spawned.distinct, spawned.below⟩
    have first (differ : other ≠ world.nextTask) : Table.get? other (world.spawn (.worker .idle)).tasks =
        Table.get? other world.tasks := Table.get?_insert_of_ne differ _ _
    have here : Table.get? world.nextTask (world.spawn (.worker .idle)).tasks = some (.worker .idle) :=
      Table.get?_insert_self _ _ _
    rcases inductionHypothesis counted other with same | ⟨absent, idle⟩
    · by_cases new : other = world.nextTask
      · subst new
        exact .inr ⟨numbered.fresh, same.trans here⟩
      · exact .inl (same.trans (first new))
    · by_cases new : other = world.nextTask
      · subst new
        exact .inr ⟨numbered.fresh, idle⟩
      · exact .inr ⟨(first new).symm.trans absent, idle⟩

theorem spawnWorkers_kept (count : Nat) : ∀ world : World, (spawnWorkers count world).jobs = world.jobs ∧
    (spawnWorkers count world).live = world.live ∧ (spawnWorkers count world).disk = world.disk := by
  induction count with
  | zero => exact fun _ => ⟨rfl, rfl, rfl⟩
  | succ count inductionHypothesis =>
    intro world
    exact inductionHypothesis { world.spawn (.worker .idle) with pool := world.pool ++ [world.nextTask] }

/-- When a start makes the workers, it is answered, the tasks that there are besides it go on, and all others are
workers that wait. -/
structure Launched (leader : Nat) (report : RecoveryReport) (world next : World) : Prop where
  jobs : next.jobs = world.jobs
  live : next.live = world.live
  disk : next.disk = world.disk
  ids : next.channel.ids = world.channel.ids
  receiver : next.channel.receiver = .shared
  history : next.history = world.history ++ [.answered leader (.started (.ok report))]
  kept : ∀ number task, number ≠ leader → Table.get? number world.tasks = some task →
    Table.get? number next.tasks = some task
  came : ∀ number task, Table.get? number next.tasks = some task →
    (number ≠ leader ∧ Table.get? number world.tasks = some task) ∨ task = .worker .idle

theorem launched (numbered : world.Numbered) :
    Launched leader report world (stepStart setting world leader chance (.spawning report)) := by
  obtain ⟨shared, shape⟩ : ∃ shared : World,
      shared = { world with channel := { world.channel with receiver := .shared } } := ⟨_, rfl⟩
  have result : stepStart setting world leader chance (.spawning report) =
      (spawnWorkers setting.workerCount shared).answer leader (.started (.ok report)) := by rw [shape, stepStart]
  have numberedShared : shared.Numbered := by
    rw [shape]
    exact ⟨numbered.distinct, numbered.below⟩
  have tasks : shared.tasks = world.tasks := by rw [shape]
  have staffs := staffs_spawnWorkers setting.workerCount numberedShared
  have workers := get?_spawnWorkers setting.workerCount numberedShared
  obtain ⟨jobs, live, disk⟩ := spawnWorkers_kept setting.workerCount shared
  rw [result]
  have elsewhere {number : Nat} (differ : number ≠ leader) : Table.get? number ((spawnWorkers setting.workerCount
      shared).answer leader (.started (.ok report))).tasks =
        Table.get? number (spawnWorkers setting.workerCount shared).tasks := Table.get?_erase_of_ne differ _
  refine ⟨jobs.trans (by rw [shape]), live.trans (by rw [shape]), disk.trans (by rw [shape]), ?_, ?_, ?_,
    fun number task differ there => ?_, fun number task there => ?_⟩
  · show (spawnWorkers setting.workerCount shared).channel.ids = _
    rw [staffs.channel, shape]
  · show (spawnWorkers setting.workerCount shared).channel.receiver = _
    rw [staffs.channel, shape]
  · show (spawnWorkers setting.workerCount shared).history ++ _ = _
    rw [staffs.history, shape]
  · rw [elsewhere differ]
    rcases workers number with same | ⟨absent, _⟩
    · rw [same, tasks, there]
    · rw [tasks, there] at absent
      simp at absent
  · have differ : number ≠ leader := by
      rintro rfl
      have gone : Table.get? number (Table.erase number (spawnWorkers setting.workerCount shared).tasks) = none :=
        Table.get?_erase_self _ _
      exact absurd (gone.symm.trans there) (by simp)
    rw [elsewhere differ] at there
    rcases workers number with same | ⟨_, idle⟩
    · exact .inl ⟨differ, by rw [← tasks, ← same, there]⟩
    · exact .inr (Option.some.inj (there.symm.trans idle))

/-- A start that makes the workers is answered with its report, and the world stays restored. -/
theorem rescue_launch (launched : Launched leader report world next)
    (found : Table.get? leader world.tasks = some (.start (.spawning report)))
    (others : ∀ number task, number ≠ leader → Table.get? number world.tasks = some task →
      task.StandsBy ∨ ∃ ids, task = .offer ids)
    (restored : Restored setting base world report)
    (silent : ∀ number report, .answered number (.started (.ok report)) ∉ world.history) :
    Rescue setting base next := by
  -- No offer is new, and the one that was there goes on.
  have offers {number : Nat} {pending : List JobId} (there : Table.get? number next.tasks = some (.offer pending)) :
      Table.get? number world.tasks = some (.offer pending) := by
    rcases launched.came number _ there with ⟨_, before⟩ | idle
    · exact before
    · simp at idle
  have offered : next.Offered (base.channel.ids ++ report.requeued) := by
    cases restored.offered with
    | sent all done => exact .sent (launched.ids.trans all) fun number pending there => done number pending (offers there)
    | @sending sender pending stands all more single =>
      have differ : sender ≠ leader := by
        rintro rfl
        simp [found] at stands
      exact .sending (launched.kept sender _ differ stands) (launched.ids ▸ all) more fun number ids there =>
        single number ids (offers there)
  refine .done (fun number task there => ?_) launched.receiver
    (restored.keep launched.jobs launched.live launched.disk offered) fun number other member => ?_
  · rcases launched.came number task there with ⟨differ, before⟩ | idle
    · exact (others number task differ before).imp_right .inr
    · exact .inr (.inl idle)
  · rw [launched.history] at member
    rcases List.mem_append.mp member with before | now
    · exact absurd before (silent number other)
    · simpa using (Event.answered.inj (List.mem_singleton.mp now)).2

/-- A task sends the first of the ids that it offers, and nothing else changes. -/
structure Sends (number : Nat) (world next : World) : Prop where
  jobs : next.jobs = world.jobs
  live : next.live = world.live
  disk : next.disk = world.disk
  receiver : next.channel.receiver = world.channel.receiver
  history : next.history = world.history
  others : ∀ other, other ≠ number → Table.get? other next.tasks = Table.get? other world.tasks
  own : ∀ task, Table.get? number next.tasks = some task → ∃ ids, task = .offer ids

theorem sends_of_offer {whole : List JobId} (offered : world.Offered whole)
    (found : Table.get? number world.tasks = some (.offer ids)) (there : world.channel.receiver ≠ .gone)
    (stepped : world.stepOffer number ids = some next) : Sends number world next ∧ next.Offered whole := by
  cases offered with
  | sent _ done => exact absurd found (done number ids)
  | @sending sender pending stands all more single =>
    obtain rfl := single number ids found
    obtain rfl : ids = pending := by simpa using found.symm.trans stands
    have alone (other : Nat) (others : List JobId) (same : Table.get? other world.tasks = some (.offer others)) :
        other = number := single other others same
    have grown {held : JobId} {rest : List JobId} (split : ids = held :: rest) :
        (world.channel.push held).ids ++ rest = whole := by
      rw [Channel.push, if_neg there, ← all, split, List.append_assoc, List.singleton_append]
    cases offerBranch stepped with
    | nothing => exact absurd rfl more
    | gone gone => exact absurd gone there
    | @last held =>
      have gone : Table.get? number (Table.erase number world.tasks) = none := Table.get?_erase_self _ _
      refine ⟨⟨rfl, rfl, rfl, ?_, rfl, fun other differ => Table.get?_erase_of_ne differ _, fun task here => ?_⟩, ?_⟩
      · exact (push_same world.channel held).1
      · exact absurd (gone.symm.trans here) (by simp)
      · refine .sent ((List.append_nil _).symm.trans (grown rfl)) fun other pending here => ?_
        by_cases same : other = number
        · subst same
          exact absurd (gone.symm.trans here) (by simp)
        · exact same (alone other pending ((Table.get?_erase_of_ne same _).symm.trans here))
    | @more held rest _ _ rests =>
      have own := Table.get?_insert_self number (Task.offer rest) world.tasks
      refine ⟨⟨rfl, rfl, rfl, ?_, rfl, fun other differ => Table.get?_insert_of_ne differ _ _, fun task here => ?_⟩, ?_⟩
      · exact (push_same world.channel held).1
      · exact ⟨rest, (Option.some.inj (own.symm.trans here)).symm⟩
      · refine .sending own (grown rfl) rests fun other pending here => ?_
        by_contra differ
        exact differ (alone other pending ((Table.get?_insert_of_ne differ _ _).symm.trans here))

/-- A recovery goes from one phase to the next through a workless move. -/
theorem Rescue.proceed (rescue : Rescue setting base world) (tidy : world.Tidy) (workless : world.WorklessMove move)
    (moved : move? setting world move = some next) : Rescue setting base next := by
  cases move with
  | deliver id => exact workless.elim
  | restart => exact workless.elim
  | call call =>
    have aside : Aside world.nextTask world (beginCall setting world call) := aside_call tidy.numbered.fresh workless
    rw [← Option.some.inj moved]
    exact rescue.aside aside fun task found => by simp [tidy.numbered.fresh] at found
  | step number chance =>
    obtain ⟨task, found, stepped⟩ := task_of_step moved
    have beside (stands : task.StandsBy) (late : task = .start .waiting → world.channel.receiver ≠ .free) :
        Rescue setting base next :=
      rescue.aside (aside_step found stands late stepped) fun other there =>
        Option.some.inj (found.symm.trans there) ▸ stands
    have sends {report : RecoveryReport} {ids : List JobId} (same : task = .offer ids)
        (restored : Restored setting base world report) (there : world.channel.receiver ≠ .gone) :
        Sends number world next ∧ Restored setting base next report := by
      subst same
      obtain ⟨sends, offered⟩ := sends_of_offer restored.offered found there stepped
      exact ⟨sends, restored.keep sends.jobs sends.live sends.disk offered⟩
    cases rescue with
    | before tasks receiver jobs live disk ids silent =>
      by_cases first : task = .start .waiting
      · subst first
        have begins : stepStart setting world number chance .waiting =
            { world with channel := { world.channel with receiver := .taken } }.goOn number
              (.start (.listing {})) := by rw [stepStart, if_pos receiver]
        rw [← Option.some.inj stepped, begins]
        exact recovering_goOn (fun other task _ there => tasks other task there) silent (by rfl) (by rfl) (by rfl)
          ids ⟨rfl, jobs, live, disk⟩
      · exact beside (tasks number task found) fun same => absurd same first
    | @recovering leader step stands others receiver ids mends silent =>
      by_cases same : number = leader
      · subst same
        obtain rfl := Option.some.inj (found.symm.trans stands)
        rw [← Option.some.inj stepped]
        exact rescue_start tidy stands others receiver ids mends silent
      · exact beside (others number task same found) fun _ => by simp [receiver]
    | @launching leader report stands others receiver restored silent =>
      by_cases same : number = leader
      · subst same
        obtain rfl := Option.some.inj (found.symm.trans stands)
        rw [← Option.some.inj stepped]
        exact rescue_launch (launched tidy.numbered) stands others restored silent
      · rcases others number task same found with light | ⟨ids, offers⟩
        · exact beside light fun _ => by simp [receiver]
        · obtain ⟨sends, stays⟩ := sends offers restored (by simp [receiver])
          refine .launching ((sends.others leader (Ne.symm same)).trans stands) (fun other task differ there => ?_)
            (sends.receiver.trans receiver) stays (sends.history ▸ silent)
          by_cases own : other = number
          · exact .inr (sends.own task (own ▸ there))
          · exact others other task differ ((sends.others other own).symm.trans there)
    | stopped tasks receiver mended silent => exact beside (tasks number task found) fun _ => by simp [receiver]
    | @done report tasks receiver restored answers =>
      rcases tasks number task found with light | rfl | ⟨ids, offers⟩
      · exact beside light fun _ => by simp [receiver]
      · exact absurd found (workless .idle)
      · obtain ⟨sends, stays⟩ := sends offers restored (by simp [receiver])
        refine .done (fun other task there => ?_) (sends.receiver.trans receiver) stays (sends.history ▸ answers)
        by_cases own : other = number
        · exact .inr (.inr (sends.own task (own ▸ there)))
        · exact tasks other task ((sends.others other own).symm.trans there)

theorem Workless.left {former : List Move} (workless : Workless setting base (former ++ moves)) :
    Workless setting base former :=
  fun early move inside => workless early move (inside.trans (List.prefix_append _ _))

/-- A recovery goes through its phases in a run of workless moves. -/
theorem rescue_run (unstarted : base.Unstarted) (workless : Workless setting base moves) :
    (run setting base moves).Tidy ∧ Rescue setting base (run setting base moves) := by
  induction moves using List.reverseRecOn with
  | nil =>
    exact ⟨unstarted.tidy, .before unstarted.tasks unstarted.receiver rfl rfl rfl rfl unstarted.silent⟩
  | append_singleton moves last inductionHypothesis =>
    obtain ⟨tidy, rescue⟩ := inductionHypothesis workless.left
    have lazy : (run setting base moves).WorklessMove last := workless moves last (List.prefix_refl _)
    rw [run_concat, World.move]
    cases moved : move? setting (run setting base moves) last with
    | none => exact ⟨tidy, rescue⟩
    | some next =>
      exact ⟨(advances_move tidy moved fun same => absurd same lazy.ordinary.ne_restart).tidy,
        rescue.proceed tidy lazy moved⟩

/-- A start that is answered with a report has restored the world. -/
theorem Rescue.restored (rescue : Rescue setting base world)
    (told : .answered number (.started (.ok report)) ∈ world.history) : Restored setting base world report := by
  cases rescue with
  | before _ _ _ _ _ _ silent => exact absurd told (silent number report)
  | recovering _ _ _ _ _ silent => exact absurd told (silent number report)
  | launching _ _ _ _ silent => exact absurd told (silent number report)
  | stopped _ _ _ silent => exact absurd told (silent number report)
  | done _ _ restored answers =>
    obtain rfl := answers number report told
    exact restored

/-- However far a recovery has come, it has only failed some of the jobs that ran. -/
theorem Rescue.mended (rescue : Rescue setting base world) :
    ∃ failed, Mended failed base.jobs.records world.jobs.records := by
  cases rescue with
  | before _ _ jobs => exact ⟨[], jobs ▸ .refl _⟩
  | @recovering _ step _ _ _ _ mends =>
    cases step with
    | waiting => exact mends.elim
    | spawning report => exact mends.elim
    | listing report =>
      obtain ⟨_, jobs, _⟩ := mends
      exact ⟨[], jobs ▸ .refl _⟩
    | _ => exact ⟨_, mends.1.mended⟩
  | launching _ _ _ restored => exact ⟨_, restored.mended⟩
  | stopped _ _ mended => exact ⟨_, mended⟩
  | done _ _ restored => exact ⟨_, restored.mended⟩

/-- A process reopens the store of another one when it is unstarted, has no live entries, and finds the same records. -/
structure Reopens (world again : World) : Prop where
  unstarted : again.Unstarted
  live : again.live = []
  records : ∀ id, Table.get? id again.jobs.records = Table.get? id world.jobs.records

/-- A new process is unstarted. -/
theorem unstarted_new {disk : Disk} {jobs : JobStore} {artifacts : ArtifactStore} (keyed : jobs.Keyed) :
    (new setting disk jobs artifacts).Unstarted where
  tidy := ⟨⟨List.nodup_nil, fun found => by simp [new] at found⟩, keyed, fun _ _ found => by simp [new] at found⟩
  receiver := rfl
  tasks _ _ found := by simp [new] at found
  silent _ _ member := by simp [new] at member

/-- A new process over a sound store that has been opened once more reopens it. -/
theorem reopens_of_sound (sound : world.jobs.Sound world.disk) (artifacts : ArtifactStore) :
    ∃ jobs, world.jobs.reopen world.disk = (world.disk, .ok jobs) ∧
      world.Reopens (new setting world.disk jobs artifacts) := by
  obtain ⟨jobs, opened, again, same⟩ := sound.reopen
  exact ⟨jobs, opened, unstarted_new again.isKeyed, rfl, same⟩

/-- What a restored world shows of a record, but for the time, depends only on what the record was before. -/
theorem Restored.untimed (restored : Restored setting base world report) (id : JobId) :
    (Table.get? id world.jobs.records).map JobRecord.untimed = (Table.get? id base.jobs.records).map JobRecord.restored :=
  (untimed_of_settled restored.settled id).trans (restored.mended.restored id)

/-- A start that no submission and no worker comes in between restores the world when it is answered with a report.
Wherever it is interrupted, a start of a process that reopens its store leaves the same records as one that was not
interrupted, but for the time. When it was not interrupted, the other start changes no record, fails no job and requeues
all jobs that wait. -/
theorem recovery_exact_and_restartable (unstarted : base.Unstarted) (workless : Workless setting base moves) :
    let world := run setting base moves
    (∀ number report, .answered number (.started (.ok report)) ∈ world.history → Restored setting base world report) ∧
    ∀ (other : Setting) (again : World) (late : List Move) (latter : Nat) (report : RecoveryReport),
      world.Reopens again → Workless other again late →
      .answered latter (.started (.ok report)) ∈ (run other again late).history →
        (∀ straight former whole, Workless setting base straight →
          .answered former (.started (.ok whole)) ∈ (run setting base straight).history →
            ∀ id, (Table.get? id (run other again late).jobs.records).map JobRecord.untimed =
              (Table.get? id (run setting base straight).jobs.records).map JobRecord.untimed) ∧
        ∀ former first, .answered former (.started (.ok first)) ∈ world.history →
          (∀ id, Table.get? id (run other again late).jobs.records = Table.get? id world.jobs.records) ∧
          report.orphaned = [] ∧ Lists .queued world.jobs.records report.requeued ∧
          (base.live = [] → report.requeued.Perm first.requeued) := by
  intro world
  have rescue : Rescue setting base world := (rescue_run unstarted workless).2
  refine ⟨fun number report told => rescue.restored told, ?_⟩
  intro other again late latter report reopens worklessLate told
  have restored := (rescue_run reopens.unstarted worklessLate).2.restored told
  refine ⟨fun straight former whole worklessStraight answered id => ?_, fun former first answered => ?_⟩
  · obtain ⟨failed, mended⟩ := rescue.mended
    have uninterrupted := (rescue_run unstarted worklessStraight).2.restored answered
    rw [restored.untimed id, uninterrupted.untimed id, reopens.records id, mended.restored id]
  · have before := rescue.restored answered
    have none : report.orphaned = [] := by
      refine List.eq_nil_iff_forall_not_mem.mpr fun id member => ?_
      obtain ⟨record, found, running⟩ := (restored.ran.mem id).mp member
      exact before.settled id record ((reopens.records id).symm.trans found) running
    have waits (id : JobId) : id ∈ report.requeued ↔
        ∃ record, Table.get? id world.jobs.records = some record ∧ record.status = .queued := by
      rw [restored.waited id, reopens.records id, reopens.live]
      simp
    refine ⟨fun id => ?_, none, ⟨restored.nodup, waits⟩, fun empty => ?_⟩
    · have kept := restored.mended.kept id (by simp [none])
      exact kept.trans (reopens.records id)
    · refine (List.perm_ext_iff_of_nodup restored.nodup before.nodup).mpr fun id => ?_
      rw [waits id, before.waited id, before.mended.waits_iff id, empty]
      simp

/-- This test asks whether all moves are workless. -/
def allWorkless (setting : Setting) : World → List Move → Bool
  | _, [] => true
  | world, move :: moves =>
    let workless :=
      match move with
      | .call (.request _) => false
      | .call (.submit _ _) => false
      | .call _ => true
      | .step number _ =>
        match Table.get? number world.tasks with
        | some (.worker _) => false
        | _ => true
      | _ => false
    workless && allWorkless setting (World.move setting world move) moves

theorem workless_of_test (test : allWorkless setting base moves = true) : Workless setting base moves := by
  induction moves generalizing base with
  | nil =>
    intro former move inside
    simp at inside
  | cons first rest inductionHypothesis =>
    rw [allWorkless.eq_def, Bool.and_eq_true] at test
    obtain ⟨here, later⟩ := test
    intro former move inside
    cases former with
    | nil =>
      obtain ⟨rfl, _⟩ := List.cons_prefix_cons.mp inside
      cases move with
      | call call => cases call <;> trivial
      | step number chance =>
        intro step found
        have there : Table.get? number base.tasks = some (.worker step) := found
        simp [there] at here
      | deliver id => simp at here
      | restart => simp at here
    | cons other former =>
      obtain ⟨rfl, within⟩ := List.cons_prefix_cons.mp inside
      exact inductionHypothesis later former move within

/-- This disk has a workspace that an earlier process left. -/
def littered : Disk :=
  let work : FileName := ⟨"work", by decide⟩
  ⟨[([work], .directory), ([work, ⟨"forge-job-old", by decide⟩], .directory)]⟩

/-- This process finds a job that ran, and shows another one. -/
def leftBehind : World :=
  { new .scripted littered (.memory [("first", { blankRecord with status := .running })]) (.memory []) with
    live := [("shown", ⟨.queued, Progress.queued⟩)] }

/-- In these moves a start recovers. -/
def rescuing : List Move :=
  .call .start :: stepping 0 (List.replicate 9 "a")

theorem recovery_exact_and_restartable_leftBehind : leftBehind.Unstarted ∧ Workless .scripted leftBehind rescuing ∧
    Restored .scripted leftBehind (run .scripted leftBehind rescuing) ⟨["first"], [], 1⟩ := by
  have fresh : (new .scripted littered (.memory [("first", { blankRecord with status := .running })])
      (.memory [])).Unstarted := unstarted_new (JobStore.keyed_singleton { blankRecord with status := .running })
  have unstarted : leftBehind.Unstarted :=
    ⟨⟨⟨fresh.tidy.numbered.distinct, fresh.tidy.numbered.below⟩, fresh.tidy.keyed, fresh.tidy.sane⟩, rfl, fresh.tasks,
      fresh.silent⟩
  have workless : Workless .scripted leftBehind rescuing := workless_of_test (by with_unfolding_all rfl)
  have history : (run .scripted leftBehind rescuing).history =
      [.called 0 .start, .answered 0 (.started (.ok ⟨["first"], [], 1⟩))] := by with_unfolding_all rfl
  have told : .answered 0 (.started (.ok ⟨["first"], [], 1⟩)) ∈ (run .scripted leftBehind rescuing).history := by
    rw [history]
    simp
  exact ⟨unstarted, workless, (recovery_exact_and_restartable unstarted workless).1 0 _ told⟩

end World

end ContractWorks

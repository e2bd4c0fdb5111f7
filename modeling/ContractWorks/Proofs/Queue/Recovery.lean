import ContractWorks.Proofs.Queue.Drain
import ContractWorks.Proofs.Queue.Served
import ContractWorks.Proofs.Queue.Step

namespace ContractWorks.World

/-- A reason has happened when one of the moves of a run had it. -/
def Happened (setting : Setting) (start : World) (moves : List Move) (id : JobId) (mark : Mark) : Prop :=
  ∃ early move late, moves = early ++ move :: late ∧ (run setting start early).Reason move id mark

variable {setting : Setting} {start world next : World} {moves : List Move} {move : Move} {id : JobId} {mark : Mark}

theorem run_append (setting : Setting) (start : World) (early late : List Move) :
    run setting start (early ++ late) = run setting (run setting start early) late :=
  List.foldl_append

theorem run_concat (setting : Setting) (start : World) (moves : List Move) (move : Move) :
    run setting start (moves ++ [move]) = World.move setting (run setting start moves) move :=
  run_append setting start moves [move]

theorem Happened.more (happened : Happened setting start moves id mark) (move : Move) :
    Happened setting start (moves ++ [move]) id mark := by
  obtain ⟨early, cause, late, rfl, why⟩ := happened
  exact ⟨early, cause, late ++ [move], by simp, why⟩

theorem happened_now (why : (run setting start moves).Reason move id mark) :
    Happened setting start (moves ++ [move]) id mark :=
  ⟨moves, move, [], rfl, why⟩

/-- A queue serves its jobs when its start has entered those that wait, and when each of them is served since. The
requeued jobs are those that it has entered, and the known ones those that the store held before. -/
structure Serves (evidence : JobId → Mark → Prop) (requeued known : JobId → Prop) (world : World) : Prop where
  tidy : world.Tidy
  begun : world.channel.receiver = .taken ∨ world.channel.receiver = .shared
  settled : ∀ number, world.roleAt number ≠ some .recovering
  served : ∀ id, (world.view id).Served (evidence id)
  vouched : ∀ id, (world.view id).Vouched (requeued id)
  recorded : ∀ id, (world.view id).Recorded (known id)

variable {evidence later : JobId → Mark → Prop} {requeued known : JobId → Prop}

theorem role_of_recovers {step : StartStep} (recovers : step.Recovers) : (Task.start step).role = .recovering := by
  cases step <;> first | rfl | exact recovers.elim

/-- The ordinary moves of a queue that serves are orderly. -/
theorem Serves.orderly (serves : world.Serves evidence requeued known) (ordinary : move.IsOrdinary) (id : JobId) :
    View.Orderly (world.Reason move id) where
  dropped := by
    rintro (gone | ⟨number, _, step, _, found, recovers⟩)
    · rcases serves.begun with taken | shared
      · simp [gone] at taken
      · simp [gone] at shared
    · exact serves.settled number ((roleAt_of_found found).trans (congrArg some (role_of_recovers recovers)))
  recovering := by
    rintro ⟨number, _, step, _, found, recovers⟩
    exact serves.settled number ((roleAt_of_found found).trans (congrArg some (role_of_recovers recovers)))
  delivered := by
    rintro ⟨other, rfl⟩
    exact ordinary
  restarted := by
    intro same
    exact (same ▸ ordinary : Move.restart.IsOrdinary)

/-- A queue that serves its jobs goes on to do so. -/
theorem Serves.advance (serves : world.Serves evidence requeued known) (ordinary : move.IsOrdinary)
    (advances : Advances world move next)
    (begun : next.channel.receiver = .taken ∨ next.channel.receiver = .shared)
    (settled : ∀ number, next.roleAt number ≠ some .recovering)
    (more : ∀ id mark, evidence id mark → later id mark)
    (learned : ∀ id mark, world.Reason move id mark → later id mark) : next.Serves later requeued known where
  tidy := advances.tidy
  begun := begun
  settled := settled
  served := fun id =>
    (serves.served id).change (advances.change id) (serves.orderly ordinary id) (more id) (learned id)
  vouched := fun id => (serves.vouched id).change (advances.change id) (serves.orderly ordinary id)
  recorded := fun id => (serves.recorded id).change (serves.served id) (advances.change id)

theorem Serves.mono (serves : world.Serves evidence requeued known) (more : ∀ id mark, evidence id mark → later id mark) :
    world.Serves later requeued known :=
  { serves with served := fun id => (serves.served id).mono (more id) }

end ContractWorks.World

namespace ContractWorks

/-- A list names the records in a state when the id of each of them stands in it once. -/
structure Lists (state : JobState) (records : Table JobId JobRecord) (ids : List JobId) : Prop where
  nodup : ids.Nodup
  mem : ∀ id, id ∈ ids ↔ ∃ record, Table.get? id records = some record ∧ record.status = state

theorem Lists.congr {state : JobState} {first second : Table JobId JobRecord} {ids : List JobId}
    (lists : Lists state first ids) (same : ∀ id, (∃ record, Table.get? id first = some record ∧
      record.status = state) ↔ ∃ record, Table.get? id second = some record ∧ record.status = state) :
    Lists state second ids :=
  ⟨lists.nodup, fun id => (lists.mem id).trans (same id)⟩

namespace JobStore

variable {store : JobStore} {state : JobState} {fault : Option StoreFault} {records : List JobRecord}

/-- A store that can be read gives the records in a state in some order. -/
theorem listByState_cases (store : JobStore) (state : JobState) (fault : Option StoreFault) :
    (∃ text, store.listByState state fault = .error (.io text)) ∨
      store.listByState state fault =
        .ok ((oldestFirst (store.records.map Prod.snd)).filter fun record => record.status = state) := by
  rw [listByState, list.eq_def]
  split
  · exact .inl ⟨_, rfl⟩
  · exact .inr rfl

theorem listByState_of_ok (listed : store.listByState state fault = .ok records) :
    records = (oldestFirst (store.records.map Prod.snd)).filter fun record => record.status = state := by
  rcases listByState_cases store state fault with ⟨text, failed⟩ | ok
  · simp [failed] at listed
  · exact Except.ok.inj (listed.symm.trans ok)

/-- A store fails to list its records only because it cannot be read. -/
theorem listByState_of_error {error : StoreError} (failed : store.listByState state fault = .error error) :
    ∃ text, error = .io text := by
  rcases listByState_cases store state fault with ⟨text, unread⟩ | ok
  · exact ⟨text, Except.error.inj (failed.symm.trans unread)⟩
  · simp [ok] at failed

theorem Keyed.ids (keyed : store.Keyed) :
    (store.records.map Prod.snd).map JobRecord.id = store.records.map Prod.fst := by
  rw [List.map_map]
  refine List.map_congr_left fun entry member => ?_
  exact keyed.keyed (Table.get?_of_mem keyed.distinct member)

/-- The records that a store lists are named by their ids. -/
theorem Keyed.lists (keyed : store.Keyed) (listed : store.listByState state fault = .ok records) :
    Lists state store.records (records.map JobRecord.id) := by
  have shape := listByState_of_ok listed
  have order : (oldestFirst (store.records.map Prod.snd)).Perm (store.records.map Prod.snd) :=
    List.mergeSort_perm _ _
  refine ⟨?_, fun id => ?_⟩
  · have distinct : ((oldestFirst (store.records.map Prod.snd)).map JobRecord.id).Nodup := by
      refine (order.map JobRecord.id).nodup_iff.mpr ?_
      rw [keyed.ids]
      exact keyed.distinct
    rw [shape]
    exact distinct.sublist (List.filter_sublist.map JobRecord.id)
  · rw [shape, List.mem_map]
    constructor
    · rintro ⟨record, member, rfl⟩
      obtain ⟨there, status⟩ := List.mem_filter.mp member
      obtain ⟨⟨key, value⟩, entry, rfl⟩ := List.mem_map.mp (order.mem_iff.mp there)
      have found := Table.get?_of_mem keyed.distinct entry
      obtain rfl := keyed.keyed found
      exact ⟨value, found, of_decide_eq_true status⟩
    · rintro ⟨record, found, status⟩
      have there : record ∈ store.records.map Prod.snd := List.mem_map.mpr ⟨_, Table.mem_of_get? found, rfl⟩
      exact ⟨record, List.mem_filter.mpr ⟨order.mem_iff.mpr there, decide_eq_true status⟩, keyed.keyed found⟩

theorem Keyed.exists_lists (keyed : store.Keyed) (state : JobState) : ∃ ids, Lists state store.records ids := by
  have listed : store.listByState state none =
      .ok ((oldestFirst (store.records.map Prod.snd)).filter fun record => record.status = state) := rfl
  exact ⟨_, keyed.lists listed⟩

end JobStore

/-- This function gives the report of a start so far. -/
def StartStep.report : StartStep → RecoveryReport
  | .waiting => {}
  | .listing report => report
  | .failing _ report => report
  | .sweeping report => report
  | .relisting report => report
  | .checking _ report => report
  | .entering _ _ report => report
  | .offering report => report
  | .spawning report => report

/-- This function gives the receiving end of the channel while a start recovers. -/
def StartStep.receiver : StartStep → Receiver
  | .waiting => .free
  | _ => .taken

/-- This condition says which ids a start has still to fail and to enter. -/
def StartStep.Leaves (failing entering : List JobId) : StartStep → Prop
  | .waiting => True
  | .listing report => report = {}
  | .failing ids report => ids = failing ∧ report.requeued = []
  | .sweeping report => failing = [] ∧ report.requeued = []
  | .relisting report => failing = [] ∧ report.requeued = []
  | .checking ids _ => failing = [] ∧ ids = entering
  | .entering id ids _ => failing = [] ∧ id :: ids = entering
  | .offering _ => failing = [] ∧ entering = []
  | .spawning _ => False

/-- A recovery has failed some of the jobs that ran at first, and entered some of those that waited. -/
structure Recovery (first : Table JobId JobRecord) (jobs : JobStore) (live : LiveTable) (report : RecoveryReport)
    (failing entering : List JobId) : Prop where
  keyed : jobs.Keyed
  ran : Lists .running first (report.orphaned ++ failing)
  waited : Lists .queued first (report.requeued ++ entering)
  failed : ∀ id ∈ report.orphaned, ∃ record, Table.get? id jobs.records = some record ∧
    record.status = .failed ∧ record.error = some World.orphanError
  kept : ∀ id ∉ report.orphaned, Table.get? id jobs.records = Table.get? id first
  entered : ∀ id ∈ report.requeued, IsLow (Table.get? id live)
  absent : ∀ id ∉ report.requeued, Table.get? id live = none

namespace Recovery

variable {first : Table JobId JobRecord} {jobs other : JobStore} {live : LiveTable} {report : RecoveryReport}
  {failing entering : List JobId} {id : JobId}

/-- A recovery begins with the records as they are. -/
theorem start (keyed : jobs.Keyed) : ∃ failing entering, Recovery jobs.records jobs [] {} failing entering := by
  obtain ⟨failing, ran⟩ := keyed.exists_lists .running
  obtain ⟨entering, waited⟩ := keyed.exists_lists .queued
  have none (id : JobId) (member : id ∈ ([] : List JobId)) : False := by simp at member
  exact ⟨failing, entering, keyed, ran, waited, fun id member => (none id member).elim, fun _ _ => rfl,
    fun id member => (none id member).elim, fun _ _ => rfl⟩

theorem listed_running (recovery : Recovery first jobs live {} failing entering) {fault : Option StoreFault}
    {records : List JobRecord} (listed : jobs.listByState .running fault = .ok records) :
    Recovery first jobs live {} (records.map JobRecord.id) entering := by
  have lists := recovery.keyed.lists listed
  have ran : Lists .running first (records.map JobRecord.id) :=
    lists.congr fun id => by rw [recovery.kept id (by simp)]
  exact { recovery with ran }

theorem listed_queued (recovery : Recovery first jobs live report [] entering) (empty : report.requeued = [])
    {fault : Option StoreFault} {records : List JobRecord}
    (listed : jobs.listByState .queued fault = .ok records) :
    Recovery first jobs live report [] (records.map JobRecord.id) := by
  have lists := recovery.keyed.lists listed
  have waited : Lists .queued first (report.requeued ++ records.map JobRecord.id) := by
    rw [empty, List.nil_append]
    refine lists.congr fun id => ?_
    by_cases orphan : id ∈ report.orphaned
    · -- A job that ran at first has failed since, so that neither list of waiting jobs has it.
      obtain ⟨after, found, failed, _⟩ := recovery.failed id orphan
      obtain ⟨before, stood, ran⟩ := (recovery.ran.mem id).mp (List.mem_append_left _ orphan)
      simp [found, stood, failed, ran]
    · rw [recovery.kept id orphan]
  exact { recovery with waited }

/-- A job that is failed as an orphan leaves the list of those to be failed. -/
theorem orphan (recovery : Recovery first jobs live report (id :: failing) entering) {before after : JobRecord}
    {now : Time.Instant} (found : Table.get? id jobs.records = some before)
    (applied : before.apply now (.fail World.orphanError) = .ok after) :
    Recovery first (jobs.withRecords (Table.insert id after jobs.records)) live
      { report with orphaned := report.orphaned ++ [id] } failing entering where
  keyed := by
    obtain rfl := recovery.keyed.id_of_apply found applied
    exact recovery.keyed.withRecords after
  ran := by
    rw [List.append_assoc]
    exact recovery.ran
  waited := recovery.waited
  failed := by
    intro other member
    rw [JobStore.records_withRecords]
    by_cases same : other = id
    · subst same
      obtain ⟨_, rfl⟩ := JobStore.apply_eq_ok applied
      exact ⟨_, Table.get?_insert_self _ _ _, rfl, rfl⟩
    · rw [Table.get?_insert_of_ne same]
      refine recovery.failed other ?_
      simpa [same] using member
  kept := by
    intro other member
    have apart : other ≠ id := fun same => member (by simp [same])
    rw [JobStore.records_withRecords, Table.get?_insert_of_ne apart]
    exact recovery.kept other fun orphan => member (List.mem_append_left _ orphan)
  entered := recovery.entered
  absent := recovery.absent

/-- The record of a job that is to be failed is the one that ran at first. -/
theorem running (recovery : Recovery first jobs live report (id :: failing) entering) :
    ∃ record, Table.get? id jobs.records = some record ∧ record.status = .running := by
  have apart : id ∉ report.orphaned := by
    intro member
    have distinct := recovery.ran.nodup
    exact (List.nodup_append.mp distinct).2.2 id member id List.mem_cons_self rfl
  rw [recovery.kept id apart]
  exact (recovery.ran.mem id).mp (by simp)

theorem unentered (recovery : Recovery first jobs live report failing (id :: entering)) :
    Table.get? id live = none := by
  refine recovery.absent id fun member => ?_
  have distinct := recovery.waited.nodup
  exact (List.nodup_append.mp distinct).2.2 id member id List.mem_cons_self rfl

/-- A job that is entered leaves the list of those to be entered. -/
theorem enter (recovery : Recovery first jobs live report failing (id :: entering)) :
    Recovery first jobs (live.queued id) { report with requeued := report.requeued ++ [id] } failing entering where
  keyed := recovery.keyed
  ran := recovery.ran
  waited := by
    rw [List.append_assoc]
    exact recovery.waited
  failed := recovery.failed
  kept := recovery.kept
  entered := by
    intro other member
    by_cases same : other = id
    · subst same
      exact ⟨_, LiveTable.get?_queued_self, by decide⟩
    · rw [LiveTable.get?_queued_of_ne same]
      refine recovery.entered other ?_
      simpa [same] using member
  absent := by
    intro other member
    have apart : other ≠ id := fun same => member (by simp [same])
    rw [LiveTable.get?_queued_of_ne apart]
    exact recovery.absent other fun entered => member (List.mem_append_left _ entered)

end Recovery

end ContractWorks

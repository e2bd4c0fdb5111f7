import ContractWorks.Proofs.Queue.Recovery
import ContractWorks.Proofs.Storage.Refinement

namespace ContractWorks

/-- This function leaves out of a record when its job was completed. -/
def JobRecord.untimed (record : JobRecord) : JobRecord :=
  { record with completedAt := none }

/-- This function gives what is left of a record when its process is lost and another one recovers, but for the time. -/
def JobRecord.restored (record : JobRecord) : JobRecord :=
  if record.status = .running then (record.write record.createdAt (.fail World.orphanError)).untimed else record.untimed

/-- Ids stand in the order of age when none stands behind that of a younger record. -/
def ByAge (records : Table JobId JobRecord) (ids : List JobId) : Prop :=
  ids.Pairwise fun first second => ∀ older younger, Table.get? first records = some older →
    Table.get? second records = some younger → older.createdAt.order ≤ younger.createdAt.order

/-- Records are mended when some that ran have failed as orphans, and when all others are as they were. -/
structure Mended (failed : List JobId) (first now : Table JobId JobRecord) : Prop where
  ended : ∀ id ∈ failed, ∃ record time, Table.get? id first = some record ∧ record.status = .running ∧
    Table.get? id now = some (record.write time (.fail World.orphanError))
  kept : ∀ id ∉ failed, Table.get? id now = Table.get? id first

/-- A start has failed some of the records that ran, and has still to fail the others. -/
structure Failing (first now : Table JobId JobRecord) (failed failing : List JobId) : Prop where
  ran : Lists .running first (failed ++ failing)
  aged : ByAge first (failed ++ failing)
  mended : Mended failed first now

/-- A start has entered some of the jobs that wait and have no live entry, and has still to check others. -/
structure Entering (first : Table JobId JobRecord) (shown live : LiveTable) (entered checking : List JobId) : Prop where
  nodup : (entered ++ checking).Nodup
  waits : ∀ id ∈ entered ++ checking, ∃ record, Table.get? id first = some record ∧ record.status = .queued
  free : ∀ id ∈ entered, Table.get? id shown = none
  all : ∀ id record, Table.get? id first = some record → record.status = .queued → Table.get? id shown = none →
    id ∈ entered ++ checking
  aged : ByAge first (entered ++ checking)
  live : ∀ id, Table.get? id live = if id ∈ entered then some ⟨.queued, Progress.queued⟩ else Table.get? id shown

variable {first now last : Table JobId JobRecord} {shown live : LiveTable} {failed more failing entered checking : List JobId}
  {id : JobId} {record : JobRecord} {store : JobStore} {state : JobState} {fault : Option StoreFault}

theorem ByAge.congr {ids : List JobId} (aged : ByAge first ids) (same : ∀ id ∈ ids, Table.get? id now = Table.get? id first) :
    ByAge now ids := by
  refine List.Pairwise.imp_of_mem (fun {one other} memberOne memberOther younger => ?_) aged
  rwa [same one memberOne, same other memberOther]

theorem ByAge.left {ids rest : List JobId} (aged : ByAge first (ids ++ rest)) : ByAge first ids :=
  (List.pairwise_append.mp aged).1

/-- The records that a store lists are named by their ids, the oldest first. -/
theorem JobStore.Keyed.byAge {records : List JobRecord} (keyed : store.Keyed)
    (listed : store.listByState state fault = .ok records) : ByAge store.records (records.map JobRecord.id) := by
  have shape := JobStore.listByState_of_ok listed
  have inOrder : JobStore.InOrder records := by
    rw [shape]
    exact (JobStore.inOrder_oldestFirst keyed.distinct keyed.keyed).filter _
  have stands (record : JobRecord) (member : record ∈ records) : Table.get? record.id store.records = some record := by
    rw [shape] at member
    have inside := (List.mergeSort_perm _ _).mem_iff.mp (List.mem_of_mem_filter member)
    obtain ⟨⟨id, value⟩, entry, rfl⟩ := List.mem_map.mp inside
    have found := Table.get?_of_mem keyed.distinct entry
    rw [keyed.keyed found]
    exact found
  refine List.pairwise_map.mpr (inOrder.2.imp_of_mem fun {one other} memberOne memberOther younger => ?_)
  intro older later foundOlder foundLater
  obtain rfl := Option.some.inj ((stands one memberOne).symm.trans foundOlder)
  obtain rfl := Option.some.inj ((stands other memberOther).symm.trans foundLater)
  exact younger

theorem Mended.refl (records : Table JobId JobRecord) : Mended [] records records where
  ended id member := by simp at member
  kept _ _ := rfl

/-- A record that has failed as an orphan is restored to the same as the one that ran. -/
theorem JobRecord.restored_write (time : Time.Instant) (running : record.status = .running) :
    (record.write time (.fail World.orphanError)).restored = record.restored := by
  have ended : (record.write time (.fail World.orphanError)).status ≠ .running := by simp [write]
  rw [restored, restored, if_neg ended, if_pos running]
  rfl

/-- What is left of mended records after a recovery is what is left of the records that they come from. -/
theorem Mended.restored (mended : Mended failed first now) (id : JobId) :
    (Table.get? id now).map JobRecord.restored = (Table.get? id first).map JobRecord.restored := by
  by_cases member : id ∈ failed
  · obtain ⟨record, time, stood, running, stands⟩ := mended.ended id member
    rw [stood, stands, Option.map_some, Option.map_some, JobRecord.restored_write time running]
  · rw [mended.kept id member]

/-- Where no record runs, each record is restored, but for the time. -/
theorem untimed_of_settled (settled : ∀ id record, Table.get? id now = some record → record.status ≠ .running) (id : JobId) :
    (Table.get? id now).map JobRecord.untimed = (Table.get? id now).map JobRecord.restored := by
  cases found : Table.get? id now with
  | none => rfl
  | some record => rw [Option.map_some, Option.map_some, JobRecord.restored, if_neg (settled id record found)]

/-- A start that has listed the records that run has still to fail them all. -/
theorem failing_of_listed {records : List JobRecord} (keyed : store.Keyed)
    (listed : store.listByState .running fault = .ok records) :
    Failing store.records store.records [] (records.map JobRecord.id) :=
  ⟨keyed.lists listed, keyed.byAge listed, .refl _⟩

theorem Failing.apart (fails : Failing first now failed (id :: failing)) : id ∉ failed := by
  intro member
  exact (List.nodup_append.mp fails.ran.nodup).2.2 id member id List.mem_cons_self rfl

/-- The record that a start has still to fail runs. -/
theorem Failing.running (fails : Failing first now failed (id :: failing)) :
    ∃ record, Table.get? id now = some record ∧ record.status = .running := by
  rw [fails.mended.kept id fails.apart]
  exact (fails.ran.mem id).mp (by simp)

/-- A start goes on when it has failed one more record. -/
theorem Failing.fail (fails : Failing first now failed (id :: failing)) {before after : JobRecord} {time : Time.Instant}
    (found : Table.get? id now = some before) (applied : before.apply time (.fail World.orphanError) = .ok after) :
    Failing first (Table.insert id after now) (failed ++ [id]) failing := by
  obtain ⟨_, rfl⟩ := JobStore.apply_eq_ok applied
  refine ⟨?_, ?_, fun other member => ?_, fun other absent => ?_⟩
  · rw [List.append_assoc]
    exact fails.ran
  · rw [List.append_assoc]
    exact fails.aged
  · by_cases same : other = id
    · subst same
      obtain ⟨record, stands, running⟩ := fails.running
      obtain rfl := Option.some.inj (found.symm.trans stands)
      have stood : Table.get? other first = some before := (fails.mended.kept other fails.apart).symm.trans found
      exact ⟨before, time, stood, running, Table.get?_insert_self _ _ _⟩
    · have earlier : other ∈ failed := by simpa [same] using member
      rw [Table.get?_insert_of_ne same]
      exact fails.mended.ended other earlier
  · have differ : other ≠ id := fun same => absent (by simp [same])
    rw [Table.get?_insert_of_ne differ]
    exact fails.mended.kept other fun member => absent (List.mem_append_left _ member)

/-- When a start has failed all records that ran, no record runs. -/
theorem Failing.settled (fails : Failing first now failed []) (found : Table.get? id now = some record) :
    record.status ≠ .running := by
  intro running
  by_cases member : id ∈ failed
  · obtain ⟨before, time, _, _, stands⟩ := fails.mended.ended id member
    obtain rfl := Option.some.inj (stands.symm.trans found)
    simp [JobRecord.write] at running
  · rw [fails.mended.kept id member] at found
    exact member (by simpa using (fails.ran.mem id).mpr ⟨record, found, running⟩)

/-- The same records wait before and after a start has failed those that ran. -/
theorem Mended.waits_iff (mended : Mended failed first now) (id : JobId) :
    (∃ record, Table.get? id now = some record ∧ record.status = .queued) ↔
      ∃ record, Table.get? id first = some record ∧ record.status = .queued := by
  by_cases member : id ∈ failed
  · obtain ⟨record, time, stood, running, stands⟩ := mended.ended id member
    simp [stood, stands, running, JobRecord.write]
  · rw [mended.kept id member]

/-- A start that has listed the records that wait has still to check them all. -/
theorem entering_of_listed {records : List JobRecord} (keyed : store.Keyed) (mended : Mended failed first store.records)
    (listed : store.listByState .queued fault = .ok records) :
    Entering first shown shown [] (records.map JobRecord.id) := by
  have lists := keyed.lists listed
  have waits (id : JobId) (member : id ∈ records.map JobRecord.id) :
      ∃ record, Table.get? id first = some record ∧ record.status = .queued :=
    (mended.waits_iff id).mp ((lists.mem id).mp member)
  refine ⟨lists.nodup, waits, by simp, fun id record found queued _ => ?_, ?_, fun id => ?_⟩
  · exact (lists.mem id).mpr ((mended.waits_iff id).mpr ⟨record, found, queued⟩)
  · refine (keyed.byAge listed).congr fun id member => ?_
    refine (mended.kept id fun orphan => ?_).symm
    obtain ⟨before, _, stood, running, _⟩ := mended.ended id orphan
    obtain ⟨record, found, queued⟩ := waits id member
    obtain rfl := Option.some.inj (stood.symm.trans found)
    simp [running] at queued
  · rw [if_neg (by simp)]

theorem Entering.apart (enters : Entering first shown live entered (id :: checking)) : id ∉ entered := by
  intro member
  exact (List.nodup_append.mp enters.nodup).2.2 id member id List.mem_cons_self rfl

/-- A job that a start checks has a live entry when it had one before. -/
theorem Entering.unchanged (enters : Entering first shown live entered (id :: checking)) :
    Table.get? id live = Table.get? id shown := by
  rw [enters.live id, if_neg enters.apart]

/-- A start leaves a job out that has a live entry. -/
theorem Entering.skip (enters : Entering first shown live entered (id :: checking)) (taken : Table.get? id shown ≠ none) :
    Entering first shown live entered checking := by
  have fewer : List.Sublist (entered ++ checking) (entered ++ id :: checking) :=
    (List.Sublist.refl entered).append (List.sublist_cons_self id checking)
  refine ⟨enters.nodup.sublist fewer, fun other member => enters.waits other (fewer.subset member), enters.free,
    fun other record found queued free => ?_, enters.aged.sublist fewer, enters.live⟩
  have differ : other ≠ id := by
    rintro rfl
    exact taken free
  simpa [differ] using enters.all other record found queued free

/-- A start goes on when it has entered a job. -/
theorem Entering.enter (enters : Entering first shown live entered (id :: checking)) (free : Table.get? id shown = none) :
    Entering first shown (live.queued id) (entered ++ [id]) checking := by
  have same : entered ++ [id] ++ checking = entered ++ id :: checking := by simp
  refine ⟨same ▸ enters.nodup, same ▸ enters.waits, fun other member => ?_, same ▸ enters.all, same ▸ enters.aged,
    fun other => ?_⟩
  · rcases List.mem_append.mp member with before | now
    · exact enters.free other before
    · exact List.mem_singleton.mp now ▸ free
  · by_cases here : other = id
    · subst here
      rw [LiveTable.get?_queued_self, if_pos (by simp)]
    · rw [LiveTable.get?_queued_of_ne here, enters.live other]
      simp [here]

end ContractWorks

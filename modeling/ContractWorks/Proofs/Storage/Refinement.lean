import ContractWorks.Proofs.Storage.Spare
import Mathlib.Data.List.Forall2

namespace ContractWorks.JobStore

open Path (Plain place recordName spareName)

/-- An operation is a call of a job store, or its closing and opening again. -/
inductive Operation where
  | insert (id : JobId) (now : Time.Instant) (kind : JobKind) (input : JobInput)
  | get (id : JobId)
  | list
  | listByState (state : JobState)
  | transition (id : JobId) (transition : Transition) (now : Time.Instant)
  | reopen

/-- An outcome is what an operation is answered with. -/
inductive Outcome where
  | inserted (result : Except StoreError Unit)
  | found (result : Except StoreError (Option JobRecord))
  | listed (result : Except StoreError (List JobRecord))
  | moved (result : Except StoreError JobRecord)
  | reopened (result : Except StoreError Unit)

/-- This function performs an operation, whose writes may be kept from succeeding by a fault. -/
def perform (fault : Option StoreFault) (disk : Disk) (store : JobStore) :
    Operation → Disk × JobStore × Outcome
  | .insert id now kind input =>
    let (disk, store, result) := store.insert (.new id now kind input) fault disk
    (disk, store, .inserted result)
  | .get id => (disk, store, .found (store.get id fault))
  | .list => (disk, store, .listed (store.list fault))
  | .listByState state => (disk, store, .listed (store.listByState state fault))
  | .transition id transition now =>
    let (disk, store, result) := store.transition id transition now fault disk
    (disk, store, .moved result)
  | .reopen =>
    match store.reopen disk with
    | (disk, .ok store) => (disk, store, .reopened (.ok ()))
    | (disk, .error error) => (disk, store, .reopened (.error error))

/-- This function performs one operation after another and collects what they are answered with. -/
def performAll (disk : Disk) (store : JobStore) :
    List (Operation × Option StoreFault) → Disk × JobStore × List Outcome
  | [] => (disk, store, [])
  | (operation, fault) :: rest =>
    let (disk, store, outcome) := store.perform fault disk operation
    let (disk, store, outcomes) := performAll disk store rest
    (disk, store, outcome :: outcomes)

/-- This test holds of a result that reports a failure of the disk. -/
def isFailure {α : Type} : Except StoreError α → Bool
  | .error (.io _) => true
  | _ => false

/-- An outcome has failed when it reports a failure of the disk. -/
def Outcome.failed : Outcome → Bool
  | .inserted result => isFailure result
  | .found result => isFailure result
  | .listed result => isFailure result
  | .moved result => isFailure result
  | .reopened result => isFailure result

/-- A list of records is in order when each record stands in it once, and none behind a younger one. -/
def InOrder (records : List JobRecord) : Prop :=
  (records.map JobRecord.id).Nodup ∧
    records.Pairwise fun first second => first.createdAt.order ≤ second.createdAt.order

/-- An outcome is a refusal when it is an error of any kind. -/
def Outcome.refused : Outcome → Bool
  | .inserted result => !result.toBool
  | .found result => !result.toBool
  | .listed result => !result.toBool
  | .moved result => !result.toBool
  | .reopened result => !result.toBool

/-- Two outcomes agree when they are the same, or lists in order that differ only in how records of the same age
follow each other. -/
def Outcome.Agrees : Outcome → Outcome → Prop
  | .listed (.ok first), .listed (.ok second) => first.Perm second ∧ InOrder first
  | first, second => first = second

/-- This function leaves out the operations that have failed. -/
def succeeded (operations : List (Operation × Option StoreFault)) (outcomes : List Outcome) :
    List Operation :=
  ((operations.zip outcomes).filter fun entry => !entry.2.failed).map fun entry => entry.1.1

theorem succeeded_cons (operation : Operation) (fault : Option StoreFault)
    (operations : List (Operation × Option StoreFault)) (outcome : Outcome) (outcomes : List Outcome) :
    succeeded ((operation, fault) :: operations) (outcome :: outcomes) =
      if outcome.failed then succeeded operations outcomes
      else operation :: succeeded operations outcomes := by
  cases failed : outcome.failed <;> simp [succeeded, failed]

/-- The file store stands for a table when its cache holds the records of the table, and when those are the
records that can be decoded from the files of the directory. -/
structure StandsFor (directory : String) (disk : Disk) (store : JobStore)
    (table : Table JobId JobRecord) : Prop where
  cache : ∀ id, Table.get? id store.records = Table.get? id table
  files : ∀ name record,
    ((∃ names, disk.list directory = .ok names ∧ name ∈ names) ∧ Path.extension? name = some "json" ∧
        JsonFile.load JobRecord.decode (Path.join directory name) disk = .ok (some record)) ↔
      ∃ id, name = id ++ ".json" ∧ Table.get? id table = some record

/-- An operation names a new record plainly. -/
def Operation.NamesPlainly : Operation → Prop
  | .insert id _ _ _ => Plain id
  | _ => True

variable {directory : String} {disk next : Disk} {store other : JobStore}
  {table records : Table JobId JobRecord} {fault : Option StoreFault}

/-- The records that can be decoded from the files of a directory are those that the files mirror. -/
theorem Mirrors.files (mirrors : Mirrors directory records disk) (name : String) (record : JobRecord) :
    ((∃ names, disk.list directory = .ok names ∧ name ∈ names) ∧ Path.extension? name = some "json" ∧
        JsonFile.load JobRecord.decode (Path.join directory name) disk = .ok (some record)) ↔
      ∃ id, name = id ++ ".json" ∧ Table.get? id records = some record := by
  constructor
  · rintro ⟨⟨names, listed, member⟩, json, loaded⟩
    obtain ⟨file, rfl, _⟩ := (Disk.mem_list listed name).mp member
    obtain ⟨octets, standing⟩ := JsonFile.file_of_load loaded
    rw [Path.place_join_text] at standing
    obtain ⟨id, some, named⟩ := mirrors.known json standing
    obtain ⟨kept, found⟩ := Option.ne_none_iff_exists'.mp some
    have again := mirrors.load_some found
    rw [recordPath, ← named, loaded, Except.ok.injEq, Option.some.injEq] at again
    exact ⟨id, named, again ▸ found⟩
  · rintro ⟨id, rfl, found⟩
    obtain ⟨_, plain⟩ := mirrors.keyed found
    obtain ⟨names, listed⟩ := Disk.list_of_resolve mirrors.resolved mirrors.here
    obtain ⟨_, standing⟩ := Disk.read_eq_ok_iff.mp (mirrors.written found)
    rw [Path.place_recordPath directory plain] at standing
    refine ⟨⟨names, listed, (Disk.mem_list listed _).mpr ⟨recordName plain, rfl, ?_⟩⟩,
      Path.extension?_recordName plain, mirrors.load_some found⟩
    rw [standing]
    simp

theorem Mirrors.standsFor (mirrors : Mirrors directory records disk)
    (same : ∀ id, Table.get? id records = Table.get? id table) :
    StandsFor directory disk (.file directory records) table := by
  refine ⟨same, fun name record => ?_⟩
  rw [mirrors.files]
  exact exists_congr fun id => and_congr_right fun _ => by rw [same]

/-- This condition says that two tables hold the same records. -/
def Same (first second : Table JobId JobRecord) : Prop :=
  ∀ id, Table.get? id first = Table.get? id second

theorem Same.insert {first second : Table JobId JobRecord} (same : Same first second) (id : JobId)
    (record : JobRecord) : Same (Table.insert id record first) (Table.insert id record second) := by
  intro other
  by_cases here : other = id
  · subst here
    rw [Table.get?_insert_self, Table.get?_insert_self]
  · rw [Table.get?_insert_of_ne here, Table.get?_insert_of_ne here, same]

/-- Records of the same tables are the same up to their order. -/
theorem Same.perm {first second : Table JobId JobRecord} (same : Same first second)
    (distinctFirst : Table.Distinct first) (distinctSecond : Table.Distinct second) :
    (oldestFirst (first.map Prod.snd)).Perm (oldestFirst (second.map Prod.snd)) := by
  have entries := (Table.perm_of_get? distinctFirst distinctSecond same).map Prod.snd
  exact ((List.mergeSort_perm _ _).trans entries).trans (List.mergeSort_perm _ _).symm

/-- What is listed is in order. -/
theorem inOrder_oldestFirst (distinct : Table.Distinct records)
    (keyed : ∀ {id record}, Table.get? id records = some record → record.id = id) :
    InOrder (oldestFirst (records.map Prod.snd)) := by
  constructor
  · have ids : (records.map Prod.snd).map JobRecord.id = records.map Prod.fst := by
      rw [List.map_map]
      apply List.map_congr_left
      intro entry member
      exact keyed (Table.get?_of_mem distinct member)
    have perm := (List.mergeSort_perm (records.map Prod.snd)
      fun first second => first.createdAt.order ≤ second.createdAt.order).map JobRecord.id
    rw [oldestFirst]
    exact perm.nodup_iff.mpr (ids ▸ distinct)
  · have trans : ∀ first second third : JobRecord,
        decide (first.createdAt.order ≤ second.createdAt.order) = true →
          decide (second.createdAt.order ≤ third.createdAt.order) = true →
            decide (first.createdAt.order ≤ third.createdAt.order) = true := by
      intro first second third former latter
      rw [decide_eq_true_eq] at former latter ⊢
      exact Int.le_trans former latter
    have total : ∀ first second : JobRecord,
        (decide (first.createdAt.order ≤ second.createdAt.order) ||
          decide (second.createdAt.order ≤ first.createdAt.order)) = true := by
      intro first second
      rw [Bool.or_eq_true, decide_eq_true_eq, decide_eq_true_eq]
      exact Int.le_total _ _
    have sorted := List.pairwise_mergeSort trans total (records.map Prod.snd)
    exact sorted.imp fun older => by simpa using older

theorem InOrder.filter {listed : List JobRecord} (inOrder : InOrder listed) (keep : JobRecord → Bool) :
    InOrder (listed.filter keep) :=
  ⟨inOrder.1.sublist (List.filter_sublist.map JobRecord.id), inOrder.2.sublist List.filter_sublist⟩

/-- An operation is matched when it has failed and has left a file store with the records of a table, or when the
store in memory over that table answers it in the same way and has the same records afterwards. -/
def Matched (table : Table JobId JobRecord) (operation : Operation) (outcome : Outcome)
    (after : Table JobId JobRecord) : Prop :=
  (outcome.failed = true ∧ Same after table) ∨
    (outcome.failed = false ∧ ∃ changed answer, Table.Distinct changed ∧ Same after changed ∧
      outcome.Agrees answer ∧
        ∀ disk, (JobStore.memory table).perform none disk operation = (disk, .memory changed, answer))

theorem matched_insert (same : Same records table) (distinct : Table.Distinct table) {id : JobId}
    {now : Time.Instant} {kind : JobKind} {input : JobInput} {result : Except StoreError Unit}
    (done : (JobStore.file directory records).insert (.new id now kind input) fault disk =
      (next, store, result)) :
    Matched table (.insert id now kind input) (.inserted result) store.records := by
  have key : (JobRecord.new id now kind input).id = id := rfl
  rcases insert_cases done with ⟨rfl, free, rfl⟩ | ⟨rfl, ⟨text, rfl⟩ | ⟨rfl, taken⟩⟩
  · refine .inr ⟨rfl, Table.insert id (.new id now kind input) table, .inserted (.ok ()),
      distinct.insert _ _, ?_, rfl, fun disk => ?_⟩
    · rw [records_withRecords]
      exact same.insert id _
    · have missing : Table.get? id table = none := (same id).symm.trans free
      simp [perform, JobStore.insert, JobStore.put, withRecords, JobStore.records, key, missing]
  · exact .inl ⟨rfl, same⟩
  · refine .inr ⟨rfl, table, .inserted (.error (.duplicate id)), distinct, same, rfl, fun disk => ?_⟩
    have some : (Table.get? id table).isSome = true := by
      rw [← same id, Option.isSome_iff_ne_none]
      exact taken
    simp [perform, JobStore.insert, JobStore.records, key, some]

theorem matched_transition (same : Same records table) (distinct : Table.Distinct table) {id : JobId}
    {now : Time.Instant} {transition : Transition} {result : Except StoreError JobRecord}
    (done : (JobStore.file directory records).transition id transition now fault disk =
      (next, store, result)) :
    Matched table (.transition id transition now) (.moved result) store.records := by
  rcases transition_cases done with
    ⟨before, after, found, applied, rfl, rfl⟩ |
      ⟨rfl, ⟨text, rfl⟩ | ⟨rfl, missing⟩ | ⟨before, refusal, found, refused, rfl⟩⟩
  · refine .inr ⟨rfl, Table.insert id after table, .moved (.ok after), distinct.insert _ _, ?_, rfl,
      fun disk => ?_⟩
    · rw [records_withRecords]
      exact same.insert id _
    · have there : Table.get? id table = some before := (same id).symm.trans found
      simp [perform, JobStore.transition, JobStore.put, withRecords, JobStore.records, there, applied]
  · exact .inl ⟨rfl, same⟩
  · refine .inr ⟨rfl, table, .moved (.error (.notFound id)), distinct, same, rfl, fun disk => ?_⟩
    have none : Table.get? id table = none := (same id).symm.trans missing
    simp [perform, JobStore.transition, JobStore.records, none]
  · refine .inr ⟨rfl, table, .moved (.error (.invalidTransition refusal)), distinct, same, rfl,
      fun disk => ?_⟩
    have there : Table.get? id table = some before := (same id).symm.trans found
    simp [perform, JobStore.transition, JobStore.records, there, refused]

theorem matched_get (same : Same records table) (distinct : Table.Distinct table) (id : JobId) :
    Matched table (.get id) (.found ((JobStore.file directory records).get id fault)) records := by
  rw [JobStore.get.eq_def]
  split
  · exact .inl ⟨rfl, same⟩
  · refine .inr ⟨rfl, table, .found (.ok (Table.get? id table)), distinct, same, ?_, fun _ => rfl⟩
    exact congrArg (fun found => Outcome.found (.ok found)) (same id)

theorem matched_list (mirrors : Mirrors directory records disk) (same : Same records table)
    (distinct : Table.Distinct table) :
    Matched table .list (.listed ((JobStore.file directory records).list fault)) records := by
  rw [JobStore.list.eq_def]
  split
  · exact .inl ⟨rfl, same⟩
  · exact .inr ⟨rfl, table, .listed (.ok (oldestFirst (table.map Prod.snd))), distinct, same,
      ⟨same.perm mirrors.distinct distinct,
        inOrder_oldestFirst mirrors.distinct fun found => (mirrors.keyed found).1⟩, fun _ => rfl⟩

theorem matched_listByState (mirrors : Mirrors directory records disk) (same : Same records table)
    (distinct : Table.Distinct table) (state : JobState) :
    Matched table (.listByState state)
      (.listed ((JobStore.file directory records).listByState state fault)) records := by
  rw [JobStore.listByState, JobStore.list.eq_def]
  split
  · exact .inl ⟨rfl, same⟩
  · have inOrder := inOrder_oldestFirst mirrors.distinct fun found => (mirrors.keyed found).1
    exact .inr ⟨rfl, table,
      .listed (.ok ((oldestFirst (table.map Prod.snd)).filter fun record => record.status = state)),
      distinct, same, ⟨(same.perm mirrors.distinct distinct).filter _, inOrder.filter _⟩, fun _ => rfl⟩

/-- One operation on a file store is matched, and its files mirror its records afterwards. -/
theorem perform_matched (mirrors : Mirrors directory records disk) (same : Same records table)
    (distinct : Table.Distinct table) {operation : Operation} (plain : operation.NamesPlainly)
    {outcome : Outcome}
    (done : (JobStore.file directory records).perform fault disk operation = (next, store, outcome)) :
    ∃ after, store = .file directory after ∧ Mirrors directory after next ∧
      Matched table operation outcome after := by
  have sound : (JobStore.file directory records).Sound disk := mirrors
  cases operation with
  | insert id now kind input =>
    rcases stored : (JobStore.file directory records).insert (.new id now kind input) fault disk with
      ⟨disk', store', result⟩
    simp only [perform, stored, Prod.mk.injEq] at done
    obtain ⟨rfl, rfl, rfl⟩ := done
    have plainId : Plain (JobRecord.new id now kind input).id := plain
    have mirrored := sound.insert plainId stored
    have matched := matched_insert same distinct stored
    rcases insert_cases stored with ⟨_, _, rfl⟩ | ⟨rfl, _⟩
    · exact ⟨_, rfl, mirrored, matched⟩
    · exact ⟨_, rfl, mirrored, matched⟩
  | transition id transition now =>
    rcases stored : (JobStore.file directory records).transition id transition now fault disk with
      ⟨disk', store', result⟩
    simp only [perform, stored, Prod.mk.injEq] at done
    obtain ⟨rfl, rfl, rfl⟩ := done
    have mirrored := sound.transition stored
    have matched := matched_transition same distinct stored
    rcases transition_cases stored with ⟨_, _, _, _, _, rfl⟩ | ⟨rfl, _⟩
    · exact ⟨_, rfl, mirrored, matched⟩
    · exact ⟨_, rfl, mirrored, matched⟩
  | get id =>
    simp only [perform, Prod.mk.injEq] at done
    obtain ⟨rfl, rfl, rfl⟩ := done
    exact ⟨records, rfl, mirrors, matched_get same distinct id⟩
  | list =>
    simp only [perform, Prod.mk.injEq] at done
    obtain ⟨rfl, rfl, rfl⟩ := done
    exact ⟨records, rfl, mirrors, matched_list mirrors same distinct⟩
  | listByState state =>
    simp only [perform, Prod.mk.injEq] at done
    obtain ⟨rfl, rfl, rfl⟩ := done
    exact ⟨records, rfl, mirrors, matched_listByState mirrors same distinct state⟩
  | reopen =>
    obtain ⟨again, opened, mirrored, kept⟩ := mirrors.openAt
    simp only [perform, JobStore.reopen, opened, Prod.mk.injEq] at done
    obtain ⟨rfl, rfl, rfl⟩ := done
    exact ⟨again, rfl, mirrored, .inr ⟨rfl, table, .reopened (.ok ()), distinct,
      fun id => (kept id).trans (same id), rfl, fun _ => rfl⟩⟩

/-- All operations on a file store are answered as those that have not failed are answered in memory, and both
stores have the same records afterwards. -/
theorem performAll_matched {operations : List (Operation × Option StoreFault)} :
    ∀ {disk next : Disk} {records table : Table JobId JobRecord} {store : JobStore} {outcomes : List Outcome},
      Mirrors directory records disk → Same records table → Table.Distinct table →
        (∀ operation ∈ operations, operation.1.NamesPlainly) →
          performAll disk (.file directory records) operations = (next, store, outcomes) →
            ∃ after changed answers, store = .file directory after ∧ Mirrors directory after next ∧
              Same after changed ∧
                List.Forall₂ Outcome.Agrees (outcomes.filter fun outcome => !outcome.failed) answers ∧
                  ∀ disk, performAll disk (.memory table)
                    ((succeeded operations outcomes).map fun operation => (operation, none)) =
                      (disk, .memory changed, answers) := by
  induction operations with
  | nil =>
    intro disk next records table store outcomes mirrors same distinct _ done
    obtain ⟨rfl, rfl, rfl⟩ := by simpa [performAll] using done
    exact ⟨records, table, [], rfl, mirrors, same, .nil, fun _ => rfl⟩
  | cons entry rest inductionHypothesis =>
    intro disk next records table store outcomes mirrors same distinct plain done
    obtain ⟨operation, fault⟩ := entry
    rcases first : (JobStore.file directory records).perform fault disk operation with
      ⟨disk', store', outcome⟩
    rcases others : performAll disk' store' rest with ⟨disk'', store'', outcomes'⟩
    simp only [performAll, first, others, Prod.mk.injEq] at done
    obtain ⟨rfl, rfl, rfl⟩ := done
    have plainRest : ∀ operation ∈ rest, operation.1.NamesPlainly :=
      fun operation member => plain operation (List.mem_cons_of_mem _ member)
    obtain ⟨middle, rfl, mirrored, matched⟩ :=
      perform_matched mirrors same distinct (plain _ List.mem_cons_self) first
    rcases matched with
      ⟨failed, kept⟩ | ⟨succeeds, changed, answer, distinct', same', agrees, inMemory⟩
    · obtain ⟨after, final, answers, rfl, last, equal, agree, reference⟩ :=
        inductionHypothesis mirrored kept distinct plainRest others
      refine ⟨after, final, answers, rfl, last, equal, ?_, ?_⟩
      · simpa [List.filter_cons, failed] using agree
      · rw [succeeded_cons, if_pos failed]
        exact reference
    · obtain ⟨after, final, answers, rfl, last, equal, agree, reference⟩ :=
        inductionHypothesis mirrored same' distinct' plainRest others
      refine ⟨after, final, answer :: answers, rfl, last, equal, ?_, fun disk => ?_⟩
      · simpa [List.filter_cons, succeeds] using ⟨agrees, agree⟩
      · rw [succeeded_cons, if_neg (by simp [succeeds]), List.map_cons, performAll, inMemory disk]
        simp only [reference disk]

/-- An operation that is refused leaves the records of a file store and what its files mirror as they are. -/
theorem perform_refused (mirrors : Mirrors directory records disk) {operation : Operation}
    (plain : operation.NamesPlainly) {outcome : Outcome}
    (done : (JobStore.file directory records).perform fault disk operation = (next, store, outcome))
    (refused : outcome.refused = true) :
    store = .file directory records ∧ Mirrors directory records next := by
  have sound : (JobStore.file directory records).Sound disk := mirrors
  cases operation with
  | insert id now kind input =>
    rcases stored : (JobStore.file directory records).insert (.new id now kind input) fault disk with
      ⟨disk', store', result⟩
    simp only [perform, stored, Prod.mk.injEq] at done
    obtain ⟨rfl, rfl, rfl⟩ := done
    have plainId : Plain (JobRecord.new id now kind input).id := plain
    have mirrored := sound.insert plainId stored
    rcases insert_cases stored with ⟨rfl, _⟩ | ⟨rfl, _⟩
    · simp [Outcome.refused, Except.toBool] at refused
    · exact ⟨rfl, mirrored⟩
  | transition id transition now =>
    rcases stored : (JobStore.file directory records).transition id transition now fault disk with
      ⟨disk', store', result⟩
    simp only [perform, stored, Prod.mk.injEq] at done
    obtain ⟨rfl, rfl, rfl⟩ := done
    have mirrored := sound.transition stored
    rcases transition_cases stored with ⟨_, _, _, _, rfl, _⟩ | ⟨rfl, _⟩
    · simp [Outcome.refused, Except.toBool] at refused
    · exact ⟨rfl, mirrored⟩
  | get id =>
    simp only [perform, Prod.mk.injEq] at done
    obtain ⟨rfl, rfl, _⟩ := done
    exact ⟨rfl, mirrors⟩
  | list =>
    simp only [perform, Prod.mk.injEq] at done
    obtain ⟨rfl, rfl, _⟩ := done
    exact ⟨rfl, mirrors⟩
  | listByState state =>
    simp only [perform, Prod.mk.injEq] at done
    obtain ⟨rfl, rfl, _⟩ := done
    exact ⟨rfl, mirrors⟩
  | reopen =>
    obtain ⟨again, opened, _⟩ := mirrors.openAt
    simp only [perform, JobStore.reopen, opened, Prod.mk.injEq] at done
    obtain ⟨_, _, rfl⟩ := done
    simp [Outcome.refused, Except.toBool] at refused

/-- A directory has room for a job when the path of its file is not too long and has no zero in it. -/
def HasRoom (directory : String) (id : JobId) : Prop :=
  '\x00' ∉ id.toList ∧ id.utf8ByteSize + 5 ≤ 255 ∧ directory.utf8ByteSize + id.utf8ByteSize + 6 ≤ 4095

/-- A short name of no zero leads to a place of its own in a directory. -/
theorem Mirrors.resolve_join (mirrors : Mirrors directory records disk) (name : FileName)
    (zero : '\x00' ∉ name.text.toList) (fits : Disk.fits name = true)
    (short : directory.utf8ByteSize + name.text.utf8ByteSize + 1 ≤ 4095) :
    disk.resolve (Path.join directory name.text) = .ok (place (Path.join directory name.text)) :=
  Disk.resolve_join name mirrors.resolved mirrors.here zero fits short

/-- Where there is room, a record can be put as long as no directory stands in its way. -/
theorem Mirrors.put_of_room (mirrors : Mirrors directory records disk) {id : JobId} (plain : Plain id)
    (room : HasRoom directory id)
    (free : ∀ name : FileName, disk.at? (place directory ++ [name]) ≠ some .directory)
    (record : JobRecord) :
    ∃ next store, (JobStore.file directory records).put id record none disk = (next, store, .ok ()) := by
  obtain ⟨zero, fits, short⟩ := room
  have json : ".json".utf8ByteSize = 5 := by decide
  have tmp : ".tmp".utf8ByteSize = 4 := by decide
  have size : (recordName plain).text.utf8ByteSize = id.utf8ByteSize + 5 := by
    rw [recordName, String.utf8ByteSize_append, json]
  have sizeSpare : (spareName plain).text.utf8ByteSize = id.utf8ByteSize + 4 := by
    rw [spareName, String.utf8ByteSize_append, tmp]
  have resolved := mirrors.resolve_join (recordName plain)
    (by rw [recordName, String.toList_append, List.mem_append, not_or]; exact ⟨zero, by decide⟩)
    (by rw [Disk.fits, size]; simpa using fits) (by omega)
  have resolvedSpare := mirrors.resolve_join (spareName plain)
    (by rw [spareName, String.toList_append, List.mem_append, not_or]; exact ⟨zero, by decide⟩)
    (by rw [Disk.fits, sizeSpare]; simp only [decide_eq_true_eq]; omega) (by omega)
  have path : recordPath directory id = Path.join directory (recordName plain).text := rfl
  have spare := Path.temporary_recordPath directory plain
  have saves : ∃ next, JsonFile.save (recordPath directory id) record.encode none disk = (next, .ok ()) :=
    JsonFile.save_of_resolve record.encode resolved (spare ▸ resolvedSpare)
      (by rw [Path.place_recordPath directory plain]; exact free _)
      (by rw [Path.place_temporary directory plain]; exact free _)
      (by rw [Path.place_recordPath directory plain, List.dropLast_concat]; exact mirrors.here)
      (by rw [Path.place_temporary directory plain, List.dropLast_concat]; exact mirrors.here)
  obtain ⟨next, saved⟩ := saves
  refine ⟨next, (JobStore.file directory records).withRecords (Table.insert id record records), ?_⟩
  simp only [JobStore.put, saved, JobStore.records]

/-- Putting a record makes no directory. -/
theorem put_added {id : JobId} {record : JobRecord} {result : Except StoreError Unit}
    (done : (JobStore.file directory records).put id record fault disk = (next, store, result))
    {other : Place} (here : next.at? other = some .directory) : disk.at? other = some .directory := by
  simp only [put] at done
  split at done
  · next saved =>
    obtain ⟨rfl, _⟩ := by simpa using done
    exact (JsonFile.save_ok saved).1.added other here
  · next error saved =>
    obtain ⟨rfl, _⟩ := by simpa using done
    exact (JsonFile.save_error saved).2.1.added other here

/-- Without a fault, an insertion does not report a failure of the disk. -/
theorem insert_ne_failure (mirrors : Mirrors directory records disk)
    (free : ∀ name : FileName, disk.at? (place directory ++ [name]) ≠ some .directory)
    {record : JobRecord} (plain : Plain record.id) (room : HasRoom directory record.id)
    {result : Except StoreError Unit}
    (done : (JobStore.file directory records).insert record none disk = (next, store, result))
    (text : String) : result ≠ .error (.io text) := by
  obtain ⟨written, kept, put⟩ := mirrors.put_of_room plain room free record
  simp only [JobStore.insert, put] at done
  split at done
  · obtain ⟨_, _, rfl⟩ := by simpa using done
    simp
  · obtain ⟨_, _, rfl⟩ := by simpa using done
    simp

/-- Without a fault, a transition does not report a failure of the disk. -/
theorem transition_ne_failure (mirrors : Mirrors directory records disk)
    (free : ∀ name : FileName, disk.at? (place directory ++ [name]) ≠ some .directory)
    {id : JobId} (room : HasRoom directory id) {transition : Transition} {now : Time.Instant}
    {result : Except StoreError JobRecord}
    (done : (JobStore.file directory records).transition id transition now none disk =
      (next, store, result))
    (text : String) : result ≠ .error (.io text) := by
  rintro rfl
  rcases transition_cases done with ⟨_, _, _, _, ok, _⟩ | ⟨_, _⟩
  · simp at ok
  · rw [JobStore.transition.eq_def] at done
    simp only at done
    split at done
    · simp at done
    · next before found =>
      obtain ⟨_, plain⟩ := mirrors.keyed found
      split at done
      · simp at done
      · next after _ =>
        obtain ⟨written, kept, put⟩ := mirrors.put_of_room plain room free after
        simp [put] at done

/-- An operation has room when the file of the record that it writes has. -/
def Operation.HasRoom (directory : String) : Operation → Prop
  | .insert id _ _ _ => JobStore.HasRoom directory id
  | .transition id _ _ => JobStore.HasRoom directory id
  | _ => True

/-- An operation fails only through a fault, and makes no directory. -/
theorem perform_unfailing (mirrors : Mirrors directory records disk)
    (free : ∀ name : FileName, disk.at? (place directory ++ [name]) ≠ some .directory)
    {operation : Operation} (plain : operation.NamesPlainly) (room : operation.HasRoom directory)
    {outcome : Outcome}
    (done : (JobStore.file directory records).perform fault disk operation = (next, store, outcome)) :
    (fault = none → outcome.failed = false) ∧
      ∀ name : FileName, next.at? (place directory ++ [name]) ≠ some .directory := by
  cases operation with
  | insert id now kind input =>
    rcases stored : (JobStore.file directory records).insert (.new id now kind input) fault disk with
      ⟨disk', store', result⟩
    simp only [perform, stored, Prod.mk.injEq] at done
    obtain ⟨rfl, rfl, rfl⟩ := done
    constructor
    · rintro rfl
      rcases insert_cases stored with ⟨rfl, _⟩ | ⟨_, ⟨text, rfl⟩ | ⟨rfl, _⟩⟩
      · rfl
      · have plainId : Plain (JobRecord.new id now kind input).id := plain
        exact absurd rfl (insert_ne_failure mirrors free plainId room stored text)
      · rfl
    · rcases insert_disk stored with ⟨rfl, _⟩ | put
      · exact free
      · exact fun name here => free name (put_added put here)
  | transition id transition now =>
    rcases stored : (JobStore.file directory records).transition id transition now fault disk with
      ⟨disk', store', result⟩
    simp only [perform, stored, Prod.mk.injEq] at done
    obtain ⟨rfl, rfl, rfl⟩ := done
    constructor
    · rintro rfl
      rcases transition_cases stored with
        ⟨_, _, _, _, rfl, _⟩ | ⟨_, ⟨text, rfl⟩ | ⟨rfl, _⟩ | ⟨_, _, _, _, rfl⟩⟩
      · rfl
      · exact absurd rfl (transition_ne_failure mirrors free room stored text)
      · rfl
      · rfl
    · rcases transition_disk stored with ⟨rfl, _⟩ | ⟨_, _, _, _, _, put, _⟩
      · exact free
      · exact fun name here => free name (put_added put here)
  | get id =>
    simp only [perform, Prod.mk.injEq] at done
    obtain ⟨rfl, rfl, rfl⟩ := done
    exact ⟨by rintro rfl; rfl, free⟩
  | list =>
    simp only [perform, Prod.mk.injEq] at done
    obtain ⟨rfl, rfl, rfl⟩ := done
    exact ⟨by rintro rfl; rfl, free⟩
  | listByState state =>
    simp only [perform, Prod.mk.injEq] at done
    obtain ⟨rfl, rfl, rfl⟩ := done
    exact ⟨by rintro rfl; rfl, free⟩
  | reopen =>
    obtain ⟨again, opened, _⟩ := mirrors.openAt
    simp only [perform, JobStore.reopen, opened, Prod.mk.injEq] at done
    obtain ⟨rfl, rfl, rfl⟩ := done
    exact ⟨fun _ => rfl, free⟩

/-- Operations fail only through faults. -/
theorem performAll_unfailing {operations : List (Operation × Option StoreFault)} :
    ∀ {disk next : Disk} {records : Table JobId JobRecord} {store : JobStore} {outcomes : List Outcome},
      Mirrors directory records disk →
        (∀ name : FileName, disk.at? (place directory ++ [name]) ≠ some .directory) →
          (∀ operation ∈ operations, operation.1.NamesPlainly ∧ operation.1.HasRoom directory) →
            performAll disk (.file directory records) operations = (next, store, outcomes) →
              ∀ entry ∈ operations.zip outcomes, entry.1.2 = none → entry.2.failed = false := by
  induction operations with
  | nil =>
    intro disk next records store outcomes _ _ _ _ entry member
    simp at member
  | cons operation rest inductionHypothesis =>
    intro disk next records store outcomes mirrors free able done entry member
    obtain ⟨operation, fault⟩ := operation
    rcases first : (JobStore.file directory records).perform fault disk operation with
      ⟨disk', store', outcome⟩
    rcases others : performAll disk' store' rest with ⟨disk'', store'', outcomes'⟩
    simp only [performAll, first, others, Prod.mk.injEq] at done
    obtain ⟨rfl, rfl, rfl⟩ := done
    obtain ⟨plain, room⟩ := able _ List.mem_cons_self
    obtain ⟨after, rfl, mirrored, _⟩ := perform_matched mirrors (fun _ => rfl) mirrors.distinct plain first
    obtain ⟨unfailing, free'⟩ := perform_unfailing mirrors free plain room first
    rw [List.zip_cons_cons] at member
    rcases List.mem_cons.mp member with rfl | later
    · exact unfailing
    · exact inductionHypothesis mirrored free'
        (fun operation member => able operation (List.mem_cons_of_mem _ member)) others entry later

/-- The file store refines the one in memory. Of any operations on a store that was opened in an empty directory,
those that have not failed are answered as the store in memory answers them when it is given no others; the records
in the cache and in the files are then those in memory, and one more operation that is refused leaves them so. No
operation fails without a fault where there is room. -/
theorem file_refines_memory {dataDirectory : String} {before disk next : Disk} {store other : JobStore}
    (opened : JobStore.openBelow dataDirectory before = (disk, .ok store))
    (empty : disk.list (Path.join dataDirectory "jobs") = .ok [])
    {operations : List (Operation × Option StoreFault)} {outcomes : List Outcome}
    (plain : ∀ operation ∈ operations, operation.1.NamesPlainly)
    (done : performAll disk store operations = (next, other, outcomes)) :
    (∃ table answers,
      performAll disk (.memory []) ((succeeded operations outcomes).map fun operation => (operation, none)) =
          (disk, .memory table, answers) ∧
        List.Forall₂ Outcome.Agrees (outcomes.filter fun outcome => !outcome.failed) answers ∧
          StandsFor (Path.join dataDirectory "jobs") next other table ∧
            ∀ fault operation last final outcome, operation.NamesPlainly →
              other.perform fault next operation = (last, final, outcome) → outcome.refused = true →
                StandsFor (Path.join dataDirectory "jobs") last final table) ∧
      ((∀ operation ∈ operations, operation.1.HasRoom (Path.join dataDirectory "jobs")) →
        ∀ entry ∈ operations.zip outcomes, entry.1.2 = none → entry.2.failed = false) := by
  have bare : ∀ name : FileName, disk.at? (place (Path.join dataDirectory "jobs") ++ [name]) = none := by
    intro name
    by_cases none : disk.at? (place (Path.join dataDirectory "jobs") ++ [name]) = none
    · exact none
    · have listed := (Disk.mem_list empty name.text).mpr ⟨name, rfl, none⟩
      simp at listed
  obtain ⟨rfl, mirrors⟩ := openAt_empty opened bare
  constructor
  · obtain ⟨after, table, answers, rfl, mirrored, same, agree, reference⟩ :=
      performAll_matched mirrors (fun _ => rfl) Table.distinct_nil plain done
    refine ⟨table, answers, reference disk, agree, mirrored.standsFor same, ?_⟩
    intro fault operation last final outcome named did refused
    obtain ⟨rfl, kept⟩ := perform_refused mirrored named did refused
    exact kept.standsFor same
  · intro room
    exact performAll_unfailing mirrors (fun name => by rw [bare]; simp)
      (fun operation member => ⟨plain operation member, room operation member⟩) done

/-- This is the name of a data directory. -/
def dataFolder : FileName :=
  ⟨"data", by decide⟩

/-- This disk holds the directory of a store and nothing else. -/
def bareDisk : Disk :=
  ⟨[([dataFolder], .directory), ([dataFolder, folder], .directory)]⟩

theorem list_bareDisk : bareDisk.list (Path.join "data" "jobs") = .ok [] := by
  have names : bareDisk.list (Path.join "data" "jobs") =
      .ok (([] : List String).mergeSort fun first second => decide (first ≤ second)) := by rfl
  rw [names, List.mergeSort_nil]

theorem openBelow_bareDisk :
    JobStore.openBelow "data" .empty = (bareDisk, .ok (.file (Path.join "data" "jobs") [])) := by
  have made : Disk.empty.makeDirectories (Path.join "data" "jobs") = .ok bareDisk := by rfl
  rw [JobStore.openBelow, JobStore.openAt, made]
  simp only [JobStore.load, list_bareDisk, List.foldl_nil]

/-- These operations add two jobs, the second one only after its file could not be moved into place, and start the
first one after the store was opened once more. -/
def twoJobs : List (Operation × Option StoreFault) :=
  let input : JobInput := { source := "contract Token {}", contractName := "Token" }
  [(.insert "first" .sample .evm input, none), (.insert "second" .sample .evm input, some .move),
    (.insert "second" .sample .evm input, none), (.reopen, none),
    (.transition "first" .start .sample, some .write), (.transition "first" .start .sample, none), (.list, none)]

theorem file_refines_memory_twoJobs :
    (∀ operation ∈ twoJobs,
        operation.1.NamesPlainly ∧ operation.1.HasRoom (Path.join "data" "jobs")) ∧
      ∃ next store outcomes, performAll bareDisk (.file (Path.join "data" "jobs") []) twoJobs =
          (next, store, outcomes) ∧
        (∃ table answers,
          performAll bareDisk (.memory [])
              ((succeeded twoJobs outcomes).map fun operation => (operation, none)) =
            (bareDisk, .memory table, answers) ∧
              StandsFor (Path.join "data" "jobs") next store table) ∧
          ∀ entry ∈ twoJobs.zip outcomes, entry.1.2 = none → entry.2.failed = false := by
  have able : ∀ operation ∈ twoJobs,
      operation.1.NamesPlainly ∧ operation.1.HasRoom (Path.join "data" "jobs") := by
    have plain : Plain "first" ∧ Plain "second" := by
      constructor <;> exact ⟨by decide, by decide⟩
    have room : HasRoom (Path.join "data" "jobs") "first" ∧ HasRoom (Path.join "data" "jobs") "second" := by
      constructor <;> exact ⟨by decide, by decide, by decide⟩
    simp [twoJobs, Operation.NamesPlainly, Operation.HasRoom, plain, room]
  have plain : ∀ operation ∈ twoJobs, operation.1.NamesPlainly :=
    fun operation member => (able operation member).1
  obtain ⟨⟨table, answers, reference, _, stands, _⟩, unfailing⟩ :=
    file_refines_memory openBelow_bareDisk list_bareDisk plain rfl
  exact ⟨able, _, _, _, rfl, ⟨table, answers, reference, stands⟩,
    unfailing fun operation member => (able operation member).2⟩

end ContractWorks.JobStore

import ContractWorks.Proofs.Storage.Edit
import ContractWorks.Proofs.Storage.Spare
import ContractWorks.Service.Config

namespace ContractWorks

open Path (Plain place)

/-- This function hides the cause of a failure that is not the client's. -/
def ErrorRecord.masked (error : ErrorRecord) : ErrorRecord :=
  if error.code = .infra then .infra else error

theorem ErrorRecord.masked_masked (error : ErrorRecord) : error.masked.masked = error.masked := by
  by_cases infra : error.code = .infra
  · simp [masked, infra, ErrorRecord.infra]
  · simp [masked, infra]

/-- This function hides such a cause where a job fails. -/
def Transition.masked : Transition → Transition
  | .fail error => .fail error.masked
  | transition => transition

@[simp] theorem Transition.target_masked (transition : Transition) : transition.masked.target = transition.target := by
  cases transition <;> rfl

theorem Transition.masked_masked (transition : Transition) : transition.masked.masked = transition.masked := by
  cases transition with
  | fail error => exact congrArg Transition.fail error.masked_masked
  | _ => rfl

namespace JobRecord

/-- This function hides such a cause in the record of a job. -/
def masked (record : JobRecord) : JobRecord :=
  { record with error := record.error.map ErrorRecord.masked }

variable (record : JobRecord)

@[simp] theorem id_masked : record.masked.id = record.id := rfl

@[simp] theorem status_masked : record.masked.status = record.status := rfl

@[simp] theorem artifactId_masked : record.masked.artifactId = record.artifactId := rfl

@[simp] theorem error_masked : record.masked.error = record.error.map ErrorRecord.masked := rfl

theorem masked_masked : record.masked.masked = record.masked := by
  simp [masked, ErrorRecord.masked_masked, Function.comp_def]

theorem write_masked (now : Time.Instant) (transition : Transition) :
    record.masked.write now transition.masked = (record.write now transition).masked := by
  cases transition <;> rfl

/-- What a step does to a record does not depend on what is hidden. -/
theorem apply_masked (now : Time.Instant) (transition : Transition) :
    record.masked.apply now transition.masked = (record.apply now transition).map masked := by
  rw [apply, apply, status_masked, Transition.target_masked, write_masked]
  split <;> rfl

/-- This function hides such a cause in a file that holds a record. -/
def maskedContent (content : ByteArray) : ByteArray :=
  match String.fromUTF8? content with
  | none => content
  | some text =>
    match decode (Draft.read text) with
    | .ok record => JsonFile.content record.masked.encode
    | .error _ => content

theorem maskedContent_encode :
    maskedContent (JsonFile.content record.encode) = JsonFile.content record.masked.encode := by
  rw [maskedContent, JsonFile.content, Text.Utf8.fromUTF8?_toUTF8]
  simp only [record.decode_read_indented]

theorem maskedContent_maskedContent (content : ByteArray) :
    maskedContent (maskedContent content) = maskedContent content := by
  cases text : String.fromUTF8? content with
  | none => simp [maskedContent, text]
  | some written =>
    cases decoded : decode (Draft.read written) with
    | error error => simp [maskedContent, text, decoded]
    | ok record =>
      have once : maskedContent content = JsonFile.content record.masked.encode := by
        simp [maskedContent, text, decoded]
      rw [once, maskedContent_encode, masked_masked]

end JobRecord

namespace JsonFile

variable {edit : Place → ByteArray → ByteArray} {disk : Disk} {path : String}

/-- Of a file that is hidden a hidden record is loaded. -/
theorem load_masked (hidden : edit (place path) = JobRecord.maskedContent) :
    load JobRecord.decode path (disk.edited edit) =
      (load JobRecord.decode path disk).map (Option.map JobRecord.masked) := by
  rw [load, load, Disk.read_edited, hidden]
  cases disk.read path with
  | error error => cases error <;> rfl
  | ok content =>
    simp only [Except.map, JobRecord.maskedContent]
    cases text : String.fromUTF8? content with
    | none => simp [text]
    | some written =>
      dsimp only
      cases decoded : JobRecord.decode (Draft.read written) with
      | error error => simp [text, decoded]
      | ok record =>
        dsimp only
        rw [JsonFile.content, Text.Utf8.fromUTF8?_toUTF8]
        dsimp only
        rw [record.masked.decode_read_indented]
        rfl

/-- Of a file that is not hidden the same is loaded. -/
theorem load_edited {α : Type} {decode : Decoder α} (bare : edit (place path) = id) :
    load decode path (disk.edited edit) = load decode path disk := by
  rw [load, load, Disk.read_edited, bare]
  cases disk.read path with
  | error error => cases error <;> rfl
  | ok content => rfl

/-- A value that is saved as its file is edited is one that was saved before the edit. -/
theorem save_edited (value shown : Json) (fault : Option StoreFault)
    (alike : edit (place (temporary path)) = edit (place path))
    (same : content shown = edit (place path) (content value)) :
    save path shown fault (disk.edited edit) =
      ((save path value fault disk).1.edited edit, (save path value fault disk).2) := by
  have written := Disk.write_edited edit disk (temporary path) (content value)
  rw [alike, ← same] at written
  rw [save, save]
  split
  · rfl
  · rw [content] at written
    rw [written, content]
    cases disk.write (temporary path) value.indented.toUTF8 with
    | error error => rfl
    | ok next =>
      simp only [Except.map]
      split
      · rfl
      · rw [Disk.rename_edited edit next (temporary path) path alike]
        cases next.rename (temporary path) path <;> rfl

end JsonFile

namespace StorageConfig

/-- This function hides such causes in the files of the records, if there are files. -/
def veil : StorageConfig → Place → ByteArray → ByteArray
  | .memory, _ => id
  | .file data, there =>
    if there.dropLast = place (Path.join data JobStore.folder.text) then JobRecord.maskedContent else id

variable {data : String}

theorem veil_veil (storage : StorageConfig) (there : Place) (content : ByteArray) :
    storage.veil there (storage.veil there content) = storage.veil there content := by
  cases storage with
  | memory => rfl
  | file data =>
    rw [veil]
    split
    · exact JobRecord.maskedContent_maskedContent content
    · rfl

theorem veil_of_name (name : FileName) :
    (StorageConfig.file data).veil (place (Path.join data JobStore.folder.text) ++ [name]) =
      JobRecord.maskedContent := by
  rw [veil, List.dropLast_concat, if_pos rfl]

theorem veil_recordPath {id : JobId} (plain : Plain id) :
    (StorageConfig.file data).veil (place (JobStore.recordPath (Path.join data JobStore.folder.text) id)) =
      JobRecord.maskedContent := by
  rw [Path.place_recordPath _ plain, veil_of_name]

theorem veil_temporary {id : JobId} (plain : Plain id) :
    (StorageConfig.file data).veil
        (place (JsonFile.temporary (JobStore.recordPath (Path.join data JobStore.folder.text) id))) =
      JobRecord.maskedContent := by
  rw [Path.place_temporary _ plain, veil_of_name]

/-- The files of the artifacts are not hidden. -/
theorem veil_of_artifact (name : FileName) :
    (StorageConfig.file data).veil (place (Path.join data ArtifactStore.folder.text) ++ [name]) = id := by
  rw [veil, List.dropLast_concat, if_neg]
  intro same
  rw [Path.place_join_text, Path.place_join_text] at same
  exact absurd (List.append_cancel_left same) (by decide)

end StorageConfig

namespace JobStore

/-- This function hides such causes in the records of a store. -/
def masked : JobStore → JobStore
  | .memory records => .memory (Table.mapValues (fun _ => JobRecord.masked) records)
  | .file directory records => .file directory (Table.mapValues (fun _ => JobRecord.masked) records)

/-- A store lies where a configuration says. -/
def LiesAt : StorageConfig → JobStore → Prop
  | .memory, .memory _ => True
  | .file data, .file directory _ => directory = Path.join data folder.text
  | _, _ => False

variable {storage : StorageConfig} {store : JobStore} {disk : Disk} {id : JobId} {record : JobRecord}

@[simp] theorem records_masked (store : JobStore) :
    store.masked.records = Table.mapValues (fun _ => JobRecord.masked) store.records := by
  cases store <;> rfl

theorem masked_masked (store : JobStore) : store.masked.masked = store.masked := by
  have twice := Table.mapValues_mapValues (κ := JobId) store.records (fun _ => JobRecord.masked_masked)
  cases store with
  | memory records => exact congrArg JobStore.memory twice
  | file directory records => exact congrArg (JobStore.file directory) twice

theorem LiesAt.masked (lies : store.LiesAt storage) : store.masked.LiesAt storage := by
  cases storage <;> cases store <;> exact lies

theorem masked_withRecords (store : JobStore) (records : Table JobId JobRecord) :
    store.masked.withRecords (Table.mapValues (fun _ => JobRecord.masked) records) =
      (store.withRecords records).masked := by
  cases store <;> rfl

theorem get_masked (store : JobStore) (id : JobId) (fault : Option StoreFault) :
    store.masked.get id fault = (store.get id fault).map (Option.map JobRecord.masked) := by
  rw [get.eq_def, get.eq_def]
  split
  · rfl
  · rw [records_masked, Table.get?_mapValues]
    rfl

/-- Hidden causes do not change the order of records. -/
theorem oldestFirst_masked (records : List JobRecord) :
    oldestFirst (records.map JobRecord.masked) = (oldestFirst records).map JobRecord.masked :=
  (List.map_mergeSort (f := JobRecord.masked) fun _ _ _ _ => rfl).symm

theorem listByState_masked (store : JobStore) (state : JobState) (fault : Option StoreFault) :
    store.masked.listByState state fault = (store.listByState state fault).map (List.map JobRecord.masked) := by
  have values : (store.masked.records.map Prod.snd) = (store.records.map Prod.snd).map JobRecord.masked := by
    rw [records_masked, Table.mapValues, List.map_map, List.map_map]
    rfl
  rw [listByState, listByState, list.eq_def, list.eq_def, values, oldestFirst_masked]
  split
  · rfl
  · simp only [Except.map, List.filter_map]
    rfl

theorem put_masked (lies : store.LiesAt storage) (plain : Plain id) (record : JobRecord) (fault : Option StoreFault) :
    store.masked.put id record.masked fault (disk.edited storage.veil) =
      ((store.put id record fault disk).1.edited storage.veil, (store.put id record fault disk).2.1.masked,
        (store.put id record fault disk).2.2) := by
  have stored : store.masked.withRecords (Table.insert id record.masked store.masked.records) =
      (store.withRecords (Table.insert id record store.records)).masked := by
    rw [records_masked, Table.insert_mapValues (fun _ => JobRecord.masked), masked_withRecords]
  rw [put.eq_def, put.eq_def, stored]
  match storage, store, lies with
  | .memory, .memory records, _ =>
    dsimp only [masked]
    split <;> rfl
  | .file data, .file directory records, lies =>
    obtain rfl : directory = Path.join data folder.text := lies
    dsimp only [masked]
    rw [JsonFile.save_edited record.encode record.masked.encode fault
      ((StorageConfig.veil_temporary plain).trans (StorageConfig.veil_recordPath plain).symm)
      (by rw [StorageConfig.veil_recordPath plain, record.maskedContent_encode])]
    generalize JsonFile.save _ record.encode fault disk = saved
    obtain ⟨next, result⟩ := saved
    cases result <;> rfl

theorem insert_masked (lies : store.LiesAt storage) (plain : Plain record.id) (fault : Option StoreFault) :
    store.masked.insert record.masked fault (disk.edited storage.veil) =
      ((store.insert record fault disk).1.edited storage.veil, (store.insert record fault disk).2.1.masked,
        (store.insert record fault disk).2.2) := by
  rw [insert.eq_def, insert.eq_def]
  split
  · rfl
  · rw [records_masked, Table.get?_mapValues, Option.isSome_map, JobRecord.id_masked]
    split
    · rfl
    · exact put_masked lies plain record _

theorem transition_masked (lies : store.LiesAt storage)
    (plain : ∀ {id record}, Table.get? id store.records = some record → Plain id) (id : JobId) (transition : Transition)
    (now : Time.Instant) (fault : Option StoreFault) :
    store.masked.transition id transition.masked now fault (disk.edited storage.veil) =
      ((store.transition id transition now fault disk).1.edited storage.veil,
        (store.transition id transition now fault disk).2.1.masked,
        (store.transition id transition now fault disk).2.2.map JobRecord.masked) := by
  rw [JobStore.transition.eq_def, JobStore.transition.eq_def]
  split
  · rfl
  · rw [records_masked, Table.get?_mapValues]
    cases found : Table.get? id store.records with
    | none => rfl
    | some record =>
      dsimp only [Option.map_some]
      rw [record.apply_masked]
      cases record.apply now transition with
      | error refusal => rfl
      | ok next =>
        dsimp only [Except.map]
        rw [put_masked lies (plain found)]
        generalize store.put id next _ disk = stored
        obtain ⟨after, kept, result⟩ := stored
        cases result <;> rfl

theorem foldl_loadOne_masked {data : String} {names : List String}
    (named : ∀ text ∈ names, ∃ name : FileName, name.text = text) (records : Table JobId JobRecord) :
    names.foldl (loadOne (Path.join data folder.text) (disk.edited (StorageConfig.file data).veil))
        (Table.mapValues (fun _ => JobRecord.masked) records) =
      Table.mapValues (fun _ => JobRecord.masked)
        (names.foldl (loadOne (Path.join data folder.text) disk) records) := by
  induction names generalizing records with
  | nil => rfl
  | cons text names inductionHypothesis =>
    obtain ⟨name, rfl⟩ := named text List.mem_cons_self
    have one : loadOne (Path.join data folder.text) (disk.edited (StorageConfig.file data).veil)
        (Table.mapValues (fun _ => JobRecord.masked) records) name.text =
          Table.mapValues (fun _ => JobRecord.masked)
            (loadOne (Path.join data folder.text) disk records name.text) := by
      rw [loadOne, loadOne]
      split
      · rw [JsonFile.load_masked (by rw [Path.place_join_text, StorageConfig.veil_of_name])]
        cases JsonFile.load JobRecord.decode (Path.join (Path.join data folder.text) name.text) disk with
        | error error => rfl
        | ok found =>
          cases found with
          | none => rfl
          | some record => exact Table.insert_mapValues (fun _ => JobRecord.masked) record.id record records
      · rfl
    rw [List.foldl_cons, List.foldl_cons, one]
    exact inductionHypothesis (fun other member => named other (List.mem_cons_of_mem _ member)) _

theorem reopen_masked (lies : store.LiesAt storage) :
    store.masked.reopen (disk.edited storage.veil) =
      ((store.reopen disk).1.edited storage.veil, (store.reopen disk).2.map masked) := by
  match storage, store, lies with
  | .memory, .memory records, _ => rfl
  | .file data, .file directory records, lies =>
    obtain rfl : directory = Path.join data folder.text := lies
    rw [masked, reopen, reopen, openAt, openAt, Disk.makeDirectories_edited]
    cases disk.makeDirectories (Path.join data folder.text) with
    | error error => rfl
    | ok next =>
      simp only [Except.map, load, Disk.list_edited]
      cases listed : next.list (Path.join data folder.text) with
      | error error => rfl
      | ok names =>
        have named (text : String) (member : text ∈ names) : ∃ name : FileName, name.text = text :=
          ((Disk.mem_list listed text).mp member).imp fun _ found => found.1
        exact congrArg (fun records => (next.edited _, Except.ok (JobStore.file _ records)))
          (foldl_loadOne_masked named [])

end JobStore

namespace ArtifactStore

/-- A store lies where a configuration says. -/
def LiesAt : StorageConfig → ArtifactStore → Prop
  | .memory, .memory _ => True
  | .file data, .file directory => directory = Path.join data folder.text
  | _, _ => False

variable {storage : StorageConfig} {store : ArtifactStore} {disk : Disk}

theorem file_of_liesAt {directory : String} (lies : (file directory).LiesAt storage) :
    ∃ data, storage = .file data ∧ directory = Path.join data folder.text := by
  cases storage with
  | memory => exact lies.elim
  | file data => exact ⟨data, rfl, lies⟩

/-- The files of the artifacts are not hidden. -/
theorem veil_artifactPath {data : String} {name : ArtifactId} (plain : Plain name) :
    (StorageConfig.file data).veil (place (artifactPath (Path.join data folder.text) name)) = id ∧
      (StorageConfig.file data).veil
        (place (JsonFile.temporary (artifactPath (Path.join data folder.text) name))) = id := by
  refine ⟨?_, ?_⟩
  · exact (congrArg _ (Path.place_recordPath _ plain)).trans (StorageConfig.veil_of_artifact _)
  · exact (congrArg _ (Path.place_temporary _ plain)).trans (StorageConfig.veil_of_artifact _)

theorem get_edited (lies : store.LiesAt storage) (id : ArtifactId) (fault : Option StoreFault) :
    store.get id fault (disk.edited storage.veil) = store.get id fault disk := by
  rw [get.eq_def, get.eq_def]
  split
  · rfl
  · cases store with
    | memory artifacts => rfl
    | file directory =>
      obtain ⟨data, rfl, rfl⟩ := file_of_liesAt lies
      dsimp only
      split
      · next safe => exact JsonFile.load_edited (veil_artifactPath (Path.plain_of_safe safe)).1
      · rfl

theorem put_edited (lies : store.LiesAt storage) {artifact : Artifact}
    (plain : ∀ data, storage = .file data → Plain artifact.id) (fault : Option StoreFault) :
    store.put artifact fault (disk.edited storage.veil) =
      ((store.put artifact fault disk).1.edited storage.veil, (store.put artifact fault disk).2.1,
        (store.put artifact fault disk).2.2) := by
  rw [put.eq_def, put.eq_def]
  split
  · rfl
  · cases store with
    | memory artifacts =>
      dsimp only
      split <;> rfl
    | file directory =>
      obtain ⟨data, rfl, rfl⟩ := file_of_liesAt lies
      obtain ⟨there, first⟩ := veil_artifactPath (plain data rfl)
      dsimp only
      rw [JsonFile.save_edited artifact.encode artifact.encode _ (first.trans there.symm) (by rw [there]; rfl)]

theorem reopen_edited (store : ArtifactStore) :
    store.reopen (disk.edited storage.veil) = ((store.reopen disk).1.edited storage.veil, (store.reopen disk).2) := by
  cases store with
  | memory artifacts => rfl
  | file directory =>
    rw [reopen, reopen, openAt, openAt, Disk.makeDirectories_edited]
    cases disk.makeDirectories directory <;> rfl

end ArtifactStore

namespace Workspace

variable (edit : Place → ByteArray → ByteArray) (disk : Disk)

theorem create_edited (workspace : Workspace) (ending : String) :
    workspace.create ending (disk.edited edit) =
      ((workspace.create ending disk).1.edited edit, (workspace.create ending disk).2) := by
  rw [create, create]
  cases workspace.directory with
  | some directory => rfl
  | none =>
    dsimp only
    rw [Disk.makeDirectories_edited]
    cases disk.makeDirectories workspace.config.root with
    | error error => rfl
    | ok next =>
      dsimp only [Except.map]
      rw [Disk.makeDirectory_edited]
      cases next.makeDirectory (Path.join workspace.config.root (workspace.config.namePrefix ++ ending)) <;> rfl

theorem cleanup_edited (workspace : Workspace) :
    workspace.cleanup (disk.edited edit) = ((workspace.cleanup disk).1.edited edit, (workspace.cleanup disk).2) := by
  rw [cleanup, cleanup]
  cases workspace.directory with
  | none => rfl
  | some directory =>
    dsimp only
    rw [Disk.removeTree_edited]
    cases disk.removeTree directory <;> rfl

theorem sweepOne_edited (config : WorkspaceConfig) (removed : Nat) (name : String) :
    sweepOne config (disk.edited edit, removed) name =
      ((sweepOne config (disk, removed) name).1.edited edit, (sweepOne config (disk, removed) name).2) := by
  rw [sweepOne, sweepOne]
  dsimp only
  rw [Disk.isDirectory_edited]
  split
  · rw [Disk.removeTree_edited]
    cases disk.removeTree (Path.join config.root name) <;> rfl
  · rfl

theorem sweep_edited (config : WorkspaceConfig) :
    sweep config (disk.edited edit) = ((sweep config disk).1.edited edit, (sweep config disk).2) := by
  have all (names : List String) : ∀ (disk : Disk) (removed : Nat),
      names.foldl (sweepOne config) (disk.edited edit, removed) =
        ((names.foldl (sweepOne config) (disk, removed)).1.edited edit,
          (names.foldl (sweepOne config) (disk, removed)).2) := by
    induction names with
    | nil => exact fun _ _ => rfl
    | cons name names inductionHypothesis =>
      intro disk removed
      rw [List.foldl_cons, List.foldl_cons, sweepOne_edited]
      exact inductionHypothesis _ _
  rw [sweep, sweep, Disk.list_edited]
  cases disk.list config.root with
  | error error => cases error <;> rfl
  | ok names =>
    dsimp only
    rw [all]

end Workspace

end ContractWorks

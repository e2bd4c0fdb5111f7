import ContractWorks.Proofs.Storage.Spare
import ContractWorks.Service.Launch

namespace ContractWorks

open Path (Plain place recordName spareName)

namespace Disk

variable {disk next : Disk} {base : String} {name : FileName}

/-- All places on the way to a directory are directories. -/
def Leads (disk : Disk) (base : String) : Prop :=
  ∀ visited ∈ Path.visits base, disk.at? visited = some .directory

/-- A walk into a directory goes the same way on all disks that have the directories before it. -/
theorem walk_congr {parts : List PathPart} : ∀ {start : Place},
    (∀ visited ∈ Path.through start parts, disk.at? visited = some .directory) →
      (∀ visited ∈ Path.through start parts, next.at? visited = some .directory) →
        next.walk start (parts ++ [.into name]) = disk.walk start (parts ++ [.into name]) := by
  induction parts with
  | nil =>
    intro start before after
    have here := before start (List.mem_singleton_self _)
    have there := after start (List.mem_singleton_self _)
    rw [List.nil_append, walk.eq_def next, walk.eq_def disk]
    simp only [here, there]
    split
    · rw [walk, walk]
    · rfl
  | cons part rest inductionHypothesis =>
    intro start before after
    have here := before start List.mem_cons_self
    have there := after start List.mem_cons_self
    have further : next.walk (part.follow start) (rest ++ [.into name]) =
        disk.walk (part.follow start) (rest ++ [.into name]) :=
      inductionHypothesis (fun visited member => before visited (List.mem_cons_of_mem _ member))
        fun visited member => after visited (List.mem_cons_of_mem _ member)
    rw [List.cons_append, walk.eq_def next, walk.eq_def disk]
    simp only [here, there]
    cases part with
    | up => exact further
    | into other =>
      dsimp only
      split
      · exact further
      · rfl

theorem resolve_congr (before : disk.Leads base) (after : next.Leads base) :
    next.resolve (Path.join base name.text) = disk.resolve (Path.join base name.text) := by
  rw [resolve, resolve]
  cases taken : partsOf (Path.join base name.text) with
  | error error => rfl
  | ok parts =>
    obtain rfl := partsOf_eq_ok taken
    simp only [bind, Except.bind]
    rw [Path.parts_join_text]
    exact walk_congr before after

/-- A file in a directory is read as before, unless a directory has come in its place. -/
theorem read_of_grows (before : disk.Leads base) (after : next.Leads base)
    (grows : next.at? (place base ++ [name]) = disk.at? (place base ++ [name]) ∨
      next.at? (place base ++ [name]) = some .directory) :
    next.read (Path.join base name.text) = disk.read (Path.join base name.text) ∨
      next.read (Path.join base name.text) = .error .isDirectory := by
  have resolves : next.resolve (Path.join base name.text) = disk.resolve (Path.join base name.text) :=
    resolve_congr before after
  rw [read, read, find, find, resolves]
  cases resolved : disk.resolve (Path.join base name.text) with
  | error error => exact .inl rfl
  | ok found =>
    have there : found = place base ++ [name] := (resolve_place resolved).trans (Path.place_join_text base name)
    subst there
    simp only [bind, Except.bind]
    rcases grows with same | made
    · rw [same]
      exact .inl rfl
    · rw [made]
      exact .inr rfl

theorem Leads.spare {data : String} {folder : FileName} (leads : disk.Leads (Path.join data folder.text))
    (spares : Spares data disk next) : next.Leads (Path.join data folder.text) :=
  fun visited member => spares.directory (Path.guarded_of_visits member) (leads visited member)

theorem Leads.touch {path : String} (leads : disk.Leads base) (touches : JsonFile.Touches path disk next) :
    next.Leads base :=
  fun visited member => touches.directories visited (leads visited member)

end Disk

/-- What a file is loaded as when it is read as before. -/
theorem JsonFile.load_of_grows {α : Type} {decode : Decoder α} {path : String} {disk next : Disk} {found : Option α}
    (reads : next.read path = disk.read path ∨ next.read path = .error .isDirectory)
    (loaded : load decode path next = .ok found) : load decode path disk = .ok found := by
  rcases reads with same | made
  · rw [load, same] at loaded
    exact loaded
  · rw [load, made] at loaded
    simp at loaded

namespace ArtifactStore

variable {artifact : ArtifactId} {former middle latter : ArtifactStore} {disk between next : Disk} {data : String}

/-- An artifact lasts when it was read before as whatever it is read as later. -/
def Lasts (artifact : ArtifactId) (former : ArtifactStore) (disk : Disk) (latter : ArtifactStore) (next : Disk) :
    Prop :=
  ∀ found, latter.get artifact none next = .ok found → former.get artifact none disk = .ok found

theorem Lasts.trans (first : Lasts artifact former disk middle between) (second : Lasts artifact middle between latter next) :
    Lasts artifact former disk latter next :=
  fun found got => first found (second found got)

/-- An artifact that is kept as a file lasts as long as its file is not written. -/
theorem lasts_of_grows (before : disk.Leads (Path.join data folder.text)) (after : next.Leads (Path.join data folder.text))
    (grows : ∀ plain : Plain artifact,
      next.at? (place (Path.join data folder.text) ++ [recordName plain]) =
          disk.at? (place (Path.join data folder.text) ++ [recordName plain]) ∨
        next.at? (place (Path.join data folder.text) ++ [recordName plain]) = some .directory) :
    Lasts artifact (.file (Path.join data folder.text)) disk (.file (Path.join data folder.text)) next := by
  intro found got
  rw [get.eq_def] at got ⊢
  dsimp only at got ⊢
  split at got
  · next safe =>
    have plain := Path.plain_of_safe safe
    have path : artifactPath (Path.join data folder.text) artifact =
        Path.join (Path.join data folder.text) (recordName plain).text := rfl
    have reads := Disk.read_of_grows before after (grows plain)
    rw [path] at got
    rw [if_pos safe, path]
    exact JsonFile.load_of_grows reads got
  · next refused =>
    rw [if_neg refused]
    exact got

end ArtifactStore

namespace JobStore

/-- A store with files touches only the file of the record that it puts. -/
theorem put_file {directory : String} {records : Table JobId JobRecord} {other : JobStore} {id : JobId}
    {record : JobRecord} {fault : Option StoreFault} {disk next : Disk} {result : Except StoreError Unit}
    (done : (JobStore.file directory records).put id record fault disk = (next, other, result)) :
    JsonFile.Touches (recordPath directory id) disk next := by
  rw [put] at done
  split at done
  · next saved =>
    obtain ⟨rfl, _⟩ := Prod.mk.inj done
    exact JsonFile.save_touches saved
  · next saved =>
    obtain ⟨rfl, _⟩ := Prod.mk.inj done
    exact JsonFile.save_touches saved

end JobStore

/-- Stores are provided when they are those that a configuration asks for, and when those with files have plain ids
and a directory for the artifacts. -/
inductive Provided : StorageConfig → JobStore → ArtifactStore → Disk → Prop where
  | memory {records : Table JobId JobRecord} {artifacts : Table ArtifactId Artifact} {disk : Disk} :
      Provided .memory (.memory records) (.memory artifacts) disk
  | file {data : String} {records : Table JobId JobRecord} {disk : Disk}
      (plain : ∀ id, Table.get? id records ≠ none → Plain id)
      (leads : disk.Leads (Path.join data ArtifactStore.folder.text)) :
      Provided (.file data) (.file (Path.join data JobStore.folder.text) records)
        (.file (Path.join data ArtifactStore.folder.text)) disk

namespace Provided

open ArtifactStore (Lasts)

variable {storage : StorageConfig} {jobs other : JobStore} {artifacts kept : ArtifactStore} {disk next : Disk}
  {fault : Option StoreFault} {id : JobId} {record : JobRecord} {artifact : ArtifactId}

/-- Stores stay provided, and artifacts last, when the disk changes apart from the data directory. -/
theorem spare (provided : Provided storage jobs artifacts disk)
    (spares : ∀ data, storage = .file data → Disk.Spares data disk next) :
    Provided storage jobs artifacts next ∧ ∀ artifact, Lasts artifact artifacts disk artifacts next := by
  cases provided with
  | memory => exact ⟨.memory, fun _ _ got => got⟩
  | @file data records _ plain leads =>
    have after := leads.spare (spares data rfl)
    refine ⟨.file plain after, fun artifact => ArtifactStore.lasts_of_grows leads after fun named => ?_⟩
    rcases spares data rfl _ (Path.guarded_below ArtifactStore.folder [recordName named]) with same | ⟨_, made⟩
    · exact .inl same
    · exact .inr made

theorem plain (provided : Provided storage jobs artifacts disk) (found : Table.get? id jobs.records = some record)
    (data : String) (file : storage = .file data) : Plain id := by
  cases provided with
  | memory => simp at file
  | @file data records _ plain leads =>
    have stands : Table.get? id records = some record := found
    exact plain id (by simp [stands])

/-- Stores stay provided, and artifacts last, when a record is put under a plain id. -/
theorem put (provided : Provided storage jobs artifacts disk) (plain : ∀ data, storage = .file data → Plain id)
    {result : Except StoreError Unit} (done : jobs.put id record fault disk = (next, other, result)) :
    Provided storage other artifacts next ∧ ∀ artifact, Lasts artifact artifacts disk artifacts next := by
  cases provided with
  | memory =>
    rcases JobStore.put_cases done with ⟨_, rfl⟩ | ⟨_, rfl⟩
    · exact ⟨.memory, fun _ _ got => got⟩
    · exact ⟨.memory, fun _ _ got => got⟩
  | @file data records _ plainAll leads =>
    have own := plain data rfl
    have touches := JobStore.put_file done
    have after := leads.touch touches
    have lasts (artifact : ArtifactId) : Lasts artifact (.file (Path.join data ArtifactStore.folder.text)) disk
        (.file (Path.join data ArtifactStore.folder.text)) next := by
      refine ArtifactStore.lasts_of_grows leads after fun named => .inl (touches.others _ ?_ ?_)
      · rw [Path.place_recordPath _ own]
        exact (Path.folders_apart _ _).symm
      · rw [Path.place_temporary _ own]
        exact (Path.folders_apart _ _).symm
    rcases JobStore.put_cases done with ⟨_, rfl⟩ | ⟨_, rfl⟩
    · refine ⟨.file (fun key stands => ?_) after, lasts⟩
      by_cases same : key = id
      · exact same ▸ own
      · exact plainAll key (by rwa [Table.get?_insert_of_ne same] at stands)
    · exact ⟨.file plainAll after, lasts⟩

theorem insert (provided : Provided storage jobs artifacts disk) (plain : Plain record.id)
    {result : Except StoreError Unit} (done : jobs.insert record fault disk = (next, other, result)) :
    Provided storage other artifacts next ∧ ∀ artifact, Lasts artifact artifacts disk artifacts next := by
  rcases JobStore.insert_disk done with ⟨rfl, rfl⟩ | put
  · exact ⟨provided, fun _ _ got => got⟩
  · exact provided.put (fun _ _ => plain) put

theorem transition (provided : Provided storage jobs artifacts disk) {transition : Transition} {now : Time.Instant}
    {result : Except StoreError JobRecord} (done : jobs.transition id transition now fault disk = (next, other, result)) :
    Provided storage other artifacts next ∧ ∀ artifact, Lasts artifact artifacts disk artifacts next := by
  rcases JobStore.transition_disk done with ⟨rfl, rfl⟩ | ⟨before, _, _, found, _, put, _⟩
  · exact ⟨provided, fun _ _ got => got⟩
  · exact provided.put (provided.plain found) put

/-- Stores stay provided when an artifact is put, and all other artifacts last. -/
theorem putArtifact (provided : Provided storage jobs artifacts disk) {artifact : Artifact}
    (plain : ∀ data, storage = .file data → Plain artifact.id) {result : Except StoreError Unit}
    (done : artifacts.put artifact fault disk = (next, kept, result)) :
    Provided storage jobs kept next ∧
      ∀ other, other ≠ artifact.id → ArtifactStore.Lasts other artifacts disk kept next := by
  cases provided with
  | memory =>
    rcases ArtifactStore.put_memory done with ⟨rfl, _⟩ | rfl
    · refine ⟨.memory, fun other differ found got => ?_⟩
      have there : Except.ok (Table.get? other _) = Except.ok found := got
      rw [Table.get?_insert_of_ne differ] at there
      exact there
    · exact ⟨.memory, fun _ _ _ got => got⟩
  | @file data records _ plainAll leads =>
    obtain ⟨rfl, touches⟩ := ArtifactStore.put_file done
    have after := leads.touch touches
    have own := plain data rfl
    refine ⟨.file plainAll after, fun other differ => ?_⟩
    refine ArtifactStore.lasts_of_grows leads after fun named => .inl (touches.others _ ?_ ?_)
    · rw [Path.place_recordPath _ own]
      intro same
      exact differ (Path.recordName_inj (List.cons.inj (List.append_cancel_left same)).1)
    · rw [Path.place_temporary _ own]
      intro same
      exact Path.recordName_ne_spareName named own (List.cons.inj (List.append_cancel_left same)).1

end Provided

end ContractWorks

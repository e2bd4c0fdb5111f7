import ContractWorks.Proofs.Job.Artifact
import ContractWorks.Proofs.Storage.Artifact

namespace ContractWorks

open Path (Plain place recordName spareName)

namespace Disk

variable {base data : String} {name folder : FileName} {disk next : Disk}

/-- A change of a disk preserves a file when the way to its directory stays, and the file does. -/
structure Preserves (base : String) (name : FileName) (disk next : Disk) : Prop where
  way : ∀ visited ∈ Path.visits base, disk.at? visited = some .directory → next.at? visited = some .directory
  file : ∀ octets, disk.at? (place base ++ [name]) = some (.file octets) →
    next.at? (place base ++ [name]) = some (.file octets)

theorem Preserves.read (preserves : Preserves base name disk next) {octets : ByteArray}
    (read : disk.read (Path.join base name.text) = .ok octets) : next.read (Path.join base name.text) = .ok octets := by
  rw [read_eq_ok_iff, Path.place_join_text] at read ⊢
  obtain ⟨resolved, standing⟩ := read
  refine ⟨resolve_of_directories resolved fun visited member here => ?_, preserves.file octets standing⟩
  rw [Path.visits, Path.parts_join_text] at member
  rcases Path.through_append _ _ _ visited member with before | last
  · exact preserves.way visited before here
  · have there : disk.at? (place base ++ [name]) = some .directory := last ▸ here
    simp [standing] at there

theorem preserves_of_spares (spares : Spares data disk next) : Preserves (Path.join data folder.text) name disk next where
  way _ member := spares.directory (Path.guarded_of_visits member)
  file _ := (spares.file_iff (Path.guarded_below folder [name]) _).mpr

theorem preserves_of_touches {path : String} (touches : JsonFile.Touches path disk next)
    (other : place base ++ [name] ≠ place path) (apart : place base ++ [name] ≠ place (JsonFile.temporary path)) :
    Preserves base name disk next where
  way visited _ := touches.directories visited
  file _ here := (touches.others _ other apart).trans here

end Disk

namespace ArtifactStore

variable {artifact : Artifact} {disk next : Disk}

/-- A store is open when the directory that it keeps its files in is there. -/
def Open (disk : Disk) : ArtifactStore → Prop
  | .memory _ => True
  | .file directory => disk.resolve directory = .ok (place directory) ∧ disk.at? (place directory) = some .directory

/-- A store has an artifact when this stands in memory, or as the text of its file. -/
def Has (artifact : Artifact) (disk : Disk) : ArtifactStore → Prop
  | .memory artifacts => Table.get? artifact.id artifacts = some artifact
  | .file directory => disk.read (artifactPath directory artifact.id) = .ok (JsonFile.content artifact.encode)

/-- This function gives what a store finds of an artifact that it has. -/
def shown (artifact : Artifact) : ArtifactStore → Artifact
  | .memory _ => artifact
  | .file _ => artifact.reread

/-- A store with files is open as soon as it has been opened. -/
theorem openAt_eq_ok {directory : String} {store : ArtifactStore} (opened : openAt directory disk = (next, .ok store)) :
    store = .file directory ∧ store.Open next := by
  rw [openAt] at opened
  split at opened
  · simp at opened
  · next made created =>
    obtain ⟨rfl, rfl⟩ := by simpa using opened
    obtain ⟨_, resolved, grounded⟩ := Disk.makeDirectories_eq_ok created
    exact ⟨rfl, resolved, grounded.here⟩

/-- An open store is opened again as it is. -/
theorem Open.reopen {store : ArtifactStore} (opened : store.Open disk) : store.reopen disk = (disk, .ok store) := by
  cases store with
  | memory artifacts => rfl
  | file directory =>
    rw [ArtifactStore.reopen, openAt, Disk.makeDirectories_of_resolve opened.1 opened.2]

/-- An artifact that a store has is found under its id. -/
theorem Has.get {store : ArtifactStore} (has : store.Has artifact disk) (keepable : artifact.Keepable)
    (safe : isSafeId artifact.id = true) : store.get artifact.id none disk = .ok (some (store.shown artifact)) := by
  cases store with
  | memory artifacts => exact congrArg Except.ok has
  | file directory =>
    rw [ArtifactStore.get.eq_def]
    dsimp only
    rw [if_pos safe]
    exact JsonFile.load_of_read has (Artifact.decode_read_indented keepable)

/-- A store has an artifact that it has put. -/
theorem has_put {store other : ArtifactStore} {fault : Option StoreFault}
    (done : store.put artifact fault disk = (next, other, .ok ())) : other.Has artifact next := by
  rw [put.eq_def] at done
  split at done
  · simp at done
  · split at done
    · split at done
      · simp at done
      · obtain ⟨_, rfl⟩ := by simpa using done
        exact Table.get?_insert_self _ _ _
    · generalize saved : JsonFile.save _ artifact.encode _ disk = pair at done
      obtain ⟨written, saving⟩ := pair
      obtain ⟨rfl, rfl, rfl⟩ := by simpa using done
      exact (JsonFile.save_ok saved).2.1

/-- A store has an artifact still when a put of it fails. -/
theorem Has.failed {store other : ArtifactStore} {fault : Option StoreFault} {error : StoreError}
    (has : store.Has artifact disk) (plain : Plain artifact.id)
    (done : store.put artifact fault disk = (next, other, .error error)) : other.Has artifact next := by
  cases store with
  | memory artifacts =>
    rcases put_memory done with ⟨_, failed⟩ | rfl
    · simp at failed
    · exact has
  | file directory =>
    rw [put.eq_def] at done
    dsimp only at done
    split at done
    · obtain ⟨rfl, rfl, _⟩ := by simpa using done
      exact has
    · generalize saved : JsonFile.save (artifactPath directory artifact.id) artifact.encode _ disk = pair at done
      obtain ⟨written, saving⟩ := pair
      obtain ⟨rfl, rfl, rfl⟩ := by simpa using done
      obtain ⟨_, touches, kept⟩ := JsonFile.save_error saved
      have same : written.at? (place directory ++ [recordName plain]) =
          disk.at? (place directory ++ [recordName plain]) := by
        have here := kept (Path.place_recordPath_ne_temporary directory plain)
        have path : place (artifactPath directory artifact.id) = place directory ++ [recordName plain] :=
          Path.place_recordPath directory plain
        rwa [path] at here
      have preserves : Disk.Preserves directory (recordName plain) disk written :=
        ⟨fun visited _ => touches.directories visited, fun _ here => same.trans here⟩
      exact preserves.read has

/-- A store has an artifact still when one with another id is put. -/
theorem Has.other {store other : ArtifactStore} {fault : Option StoreFault} {made : Artifact}
    {result : Except StoreError Unit} (has : store.Has artifact disk) (plain : Plain artifact.id)
    (own : Plain made.id) (differ : artifact.id ≠ made.id)
    (done : store.put made fault disk = (next, other, result)) : other.Has artifact next := by
  cases store with
  | memory artifacts =>
    rcases put_memory done with ⟨rfl, _⟩ | rfl
    · exact (Table.get?_insert_of_ne differ _ _).trans has
    · exact has
  | file directory =>
    obtain ⟨rfl, touches⟩ := put_file done
    have preserves : Disk.Preserves directory (recordName plain) disk next := by
      refine Disk.preserves_of_touches touches ?_ ?_
      · rw [Path.place_recordPath _ own]
        intro same
        exact differ (Path.recordName_inj (List.cons.inj (List.append_cancel_left same)).1)
      · rw [Path.place_temporary _ own]
        intro same
        exact Path.recordName_ne_spareName plain own (List.cons.inj (List.append_cancel_left same)).1
    exact preserves.read has

/-- A store has an artifact still when another one is put, or the same one once more. -/
theorem Has.put {store other : ArtifactStore} {fault : Option StoreFault} {made : Artifact}
    {result : Except StoreError Unit} (has : store.Has artifact disk) (plain : Plain artifact.id)
    (own : Plain made.id) (same : artifact.id = made.id → artifact = made)
    (done : store.put made fault disk = (next, other, result)) : other.Has artifact next := by
  by_cases shared : artifact.id = made.id
  · obtain rfl := same shared
    cases result with
    | ok _ => exact has_put done
    | error error => exact has.failed plain done
  · exact has.other plain own shared done

end ArtifactStore

namespace Provided

variable {storage : StorageConfig} {jobs other : JobStore} {artifacts kept : ArtifactStore} {disk next : Disk}
  {fault : Option StoreFault} {id : JobId} {record : JobRecord} {artifact : Artifact}

/-- An open store stays open as long as it is provided. -/
theorem opened (former : Provided storage jobs artifacts disk) (latter : Provided storage other kept next)
    (before : artifacts.Open disk) : kept.Open next := by
  cases former with
  | memory =>
    cases latter
    exact trivial
  | @file data _ _ _ _ =>
    cases latter with
    | file _ leads =>
      exact ⟨Disk.resolve_of_directories before.1 fun visited member _ => leads visited member,
        leads _ (Path.place_mem_visits _)⟩

/-- A store has an artifact still when the disk changes apart from the data directory. -/
theorem has_spare (provided : Provided storage jobs artifacts disk) (has : artifacts.Has artifact disk)
    (plain : Plain artifact.id) (spares : ∀ data, storage = .file data → Disk.Spares data disk next) :
    artifacts.Has artifact next := by
  cases provided with
  | memory => exact has
  | @file data _ _ _ _ =>
    have preserves : Disk.Preserves (Path.join data ArtifactStore.folder.text) (recordName plain) disk next :=
      Disk.preserves_of_spares (spares data rfl)
    exact preserves.read has

/-- A store has an artifact still when a record is put. -/
theorem has_put (provided : Provided storage jobs artifacts disk) (has : artifacts.Has artifact disk)
    (plain : Plain artifact.id) (own : ∀ data, storage = .file data → Plain id) {result : Except StoreError Unit}
    (done : jobs.put id record fault disk = (next, other, result)) : artifacts.Has artifact next := by
  cases provided with
  | memory => exact has
  | @file data _ _ _ _ =>
    have named := own data rfl
    have preserves : Disk.Preserves (Path.join data ArtifactStore.folder.text) (recordName plain) disk next := by
      refine Disk.preserves_of_touches (JobStore.put_file done) ?_ ?_
      · rw [Path.place_recordPath _ named]
        exact (Path.folders_apart _ _).symm
      · rw [Path.place_temporary _ named]
        exact (Path.folders_apart _ _).symm
    exact preserves.read has

theorem has_insert (provided : Provided storage jobs artifacts disk) (has : artifacts.Has artifact disk)
    (plain : Plain artifact.id) (own : Plain record.id) {result : Except StoreError Unit}
    (done : jobs.insert record fault disk = (next, other, result)) : artifacts.Has artifact next := by
  rcases JobStore.insert_disk done with ⟨rfl, rfl⟩ | put
  · exact has
  · exact provided.has_put has plain (fun _ _ => own) put

theorem has_transition (provided : Provided storage jobs artifacts disk) (has : artifacts.Has artifact disk)
    (plain : Plain artifact.id) {transition : Transition} {now : Time.Instant} {result : Except StoreError JobRecord}
    (done : jobs.transition id transition now fault disk = (next, other, result)) : artifacts.Has artifact next := by
  rcases JobStore.transition_disk done with ⟨rfl, rfl⟩ | ⟨_, _, _, found, _, put, _⟩
  · exact has
  · exact provided.has_put has plain (provided.plain found) put

end Provided

/-- Stores that are asked for are opened with a directory for the artifacts. -/
theorem Stores.open_of_ofConfig {storage : StorageConfig} {before disk : Disk} {stores : Stores}
    (opened : ofConfig storage before = (disk, .ok stores)) : stores.artifacts.Open disk := by
  cases storage with
  | memory =>
    obtain ⟨_, rfl⟩ := by simpa [ofConfig] using opened
    exact trivial
  | file data =>
    rw [ofConfig, openBelow] at opened
    split at opened
    · simp at opened
    · split at opened
      · simp at opened
      · next artifacts openedArtifacts =>
        obtain ⟨rfl, rfl⟩ := by simpa using opened
        exact (ArtifactStore.openAt_eq_ok openedArtifacts).2

end ContractWorks

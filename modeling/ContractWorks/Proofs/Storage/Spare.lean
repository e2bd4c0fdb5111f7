import ContractWorks.Proofs.Storage.JobStore
import ContractWorks.Storage.ArtifactStore
import ContractWorks.Toolchain.Workspace

namespace ContractWorks

open Path (Plain place recordName spareName)

/-- The places that a data directory guards are those on the way to it, and those in it. -/
def Path.Guarded (data : String) (place : Place) : Prop :=
  place ∈ Path.visits data ∨ Path.place data <+: place

namespace Disk

variable {data : String} {disk next : Disk}

/-- A disk grows at some places when at most directories are added there, and nothing is taken away. -/
def GrowsAt (places : Place → Prop) (disk next : Disk) : Prop :=
  ∀ place, places place → next.at? place = disk.at? place ∨
    (disk.at? place = none ∧ next.at? place = some .directory)

variable {places fewer : Place → Prop}

theorem GrowsAt.refl (places : Place → Prop) (disk : Disk) : GrowsAt places disk disk :=
  fun _ _ => .inl rfl

theorem GrowsAt.trans {first second third : Disk} (former : GrowsAt places first second)
    (latter : GrowsAt places second third) : GrowsAt places first third := by
  intro place chosen
  rcases former place chosen with same | ⟨free, made⟩
  · rw [← same]
    exact latter place chosen
  · rcases latter place chosen with kept | ⟨missing, _⟩
    · exact .inr ⟨free, kept.trans made⟩
    · rw [made] at missing
      exact absurd missing (by simp)

theorem GrowsAt.mono (grows : GrowsAt places disk next) (inside : ∀ place, fewer place → places place) :
    GrowsAt fewer disk next :=
  fun place chosen => grows place (inside place chosen)

theorem Grows.growsAt (grows : disk.Grows next) (places : Place → Prop) : GrowsAt places disk next :=
  fun place _ => grows place

theorem GrowsAt.directory (grows : GrowsAt places disk next) {place : Place} (chosen : places place)
    (here : disk.at? place = some .directory) : next.at? place = some .directory := by
  rcases grows place chosen with same | ⟨free, _⟩
  · rw [same, here]
  · simp [here] at free

/-- A change of a disk spares a data directory when it only grows at the places that this one guards. -/
abbrev Spares (data : String) (disk next : Disk) : Prop :=
  GrowsAt (Path.Guarded data) disk next

/-- A change of a disk stays below a place when it only grows at all other places. -/
abbrev StaysBelow (top : Place) (disk next : Disk) : Prop :=
  GrowsAt (fun place => ¬top <+: place) disk next

theorem staysBelow_write {top : Place} {path : String} {content : ByteArray} (below : top <+: Path.place path)
    (written : disk.write path content = .ok next) : StaysBelow top disk next := by
  intro place outside
  have differ : place ≠ Path.place path := fun same => outside (same ▸ below)
  exact .inl (((write_eq_ok written).2.2 place).trans (if_neg differ))

theorem staysBelow_removeTree {path : String} (removed : disk.removeTree path = .ok next) :
    StaysBelow (Path.place path) disk next :=
  fun place outside => .inl (removeTree_eq_ok removed place outside)

theorem Spares.file_iff (spares : Spares data disk next) {place : Place} (guarded : Path.Guarded data place)
    (octets : ByteArray) : next.at? place = some (.file octets) ↔ disk.at? place = some (.file octets) := by
  rcases spares place guarded with same | ⟨free, made⟩
  · rw [same]
  · rw [free, made]
    simp

end Disk

namespace Path

variable {data : String} {visited : Place}

/-- The way to a directory below a data directory is guarded. -/
theorem guarded_of_visits {name : FileName} (member : visited ∈ visits (join data name.text)) :
    Guarded data visited := by
  rw [visits, parts_join_text] at member
  rcases through_append _ _ _ visited member with before | last
  · exact .inl before
  · exact .inr ⟨[name], last.symm⟩

theorem plain_of_safe {name : String} (safe : ArtifactStore.isSafeId name = true) : Plain name := by
  have parts := Bool.and_eq_true_iff.mp safe
  exact plain_of_isSafeId ⟨of_decide_eq_true parts.1, parts.2⟩

theorem guarded_below (name : FileName) (rest : List FileName) :
    Guarded data (place (join data name.text) ++ rest) := by
  rw [place_join_text, List.append_assoc]
  exact .inr ⟨_, rfl⟩

end Path

/-- This is the name of the directory of the records. -/
def JobStore.folder : FileName :=
  ⟨"jobs", by decide⟩

/-- This is the name of the directory of the artifacts. -/
def ArtifactStore.folder : FileName :=
  ⟨"artifacts", by decide⟩

/-- No file stands both in the directory of the records and in that of the artifacts. -/
theorem Path.folders_apart {data : String} (name other : FileName) :
    place (join data JobStore.folder.text) ++ [name] ≠ place (join data ArtifactStore.folder.text) ++ [other] := by
  intro same
  rw [place_join_text, place_join_text, List.append_assoc, List.append_assoc] at same
  have names := (List.cons.inj (List.append_cancel_left same)).1
  exact absurd names (by decide)

namespace JobStore

variable {data : String} {records : Table JobId JobRecord} {store : JobStore} {disk next : Disk}

/-- A change that spares a data directory keeps the files of its records a mirror. -/
theorem Mirrors.spare (mirrors : Mirrors (Path.join data folder.text) records disk)
    (spares : Disk.Spares data disk next) : Mirrors (Path.join data folder.text) records next := by
  refine mirrors.transport (fun visited member => ?_) fun name _ octets => ?_
  · exact spares.directory (Path.guarded_of_visits member)
  · exact spares.file_iff (Path.guarded_below folder [name]) octets

/-- A save below the directory of the artifacts keeps the files of the records a mirror. -/
theorem Mirrors.of_artifact (mirrors : Mirrors (Path.join data folder.text) records disk)
    {id : ArtifactId} (plain : Plain id)
    (touches : JsonFile.Touches (recordPath (Path.join data ArtifactStore.folder.text) id) disk next) :
    Mirrors (Path.join data folder.text) records next := by
  refine mirrors.transport (fun visited _ => touches.directories visited) fun name _ octets => ?_
  rw [touches.others]
  · rw [Path.place_recordPath _ plain]
    exact Path.folders_apart name _
  · rw [Path.place_temporary _ plain]
    exact Path.folders_apart name _

end JobStore

namespace JsonFile

theorem save_touches {path : String} {value : Json} {fault : Option StoreFault} {disk next : Disk}
    {result : Except StoreError Unit} (saved : save path value fault disk = (next, result)) :
    Touches path disk next := by
  cases result with
  | ok done => exact (save_ok saved).1
  | error error => exact (save_error saved).2.1

end JsonFile

namespace ArtifactStore

variable {artifact : Artifact} {fault : Option StoreFault} {disk next : Disk}

/-- A store in memory that puts an artifact either has it then, or is as it was. -/
theorem put_memory {artifacts : Table ArtifactId Artifact} {other : ArtifactStore}
    {result : Except StoreError Unit}
    (done : (ArtifactStore.memory artifacts).put artifact fault disk = (next, other, result)) :
    (other = .memory (Table.insert artifact.id artifact artifacts) ∧ result = .ok ()) ∨
      other = .memory artifacts := by
  rw [put.eq_def] at done
  dsimp only at done
  split at done
  · exact .inr (Prod.mk.inj (Prod.mk.inj done).2).1.symm
  · split at done
    · exact .inr (Prod.mk.inj (Prod.mk.inj done).2).1.symm
    · obtain ⟨_, rfl, rfl⟩ := by simpa using done
      exact .inl ⟨rfl, rfl⟩

/-- A store with files touches only the file of the artifact that it puts. -/
theorem put_file {directory : String} {other : ArtifactStore} {result : Except StoreError Unit}
    (done : (ArtifactStore.file directory).put artifact fault disk = (next, other, result)) :
    other = .file directory ∧ JsonFile.Touches (JobStore.recordPath directory artifact.id) disk next := by
  rw [put.eq_def] at done
  dsimp only at done
  split at done
  · obtain ⟨rfl, rfl, _⟩ := by simpa using done
    exact ⟨rfl, .refl _ disk⟩
  · generalize saved : JsonFile.save (artifactPath directory artifact.id) artifact.encode _ disk = pair
      at done
    obtain ⟨written, saving⟩ := pair
    obtain ⟨rfl, rfl, _⟩ := by simpa using done
    exact ⟨rfl, JsonFile.save_touches saved⟩

end ArtifactStore

namespace WorkspaceConfig

/-- A name is one of a workspace when it is made of the prefix and an ending. -/
def Names (config : WorkspaceConfig) (name : String) : Prop :=
  ∃ ending, name = config.namePrefix ++ ending ∧
    (Path.isProper name = true ∨ ArtifactStore.isSafeId ending = true)

/-- Workspaces lie apart from a data directory when none of them is on the way to it or holds a part of it. -/
def Apart (config : WorkspaceConfig) (data : String) : Prop :=
  ∀ name, config.Names name → ∀ guarded, Path.Guarded data guarded →
    ¬place (Path.join config.root name) <+: guarded

end WorkspaceConfig

namespace Workspace

variable {config : WorkspaceConfig} {data ending : String} {disk next : Disk}

/-- A workspace that is created has a directory of its own name, and no file is changed. -/
theorem create_spec {workspace : Workspace} {result : Except WorkspaceError String}
    (created : create { config } ending disk = (next, workspace, result)) :
    disk.Grows next ∧ ∀ directory, result = .ok directory →
      directory = Path.join config.root (config.namePrefix ++ ending) ∧ workspace.directory = some directory := by
  rw [create] at created
  dsimp only at created
  split at created
  · obtain ⟨rfl, rfl, rfl⟩ := by simpa using created
    exact ⟨.refl disk, fun _ failed => by simp at failed⟩
  · next rooted made =>
    have former := (Disk.makeDirectories_eq_ok made).1
    split at created
    · obtain ⟨rfl, rfl, rfl⟩ := by simpa using created
      exact ⟨former, fun _ failed => by simp at failed⟩
    · next held entered =>
      obtain ⟨rfl, rfl, rfl⟩ := by simpa using created
      refine ⟨former.trans (Disk.makeDirectory_eq_ok entered).1, fun directory same => ?_⟩
      rw [← Except.ok.inj same]
      exact ⟨rfl, rfl⟩

theorem removeTree_spares (apart : config.Apart data) {name : String} (named : config.Names name)
    (removed : disk.removeTree (Path.join config.root name) = .ok next) : Disk.Spares data disk next :=
  (Disk.staysBelow_removeTree removed).mono (apart name named)

/-- A workspace that is cleaned up leaves a data directory apart from it as it is. -/
theorem cleanup_spares (apart : config.Apart data) {name : String} (named : config.Names name)
    {workspace : Workspace} (housed : workspace.directory = some (Path.join config.root name)) :
    Disk.Spares data disk (workspace.cleanup disk).1 := by
  rw [cleanup, housed]
  dsimp only
  split
  · next removed => exact removeTree_spares apart named removed
  · exact .refl _ disk

theorem sweepOne_spares (apart : config.Apart data) (state : Disk × Nat) (name : FileName) :
    Disk.Spares data state.1 (sweepOne config state name.text).1 := by
  rw [sweepOne]
  split
  · next chosen =>
    have starts : Text.startsWith name.text config.namePrefix = true := (Bool.and_eq_true_iff.mp chosen).1
    obtain ⟨rest, shape⟩ := List.isPrefixOf_iff_prefix.mp starts
    have named : config.Names name.text := by
      refine ⟨String.ofList rest, ?_, .inl name.proper⟩
      apply String.toList_inj.mp
      rw [String.toList_append, String.toList_ofList, shape]
    split
    · next removed => exact removeTree_spares apart named removed
    · exact .refl _ _
  · exact .refl _ _

theorem foldl_sweepOne_spares (apart : config.Apart data) (names : List String) :
    (∀ text ∈ names, ∃ name : FileName, name.text = text) → ∀ state : Disk × Nat,
      Disk.Spares data state.1 (names.foldl (sweepOne config) state).1 := by
  induction names with
  | nil => exact fun _ state => .refl _ state.1
  | cons text names inductionHypothesis =>
    intro proper state
    obtain ⟨name, rfl⟩ := proper text List.mem_cons_self
    have rest := inductionHypothesis fun text member => proper text (List.mem_cons_of_mem _ member)
    exact (sweepOne_spares apart state name).trans (rest _)

/-- A sweep leaves a data directory apart from the workspaces as it is. -/
theorem sweep_spares (apart : config.Apart data) : Disk.Spares data disk (sweep config disk).1 := by
  rw [sweep]
  split
  · exact .refl _ disk
  · exact .refl _ disk
  · next names listed =>
    refine foldl_sweepOne_spares apart names (fun text member => ?_) (disk, 0)
    obtain ⟨name, named, _⟩ := (Disk.mem_list listed text).mp member
    exact ⟨name, named⟩

end Workspace

end ContractWorks

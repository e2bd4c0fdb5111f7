import ContractWorks.Proofs.Storage.Lodging
import ContractWorks.Proofs.Toolchain.Errand
import Mathlib.Data.String.Basic

namespace ContractWorks

namespace Disk

open Path (place)

variable {disk next : Disk} {directory path : String} {content : ByteArray}

/-- A directory is clear when it stands, nothing is in it, and the paths of files in it are not too long. -/
structure Clear (disk : Disk) (directory : String) : Prop where
  stands : disk.isDirectory directory = true
  free : ∀ name more, disk.at? (place directory ++ name :: more) = none
  short : directory.utf8ByteSize + 256 ≤ 4095

/-- A file can be written into a directory where no directory has its name. -/
theorem write_into (name : FileName) (stands : disk.isDirectory directory = true) (zero : '\x00' ∉ name.text.toList)
    (fits : Disk.fits name = true) (short : directory.utf8ByteSize + name.text.utf8ByteSize + 1 ≤ 4095)
    (other : disk.at? (place directory ++ [name]) ≠ some .directory) (content : ByteArray) :
    ∃ next, disk.write (Path.join directory name.text) content = .ok next := by
  obtain ⟨resolved, here⟩ := isDirectory_iff.mp stands
  have path := Path.place_join_text directory name
  refine write_of_resolve content (resolve_join name resolved here zero fits short) (path ▸ other) ?_
  rwa [path, List.dropLast_concat]

theorem directory_of_write (written : disk.write path content = .ok next) {visited : Place}
    (here : disk.at? visited = some .directory) : next.at? visited = some .directory := by
  obtain ⟨_, other, entries⟩ := write_eq_ok written
  have differ : visited ≠ place path := fun same => other (same ▸ here)
  rw [entries, if_neg differ, here]

/-- A directory is made behind parts that can be walked, where nothing stands. -/
theorem makeAlong_into {parts : List PathPart} {name : FileName} (fits : Disk.fits name = true) :
    ∀ {start found : Place}, disk.walk start parts = .ok found → disk.at? found = some .directory →
      disk.at? (found ++ [name]) = none →
        disk.makeAlong start (parts ++ [.into name]) =
          .ok ⟨Table.insert (found ++ [name]) .directory disk.entries⟩ := by
  induction parts with
  | nil =>
    intro start found walked _ free
    rw [walk, Except.ok.injEq] at walked
    subst walked
    rw [List.nil_append, makeAlong, if_pos fits]
    simp only [free, makeAlong]
  | cons part rest inductionHypothesis =>
    intro start found walked last free
    obtain ⟨_, enters, further⟩ := walk_cons_eq_ok_iff.mp walked
    cases part with
    | up =>
      rw [List.cons_append, makeAlong]
      exact inductionHypothesis further last free
    | into first =>
      have room : Disk.fits first = true := enters
      have there : disk.at? (start ++ [first]) = some .directory := by
        apply directory_of_walk further last
        cases rest <;> simp [Path.through, PathPart.follow]
      rw [List.cons_append, makeAlong, if_pos room]
      simp only [there]
      exact inductionHypothesis further last free

theorem makeDirectories_into (name : FileName) (stands : disk.isDirectory directory = true)
    (zero : '\x00' ∉ name.text.toList) (fits : Disk.fits name = true)
    (short : directory.utf8ByteSize + name.text.utf8ByteSize + 1 ≤ 4095)
    (free : disk.at? (place directory ++ [name]) = none) :
    ∃ next, disk.makeDirectories (Path.join directory name.text) = .ok next ∧
      ∀ other, next.at? other = if other = place directory ++ [name] then some .directory else disk.at? other := by
  obtain ⟨resolved, here⟩ := isDirectory_iff.mp stands
  obtain ⟨taken, walked⟩ := resolve_eq_ok_iff.mp resolved
  refine ⟨_, ?_, at?_insert (by simp) .directory⟩
  rw [makeDirectories, partsOf_join name taken zero short]
  exact makeAlong_into fits walked here free

theorem attempt_of_ok {α : Type} {operation : Disk → Except DiskError Disk}
    {further : Disk → Disk × Except ToolchainError α} (done : operation disk = .ok next) :
    disk.attempt operation further = further next := by
  rw [attempt, done]

end Disk

namespace Toolchain

theorem utf8Len_of_ascii {characters : List Char} (ascii : ∀ character ∈ characters, character.val ≤ 127) :
    String.utf8Len characters = characters.length := by
  induction characters with
  | nil => rfl
  | cons character rest inductionHypothesis =>
    obtain ⟨first, others⟩ := List.forall_mem_cons.mp ascii
    rw [String.utf8Len_cons, inductionHypothesis others, Char.utf8Size_eq_one_iff.mpr first, List.length_cons]

theorem ascii_of_isAlphanum {character : Char} (allowed : character.isAlphanum = true) : character.val ≤ 127 := by
  rcases Bool.or_eq_true_iff.mp allowed with letter | digit
  · rcases Bool.or_eq_true_iff.mp letter with upper | lower
    · have capital : 'A'.val ≤ character.val ∧ character.val ≤ 'Z'.val := of_decide_eq_true upper
      exact UInt32.le_trans capital.2 (by decide)
    · have small : character.val ≤ 'z'.val := of_decide_eq_true (Bool.and_eq_true_iff.mp lower).2
      exact UInt32.le_trans small (by decide)
  · have last : character.val ≤ '9'.val := of_decide_eq_true (Bool.and_eq_true_iff.mp digit).2
    exact UInt32.le_trans last (by decide)

theorem mem_fileStem {contractName : String} {character : Char} (member : character ∈ (fileStem contractName).toList) :
    character.isAlphanum = true ∨ character = '_' := by
  rw [fileStem] at member
  split at member
  · exact .inl (List.all_eq_true.mp (by decide : "Contract".toList.all Char.isAlphanum = true) character member)
  · rw [String.toList_ofList, List.mem_map] at member
    obtain ⟨other, _, rfl⟩ := member
    split
    · next allowed => simpa using allowed
    · exact .inr rfl

theorem length_fileStem (contractName : String) :
    (fileStem contractName).toList.length ≤ max 8 contractName.length := by
  rw [fileStem]
  split
  · exact Nat.le_max_left _ _
  · rw [String.toList_ofList, List.length_map, String.length_toList]
    exact Nat.le_max_right _ _

/-- The name of the file of a contract takes one octet for each character. -/
theorem utf8ByteSize_fileStem (contractName : String) :
    (fileStem contractName).utf8ByteSize = (fileStem contractName).toList.length := by
  have ascii : ∀ character ∈ (fileStem contractName).toList, character.val ≤ 127 := by
    intro character member
    rcases mem_fileStem member with letter | rfl
    · exact ascii_of_isAlphanum letter
    · decide
  rw [← utf8Len_of_ascii ascii, ← String.utf8ByteSize_ofList, String.ofList_toList]

section Prepare

open Path (place)

variable {directory : String} {input : JobInput} {disk : Disk}

theorem solc_prepares (binary : String) (runs : UInt32) (clear : disk.Clear directory)
    (short : input.contractName.length ≤ 251) :
    ∃ ready stdin, Solc.prepare binary runs directory input disk =
      (ready, .ok ⟨binary, ["--standard-json"], directory, [], some stdin⟩) := by
  let name : FileName := ⟨fileStem input.contractName ++ ".sol", Solc.isProper_stem _ (by decide) (by decide)⟩
  have size : name.text.utf8ByteSize ≤ 255 := by
    have ending : ".sol".utf8ByteSize = 4 := by decide
    have length := length_fileStem input.contractName
    rw [String.utf8ByteSize_append, utf8ByteSize_fileStem, ending]
    omega
  have zero : '\x00' ∉ name.text.toList := by
    rw [String.toList_append, List.mem_append, not_or]
    refine ⟨fun member => ?_, by decide⟩
    rcases mem_fileStem member with letter | line
    · exact absurd letter (by decide)
    · exact absurd line (by decide)
  have short := clear.short
  obtain ⟨ready, written⟩ := Disk.write_into name clear.stands zero (decide_eq_true size) (by omega)
    (by rw [clear.free]; simp) input.source.toUTF8
  simp only [Solc.prepare, Disk.attempt, name] at written ⊢
  rw [written]
  exact ⟨_, _, rfl⟩

theorem cargo_prepares (binary target version : String) (clear : disk.Clear directory) (input : JobInput) :
    ∃ ready command, Cargo.prepare binary target version directory input disk = (ready, .ok command) := by
  let source : FileName := ⟨"src", by decide⟩
  let manifest : FileName := ⟨"Cargo.toml", by decide⟩
  let library : FileName := ⟨"lib.rs", by decide⟩
  have short := clear.short
  have sizes : source.text.utf8ByteSize = 3 ∧ manifest.text.utf8ByteSize = 10 ∧ library.text.utf8ByteSize = 6 := by
    decide
  have inside := Path.place_join_text directory source
  have size := Path.utf8ByteSize_join directory source.text
  -- The directory of the source is made first.
  obtain ⟨rooted, made, entries⟩ := Disk.makeDirectories_into source clear.stands (by decide) (by decide) (by omega)
    (clear.free source [])
  obtain ⟨grows, resolved, grounded⟩ := Disk.makeDirectories_eq_ok made
  have stands : rooted.isDirectory directory = true :=
    Disk.isDirectory_of_kept clear.stands fun _ _ here => grows.directory here
  -- The manifest comes beside it.
  have freeManifest : rooted.at? (place directory ++ [manifest]) = none := by
    rw [entries, if_neg (fun same => absurd (List.append_cancel_left same) (by decide)), clear.free]
  obtain ⟨first, written⟩ := Disk.write_into manifest stands (by decide) (by decide) (by omega)
    (by rw [freeManifest]; simp) (Cargo.manifest version (Cargo.packageName input.contractName)).toUTF8
  have standsSource : first.isDirectory (Path.join directory source.text) = true :=
    Disk.isDirectory_of_kept (Disk.isDirectory_iff.mpr ⟨resolved, grounded.here⟩) fun _ _ here =>
      Disk.directory_of_write written here
  -- The source comes into its directory.
  have freeLibrary : first.at? (place (Path.join directory source.text) ++ [library]) = none := by
    rw [(Disk.write_eq_ok written).2.2, entries, inside, List.append_assoc, Path.place_join_text,
      if_neg (fun same => absurd (List.append_cancel_left same) (by decide)),
      if_neg (fun same => absurd (List.append_cancel_left same) (by decide)), List.singleton_append, clear.free]
  obtain ⟨last, placed⟩ := Disk.write_into library standsSource (by decide) (by decide) (by omega)
    (by rw [freeLibrary]; simp) input.source.toUTF8
  rw [Cargo.prepare, Disk.attempt_of_ok made, Disk.attempt_of_ok written, Disk.attempt_of_ok placed]
  exact ⟨_, _, rfl⟩

end Prepare

end Toolchain

end ContractWorks

import ContractWorks.Proofs.Toolchain.Confined

namespace ContractWorks

/-- An errand works on files by their paths, one after another, and asks for a compiler in between. -/
inductive Errand (α : Type) where
  | done (result : Except ToolchainError α)
  | makeDirectories (path : String) (next : Errand α)
  | write (path : String) (content : ByteArray) (next : Errand α)
  | ask (command : Command) (next : ProcessOutput → Errand α)
  | read (path : String) (next : Except DiskError ByteArray → Errand α)

section Follow

variable {α β : Type}

/-- This function goes on with what a first part made, on the disk that it left; a failure ends all. -/
def Disk.follow (first : Disk × Except ToolchainError α) (next : α → Disk → Disk × Except ToolchainError β) :
    Disk × Except ToolchainError β :=
  match first with
  | (disk, .error error) => (disk, .error error)
  | (disk, .ok made) => next made disk

theorem Disk.follow_attempt (operation : Disk → Except DiskError Disk)
    (first : Disk → Disk × Except ToolchainError α) (next : α → Disk → Disk × Except ToolchainError β) (disk : Disk) :
    Disk.follow (disk.attempt operation first) next = disk.attempt operation fun disk => follow (first disk) next := by
  rw [Disk.attempt, Disk.attempt]
  cases operation disk <;> rfl

theorem Toolchain.run_eq_follow (toolchain : Toolchain) (budget : Budget) (host : Host) (directory : String)
    (input : JobInput) (stamp : Stamp) (disk : Disk) :
    toolchain.run budget host directory input stamp disk =
      Disk.follow (toolchain.prepare directory input disk) fun command disk =>
        Disk.follow (budget.run host command disk) (toolchain.collect directory input stamp) := by
  rw [Toolchain.run]
  rcases toolchain.prepare directory input disk with ⟨prepared, error | command⟩
  · rfl
  · simp only [Disk.follow]
    rcases budget.run host command prepared with ⟨left, error | output⟩ <;> rfl

end Follow

namespace Errand

variable {α : Type}

/-- This function does an errand on a disk. -/
def perform (budget : Budget) (host : Host) : Errand α → Disk → Disk × Except ToolchainError α
  | done result, disk => (disk, result)
  | makeDirectories path next, disk =>
    disk.attempt (fun disk => disk.makeDirectories path) (next.perform budget host)
  | write path content next, disk =>
    disk.attempt (fun disk => disk.write path content) (next.perform budget host)
  | ask command next, disk =>
    Disk.follow (budget.run host command disk) fun output disk => (next output).perform budget host disk
  | read path next, disk => (next (disk.read path)).perform budget host disk

/-- An errand uses a path when it makes, writes or reads it, whatever its compiler and the disk answer. -/
def Uses : Errand α → String → Prop
  | done _, _ => False
  | makeDirectories made next, path => path = made ∨ next.Uses path
  | write written _ next, path => path = written ∨ next.Uses path
  | ask _ next, path => ∃ output, (next output).Uses path
  | read found next, path => path = found ∨ ∃ answer, (next answer).Uses path

/-- This function gives the files that an errand writes before it waits for an answer. -/
def written : Errand α → List (String × ByteArray)
  | makeDirectories _ next => next.written
  | write path content next => (path, content) :: next.written
  | _ => []

/-- This function gives the command that an errand asks for as the first thing that it waits for. -/
def asked? : Errand α → Option Command
  | makeDirectories _ next => next.asked?
  | write _ _ next => next.asked?
  | ask command _ => some command
  | _ => none

end Errand

namespace Path

/-- A path leads properly below a directory when names, none of which leads up, follow that directory in it. -/
def Below (directory path : String) : Prop :=
  ∃ first others, parts path = parts directory ++ (first :: others).map .into

theorem below_name (directory : String) {name : String} (proper : isProper name = true) :
    Below directory (join directory name) :=
  ⟨⟨name, proper⟩, [], parts_join_text directory ⟨name, proper⟩⟩

theorem Below.join {directory path name : String} (below : Below directory path) (proper : isProper name = true) :
    Below directory (Path.join path name) := by
  obtain ⟨first, others, shape⟩ := below
  refine ⟨first, others ++ [⟨name, proper⟩], ?_⟩
  have added : parts (Path.join path name) = parts path ++ [.into ⟨name, proper⟩] :=
    parts_join_text path ⟨name, proper⟩
  rw [added, shape, List.append_assoc, ← List.cons_append, List.map_append]
  rfl

theorem follow_into : ∀ (names : List FileName) (place : Place),
    (names.map PathPart.into).foldl PathPart.follow place = place ++ names
  | [], place => (List.append_nil place).symm
  | name :: names, place => by
    rw [List.map_cons, List.foldl_cons, follow_into names, PathPart.follow, List.append_assoc,
      List.singleton_append]

/-- A path properly below a directory leads to a place properly below that of the directory. -/
theorem Below.place {directory path : String} (below : Below directory path) :
    ∃ first others, Path.place path = Path.place directory ++ first :: others := by
  obtain ⟨first, others, shape⟩ := below
  refine ⟨first, others, ?_⟩
  rw [Path.place, shape, List.foldl_append, follow_into]
  rfl

end Path

namespace Errand

variable {α : Type}

/-- An errand is kept in a directory when all paths that it uses lead properly below it, on every disk where they lead
anywhere, when it writes no file twice before it waits for an answer, and when the first answer that it waits for is
that of a compiler that runs in the directory. -/
structure KeptIn (errand : Errand α) (directory : String) : Prop where
  below : ∀ path, errand.Uses path → Path.Below directory path
  inside : ∀ path, errand.Uses path → ∀ (disk : Disk) place, disk.resolve path = .ok place →
    ∃ first others, place = Path.place directory ++ first :: others
  distinct : (errand.written.map fun file => Path.parts file.1).Nodup
  asks : ∃ command, errand.asked? = some command ∧ command.directory = directory

theorem KeptIn.of_below {errand : Errand α} {directory : String}
    (below : ∀ path, errand.Uses path → Path.Below directory path)
    (distinct : (errand.written.map fun file => Path.parts file.1).Nodup)
    (asks : ∃ command, errand.asked? = some command ∧ command.directory = directory) : errand.KeptIn directory where
  below := below
  inside path uses disk place resolved := by
    rw [Disk.resolve_place resolved]
    exact (below path uses).place
  distinct := distinct
  asks := asks

end Errand

namespace Solc

/-- This errand takes the output of the compiler and leaves the results as files. -/
def collecting (directory : String) (input : JobInput) (stamp : Stamp) (output : ProcessOutput) :
    Errand ToolchainOutput :=
  if !output.success then
    .done (.error (.failed ("solc exited with status " ++ statusText output.exitCode) output.stderr))
  else
    let stem := fileStem input.contractName
    match parse output.stdout (stem ++ ".sol") input.contractName with
    | .error error => .done (.error error)
    | .ok parsed =>
      let outDirectory := Path.join directory "out"
      let abiPath := Path.join outDirectory (stem ++ ".abi.json")
      let binPath := Path.join outDirectory (stem ++ ".bin")
      .makeDirectories outDirectory <| .write abiPath parsed.abi.compact.toUTF8 <|
        .write binPath parsed.bytecode.toUTF8 <| .done <| .ok
          { exitCode := output.exitCode, stdout := output.stdout, stderr := output.stderr,
            artifactPaths := [abiPath, binPath],
            artifact := .ofBytecode stamp.id stamp.now input.contractName parsed.abi
              parsed.bytecode parsed.warnings }

/-- This errand compiles an input. -/
def errand (binary : String) (defaultRuns : UInt32) (directory : String) (input : JobInput) (stamp : Stamp) :
    Errand ToolchainOutput :=
  let fileName := fileStem input.contractName ++ ".sol"
  let runs := input.optimizerRuns.getD defaultRuns
  .write (Path.join directory fileName) input.source.toUTF8 <|
    .ask
      { program := binary, arguments := ["--standard-json"], directory,
        input := some (request fileName input.source runs).compact.toUTF8 }
      (collecting directory input stamp)

theorem collect_eq_perform (directory : String) (input : JobInput) (stamp : Stamp) (output : ProcessOutput)
    (budget : Budget) (host : Host) (disk : Disk) :
    collect directory input stamp output disk =
      (collecting directory input stamp output).perform budget host disk := by
  rw [collect, collecting]
  split
  · rfl
  · dsimp only
    cases parse output.stdout (fileStem input.contractName ++ ".sol") input.contractName <;> rfl

/-- A run of the compiler does its errand. -/
theorem run_eq_perform (binary : String) (defaultRuns : UInt32) (directory : String) (input : JobInput) (stamp : Stamp)
    (budget : Budget) (host : Host) (disk : Disk) :
    (toolchain binary defaultRuns).run budget host directory input stamp disk =
      (errand binary defaultRuns directory input stamp).perform budget host disk := by
  have collects (output : ProcessOutput) (disk : Disk) :=
    collect_eq_perform directory input stamp output budget host disk
  simp only [Toolchain.run_eq_follow, toolchain, prepare, Disk.follow_attempt, errand, Errand.perform, ← collects]
  rfl

theorem isProper_stem (contractName : String) {ending : String} (long : 2 ≤ ending.toList.length)
    (single : '/' ∉ ending.toList) : Path.isProper (fileStem contractName ++ ending) = true :=
  Path.isProper_append (Toolchain.plain_fileStem contractName) long single

theorem below_of_collecting {directory path : String} {input : JobInput} {stamp : Stamp} {output : ProcessOutput}
    (uses : (collecting directory input stamp output).Uses path) : Path.Below directory path := by
  have out : Path.Below directory (Path.join directory "out") := Path.below_name directory (by decide)
  rw [collecting] at uses
  split at uses
  · exact uses.elim
  · dsimp only at uses
    split at uses
    · exact uses.elim
    · rcases uses with rfl | rfl | rfl | never
      · exact out
      · exact out.join (isProper_stem _ (by decide) (by decide))
      · exact out.join (isProper_stem _ (by decide) (by decide))
      · exact never.elim

/-- The compiler's errand is kept in its directory, whatever the contract is called. -/
theorem errand_keptIn (binary : String) (defaultRuns : UInt32) (directory : String) (input : JobInput)
    (stamp : Stamp) : (errand binary defaultRuns directory input stamp).KeptIn directory := by
  refine .of_below (fun path uses => ?_) (List.nodup_singleton _) ⟨_, rfl, rfl⟩
  rcases uses with rfl | ⟨output, uses⟩
  · exact Path.below_name directory (isProper_stem _ (by decide) (by decide))
  · exact below_of_collecting uses

end Solc

namespace Cargo

/-- A package name is written in small letters, digits and hyphens. -/
def isPlainChar (character : Char) : Bool :=
  character.isLower || character.isDigit || character = '-'

theorem isLower_toLower {character : Char} (upper : character.isUpper = true) : character.toLower.isLower = true := by
  have capital : 'A'.val ≤ character.val ∧ character.val ≤ 'Z'.val := of_decide_eq_true upper
  have lowered : character.toLower.val = character.val + ('a'.val - 'A'.val) := congrArg Char.val (dif_pos capital)
  have first : 65 ≤ character.val.toNat := UInt32.le_iff_toNat_le.mp capital.1
  have last : character.val.toNat ≤ 90 := UInt32.le_iff_toNat_le.mp capital.2
  have moved : character.toLower.val.toNat = character.val.toNat + 32 := by
    rw [lowered, UInt32.toNat_add]
    exact Nat.mod_eq_of_lt (Nat.lt_of_le_of_lt (Nat.add_le_add_right last 32) (by decide))
  have small : 'a'.val ≤ character.toLower.val ∧ character.toLower.val ≤ 'z'.val := by
    rw [UInt32.le_iff_toNat_le, UInt32.le_iff_toNat_le, moved]
    exact ⟨Nat.add_le_add_right first 32, Nat.add_le_add_right last 32⟩
  exact Bool.and_eq_true_iff.mpr ⟨decide_eq_true small.1, decide_eq_true small.2⟩

/-- A letter or digit in lower case is a small letter or a digit. -/
theorem toLower_cases {character : Char} (allowed : character.isAlphanum = true) :
    character.toLower.isLower = true ∨ character.toLower.isDigit = true := by
  by_cases upper : character.isUpper = true
  · exact .inl (isLower_toLower upper)
  · have same : character.toLower = character := dif_neg fun capital => upper (decide_eq_true capital)
    rw [same]
    rcases Bool.or_eq_true_iff.mp allowed with letter | digit
    · rcases Bool.or_eq_true_iff.mp letter with big | small
      · exact absurd big upper
      · exact .inl small
    · exact .inr digit

theorem isPlainChar_toLower {character : Char} (allowed : character.isAlphanum = true) :
    isPlainChar character.toLower = true := by
  simp only [isPlainChar, Bool.or_eq_true]
  exact .inl (toLower_cases allowed)

theorem isPlainChar_addChar {reversed : List Char} (plain : ∀ character ∈ reversed, isPlainChar character = true)
    (character : Char) : ∀ other ∈ addChar reversed character, isPlainChar other = true := by
  unfold addChar
  split
  · next allowed => exact List.forall_mem_cons.mpr ⟨isPlainChar_toLower allowed, plain⟩
  · split
    · exact plain
    · exact plain
    · exact List.forall_mem_cons.mpr ⟨by decide, plain⟩

theorem isPlainChar_foldl (characters : List Char) : ∀ {reversed : List Char},
    (∀ character ∈ reversed, isPlainChar character = true) →
      ∀ other ∈ characters.foldl addChar reversed, isPlainChar other = true := by
  induction characters with
  | nil => exact id
  | cons character characters inductionHypothesis =>
    exact fun plain => inductionHypothesis (isPlainChar_addChar plain character)

theorem isPlainChar_hyphenated (contractName : String) :
    ∀ character ∈ hyphenated contractName, isPlainChar character = true := by
  intro character member
  rw [hyphenated, List.mem_reverse] at member
  exact isPlainChar_foldl _ (by simp) character ((List.dropWhile_sublist _).subset member)

/-- A package name has no characters but small letters, digits and hyphens, whatever the contract is called. -/
theorem isPlainChar_packageName (contractName : String) :
    ∀ character ∈ (packageName contractName).toList, isPlainChar character = true := by
  have plain := isPlainChar_hyphenated contractName
  rw [packageName]
  split
  · exact List.all_eq_true.mp (by decide)
  · next first rest shape =>
    rw [shape] at plain
    split
    · rw [String.toList_append]
      refine List.forall_mem_append.mpr ⟨List.all_eq_true.mp (by decide), ?_⟩
      rwa [String.toList_ofList]
    · rwa [String.toList_ofList]

theorem isProper_wasmName (contractName : String) : Path.isProper (wasmName (packageName contractName)) = true := by
  apply Path.isProper_of_length
  · rw [wasmName, String.toList_append, List.length_append]
    exact Nat.le_add_left_of_le (by decide)
  · rw [wasmName, String.toList_append, String.toList_ofList, List.mem_append, not_or, List.mem_map]
    refine ⟨?_, by decide⟩
    rintro ⟨character, member, mapped⟩
    have plain := isPlainChar_packageName contractName character member
    split at mapped
    · exact absurd mapped (by decide)
    · subst mapped
      exact absurd plain (by decide)

/-- This errand takes the binary that a build left. -/
def collecting (target directory : String) (input : JobInput) (stamp : Stamp) (output : ProcessOutput) :
    Errand ToolchainOutput :=
  if !output.success then
    .done (.error
      (.failed ("cargo build exited with status " ++ Solc.statusText output.exitCode) output.stderr))
  else
    let path := wasmPath target directory (packageName input.contractName)
    .read path fun
      | .ok wasm => .done <| .ok
          { exitCode := output.exitCode, stdout := output.stdout, stderr := output.stderr,
            artifactPaths := [path],
            artifact := .ofWasm stamp.id stamp.now input.contractName wasm.toList
              (warnings output.stderr) }
      | .error .missing => .done (.error (.failed ("build produced no binary at " ++ path) output.stderr))
      | .error error => .done (.error (.ofDisk error))

/-- This errand builds the package of an input. -/
def errand (binary target sdkVersion : String) (directory : String) (input : JobInput) (stamp : Stamp) :
    Errand ToolchainOutput :=
  let package := packageName input.contractName
  let sourceDirectory := Path.join directory "src"
  .makeDirectories sourceDirectory <|
    .write (Path.join directory "Cargo.toml") (manifest sdkVersion package).toUTF8 <|
      .write (Path.join sourceDirectory "lib.rs") input.source.toUTF8 <|
        .ask
          { program := binary,
            arguments := ["build", "--release", "--target", target, "--target-dir",
              Path.join directory "target"],
            directory, environment := [("CARGO_TERM_COLOR", "never")] }
          (collecting target directory input stamp)

theorem collect_eq_perform (target directory : String) (input : JobInput) (stamp : Stamp) (output : ProcessOutput)
    (budget : Budget) (host : Host) (disk : Disk) :
    collect target directory input stamp output disk =
      (collecting target directory input stamp output).perform budget host disk := by
  rw [collect, collecting]
  split
  · rfl
  · dsimp only [Errand.perform]
    rcases disk.read (wasmPath target directory (packageName input.contractName)) with error | wasm
    · cases error <;> rfl
    · rfl

/-- A run of the build does its errand. -/
theorem run_eq_perform (binary target sdkVersion directory : String) (input : JobInput) (stamp : Stamp)
    (budget : Budget) (host : Host) (disk : Disk) :
    (toolchain binary target sdkVersion).run budget host directory input stamp disk =
      (errand binary target sdkVersion directory input stamp).perform budget host disk := by
  have collects (output : ProcessOutput) (disk : Disk) :=
    collect_eq_perform target directory input stamp output budget host disk
  simp only [Toolchain.run_eq_follow, toolchain, prepare, Disk.follow_attempt, errand, Errand.perform, ← collects]
  rfl

theorem below_of_collecting {target directory path : String} (proper : Path.isProper target = true)
    {input : JobInput} {stamp : Stamp} {output : ProcessOutput}
    (uses : (collecting target directory input stamp output).Uses path) : Path.Below directory path := by
  rw [collecting] at uses
  split at uses
  · exact uses.elim
  · dsimp only [Errand.Uses] at uses
    rcases uses with same | ⟨answer, uses⟩
    · rw [same, wasmPath]
      have inTarget : Path.Below directory (Path.join directory "target") := Path.below_name directory (by decide)
      exact ((inTarget.join proper).join (by decide)).join (isProper_wasmName _)
    · rcases answer with error | wasm
      · cases error <;> exact uses.elim
      · exact uses.elim

/-- The errand of a build is kept in its directory, whatever the contract is called, when its target is a single
name. -/
theorem errand_keptIn (binary sdkVersion directory : String) {target : String} (proper : Path.isProper target = true)
    (input : JobInput) (stamp : Stamp) :
    (errand binary target sdkVersion directory input stamp).KeptIn directory := by
  have source : Path.Below directory (Path.join directory "src") := Path.below_name directory (by decide)
  refine .of_below (fun path uses => ?_) ?_ ⟨_, rfl, rfl⟩
  · rcases uses with rfl | rfl | rfl | ⟨output, uses⟩
    · exact source
    · exact Path.below_name directory (by decide)
    · exact source.join (by decide)
    · exact below_of_collecting proper uses
  · have manifest : Path.parts (Path.join directory "Cargo.toml") = Path.parts directory ++ [_] :=
      Path.parts_join_text directory ⟨"Cargo.toml", by decide⟩
    have sources : Path.parts (Path.join directory "src") = Path.parts directory ++ [_] :=
      Path.parts_join_text directory ⟨"src", by decide⟩
    have library : Path.parts (Path.join (Path.join directory "src") "lib.rs") =
        Path.parts (Path.join directory "src") ++ [_] :=
      Path.parts_join_text (Path.join directory "src") ⟨"lib.rs", by decide⟩
    refine List.pairwise_pair.mpr fun same => ?_
    -- The two paths have different lengths.
    have lengths := congrArg List.length same
    dsimp only at lengths
    rw [manifest, library, sources] at lengths
    simp at lengths

end Cargo

end ContractWorks

import ContractWorks.Proofs.Storage.Spare
import ContractWorks.Service.Launch
import ContractWorks.Toolchain.Playback
import ContractWorks.Toolchain.Scripted

namespace ContractWorks

/-- The compilers of a setting stamp their artifacts when these carry the name that they are given. -/
def Setting.Stamps (setting : Setting) : Prop :=
  ∀ kind directory input chance disk artifact,
    (setting.compilers kind directory input chance disk).2 = .made artifact → artifact.id = chance.name

/-- The compilers and workspaces of a setting are confined when they stay apart from a data directory, and when
artifacts carry the name that they are given. -/
structure Setting.Confined (setting : Setting) (data : String) : Prop where
  inside : ∀ kind directory input chance disk,
    Disk.StaysBelow (Path.place directory) disk (setting.compilers kind directory input chance disk).1
  stamped : setting.Stamps
  apart : setting.workspaces.Apart data

/-- The compilers of a setting are contained when they take away directories in the one that they run in only. -/
def Setting.Contained (setting : Setting) : Prop :=
  ∀ kind directory input chance disk place, ¬Path.place directory <+: place → disk.at? place = some .directory →
    (setting.compilers kind directory input chance disk).1.at? place = some .directory

theorem Setting.Confined.contained {setting : Setting} {data : String} (confined : setting.Confined data) :
    setting.Contained :=
  fun kind directory input chance disk _ outside here =>
    (confined.inside kind directory input chance disk).directory outside here

namespace WorkspaceConfig

variable {config : WorkspaceConfig} {data name : String}

theorem isProper_of_names (long : 3 ≤ config.namePrefix.toList.length)
    (single : '/' ∉ config.namePrefix.toList) (named : config.Names name) : Path.isProper name = true := by
  obtain ⟨ending, rfl, proper | safe⟩ := named
  · exact proper
  · have plain : '/' ∉ ending.toList := by
      intro slash
      have allowed := List.all_eq_true.mp (Bool.and_eq_true_iff.mp safe).2 '/' slash
      exact absurd allowed (by decide)
    apply Path.isProper_of_length
    · rw [String.toList_append, List.length_append]
      omega
    · rw [String.toList_append, List.mem_append, not_or]
      exact ⟨single, plain⟩

/-- Workspaces lie apart from a data directory when their root is neither on the way to it nor in it, and it is not
in their root. -/
theorem apart_of_root (long : 3 ≤ config.namePrefix.toList.length)
    (single : '/' ∉ config.namePrefix.toList)
    (way : ∀ visited ∈ Path.visits data, ¬Path.place config.root <+: visited)
    (outside : ¬Path.place data <+: Path.place config.root) : config.Apart data := by
  intro name named guarded guards inside
  have proper := isProper_of_names long single named
  have place : Path.place (Path.join config.root name) = Path.place config.root ++ [⟨name, proper⟩] :=
    Path.place_join_text config.root ⟨name, proper⟩
  rw [place] at inside
  have root := (List.prefix_append _ _).trans inside
  rcases guards with visited | below
  · exact way guarded visited root
  · rcases List.prefix_or_prefix_of_prefix root below with first | second
    · exact way _ (Path.place_mem_visits data) first
    · exact outside second

end WorkspaceConfig

/-- A host is confined when its processes stay below the directory that they run in. -/
def Host.Confined (host : Host) : Prop :=
  ∀ command disk, Disk.StaysBelow (Path.place command.directory) disk (host command disk).1

/-- A playback that leaves nothing behind is confined. -/
theorem Playback.confined {playback : Playback} (files : playback.files = [])
    (directories : playback.directories = []) : playback.host.Confined := by
  intro command disk
  rw [host, files, directories, List.mergeSort_nil]
  split
  · exact .refl _ disk
  · exact .refl _ disk

namespace Toolchain

open Path (Plain place)

variable {top : Place} {directory contractName : String} {input : JobInput} {stamp : Stamp}
  {output : ProcessOutput} {disk : Disk}

theorem attempt_staysBelow {α : Type} {operation : Disk → Except DiskError Disk}
    {further : Disk → Disk × Except ToolchainError α}
    (first : ∀ next, operation disk = .ok next → Disk.StaysBelow top disk next)
    (rest : ∀ next, Disk.StaysBelow top next (further next).1) :
    Disk.StaysBelow top disk (disk.attempt operation further).1 := by
  rw [Disk.attempt]
  split
  · next next done => exact (first next done).trans (rest next)
  · exact .refl _ disk

theorem makeDirectories_staysBelow {path : String} {next : Disk}
    (made : disk.makeDirectories path = .ok next) : Disk.StaysBelow top disk next :=
  (Disk.makeDirectories_eq_ok made).1.growsAt _

/-- The name of the file of a contract has no slash in it. -/
theorem plain_fileStem (contractName : String) : Plain (fileStem contractName) := by
  rw [fileStem]
  split
  · exact ⟨by decide, by decide⟩
  · next some =>
    refine ⟨fun empty => some ?_, ?_⟩
    · have list := congrArg String.toList empty
      rwa [String.toList_ofList] at list
    · rw [String.toList_ofList, List.mem_map]
      rintro ⟨character, _, mapped⟩
      split at mapped
      · next allowed =>
        subst mapped
        exact absurd allowed (by decide)
      · exact absurd mapped (by decide)

/-- A file name behind the path of a place below another one leads below that one. -/
theorem below_join {base name : String} (proper : Path.isProper name = true) (below : top <+: place base) :
    top <+: place (Path.join base name) := by
  have path : place (Path.join base name) = place base ++ [⟨name, proper⟩] :=
    Path.place_join_text base ⟨name, proper⟩
  rw [path]
  exact below.trans (List.prefix_append _ _)

theorem below_stem {base ending : String} (long : 2 ≤ ending.toList.length) (single : '/' ∉ ending.toList)
    (below : top <+: place base) : top <+: place (Path.join base (fileStem contractName ++ ending)) :=
  below_join (Path.isProper_append (plain_fileStem contractName) long single) below

theorem solc_prepare_staysBelow {binary : String} {runs : UInt32} :
    Disk.StaysBelow (place directory) disk (Solc.prepare binary runs directory input disk).1 := by
  rw [Solc.prepare]
  refine attempt_staysBelow (fun next written => ?_) fun next => .refl _ next
  exact Disk.staysBelow_write (below_stem (by decide) (by decide) (List.prefix_refl _)) written

theorem solc_collect_staysBelow :
    Disk.StaysBelow (place directory) disk (Solc.collect directory input stamp output disk).1 := by
  have out : place directory <+: place (Path.join directory "out") := below_join (by decide) (List.prefix_refl _)
  rw [Solc.collect]
  split
  · exact .refl _ disk
  · dsimp only
    split
    · exact .refl _ disk
    · refine attempt_staysBelow (fun next made => makeDirectories_staysBelow made) fun rooted => ?_
      refine attempt_staysBelow (fun next written => ?_) fun first => ?_
      · exact Disk.staysBelow_write (below_stem (by decide) (by decide) out) written
      · refine attempt_staysBelow (fun next written => ?_) fun last => .refl _ last
        exact Disk.staysBelow_write (below_stem (by decide) (by decide) out) written

theorem cargo_prepare_staysBelow {binary target version : String} :
    Disk.StaysBelow (place directory) disk (Cargo.prepare binary target version directory input disk).1 := by
  have source : place directory <+: place (Path.join directory "src") :=
    below_join (by decide) (List.prefix_refl _)
  rw [Cargo.prepare]
  refine attempt_staysBelow (fun next made => makeDirectories_staysBelow made) fun rooted => ?_
  refine attempt_staysBelow (fun next written => ?_) fun first => ?_
  · exact Disk.staysBelow_write (below_join (by decide) (List.prefix_refl _)) written
  · refine attempt_staysBelow (fun next written => ?_) fun last => .refl _ last
    exact Disk.staysBelow_write (below_join (by decide) source) written

theorem cargo_collect_staysBelow {target : String} :
    Disk.StaysBelow (place directory) disk (Cargo.collect target directory input stamp output disk).1 := by
  rw [Cargo.collect]
  split
  · exact .refl _ disk
  · dsimp only
    split <;> exact .refl _ disk

theorem attempt_ok {α : Type} {operation : Disk → Except DiskError Disk}
    {further : Disk → Disk × Except ToolchainError α} {made : α}
    (done : (disk.attempt operation further).2 = .ok made) : ∃ next, (further next).2 = .ok made := by
  rw [Disk.attempt] at done
  split at done
  · next next _ => exact ⟨next, done⟩
  · simp at done

/-- A toolchain is confined when it stays below the directory that it is given, asks for its compiler to run there,
and stamps what it collects. -/
structure Confined (toolchain : Toolchain) : Prop where
  prepares : ∀ directory input disk,
    Disk.StaysBelow (place directory) disk (toolchain.prepare directory input disk).1
  asks : ∀ {directory input disk command}, (toolchain.prepare directory input disk).2 = .ok command →
    command.directory = directory
  collects : ∀ directory input stamp output disk,
    Disk.StaysBelow (place directory) disk (toolchain.collect directory input stamp output disk).1
  stamps : ∀ {directory input stamp output disk made},
    (toolchain.collect directory input stamp output disk).2 = .ok made → made.artifact.id = stamp.id

theorem solc_asks {binary : String} {runs : UInt32} {command : Command}
    (prepared : (Solc.prepare binary runs directory input disk).2 = .ok command) :
    command.directory = directory := by
  rw [Solc.prepare] at prepared
  obtain ⟨_, asked⟩ := attempt_ok prepared
  exact congrArg Command.directory (Except.ok.inj asked).symm

theorem solc_stamps {made : ToolchainOutput}
    (collected : (Solc.collect directory input stamp output disk).2 = .ok made) :
    made.artifact.id = stamp.id := by
  rw [Solc.collect] at collected
  split at collected
  · simp at collected
  · dsimp only at collected
    split at collected
    · simp at collected
    · obtain ⟨_, first⟩ := attempt_ok collected
      obtain ⟨_, second⟩ := attempt_ok first
      obtain ⟨_, last⟩ := attempt_ok second
      rw [← Except.ok.inj last]
      rfl

theorem solc_confined (binary : String) (runs : UInt32) : Confined (Solc.toolchain binary runs) := by
  have prepares (directory : String) (input : JobInput) (disk : Disk) :
      Disk.StaysBelow (place directory) disk (Solc.prepare binary runs directory input disk).1 :=
    solc_prepare_staysBelow
  have collects (directory : String) (input : JobInput) (stamp : Stamp) (output : ProcessOutput) (disk : Disk) :
      Disk.StaysBelow (place directory) disk (Solc.collect directory input stamp output disk).1 :=
    solc_collect_staysBelow
  refine ⟨prepares, ?_, collects, ?_⟩
  · intro directory input disk command prepared
    have shown : (Solc.prepare binary runs directory input disk).2 = .ok command := prepared
    exact solc_asks shown
  · intro directory input stamp output disk made collected
    have shown : (Solc.collect directory input stamp output disk).2 = .ok made := collected
    exact solc_stamps shown

theorem cargo_asks {binary target version : String} {command : Command}
    (prepared : (Cargo.prepare binary target version directory input disk).2 = .ok command) :
    command.directory = directory := by
  rw [Cargo.prepare] at prepared
  obtain ⟨_, first⟩ := attempt_ok prepared
  obtain ⟨_, second⟩ := attempt_ok first
  obtain ⟨_, asked⟩ := attempt_ok second
  exact congrArg Command.directory (Except.ok.inj asked).symm

theorem cargo_stamps {target : String} {made : ToolchainOutput}
    (collected : (Cargo.collect target directory input stamp output disk).2 = .ok made) :
    made.artifact.id = stamp.id := by
  rw [Cargo.collect] at collected
  split at collected
  · simp at collected
  · dsimp only at collected
    split at collected
    · rw [← Except.ok.inj collected]
      rfl
    · simp at collected
    · simp at collected

theorem cargo_confined (binary target version : String) : Confined (Cargo.toolchain binary target version) := by
  have prepares (directory : String) (input : JobInput) (disk : Disk) :
      Disk.StaysBelow (place directory) disk (Cargo.prepare binary target version directory input disk).1 :=
    cargo_prepare_staysBelow
  have collects (directory : String) (input : JobInput) (stamp : Stamp) (output : ProcessOutput) (disk : Disk) :
      Disk.StaysBelow (place directory) disk (Cargo.collect target directory input stamp output disk).1 :=
    cargo_collect_staysBelow
  refine ⟨prepares, ?_, collects, ?_⟩
  · intro directory input disk command prepared
    have shown : (Cargo.prepare binary target version directory input disk).2 = .ok command := prepared
    exact cargo_asks shown
  · intro directory input stamp output disk made collected
    have shown : (Cargo.collect target directory input stamp output disk).2 = .ok made := collected
    exact cargo_stamps shown

theorem forKind_confined (config : ToolchainConfig) (kind : JobKind) : Confined (forKind config kind) := by
  cases kind with
  | evm => exact solc_confined _ _
  | stellar => exact cargo_confined _ _ _

/-- On a confined host a confined toolchain stays below the directory that it is given. -/
theorem Confined.run_staysBelow {toolchain : Toolchain} (confined : toolchain.Confined) {host : Host}
    (hosted : host.Confined) (budget : Budget) :
    Disk.StaysBelow (place directory) disk (toolchain.run budget host directory input stamp disk).1 := by
  have prepares := confined.prepares directory input disk
  rw [Toolchain.run]
  split
  · next prepared =>
    rw [prepared] at prepares
    exact prepares
  · next middle command prepared =>
    have asked : command.directory = directory := confined.asks (by rw [prepared])
    rw [prepared] at prepares
    have runs : Disk.StaysBelow (place directory) middle (budget.run host command middle).1 := by
      rw [Budget.run]
      split
      · exact asked ▸ hosted command middle
      · exact .refl _ middle
    split
    · next ended =>
      rw [ended] at runs
      exact prepares.trans runs
    · next ended =>
      rw [ended] at runs
      exact (prepares.trans runs).trans (confined.collects directory input stamp _ _)

theorem Confined.run_stamps {toolchain : Toolchain} (confined : toolchain.Confined) {host : Host}
    {budget : Budget} {made : ToolchainOutput}
    (done : (toolchain.run budget host directory input stamp disk).2 = .ok made) :
    made.artifact.id = stamp.id := by
  rw [Toolchain.run] at done
  split at done
  · simp at done
  · split at done
    · simp at done
    · exact confined.stamps done

end Toolchain

/-- The compilers of a service stamp their artifacts. -/
theorem ToolchainConfig.stamps (config : ToolchainConfig) (host : Host) (queue : QueueConfig)
    (workspaces : WorkspaceConfig) : Setting.Stamps ⟨queue, workspaces, config.compiler host⟩ := by
  intro kind directory input chance disk artifact made
  dsimp only [ToolchainConfig.compiler] at made
  split at made
  · next ended =>
    rw [← CompilerEnd.made.inj made]
    exact (Toolchain.forKind_confined config kind).run_stamps (congrArg Prod.snd ended)
  · simp at made

/-- A compiler of a service stays below its directory on a confined host. -/
theorem ToolchainConfig.compiler_inside {config : ToolchainConfig} {host : Host} (hosted : host.Confined)
    {kind : JobKind} {directory : String} {input : JobInput} {chance : Chance} {disk : Disk} :
    Disk.StaysBelow (Path.place directory) disk (config.compiler host kind directory input chance disk).1 := by
  have stays : Disk.StaysBelow (Path.place directory) disk ((Toolchain.forKind config kind).run config.budget
      host directory input ⟨chance.name, chance.now⟩ disk).1 :=
    (Toolchain.forKind_confined config kind).run_staysBelow hosted config.budget
  dsimp only [ToolchainConfig.compiler]
  split
  · next ended =>
    rw [ended] at stays
    exact stays
  · next ended =>
    rw [ended] at stays
    exact stays

/-- The compilers of a service are contained on a confined host. -/
theorem ToolchainConfig.contained {config : ToolchainConfig} {host : Host} (hosted : host.Confined)
    (queue : QueueConfig) (workspaces : WorkspaceConfig) :
    Setting.Contained ⟨queue, workspaces, config.compiler host⟩ :=
  fun _ _ _ _ _ _ outside here => (config.compiler_inside hosted).directory outside here

/-- The compilers of a service are confined on a confined host, when its workspaces lie apart from its data. -/
theorem ToolchainConfig.confined {config : ToolchainConfig} {host : Host} (hosted : host.Confined)
    {queue : QueueConfig} {workspaces : WorkspaceConfig} {data : String} (apart : workspaces.Apart data) :
    Setting.Confined ⟨queue, workspaces, config.compiler host⟩ data where
  inside _ _ _ _ _ := config.compiler_inside hosted
  stamped := config.stamps host queue workspaces
  apart := apart

namespace Scripted

variable {kind : JobKind} {directory : String} {input : JobInput} {chance : Chance} {disk : Disk}

/-- The compilers that follow marks stay below their directory. -/
theorem compiler_inside :
    Disk.StaysBelow (Path.place directory) disk (compiler kind directory input chance disk).1 := by
  have written : Disk.StaysBelow (Path.place directory) disk
      (((disk.write (Path.join directory "touched") .empty).toOption).getD disk) := by
    cases done : disk.write (Path.join directory "touched") .empty with
    | error error => exact .refl _ disk
    | ok next =>
      have place : Path.place (Path.join directory "touched") =
          Path.place directory ++ [⟨"touched", by decide⟩] := Path.place_join_text directory ⟨"touched", by decide⟩
      exact Disk.staysBelow_write (place ▸ List.prefix_append _ _) done
  have removed (other : Disk) :
      Disk.StaysBelow (Path.place directory) other ((other.removeTree directory).toOption.getD other) := by
    cases done : other.removeTree directory with
    | error error => exact .refl _ other
    | ok next => exact Disk.staysBelow_removeTree done
  rw [compiler]
  split
  · split
    · exact written.trans (removed _)
    · exact written
  · split
    · exact written.trans (removed _)
    · exact written

/-- The artifacts of the compilers that follow marks carry the name that they are given. -/
theorem compiler_stamped (artifact : Artifact)
    (made : (compiler kind directory input chance disk).2 = .made artifact) : artifact.id = chance.name := by
  rw [compiler] at made
  split at made
  · next failure found =>
    have member := List.mem_of_find?_eq_some found
    have never : ∀ failure ∈ failures, ∀ artifact, failure.2 ≠ .made artifact := by
      intro failure member artifact
      simp only [failures, List.mem_cons, List.not_mem_nil, or_false] at member
      rcases member with rfl | rfl | rfl | rfl | rfl | rfl | rfl | rfl <;> simp
    exact absurd made (never failure member artifact)
  · obtain rfl := CompilerEnd.made.inj made
    cases kind <;> rfl

end Scripted

/-- This setting compiles by marks in directories below `work`. -/
def Setting.scripted : Setting where
  config := {}
  workspaces := ⟨"work", "forge-job-"⟩
  compilers := Scripted.compiler

theorem Setting.scripted_confined : Setting.scripted.Confined "data" where
  inside _ _ _ _ _ := Scripted.compiler_inside
  stamped _ _ _ _ _ artifact := Scripted.compiler_stamped artifact
  apart := WorkspaceConfig.apart_of_root (by decide) (by decide) (by decide) (by decide)

end ContractWorks

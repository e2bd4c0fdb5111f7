import ContractWorks.Proofs.Settings.Entry
import ContractWorks.Proofs.Settings.Variable
import ContractWorks.Service.CommandLine

namespace ContractWorks

open SettingStep (ofKey)
open SettingTree (Apart Over OverPart assignments childStep cell? cellStep entered enters keysOf variableKey
  variableText? withEnvironment_eq)

namespace Settings

/-- This tree holds what is set from the start. -/
def builtIn (temporary : String) : SettingTree :=
  .ofJson (ServiceConfig.default temporary).encode

/-- This function gives what a file sets, if one is named. -/
def setByFile (disk : Disk) : Option String → Option (List (String × SettingTree))
  | none => some []
  | some path => ofFile disk path

/-- This is the tree that the settings are read from. -/
def layered (temporary : String) (members : List (String × SettingTree)) (environment : List (String × String)) :
    SettingTree :=
  ((builtIn temporary).overlay members).withEnvironment environment

section Load

variable {temporary : String} {disk : Disk} {path : Option String} {environment others : List (String × String)}
  {members : List (String × SettingTree)} {config : ServiceConfig}

theorem load_eq (temporary : String) (disk : Disk) (path : Option String) (environment : List (String × String)) :
    load temporary disk path environment =
      (setByFile disk path).bind fun members => ((layered temporary members environment).toConfig temporary).toOption := by
  cases path <;> rfl

theorem load_eq_some_iff :
    load temporary disk path environment = some config ↔
      ∃ members, setByFile disk path = some members ∧
        (layered temporary members environment).toConfig temporary = .ok config := by
  rw [load_eq, Option.bind_eq_some_iff]
  refine exists_congr fun members => and_congr_right fun _ => ?_
  cases (layered temporary members environment).toConfig temporary <;> simp [Except.toOption]

theorem child?_layered (temporary : String) (members : List (String × SettingTree))
    (environment : List (String × String)) (part : String) :
    (layered temporary members environment).child? part =
      (assignments environment).foldl (childStep part)
        (members.foldl (childStep part) ((builtIn temporary).child? part)) := by
  rw [layered, withEnvironment_eq, SettingTree.child?_overlay, SettingTree.child?_overlay]

/-- The settings that are read depend on the parts of the tree and on nothing else in it. -/
theorem toConfig_congr {root other : SettingTree}
    (same : ∀ part ∈ SettingTree.parts, root.child? part.1 = other.child? part.1) :
    root.toConfig temporary = other.toConfig temporary := by
  have shared : (Table.tabulate SettingTree.parts fun part => (root.child? part.1).map part.2) =
      Table.tabulate SettingTree.parts fun part => (other.child? part.1).map part.2 :=
    List.filterMap_congr fun part member => congrArg _ (congrArg _ (same part member))
  rw [SettingTree.toConfig, SettingTree.toConfig, SettingTree.toSections_eq, SettingTree.toSections_eq, shared]

end Load

section BuiltIn

theorem isSingle_ofNumber (number : Json.Number) : (SettingTree.ofNumber number).IsSingle := by
  cases number with
  | whole value =>
    rw [SettingTree.ofNumber]
    split <;> trivial
  | real value => trivial

/-- The settings of a configuration stand in a tree under their parts and keys. -/
theorem builtIn_eq (temporary : String) :
    builtIn temporary =
      let config := ServiceConfig.default temporary
      let count (value : Nat) := SettingTree.ofJson (.count value)
      .group [
        ("server", .group [("listen_addr", .text config.server.listenAddress.text),
          ("enable_cors", .truth config.server.enableCors), ("max_body_size", count config.server.maxBodySize.toNat)]),
        ("storage", .group [("type", .text "memory")]),
        ("queue", .group [("workers", count config.queue.workers.toNat),
          ("channel_capacity", count config.queue.channelCapacity.toNat),
          ("max_source_bytes", count config.queue.maxSourceBytes.toNat),
          ("start_retry_ms", count config.queue.startRetryMillis.toNat)]),
        ("workspace", .group [("root", .text config.workspace.root), ("prefix", .text config.workspace.namePrefix)]),
        ("toolchain", .group [("solc_path", .text config.toolchain.solcPath),
          ("cargo_path", .text config.toolchain.cargoPath),
          ("timeout_secs", count config.toolchain.timeoutSeconds.toNat),
          ("default_optimizer_runs", count config.toolchain.defaultOptimizerRuns.toNat),
          ("wasm_target", .text config.toolchain.wasmTarget),
          ("soroban_sdk_version", .text config.toolchain.sorobanSdkVersion)]),
        ("logging", .group [("level", .text config.logging.level), ("json", .truth config.logging.json)])] := by
  simp only [builtIn, ServiceConfig.encode, ServerConfig.encode, QueueConfig.encode, WorkspaceConfig.encode,
    ToolchainConfig.encode, LoggingConfig.encode, SettingTree.ofJson, SettingTree.ofMembers]
  rfl

/-- From the start each part is a group of single values. -/
theorem exists_child?_builtIn (temporary : String) :
    ∀ part ∈ SettingTree.parts.map Prod.fst, ∃ presets, (builtIn temporary).child? part = some (.group presets) ∧
      ∀ preset ∈ presets, preset.2.IsSingle := by
  have number (value : Nat) : (SettingTree.ofJson (.count value)).IsSingle := by
    simp only [Json.count, SettingTree.ofJson, isSingle_ofNumber]
  have truth (value : Bool) : (SettingTree.truth value).IsSingle := trivial
  have text (value : String) : (SettingTree.text value).IsSingle := trivial
  rw [builtIn_eq]
  simp only [SettingTree.parts, SettingTree.sections, List.map_cons, List.map_nil, List.cons_append, List.nil_append,
    List.forall_mem_cons]
  refine ⟨⟨_, rfl, ?_⟩, ⟨_, rfl, ?_⟩, ⟨_, rfl, ?_⟩, ⟨_, rfl, ?_⟩, ⟨_, rfl, ?_⟩, ⟨_, rfl, ?_⟩, by simp⟩ <;>
  simp only [List.forall_mem_cons, number, truth, text, true_and] <;> simp

/-- A number that is written is read as that number. -/
theorem natural_count {value bound bits : Nat} (expected : String) (fits : value ≤ bound)
    (narrow : value < Nat.pow 2 bits) (small : value < 0x8000000000000000) :
    Decode.natural bound expected ((SettingTree.ofJson (.count value)).toShape (.whole bits)) = .ok value := by
  have whole : SettingTree.ofJson (.count value) = .whole value := by
    rw [Json.count, SettingTree.ofJson, SettingTree.ofNumber, if_pos ⟨by omega, by omega⟩]
  have read : (SettingTree.whole value).toWhole? = some value := by
    rw [SettingTree.toWhole?, SettingTree.maxWhole, if_pos ⟨by omega, by omega⟩, Int.toNat_natCast]
  rw [whole, SettingTree.toShape, read]
  simp only [if_pos narrow]
  rw [Decode.natural, if_pos ⟨by omega, by omega⟩, Int.toNat_natCast]

/-- What is set from the start gives the configuration that is built in. -/
theorem builtIn_takes (temporary : String) :
    ∀ entry ∈ Entry.all, entry.2.Takes temporary ((builtIn temporary).at? entry.2.part entry.2.key)
      (entry.2.field (.default temporary)) := by
  have size (value : UInt64) (small : value.toNat < 0x8000000000000000) :
      Decode.size ((SettingTree.ofJson (.count value.toNat)).toShape (.whole 64)) = .ok value := by
    rw [Decode.size, natural_count _ (by omega) (Nat.lt_trans small (by decide)) small, Except.map, UInt64.ofNat_toNat]
  have uint64 (value : UInt64) (small : value.toNat < 0x8000000000000000) :
      Decode.uint64 ((SettingTree.ofJson (.count value.toNat)).toShape (.whole 64)) = .ok value := by
    rw [Decode.uint64, natural_count _ (by omega) (Nat.lt_trans small (by decide)) small, Except.map,
      UInt64.ofNat_toNat]
  have uint32 (value : UInt32) :
      Decode.uint32 ((SettingTree.ofJson (.count value.toNat)).toShape (.whole 32)) = .ok value := by
    have bounded : value.toNat < 4294967296 := value.toNat_lt
    rw [Decode.uint32, natural_count _ (by omega) bounded (by omega), Except.map, UInt32.ofNat_toNat]
  have address : ServerConfig.decodeAddress (.text (Address.text (.short [127, 0, 0, 1] 8080))) =
      .ok (.short [127, 0, 0, 1] 8080) := by rfl
  simp only [Entry.all, Entry.ofServer, Entry.ofQueue, Entry.ofWorkspace, Entry.ofToolchain, Entry.ofLogging,
    List.cons_append, List.nil_append, List.forall_mem_cons, builtIn_eq]
  let server : ServerConfig := {}
  let queue : QueueConfig := {}
  let toolchain : ToolchainConfig := {}
  refine ⟨address, rfl, ?_, ?_, ?_, ?_, ?_, rfl, rfl, rfl, rfl, ?_, ?_, rfl, rfl, rfl, rfl, by simp⟩ <;>
  simp only [Entry.Takes, SettingTree.at?, SettingTree.child?_group, Table.get?, String.reduceEq, ↓reduceIte,
    SettingTree.named, Option.bind_some]
  exacts [size server.maxBodySize (by decide), size queue.workers (by decide), size queue.channelCapacity (by decide),
    size queue.maxSourceBytes (by decide), uint64 queue.startRetryMillis (by decide),
    uint64 toolchain.timeoutSeconds (by decide), uint32 toolchain.defaultOptimizerRuns]

end BuiltIn

section Place

/-- These are the places of all settings. -/
def places : List (String × String) :=
  Entry.all.map (fun entry => (entry.2.part, entry.2.key)) ++ [("storage", "type"), ("storage", "path")]

theorem storageType_mem : ("storage", "type") ∈ places := by
  simp [places]

theorem storagePath_mem : ("storage", "path") ∈ places := by
  simp [places]

theorem isPlace_of_mem {place : String × String} (member : place ∈ places) : SettingTree.IsPlace place.1 place.2 := by
  have paths : ∀ place ∈ places, ofKey (place.1 ++ "." ++ place.2) = [.name place.1, .name place.2] := by
    decide +kernel
  have folded : ∀ place ∈ places, SettingStep.fold place.1 = place.1 ∧ SettingStep.fold place.2 = place.2 := by
    decide +kernel
  have plain : ∀ place ∈ places, '.' ∉ place.1.toList ∧ '.' ∉ place.2.toList := by
    decide +kernel
  have pointed : ∀ place ∈ places, ∀ between ∈ [['_', '_'], ['.']],
      SettingTree.pointed (place.1.toList ++ between ++ place.2.toList) = place.1.toList ++ '.' :: place.2.toList := by
    decide +kernel
  have between := pointed place member
  simp only [List.append_assoc, List.cons_append, List.nil_append, List.forall_mem_cons] at between
  exact ⟨paths place member, (folded place member).1, (folded place member).2, (plain place member).1,
    (plain place member).2, between.1, between.2.1⟩

theorem part_mem_of_mem {place : String × String} (member : place ∈ places) :
    place.1 ∈ SettingTree.parts.map Prod.fst :=
  (by decide : ∀ place ∈ places, place.1 ∈ SettingTree.parts.map Prod.fst) place member

theorem mem_places {entry : Sigma Entry} (member : entry ∈ Entry.all) : (entry.2.part, entry.2.key) ∈ places :=
  List.mem_append_left _ (List.mem_map.mpr ⟨entry, member, rfl⟩)

end Place

section Held

/-- This function gives what stands under a key in a part. The items of a list stand for the keys in order, but only as
long as no variable enters the part. -/
def held? (entered : Bool) (part key : String) : Option SettingTree → Option SettingTree
  | some (.group members) => Table.get? key members
  | some (.list items) => if entered then none else Table.get? key ((keysOf part).zip items)
  | _ => none

variable {presets : Table String SettingTree} {there alone : Option SettingTree} {part key : String}

theorem held?_over (entered : Bool) (part key : String) (compared : OverPart presets there alone) :
    Over (Table.get? key presets) (held? entered part key there) (held? entered part key alone) := by
  rcases compared with ⟨rfl, rfl⟩ | ⟨tree, other, rfl, rfl, same | ⟨members, others, rfl, rfl, compared⟩⟩
  · exact .inr ⟨rfl, .inl rfl⟩
  · exact same ▸ .refl _ _
  · exact compared key

theorem cell?_eq_held? : cell? there key = held? true part key there := by
  cases there with
  | none => rfl
  | some tree => cases tree <;> rfl

theorem at?_eq_held? {root : SettingTree} : root.at? part key = held? false part key (root.child? part) := by
  rw [SettingTree.at?]
  cases root.child? part with
  | none => rfl
  | some tree => cases tree <;> rfl

end Held

/-- This test asks for a group without members. -/
def isEmptyGroup : SettingTree → Bool
  | .group [] => true
  | _ => false

theorem filter_of_ne {tree : Option SettingTree} (differs : tree ≠ some (.group [])) :
    tree.filter (fun tree => !isEmptyGroup tree) = tree := by
  match tree with
  | none => rfl
  | some (.group []) => exact absurd rfl differs
  | some (.group (_ :: _)) | some (.list _) | some .unset | some (.truth _) | some (.whole _) | some (.quantity _)
  | some (.text _) => rfl

/-- The layers of the settings are the command line, the environment, and what a file sets. -/
structure Layers where
  flags : CommandLine
  environment : List (String × String)
  members : List (String × SettingTree)

namespace Layers

/-- This function gives what the command line says: a flag, or else the variable that stands in for it. -/
def command? (layers : Layers) (part key : String) : Option String :=
  if (part, key) = ("server", "listen_addr") then
    layers.flags.listen.or (layers.environment.lookup "FORGE_LISTEN_ADDR")
  else if (part, key) = ("logging", "level") then
    layers.flags.logLevel.or (layers.environment.lookup "FORGE_LOG_LEVEL")
  else none

/-- This function gives what the variable of a setting says. -/
def assigned? (layers : Layers) (part key : String) : Option SettingTree :=
  (variableText? layers.environment part key).map .ofVariable

/-- This function gives what the file says of a setting; an empty group says nothing. -/
def file? (layers : Layers) (part key : String) : Option SettingTree :=
  (held? (entered layers.environment part) part key (((SettingTree.group []).overlay layers.members).child? part)).filter fun tree =>
    !isEmptyGroup tree

/-- This function gives what was loaded for a setting, before the command line changes it. -/
def loaded? (layers : Layers) (part key : String) : Option SettingTree :=
  (layers.assigned? part key).or (layers.file? part key)

/-- This function gives the value of a setting from the first layer that has one. -/
def value? (layers : Layers) (part key : String) : Option SettingTree :=
  ((layers.command? part key).map .text).or (layers.loaded? part key)

variable {layers : Layers} {part key : String} (temporary : String)

theorem assigned?_of_not_entered (place : SettingTree.IsPlace part key) (outside : entered layers.environment part = false) :
    layers.assigned? part key = none := by
  rw [assigned?, variableText?, Option.map_map, Option.map_eq_none_iff, List.getLast?_eq_none_iff,
    List.filter_eq_nil_iff]
  intro entry member sets
  have keyed : variableKey entry.1 = some (part ++ "." ++ key) := place.isFor_iff.mp sets
  have inside : entered layers.environment part = true := by
    rw [entered, List.any_eq_true]
    exact ⟨entry, member, by simp [keyed, place.path, enters, place.foldPart]⟩
  exact Bool.false_ne_true (outside.symm.trans inside)

/-- A setting is what its variable says, or what the file left there; if a variable leads below it, it may also be a
group or a list. -/
theorem at?_layered (place : SettingTree.IsPlace part key) (apart : Apart layers.environment part) :
    (∃ tree, (layered temporary layers.members layers.environment).at? part key = some tree ∧ ¬ tree.IsSingle) ∨
      (layered temporary layers.members layers.environment).at? part key =
        (layers.assigned? part key).or (held? (entered layers.environment part) part key
          (layers.members.foldl (childStep part) ((builtIn temporary).child? part))) := by
  rw [at?_eq_held?, child?_layered]
  generalize layers.members.foldl (childStep part) ((builtIn temporary).child? part) = there
  cases outside : entered layers.environment part with
  | false =>
    have elsewhere : ∀ member ∈ assignments layers.environment, enters part (ofKey member.1) = false :=
      fun member present => Bool.eq_false_iff.mpr
        (List.any_eq_false.mp (SettingTree.entered_eq.symm.trans outside) member present)
    rw [SettingTree.foldl_of_not_enters elsewhere, assigned?_of_not_entered place outside, Option.none_or]
    exact .inr rfl
  | true =>
    obtain ⟨table, group⟩ : ∃ table, (assignments layers.environment).foldl (childStep part) there =
        some (.group table) :=
      SettingTree.exists_group_foldl (fun _ => apart.replaces_eq_false)
        (.inr (List.any_eq_true.mp (SettingTree.entered_eq.symm.trans outside)))
    have same : held? false part key ((assignments layers.environment).foldl (childStep part) there) =
        (assignments layers.environment).foldl (cellStep part key) (cell? there key) := by
      rw [← SettingTree.cell?_foldl fun _ => apart.replaces_eq_false, group]
      rfl
    rw [same, ← cell?_eq_held?]
    exact SettingTree.foldl_assignments layers.environment place (cell? there key)

/-- A setting is what was loaded for it from the layers, or it is still what was set from the start and the layers say
nothing; if a variable leads below it, it may also be a group or a list. -/
theorem at?_cases (member : (part, key) ∈ places) (apart : Apart layers.environment part) :
    (∃ tree, (layered temporary layers.members layers.environment).at? part key = some tree ∧ ¬ tree.IsSingle) ∨
      (layered temporary layers.members layers.environment).at? part key = layers.loaded? part key ∨
      (layered temporary layers.members layers.environment).at? part key = (builtIn temporary).at? part key ∧
        layers.loaded? part key = none := by
  obtain ⟨presets, preset, single⟩ := exists_child?_builtIn temporary part (part_mem_of_mem member)
  have compared := held?_over (entered layers.environment part) part key
    (OverPart.foldl (fun name tree found => single _ (Table.mem_of_get? found)) part layers.members
      (.inl ⟨rfl, rfl⟩ : OverPart presets (some (.group presets)) none))
  have alone : layers.members.foldl (childStep part) none = ((SettingTree.group []).overlay layers.members).child? part :=
    (SettingTree.child?_overlay part layers.members (.group [])).symm
  rcases at?_layered temporary (isPlace_of_mem member) apart with below | found
  · exact .inl below
  rw [preset] at found
  rw [loaded?, found]
  cases layers.assigned? part key with
  | some tree => exact .inr (.inl rfl)
  | none =>
    rw [Option.none_or, Option.none_or, file?, ← alone]
    rcases compared with same | ⟨kept, nothing | empty⟩
    · by_cases empty : held? (entered layers.environment part) part key (layers.members.foldl (childStep part) none) =
          some (.group [])
      · exact .inl ⟨_, same.trans empty, id⟩
      · exact .inr (.inl (same.trans (filter_of_ne empty).symm))
    · refine .inr (.inr ⟨?_, by rw [nothing, Option.filter_none]⟩)
      rw [kept, at?_eq_held?, preset, held?]
    · refine .inr (.inr ⟨?_, by rw [empty]; rfl⟩)
      rw [kept, at?_eq_held?, preset, held?]

/-- No entry takes a value from a group or a list. -/
theorem not_takes_of_not_single {entry : Sigma Entry} (member : entry ∈ Entry.all) {tree : SettingTree}
    (compound : ¬ tree.IsSingle) (value : entry.1) : ¬ entry.2.Takes temporary (some tree) value := by
  have fault : tree.toShape entry.2.shape = .fault := by
    cases tree <;> first | exact absurd trivial compound | (cases entry.2.shape <;> rfl)
  have refused : ∀ entry ∈ Entry.all, ∀ value, entry.2.decode .fault ≠ .ok value := by
    simp only [Entry.all, Entry.ofServer, Entry.ofQueue, Entry.ofWorkspace, Entry.ofToolchain, Entry.ofLogging,
      List.cons_append, List.nil_append, List.forall_mem_cons]
    refine ⟨?_, ?_, ?_, ?_, ?_, ?_, ?_, ?_, ?_, ?_, ?_, ?_, ?_, ?_, ?_, ?_, ?_, by simp⟩ <;>
    · intro value same
      cases same
  intro takes
  rw [Entry.Takes, fault] at takes
  exact refused entry member value takes

/-- What an entry takes from the tree, it takes from the layers. -/
theorem takes_loaded {entry : Sigma Entry} (member : entry ∈ Entry.all) (apart : Apart layers.environment entry.2.part)
    {value : entry.1} (takes : entry.2.Takes temporary
      ((layered temporary layers.members layers.environment).at? entry.2.part entry.2.key) value) :
    entry.2.Takes temporary (layers.loaded? entry.2.part entry.2.key) value := by
  rcases at?_cases temporary (mem_places member) apart with
    ⟨tree, found, compound⟩ | same | ⟨kept, nothing⟩
  · exact absurd (found ▸ takes) (not_takes_of_not_single temporary member compound value)
  · exact same ▸ takes
  · rw [nothing]
    exact (kept ▸ takes).unique (builtIn_takes temporary entry member)

/-- The storage that comes of the tree comes of the layers. -/
theorem storage_loaded (apart : Apart layers.environment "storage") {storage : StorageConfig}
    (read : StorageConfig.ofTrees? ((layered temporary layers.members layers.environment).at? "storage" "type")
      ((layered temporary layers.members layers.environment).at? "storage" "path") = some storage) :
    StorageConfig.ofTrees? (layers.loaded? "storage" "type") (layers.loaded? "storage" "path") = some storage := by
  have presetType : (builtIn temporary).at? "storage" "type" = some (.text "memory") := by
    rw [builtIn_eq]
    rfl
  have presetPath : (builtIn temporary).at? "storage" "path" = none := by
    rw [builtIn_eq]
    rfl
  have memory (path : Option SettingTree) : StorageConfig.ofTrees? (some (.text "memory")) path = some .memory := by
    cases path <;> rfl
  rcases at?_cases temporary storageType_mem apart with
    ⟨tree, found, compound⟩ | same | ⟨kept, nothing⟩
  · rw [found] at read
    cases tree <;> first | exact absurd trivial compound | simp [StorageConfig.ofTrees?] at read
  · rw [same] at read
    rcases at?_cases temporary storagePath_mem apart with
      ⟨tree, found, compound⟩ | same | ⟨kept, nothing⟩
    · rw [found] at read
      exact StorageConfig.ofTrees?_of_not_single compound read _
    · rwa [same] at read
    · rwa [kept, presetPath, ← nothing] at read
  · rw [kept, presetType, memory] at read
    rw [nothing, ← read]
    rfl

/-- A configuration comes of the layers when each of its settings has the value of the first layer that says one, or the
one that is built in, whatever the layers say of the others; and the log is in JSON when that value or the command line
wants it. A part counts as long as it stands apart. -/
structure Yield (layers : Layers) (temporary : String) (config : ServiceConfig) : Prop where
  entries : ∀ entry ∈ Entry.all, (entry.2.part, entry.2.key) ≠ ("logging", "json") → Apart layers.environment entry.2.part →
    entry.2.Takes temporary (layers.value? entry.2.part entry.2.key) (entry.2.field config)
  storage : Apart layers.environment "storage" →
    StorageConfig.ofTrees? (layers.value? "storage" "type") (layers.value? "storage" "path") = some config.storage
  json : Apart layers.environment "logging" → ∃ json, Entry.jsonLog.Takes temporary (layers.value? "logging" "json") json ∧
    config.logging.json =
      (json || layers.flags.json || layers.environment.lookup "FORGE_LOG_JSON" = some "true")

end Layers

section Override

variable {arguments : List String} {environment : List (String × String)} {line : CommandLine}
  {loaded effective : ServiceConfig}

/-- Variables stand in for flags that are not given. -/
theorem exists_flags (told : CommandLine.read arguments environment = .ok line) :
    ∃ flags, CommandLine.read arguments [] = .ok flags ∧
      line = { config := flags.config.or (environment.lookup "FORGE_CONFIG")
               listen := flags.listen.or (environment.lookup "FORGE_LISTEN_ADDR")
               logLevel := flags.logLevel.or (environment.lookup "FORGE_LOG_LEVEL")
               json := flags.json || environment.lookup "FORGE_LOG_JSON" = some "true" } := by
  rw [CommandLine.read] at told
  obtain ⟨flags, given, told⟩ := Decode.bind_eq_ok_iff.mp told
  obtain ⟨json, asked, same⟩ := Decode.bind_eq_ok_iff.mp told
  refine ⟨flags, ?_, ?_⟩
  · have alone : flags.jsonOf [] = .ok flags.json := by
      rw [CommandLine.jsonOf]
      cases flags.json <;> rfl
    rw [CommandLine.read, given]
    simp only [bind, Except.bind, alone, List.lookup_nil, Option.or_none]
    rfl
  · have wanted : json = (flags.json || environment.lookup "FORGE_LOG_JSON" = some "true") := by
      rw [CommandLine.jsonOf] at asked
      cases flag : flags.json with
      | true =>
        rw [flag] at asked
        exact (Except.ok.inj asked).symm
      | false =>
        simp only [flag, Bool.false_eq_true, if_false] at asked
        generalize environment.lookup "FORGE_LOG_JSON" = said at asked ⊢
        split at asked <;> simp_all
    rw [← Except.ok.inj same, wanted]

/-- Overriding changes the address, the level of the log and whether it is in JSON, and nothing else. -/
theorem override_eq (overrides : line.override loaded = .ok effective) :
    ∃ address, (∀ written ∈ line.listen, Address.read written = some address) ∧
      (line.listen = none → address = loaded.server.listenAddress) ∧
      effective = { loaded with
        server := { loaded.server with listenAddress := address }
        logging := { level := line.logLevel.getD loaded.logging.level, json := loaded.logging.json || line.json } } := by
  rw [CommandLine.override] at overrides
  cases given : line.listen with
  | none =>
    rw [given] at overrides
    exact ⟨_, by simp, fun _ => rfl, (Except.ok.inj overrides).symm⟩
  | some written =>
    rw [given] at overrides
    cases read : Address.read written with
    | none => simp [read, bind, Except.bind] at overrides
    | some address =>
      simp only [read] at overrides
      refine ⟨address, ?_, by simp, (Except.ok.inj overrides).symm⟩
      rintro _ ⟨⟩
      exact read

end Override

section Own

/-- These variables stand in for flags. Their names begin like those of variables that hold settings. -/
def ownVariables : List String :=
  ["FORGE_CONFIG", "FORGE_LISTEN_ADDR", "FORGE_LOG_LEVEL", "FORGE_LOG_JSON"]

/-- The variables that stand in for flags do not lead to any part. -/
theorem foldl_without_own {part : String} (member : part ∈ SettingTree.parts.map Prod.fst)
    (environment : List (String × String)) : ∀ there : Option SettingTree,
    (assignments environment).foldl (childStep part) there =
      (assignments (environment.filter fun entry => entry.1 ∉ ownVariables)).foldl (childStep part) there := by
  have outside : ∀ part ∈ SettingTree.parts.map Prod.fst, ∀ name ∈ ownVariables, ∀ key ∈ variableKey name,
      enters part (ofKey key) = false := by
    decide +kernel
  induction environment with
  | nil => exact fun there => rfl
  | cons entry environment inductionHypothesis =>
    intro there
    by_cases own : entry.1 ∈ ownVariables
    · rw [List.filter_cons_of_neg (by simpa using own), ← inductionHypothesis, assignments, List.filterMap_cons]
      cases keyed : variableKey entry.1 with
      | none => rfl
      | some key =>
        have nowhere : childStep part there (key, .ofVariable entry.2) = there :=
          SettingTree.childStep_of_not_enters (outside part member entry.1 own key keyed)
        exact congrArg (List.foldl (childStep part) · (assignments environment)) nowhere
    · rw [List.filter_cons_of_pos (by simpa using own), assignments, assignments, List.filterMap_cons,
        List.filterMap_cons]
      cases variableKey entry.1 with
      | none => exact inductionHypothesis there
      | some key => exact inductionHypothesis _

/-- The variables that stand in for flags do not change what is loaded. -/
theorem load_without_own (temporary : String) (disk : Disk) (path : Option String)
    (environment : List (String × String)) :
    load temporary disk path environment =
      load temporary disk path (environment.filter fun entry => entry.1 ∉ ownVariables) := by
  rw [load_eq, load_eq]
  congr 1
  funext members
  rw [toConfig_congr]
  intro part member
  rw [child?_layered, child?_layered, foldl_without_own (List.mem_map_of_mem member)]

end Own

/-- An entry has what the command line says, or else what was loaded. -/
theorem takes_overridden {layers : Layers} {temporary : String} {line : CommandLine} {loaded effective : ServiceConfig}
    (overrides : line.override loaded = .ok effective) (listen : line.listen = layers.command? "server" "listen_addr")
    (logLevel : line.logLevel = layers.command? "logging" "level") :
    ∀ entry ∈ Entry.all, (entry.2.part, entry.2.key) ≠ ("logging", "json") →
      entry.2.Takes temporary (layers.loaded? entry.2.part entry.2.key) (entry.2.field loaded) →
        entry.2.Takes temporary (layers.value? entry.2.part entry.2.key) (entry.2.field effective) := by
  obtain ⟨address, given, missing, changed⟩ := override_eq overrides
  have kept : ∀ entry ∈ Entry.all, (entry.2.part, entry.2.key) ≠ ("logging", "json") →
      layers.command? entry.2.part entry.2.key = none → entry.2.field effective = entry.2.field loaded := by
    rw [changed]
    have level (silent : layers.command? "logging" "level" = none) :
        line.logLevel.getD loaded.logging.level = loaded.logging.level := by
      rw [logLevel, silent, Option.getD_none]
    simp only [Entry.all, Entry.ofServer, Entry.ofQueue, Entry.ofWorkspace, Entry.ofToolchain, Entry.ofLogging,
      List.cons_append, List.nil_append, List.forall_mem_cons]
    refine ⟨fun _ silent => missing (listen.trans silent), ?_, ?_, ?_, ?_, ?_, ?_, ?_, ?_, ?_, ?_, ?_, ?_, ?_, ?_,
      fun _ silent => level silent, fun json => absurd rfl json, by simp⟩ <;>
    · intros
      trivial
  have told : ∀ entry ∈ Entry.all, ∀ written, layers.command? entry.2.part entry.2.key = some written →
      entry.2.Takes temporary (some (.text written)) (entry.2.field effective) := by
    rw [changed]
    have read (written : String) (said : layers.command? "server" "listen_addr" = some written) :
        ServerConfig.decodeAddress (.text written) = .ok address := by
      simp [ServerConfig.decodeAddress, Decode.textAs, bind, Except.bind, given written (listen.trans said), pure,
        Except.pure]
    have level (written : String) (said : layers.command? "logging" "level" = some written) :
        Decode.text (.text written) = .ok (line.logLevel.getD loaded.logging.level) := by
      rw [logLevel, said]
      rfl
    simp only [Entry.all, Entry.ofServer, Entry.ofQueue, Entry.ofWorkspace, Entry.ofToolchain, Entry.ofLogging,
      List.cons_append, List.nil_append, List.forall_mem_cons]
    refine ⟨read, ?_, ?_, ?_, ?_, ?_, ?_, ?_, ?_, ?_, ?_, ?_, ?_, ?_, ?_, level, ?_, by simp⟩ <;>
    · intro written said
      cases said
  intro entry member differs takes
  rw [Layers.value?]
  cases said : layers.command? entry.2.part entry.2.key with
  | none =>
    rw [Option.map_none, Option.none_or, kept entry member differs said]
    exact takes
  | some written => exact told entry member written said

/-- The settings that a service starts with come of the layers, setting by setting: flags go over the variables that stand
in for them, those over the variables of the settings, those over the file, and the file over what is built in. The
variables that stand in for flags do not change what is loaded, whatever file is named. -/
theorem effective_layered {temporary : String} {disk : Disk} {environment : List (String × String)}
    {arguments : List String} {line : CommandLine} {loaded effective : ServiceConfig}
    (told : CommandLine.read arguments environment = .ok line)
    (loads : load temporary disk line.config environment = some loaded)
    (overrides : line.override loaded = .ok effective) :
    (∃ flags members, CommandLine.read arguments [] = .ok flags ∧
      setByFile disk (flags.config.or (environment.lookup "FORGE_CONFIG")) = some members ∧
      (Layers.mk flags environment members).Yield temporary effective) ∧
    ∀ path others, others.filter (fun entry => entry.1 ∉ ownVariables) =
        environment.filter (fun entry => entry.1 ∉ ownVariables) →
      load temporary disk path others = load temporary disk path environment := by
  refine ⟨?_, fun path others same => ?_⟩
  · obtain ⟨flags, given, rfl⟩ := exists_flags told
    obtain ⟨members, file, read⟩ := load_eq_some_iff.mp loads
    obtain ⟨-, entries, storage⟩ := SettingTree.toConfig_iff.mp read
    let layers : Layers := ⟨flags, environment, members⟩
    have values (entry : Sigma Entry) (member : entry ∈ Entry.all) (apart : Apart layers.environment entry.2.part) :=
      Layers.takes_loaded temporary member apart (entries entry member)
    obtain ⟨address, -, -, changed⟩ := override_eq overrides
    refine ⟨flags, members, given, file, ?_, ?_, ?_⟩
    · intro entry member differs apart
      exact takes_overridden overrides rfl rfl entry member differs (values entry member apart)
    · intro apart
      have same : effective.storage = loaded.storage := by rw [changed]
      rw [same]
      exact Layers.storage_loaded temporary apart (StorageConfig.ofTrees?_of_takes storage)
    · intro apart
      refine ⟨loaded.logging.json, values ⟨_, Entry.jsonLog⟩ (by simp [Entry.all, Entry.ofLogging]) apart, ?_⟩
      rw [changed, Bool.or_assoc]
  · rw [load_without_own, same, ← load_without_own]

/-- This disk holds one file at its top. -/
def oneFile (content : String) : Disk :=
  ⟨[([⟨"forge.json", by decide⟩], .file content.toUTF8)]⟩

/-- This disk holds a file that sets something of two parts. -/
def twoParts : Disk :=
  oneFile ("\x7b\"queue\":\x7b\"workers\":7,\"channel_capacity\":8\x7d," ++
    "\"logging\":\x7b\"level\":\"warn\"\x7d\x7d")

/-- These variables stand in for all flags, and one sets a capacity. -/
def manyVariables : List (String × String) :=
  [("FORGE_CONFIG", "/forge.json"), ("FORGE_LISTEN_ADDR", "127.0.0.1:81"), ("FORGE_LOG_LEVEL", "debug"),
    ("FORGE_LOG_JSON", "true"), ("forge_queue__channel_capacity", "9")]

/-- A flag, a variable that stands in for a flag, a variable of a setting and the file each give one of the values, and
hide what the sources behind them say. -/
theorem effective_layered_fourSources :
    ∃ line loaded effective, CommandLine.read ["--listen", "0.0.0.0:80"] manyVariables = .ok line ∧
      load "/tmp" twoParts line.config manyVariables = some loaded ∧ line.override loaded = .ok effective ∧
      effective.server.listenAddress = .short [0, 0, 0, 0] 80 ∧ effective.logging = { level := "debug", json := true } ∧
      effective.queue = { workers := 7, channelCapacity := 9 } ∧
      ∃ flags members, CommandLine.read ["--listen", "0.0.0.0:80"] [] = .ok flags ∧
        setByFile twoParts (flags.config.or (manyVariables.lookup "FORGE_CONFIG")) = some members ∧
        (Layers.mk flags manyVariables members).Yield "/tmp" effective := by
  let loaded : ServiceConfig :=
    { workspace := .default "/tmp", queue := { workers := 7, channelCapacity := 9 }, logging := { level := "warn" } }
  have loads : load "/tmp" twoParts (some "/forge.json") manyVariables = some loaded := by
    rw [load_without_own]
    decide +kernel
  let line : CommandLine := ⟨some "/forge.json", some "0.0.0.0:80", some "debug", true⟩
  let effective : ServiceConfig :=
    { loaded with
      server := { listenAddress := .short [0, 0, 0, 0] 80 }
      logging := { level := "debug", json := true } }
  have told : CommandLine.read ["--listen", "0.0.0.0:80"] manyVariables = .ok line := rfl
  have overrides : line.override loaded = .ok effective := rfl
  exact ⟨line, loaded, effective, told, loads, overrides, rfl, rfl, rfl,
    (effective_layered told loads overrides).1⟩

/-- A list in the file gives both settings. A variable for the first one takes the second one away too, which no variable
is for; and a variable for an item of a part takes away all that the file says of the part. -/
theorem list_displaced :
    (load "/tmp" (oneFile "\x7b\"queue\":[7,9]\x7d") (some "/forge.json") []).map (·.queue) =
        some { workers := 7, channelCapacity := 9 } ∧
      variableText? [("FORGE_QUEUE__WORKERS", "3")] "queue" "channel_capacity" = none ∧
      (load "/tmp" (oneFile "\x7b\"queue\":[7,9]\x7d") (some "/forge.json") [("FORGE_QUEUE__WORKERS", "3")]).map
        (·.queue) = some { workers := 3, channelCapacity := 256 } ∧
      (load "/tmp" (oneFile "\x7b\"queue\":\x7b\"channel_capacity\":9\x7d\x7d") (some "/forge.json")
        [("FORGE_QUEUE[0]", "8")]).map (·.queue) = some { workers := 8, channelCapacity := 256 } := by
  refine ⟨?_, ?_, ?_, ?_⟩ <;> decide +kernel

end Settings

end ContractWorks

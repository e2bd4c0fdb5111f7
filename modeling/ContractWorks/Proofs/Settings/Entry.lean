import ContractWorks.Proofs.Json.Members
import ContractWorks.Proofs.Settings.Overlay
import ContractWorks.Settings.Shape

namespace ContractWorks

namespace Table

variable {β ν : Type}

/-- This function makes a table of the values that some of the names have. -/
def tabulate (names : List (String × β)) (value? : String × β → Option ν) : Table String ν :=
  names.filterMap fun name => (value? name).map fun value => (name.1, value)

variable {names : List (String × β)} {value? : String × β → Option ν}

theorem keys_tabulate_sublist : ((tabulate names value?).map Prod.fst).Sublist (names.map Prod.fst) := by
  induction names with
  | nil => exact .slnil
  | cons name names inductionHypothesis =>
    rw [tabulate, List.filterMap_cons, List.map_cons]
    cases value? name with
    | none => exact .cons _ inductionHypothesis
    | some value => exact .cons_cons _ inductionHypothesis

theorem get?_tabulate {key : String} (distinct : (names.map Prod.fst).Nodup) :
    get? key (tabulate names value?) = (names.find? fun name => name.1 = key).bind value? := by
  induction names with
  | nil => rfl
  | cons name names inductionHypothesis =>
    obtain ⟨fresh, apart⟩ := List.nodup_cons.mp distinct
    have behind := inductionHypothesis apart
    rw [tabulate, List.filterMap_cons]
    by_cases same : name.1 = key
    · subst same
      rw [List.find?_cons_of_pos (by simp), Option.bind_some]
      cases value? name with
      | some value => exact if_pos rfl
      | none =>
        refine behind.trans ?_
        rw [List.find?_eq_none.mpr, Option.bind_none]
        intro other member same
        exact fresh (List.mem_map.mpr ⟨other, member, of_decide_eq_true same⟩)
    · rw [List.find?_cons_of_neg (by simpa using same)]
      cases value? name with
      | some value => exact (if_neg same).trans behind
      | none => exact behind

end Table

namespace SettingTree

section Part

/-- This function gives the settings of a part by their names. The items of a list stand for the names in order. -/
def named (names : List String) : SettingTree → Option (Table String SettingTree)
  | .group members => some members
  | .list items => some (names.zip items)
  | _ => none

variable {shapes : List (String × Shape)}

theorem toShapes_list (distinct : (shapes.map Prod.fst).Nodup) (items : List SettingTree) :
    toShapes shapes (.list items) = toShapes shapes (.group ((shapes.map Prod.fst).zip items)) := by
  rw [toShapes, toShapes]
  congr 1
  induction shapes generalizing items with
  | nil => rfl
  | cons shape shapes inductionHypothesis =>
    obtain ⟨fresh, apart⟩ := List.nodup_cons.mp distinct
    cases items with
    | nil => simp
    | cons item items =>
      rw [List.map_cons, List.zip_cons_cons, List.zip_cons_cons, List.map_cons, List.filterMap_cons, Table.get?,
        if_pos rfl, Option.map_some, inductionHypothesis apart]
      refine congrArg _ (List.filterMap_congr fun other member => ?_)
      rw [Table.get?, if_neg]
      rintro same
      exact fresh (List.mem_map.mpr ⟨other, member, same.symm⟩)

/-- The settings of a part are converted name by name. -/
theorem toShapes_of_named (distinct : (shapes.map Prod.fst).Nodup) {tree : SettingTree}
    {table : Table String SettingTree} (named : tree.named (shapes.map Prod.fst) = some table) :
    tree.toShapes shapes = .object (Row.keyed
      (Table.tabulate shapes fun shape => (Table.get? shape.1 table).map (toShape shape.2))) := by
  have group (members : Table String SettingTree) : toShapes shapes (.group members) = .object (Row.keyed
      (Table.tabulate shapes fun shape => (Table.get? shape.1 members).map (toShape shape.2))) := by
    rw [toShapes, Row.keyed, Table.tabulate, List.map_filterMap]
    simp only [Option.map_map, Function.comp_def]
  cases tree with
  | group members => exact Option.some.inj named ▸ group members
  | list items => exact (toShapes_list distinct items).trans (Option.some.inj named ▸ group _)
  | _ => simp [SettingTree.named] at named

theorem toShapes_of_not_named {tree : SettingTree} (unnamed : tree.named (shapes.map Prod.fst) = none) :
    tree.toShapes shapes = .fault := by
  cases tree <;> first | rfl | simp [named] at unnamed

/-- A part is read when it is a group or a list and each of its fields takes its value from the setting of its name. -/
theorem decode_toShapes_iff {types : List Type} {row : Row types} {title : String} {values : Values types}
    (same : row.names = shapes.map Prod.fst) (distinct : (shapes.map Prod.fst).Nodup) (tree : SettingTree) :
    row.decode title (tree.toShapes shapes) = .ok values ↔
      ∃ table, tree.named (shapes.map Prod.fst) = some table ∧
        row.Takes (fun name => (shapes.find? fun shape => shape.1 = name).bind fun shape =>
          (Table.get? shape.1 table).map (toShape shape.2)) values := by
  cases settings : tree.named (shapes.map Prod.fst) with
  | none =>
    rw [toShapes_of_not_named settings, Row.decode]
    · simp [Decode.mismatch]
    · simp
    · simp
  | some table =>
    rw [toShapes_of_named distinct settings, Row.decode_keyed_iff (distinct.sublist Table.keys_tabulate_sublist)
      (fun name member => same ▸ Table.keys_tabulate_sublist.subset member) (same ▸ distinct)]
    simp only [Option.some.injEq, exists_eq_left', Table.get?_tabulate distinct]

end Part

end SettingTree

/-- An entry is a setting under a key of a part: the shape that its tree is converted to, the decoder of its value, and
the field of a configuration that holds the value. -/
structure Entry (α : Type) where
  part : String
  key : String
  shape : Shape
  decode : Decoder α
  field : ServiceConfig → α

namespace Entry

/-- An entry takes a value from a tree, or the value that is built in when there is no tree. -/
def Takes {α : Type} (entry : Entry α) (temporary : String) : Option SettingTree → α → Prop
  | some tree, value => entry.decode (tree.toShape entry.shape) = .ok value
  | none, value => value = entry.field (ServiceConfig.default temporary)

/-- The tree of an entry settles its value. -/
theorem Takes.unique {α : Type} {entry : Entry α} {temporary : String} {tree : Option SettingTree} {value other : α}
    (takes : entry.Takes temporary tree value) (also : entry.Takes temporary tree other) : value = other := by
  cases tree with
  | none => exact takes.trans also.symm
  | some tree => exact Except.ok.inj (takes.symm.trans also)

/-- This entry holds the address that the service listens at. -/
def listenAddress : Entry Address :=
  ⟨"server", "listen_addr", .text, ServerConfig.decodeAddress, (·.server.listenAddress)⟩

/-- These entries say where the service listens and what it accepts. -/
def ofServer : List (Sigma Entry) :=
  [⟨_, listenAddress⟩,
   ⟨_, "server", "enable_cors", .truth, Decode.bool, (·.server.enableCors)⟩,
   ⟨_, "server", "max_body_size", .whole 64, Decode.size, (·.server.maxBodySize)⟩]

/-- These entries say how many workers there are and how much they take. -/
def ofQueue : List (Sigma Entry) :=
  [⟨_, "queue", "workers", .whole 64, Decode.size, (·.queue.workers)⟩,
   ⟨_, "queue", "channel_capacity", .whole 64, Decode.size, (·.queue.channelCapacity)⟩,
   ⟨_, "queue", "max_source_bytes", .whole 64, Decode.size, (·.queue.maxSourceBytes)⟩,
   ⟨_, "queue", "start_retry_ms", .whole 64, Decode.uint64, (·.queue.startRetryMillis)⟩]

/-- This entry holds the directory that workspaces are made in. -/
def workspaceRoot : Entry String :=
  ⟨"workspace", "root", .text, Decode.textAs "path string", (·.workspace.root)⟩

/-- This entry holds the start of the names of workspaces. -/
def workspacePrefix : Entry String :=
  ⟨"workspace", "prefix", .text, Decode.text, (·.workspace.namePrefix)⟩

/-- These entries say where workspaces are made. -/
def ofWorkspace : List (Sigma Entry) :=
  [⟨_, workspaceRoot⟩, ⟨_, workspacePrefix⟩]

/-- This entry holds the path of the compiler for Solidity. -/
def solcPath : Entry String :=
  ⟨"toolchain", "solc_path", .text, Decode.textAs "path string", (·.toolchain.solcPath)⟩

/-- This entry holds the path of the compiler for Soroban. -/
def cargoPath : Entry String :=
  ⟨"toolchain", "cargo_path", .text, Decode.textAs "path string", (·.toolchain.cargoPath)⟩

/-- This entry holds the target that Soroban contracts are compiled for. -/
def wasmTarget : Entry String :=
  ⟨"toolchain", "wasm_target", .text, Decode.text, (·.toolchain.wasmTarget)⟩

/-- This entry holds the version of the library that Soroban contracts use. -/
def sorobanSdkVersion : Entry String :=
  ⟨"toolchain", "soroban_sdk_version", .text, Decode.text, (·.toolchain.sorobanSdkVersion)⟩

/-- These entries say which compilers run, and how. -/
def ofToolchain : List (Sigma Entry) :=
  [⟨_, solcPath⟩, ⟨_, cargoPath⟩,
   ⟨_, "toolchain", "timeout_secs", .whole 64, Decode.uint64, (·.toolchain.timeoutSeconds)⟩,
   ⟨_, "toolchain", "default_optimizer_runs", .whole 32, Decode.uint32, (·.toolchain.defaultOptimizerRuns)⟩,
   ⟨_, wasmTarget⟩, ⟨_, sorobanSdkVersion⟩]

/-- This entry says how much is logged. -/
def logLevel : Entry String :=
  ⟨"logging", "level", .text, Decode.text, (·.logging.level)⟩

/-- This entry turns the log to JSON. -/
def jsonLog : Entry Bool :=
  ⟨"logging", "json", .truth, Decode.bool, (·.logging.json)⟩

/-- These entries say what is logged. -/
def ofLogging : List (Sigma Entry) :=
  [⟨_, logLevel⟩, ⟨_, jsonLog⟩]

/-- These are the entries of all parts but the storage. -/
def all : List (Sigma Entry) :=
  ofServer ++ ofQueue ++ ofWorkspace ++ ofToolchain ++ ofLogging

/-- These are the entries that hold a text which is kept as it is. -/
def texts : List (Entry String) :=
  [workspaceRoot, workspacePrefix, solcPath, cargoPath, wasmTarget, sorobanSdkVersion, logLevel]

theorem mem_all_of_mem_texts {entry : Entry String} (member : entry ∈ texts) : ⟨_, entry⟩ ∈ all := by
  simp only [texts, List.mem_cons, List.not_mem_nil, or_false] at member
  rcases member with rfl | rfl | rfl | rfl | rfl | rfl | rfl <;>
    simp [all, ofServer, ofQueue, ofWorkspace, ofToolchain, ofLogging]

section Row

/-- This row has a field for each entry. -/
def rowOf (temporary : String) : (entries : List (Sigma Entry)) → Row (entries.map Sigma.fst)
  | [] => .done
  | entry :: entries =>
    .field (.withDefault entry.2.key entry.2.decode (entry.2.field (.default temporary))) (rowOf temporary entries)

/-- These are the values that a configuration holds for entries. -/
def valuesOf (config : ServiceConfig) : (entries : List (Sigma Entry)) → Values (entries.map Sigma.fst)
  | [] => ()
  | entry :: entries => (entry.2.field config, valuesOf config entries)

variable {temporary : String} {entries : List (Sigma Entry)} {config : ServiceConfig}

theorem names_rowOf : (rowOf temporary entries).names = entries.map (·.2.key) := by
  induction entries with
  | nil => rfl
  | cons entry entries inductionHypothesis => exact congrArg _ inductionHypothesis

/-- The field of an entry takes its value from the tree of the entry. -/
theorem field_takes_iff {α : Type} {entry : Entry α} {tree : Option SettingTree} {value : α} :
    (Field.withDefault entry.key entry.decode (entry.field (.default temporary))).Takes
      (tree.map (SettingTree.toShape entry.shape)) value ↔ entry.Takes temporary tree value := by
  cases tree with
  | none => exact Option.some_inj.trans eq_comm
  | some tree => exact Iff.rfl

/-- A row of entries takes the values of a configuration when each entry does. -/
theorem rowOf_takes_iff {contents : String → Option Draft} (trees : Sigma Entry → Option SettingTree)
    (same : ∀ entry ∈ entries, contents entry.2.key = (trees entry).map (SettingTree.toShape entry.2.shape)) :
    (rowOf temporary entries).Takes contents (valuesOf config entries) ↔
      ∀ entry ∈ entries, entry.2.Takes temporary (trees entry) (entry.2.field config) := by
  induction entries with
  | nil => exact ⟨fun _ => by simp, fun _ => trivial⟩
  | cons entry entries inductionHypothesis =>
    obtain ⟨first, rest⟩ := List.forall_mem_cons.mp same
    rw [List.forall_mem_cons, ← inductionHypothesis rest, ← field_takes_iff, ← first]
    exact Iff.rfl

/-- A row of entries has values to take when each entry has one. -/
theorem exists_rowOf_takes_iff {contents : String → Option Draft} (trees : Sigma Entry → Option SettingTree)
    (same : ∀ entry ∈ entries, contents entry.2.key = (trees entry).map (SettingTree.toShape entry.2.shape)) :
    (∃ values, (rowOf temporary entries).Takes contents values) ↔
      ∀ entry ∈ entries, ∃ value, entry.2.Takes temporary (trees entry) value := by
  induction entries with
  | nil => exact ⟨fun _ => by simp, fun _ => ⟨(), trivial⟩⟩
  | cons entry entries inductionHypothesis =>
    obtain ⟨first, rest⟩ := List.forall_mem_cons.mp same
    rw [List.forall_mem_cons, ← inductionHypothesis rest]
    simp only [← field_takes_iff, ← first]
    constructor
    · rintro ⟨⟨value, values⟩, taken, others⟩
      exact ⟨⟨value, taken⟩, values, others⟩
    · rintro ⟨⟨value, taken⟩, values, others⟩
      exact ⟨(value, values), taken, others⟩

/-- Without contents a row of entries takes what is built in. -/
theorem rowOf_takes_none_iff : ∀ {values : Values (entries.map Sigma.fst)},
    (rowOf temporary entries).Takes (fun _ => none) values ↔ values = valuesOf (.default temporary) entries := by
  induction entries with
  | nil => exact fun {_} => ⟨fun _ => rfl, fun _ => trivial⟩
  | cons entry entries inductionHypothesis =>
    rintro ⟨value, values⟩
    exact (and_congr (Option.some_inj.trans eq_comm) inductionHypothesis).trans Prod.mk_inj.symm

end Row

end Entry

namespace SettingTree

/-- This function lists the keys of a part in order. -/
def keysOf (part : String) : List String :=
  if part = "storage" then ["type", "path"] else ((sections.lookup part).getD []).map Prod.fst

/-- This function gives the tree of a setting. -/
def at? (root : SettingTree) (part key : String) : Option SettingTree :=
  (root.child? part).bind fun tree => (tree.named (keysOf part)).bind (Table.get? key)

/-- These are the parts of a tree and how they are converted. -/
def parts : List (String × (SettingTree → Draft)) :=
  sections.map (fun entry => (entry.1, toShapes entry.2)) ++ [("storage", storageDraft)]

theorem toSections_eq (root : SettingTree) :
    root.toSections = .object (Row.keyed (Table.tabulate parts fun part => (root.child? part.1).map part.2)) := by
  rw [toSections, Row.keyed, Table.tabulate, List.map_filterMap, parts, List.filterMap_append, List.filterMap_map]
  simp only [Option.map_map, Function.comp_def]
  refine congrArg Draft.object (congrArg _ ?_)
  cases stored : root.child? "storage" <;> simp only [child?] at stored <;> simp [stored, child?]

/-- This row has a field for each part. -/
def rowOfParts (temporary : String) :
    Row [ServerConfig, StorageConfig, QueueConfig, WorkspaceConfig, ToolchainConfig, LoggingConfig] :=
  .field (.withDefault "server" ServerConfig.decode {}) <|
    .field (.withDefault "storage" StorageConfig.decode .memory) <|
    .field (.withDefault "queue" QueueConfig.decode {}) <|
    .field (.withDefault "workspace" (WorkspaceConfig.decode temporary) (.default temporary)) <|
    .field (.withDefault "toolchain" ToolchainConfig.decode {}) <|
    .field (.withDefault "logging" LoggingConfig.decode {}) .done

theorem names_rowOfParts (temporary : String) :
    (rowOfParts temporary).names = ["server", "storage", "queue", "workspace", "toolchain", "logging"] :=
  rfl

variable {temporary : String} {root : SettingTree} {config : ServiceConfig}

/-- The settings are read when each part is. -/
theorem toConfig_eq_ok_iff :
    root.toConfig temporary = .ok config ↔
      (rowOfParts temporary).Takes
        (fun name => (parts.find? fun part => part.1 = name).bind fun part => (root.child? part.1).map part.2)
        (config.server, config.storage, config.queue, config.workspace, config.toolchain, config.logging, ()) := by
  have distinct : (parts.map Prod.fst).Nodup := by decide
  have known : ∀ name ∈ (Table.tabulate parts fun part => (root.child? part.1).map part.2).map Prod.fst,
      name ∈ (rowOfParts temporary).names := fun name member =>
    (by decide : ∀ name ∈ parts.map Prod.fst,
      name ∈ ["server", "storage", "queue", "workspace", "toolchain", "logging"]) name
        (Table.keys_tabulate_sublist.subset member)
  have decoded (values : Values _) : (rowOfParts temporary).decode "DaemonConfig" root.toSections = .ok values ↔
      (rowOfParts temporary).Takes (fun name => (parts.find? fun part => part.1 = name).bind fun part =>
        (root.child? part.1).map part.2) values := by
    rw [toSections_eq, Row.decode_keyed_iff (distinct.sublist Table.keys_tabulate_sublist) known
      (names_rowOfParts temporary ▸ by decide)]
    simp only [Table.get?_tabulate distinct]
  rw [← decoded, toConfig, ServiceConfig.decode, Decode.bind_eq_ok_iff]
  constructor
  · rintro ⟨⟨server, storage, queue, workspace, toolchain, logging, ⟨⟩⟩, read, same⟩
    obtain rfl := Except.ok.inj same
    exact read
  · exact fun read => ⟨_, read, rfl⟩

end SettingTree

open SettingTree (keysOf toShapes toShape)

/-- A part of a configuration has a name in the tree and entries, whose values make it and can be taken from it
again. -/
structure Part (temporary : String) (α : Type) where
  name : String
  title : String
  entries : List (Sigma Entry)
  decode : Decoder α
  of : ServiceConfig → α
  make : Values (entries.map Sigma.fst) → α
  fields : α → Values (entries.map Sigma.fst)
  fields_make : ∀ values, fields (make values) = values
  make_fields : ∀ part, make (fields part) = part
  fields_of : ∀ config, fields (of config) = Entry.valuesOf config entries
  decode_eq : ∀ draft, decode draft =
    (Entry.rowOf temporary entries).decode title draft >>= fun values => .ok (make values)
  part_entries : ∀ entry ∈ entries, entry.2.part = name
  keysOf_name : keysOf name = entries.map (·.2.key)
  distinct : (entries.map (·.2.key)).Nodup

namespace Part

/-- This part says where the service listens and what it accepts. -/
def server (temporary : String) : Part temporary ServerConfig where
  name := "server"
  title := "ServerConfig"
  entries := Entry.ofServer
  decode := ServerConfig.decode
  of := (·.server)
  make values := ⟨values.1, values.2.1, values.2.2.1⟩
  fields part := (part.listenAddress, part.enableCors, part.maxBodySize, ())
  fields_make _ := rfl
  make_fields _ := rfl
  fields_of _ := rfl
  decode_eq _ := rfl
  part_entries := by simp [Entry.ofServer, Entry.listenAddress]
  keysOf_name := by decide
  distinct := by decide

/-- This part says how many workers there are and how much they take. -/
def queue (temporary : String) : Part temporary QueueConfig where
  name := "queue"
  title := "QueueConfig"
  entries := Entry.ofQueue
  decode := QueueConfig.decode
  of := (·.queue)
  make values := ⟨values.1, values.2.1, values.2.2.1, values.2.2.2.1⟩
  fields part := (part.workers, part.channelCapacity, part.maxSourceBytes, part.startRetryMillis, ())
  fields_make _ := rfl
  make_fields _ := rfl
  fields_of _ := rfl
  decode_eq _ := rfl
  part_entries := by simp [Entry.ofQueue]
  keysOf_name := by decide
  distinct := by decide

/-- This part says where workspaces are made. -/
def workspace (temporary : String) : Part temporary WorkspaceConfig where
  name := "workspace"
  title := "WorkspaceConfig"
  entries := Entry.ofWorkspace
  decode := WorkspaceConfig.decode temporary
  of := (·.workspace)
  make values := ⟨values.1, values.2.1⟩
  fields part := (part.root, part.namePrefix, ())
  fields_make _ := rfl
  make_fields _ := rfl
  fields_of _ := rfl
  decode_eq _ := rfl
  part_entries := by simp [Entry.ofWorkspace, Entry.workspaceRoot, Entry.workspacePrefix]
  keysOf_name := by decide
  distinct := by decide

/-- This part says which compilers run, and how. -/
def toolchain (temporary : String) : Part temporary ToolchainConfig where
  name := "toolchain"
  title := "ToolchainConfig"
  entries := Entry.ofToolchain
  decode := ToolchainConfig.decode
  of := (·.toolchain)
  make values := ⟨values.1, values.2.1, values.2.2.1, values.2.2.2.1, values.2.2.2.2.1, values.2.2.2.2.2.1⟩
  fields part :=
    (part.solcPath, part.cargoPath, part.timeoutSeconds, part.defaultOptimizerRuns, part.wasmTarget,
      part.sorobanSdkVersion, ())
  fields_make _ := rfl
  make_fields _ := rfl
  fields_of _ := rfl
  decode_eq _ := rfl
  part_entries := by
    simp [Entry.ofToolchain, Entry.solcPath, Entry.cargoPath, Entry.wasmTarget, Entry.sorobanSdkVersion]
  keysOf_name := by decide
  distinct := by decide

/-- This part says what is logged. -/
def logging (temporary : String) : Part temporary LoggingConfig where
  name := "logging"
  title := "LoggingConfig"
  entries := Entry.ofLogging
  decode := LoggingConfig.decode
  of := (·.logging)
  make values := ⟨values.1, values.2.1⟩
  fields part := (part.level, part.json, ())
  fields_make _ := rfl
  make_fields _ := rfl
  fields_of _ := rfl
  decode_eq _ := rfl
  part_entries := by simp [Entry.ofLogging, Entry.logLevel, Entry.jsonLog]
  keysOf_name := by decide
  distinct := by decide

/-- These are the shapes of the settings of a part. -/
def shapes {temporary : String} {α : Type} (part : Part temporary α) : List (String × Shape) :=
  part.entries.map fun entry => (entry.2.key, entry.2.shape)

variable {temporary : String} {α : Type} {part : Part temporary α} {value : α} {root : SettingTree}
  {config : ServiceConfig}

theorem keys_shapes : part.shapes.map Prod.fst = part.entries.map (·.2.key) := by
  simp [shapes, Function.comp_def]

theorem decode_eq_ok_iff {draft : Draft} :
    part.decode draft = .ok value ↔
      (Entry.rowOf temporary part.entries).decode part.title draft = .ok (part.fields value) := by
  rw [part.decode_eq, Decode.bind_eq_ok_iff]
  constructor
  · rintro ⟨values, read, same⟩
    rw [← Except.ok.inj same, part.fields_make, read]
  · exact fun read => ⟨_, read, congrArg Except.ok (part.make_fields value)⟩

theorem find?_shapes {entry : Sigma Entry} (member : entry ∈ part.entries) :
    part.shapes.find? (fun shape => shape.1 = entry.2.key) = some (entry.2.key, entry.2.shape) := by
  have distinct := part.distinct
  rw [shapes]
  generalize part.entries = entries at member distinct ⊢
  induction entries with
  | nil => simp at member
  | cons first entries inductionHypothesis =>
    obtain ⟨fresh, apart⟩ := List.nodup_cons.mp distinct
    rcases List.mem_cons.mp member with rfl | later
    · exact List.find?_cons_of_pos (by simp)
    · have differ : first.2.key ≠ entry.2.key := fun same =>
        fresh (List.mem_map.mpr ⟨entry, later, same.symm⟩)
      rw [List.map_cons, List.find?_cons_of_neg (by simpa using differ)]
      exact inductionHypothesis later apart

/-- These are the contents of the fields of a part, found by their keys. -/
def contents (part : Part temporary α) (root : SettingTree) (key : String) : Option Draft :=
  (part.shapes.find? fun shape => shape.1 = key).bind fun shape =>
    (root.at? part.name shape.1).map (toShape shape.2)

theorem contents_eq {entry : Sigma Entry} (member : entry ∈ part.entries) :
    part.contents root entry.2.key = (root.at? entry.2.part entry.2.key).map (toShape entry.2.shape) := by
  rw [contents, find?_shapes member, Option.bind_some, part.part_entries entry member]

/-- A part is read when it is a group or a list, or not there, and its row takes the values from the contents. -/
theorem field_takes_iff :
    (Field.withDefault part.name part.decode (part.of (.default temporary))).Takes
        ((root.child? part.name).map (toShapes part.shapes)) value ↔
      (∀ tree ∈ root.child? part.name, (tree.named (keysOf part.name)).isSome) ∧
        (Entry.rowOf temporary part.entries).Takes (part.contents root) (part.fields value) := by
  cases there : root.child? part.name with
  | none =>
    have nothing : part.contents root = fun _ => none := by
      funext key
      rw [contents]
      cases part.shapes.find? fun shape => shape.1 = key <;> simp [SettingTree.at?, there]
    rw [nothing, Entry.rowOf_takes_none_iff, ← part.fields_of]
    refine Option.some_inj.trans ⟨fun same => ⟨by simp, by rw [same]⟩, fun same => ?_⟩
    rw [← part.make_fields value, same.2, part.make_fields]
  | some tree =>
    have names : (Entry.rowOf temporary part.entries).names = part.shapes.map Prod.fst := by
      rw [Entry.names_rowOf, keys_shapes]
    refine decode_eq_ok_iff.trans
      ((SettingTree.decode_toShapes_iff names (keys_shapes ▸ part.distinct) tree).trans ?_)
    rw [part.keysOf_name, keys_shapes]
    have found {table : Table String SettingTree} (named : tree.named (part.entries.map (·.2.key)) = some table) :
        part.contents root = fun key => (part.shapes.find? fun shape => shape.1 = key).bind fun shape =>
          (Table.get? shape.1 table).map (toShape shape.2) := by
      funext key
      simp only [contents, SettingTree.at?, there, part.keysOf_name, named, Option.bind_some]
    constructor
    · rintro ⟨table, named, takes⟩
      refine ⟨?_, found named ▸ takes⟩
      rintro _ ⟨⟩
      rw [named]
      rfl
    · rintro ⟨some, takes⟩
      obtain ⟨table, named⟩ := Option.isSome_iff_exists.mp (some tree rfl)
      exact ⟨table, named, found named ▸ takes⟩

/-- A part of a configuration is read when it is a group or a list, or not there, and each of its entries takes its value
from the setting under its key. -/
theorem takes_iff :
    (Field.withDefault part.name part.decode (part.of (.default temporary))).Takes
        ((root.child? part.name).map (toShapes part.shapes)) (part.of config) ↔
      (∀ tree ∈ root.child? part.name, (tree.named (keysOf part.name)).isSome) ∧
        ∀ entry ∈ part.entries,
          entry.2.Takes temporary (root.at? entry.2.part entry.2.key) (entry.2.field config) := by
  rw [field_takes_iff, part.fields_of,
    Entry.rowOf_takes_iff (fun entry => root.at? entry.2.part entry.2.key) fun entry => contents_eq]

/-- A part can be read when it is a group or a list, or not there, and each of its entries has a value to take. -/
theorem exists_takes_iff :
    (∃ value, (Field.withDefault part.name part.decode (part.of (.default temporary))).Takes
        ((root.child? part.name).map (toShapes part.shapes)) value) ↔
      (∀ tree ∈ root.child? part.name, (tree.named (keysOf part.name)).isSome) ∧
        ∀ entry ∈ part.entries, ∃ value, entry.2.Takes temporary (root.at? entry.2.part entry.2.key) value := by
  simp only [field_takes_iff, exists_and_left]
  refine and_congr_right fun _ => ?_
  rw [← Entry.exists_rowOf_takes_iff (fun entry => root.at? entry.2.part entry.2.key) fun entry => contents_eq]
  constructor
  · exact fun ⟨value, takes⟩ => ⟨_, takes⟩
  · exact fun ⟨values, takes⟩ => ⟨part.make values, (part.fields_make values).symm ▸ takes⟩

end Part

namespace SettingTree

variable {temporary : String} {root : SettingTree} {config : ServiceConfig}

/-- The settings are read when each part is a group or a list, or not there, each entry takes its value from the setting
under its key, and the storage is read. -/
theorem toConfig_iff :
    root.toConfig temporary = .ok config ↔
      (∀ part ∈ sections.map Prod.fst, ∀ tree ∈ root.child? part, (tree.named (keysOf part)).isSome) ∧
        (∀ entry ∈ Entry.all, entry.2.Takes temporary (root.at? entry.2.part entry.2.key) (entry.2.field config)) ∧
        (Field.withDefault "storage" StorageConfig.decode .memory).Takes
          ((root.child? "storage").map storageDraft) config.storage := by
  have takes {α : Type} (part : Part temporary α) := @Part.takes_iff temporary α part root config
  rw [toConfig_eq_ok_iff]
  refine (and_congr (takes (Part.server temporary)) (and_congr Iff.rfl (and_congr (takes (Part.queue temporary))
    (and_congr (takes (Part.workspace temporary)) (and_congr (takes (Part.toolchain temporary))
      (and_congr (takes (Part.logging temporary)) Iff.rfl)))))).trans ?_
  simp only [Entry.all, List.forall_mem_append, sections, List.map_cons, List.map_nil, List.forall_mem_cons]
  constructor
  · rintro ⟨⟨server, ofServer⟩, storage, ⟨queue, ofQueue⟩, ⟨workspace, ofWorkspace⟩, ⟨toolchain, ofToolchain⟩,
      ⟨logging, ofLogging⟩, -⟩
    exact ⟨⟨server, queue, workspace, toolchain, logging, by simp⟩,
      ⟨⟨⟨⟨ofServer, ofQueue⟩, ofWorkspace⟩, ofToolchain⟩, ofLogging⟩, storage⟩
  · rintro ⟨⟨server, queue, workspace, toolchain, logging, -⟩,
      ⟨⟨⟨⟨ofServer, ofQueue⟩, ofWorkspace⟩, ofToolchain⟩, ofLogging⟩, storage⟩
    exact ⟨⟨server, ofServer⟩, storage, ⟨queue, ofQueue⟩, ⟨workspace, ofWorkspace⟩, ⟨toolchain, ofToolchain⟩,
      ⟨logging, ofLogging⟩, trivial⟩

/-- The settings can be read when each part is a group or a list, or not there, each entry has a value to take, and the
storage is read. -/
theorem exists_toConfig_of_takes {storage : StorageConfig}
    (parts : ∀ part ∈ sections.map Prod.fst, ∀ tree ∈ root.child? part, (tree.named (keysOf part)).isSome)
    (entries : ∀ entry ∈ Entry.all, ∃ value, entry.2.Takes temporary (root.at? entry.2.part entry.2.key) value)
    (stored : (Field.withDefault "storage" StorageConfig.decode .memory).Takes
      ((root.child? "storage").map storageDraft) storage) :
    ∃ config, root.toConfig temporary = .ok config := by
  simp only [sections, List.map_cons, List.map_nil, List.forall_mem_cons] at parts
  simp only [Entry.all, List.forall_mem_append] at entries
  obtain ⟨server, queue, workspace, toolchain, logging, -⟩ := parts
  obtain ⟨⟨⟨⟨ofServer, ofQueue⟩, ofWorkspace⟩, ofToolchain⟩, ofLogging⟩ := entries
  obtain ⟨server, serverTaken⟩ := (Part.server temporary).exists_takes_iff.mpr ⟨server, ofServer⟩
  obtain ⟨queue, queueTaken⟩ := (Part.queue temporary).exists_takes_iff.mpr ⟨queue, ofQueue⟩
  obtain ⟨workspace, workspaceTaken⟩ := (Part.workspace temporary).exists_takes_iff.mpr ⟨workspace, ofWorkspace⟩
  obtain ⟨toolchain, toolchainTaken⟩ := (Part.toolchain temporary).exists_takes_iff.mpr ⟨toolchain, ofToolchain⟩
  obtain ⟨logging, loggingTaken⟩ := (Part.logging temporary).exists_takes_iff.mpr ⟨logging, ofLogging⟩
  exact ⟨⟨server, storage, queue, workspace, toolchain, logging⟩, toConfig_eq_ok_iff.mpr
    ⟨serverTaken, stored, queueTaken, workspaceTaken, toolchainTaken, loggingTaken, trivial⟩⟩

end SettingTree

section Storage

open SettingTree (asIs storageDraft)

/-- This function gives the storage for its kind and its path. There is no conversion, and only files need the path. -/
def StorageConfig.ofTrees? (kind path : Option SettingTree) : Option StorageConfig :=
  match kind, path with
  | none, _ => some .memory
  | some (.text "memory"), _ => some .memory
  | some (.text "file"), some (.text path) => some (.file path)
  | _, _ => none

namespace StorageConfig

/-- A path that is no single value counts for nothing. -/
theorem ofTrees?_of_not_single {kind : Option SettingTree} {tree : SettingTree} {storage : StorageConfig}
    (compound : ¬ tree.IsSingle) (read : ofTrees? kind (some tree) = some storage) (path : Option SettingTree) :
    ofTrees? kind path = some storage := by
  unfold ofTrees? at read
  split at read
  · exact read
  · next same =>
    rw [← read, ofTrees?]
  · next same =>
    obtain rfl := Option.some.inj same
    exact absurd trivial compound
  · simp at read

theorem decodeTag_asIs {tree : SettingTree} {isFile : Bool} (read : decodeTag tree.asIs = .ok isFile) :
    tree = .text (if isFile then "file" else "memory") := by
  rw [decodeTag] at read
  obtain ⟨name, written, found⟩ := Decode.bind_eq_ok_iff.mp read
  have text : tree = .text name := by
    cases tree with
    | quantity value => cases value <;> simp [asIs, Decode.textAs, Decode.mismatch] at written
    | text value => exact congrArg SettingTree.text (Except.ok.inj written)
    | _ => simp [asIs, Decode.textAs, Decode.mismatch] at written
  subst text
  rw [Decode.named] at found
  by_cases memory : name = "memory"
  · subst memory
    obtain rfl : false = isFile := Except.ok.inj found
    rfl
  · by_cases file : name = "file"
    · subst file
      obtain rfl : true = isFile := Except.ok.inj found
      rfl
    · simp [memory, file] at found

theorem textAs_asIs {tree : SettingTree} {expected path : String} (read : Decode.textAs expected tree.asIs = .ok path) :
    tree = .text path := by
  cases tree with
  | quantity value => cases value <;> simp [asIs, Decode.textAs, Decode.mismatch] at read
  | text value => exact congrArg SettingTree.text (Except.ok.inj read)
  | _ => simp [asIs, Decode.textAs, Decode.mismatch] at read

theorem findTag_eq (members : Table String SettingTree) :
    findTag (members.map fun member => (some member.1, member.2.asIs)) =
      match Table.get? "type" members with
      | none => .error (.missing "type")
      | some tree => decodeTag tree.asIs := by
  induction members with
  | nil => rfl
  | cons member members inductionHypothesis =>
    rw [List.map_cons, findTag, inductionHypothesis, Table.get?]
    by_cases same : member.1 = "type" <;> simp [same]

theorem findPath_eq (members : Table String SettingTree) :
    findPath (members.map fun member => (some member.1, member.2.asIs)) =
      match Table.get? "path" members with
      | none => .error (.missing "path")
      | some tree => Decode.textAs "path string" tree.asIs := by
  induction members with
  | nil => rfl
  | cons member members inductionHypothesis =>
    rw [List.map_cons, findPath, inductionHypothesis, Table.get?]
    by_cases same : member.1 = "path" <;> simp [same]

/-- A group is read as the storage when it holds the kind and, for files, the path. -/
theorem decode_group_iff {members : Table String SettingTree} {storage : StorageConfig} :
    decode (storageDraft (.group members)) = .ok storage ↔
      Table.get? "type" members = some (.text "memory") ∧ storage = .memory ∨
        ∃ path, Table.get? "type" members = some (.text "file") ∧ Table.get? "path" members = some (.text path) ∧
          storage = .file path := by
  rw [storageDraft, decode, findTag_eq, findPath_eq]
  constructor
  · intro read
    obtain ⟨isFile, tagged, rest⟩ := Decode.bind_eq_ok_iff.mp read
    cases kind : Table.get? "type" members with
    | none => simp [kind] at tagged
    | some tree =>
      rw [kind] at tagged
      obtain rfl := decodeTag_asIs tagged
      cases isFile with
      | false => exact .inl ⟨rfl, (Except.ok.inj rest).symm⟩
      | true =>
        obtain ⟨path, found, same⟩ := Decode.bind_eq_ok_iff.mp rest
        cases held : Table.get? "path" members with
        | none => simp [held] at found
        | some tree =>
          rw [held] at found
          obtain rfl := textAs_asIs found
          exact .inr ⟨path, rfl, rfl, (Except.ok.inj same).symm⟩
  · rintro (⟨kind, rfl⟩ | ⟨path, kind, held, rfl⟩)
    · rw [kind]
      rfl
    · rw [kind, held]
      rfl

/-- A list is read as the storage only when its items are the kind and, for files, the path. -/
theorem items_of_decode {items : List SettingTree} {storage : StorageConfig}
    (read : decode (storageDraft (.list items)) = .ok storage) :
    items = [.text "memory"] ∧ storage = .memory ∨
      ∃ path, items = [.text "file", .text path] ∧ storage = .file path := by
  rw [storageDraft] at read
  cases items with
  | nil => simp [decode] at read
  | cons kind items =>
    simp only [List.map_cons, decode] at read
    obtain ⟨isFile, tagged, rest⟩ := Decode.bind_eq_ok_iff.mp read
    clear read
    obtain rfl := decodeTag_asIs tagged
    cases isFile with
    | false =>
      cases items with
      | nil => exact .inl ⟨rfl, (Except.ok.inj rest).symm⟩
      | cons item items => simp [throw, throwThe, MonadExceptOf.throw] at rest
    | true =>
      cases items with
      | nil => simp [throw, throwThe, MonadExceptOf.throw] at rest
      | cons path others =>
        rw [if_pos rfl, List.map_cons] at rest
        obtain ⟨text, found, last⟩ := Decode.bind_eq_ok_iff.mp rest
        clear rest
        obtain rfl := textAs_asIs found
        cases others with
        | nil => exact .inr ⟨text, rfl, (Except.ok.inj last).symm⟩
        | cons other others => simp [throw, throwThe, MonadExceptOf.throw] at last

/-- A storage that is read comes from its kind and its path. -/
theorem ofTrees?_of_takes {root : SettingTree} {storage : StorageConfig}
    (takes : (Field.withDefault "storage" decode .memory).Takes ((root.child? "storage").map storageDraft) storage) :
    ofTrees? (root.at? "storage" "type") (root.at? "storage" "path") = some storage := by
  have keys : keysOf "storage" = ["type", "path"] := by decide
  cases there : root.child? "storage" with
  | none =>
    rw [there] at takes
    rw [SettingTree.at?, there, ← show StorageConfig.memory = storage from Option.some.inj takes]
    rfl
  | some tree =>
    rw [there] at takes
    have read : decode tree.storageDraft = .ok storage := takes
    simp only [SettingTree.at?, there, Option.bind_some, keys]
    cases tree with
    | group members =>
      simp only [SettingTree.named, Option.bind_some]
      rcases decode_group_iff.mp read with ⟨kind, rfl⟩ | ⟨path, kind, held, rfl⟩
      · rw [kind]
        rfl
      · rw [kind, held]
        rfl
    | list items => rcases items_of_decode read with ⟨rfl, rfl⟩ | ⟨path, rfl, rfl⟩ <;> rfl
    | _ => simp [storageDraft, decode, Decode.mismatch] at read

end StorageConfig

end Storage

end ContractWorks

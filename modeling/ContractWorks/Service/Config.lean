import ContractWorks.Queue.Config
import ContractWorks.Service.Address
import ContractWorks.Toolchain.Config

namespace ContractWorks

/-- This type says where the service listens and what it accepts. -/
structure ServerConfig where
  listenAddress : Address := .short [127, 0, 0, 1] 8080
  enableCors : Bool := true
  maxBodySize : UInt64 := 4194304
  deriving DecidableEq, Repr

namespace ServerConfig

/-- This decoder reads an address. -/
def decodeAddress : Decoder Address := fun draft => do
  let written ← Decode.textAs "socket address" draft
  match Address.read written with
  | some address => return address
  | none => throw .badAddress

/-- This decoder reads the settings of the server. -/
def decode : Decoder ServerConfig := fun draft => do
  let default : ServerConfig := {}
  let (listenAddress, enableCors, maxBodySize, ()) ← Row.decode
    (.field (.withDefault "listen_addr" decodeAddress default.listenAddress) <|
      .field (.withDefault "enable_cors" Decode.bool default.enableCors) <|
      .field (.withDefault "max_body_size" Decode.size default.maxBodySize) .done)
    "ServerConfig" draft
  return ⟨listenAddress, enableCors, maxBodySize⟩

/-- This function encodes the settings of the server. -/
def encode (config : ServerConfig) : Json :=
  .object [("listen_addr", .text config.listenAddress.text), ("enable_cors", .bool config.enableCors),
    ("max_body_size", .count config.maxBodySize.toNat)]

end ServerConfig

/-- Records are kept in memory, or as files below a directory. -/
inductive StorageConfig where
  | memory
  | file (path : String)
  deriving DecidableEq, Repr

namespace StorageConfig

/-- This function reads the name of a kind of storage; the result tells whether it has a path. -/
def decodeTag (draft : Draft) : Except DecodeError Bool := do
  let name ← Decode.textAs "variant identifier" draft
  Decode.named [(["memory"], false), (["file"], true)] name

/-- This function says how many items of a sequence were wanted. -/
def wantedItems (count : Nat) : String :=
  toString count ++ (if count = 1 then " element in sequence" else " elements in sequence")

/-- This function finds the name among the members of an object. -/
def findTag : List (Option String × Draft) → Except DecodeError Bool
  | [] => .error (.missing "type")
  | (key, content) :: members =>
    if key = some "type" then decodeTag content else findTag members

/-- This function finds the path among the members of an object. -/
def findPath : List (Option String × Draft) → Except DecodeError String
  | [] => .error (.missing "path")
  | (key, content) :: members =>
    if key = some "path" then Decode.textAs "path string" content else findPath members

/-- This decoder reads the settings of the storage, with the name of the kind first or under `type`. -/
def decode : Decoder StorageConfig
  | .object members => do
    if ← findTag members then return .file (← findPath members) else return .memory
  | .array [] => .error (.missing "type")
  | .array (tag :: items) => do
    if ← decodeTag tag then
      match items with
      | [] => throw (.tooFew 0 "struct variant StorageConfig::File with 1 element")
      | path :: others =>
        let path ← Decode.textAs "path string" path
        if others.isEmpty then return .file path
        else throw (.tooFew (others.length + 1) (wantedItems 1))
    else if items.isEmpty then return .memory
    else throw (.tooFew items.length (wantedItems 0))
  | other => Decode.mismatch "internally tagged enum StorageConfig" other

/-- This function encodes the settings of the storage. -/
def encode : StorageConfig → Json
  | .memory => .object [("type", .text "memory")]
  | .file path => .object [("type", .text "file"), ("path", .text path)]

end StorageConfig

/-- This type says what is logged. -/
structure LoggingConfig where
  level : String := "info"
  json : Bool := false
  deriving DecidableEq, Repr

namespace LoggingConfig

/-- This decoder reads the settings of the log. -/
def decode : Decoder LoggingConfig := fun draft => do
  let (level, json, ()) ← Row.decode
    (.field (.withDefault "level" Decode.text "info") <|
      .field (.withDefault "json" Decode.bool false) .done)
    "LoggingConfig" draft
  return ⟨level, json⟩

/-- This function encodes the settings of the log. -/
def encode (config : LoggingConfig) : Json :=
  .object [("level", .text config.level), ("json", .bool config.json)]

end LoggingConfig

/-- This type holds all settings of the service. -/
structure ServiceConfig where
  server : ServerConfig := {}
  storage : StorageConfig := .memory
  queue : QueueConfig := {}
  workspace : WorkspaceConfig
  toolchain : ToolchainConfig := {}
  logging : LoggingConfig := {}
  deriving DecidableEq, Repr

namespace ServiceConfig

/-- These are the settings when nothing is set. -/
def default (temporary : String) : ServiceConfig :=
  { workspace := .default temporary }

/-- This decoder reads all settings. -/
def decode (temporary : String) : Decoder ServiceConfig := fun draft => do
  let (server, storage, queue, workspace, toolchain, logging, ()) ← Row.decode
    (.field (.withDefault "server" ServerConfig.decode {}) <|
      .field (.withDefault "storage" StorageConfig.decode .memory) <|
      .field (.withDefault "queue" QueueConfig.decode {}) <|
      .field (.withDefault "workspace" (WorkspaceConfig.decode temporary) (.default temporary)) <|
      .field (.withDefault "toolchain" ToolchainConfig.decode {}) <|
      .field (.withDefault "logging" LoggingConfig.decode {}) .done)
    "DaemonConfig" draft
  return ⟨server, storage, queue, workspace, toolchain, logging⟩

/-- This function encodes all settings. -/
def encode (config : ServiceConfig) : Json :=
  .object [("server", config.server.encode), ("storage", config.storage.encode),
    ("queue", config.queue.encode), ("workspace", config.workspace.encode),
    ("toolchain", config.toolchain.encode), ("logging", config.logging.encode)]

end ServiceConfig

end ContractWorks

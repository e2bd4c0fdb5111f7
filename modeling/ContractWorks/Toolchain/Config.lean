import ContractWorks.Contract.Target
import ContractWorks.Json.Record

namespace ContractWorks

/-- This type says which compilers run and how long they may take. -/
structure ToolchainConfig where
  solcPath : String := "solc"
  cargoPath : String := "cargo"
  timeoutSeconds : UInt64 := 120
  defaultOptimizerRuns : UInt32 := 200
  wasmTarget : String := "wasm32-unknown-unknown"
  sorobanSdkVersion : String := "22.0.0"
  deriving DecidableEq, Repr

namespace ToolchainConfig

/-- This decoder reads the settings of the compilers. -/
def decode : Decoder ToolchainConfig := fun draft => do
  let default : ToolchainConfig := {}
  let (solcPath, cargoPath, timeoutSeconds, defaultOptimizerRuns, wasmTarget, sdkVersion, ()) ←
    Row.decode
      (.field (.withDefault "solc_path" (Decode.textAs "path string") default.solcPath) <|
        .field (.withDefault "cargo_path" (Decode.textAs "path string") default.cargoPath) <|
        .field (.withDefault "timeout_secs" Decode.uint64 default.timeoutSeconds) <|
        .field (.withDefault "default_optimizer_runs" Decode.uint32 default.defaultOptimizerRuns) <|
        .field (.withDefault "wasm_target" Decode.text default.wasmTarget) <|
        .field (.withDefault "soroban_sdk_version" Decode.text default.sorobanSdkVersion) .done)
      "ToolchainConfig" draft
  return ⟨solcPath, cargoPath, timeoutSeconds, defaultOptimizerRuns, wasmTarget, sdkVersion⟩

/-- This function encodes the settings of the compilers. -/
def encode (config : ToolchainConfig) : Json :=
  .object [("solc_path", .text config.solcPath), ("cargo_path", .text config.cargoPath),
    ("timeout_secs", .count config.timeoutSeconds.toNat),
    ("default_optimizer_runs", .count config.defaultOptimizerRuns.toNat),
    ("wasm_target", .text config.wasmTarget),
    ("soroban_sdk_version", .text config.sorobanSdkVersion)]

end ToolchainConfig

/-- This type says where workspaces are made and how their names begin. -/
structure WorkspaceConfig where
  root : String
  namePrefix : String
  deriving DecidableEq, Repr

namespace WorkspaceConfig

/-- Workspaces are made in a directory of their own below the one for temporary files. -/
def default (temporary : String) : WorkspaceConfig :=
  ⟨temporary ++ "/blockforge", "forge-job-"⟩

/-- This decoder reads the settings of the workspaces. -/
def decode (temporary : String) : Decoder WorkspaceConfig := fun draft => do
  let default := WorkspaceConfig.default temporary
  let (root, namePrefix, ()) ← Row.decode
    (.field (.withDefault "root" (Decode.textAs "path string") default.root) <|
      .field (.withDefault "prefix" Decode.text default.namePrefix) .done)
    "WorkspaceConfig" draft
  return ⟨root, namePrefix⟩

/-- This function encodes the settings of the workspaces. -/
def encode (config : WorkspaceConfig) : Json :=
  .object [("root", .text config.root), ("prefix", .text config.namePrefix)]

end WorkspaceConfig

end ContractWorks

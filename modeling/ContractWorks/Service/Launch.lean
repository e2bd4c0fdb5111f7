import ContractWorks.Service.Serve
import ContractWorks.Toolchain.Cargo
import ContractWorks.Toolchain.Config
import ContractWorks.Toolchain.Solc

namespace ContractWorks

/-- This function gives the toolchain for a kind of job. -/
def Toolchain.forKind (config : ToolchainConfig) : JobKind → Toolchain
  | .evm => Solc.toolchain config.solcPath config.defaultOptimizerRuns
  | .stellar => Cargo.toolchain config.cargoPath config.wasmTarget config.sorobanSdkVersion

/-- This function gives the time that a compiler may take. -/
def ToolchainConfig.budget (config : ToolchainConfig) : Budget :=
  .ofSeconds config.timeoutSeconds.toNat

/-- This type holds the two stores of a service. -/
structure Stores where
  jobs : JobStore
  artifacts : ArtifactStore

namespace Stores

/-- This function opens the stores below a directory. -/
def openBelow (directory : String) (disk : Disk) : Disk × Except StoreError Stores :=
  match JobStore.openBelow directory disk with
  | (disk, .error error) => (disk, .error error)
  | (disk, .ok jobs) =>
    match ArtifactStore.openBelow directory disk with
    | (disk, .error error) => (disk, .error error)
    | (disk, .ok artifacts) => (disk, .ok { jobs, artifacts })

/-- This function opens the stores that are asked for. -/
def ofConfig (config : StorageConfig) (disk : Disk) : Disk × Except StoreError Stores :=
  match config with
  | .memory => (disk, .ok { jobs := .memory [], artifacts := .memory [] })
  | .file directory => openBelow directory disk

end Stores

/-- This compiler runs the toolchain for a kind of job on a host. -/
def ToolchainConfig.compiler (config : ToolchainConfig) (host : Host) (kind : JobKind) : Compiler :=
  fun directory input chance disk =>
    match (Toolchain.forKind config kind).run config.budget host directory input
      ⟨chance.name, chance.now⟩ disk with
    | (disk, .ok output) => (disk, .made output.artifact)
    | (disk, .error error) => (disk, .failed error)

namespace Service

/-- This function opens the stores of a service and builds its queue, which has no workers yet. -/
def new (config : ServiceConfig) (host : Host) (clock : Time.Instant) (disk : Disk) :
    Disk × Except ServiceError Service :=
  match Stores.ofConfig config.storage disk with
  | (disk, .error error) => (disk, .error (.storage error))
  | (disk, .ok stores) =>
    let setting : Setting :=
      { config := config.queue, workspaces := config.workspace,
        compilers := config.toolchain.compiler host }
    let world := World.new setting disk stores.jobs stores.artifacts
    (disk, .ok
      { config := config.server, schedule := { setting, world, clock },
        maxSourceBytes := config.queue.maxSourceBytes })

/-- This function starts the workers of a service. -/
def start (service : Service) : Except ServiceError Service :=
  match service.schedule.call .start with
  | (some (.started (.error error)), _) => .error (.queue error)
  | (_, schedule) => .ok { service with schedule }

/-- This function takes the address of a service, which the host must have. -/
def bind (service : Service) : Except ServiceError Service :=
  if service.config.listenAddress.isLocal then .ok service
  else .error (.io DiskError.missing.message)

end Service

end ContractWorks

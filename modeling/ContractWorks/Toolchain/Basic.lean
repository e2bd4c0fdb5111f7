import ContractWorks.Job.Artifact
import ContractWorks.Toolchain.Process

namespace ContractWorks

/-- This type holds all that a compiler run made. -/
structure ToolchainOutput where
  exitCode : Option Nat
  stdout : String
  stderr : String
  artifactPaths : List String
  artifact : Artifact

/-- This function encodes what a run made. -/
def ToolchainOutput.encode (output : ToolchainOutput) : Json :=
  .object
    [("exitCode", (output.exitCode.map Json.count).getD .null), ("stdout", .text output.stdout),
     ("stderr", .text output.stderr), ("artifactPaths", .texts output.artifactPaths),
     ("artifact", output.artifact.encode), ("verifyHash", .bool output.artifact.verifyHash)]

/-- A stamp is the id and the time that a new artifact gets. -/
structure Stamp where
  id : ArtifactId
  now : Time.Instant
  deriving Repr

/-- A toolchain prepares a directory for an input, and gives the command of its compiler. What the compiler
leaves in the directory is then collected. -/
structure Toolchain where
  kind : JobKind
  prepare : (directory : String) → JobInput → Disk → Disk × Except ToolchainError Command
  collect : (directory : String) → JobInput → Stamp → ProcessOutput → Disk →
    Disk × Except ToolchainError ToolchainOutput

/-- This function runs the compiler for an input. -/
def Toolchain.run (toolchain : Toolchain) (budget : Budget) (host : Host) (directory : String)
    (input : JobInput) (stamp : Stamp) (disk : Disk) :
    Disk × Except ToolchainError ToolchainOutput :=
  match toolchain.prepare directory input disk with
  | (disk, .error error) => (disk, .error error)
  | (disk, .ok command) =>
    match budget.run host command disk with
    | (disk, .error error) => (disk, .error error)
    | (disk, .ok output) => toolchain.collect directory input stamp output disk

/-- This function reports a failure of the disk. -/
def ToolchainError.ofDisk (error : DiskError) : ToolchainError :=
  .io error.message

/-- This function does one operation on a disk after another; a failure leaves what was done before it. -/
def Disk.attempt (operation : Disk → Except DiskError Disk)
    (next : Disk → Disk × Except ToolchainError α) (disk : Disk) :
    Disk × Except ToolchainError α :=
  match operation disk with
  | .ok disk => next disk
  | .error error => (disk, .error (.ofDisk error))

/-- This function names a file for a contract: all but letters, digits and underscores of ASCII become
underscores. -/
def fileStem (contractName : String) : String :=
  let stem := contractName.toList.map fun character =>
    if character.isAlphanum || character = '_' then character else '_'
  if stem = [] then "Contract" else String.ofList stem

end ContractWorks

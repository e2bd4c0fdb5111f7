import ContractWorks.Storage.Disk
import ContractWorks.Text.Search
import ContractWorks.Toolchain.Config
import ContractWorks.Toolchain.Error

namespace ContractWorks

/-- A workspace is a directory of its own for one attempt; it has no directory before it is created and after
it is cleaned up. -/
structure Workspace where
  config : WorkspaceConfig
  directory : Option String := none
  deriving DecidableEq, Repr

namespace Workspace

/-- This function reports a failure of the disk at a path. -/
def resource (path : String) (error : DiskError) : WorkspaceError :=
  .resource path error.message

/-- A workspace is ready while it has a directory. -/
def isReady (workspace : Workspace) : Bool :=
  workspace.directory.isSome

/-- This function gives the directory of a workspace that is ready. -/
def path (workspace : Workspace) : Except WorkspaceError String :=
  match workspace.directory with
  | some directory => .ok directory
  | none => .error .notReady

/-- This function gives the ending of the name of a directory: six characters that differ from one number to the
next. -/
def ending (number : Nat) : String :=
  let digits := Nat.toDigits 10 (number % 1000000)
  String.ofList (List.replicate (6 - digits.length) '0' ++ digits)

/-- This function makes a directory with a fresh ending of its name, unless there is one already. -/
def create (workspace : Workspace) (ending : String) (disk : Disk) :
    Disk × Workspace × Except WorkspaceError String :=
  match workspace.directory with
  | some directory => (disk, workspace, .ok directory)
  | none =>
    let root := workspace.config.root
    match disk.makeDirectories root with
    | .error error => (disk, workspace, .error (resource root error))
    | .ok disk =>
      let directory := Path.join root (workspace.config.namePrefix ++ ending)
      match disk.makeDirectory directory with
      | .error error => (disk, workspace, .error (resource root error))
      | .ok disk => (disk, { workspace with directory := some directory }, .ok directory)

/-- This function removes the directory; the workspace is not ready any more, even if that fails. -/
def cleanup (workspace : Workspace) (disk : Disk) : Disk × Workspace × Except WorkspaceError Unit :=
  match workspace.directory with
  | none => (disk, workspace, .ok ())
  | some directory =>
    let workspace := { workspace with directory := none }
    match disk.removeTree directory with
    | .ok disk => (disk, workspace, .ok ())
    | .error error => (disk, workspace, .error (resource directory error))

/-- This function removes one directory in the root if its name has the prefix, and counts it. -/
def sweepOne (config : WorkspaceConfig) (state : Disk × Nat) (name : String) : Disk × Nat :=
  let path := Path.join config.root name
  if Text.startsWith name config.namePrefix && state.1.isDirectory path then
    match state.1.removeTree path with
    | .ok disk => (disk, state.2 + 1)
    | .error _ => state
  else state

/-- This function removes the directories in the root whose names have the prefix, and counts them. -/
def sweep (config : WorkspaceConfig) (disk : Disk) : Disk × Except WorkspaceError Nat :=
  match disk.list config.root with
  | .error .missing => (disk, .ok 0)
  | .error error => (disk, .error (resource config.root error))
  | .ok names =>
    let (disk, removed) := names.foldl (sweepOne config) (disk, 0)
    (disk, .ok removed)

end Workspace

end ContractWorks

import ContractWorks.Toolchain.Process

namespace ContractWorks

/-- A playback stands in for a compiler: it leaves given files and directories and gives a given output. -/
structure Playback where
  missing : Bool := false
  files : List (String × ByteArray) := []
  directories : List String := []
  stdout : ByteArray := .empty
  stderr : ByteArray := .empty
  exit : Int := 0
  signalled : Bool := false
  hangs : Bool := false

namespace Playback

/-- This function does an operation on a disk if it succeeds. -/
def tryTo (operation : Disk → Except DiskError Disk) (disk : Disk) : Disk :=
  match operation disk with
  | .ok disk => disk
  | .error _ => disk

/-- This function gives the path of the directory that holds a file. -/
def above (path : String) : String :=
  "/".intercalate ((Path.names path).dropLast)

/-- This function leaves one file, with the directories above it. Where a directory has the path, the file goes
into it under a name with its number. -/
def leaveFile (directory : String) (disk : Disk) (file : (String × ByteArray) × Nat) : Disk :=
  let ((path, content), number) := file
  let disk := tryTo (fun disk => disk.makeDirectories (Path.join directory (above path))) disk
  let path := Path.join directory path
  let path := if disk.isDirectory path then Path.join path ("file" ++ toString number) else path
  tryTo (fun disk => disk.write path content) disk

/-- This function leaves one directory. -/
def leaveDirectory (directory : String) (disk : Disk) (path : String) : Disk :=
  tryTo (fun disk => disk.makeDirectories (Path.join directory path)) disk

/-- This test asks whether a command comes to the playback. -/
def runs (playback : Playback) (command : Command) (disk : Disk) : Bool :=
  !playback.missing && command.isClean && disk.isDirectory command.directory

/-- This host plays back the same output for every command. Files are left in the order of their paths. -/
def host (playback : Playback) : Host := fun command disk =>
  if !playback.runs command disk then (disk, .notSpawned)
  else
    let files := playback.files.mergeSort fun first second => decide (first.1 ≤ second.1)
    let disk := files.zipIdx.foldl (leaveFile command.directory) disk
    let disk := playback.directories.foldl (leaveDirectory command.directory) disk
    let code := if playback.signalled then none else some (playback.exit % 256).toNat
    (disk, .ended code playback.stdout playback.stderr (if playback.hangs then 20000 else 1))

end Playback

end ContractWorks

import ContractWorks.Service.CommandLine
import ContractWorks.Toolchain.Shell.Run

namespace ContractWorks

/-- This list holds the names of the variables that the program looks at. -/
def variableNames : List String :=
  ["FORGE_CONFIG", "FORGE_LISTEN_ADDR", "FORGE_LOG_LEVEL", "FORGE_LOG_JSON"] ++
    SettingTree.sections.flatMap fun entry =>
      entry.2.map fun shape => "FORGE_" ++ entry.1.toUpper ++ "__" ++ shape.1.toUpper

/-- This function reads the variables that are set. -/
def readVariables : IO (List (String × String)) :=
  (variableNames ++ ["FORGE_STORAGE__TYPE", "FORGE_STORAGE__PATH"]).filterMapM fun name => do
    return (← IO.getEnv name).map fun value => (name, value)

/-- This function puts a file of the host on a disk, if there is one. -/
def copyFile (disk : Disk) (path : String) : IO Disk := do
  try
    let content ← IO.FS.readBinFile path
    let above := "/".intercalate (Path.names path).dropLast
    match disk.makeDirectories above with
    | .ok disk => return (disk.write path content).toOption.getD disk
    | .error _ => return disk
  catch _ => return disk

/-- This function gives a disk with the files that may hold the settings. -/
def readDisk (arguments : List String) (environment : List (String × String)) : IO Disk :=
  match CommandLine.read arguments environment with
  | .ok { config := some path, .. } =>
    (path :: (Settings.candidates path).map Prod.snd).foldlM copyFile Disk.empty
  | _ => return Disk.empty

/-- This function gives the time at which a program starts; only the order of times counts. -/
def startTime : Time.Instant :=
  .ofDate ⟨2026, 1, 1, by decide, by decide, by decide⟩

end ContractWorks

open ContractWorks

/-- The program reads its command line and settings, and ends where it would serve. -/
def main (arguments : List String) : IO UInt32 := do
  let environment ← readVariables
  let disk ← readDisk arguments environment
  let pad : LaunchPad :=
    { temporary := "/tmp", disk, environment, host := Shell.host, clock := startTime }
  let outcome := pad.run arguments
  match outcome with
  | .help => IO.println "Usage: forged [-c FILE] [-l ADDRESS] [--log-level LEVEL] [--json]"
  | .version text => IO.print text
  | .refused => IO.eprintln "error: bad arguments"
  | .failed error => IO.eprintln ("Error: " ++ error.message)
  | .serving service =>
    IO.println ("would listen on " ++ service.config.listenAddress.text)
  return UInt32.ofNat outcome.exitCode

import ContractWorks.Queue.World
import ContractWorks.Text.Search

namespace ContractWorks.Scripted

/-- This mark in a source makes the compiler wait until it is let go on. -/
def holdMark : String := "@HOLD"

/-- This list gives the marks in a source that make a run fail, and how. -/
def failures : List (String × CompilerEnd) :=
  [("@PANIC", .brokeOff),
   ("@FAIL", .failed (.failed "solc reported 1 error(s)" "ParserError: Expected ';'")),
   ("@SILENT", .failed (.failed "boom" "")),
   ("@PARSE", .failed (.parse "bad output")),
   ("@TIMEOUT", .failed (.timeout 7)),
   ("@SPAWN", .failed (.spawn "compiler" DiskError.missing.message)),
   ("@IO", .failed (.io "disk gone")),
   ("@NOTREADY", .failed (.workspace .notReady))]

/-- This function makes the artifact of a run that does not fail. -/
def made (kind : JobKind) (input : JobInput) (chance : Chance) : Artifact :=
  match kind with
  | .evm =>
    .ofBytecode chance.name chance.now input.contractName
      (.array [.object [("type", "constructor")]]) "6080604052" ["scripted warning"]
  | .stellar => .ofWasm chance.name chance.now input.contractName [0x00, 0x61, 0x73, 0x6D] []

/-- This compiler does what the marks in its source say: it leaves a file, may remove its directory, and then
fails as the first mark tells, or else makes an artifact. -/
def compiler (kind : JobKind) : Compiler := fun directory input chance disk =>
  let disk := ((disk.write (Path.join directory "touched") .empty).toOption).getD disk
  let disk :=
    if Text.contains input.source "@RMWS" then ((disk.removeTree directory).toOption).getD disk
    else disk
  match failures.find? fun failure => Text.contains input.source failure.1 with
  | some failure => (disk, failure.2)
  | none => (disk, .made (made kind input chance))

end ContractWorks.Scripted

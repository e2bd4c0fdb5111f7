import ContractWorks.Storage.Disk
import ContractWorks.Text.Utf8
import ContractWorks.Toolchain.Error

namespace ContractWorks

/-- A command names a program, its arguments, the directory it runs in, what is added to its environment, and
its input. -/
structure Command where
  program : String
  arguments : List String := []
  directory : String
  environment : List (String × String) := []
  input : Option ByteArray := none

/-- This test asks whether no text for the host holds a zero octet, which would end it too early. -/
def Command.isClean (command : Command) : Bool :=
  (command.program :: command.directory :: command.arguments).all (fun text => !text.toList.contains '\x00') &&
    command.environment.all fun entry => !(entry.1 ++ entry.2).toList.contains '\x00'

/-- A process is refused by the host, or runs for a time and ends with a code or by a signal. -/
inductive ProcessEnd where
  | notSpawned
  | ended (code : Option Nat) (stdout stderr : ByteArray) (millis : Nat)

/-- A host runs a command on a disk. -/
abbrev Host := Command → Disk → Disk × ProcessEnd

/-- This type holds what a process left behind. -/
structure ProcessOutput where
  exitCode : Option Nat
  stdout : String
  stderr : String
  deriving DecidableEq, Repr

/-- Only the code zero means success. -/
def ProcessOutput.success (output : ProcessOutput) : Bool :=
  output.exitCode = some 0

/-- A budget bounds the time of a process. -/
structure Budget where
  nanos : Nat
  deriving DecidableEq, Repr

namespace Budget

/-- This function makes a budget of seconds. -/
def ofSeconds (seconds : Nat) : Budget := ⟨seconds * 1000000000⟩

/-- This function makes a budget of milliseconds. -/
def ofMillis (millis : Nat) : Budget := ⟨millis * 1000000⟩

/-- This function gives whole seconds, rounded up. -/
def seconds (budget : Budget) : Nat :=
  (budget.nanos + 999999999) / 1000000000

/-- This function gives whole milliseconds, rounded down. -/
def millis (budget : Budget) : Nat :=
  budget.nanos / 1000000

/-- This test asks whether a time fits. -/
def covers (budget : Budget) (millis : Nat) : Bool :=
  millis * 1000000 ≤ budget.nanos

/-- This function judges the end of a process by the budget. -/
def judge (budget : Budget) (program : String) : ProcessEnd → Except ToolchainError ProcessOutput
  | .notSpawned => .error (.spawn program DiskError.missing.message)
  | .ended code stdout stderr millis =>
    if budget.covers millis then
      .ok ⟨code, Text.Utf8.decodeLossy stdout, Text.Utf8.decodeLossy stderr⟩
    else .error (.timeout budget.seconds)

/-- This function runs a command and stops it when the budget is spent. A command with a zero octet never comes
to the host. -/
def run (budget : Budget) (host : Host) (command : Command) (disk : Disk) :
    Disk × Except ToolchainError ProcessOutput :=
  if command.isClean then
    let (disk, ending) := host command disk
    (disk, budget.judge command.program ending)
  else (disk, .error (.spawn command.program "nul byte found in provided data"))

end Budget

end ContractWorks

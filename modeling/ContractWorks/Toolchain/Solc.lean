import ContractWorks.Json.Printer
import ContractWorks.Text.Blank
import ContractWorks.Toolchain.Basic

namespace ContractWorks.Solc

/-- This function asks the compiler for the interface and the bytecode of one source file. -/
def request (fileName source : String) (optimizerRuns : UInt32) : Json :=
  .object
    [("language", "Solidity"),
     ("settings", .object
       [("optimizer", .object [("enabled", .bool true), ("runs", .count optimizerRuns.toNat)]),
        ("outputSelection", .object
          [("*", .object [("*", .texts ["abi", "evm.bytecode.object"])])])]),
     ("sources", .object [(fileName, .object [("content", .text source)])])]

/-- This type holds what is taken from the output of the compiler. -/
structure Output where
  abi : Json
  bytecode : String
  warnings : List String
  deriving Repr

/-- The wording of a text that is no JSON is left open. -/
def jsonError : String := "<json error>"

/-- This function gives the text of a diagnostic without blanks at its end. -/
def diagnosticText (diagnostic : Json) : String :=
  let text := ((diagnostic.member? "formattedMessage").bind Json.text?).or
    ((diagnostic.member? "message").bind Json.text?)
  Text.trimEnd (text.getD "")

/-- This test asks whether a diagnostic is an error; all others are warnings. -/
def isError (diagnostic : Json) : Bool :=
  (diagnostic.member? "severity").bind Json.text? = some "error"

/-- This function gives the diagnostics of an output. -/
def diagnostics (output : Json) : List Json :=
  ((output.member? "errors").bind Json.items?).getD []

/-- This function gives the bytecode of a contract that can be deployed. -/
def bytecode? (contract : Json) : Option String := do
  let evm ← contract.member? "evm"
  let bytecode ← evm.member? "bytecode"
  let object ← bytecode.member? "object"
  let code ← object.text?
  if code = "" then none else some code

/-- This function gives the interface and the bytecode of a contract that can be deployed. -/
def deployable? (contract : Json) : Option (Json × String) :=
  (bytecode? contract).map fun code => ((contract.member? "abi").getD .null, code)

/-- This function chooses the contract of a name, or else the first one that can be deployed. -/
def choose (contracts : List (String × Json)) (contractName : String) : Option (Json × String) :=
  ((contracts.lookup contractName).bind deployable?).or
    (contracts.findSome? fun contract => deployable? contract.2)

/-- This function takes the contract of a file from the output of the compiler. -/
def select (output : Json) (fileName contractName : String) : Except ToolchainError Output :=
  let errors := (diagnostics output).filter isError
  let warnings := (diagnostics output).filter fun diagnostic => !isError diagnostic
  if errors ≠ [] then
    .error (.failed ("solc reported " ++ toString errors.length ++ " error(s)")
      ("\n".intercalate (errors.map diagnosticText)))
  else
    match (((output.member? "contracts").bind fun files => files.member? fileName).bind
      Json.members?) with
    | none => .error (.parse ("no contracts for " ++ fileName))
    | some contracts =>
      match choose contracts contractName with
      | none => .error (.failed ("no deployable contract named " ++ contractName ++ " in output") "")
      | some (abi, bytecode) => .ok ⟨abi, bytecode, warnings.map diagnosticText⟩

/-- This function reads the output of the compiler. -/
def parse (stdout fileName contractName : String) : Except ToolchainError Output :=
  match Json.read stdout with
  | none => .error (.parse jsonError)
  | some output => select output fileName contractName

/-- This function words the code of a process. -/
def statusText : Option Nat → String
  | some code => "Some(" ++ toString code ++ ")"
  | none => "None"

/-- This function writes the source file and asks for the compiler. -/
def prepare (binary : String) (defaultRuns : UInt32) (directory : String) (input : JobInput)
    (disk : Disk) : Disk × Except ToolchainError Command :=
  let fileName := fileStem input.contractName ++ ".sol"
  let runs := input.optimizerRuns.getD defaultRuns
  disk.attempt (fun disk => disk.write (Path.join directory fileName) input.source.toUTF8) fun disk =>
    (disk, .ok
      { program := binary, arguments := ["--standard-json"], directory,
        input := some (request fileName input.source runs).compact.toUTF8 })

/-- This function reads the output of the compiler and leaves the results as files. -/
def collect (directory : String) (input : JobInput) (stamp : Stamp) (output : ProcessOutput)
    (disk : Disk) : Disk × Except ToolchainError ToolchainOutput :=
  if !output.success then
    (disk, .error (.failed ("solc exited with status " ++ statusText output.exitCode) output.stderr))
  else
    let stem := fileStem input.contractName
    match parse output.stdout (stem ++ ".sol") input.contractName with
    | .error error => (disk, .error error)
    | .ok parsed =>
      let outDirectory := Path.join directory "out"
      let abiPath := Path.join outDirectory (stem ++ ".abi.json")
      let binPath := Path.join outDirectory (stem ++ ".bin")
      disk.attempt (fun disk => disk.makeDirectories outDirectory) fun disk =>
        disk.attempt (fun disk => disk.write abiPath parsed.abi.compact.toUTF8) fun disk =>
          disk.attempt (fun disk => disk.write binPath parsed.bytecode.toUTF8) fun disk =>
            (disk, .ok
              { exitCode := output.exitCode, stdout := output.stdout, stderr := output.stderr,
                artifactPaths := [abiPath, binPath],
                artifact := .ofBytecode stamp.id stamp.now input.contractName parsed.abi
                  parsed.bytecode parsed.warnings })

/-- This toolchain compiles Solidity. -/
def toolchain (binary : String) (defaultRuns : UInt32) : Toolchain :=
  { kind := .evm, prepare := prepare binary defaultRuns, collect }

end ContractWorks.Solc

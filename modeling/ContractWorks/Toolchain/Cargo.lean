import ContractWorks.Text.Blank
import ContractWorks.Text.Search
import ContractWorks.Toolchain.Basic
import ContractWorks.Toolchain.Solc

namespace ContractWorks.Cargo

/-- This function adds a character to a package name, which is held in reverse. Letters and digits are kept in
lower case, and a hyphen stands for all that is between them. -/
def addChar (reversed : List Char) (character : Char) : List Char :=
  if character.isAlphanum then character.toLower :: reversed
  else
    match reversed with
    | [] => []
    | '-' :: _ => reversed
    | _ => '-' :: reversed

/-- This function gives the runs of letters and digits of a name, joined by hyphens. -/
def hyphenated (contractName : String) : List Char :=
  ((contractName.toList.foldl addChar []).dropWhile (· = '-')).reverse

/-- This function names a package for a contract; a name that is empty or begins with a digit gets a word in
front. -/
def packageName (contractName : String) : String :=
  match hyphenated contractName with
  | [] => "contract"
  | first :: rest =>
    if first.isDigit then "contract-" ++ String.ofList (first :: rest)
    else String.ofList (first :: rest)

/-- This function writes the manifest of a package. -/
def manifest (sdkVersion package : String) : String :=
  "[package]\n" ++
  "name = \"" ++ package ++ "\"\n" ++
  "version = \"0.1.0\"\n" ++
  "edition = \"2021\"\n" ++
  "publish = false\n" ++
  "\n" ++
  "[lib]\n" ++
  "crate-type = [\"cdylib\"]\n" ++
  "path = \"src/lib.rs\"\n" ++
  "\n" ++
  "[dependencies]\n" ++
  "soroban-sdk = \"" ++ sdkVersion ++ "\"\n" ++
  "\n" ++
  "[profile.release]\n" ++
  "opt-level = \"z\"\n" ++
  "overflow-checks = true\n" ++
  "debug = 0\n" ++
  "strip = \"symbols\"\n" ++
  "debug-assertions = false\n" ++
  "panic = \"abort\"\n" ++
  "codegen-units = 1\n" ++
  "lto = true\n" ++
  "\n" ++
  "[workspace]\n"

/-- This function names the file of a binary. -/
def wasmName (package : String) : String :=
  String.ofList (package.toList.map fun character => if character = '-' then '_' else character) ++
    ".wasm"

/-- This function gives the path of the binary of a package. -/
def wasmPath (target directory package : String) : String :=
  Path.join (Path.join (Path.join (Path.join directory "target") target) "release") (wasmName package)

/-- This test holds of the lines that warn, except those that count the warnings of a package. -/
def isWarning (line : String) : Bool :=
  Text.startsWith line "warning:" && !Text.contains line ") generated "

/-- This function gives the warnings among the lines of an output. -/
def warnings (stderr : String) : List String :=
  ((Text.lines stderr).map Text.trim).filter isWarning

/-- This function writes a package around a source and asks for its build. -/
def prepare (binary target sdkVersion : String) (directory : String) (input : JobInput)
    (disk : Disk) : Disk × Except ToolchainError Command :=
  let package := packageName input.contractName
  let sourceDirectory := Path.join directory "src"
  disk.attempt (fun disk => disk.makeDirectories sourceDirectory) fun disk =>
    disk.attempt
      (fun disk => disk.write (Path.join directory "Cargo.toml") (manifest sdkVersion package).toUTF8)
      fun disk =>
        disk.attempt
          (fun disk => disk.write (Path.join sourceDirectory "lib.rs") input.source.toUTF8)
          fun disk =>
            (disk, .ok
              { program := binary,
                arguments := ["build", "--release", "--target", target, "--target-dir",
                  Path.join directory "target"],
                directory, environment := [("CARGO_TERM_COLOR", "never")] })

/-- This function takes the binary that a build left. -/
def collect (target directory : String) (input : JobInput) (stamp : Stamp) (output : ProcessOutput)
    (disk : Disk) : Disk × Except ToolchainError ToolchainOutput :=
  if !output.success then
    (disk, .error
      (.failed ("cargo build exited with status " ++ Solc.statusText output.exitCode) output.stderr))
  else
    let path := wasmPath target directory (packageName input.contractName)
    match disk.read path with
    | .ok wasm =>
      (disk, .ok
        { exitCode := output.exitCode, stdout := output.stdout, stderr := output.stderr,
          artifactPaths := [path],
          artifact := .ofWasm stamp.id stamp.now input.contractName wasm.toList
            (warnings output.stderr) })
    | .error .missing =>
      (disk, .error (.failed ("build produced no binary at " ++ path) output.stderr))
    | .error error => (disk, .error (.ofDisk error))

/-- This toolchain builds Soroban contracts. -/
def toolchain (binary target sdkVersion : String) : Toolchain :=
  { kind := .stellar, prepare := prepare binary target sdkVersion, collect := collect target }

end ContractWorks.Cargo

import ContractWorks.Service.Launch
import ContractWorks.Settings.Load

namespace ContractWorks

/-- A flag is what an argument that begins with a hyphen stands for. -/
inductive Flag where
  | config
  | listen
  | logLevel
  | json
  | help
  | version
  deriving DecidableEq, Repr

namespace Flag

/-- This function finds a flag by its long name. -/
def ofLong? : String → Option Flag
  | "config" => some .config
  | "listen" => some .listen
  | "log-level" => some .logLevel
  | "json" => some .json
  | "help" => some .help
  | "version" => some .version
  | _ => none

/-- This function finds a flag by its letter. -/
def ofLetter? : Char → Option Flag
  | 'c' => some .config
  | 'l' => some .listen
  | 'h' => some .help
  | 'V' => some .version
  | _ => none

/-- This test holds of the flags that a value follows. -/
def takesValue : Flag → Bool
  | .config => true
  | .listen => true
  | .logLevel => true
  | _ => false

end Flag

/-- A command line says where the settings are and which of them are overridden. -/
structure CommandLine where
  config : Option String := none
  listen : Option String := none
  logLevel : Option String := none
  json : Bool := false
  deriving DecidableEq, Repr

/-- This type gives the reasons why a command line does not lead to a service. -/
inductive CommandStop where
  | help
  | version
  | refused
  deriving DecidableEq, Repr

namespace CommandLine

/-- This function takes a flag without a value; no flag may be given twice. -/
def takeFlag (line : CommandLine) : Flag → Except CommandStop CommandLine
  | .help => .error .help
  | .version => .error .version
  | .json => if line.json then .error .refused else .ok { line with json := true }
  | _ => .error .refused

/-- This function takes a flag with its value; no flag may be given twice. -/
def takeValue (line : CommandLine) (flag : Flag) (value : String) :
    Except CommandStop CommandLine :=
  match flag with
  | .config => if line.config.isSome then .error .refused else .ok { line with config := some value }
  | .listen => if line.listen.isSome then .error .refused else .ok { line with listen := some value }
  | .logLevel =>
    if line.logLevel.isSome then .error .refused else .ok { line with logLevel := some value }
  | _ => .error .refused

/-- This test asks whether a word stands for flags, so that it is no value of the flag before it. -/
def isFlagWord (word : List Char) : Bool :=
  match word with
  | ['-'] => false
  | '-' :: _ => true
  | _ => false

/-- This function takes a flag whose value comes as the next word. -/
def takeNext (line : CommandLine) (flag : Flag) :
    List String → Except CommandStop (CommandLine × Bool)
  | [] => .error .refused
  | value :: _ =>
    if isFlagWord value.toList then .error .refused
    else (line.takeValue flag value).map fun line => (line, true)

/-- This function takes the letters behind one hyphen. What follows a flag that takes a value is the value. The
result tells whether the next word was used. -/
def takeLetters (line : CommandLine) (rest : List String) :
    List Char → Except CommandStop (CommandLine × Bool)
  | [] => .ok (line, false)
  | letter :: letters =>
    match Flag.ofLetter? letter with
    | none => .error .refused
    | some flag =>
      if flag.takesValue then
        match letters with
        | [] => line.takeNext flag rest
        | '=' :: value => (line.takeValue flag (.ofList value)).map fun line => (line, false)
        | value => (line.takeValue flag (.ofList value)).map fun line => (line, false)
      else
        match line.takeFlag flag with
        | .error stop => .error stop
        | .ok line => takeLetters line rest letters

/-- This function takes a word behind two hyphens, which may hold an equals sign and a value. -/
def takeLong (line : CommandLine) (rest : List String) (word : List Char) :
    Except CommandStop (CommandLine × Bool) :=
  let name := word.takeWhile (· ≠ '=')
  match Flag.ofLong? (.ofList name), word.drop name.length with
  | none, _ => .error .refused
  | some flag, '=' :: value =>
    if flag.takesValue then (line.takeValue flag (.ofList value)).map fun line => (line, false)
    else .error .refused
  | some flag, _ =>
    if flag.takesValue then line.takeNext flag rest
    else (line.takeFlag flag).map fun line => (line, false)

/-- This function takes one word. The result tells whether the next word was used as a value. -/
def takeWord (line : CommandLine) (rest : List String) (word : List Char) :
    Except CommandStop (CommandLine × Bool) :=
  match word with
  | ['-', '-'] => if rest.isEmpty then .ok (line, false) else .error .refused
  | '-' :: '-' :: name => line.takeLong rest name
  | '-' :: first :: letters => line.takeLetters rest (first :: letters)
  | _ => .error .refused

/-- This function takes words one after another; `used` tells whether the first was taken already. -/
def takeWords (line : CommandLine) (used : Bool) : List String → Except CommandStop CommandLine
  | [] => .ok line
  | word :: rest =>
    if used then takeWords line false rest
    else
      match line.takeWord rest word.toList with
      | .error stop => .error stop
      | .ok (line, used) => takeWords line used rest

/-- This function reads what the environment says of the flag for the log, if no argument gave it. -/
def jsonOf (line : CommandLine) (environment : List (String × String)) : Except CommandStop Bool :=
  if line.json then .ok true
  else
    match environment.lookup "FORGE_LOG_JSON" with
    | none => .ok false
    | some "true" => .ok true
    | some "false" => .ok false
    | some _ => .error .refused

/-- This function reads a command line. Variables stand in for arguments that are not given. -/
def read (arguments : List String) (environment : List (String × String)) :
    Except CommandStop CommandLine := do
  let line ← takeWords {} false arguments
  let json ← line.jsonOf environment
  return { config := line.config.or (environment.lookup "FORGE_CONFIG"),
           listen := line.listen.or (environment.lookup "FORGE_LISTEN_ADDR"),
           logLevel := line.logLevel.or (environment.lookup "FORGE_LOG_LEVEL"), json }

/-- This function overrides settings. -/
def override (line : CommandLine) (config : ServiceConfig) : Except ServiceError ServiceConfig := do
  let address ← match line.listen with
    | none => .ok config.server.listenAddress
    | some written =>
      match Address.read written with
      | some address => .ok address
      | none =>
        .error (.config ("Invalid listen address: " ++ DecodeError.badAddress.message))
  return { config with
    server := { config.server with listenAddress := address }
    logging :=
      { level := line.logLevel.getD config.logging.level, json := config.logging.json || line.json } }

end CommandLine

/-- An outcome is how a program ends before it serves, or that it would serve. -/
inductive LaunchOutcome where
  | help
  | version (text : String)
  | refused
  | failed (error : ServiceError)
  | serving (service : Service)

namespace LaunchOutcome

/-- This function gives the code that a program ends with. -/
def exitCode : LaunchOutcome → Nat
  | .help => 0
  | .version _ => 0
  | .refused => 2
  | .failed _ => 1
  | .serving _ => 0

/-- This text names the program and its version. -/
def versionText : String := "forged 0.1.0\n"

end LaunchOutcome

/-- A place to launch from is the directory for temporary files, the disk, the environment, the programs of the
host, and the time. -/
structure LaunchPad where
  temporary : String
  disk : Disk
  environment : List (String × String)
  host : Host
  clock : Time.Instant

namespace LaunchPad

/-- This function loads the settings, opens the stores, starts the workers and takes the address. -/
def serve (pad : LaunchPad) (line : CommandLine) : Except ServiceError Service := do
  let config ← match Settings.load pad.temporary pad.disk line.config pad.environment with
    | some config => .ok config
    | none => .error (.config "")
  let config ← line.override config
  let service ← (Service.new config pad.host pad.clock pad.disk).2
  let service ← service.start
  service.bind

/-- This function runs the program up to the point where it would serve. -/
def run (pad : LaunchPad) (arguments : List String) : LaunchOutcome :=
  match CommandLine.read arguments pad.environment with
  | .error .help => .help
  | .error .version => .version LaunchOutcome.versionText
  | .error .refused => .refused
  | .ok line =>
    match pad.serve line with
    | .ok service => .serving service
    | .error error => .failed error

end LaunchPad

end ContractWorks

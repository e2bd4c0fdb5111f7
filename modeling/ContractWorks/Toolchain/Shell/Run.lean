import ContractWorks.Toolchain.Shell.Program

namespace ContractWorks.Shell

/-- This function gives where a channel leads. -/
def State.outlet (state : State) (channel : String) : Outlet :=
  match channel with
  | "1" => state.output
  | "2" => state.complaints
  | _ => .nowhere

/-- This function leads a channel to an outlet. -/
def State.lead (state : State) (channel : Nat) (outlet : Outlet) : State :=
  match channel with
  | 1 => { state with output := outlet }
  | 2 => { state with complaints := outlet }
  | _ => state

/-- This function leads a channel to a file, which keeps what it holds if the output is added to it. -/
def State.leadToFile (state : State) (channel : Nat) (name : String) (keep : Bool) : Except State State :=
  if name = "/dev/null" then .ok (state.lead channel .nowhere)
  else if name = "/dev/stdout" then .ok (state.lead channel state.output)
  else if name = "/dev/stderr" then .ok (state.lead channel state.complaints)
  else
    let path := state.place name
    let content := if keep then (state.disk.read path).toOption.getD .empty else .empty
    match state.disk.write path content with
    | .ok disk => .ok ({ state with disk }.lead channel (.file path))
    | .error _ => .error (state.object ("cannot create " ++ name ++ ": Directory nonexistent") 2)

/-- This function follows a redirection whose target is known, or gives the state after the complaint. -/
def State.redirect (state : State) (channel : Nat) (mark name : String) : Except State State :=
  match mark with
  | ">" => state.leadToFile channel name false
  | ">>" => state.leadToFile channel name true
  | ">&" => .ok (state.lead channel (state.outlet name))
  | "<" =>
    match fileOctets state plenty name with
    | some input => .ok { state with input }
    | none => .error (state.object ("cannot open " ++ name ++ ": No such file") 2)
  | _ => .ok state

/-- This function takes back what a part that ran apart changed for itself. Signals and endless runs go through. -/
def State.rejoin (ran : State) (scope : Scope) : State :=
  let halt := match ran.halt with
    | some (.killed signal) => some (.killed signal)
    | some .endless => some .endless
    | _ => none
  { ran with toScope := scope, halt }

/-- This function ends a shell with a code. -/
def State.exitWith (state : State) (text : String) : State :=
  match text.toNat? with
  | some code => { state with code := code % 256, halt := some .exit }
  | none => { state.object ("exit: Illegal number: " ++ text) 2 with halt := some .exit }

/-- This function drops blanks at both ends. -/
def trimBlanks (characters : List Char) : List Char :=
  ((characters.dropWhile isBlankChar).reverse.dropWhile isBlankChar).reverse

/-- This function gives the parts of a line to names; the last name gets all that is left. -/
def assignParts (state : State) (line : List Char) : List String → State
  | [] => state
  | [name] => state.assign name (String.ofList line)
  | name :: names =>
    let first := line.takeWhile fun character => !isBlankChar character
    let rest := (line.drop first.length).dropWhile isBlankChar
    assignParts (state.assign name (String.ofList first)) rest names

/-- This function reads a line into variables. -/
def readLine (state : State) (names : List String) : State :=
  let line := state.input.takeWhile (· ≠ 10)
  let characters := (Text.Utf8.lossy line).toList
  let characters := if state.valueOf? "IFS" = some "" then characters else trimBlanks characters
  let code := if state.input.length = line.length then 1 else 0
  let state := { state with input := state.input.drop (line.length + 1), code }
  assignParts state characters (names.filter (· ≠ "-r"))

/-- This function gives the name and the value of an assignment that is an argument. -/
def splitAssignment (text : String) : Option (String × String) :=
  let name := text.toList.takeWhile isNameChar
  match text.toList.drop name.length with
  | '=' :: value => some (String.ofList name, String.ofList value)
  | _ => none

/-- This function runs a command that is part of the shell. -/
def runBuiltin (state : State) (name : String) (arguments : List String) : Option State :=
  match name, arguments with
  | ":", _ | "trap", _ | "umask", _ | "ulimit", _ => some (state.withCode 0)
  | "echo", "-n" :: rest =>
    let text := " ".intercalate rest
    some (state.print ⟨(unescape (text.length + 1) text.toList).1.toArray⟩)
  | "echo", rest =>
    let text := " ".intercalate rest
    let (octets, ended) := unescape (text.length + 1) text.toList
    some (state.print ⟨(if ended then octets else octets ++ [10]).toArray⟩)
  | "cd", names =>
    let path := state.place (names.headD "")
    if state.disk.isDirectory path then some { state with directory := path, code := 0 }
    else some (state.object ("cd: can't cd to " ++ names.headD "") 2)
  | "exit", rest => some (state.exitWith (rest.headD (toString state.code)))
  | "break", _ => some { state with halt := some .leave, code := 0 }
  | "continue", _ => some { state with halt := some .again, code := 0 }
  | "wait", _ => some { state with millis := max state.millis state.background, code := 0 }
  | "read", names => some (readLine state names)
  | "export", rest =>
    some ((rest.filterMap splitAssignment).foldl (fun state entry => state.assign entry.1 entry.2)
      (state.withCode 0))
  | "unset", names =>
    some (names.foldl (fun state name => state.setVariable name none) (state.withCode 0))
  | "set", "--" :: rest => some { state with parameters := state.parameters.take 1 ++ rest, code := 0 }
  | "set", _ => some (state.withCode 0)
  | "shift", rest =>
    let count := (rest.headD "1").toNat?.getD 1
    some { state with parameters := state.parameters.take 1 ++ state.parameters.drop (count + 1), code := 0 }
  | _, _ => none

/-- This list names the commands that the shell finds in itself. -/
def ownCommands : List String :=
  ["true", "false", "printf", "test", "[", "kill", "pwd"]

/-- This test asks whether programs are found by their names alone: the variable that says where to look for them
is not set, or it names a directory that has them. -/
def findsPrograms (state : State) : Bool :=
  match state.valueOf? "PATH" with
  | none => true
  | some places =>
    (places.splitOn ":").any fun place => ["/bin", "/usr/bin"].contains (Path.withoutEnd place)

/-- This function gives the last name of a program's path, if the program can be found. -/
def programName (state : State) (program : String) : Option String :=
  if program.toList.contains '/' then
    if program.startsWith "/bin/" || program.startsWith "/usr/bin/" then Path.fileName? program
    else none
  else if findsPrograms state then some program
  else none

/-- This function runs a program outside the shell; a complaint names it by a label. -/
def runOutside (state : State) (label name : String) (arguments : List String) : State :=
  let found := if ownCommands.contains name then some name else programName state name
  match found, arguments with
  | some "env", [] =>
    let lines := state.environment.reverse.map fun entry => entry.1 ++ "=" ++ entry.2 ++ "\n"
    state.printText (String.join lines)
  | found, arguments =>
    match found.bind fun found => runProgram state found arguments with
    | some state => state
    | none => state.object (label ++ ": not found") 127

/-- This function gives what a shell says of a program that a signal ended. -/
def signalText (signal : Nat) : Option String :=
  [(1, "Hangup"), (3, "Quit"), (6, "Aborted"), (9, "Killed"), (11, "Segmentation fault"),
    (15, "Terminated")].lookup signal

/-- This function ends a shell inside another one: a signal becomes a code. -/
def State.endInner (ran : State) (scope : Scope) : State :=
  match ran.halt with
  | some (.killed signal) =>
    let state := { ran with toScope := scope, halt := none, code := 128 + signal }
    match signalText signal with
    | some text => state.write state.complaints (text ++ "\n").toUTF8
    | none => state
  | _ => ran.rejoin scope

/-- This function gives the text that a script wrote, without the line ends at its end. -/
def capturedText (octets : ByteArray) : String :=
  String.ofList ((Text.Utf8.decodeLossy octets).toList.reverse.dropWhile (· = '\n')).reverse

/-- This function gives the fields of a word. Scripts inside it are run by `capture`. -/
def expand (capture : String → State → String × State) (state : State) (word : Word) : Fields × State :=
  word.foldl
    (fun (found : Fields × State) segment =>
      let (fields, state) := found
      match segment with
      | .text characters _ => (fields.append (String.ofList characters), state)
      | .parameter name otherwise quoted =>
        let values := parameterValues state name otherwise
        if quoted && name = "*" then (fields.append (" ".intercalate values), state)
        else (fields.appendAll (if quoted then Fields.append else Fields.appendSplit) values, state)
      | .arithmetic expression =>
        match evaluate state expression with
        | some value => (fields.append (toString value), state)
        | none =>
          (fields, { state.object ("arithmetic expression: expecting primary: \"" ++ expression ++ "\"") 2 with
            halt := some .exit })
      | .output script quoted =>
        let (text, state) := capture script state
        (if quoted then fields.append text else fields.appendSplit text, state))
    ({}, state)

/-- This function gives the fields of several words. -/
def expandAll (capture : String → State → String × State) (state : State) (words : List Word) :
    List String × State :=
  words.foldl
    (fun (found : List String × State) word =>
      let (fields, state) := expand capture found.2 word
      (found.1 ++ fields.toList, state))
    ([], state)

/-- This function gives the value of a word that is not split. -/
def expandValue (capture : String → State → String × State) (state : State) (word : Word) : String × State :=
  let (fields, state) := expand capture state word
  (" ".intercalate fields.toList, state)

/-- This function follows redirections in their order up to one that fails. -/
def redirectAll (capture : String → State → String × State) (state : State) :
    List Redirection → Except State State
  | [] => .ok state
  | redirection :: rest =>
    let (name, state) := expandValue capture state redirection.target
    match state.redirect redirection.channel redirection.mark name with
    | .ok state => redirectAll capture state rest
    | .error state => .error state

/-- This function sets variables in their order. -/
def assignAll (capture : String → State → String × State) (state : State)
    (assignments : List (String × Word)) : State :=
  assignments.foldl
    (fun state assignment =>
      let (value, state) := expandValue capture state assignment.2
      state.assign assignment.1 value)
    state

/-- This test asks whether a word runs a script. -/
def runsScript (word : Word) : Bool :=
  word.any fun segment => match segment with
    | .output _ _ => true
    | _ => false

/-- This test asks whether a command in the background keeps the output of the process open. -/
def keepsOutput (script : Script) : Bool :=
  let redirections := match script with
    | .simple _ _ redirections => redirections
    | .redirected _ redirections => redirections
    | _ => []
  !([1, 2].all fun channel => redirections.any fun redirection => redirection.channel = channel)

mutual

/-- This function runs a script with a bound on its steps; past the bound it counts as endless. -/
def run : Nat → Script → State → State
  | 0, _, state => { state with halt := some .endless }
  | steps + 1, script, state =>
    if state.halt.isSome then state
    else
      match script with
      | .skip => state
      | .simple assignments words redirections => runSimple steps assignments words redirections state
      | .pipe first second =>
        let scope := state.toScope
        let start := state.millis
        let index := state.streams.size
        let left := run steps first { state with streams := state.streams.push .empty, output := .stream index }
        let written := left.streams.back?.getD .empty
        let (input, ends) := (left.input, left.millis)
        let right := { left.rejoin scope with
          streams := left.streams.pop, input := written.toList, millis := start }
        let ran := (run steps second right).rejoin scope
        { ran with input, millis := max ends ran.millis }
      | .both first second =>
        let state := run steps first state
        if state.code = 0 then run steps second state else state
      | .either first second =>
        let state := run steps first state
        if state.code = 0 then state else run steps second state
      | .sequence first second => run steps second (run steps first state)
      | .background inner =>
        let scope := state.toScope
        let start := state.millis
        let input := state.input
        let ran := (run steps inner { state with input := [] }).rejoin scope
        let held := if keepsOutput inner then max ran.held ran.millis else ran.held
        { ran with input, held, background := max ran.background ran.millis, millis := start, code := 0 }
      | .negate inner =>
        let state := run steps inner state
        if state.halt.isSome then state else state.withCode (if state.code = 0 then 1 else 0)
      | .branch condition yes no =>
        let state := run steps condition state
        if state.halt.isSome then state
        else if state.code = 0 then run steps yes state
        else run steps no (state.withCode 0)
      | .loop condition body goal => runLoop steps condition body goal 0 state
      | .each name words body =>
        let (values, state) := expandAll (capture steps) state words
        runEach steps name values body (state.withCode 0)
      | .apart inner =>
        let scope := state.toScope
        (run steps inner state).rejoin scope
      | .redirected inner redirections =>
        let (output, complaints, input) := (state.output, state.complaints, state.input)
        match redirectAll (capture steps) state redirections with
        | .error state => { state with output, complaints, input }
        | .ok state =>
          let ran := run steps inner state
          let input := if redirections.any fun redirection => redirection.mark = "<" then input else ran.input
          { ran with output, complaints, input }

/-- This function gives what a script inside a word writes, and the state after it. -/
def capture : Nat → String → State → String × State
  | 0, _, state => ("", { state with halt := some .endless })
  | steps + 1, text, state =>
    match Script.read text with
    | none => ("", { state.object "Syntax error" 2 with halt := some .exit })
    | some script =>
      let scope := state.toScope
      let index := state.streams.size
      let ran := run steps script
        { state with streams := state.streams.push .empty, output := .stream index, code := 0 }
      let written := ran.streams.back?.getD .empty
      (capturedText written, { ran.rejoin scope with streams := ran.streams.pop })

/-- This function runs a loop; its code is that of the last round of its body. -/
def runLoop : Nat → Script → Script → Bool → Nat → State → State
  | 0, _, _, _, _, state => { state with halt := some .endless }
  | steps + 1, condition, body, goal, code, state =>
    let state := run steps condition state
    match state.halt with
    | some .leave => { state with halt := none, code := 0 }
    | some .again => runLoop steps condition body goal code { state with halt := none }
    | some _ => state
    | none =>
      if (state.code = 0) ≠ goal then state.withCode code
      else
        let state := run steps body state
        match state.halt with
        | some .leave => { state with halt := none, code := 0 }
        | some .again => runLoop steps condition body goal 0 { state with halt := none }
        | some _ => state
        | none => runLoop steps condition body goal state.code state

/-- This function runs a body once for each value of a name. -/
def runEach : Nat → String → List String → Script → State → State
  | 0, _, _, _, state => { state with halt := some .endless }
  | _ + 1, _, [], _, state => state
  | steps + 1, name, value :: values, body, state =>
    let state := run steps body (state.assign name value)
    match state.halt with
    | some .leave => { state with halt := none, code := 0 }
    | some .again => runEach steps name values body { state with halt := none }
    | some _ => state
    | none => runEach steps name values body state

/-- This function runs a simple command: its words are found first, then its redirections and assignments. -/
def runSimple : Nat → List (String × Word) → List Word → List Redirection → State → State
  | 0, _, _, _, state => { state with halt := some .endless }
  | steps + 1, assignments, words, redirections, state =>
    let (arguments, state) := expandAll (capture steps) state words
    if state.halt.isSome then state
    else
      let (output, complaints, input) := (state.output, state.complaints, state.input)
      match redirectAll (capture steps) state redirections with
      | .error state => { state with output, complaints, input }
      | .ok state =>
        let environment := state.environment
        let state := assignAll (capture steps) state assignments
        if arguments = [] then
          let ran := if assignments.any fun entry => runsScript entry.2 then state else state.withCode 0
          { ran with output, complaints, input }
        else if arguments = ["exec"] then state.withCode 0
        else
          let ran := runWords steps arguments state
          let input := if redirections.any fun redirection => redirection.mark = "<" then input else ran.input
          let ran := assignments.foldl
            (fun state entry => state.setVariable entry.1 (environment.lookup entry.1)) ran
          { ran with output, complaints, input }

/-- This function runs a command whose words are known. -/
def runWords : Nat → List String → State → State
  | 0, _, state => { state with halt := some .endless }
  | steps + 1, arguments, state =>
    match arguments with
    | [] => state
    | "exec" :: name :: rest =>
      let ran :=
        if name = "sh" then runWords steps (name :: rest) state
        else runOutside state ("exec: " ++ name) name rest
      if ran.halt.isSome then ran else { ran with halt := some .exit }
    | "eval" :: rest =>
      match Script.read (" ".intercalate rest) with
      | some script => run steps script state
      | none => { state.object "Syntax error" 2 with halt := some .exit }
    | "sh" :: "-c" :: text :: parameters =>
      let scope := state.toScope
      runText steps text { state with parameters := if parameters = [] then ["sh"] else parameters }
        |>.endInner scope
    | name :: rest =>
      match runBuiltin state name rest with
      | some state => state
      | none => runOutside state name name rest

/-- This function runs the text of a script. -/
def runText : Nat → String → State → State
  | 0, _, state => { state with halt := some .endless }
  | steps + 1, text, state =>
    match Script.read text with
    | some script => run steps script state
    | none => { state.object "Syntax error" 2 with halt := some .exit }

end

/-- This bound is the number of steps after which a script counts as endless. -/
def maxSteps : Nat := 200000

/-- This bound is a time that no budget covers. -/
def foreverMillis : Nat := Nat.pow 10 30

/-- This function gives the end of a process from the last state of a shell. -/
def State.ending (state : State) : ProcessEnd :=
  let (code, millis) : Option Nat × Nat :=
    match state.halt with
    | some (.killed _) => (none, state.millis)
    | some .endless => (none, foreverMillis)
    | _ => (some state.code, state.millis)
  .ended code (state.streams.getD 0 .empty) (state.streams.getD 1 .empty) (max millis state.held)

/-- This function gives a variable as a process finds it: what comes after the first equals sign is its value. -/
def foundVariable (entry : String × String) : String × String :=
  let name := entry.1.toList.takeWhile (· ≠ '=')
  match entry.1.toList.drop name.length with
  | '=' :: rest => (.ofList name, .ofList rest ++ "=" ++ entry.2)
  | _ => entry

/-- This host knows a shell and a few small programs. -/
def host : Host := fun command disk =>
  if !disk.isDirectory command.directory then (disk, .notSpawned)
  else
    let environment := (command.environment.map foundVariable).reverse
    let state : State :=
      { disk, parameters := [command.program], environment,
        directory := command.directory, input := (command.input.getD .empty).toList }
    match programName state command.program, command.arguments with
    | some "sh", "-c" :: script :: parameters =>
      let parameters := if parameters = [] then [command.program] else parameters
      let state := runText maxSteps script { state with parameters }
      (state.disk, state.ending)
    | some "sh", _ =>
      let state := runText maxSteps (Text.Utf8.lossy state.input) { state with input := [] }
      (state.disk, state.ending)
    | some "env", [] =>
      let state := runOutside state "env" "env" []
      (state.disk, state.ending)
    | some name, arguments =>
      match runProgram state name arguments with
      | some state => (state.disk, state.ending)
      | none => (disk, .notSpawned)
    | none, _ => (disk, .notSpawned)

end ContractWorks.Shell

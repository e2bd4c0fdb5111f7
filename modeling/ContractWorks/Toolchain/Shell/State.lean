import ContractWorks.Toolchain.Process
import ContractWorks.Toolchain.Shell.Script

namespace ContractWorks.Shell

/-- A channel leads to a stream, to a file, or nowhere. -/
inductive Outlet where
  | stream (index : Nat)
  | file (path : String)
  | nowhere
  deriving DecidableEq, Repr

/-- A shell stops at an exit, at a signal, or because it never ends; a loop stops or goes on early. -/
inductive Halt where
  | exit
  | killed (signal : Nat)
  | endless
  | leave
  | again
  deriving DecidableEq, Repr

/-- A scope is what a part of a script that runs apart may change for itself alone. -/
structure Scope where
  parameters : List String
  environment : List (String × String)
  directory : String
  output : Outlet := .stream 0
  complaints : Outlet := .stream 1

/-- This type holds what a shell knows while it runs. The first two streams are the output and the complaints of
the process; the others are pipes. A command in the background runs up to a time, and may hold the output open. -/
structure State extends Scope where
  disk : Disk
  input : List UInt8
  streams : Array ByteArray := #[.empty, .empty]
  code : Nat := 0
  halt : Option Halt := none
  millis : Nat := 1
  background : Nat := 0
  held : Nat := 0

namespace State

/-- This function gives the path that a shell means. -/
def place (state : State) (path : String) : String :=
  Path.join state.directory path

/-- This function sets the code of the last command. -/
def withCode (state : State) (code : Nat) : State :=
  { state with code }

/-- This function writes to an outlet. -/
def write (state : State) (outlet : Outlet) (octets : ByteArray) : State :=
  match outlet with
  | .nowhere => state
  | .stream index => { state with streams := state.streams.modify index (· ++ octets) }
  | .file path =>
    let before := (state.disk.read path).toOption.getD .empty
    match state.disk.write path (before ++ octets) with
    | .ok disk => { state with disk }
    | .error _ => state

/-- This function writes output and succeeds. -/
def print (state : State) (octets : ByteArray) : State :=
  (state.write state.output octets).withCode 0

/-- This function writes a text and succeeds. -/
def printText (state : State) (text : String) : State :=
  state.print text.toUTF8

/-- This function writes a complaint and fails. -/
def complain (state : State) (text : String) (code : Nat) : State :=
  (state.write state.complaints (text ++ "\n").toUTF8).withCode code

/-- This function writes a complaint of the shell itself, which starts with its name. -/
def object (state : State) (text : String) (code : Nat) : State :=
  state.complain (state.parameters.headD "sh" ++ ": 1: " ++ text) code

/-- This function sets a variable, or removes it when it has no value. -/
def setVariable (state : State) (name : String) (value : Option String) : State :=
  let others := state.environment.filter fun entry => entry.1 ≠ name
  { state with environment := (value.map ((name, ·))).toList ++ others }

/-- This function sets a variable to a value. -/
def assign (state : State) (name value : String) : State :=
  state.setVariable name (some value)

/-- This function gives the value of a variable. -/
def valueOf? (state : State) (name : String) : Option String :=
  state.environment.lookup name

/-- This function gives the values of a parameter, if it is set. -/
def values? (state : State) (name : String) : Option (List String) :=
  if name = "@" || name = "*" then some (state.parameters.drop 1)
  else if name = "#" then some [toString (state.parameters.length - 1)]
  else if name = "?" then some [toString state.code]
  else if name = "$" then some ["1"]
  else if name = "!" then some ["2"]
  else
    match name.toNat? with
    | some index => (state.parameters[index]?).map ([·])
    | none => (state.valueOf? name).map ([·])

end State

/-- This test holds of the characters that split a value into fields. -/
def isBlankChar (character : Char) : Bool :=
  character = ' ' || character = '\t' || character = '\n'

/-- A row of fields grows at its end; the last field may still be open. -/
structure Fields where
  finished : List String := []
  current : Option String := none

namespace Fields

/-- This function appends text to the open field. -/
def append (fields : Fields) (text : String) : Fields :=
  { fields with current := some (fields.current.getD "" ++ text) }

/-- This function closes the open field. -/
def close (fields : Fields) : Fields :=
  match fields.current with
  | none => fields
  | some text => { finished := text :: fields.finished }

/-- This function appends a value that is split at blanks. -/
def appendSplit (fields : Fields) (value : String) : Fields :=
  value.toList.foldl
    (fun fields character =>
      if isBlankChar character then fields.close else fields.append (String.singleton character))
    fields

/-- This function appends several values as fields of their own. -/
def appendAll (fields : Fields) (add : Fields → String → Fields) : List String → Fields
  | [] => fields
  | [last] => add fields last
  | value :: values => appendAll (add fields value).close add values

/-- This function gives the fields in their order. -/
def toList (fields : Fields) : List String :=
  fields.close.finished.reverse

end Fields

/-- This function gives what stands for a parameter. -/
def parameterValues (state : State) (name : String) (otherwise : Option (Char × String)) : List String :=
  let found := state.values? name
  let empty := found = none || found = some [] || found = some [""]
  match otherwise with
  | none => found.getD [""]
  | some ('#', _) => [toString ((found.getD []).headD "").length]
  | some ('+', text) => [if empty then "" else text]
  | some (_, text) => if empty then [text] else found.getD []

/-- This function puts the values of parameters in place of their names. -/
def insertValues (state : State) : Nat → List Char → List Char
  | 0, characters => characters
  | _ + 1, [] => []
  | steps + 1, '$' :: rest =>
    match readDollar true rest with
    | (.parameter name otherwise _, left) =>
      ((parameterValues state name otherwise).headD "").toList ++ insertValues state steps left
    | (_, _) => '$' :: insertValues state steps rest
  | steps + 1, character :: rest => character :: insertValues state steps rest

mutual

/-- This function evaluates a sum at a level: atoms, products, sums, comparisons. -/
def compute (look : String → Int) : Nat → Nat → List Char → Option (Int × List Char)
  | 0, _, _ => none
  | steps + 1, 0, characters =>
    match characters.dropWhile isBlankChar with
    | '-' :: rest => do
      let (value, left) ← compute look steps 0 rest
      return (-value, left)
    | '(' :: rest => do
      let (value, left) ← compute look steps 3 rest
      match left.dropWhile isBlankChar with
      | ')' :: left => return (value, left)
      | _ => none
    | found =>
      match found.takeWhile isNameChar with
      | [] => none
      | word =>
        let name := String.ofList word
        some ((name.toInt?).getD (look name), found.drop word.length)
  | steps + 1, level + 1, characters => do
    let (first, rest) ← compute look steps level characters
    computeRest look steps (level + 1) first rest

/-- This function goes on with a sum whose first part has a value. -/
def computeRest (look : String → Int) : Nat → Nat → Int → List Char → Option (Int × List Char)
  | 0, _, _, _ => none
  | steps + 1, level, first, characters =>
    let next (operation : Int → Int → Option Int) (rest : List Char) : Option (Int × List Char) := do
      let (second, left) ← compute look steps (level - 1) rest
      computeRest look steps level (← operation first second) left
    match level, characters.dropWhile isBlankChar with
    | 1, '*' :: rest => next (fun a b => some (a * b)) rest
    | 1, '/' :: rest => next (fun a b => if b = 0 then none else some (a.tdiv b)) rest
    | 1, '%' :: rest => next (fun a b => if b = 0 then none else some (a.tmod b)) rest
    | 2, '+' :: rest => next (fun a b => some (a + b)) rest
    | 2, '-' :: rest => next (fun a b => some (a - b)) rest
    | 3, '<' :: '=' :: rest => next (fun a b => some (if a ≤ b then 1 else 0)) rest
    | 3, '>' :: '=' :: rest => next (fun a b => some (if b ≤ a then 1 else 0)) rest
    | 3, '=' :: '=' :: rest => next (fun a b => some (if a = b then 1 else 0)) rest
    | 3, '!' :: '=' :: rest => next (fun a b => some (if a = b then 0 else 1)) rest
    | 3, '<' :: rest => next (fun a b => some (if a < b then 1 else 0)) rest
    | 3, '>' :: rest => next (fun a b => some (if b < a then 1 else 0)) rest
    | _, rest => some (first, rest)

end

/-- This function gives the value of a sum. -/
def evaluate (state : State) (expression : String) : Option Int := do
  let characters := insertValues state (expression.length + 1) expression.toList
  let look := fun name => ((state.valueOf? name).bind String.toInt?).getD 0
  let (value, rest) ← compute look (4 * characters.length + 8) 3 characters
  if (rest.dropWhile isBlankChar).isEmpty then some value else none

end ContractWorks.Shell

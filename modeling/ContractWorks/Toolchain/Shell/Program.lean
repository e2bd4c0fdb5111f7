import ContractWorks.Text.Search
import ContractWorks.Toolchain.Shell.State

namespace ContractWorks.Shell

/-- This function gives the octets of a row of characters. -/
def octetsOf (characters : List Char) : List UInt8 :=
  (String.ofList characters).toUTF8.toList

/-- This function gives the octet of octal digits. -/
def octalOf (digits : List Char) : UInt8 :=
  UInt8.ofNat (digits.foldl (fun value digit => value * 8 + (digit.toNat - 48)) 0)

/-- This function gives up to a number of octal digits at the start of a text. -/
def octalDigits (count : Nat) (characters : List Char) : List Char :=
  (characters.take count).takeWhile fun digit => '0' ≤ digit && digit ≤ '7'

/-- This function gives the octets that a mark after a backslash stands for. -/
def markedOctets (mark : Char) : List UInt8 :=
  match mark with
  | 'n' => [10]
  | 't' => [9]
  | 'r' => [13]
  | 'a' => [7]
  | 'b' => [8]
  | 'f' => [12]
  | 'v' => [11]
  | '\\' => [92]
  | other => octetsOf ['\\', other]

/-- This function reads escapes in a text; a mark may end the text early, which the second part tells. -/
def unescape : Nat → List Char → List UInt8 × Bool
  | 0, _ => ([], false)
  | _ + 1, [] => ([], false)
  | _ + 1, '\\' :: 'c' :: _ => ([], true)
  | steps + 1, '\\' :: mark :: rest =>
    let digits := if mark = '0' then octalDigits 3 rest else octalDigits 3 (mark :: rest)
    if mark = '0' || digits ≠ [] then
      let taken := if mark = '0' then digits.length else digits.length - 1
      let (octets, ended) := unescape steps (rest.drop taken)
      (octalOf digits :: octets, ended)
    else
      let (octets, ended) := unescape steps rest
      (markedOctets mark ++ octets, ended)
  | steps + 1, character :: rest =>
    let (octets, ended) := unescape steps rest
    (octetsOf [character] ++ octets, ended)

/-- A directive of a format says how a value is written. -/
structure Directive where
  leftward : Bool
  zeros : Bool
  width : Nat
  places : Option Nat
  kind : Char

/-- This function reads a directive after its percent sign. -/
def readDirective (characters : List Char) : Option (Directive × List Char) :=
  let flags := characters.takeWhile fun flag => ['-', '0', '+', ' ', '#'].contains flag
  let rest := characters.drop flags.length
  let width := rest.takeWhile Char.isDigit
  let rest := rest.drop width.length
  let (places, rest) : Option Nat × List Char :=
    match rest with
    | '.' :: rest =>
      let digits := rest.takeWhile Char.isDigit
      (some ((String.ofList digits).toNat?.getD 0), rest.drop digits.length)
    | rest => (none, rest)
  match rest with
  | [] => none
  | kind :: rest =>
    some (⟨flags.contains '-', flags.contains '0', (String.ofList width).toNat?.getD 0, places, kind⟩, rest)

/-- This function gives the whole number at the start of a text. -/
def wholeNumber (text : String) : Int :=
  let (negative, digits) : Bool × List Char := match text.toList with
    | '-' :: rest => (true, rest)
    | '+' :: rest => (false, rest)
    | rest => (false, rest)
  let size := ((String.ofList (digits.takeWhile Char.isDigit)).toNat?.getD 0 : Nat)
  if negative then -(size : Int) else size

/-- This function writes a value as a directive says. -/
def Directive.write (directive : Directive) (value : String) : List UInt8 :=
  let number := wholeNumber value
  let octets :=
    match directive.kind with
    | 'd' | 'i' | 'u' => octetsOf (toString number).toList
    | 'x' => octetsOf (Nat.toDigits 16 number.toNat)
    | 'X' => octetsOf ((Nat.toDigits 16 number.toNat).map Char.toUpper)
    | 'o' => octetsOf (Nat.toDigits 8 number.toNat)
    | 'c' => (octetsOf value.toList).take 1
    | 'b' => (unescape (value.length + 1) value.toList).1
    | _ =>
      match directive.places with
      | none => octetsOf value.toList
      | some places => (octetsOf value.toList).take places
  let missing := directive.width - octets.length
  if directive.leftward then octets ++ List.replicate missing 32
  else if directive.zeros && directive.kind ≠ 's' then List.replicate missing 48 ++ octets
  else List.replicate missing 32 ++ octets

/-- This function writes a format once and gives the arguments that are left. -/
def format : Nat → List Char → List String → List UInt8 × List String
  | 0, _, arguments => ([], arguments)
  | _ + 1, [], arguments => ([], arguments)
  | steps + 1, '%' :: '%' :: rest, arguments =>
    let (octets, left) := format steps rest arguments
    (37 :: octets, left)
  | steps + 1, '%' :: rest, arguments =>
    match readDirective rest with
    | none => ([], arguments)
    | some (directive, rest) =>
      let (octets, left) := format steps rest (arguments.drop 1)
      (directive.write (arguments.headD "") ++ octets, left)
  | steps + 1, '\\' :: mark :: rest, arguments =>
    match octalDigits 3 (mark :: rest) with
    | [] =>
      let (octets, left) := format steps rest arguments
      (markedOctets mark ++ octets, left)
    | digits =>
      let (octets, left) := format steps (rest.drop (digits.length - 1)) arguments
      (octalOf digits :: octets, left)
  | steps + 1, character :: rest, arguments =>
    let (octets, left) := format steps rest arguments
    (octetsOf [character] ++ octets, left)

/-- This function writes a format as often as there are arguments for it. -/
def formatAll (text : String) : Nat → List String → List UInt8
  | 0, _ => []
  | steps + 1, arguments =>
    let (octets, left) := format (text.length + 1) text.toList arguments
    if left = [] || left.length = arguments.length then octets
    else octets ++ formatAll text steps left

/-- This function reads seconds as milliseconds. -/
def millisOf (text : String) : Nat :=
  match text.splitToList (· = '.') with
  | [whole] => (whole.toNat?.getD 0) * 1000
  | [whole, part] =>
    let digits := (part.toList ++ ['0', '0', '0']).take 3
    (whole.toNat?.getD 0) * 1000 + (String.ofList digits).toNat?.getD 0
  | _ => 0

/-- This function compares two numbers as an option says. -/
def compareAs (option : String) (first second : Int) : Bool :=
  match option with
  | "-eq" => first = second
  | "-ne" => first ≠ second
  | "-lt" => first < second
  | "-le" => first ≤ second
  | "-gt" => second < first
  | "-ge" => second ≤ first
  | _ => false

/-- This test evaluates a condition. -/
def condition (state : State) : List String → Bool
  | [] => false
  | "!" :: rest => !condition state rest
  | [text] => text ≠ ""
  | ["-n", text] => text ≠ ""
  | ["-z", text] => text = ""
  | ["-d", path] => state.disk.isDirectory (state.place path)
  | ["-e", path] => state.disk.exists? (state.place path)
  | ["-s", path] => (state.disk.read (state.place path)).toOption.any fun content => content.size ≠ 0
  | [option, path] =>
    ["-f", "-r", "-w"].contains option && (state.disk.read (state.place path)).toOption.isSome
  | [first, "=", second] => first = second
  | [first, "!=", second] => first ≠ second
  | [first, option, second] => compareAs option (wholeNumber first) (wholeNumber second)
  | _ => false

/-- This function gives a code of success for a test that holds. -/
def State.judge (state : State) (holds : Bool) : State :=
  state.withCode (if holds then 0 else 1)

/-- This bound is the number of octets that an endless program writes into a pipe. -/
def plenty : Nat := 2000000

/-- This function gives up to a number of octets of a file. -/
def fileOctets (state : State) (count : Nat) (path : String) : Option (List UInt8) :=
  if path = "/dev/null" then some []
  else if path = "/dev/zero" then some (List.replicate count 0)
  else (state.disk.read (state.place path)).toOption.map ByteArray.toList

/-- This function gives the octets of a file, or of the input, and the state after they are read. -/
def readAll (state : State) : List String → List UInt8 × State
  | [] | "-" :: _ => (state.input, { state with input := [] })
  | path :: _ => ((fileOctets state plenty path).getD [], state)

/-- This function writes the contents of files, or of the input when there is no file. -/
def concatenate (state : State) : List String → State
  | [] => { state.print ⟨state.input.toArray⟩ with input := [] }
  | paths =>
    paths.foldl
      (fun state path =>
        if path = "-" then { state.print ⟨state.input.toArray⟩ with input := [] }
        else
          match fileOctets state plenty path with
          | some octets => state.write state.output ⟨octets.toArray⟩
          | none => state.complain ("cat: " ++ path ++ ": No such file or directory") 1)
      (state.withCode 0)

/-- This function splits octets into lines, each with its end. -/
def linesOf (octets : List UInt8) : List (List UInt8) :=
  let (lines, last) := octets.foldr
    (fun octet (found : List (List UInt8) × List UInt8) =>
      if octet = 10 then (found.2 :: found.1, [octet]) else (found.1, octet :: found.2))
    (([] : List (List UInt8)), [])
  (last :: lines).filter (· ≠ [])

/-- This function keeps a number of items at the end. -/
def takeLast {α : Type} (count : Nat) (items : List α) : List α :=
  items.drop (items.length - count)

/-- This function writes the start or the end of a file or of the input. -/
def cut (octetsTaken : List UInt8 → Nat → List UInt8)
    (linesTaken : List (List UInt8) → Nat → List (List UInt8)) (state : State) (arguments : List String) :
    State :=
  let (byOctets, count, paths) : Bool × Nat × List String :=
    match arguments with
    | "-c" :: count :: paths => (true, count.toNat?.getD 0, paths)
    | "-n" :: count :: paths => (false, count.toNat?.getD 10, paths)
    | first :: paths =>
      if first.startsWith "-c" then (true, ((first.drop 2).toNat?).getD 0, paths)
      else if first.startsWith "-n" then (false, ((first.drop 2).toNat?).getD 10, paths)
      else if first.startsWith "-" then (false, ((first.drop 1).toNat?).getD 10, paths)
      else (false, 10, first :: paths)
    | [] => (false, 10, [])
  let (octets, state) : List UInt8 × State :=
    match paths with
    | ["/dev/zero"] => (List.replicate count 0, state)
    | paths => readAll state paths
  let taken := if byOctets then octetsTaken octets count else (linesTaken (linesOf octets) count).flatten
  state.print ⟨taken.toArray⟩

/-- This function gives the octets that a set of characters names. -/
def setOf : Nat → List Char → List UInt8
  | 0, _ => []
  | _ + 1, [] => []
  | steps + 1, '\\' :: mark :: rest =>
    match octalDigits 3 (mark :: rest) with
    | [] => markedOctets mark ++ setOf steps rest
    | digits => octalOf digits :: setOf steps (rest.drop (digits.length - 1))
  | steps + 1, first :: '-' :: last :: rest =>
    (List.range (last.toNat + 1 - first.toNat)).map (fun offset => UInt8.ofNat (first.toNat + offset)) ++
      setOf steps rest
  | steps + 1, character :: rest => octetsOf [character] ++ setOf steps rest

/-- This function replaces the octets of one set by those of another, or leaves them out. -/
def exchange (state : State) (arguments : List String) : State :=
  let octetsOfSet := fun (text : String) => setOf (text.length + 1) text.toList
  let (octets, state) := readAll state []
  match arguments with
  | ["-d", set] =>
    let left := octets.filter fun octet => !(octetsOfSet set).contains octet
    state.print ⟨left.toArray⟩
  | [source, target] =>
    let sources := octetsOfSet source
    let targets := octetsOfSet target
    let changed := octets.map fun octet =>
      match sources.idxOf? octet with
      | some index => (targets[index]?.or targets.getLast?).getD octet
      | none => octet
    state.print ⟨changed.toArray⟩
  | _ => state.withCode 1

/-- This function counts octets or lines. -/
def countOf (state : State) : List String → State
  | "-c" :: paths =>
    let (octets, state) := readAll state paths
    state.printText (toString octets.length ++ "\n")
  | "-l" :: paths =>
    let (octets, state) := readAll state paths
    state.printText (toString (octets.count 10) ++ "\n")
  | _ => state.withCode 1

/-- This function writes numbers in order, one a line. -/
def sequence (state : State) (arguments : List String) : State :=
  let (first, last) : Nat × Nat := match arguments.filterMap String.toNat? with
    | [last] => (1, last)
    | [first, last] => (first, last)
    | [first, _, last] => (first, last)
    | _ => (1, 0)
  let numbers := (List.range (last + 1 - first)).map fun offset => toString (first + offset) ++ "\n"
  state.print (numbers.foldl (fun octets line => octets ++ line.toUTF8) .empty)

/-- This function writes a line without end, which only a pipe takes. -/
def repeatLine (state : State) (line : String) : State :=
  match state.output with
  | .stream 0 | .stream 1 | .nowhere => { state with halt := some .endless }
  | _ =>
    let octets := (line ++ "\n").toUTF8
    let times := plenty / octets.size
    state.print ((List.range times).foldl (fun all _ => all ++ octets) .empty)

/-- This function writes the lines in which a text stands, or that start with it when a mark says so. -/
def search (state : State) (pattern : String) (paths : List String) : State :=
  let (octets, state) := readAll state paths
  let found := (linesOf octets).filter fun line =>
    let text := Text.Utf8.lossy line
    match pattern.toList with
    | '^' :: start => start.isPrefixOf text.toList
    | _ => Text.contains text pattern
  let ended := found.map fun line => if line.getLast? = some 10 then line else line ++ [10]
  (state.print ⟨ended.flatten.toArray⟩).judge (!found.isEmpty)

/-- This function gives the number of a signal. -/
def signalNumber (name : String) : Option Nat :=
  let names := [("HUP", 1), ("INT", 2), ("QUIT", 3), ("ABRT", 6), ("KILL", 9), ("USR1", 10), ("SEGV", 11),
    ("USR2", 12), ("PIPE", 13), ("ALRM", 14), ("TERM", 15)]
  (names.lookup name).or (name.toNat?)

/-- This function sends a signal to the shell itself or to its last command in the background; the signal zero only
asks whether the target is there. -/
def kill (state : State) (arguments : List String) : State :=
  let (signal, targets) : Option Nat × List String :=
    match arguments with
    | "-s" :: name :: targets | "-n" :: name :: targets => (signalNumber name, targets)
    | "--" :: targets => (some 15, targets)
    | first :: targets =>
      if first.startsWith "-" then (signalNumber (first.drop 1).toString, targets) else (some 15, first :: targets)
    | [] => (none, [])
  match signal with
  | none => state.object "kill: Illegal option or signal" 2
  | some 0 => state.withCode 0
  | some signal =>
    if targets.contains "1" then { state with halt := some (.killed signal) }
    else if targets.contains "2" then { state with background := state.millis, held := state.millis, code := 0 }
    else state.withCode 1

/-- This function runs a program that is known. -/
def runProgram (state : State) (name : String) (arguments : List String) : Option State :=
  match name, arguments with
  | "echo", "-n" :: rest => some (state.printText (" ".intercalate rest))
  | "echo", rest => some (state.printText (" ".intercalate rest ++ "\n"))
  | "printf", text :: rest => some (state.print ⟨(formatAll text (rest.length + 1) rest).toArray⟩)
  | "printf", [] => some (state.withCode 2)
  | "cat", paths => some (concatenate state paths)
  | "head", options =>
    some (cut (fun octets count => octets.take count) (fun lines count => lines.take count) state options)
  | "tail", options =>
    some (cut (fun octets count => takeLast count octets) (fun lines count => takeLast count lines) state options)
  | "tr", sets => some (exchange state sets)
  | "wc", options => some (countOf state options)
  | "seq", bounds => some (sequence state bounds)
  | "yes", rest => some (repeatLine state (if rest = [] then "y" else " ".intercalate rest))
  | "grep", "-q" :: pattern :: paths =>
    let outlet := state.output
    some { search { state with output := .nowhere } pattern paths with output := outlet }
  | "grep", pattern :: paths => some (search state pattern paths)
  | "sleep", time :: _ => some { state with millis := state.millis + millisOf time, code := 0 }
  | "pwd", _ => some (state.printText (state.directory ++ "\n"))
  | "true", _ => some (state.withCode 0)
  | "false", _ => some (state.withCode 1)
  | "test", terms => some (state.judge (condition state terms))
  | "[", terms => some (state.judge (condition state terms.dropLast))
  | "kill", rest => some (kill state rest)
  | "printenv", [variableName] =>
    match state.valueOf? variableName with
    | some value => some (state.printText (value ++ "\n"))
    | none => some (state.withCode 1)
  | _, _ => none

end ContractWorks.Shell

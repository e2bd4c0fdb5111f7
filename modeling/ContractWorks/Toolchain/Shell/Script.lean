import ContractWorks.Toolchain.Shell.Word

namespace ContractWorks.Shell

/-- A redirection leads a numbered channel to what its target names. -/
structure Redirection where
  channel : Nat
  mark : String
  target : Word
  deriving Repr

/-- A script is a simple command, or is made of scripts. -/
inductive Script where
  | skip
  | simple (assignments : List (String × Word)) (words : List Word) (redirections : List Redirection)
  | pipe (first second : Script)
  | both (first second : Script)
  | either (first second : Script)
  | sequence (first second : Script)
  | background (inner : Script)
  | negate (inner : Script)
  | branch (condition yes no : Script)
  | loop (condition body : Script) (goal : Bool)
  | each (name : String) (words : List Word) (body : Script)
  | apart (inner : Script)
  | redirected (inner : Script) (redirections : List Redirection)
  deriving Repr

/-- A token of a script is a word, a mark between words, or the mark of a redirection. -/
inductive Token where
  | word (segments : Word)
  | mark (text : String)
  | redirection (channel : Nat) (mark : String)
  deriving Repr

/-- This function reads the mark of a redirection. -/
def readRedirection (channel : Option Nat) : List Char → Option (Token × List Char)
  | '>' :: '>' :: rest => some (.redirection (channel.getD 1) ">>", rest)
  | '>' :: '&' :: rest => some (.redirection (channel.getD 1) ">&", rest)
  | '>' :: '|' :: rest => some (.redirection (channel.getD 1) ">", rest)
  | '>' :: rest => some (.redirection (channel.getD 1) ">", rest)
  | '<' :: '&' :: rest => some (.redirection (channel.getD 0) "<&", rest)
  | '<' :: rest => some (.redirection (channel.getD 0) "<", rest)
  | _ => none

/-- This function reads a mark between words. -/
def readMark : List Char → Option (Token × List Char)
  | '&' :: '&' :: rest => some (.mark "&&", rest)
  | '|' :: '|' :: rest => some (.mark "||", rest)
  | '|' :: rest => some (.mark "|", rest)
  | '&' :: rest => some (.mark "&", rest)
  | ';' :: rest => some (.mark ";", rest)
  | '\n' :: rest => some (.mark "\n", rest)
  | '(' :: rest => some (.mark "(", rest)
  | ')' :: rest => some (.mark ")", rest)
  | characters =>
    let digits := characters.takeWhile Char.isDigit
    readRedirection (String.ofList digits).toNat? (characters.drop digits.length)

/-- This function splits a script into tokens. -/
def tokens : Nat → List Char → List Token
  | 0, _ => []
  | _ + 1, [] => []
  | steps + 1, character :: rest =>
    if character = ' ' || character = '\t' then tokens steps rest
    else if character = '#' then tokens steps (rest.dropWhile (· ≠ '\n'))
    else
      match readMark (character :: rest) with
      | some (token, left) => token :: tokens steps left
      | none =>
        let (segments, left) := readWord (rest.length + 2) (character :: rest)
        .word segments :: tokens steps left

/-- This function drops line ends. -/
def dropLines : List Token → List Token
  | .mark "\n" :: rest => dropLines rest
  | rest => rest

/-- This function drops a keyword after line ends. -/
def expect (keyword : String) (found : List Token) : Option (List Token) :=
  match dropLines found with
  | .word segments :: rest => if segments.plain? = some keyword then some rest else none
  | _ => none

/-- This list holds the keywords that end a list of commands. -/
def closers : List String :=
  ["then", "elif", "else", "fi", "do", "done", "\x7d"]

/-- This test asks whether a list of commands ends here. -/
def ends : List Token → Bool
  | [] => true
  | .mark ")" :: _ => true
  | .word segments :: _ => (segments.plain?.map closers.contains).getD false
  | _ => false

/-- This function reads redirections and gives what follows. -/
def readRedirections : List Token → List Redirection × List Token
  | .redirection channel mark :: .word target :: rest =>
    let (redirections, left) := readRedirections rest
    (⟨channel, mark, target⟩ :: redirections, left)
  | rest => ([], rest)

/-- This function reads words and gives what follows. -/
def readWords : List Token → List Word × List Token
  | .word segments :: rest =>
    let (words, left) := readWords rest
    (segments :: words, left)
  | rest => ([], rest)

/-- This function reads the assignments, words and redirections of a simple command. -/
def readSimple : List Token → List (String × Word) → List Word → List Redirection → Script × List Token
  | .redirection channel mark :: .word target :: rest, assignments, words, redirections =>
    readSimple rest assignments words (⟨channel, mark, target⟩ :: redirections)
  | .word segments :: rest, assignments, words, redirections =>
    match words, segments.assignment? with
    | [], some assignment => readSimple rest (assignment :: assignments) words redirections
    | words, _ => readSimple rest assignments (segments :: words) redirections
  | rest, assignments, words, redirections =>
    (.simple assignments.reverse words.reverse redirections.reverse, rest)

/-- This function puts redirections around a script if there are some. -/
def Script.within (script : Script) (redirections : List Redirection) : Script :=
  if redirections.isEmpty then script else .redirected script redirections

mutual

/-- This function reads a list of commands up to where it ends. -/
def readList : Nat → List Token → Option (Script × List Token)
  | 0, _ => none
  | steps + 1, found =>
    let found := dropLines found
    if ends found then some (.skip, found)
    else do
      let (pipeline, rest) ← readPipeline steps found
      let (first, rest) ← readJoined steps pipeline rest
      match rest with
      | .mark ";" :: rest | .mark "\n" :: rest =>
        let (others, left) ← readList steps rest
        return (.sequence first others, left)
      | .mark "&" :: rest =>
        let (others, left) ← readList steps rest
        return (.sequence (.background first) others, left)
      | rest => if ends rest then return (first, rest) else none

/-- This function reads what is joined to a pipeline. -/
def readJoined : Nat → Script → List Token → Option (Script × List Token)
  | 0, _, _ => none
  | steps + 1, first, .mark "&&" :: rest => do
    let (second, rest) ← readPipeline steps (dropLines rest)
    readJoined steps (.both first second) rest
  | steps + 1, first, .mark "||" :: rest => do
    let (second, rest) ← readPipeline steps (dropLines rest)
    readJoined steps (.either first second) rest
  | _ + 1, first, rest => some (first, rest)

/-- This function reads commands that are joined by pipes. -/
def readPipeline : Nat → List Token → Option (Script × List Token)
  | 0, _ => none
  | steps + 1, found =>
    match expect "!" found with
    | some rest => do
      let (inner, left) ← readPipeline steps rest
      return (.negate inner, left)
    | none => do
      let (first, rest) ← readCommand steps found
      match rest with
      | .mark "|" :: rest =>
        let (second, left) ← readPipeline steps (dropLines rest)
        return (.pipe first second, left)
      | rest => return (first, rest)

/-- This function reads one command: a keyword at its start tells its kind. -/
def readCommand : Nat → List Token → Option (Script × List Token)
  | 0, _ => none
  | steps + 1, .mark "(" :: rest => do
    let (inner, rest) ← readList steps rest
    match rest with
    | .mark ")" :: rest =>
      let (redirections, left) := readRedirections rest
      return ((Script.apart inner).within redirections, left)
    | _ => none
  | steps + 1, .word segments :: rest =>
    match segments.plain? with
    | some "\x7b" => do
      let (inner, rest) ← readList steps rest
      let (redirections, left) := readRedirections (← expect "\x7d" rest)
      return (inner.within redirections, left)
    | some "if" => do
      let (inner, rest) ← readBranch steps rest
      let (redirections, left) := readRedirections rest
      return (inner.within redirections, left)
    | some "while" => readLoop steps true rest
    | some "until" => readLoop steps false rest
    | some "for" => readEach steps rest
    | some word =>
      if closers.contains word then none else some (readSimple (.word segments :: rest) [] [] [])
    | none => some (readSimple (.word segments :: rest) [] [] [])
  | _ + 1, .redirection channel mark :: rest => some (readSimple (.redirection channel mark :: rest) [] [] [])
  | _ + 1, _ => none

/-- This function reads a condition and what depends on it. -/
def readBranch : Nat → List Token → Option (Script × List Token)
  | 0, _ => none
  | steps + 1, found => do
    let (condition, rest) ← readList steps found
    let (yes, rest) ← readList steps (← expect "then" rest)
    match expect "elif" rest, expect "else" rest with
    | some rest, _ =>
      let (no, left) ← readBranch steps rest
      return (.branch condition yes no, left)
    | none, some rest =>
      let (no, rest) ← readList steps rest
      return (.branch condition yes no, ← expect "fi" rest)
    | none, none => return (.branch condition yes .skip, ← expect "fi" rest)

/-- This function reads a loop that goes on while its condition meets a goal. -/
def readLoop : Nat → Bool → List Token → Option (Script × List Token)
  | 0, _, _ => none
  | steps + 1, goal, found => do
    let (condition, rest) ← readList steps found
    let (body, rest) ← readList steps (← expect "do" rest)
    let (redirections, left) := readRedirections (← expect "done" rest)
    return ((Script.loop condition body goal).within redirections, left)

/-- This function reads a loop over words. -/
def readEach : Nat → List Token → Option (Script × List Token)
  | 0, _ => none
  | steps + 1, .word name :: found => do
    let (words, rest) :=
      match expect "in" found with
      | some rest => readWords rest
      | none => ([[.parameter "@" none true]], found)
    let rest := match rest with
      | .mark ";" :: rest => rest
      | rest => rest
    let (body, rest) ← readList steps (← expect "do" rest)
    let (redirections, left) := readRedirections (← expect "done" rest)
    return ((Script.each (← name.plain?) words body).within redirections, left)
  | _ + 1, _ => none

end

/-- This function reads a script. -/
def Script.read (text : String) : Option Script :=
  let found := tokens (text.length + 1) text.toList
  match readList (5 * found.length + 5) found with
  | some (script, []) => some script
  | _ => none

end ContractWorks.Shell

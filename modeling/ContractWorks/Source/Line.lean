namespace ContractWorks.Source

/-- A piece of a line is fixed by the program, or a number, or a text that a user gave. -/
inductive Piece where
  | fixed (text : String)
  | number (value : Nat)
  | given (text : String)
  deriving DecidableEq, Repr

instance : Coe String Piece := ⟨.fixed⟩

/-- This function gives the characters of a piece. -/
def Piece.chars : Piece → List Char
  | .fixed text => text.toList
  | .number value => Nat.toDigits 10 value
  | .given text => text.toList

/-- This type holds the lines of a source text. What follows an opening line is indented up to its closing
line. -/
inductive Line where
  | text (pieces : List Piece)
  | blank
  | opening (pieces : List Piece)
  | closing
  deriving DecidableEq, Repr

instance : Coe String Line := ⟨fun text => .text [.fixed text]⟩

/-- This function encloses lines in braces after a header. -/
def block (header : List Piece) (body : List Line) : List Line :=
  .opening header :: (body ++ [.closing])

/-- This function puts a blank line between parts. -/
def joined : List (List Line) → List Line
  | [] => []
  | [part] => part
  | part :: parts => part ++ .blank :: joined parts

/-- This function puts groups of lines one after the other. -/
def together (groups : List (List Line)) : List Line :=
  groups.flatten

/-- This function keeps lines only under a condition. -/
def only (condition : Bool) (lines : List Line) : List Line :=
  if condition then lines else []

/-- This function gives the four spaces of each level. -/
def indentation (depth : Nat) : List Char :=
  List.replicate (4 * depth) ' '

/-- This function writes one line at a depth; a line without characters is not indented. -/
def written (depth : Nat) (characters : List Char) : List Char :=
  (if characters = [] then [] else indentation depth ++ characters) ++ ['\n']

/-- This function gives the depth after a line; a closing line at the outermost level stays there. -/
def Line.depthAfter (depth : Nat) : Line → Nat
  | .opening _ => depth + 1
  | .closing => depth - 1
  | _ => depth

/-- This function writes a line that is reached at a depth. -/
def Line.print (depth : Nat) : Line → List Char
  | .text pieces => written depth (pieces.flatMap Piece.chars)
  | .blank => ['\n']
  | .opening pieces => written depth (pieces.flatMap Piece.chars ++ [' ', '\x7b'])
  | .closing => written (depth - 1) ['\x7d']

/-- This function writes lines one after the other. -/
def printFrom : Nat → List Line → List Char
  | _, [] => []
  | depth, line :: lines => line.print depth ++ printFrom (line.depthAfter depth) lines

/-- This function writes lines as a source text. -/
def print (lines : List Line) : String :=
  String.ofList (printFrom 0 lines)

end ContractWorks.Source

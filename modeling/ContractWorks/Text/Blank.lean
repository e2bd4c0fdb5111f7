namespace ContractWorks.Text

/-- This test holds of the characters with the White_Space property. -/
def isBlank (character : Char) : Bool :=
  let code := character.toNat
  (0x09 ≤ code && code ≤ 0x0D) || code == 0x20 || code == 0x85 || code == 0xA0 ||
    code == 0x1680 || (0x2000 ≤ code && code ≤ 0x200A) || code == 0x2028 || code == 0x2029 ||
    code == 0x202F || code == 0x205F || code == 0x3000

/-- Every blank character of ASCII is blank here too. -/
theorem isBlank_of_isWhitespace {character : Char} (blank : character.isWhitespace = true) :
    isBlank character = true := by
  simp only [Char.isWhitespace, Bool.or_eq_true, decide_eq_true_eq] at blank
  rcases blank with ((rfl | rfl) | rfl) | rfl <;> decide

/-- This function drops the blank characters at the start. -/
def dropBlanks (characters : List Char) : List Char :=
  characters.dropWhile isBlank

/-- This function drops the blank characters at the end. -/
def dropTrailingBlanks (characters : List Char) : List Char :=
  (characters.reverse.dropWhile isBlank).reverse

/-- This function removes the blank characters around a text. -/
def trim (text : String) : String :=
  String.ofList (dropTrailingBlanks (dropBlanks text.toList))

/-- This function removes the blank characters at the end of a text. -/
def trimEnd (text : String) : String :=
  String.ofList (dropTrailingBlanks text.toList)

/-- A text is blank when it holds blank characters only. -/
def allBlank (text : String) : Bool :=
  text.toList.all isBlank

/-- This function removes one carriage return at the end of a line. -/
def dropReturn (line : List Char) : List Char :=
  if line.getLast? = some '\r' then line.dropLast else line

/-- This function splits at line feeds; what follows the last one is a line only if it is not empty. -/
def splitLines : List Char → List (List Char)
  | [] => []
  | character :: rest =>
    if character = '\n' then [] :: splitLines rest
    else
      match splitLines rest with
      | [] => [[character]]
      | line :: lines => (character :: line) :: lines

/-- This function gives the lines of a text without their line ends. -/
def lines (text : String) : List String :=
  (splitLines text.toList).map fun line => String.ofList (dropReturn line)

end ContractWorks.Text

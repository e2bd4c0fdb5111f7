namespace ContractWorks

/-- A step leads from a setting to its member of a name, or to its item at an index. A negative index counts
from the end. -/
inductive SettingStep where
  | name (key : String)
  | item (index : Int)
  deriving DecidableEq, Repr

namespace SettingStep

/-- This function gives the small letter of a character; the sign for kelvin has the same one as `K`. -/
def smallLetter (character : Char) : Char :=
  if character = '\u212A' then 'k' else character.toLower

/-- This function gives the form in which keys are compared, so that case does not matter. -/
def fold (key : String) : String :=
  String.ofList (key.toList.map smallLetter)

/-- This test holds of the characters of a name on a path. -/
def isNameChar (character : Char) : Bool :=
  character.isAlphanum || character = ' ' || character = '_' || character = '-'

/-- This test holds of the blanks that may stand around an index. -/
def isGap (character : Char) : Bool :=
  character = ' ' || character = '\t'

/-- This function gives the value of a row of decimal digits. -/
def valueOfDigits (digits : List Char) : Nat :=
  digits.foldl (fun value digit => value * 10 + (digit.toNat - 48)) 0

/-- This function reads a name. -/
def readName (characters : List Char) : Option (SettingStep × List Char) :=
  let name := characters.takeWhile isNameChar
  if name.isEmpty then none else some (.name (.ofList name), characters.drop name.length)

/-- This function reads the digits of an index and the bracket after it; the index has to fit 64 bits. -/
def readSize (negative : Bool) (characters : List Char) : Option (SettingStep × List Char) :=
  let digits := characters.takeWhile Char.isDigit
  let size := valueOfDigits digits
  match (characters.drop digits.length).dropWhile isGap with
  | ']' :: rest =>
    if digits.isEmpty then none
    else if negative then if size ≤ 0x8000000000000000 then some (.item (-size), rest) else none
    else if size < 0x8000000000000000 then some (.item size, rest) else none
  | _ => none

/-- This function reads an index, after the bracket before it. -/
def readIndex (characters : List Char) : Option (SettingStep × List Char) :=
  match characters.dropWhile isGap with
  | '-' :: digits => readSize true digits
  | digits => readSize false digits

/-- This function reads the steps after the first: a point and a name, or an index in brackets. -/
def readRest : Nat → List Char → Option (List SettingStep)
  | _, [] => some []
  | fuel + 1, '.' :: rest => do
    let (step, rest) ← readName rest
    return step :: (← readRest fuel rest)
  | fuel + 1, '[' :: rest => do
    let (step, rest) ← readIndex rest
    return step :: (← readRest fuel rest)
  | _, _ => none

/-- This function reads a key as a path of steps; a key that is no path is one name. -/
def ofKey (key : String) : List SettingStep :=
  let steps := do
    let (step, rest) ← readName key.toList
    return step :: (← readRest rest.length rest)
  steps.getD [.name key]

end SettingStep

end ContractWorks

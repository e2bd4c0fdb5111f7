import ContractWorks.Settings.Tree
import ContractWorks.Text.Search

namespace ContractWorks.SettingTree

/-- This function reads a row of digits, perhaps with a sign; the number has to fit 64 bits with a sign. -/
def readWhole (characters : List Char) : Option Int :=
  let (negative, digits) :=
    match characters with
    | '-' :: digits => (true, digits)
    | '+' :: digits => (false, digits)
    | digits => (false, digits)
  if digits.isEmpty || !digits.all Char.isDigit then none
  else
    let size : Int := digits.foldl (fun value digit => value * 10 + (digit.toNat - 48 : Nat)) 0
    let value := if negative then -size else size
    if -0x8000000000000000 ≤ value ∧ value < 0x8000000000000000 then some value else none

/-- This function gives the values of digits. -/
def digitValues (digits : List Char) : List Nat :=
  digits.map fun digit => digit.toNat - 48

/-- This function reads an exponent of ten, or nothing. -/
def readPower : List Char → Option Int
  | [] => some 0
  | mark :: rest =>
    let (negative, digits) :=
      match rest with
      | '-' :: digits => (true, digits)
      | '+' :: digits => (false, digits)
      | digits => (false, digits)
    if mark.toLower ≠ 'e' || digits.isEmpty || !digits.all Char.isDigit then none
    else
      let size : Int := digits.foldl (fun value digit => value * 10 + (digit.toNat - 48 : Nat)) 0
      some (if negative then -size else size)

/-- This function reads digits with at most one point among them and perhaps an exponent. -/
def readDecimal (negative : Bool) (characters : List Char) : Option Quantity :=
  let before := characters.takeWhile Char.isDigit
  let (after, rest) :=
    match characters.drop before.length with
    | '.' :: rest => (rest.takeWhile Char.isDigit, rest.dropWhile Char.isDigit)
    | rest => ([], rest)
  if before.isEmpty && after.isEmpty then none
  else
    (readPower rest).map fun power =>
      .ofDecimal negative (digitValues (before ++ after)) (power - after.length)

/-- This function reads a quantity in digits or by name. -/
def readQuantity (characters : List Char) : Option Quantity :=
  let (negative, size) :=
    match characters with
    | '-' :: size => (true, size)
    | '+' :: size => (false, size)
    | size => (false, size)
  match String.ofList (size.map Char.toLower) with
  | "inf" => some (.infinite negative)
  | "infinity" => some (.infinite negative)
  | "nan" => some .undefined
  | _ => readDecimal negative size

/-- This function reads the value of a variable: a truth value, a whole number, a quantity, or else text. -/
def ofVariable (value : String) : SettingTree :=
  match value.toLower with
  | "true" => .truth true
  | "false" => .truth false
  | _ =>
    match readWhole value.toList with
    | some number => .whole number
    | none =>
      match readQuantity value.toList with
      | some found => .quantity found
      | none => .text value

/-- This function replaces two underscores by a point. -/
def pointed : List Char → List Char
  | '_' :: '_' :: rest => '.' :: pointed rest
  | character :: rest => character :: pointed rest
  | [] => []

/-- Variables that hold settings begin with this text, in any case. -/
def variableStart : String := "forge_"

/-- This function gives the key that a variable sets, if it sets one. -/
def variableKey (name : String) : Option String :=
  let lower := SettingStep.fold name
  if Text.startsWith lower variableStart then
    some (String.ofList (pointed (lower.toList.drop variableStart.length)))
  else none

/-- This function lays the variables of an environment over a tree. -/
def withEnvironment (root : SettingTree) (environment : List (String × String)) : SettingTree :=
  root.overlay (environment.filterMap fun entry =>
    (variableKey entry.1).map fun key => (key, ofVariable entry.2))

end ContractWorks.SettingTree

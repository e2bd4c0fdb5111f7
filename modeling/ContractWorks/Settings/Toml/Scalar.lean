import ContractWorks.Settings.Tree
import ContractWorks.Text.Hex
import ContractWorks.Time.Date

namespace ContractWorks.Toml

/-- This function reads digits; an underscore may stand between two of them. -/
def readDigits (isDigit : Char → Bool) : List Char → List Char × List Char
  | '_' :: digit :: rest =>
    if isDigit digit then
      let (digits, rest) := readDigits isDigit rest
      (digit :: digits, rest)
    else ([], '_' :: digit :: rest)
  | digit :: rest =>
    if isDigit digit then
      let (digits, rest) := readDigits isDigit rest
      (digit :: digits, rest)
    else ([], digit :: rest)
  | [] => ([], [])

/-- This function reads at least one digit, and no underscore before the first. -/
def readSomeDigits (isDigit : Char → Bool) (characters : List Char) :
    Option (List Char × List Char) :=
  match characters with
  | first :: _ => if isDigit first then some (readDigits isDigit characters) else none
  | [] => none

/-- This function reads a sign, if there is one. -/
def readSign : List Char → Bool × List Char
  | '-' :: rest => (true, rest)
  | '+' :: rest => (false, rest)
  | rest => (false, rest)

/-- This function reads the digits before a point; a zero stands alone. -/
def readWholePart : List Char → Option (List Char × List Char)
  | '0' :: rest => some (['0'], rest)
  | characters => readSomeDigits Char.isDigit characters

/-- This function reads an exponent. -/
def readExponent : List Char → Option (Int × List Char)
  | mark :: rest => do
    let (negative, rest) := readSign rest
    let (digits, rest) ← readSomeDigits Char.isDigit rest
    let size : Int := SettingStep.valueOfDigits digits
    if mark = 'e' ∨ mark = 'E' then some (if negative then -size else size, rest) else none
  | [] => none

/-- This function reads digits after a point. -/
def readFraction : List Char → Option (List Char × List Char)
  | '.' :: rest => readSomeDigits Char.isDigit rest
  | _ => none

/-- This function makes a number of digits; only a negative one may be too large to be held. -/
def ofDigits (negative : Bool) (digits : List Char) (power : Int) : Option SettingTree :=
  match Quantity.ofDecimal negative (digits.map fun digit => digit.toNat - 48) power with
  | .infinite false => none
  | quantity => some (.quantity quantity)

/-- This function reads a number with a fraction or an exponent, or one that has a name. -/
def readQuantity (characters : List Char) : Option (SettingTree × List Char) :=
  let (negative, rest) := readSign characters
  match rest with
  | 'i' :: 'n' :: 'f' :: rest => some (.quantity (.infinite negative), rest)
  | 'n' :: 'a' :: 'n' :: rest => some (.quantity .undefined, rest)
  | _ => do
    let (digits, rest) ← readWholePart rest
    match readFraction rest with
    | some (fraction, rest) =>
      let (power, rest) := (readExponent rest).getD (0, rest)
      (ofDigits negative (digits ++ fraction) (power - fraction.length)).map fun tree => (tree, rest)
    | none =>
      let (power, rest) ← readExponent rest
      (ofDigits negative digits power).map fun tree => (tree, rest)

/-- This function makes a whole number, which has to fit 64 bits with a sign. -/
def ofWhole (value : Int) : Option SettingTree :=
  if -0x8000000000000000 ≤ value ∧ value < 0x8000000000000000 then some (.whole value) else none

/-- This function reads a whole number in a base other than ten. -/
def readInBase (base : Nat) (characters : List Char) : Option (SettingTree × List Char) := do
  let digitValue := fun (digit : Char) => (Text.Hex.value? digit.toNat).getD base
  let (digits, rest) ← readSomeDigits (fun digit => digitValue digit < base) characters
  let value := digits.foldl (fun value digit => value * base + digitValue digit) 0
  (ofWhole value).map fun tree => (tree, rest)

/-- This function reads a whole number. -/
def readWhole (characters : List Char) : Option (SettingTree × List Char) :=
  match characters with
  | '0' :: 'x' :: rest => readInBase 16 rest
  | '0' :: 'o' :: rest => readInBase 8 rest
  | '0' :: 'b' :: rest => readInBase 2 rest
  | _ => do
    let (negative, rest) := readSign characters
    let (digits, rest) ← readWholePart rest
    let size : Int := SettingStep.valueOfDigits digits
    (ofWhole (if negative then -size else size)).map fun tree => (tree, rest)

/-- This function reads a fixed number of digits, whose value lies between two bounds. -/
def readField (count low high : Nat) (characters : List Char) : Option (List Char × List Char) :=
  let digits := (characters.take count).takeWhile Char.isDigit
  let value := SettingStep.valueOfDigits digits
  if digits.length = count ∧ low ≤ value ∧ value ≤ high then
    some (digits, characters.drop count)
  else none

/-- This function passes one given character. -/
def dropMark (mark : Char) : List Char → Option (List Char)
  | first :: rest => if first = mark then some rest else none
  | [] => none

/-- This function reads a date, which has to be on the calendar. -/
def readDate (characters : List Char) : Option (List Char × List Char) := do
  let (year, rest) ← readField 4 0 9999 characters
  let rest ← dropMark '-' rest
  let (month, rest) ← readField 2 1 12 rest
  let rest ← dropMark '-' rest
  let lastDay := Time.daysIn (SettingStep.valueOfDigits year) (SettingStep.valueOfDigits month)
  let (day, rest) ← readField 2 1 lastDay rest
  some (year ++ '-' :: month ++ '-' :: day, rest)

/-- This function reads hours and minutes. -/
def readClock (characters : List Char) : Option (List Char × List Char) := do
  let (hour, rest) ← readField 2 0 23 characters
  let rest ← dropMark ':' rest
  let (minute, rest) ← readField 2 0 59 rest
  some (hour ++ ':' :: minute, rest)

/-- This function keeps nine digits of the fraction of a second and leaves out zeros at their end. -/
def shortFraction (digits : List Char) : List Char :=
  match ((digits.take 9).reverse.dropWhile (· = '0')).reverse with
  | [] => []
  | digits => '.' :: digits

/-- This function reads a time of day. -/
def readTime (characters : List Char) : Option (List Char × List Char) := do
  let (clock, rest) ← readClock characters
  let rest ← dropMark ':' rest
  let (second, rest) ← readField 2 0 60 rest
  let time := clock ++ ':' :: second
  match rest with
  | '.' :: rest =>
    let digits := rest.takeWhile Char.isDigit
    if digits.isEmpty then none
    else some (time ++ shortFraction digits, rest.drop digits.length)
  | _ => some (time, rest)

/-- This function reads an offset from universal time; no offset at all has a plus sign. -/
def readOffset : List Char → Option (List Char × List Char)
  | 'Z' :: rest => some (['Z'], rest)
  | 'z' :: rest => some (['Z'], rest)
  | sign :: rest =>
    if sign = '+' ∨ sign = '-' then
      (readClock rest).map fun (clock, rest) =>
        if clock = ['0', '0', ':', '0', '0'] then ('+' :: clock, rest) else (sign :: clock, rest)
    else none
  | [] => none

/-- This function reads what stands between a date and a time. -/
def dropSeparator : List Char → Option (List Char)
  | first :: rest => if first = 'T' ∨ first = 't' ∨ first = ' ' then some rest else none
  | [] => none

/-- This function reads a date with a time of day and an offset, as far as they are there. -/
def readDateTime (characters : List Char) : Option (List Char × List Char) := do
  let (date, rest) ← readDate characters
  match (dropSeparator rest).bind readTime with
  | none => some (date, rest)
  | some (time, rest) =>
    let (offset, rest) := (readOffset rest).getD ([], rest)
    some (date ++ 'T' :: time ++ offset, rest)

/-- This function reads a date or a time of day as the text that it has in its usual form. -/
def readMoment (characters : List Char) : Option (SettingTree × List Char) :=
  ((readDateTime characters).or (readTime characters)).map fun (written, rest) =>
    (.text (.ofList written), rest)

end ContractWorks.Toml

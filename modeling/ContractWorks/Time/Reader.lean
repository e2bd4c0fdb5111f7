import ContractWorks.Text.Blank
import ContractWorks.Time.Instant

namespace ContractWorks.Time

/-- This type gives the reasons why a text is no instant. -/
inductive Fault where
  | tooShort
  | invalid
  | outOfRange
  | impossible
  | trailing
  deriving DecidableEq, Repr

/-- This function words a fault. -/
def Fault.message : Fault → String
  | .tooShort => "premature end of input"
  | .invalid => "input contains invalid characters"
  | .outOfRange => "input is out of range"
  | .impossible => "no possible date and time matching input"
  | .trailing => "trailing input"

/-- A scan reads a part of a text and gives what follows it. -/
abbrev Scan (α : Type) := List Char → Except Fault (α × List Char)

/-- This function reads a number of one or more digits, at most `width` of them when that is given. -/
def scanNumber (width : Option Nat) : Scan Nat := fun characters =>
  let window := match width with
    | some width => characters.take width
    | none => characters
  let digits := window.takeWhile Char.isDigit
  let value := digits.foldl (fun value digit => value * 10 + (digit.toNat - 48)) 0
  match characters, digits with
  | [], _ => .error .tooShort
  | _, [] => .error .invalid
  | _, _ =>
    if value < 0x8000000000000000 then .ok (value, characters.drop digits.length) else .error .outOfRange

/-- This function reads a number of one or two digits between two bounds, after blanks. -/
def scanBetween (low high : Nat) : Scan Nat := fun characters => do
  let (value, rest) ← scanNumber (some 2) (Text.dropBlanks characters)
  if low ≤ value ∧ value ≤ high then return (value, rest) else throw .outOfRange

/-- This function reads a year of up to four digits, or of any number of digits after a sign. -/
def scanYear : Scan Int := fun characters => do
  let (year, rest) ← match Text.dropBlanks characters with
    | '-' :: rest => do
      let (value, rest) ← scanNumber none rest
      pure (-(value : Int), rest)
    | '+' :: rest => do
      let (value, rest) ← scanNumber none rest
      pure ((value : Int), rest)
    | rest => do
      let (value, rest) ← scanNumber (some 4) rest
      pure ((value : Int), rest)
  if -0x80000000 ≤ year ∧ year < 0x80000000 then return (year, rest) else throw .outOfRange

/-- This function passes one given character after blanks. -/
def scanMark (mark : Char) : Scan Unit := fun characters =>
  match Text.dropBlanks characters with
  | [] => .error .tooShort
  | character :: rest => if character = mark then .ok ((), rest) else .error .invalid

/-- This function reads the fraction of a second, if there is one; digits after the ninth do not count. -/
def scanFraction : Scan Nat := fun characters =>
  match characters with
  | '.' :: rest => do
    let (value, left) ← scanNumber (some 9) rest
    let count := rest.length - left.length
    return (value * Nat.pow 10 (9 - count), left.dropWhile Char.isDigit)
  | _ => .ok (0, characters)

/-- This function passes what stands between the date and the time. -/
def scanSeparator : Scan Unit := fun characters =>
  match characters with
  | [] => .error .tooShort
  | character :: rest =>
    if character = 'T' ∨ character = 't' ∨ character = ' ' then .ok ((), rest) else .error .invalid

/-- This function reads two digits, the first at most `top` for a value in range. -/
def scanPair (top : Char) : Scan Nat := fun characters =>
  match characters with
  | [] => .error .tooShort
  | [single] => if single.utf8Size < 2 then .error .tooShort else .error .invalid
  | first :: second :: rest =>
    if first.isDigit ∧ second.isDigit then
      if first ≤ top then .ok ((first.toNat - 48) * 10 + (second.toNat - 48), rest)
      else .error .outOfRange
    else .error .invalid

/-- This function reads the hours and minutes of an offset as minutes. -/
def scanOffsetSize : Scan Nat := fun characters => do
  let (hours, rest) ← scanPair '9' characters
  let (minutes, rest) ← scanPair '5'
    (rest.dropWhile fun character => character == ':' || Text.isBlank character)
  return (hours * 60 + minutes, rest)

/-- This function reads an offset from universal time in minutes. -/
def scanOffset : Scan Int := fun characters =>
  match Text.dropBlanks characters with
  | [] => .error .tooShort
  | 'Z' :: rest => .ok (0, rest)
  | 'z' :: rest => .ok (0, rest)
  | '+' :: rest => do
    let (minutes, rest) ← scanOffsetSize rest
    return ((minutes : Int), rest)
  | first :: rest =>
    if first = '-' ∨ first = '\u2212' then do
      let (minutes, rest) ← scanOffsetSize rest
      return (-(minutes : Int), rest)
    else
      match first.toUpper, rest.take 2 |>.map Char.toUpper with
      | 'U', ['T', 'C'] => .ok (0, rest.drop 2)
      | _, _ => .error .invalid

/-- This function moves a local time of day to universal time by an offset of less than a day. -/
def shift (date : Date) (minuteOfDay : Nat) (offset : Int) : Option (Date × Nat) :=
  let moved : Int := minuteOfDay - offset
  if moved < 0 then date.previous?.map fun day => (day, (moved + 1440).toNat)
  else if 1440 ≤ moved then date.next?.map fun day => (day, (moved - 1440).toNat)
  else some (date, moved.toNat)

/-- This function makes an instant of a date, a minute of the day, a second and its fraction. A sixtieth
second is the leap second after the last one. -/
def Instant.assemble? (date : Date) (minuteOfDay second nano : Nat) : Option Instant :=
  let (second, nano) := if second = 60 then (59, nano + nanosPerSecond) else (second, nano)
  if hour : minuteOfDay / 60 < 24 then
    if inMinute : second < 60 then
      if nanoInRange : nano < (if second = 59 then 2 * nanosPerSecond else nanosPerSecond) then
        some ⟨date, ⟨minuteOfDay / 60, hour⟩, ⟨minuteOfDay % 60, Nat.mod_lt _ (by decide)⟩,
          ⟨second, inMinute⟩, nano, nanoInRange⟩
      else none
    else none
  else none

/-- This function reads a date and time with an offset. A day that does not exist is out of range, and a moment
whose universal time has no date is impossible. -/
def Instant.read (text : String) : Except Fault Instant := do
  let (year, rest) ← scanYear text.toList
  let ((), rest) ← scanMark '-' rest
  let (month, rest) ← scanBetween 1 12 rest
  let ((), rest) ← scanMark '-' rest
  let (day, rest) ← scanBetween 1 31 rest
  let ((), rest) ← scanSeparator rest
  let (hour, rest) ← scanBetween 0 23 rest
  let ((), rest) ← scanMark ':' rest
  let (minute, rest) ← scanBetween 0 59 rest
  let ((), rest) ← scanMark ':' rest
  let (second, rest) ← scanBetween 0 60 rest
  let (nano, rest) ← scanFraction rest
  let (offset, rest) ← scanOffset rest
  if !(Text.dropBlanks rest).isEmpty then throw .trailing
  match Date.ofParts? year month day with
  | none => throw .outOfRange
  | some date =>
    if 1440 ≤ offset.natAbs then throw .outOfRange
    else
      match shift date (hour * 60 + minute) offset with
      | none => throw .impossible
      | some (date, minuteOfDay) =>
        match Instant.assemble? date minuteOfDay second nano with
        | some instant => return instant
        | none => throw .outOfRange

end ContractWorks.Time

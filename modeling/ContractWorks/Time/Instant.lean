import ContractWorks.Time.Date

namespace ContractWorks.Time

/-- This bound is the number of nanoseconds in a second. -/
def nanosPerSecond : Nat := 1000000000

/-- An instant is a moment in universal time. A leap second counts as nanoseconds beyond the last second of
a minute. -/
structure Instant where
  date : Date
  hour : Fin 24
  minute : Fin 60
  second : Fin 60
  nano : Nat
  nanoInRange : nano < (if second.val = 59 then 2 * nanosPerSecond else nanosPerSecond)
  deriving DecidableEq, Repr

namespace Instant

/-- This number orders instants. -/
def order (instant : Instant) : Int :=
  let day : Int := (instant.date.year * 12 + (instant.date.month - 1 : Nat)) * 31 +
    (instant.date.day - 1 : Nat)
  let second : Nat := (instant.hour.val * 60 + instant.minute.val) * 60 + instant.second.val
  (day * 86400 + second) * (2 * nanosPerSecond : Nat) + instant.nano

/-- This function gives the start of a day. -/
def ofDate (date : Date) : Instant :=
  ⟨date, 0, 0, 0, 0, by decide⟩

/-- This function gives the instant one minute later, at the same second. -/
def nextMinute (instant : Instant) : Instant :=
  if minute : instant.minute.val + 1 < 60 then
    { instant with minute := ⟨instant.minute.val + 1, minute⟩ }
  else if hour : instant.hour.val + 1 < 24 then
    { instant with hour := ⟨instant.hour.val + 1, hour⟩, minute := 0 }
  else { instant with date := instant.date.next?.getD instant.date, hour := 0, minute := 0 }

/-- This function gives an instant one second later. -/
def nextSecond (instant : Instant) : Instant :=
  if second : instant.second.val + 1 < 60 then
    ⟨instant.date, instant.hour, instant.minute, ⟨instant.second.val + 1, second⟩, 0, by
      split <;> decide⟩
  else
    let later := instant.nextMinute
    ⟨later.date, later.hour, later.minute, 0, 0, by decide⟩

/-- This function writes a number with at least a given count of digits. -/
def padded (width value : Nat) : List Char :=
  let digits := Nat.toDigits 10 value
  List.replicate (width - digits.length) '0' ++ digits

/-- This function writes a year with four digits, and with a sign when it has none or more of them. -/
def yearChars (year : Int) : List Char :=
  if 0 ≤ year ∧ year ≤ 9999 then padded 4 year.toNat
  else (if year < 0 then '-' else '+') :: padded 4 year.natAbs

/-- This function writes a fraction of a second with none, three, six or nine digits. -/
def fractionChars (nano : Nat) : List Char :=
  if nano = 0 then []
  else if nano % 1000000 = 0 then '.' :: padded 3 (nano / 1000000)
  else if nano % 1000 = 0 then '.' :: padded 6 (nano / 1000)
  else '.' :: padded 9 nano

/-- This function writes an instant in universal time. -/
def text (instant : Instant) : String :=
  let second := instant.second.val + instant.nano / nanosPerSecond
  String.ofList (yearChars instant.date.year ++ ['-'] ++ padded 2 instant.date.month ++ ['-'] ++
    padded 2 instant.date.day ++ ['T'] ++ padded 2 instant.hour.val ++ [':'] ++
    padded 2 instant.minute.val ++ [':'] ++ padded 2 second ++
    fractionChars (instant.nano % nanosPerSecond) ++ ['Z'])

end Instant

end ContractWorks.Time

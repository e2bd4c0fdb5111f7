namespace ContractWorks.Time

/-- This rule says which years have a 29th of February. -/
def isLeapYear (year : Int) : Bool :=
  year % 4 = 0 && (year % 100 != 0 || year % 400 = 0)

/-- This function counts the days of a month. -/
def daysIn (year : Int) (month : Nat) : Nat :=
  if month = 2 then (if isLeapYear year then 29 else 28)
  else if month = 4 ∨ month = 6 ∨ month = 9 ∨ month = 11 then 30
  else 31

/-- A date is a day of the calendar within the years that can be held. -/
structure Date where
  year : Int
  month : Nat
  day : Nat
  yearInRange : -262143 ≤ year ∧ year ≤ 262142
  monthInRange : 1 ≤ month ∧ month ≤ 12
  dayInRange : 1 ≤ day ∧ day ≤ daysIn year month
  deriving DecidableEq, Repr

namespace Date

/-- This function makes a date if there is such a day. -/
def ofParts? (year : Int) (month day : Nat) : Option Date :=
  if yearInRange : -262143 ≤ year ∧ year ≤ 262142 then
    if monthInRange : 1 ≤ month ∧ month ≤ 12 then
      if dayInRange : 1 ≤ day ∧ day ≤ daysIn year month then
        some ⟨year, month, day, yearInRange, monthInRange, dayInRange⟩
      else none
    else none
  else none

/-- A date comes back from its parts. -/
theorem ofParts?_parts (date : Date) : ofParts? date.year date.month date.day = some date := by
  simp only [ofParts?, date.yearInRange, date.monthInRange, date.dayInRange, and_self, dite_true]

/-- This function gives the day after a date. -/
def next? (date : Date) : Option Date :=
  if date.day < daysIn date.year date.month then ofParts? date.year date.month (date.day + 1)
  else if date.month < 12 then ofParts? date.year (date.month + 1) 1
  else ofParts? (date.year + 1) 1 1

/-- This function gives the day before a date. -/
def previous? (date : Date) : Option Date :=
  if 1 < date.day then ofParts? date.year date.month (date.day - 1)
  else if 1 < date.month then ofParts? date.year (date.month - 1) (daysIn date.year (date.month - 1))
  else ofParts? (date.year - 1) 12 31

end Date

end ContractWorks.Time

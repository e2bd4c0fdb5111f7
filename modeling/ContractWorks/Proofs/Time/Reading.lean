import ContractWorks.Proofs.Text.Digits
import ContractWorks.Time.Reader

namespace ContractWorks.Time

open Text.Digits

/-- No digit is blank. -/
theorem isBlank_of_isDigit {character : Char} (digit : character.isDigit = true) :
    Text.isBlank character = false := by
  simp only [Char.isDigit, Bool.and_eq_true, decide_eq_true_eq, ge_iff_le, UInt32.le_iff_toNat_le]
    at digit
  have low : 48 ≤ character.toNat := digit.1
  have high : character.toNat ≤ 57 := digit.2
  simp only [Text.isBlank, Bool.or_eq_false_iff, Bool.and_eq_false_iff, beq_eq_false_iff_ne,
    decide_eq_false_iff_not]
  omega

theorem dropBlanks_cons {character : Char} (rest : List Char)
    (visible : Text.isBlank character = false) :
    Text.dropBlanks (character :: rest) = character :: rest := by
  simp [Text.dropBlanks, visible]

/-- Digits stand first in a text that starts with them. -/
theorem dropBlanks_digits {digits : List Char} (rest : List Char) (some : digits ≠ [])
    (all : ∀ digit ∈ digits, digit.isDigit = true) :
    Text.dropBlanks (digits ++ rest) = digits ++ rest := by
  cases digits with
  | nil => exact absurd rfl some
  | cons digit digits => exact dropBlanks_cons _ (isBlank_of_isDigit (all digit (by simp)))

/-- The window of a number shows its digits and then nothing, or what stops them. -/
theorem takeWhile_isDigit_window {bound : Nat} {digits rest : List Char}
    (all : ∀ digit ∈ digits, digit.isDigit = true) (fits : digits.length ≤ bound)
    (stop : digits.length = bound ∨ ∀ character ∈ rest.head?, character.isDigit = false) :
    ((digits ++ rest).take bound).takeWhile Char.isDigit = digits := by
  rw [List.take_append, List.take_of_length_le fits]
  apply takeWhile_isDigit_append all
  intro character head
  rw [List.head?_take] at head
  split at head
  · simp at head
  · rcases stop with full | stop
    · omega
    · exact stop character head

theorem scanNumber_of_window {width : Option Nat} {digits rest : List Char} (nonempty : digits ≠ [])
    (small : value digits < 0x8000000000000000)
    (window : (match width with
      | some width => (digits ++ rest).take width
      | none => digits ++ rest).takeWhile Char.isDigit = digits) :
    scanNumber width (digits ++ rest) = .ok (value digits, rest) := by
  obtain ⟨first, others, rfl⟩ := List.exists_cons_of_ne_nil nonempty
  cases width <;>
  · simp only [scanNumber, window]
    change (if value (first :: others) < 0x8000000000000000 then _ else _) = _
    rw [if_pos small, List.drop_left]
    rfl

/-- A number of bounded width is read to its last digit, which the width or the next character marks. -/
theorem scanNumber_bounded {bound : Nat} {digits : List Char} (rest : List Char) (nonempty : digits ≠ [])
    (all : ∀ digit ∈ digits, digit.isDigit = true) (small : value digits < 0x8000000000000000)
    (fits : digits.length ≤ bound)
    (stop : digits.length = bound ∨ ∀ character ∈ rest.head?, character.isDigit = false) :
    scanNumber (some bound) (digits ++ rest) = .ok (value digits, rest) :=
  scanNumber_of_window nonempty small (takeWhile_isDigit_window all fits stop)

/-- A number of any width is read to its last digit. -/
theorem scanNumber_unbounded {digits : List Char} (rest : List Char) (nonempty : digits ≠ [])
    (all : ∀ digit ∈ digits, digit.isDigit = true) (small : value digits < 0x8000000000000000)
    (stop : ∀ character ∈ rest.head?, character.isDigit = false) :
    scanNumber none (digits ++ rest) = .ok (value digits, rest) :=
  scanNumber_of_window nonempty small (takeWhile_isDigit_append all stop)

theorem scanBetween_padded {low high number : Nat} (rest : List Char) (atLeast : low ≤ number)
    (atMost : number ≤ high) (small : number < 100) :
    scanBetween low high (Instant.padded 2 number ++ rest) = .ok (number, rest) := by
  have length : (Instant.padded 2 number).length = 2 := length_padded (by decide) small
  have read : scanNumber (some 2) (Instant.padded 2 number ++ rest) = .ok (number, rest) := by
    have digits := scanNumber_bounded rest (padded_ne_nil 2 number)
      (fun _ member => isDigit_of_mem_padded member) (by rw [value_padded]; omega)
      (Nat.le_of_eq length) (.inl length)
    rwa [value_padded] at digits
  rw [scanBetween, dropBlanks_digits _ (padded_ne_nil 2 number)
    (fun _ member => isDigit_of_mem_padded member), read]
  simp [bind, Except.bind, pure, Except.pure, atLeast, atMost]

theorem scanMark_self {mark : Char} (rest : List Char) (visible : Text.isBlank mark = false) :
    scanMark mark (mark :: rest) = .ok ((), rest) := by
  simp [scanMark, dropBlanks_cons rest visible]

/-- A signed year of any number of digits is read up to the mark behind it. -/
theorem scanNumber_yearDigits {year : Nat} (rest : List Char) (small : year < 0x8000000000000000) :
    scanNumber none (Instant.padded 4 year ++ '-' :: rest) = .ok (year, '-' :: rest) := by
  have digits := scanNumber_unbounded ('-' :: rest) (padded_ne_nil 4 year)
    (fun _ member => isDigit_of_mem_padded member) (by rwa [value_padded]) (by simp)
  rwa [value_padded] at digits

/-- A year of four digits is read without a mark behind it. -/
theorem scanNumber_fourDigits {year : Nat} (rest : List Char) (small : year < 10000) :
    scanNumber (some 4) (Instant.padded 4 year ++ rest) = .ok (year, rest) := by
  have length : (Instant.padded 4 year).length = 4 := length_padded (by decide) small
  have digits := scanNumber_bounded rest (padded_ne_nil 4 year)
    (fun _ member => isDigit_of_mem_padded member) (by rw [value_padded]; omega)
    (Nat.le_of_eq length) (.inl length)
  rwa [value_padded] at digits

theorem inYearRange {year : Int} (small : year.natAbs < 2147483648) :
    -0x80000000 ≤ year ∧ year < 0x80000000 := by
  omega

/-- A text that starts with a digit starts with no sign. -/
theorem scanYear_of_digits {digits rest : List Char} {number : Nat} (nonempty : digits ≠ [])
    (all : ∀ digit ∈ digits, digit.isDigit = true)
    (read : scanNumber (some 4) (digits ++ rest) = pure (number, rest)) (small : number < 2147483648) :
    scanYear (digits ++ rest) = .ok ((number : Int), rest) := by
  obtain ⟨first, others, rfl⟩ := List.exists_cons_of_ne_nil nonempty
  have digit : first.isDigit = true := all first (by simp)
  rw [List.cons_append] at read ⊢
  rw [scanYear, dropBlanks_cons _ (isBlank_of_isDigit digit)]
  split
  · next sign => rw [(List.cons.inj sign).1] at digit; exact absurd digit (by decide)
  · next sign => rw [(List.cons.inj sign).1] at digit; exact absurd digit (by decide)
  · simp only [read, pure_bind]
    exact if_pos (inYearRange (by omega))

theorem scanYear_minus {rest behind : List Char} {number : Nat}
    (read : scanNumber none rest = pure (number, behind)) (small : number < 2147483648) :
    scanYear ('-' :: rest) = .ok (-(number : Int), behind) := by
  rw [scanYear, dropBlanks_cons _ (by decide)]
  simp only [read, pure_bind]
  exact if_pos (inYearRange (by omega))

theorem scanYear_plus {rest behind : List Char} {number : Nat}
    (read : scanNumber none rest = pure (number, behind)) (small : number < 2147483648) :
    scanYear ('+' :: rest) = .ok ((number : Int), behind) := by
  rw [scanYear, dropBlanks_cons _ (by decide)]
  simp only [read, pure_bind]
  exact if_pos (inYearRange (by omega))

theorem scanYear_yearChars {year : Int} (rest : List Char)
    (inRange : -262143 ≤ year ∧ year ≤ 262142) :
    scanYear (Instant.yearChars year ++ '-' :: rest) = .ok (year, '-' :: rest) := by
  unfold Instant.yearChars
  split
  · next plain =>
    have read := scanNumber_fourDigits ('-' :: rest) (show year.toNat < 10000 by omega)
    rw [scanYear_of_digits (padded_ne_nil 4 year.toNat) (fun _ member => isDigit_of_mem_padded member)
      read (by omega), Int.toNat_of_nonneg plain.1]
  · have read := scanNumber_yearDigits rest (show year.natAbs < 0x8000000000000000 by omega)
    split
    · next negative =>
      have magnitude : -(year.natAbs : Int) = year := by omega
      rw [List.cons_append, scanYear_minus read (by omega), magnitude]
    · next positive =>
      have magnitude : (year.natAbs : Int) = year := by omega
      rw [List.cons_append, scanYear_plus read (by omega), magnitude]

/-- A fraction of three, six or nine digits is read as nanoseconds. -/
theorem scanFraction_padded {width number : Nat} (rest : List Char) (positive : 0 < width)
    (short : width ≤ 9) (small : number < 10 ^ width) :
    scanFraction ('.' :: (Instant.padded width number ++ 'Z' :: rest)) =
      .ok (number * 10 ^ (9 - width), 'Z' :: rest) := by
  have length : (Instant.padded width number).length = width := length_padded positive small
  have limit : 10 ^ width ≤ 10 ^ 9 := Nat.pow_le_pow_right (by decide) short
  have read : scanNumber (some 9) (Instant.padded width number ++ 'Z' :: rest) =
      .ok (number, 'Z' :: rest) := by
    have digits : scanNumber (some 9) (Instant.padded width number ++ 'Z' :: rest) =
        .ok (value (Instant.padded width number), 'Z' :: rest) :=
      scanNumber_bounded ('Z' :: rest) (padded_ne_nil width number)
        (fun _ member => isDigit_of_mem_padded member) (by rw [value_padded]; omega)
        (by rw [length]; exact short) (.inr (by simp))
    rwa [value_padded] at digits
  have count : (Instant.padded width number ++ 'Z' :: rest).length - ('Z' :: rest).length = width := by
    simp [length]
  simp only [scanFraction, read, bind, Except.bind, pure, Except.pure, count]
  rfl

theorem scanFraction_fractionChars {nano : Nat} (rest : List Char) (small : nano < nanosPerSecond) :
    scanFraction (Instant.fractionChars nano ++ 'Z' :: rest) = .ok (nano, 'Z' :: rest) := by
  unfold nanosPerSecond at small
  unfold Instant.fractionChars
  split
  · next zero => subst zero; rfl
  · split
    · next millis =>
      rw [List.cons_append, scanFraction_padded rest (by decide) (by decide) (by omega)]
      congr 2
      omega
    · split
      · next micros =>
        rw [List.cons_append, scanFraction_padded rest (by decide) (by decide) (by omega)]
        congr 2
        omega
      · rw [List.cons_append, scanFraction_padded rest (by decide) (by decide) (by omega)]
        simp

/-- A leap second is written as the sixtieth and read back as nanoseconds beyond the last one. -/
theorem Instant.assemble?_parts (instant : Instant) :
    Instant.assemble? instant.date (instant.hour.val * 60 + instant.minute.val)
      (instant.second.val + instant.nano / nanosPerSecond) (instant.nano % nanosPerSecond) =
      some instant := by
  obtain ⟨date, hour, minute, second, nano, inRange⟩ := instant
  have hours : (hour.val * 60 + minute.val) / 60 = hour.val := by omega
  have minutes : (hour.val * 60 + minute.val) % 60 = minute.val := by omega
  have bound := second.isLt
  simp only [Instant.assemble?]
  by_cases leap : second.val = 59 ∧ nanosPerSecond ≤ nano
  · have whole : nano / nanosPerSecond = 1 := by
      simp only [nanosPerSecond, leap.1, if_true] at inRange leap ⊢; omega
    have left : nano % nanosPerSecond + nanosPerSecond = nano := by
      simp only [nanosPerSecond, leap.1, if_true] at inRange leap ⊢; omega
    have last : second = ⟨59, by decide⟩ := Fin.ext leap.1
    subst last
    simp only [if_true] at inRange
    simp [whole, left, hours, minutes, inRange]
  · have none : nano < nanosPerSecond := by
      by_cases last : second.val = 59
      · omega
      · simpa only [last, if_false] using inRange
    have zero : nano / nanosPerSecond = 0 := Nat.div_eq_of_lt none
    have same : nano % nanosPerSecond = nano := Nat.mod_eq_of_lt none
    have small : second.val ≠ 60 := by omega
    simp [zero, same, small, hours, minutes, inRange]

theorem daysIn_le (year : Int) (month : Nat) : daysIn year month ≤ 31 := by
  unfold daysIn
  split
  · split <;> omega
  · split <;> omega

theorem scanOffset_zone : scanOffset ['Z'] = .ok (0, []) := by
  rw [scanOffset, dropBlanks_cons _ (by decide)]
  rfl

/-- Every instant comes back from its text. -/
theorem Instant.read_text (instant : Instant) : Instant.read instant.text = .ok instant := by
  have month := instant.date.monthInRange
  have day := instant.date.dayInRange
  have days := daysIn_le instant.date.year instant.date.month
  have seconds : instant.second.val + instant.nano / nanosPerSecond ≤ 60 := by
    have inRange := instant.nanoInRange
    have bound := instant.second.isLt
    unfold nanosPerSecond at inRange ⊢
    split at inRange <;> omega
  have hour := instant.hour.isLt
  have minute := instant.minute.isLt
  have nano : instant.nano % nanosPerSecond < nanosPerSecond := Nat.mod_lt _ (by decide)
  have minuteOfDay : instant.hour.val * 60 + instant.minute.val < 1440 := by omega
  have dash : Text.isBlank '-' = false := by decide
  have colon : Text.isBlank ':' = false := by decide
  have shifted : shift instant.date (instant.hour.val * 60 + instant.minute.val) 0 =
      some (instant.date, instant.hour.val * 60 + instant.minute.val) := by
    simp only [shift, Int.sub_zero]
    rw [if_neg (by omega), if_neg (by omega), Int.toNat_natCast]
  simp only [Instant.read, Instant.text, String.toList_ofList, List.append_assoc,
    List.cons_append, List.nil_append, scanYear_yearChars _ instant.date.yearInRange,
    scanMark_self _ dash, scanMark_self _ colon, bind, Except.bind,
    scanBetween_padded _ month.1 month.2 (by omega),
    scanBetween_padded _ day.1 (show instant.date.day ≤ 31 by omega) (by omega),
    scanBetween_padded _ (Nat.zero_le _) (show instant.hour.val ≤ 23 by omega) (by omega),
    scanBetween_padded _ (Nat.zero_le _) (show instant.minute.val ≤ 59 by omega) (by omega),
    scanBetween_padded _ (Nat.zero_le _) seconds (by omega),
    scanSeparator, true_or, if_true, scanFraction_fractionChars _ nano]
  simp only [scanOffset_zone, Date.ofParts?_parts, Text.dropBlanks, List.dropWhile_nil,
    List.isEmpty_nil, Bool.not_true, Bool.false_eq_true, if_false, Int.natAbs_zero, shifted,
    Instant.assemble?_parts]
  rfl

/-- This instant stands in for the clock in runs with fixed inputs. -/
def Instant.sample : Instant :=
  { ofDate ⟨2024, 5, 17, by decide, by decide, by decide⟩ with
    hour := ⟨12, by decide⟩, minute := ⟨30, by decide⟩ }

end ContractWorks.Time

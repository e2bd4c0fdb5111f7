import ContractWorks.Json.Draft
import ContractWorks.Json.Printer
import ContractWorks.Proofs.Number.Shortest
import ContractWorks.Proofs.Text.Digits

namespace ContractWorks.Draft

section Number

open Text.Digits

/-- A value ends where a gap begins, where a container goes on or closes, or with the text. -/
def Stops (rest : List Char) : Prop :=
  ∀ character ∈ rest.head?,
    isGap character = true ∨ character = ',' ∨ character = ']' ∨ character = '\x7d'

theorem isGap_iff (character : Char) :
    isGap character = true ↔
      character = ' ' ∨ character = '\n' ∨ character = '\r' ∨ character = '\t' := by
  simp [isGap, or_assoc]

/-- What ends a value is no part of a number. -/
theorem Stops.head_ne {character : Char} {rest : List Char} (stops : Stops (character :: rest)) :
    character.isDigit = false ∧ character ≠ '.' ∧ character ≠ 'e' ∧ character ≠ 'E' := by
  have ended := stops character (by simp)
  rw [isGap_iff] at ended
  rcases ended with (rfl | rfl | rfl | rfl) | rfl | rfl | rfl <;> decide

/-- This function gives the values of a row of digits. -/
def digitValues (digits : List Char) : List Nat :=
  digits.map fun digit => digit.toNat - 48

theorem ofDigits_digitValues (digits : List Char) : ofDigits (digitValues digits) = value digits := by
  simp only [ofDigits, digitValues, value, List.foldl_map]

theorem readDigits_append {digits rest : List Char} (all : ∀ digit ∈ digits, digit.isDigit = true)
    (stop : ∀ character ∈ rest.head?, character.isDigit = false) :
    readDigits (digits ++ rest) = (digitValues digits, rest) := by
  rw [readDigits, takeWhile_isDigit_append all stop, dropWhile_isDigit_append all stop]
  rfl

theorem Stops.not_isDigit {rest : List Char} (stops : Stops rest) :
    ∀ character ∈ rest.head?, character.isDigit = false := by
  intro character head
  cases rest with
  | nil => simp at head
  | cons first others =>
    rw [List.head?_cons, Option.mem_some_iff] at head
    exact head ▸ stops.head_ne.1

/-- A number without fraction and exponent ends where its digits end. -/
theorem readRest_of_stops {negative : Bool} {digits : List Nat} {rest : List Char}
    (stops : Stops rest) : readRest negative digits rest = (wholeNumber negative digits, some rest) := by
  unfold readRest
  simp only
  split
  · exact absurd rfl stops.head_ne.2.1
  · exact absurd rfl stops.head_ne.2.2.1
  · exact absurd rfl stops.head_ne.2.2.2
  · rfl

/-- A number is read digit by digit up to what may follow its whole part; only zero itself starts with a zero. -/
theorem readNumber_append {negative : Bool} {digits rest : List Char} (nonempty : digits ≠ [])
    (all : ∀ digit ∈ digits, digit.isDigit = true)
    (leading : digits = ['0'] ∨ ∀ digit ∈ digits.head?, digit.toNat - 48 ≠ 0)
    (stop : ∀ character ∈ rest.head?, character.isDigit = false) :
    readNumber negative (digits ++ rest) = readRest negative (digitValues digits) rest := by
  rw [readNumber, readDigits_append all stop]
  obtain ⟨first, others, rfl⟩ := List.exists_cons_of_ne_nil nonempty
  rcases leading with zero | leading
  · obtain ⟨rfl, rfl⟩ := List.cons.inj zero
    rfl
  · have digit : first.toNat - 48 ≠ 0 := leading first (by simp)
    simp only [digitValues, List.map_cons]
    split
    · next none => simp at none
    · next single => exact absurd (List.cons.inj (Prod.mk.inj single).1).1 digit
    · next zero => exact absurd (List.cons.inj (Prod.mk.inj zero).1).1 digit
    · next digits rest _ _ same =>
      obtain ⟨rfl, rfl⟩ := Prod.mk.inj same
      rfl

/-- A number other than zero is written without a zero at the start. -/
theorem head_toDigits {number : Nat} (positive : 0 < number) :
    ∀ digit ∈ (Nat.toDigits 10 number).head?, digit.toNat - 48 ≠ 0 := by
  induction number using Nat.strongRecOn with
  | _ number inductionHypothesis =>
    intro digit head
    rw [Nat.toDigits_eq_if (by decide)] at head
    split at head
    · next small =>
      rw [List.head?_cons, Option.mem_some_iff] at head
      rw [← head, digitChar_toNat number small]
      omega
    · next large =>
      obtain ⟨first, others, shape⟩ := List.exists_cons_of_ne_nil
        (Nat.toDigits_ne_nil (n := number / 10) (b := 10))
      rw [shape, List.cons_append, List.head?_cons, Option.mem_some_iff] at head
      exact inductionHypothesis (number / 10) (by omega) (by omega) digit
        (by rw [shape, List.head?_cons, head, Option.mem_some_iff])

/-- The digits of a number start with a zero only for zero itself. -/
theorem leading_toDigits (number : Nat) :
    Nat.toDigits 10 number = ['0'] ∨ ∀ digit ∈ (Nat.toDigits 10 number).head?, digit.toNat - 48 ≠ 0 := by
  rcases Nat.eq_zero_or_pos number with zero | positive
  · subst zero
    exact .inl rfl
  · exact .inr (head_toDigits positive)

theorem readNumber_toDigits {negative : Bool} (number : Nat) {rest : List Char} (stops : Stops rest) :
    readNumber negative (Nat.toDigits 10 number ++ rest) =
      (wholeNumber negative (digitValues (Nat.toDigits 10 number)), some rest) := by
  rw [readNumber_append Nat.toDigits_ne_nil (fun _ member => isDigit_of_mem_toDigits number member)
    (leading_toDigits number) stops.not_isDigit, readRest_of_stops stops]

theorem wholeNumber_positive {number : Nat} (small : number ≤ maxWord) :
    wholeNumber false (digitValues (Nat.toDigits 10 number)) = .number (.whole number) := by
  simp only [wholeNumber, ofDigits_digitValues, value_toDigits]
  rw [if_neg (by decide), if_pos small]

theorem wholeNumber_negative {number : Nat} (positive : 0 < number) (small : number ≤ 0x8000000000000000) :
    wholeNumber true (digitValues (Nat.toDigits 10 number)) = .number (.whole (-(number : Int))) := by
  simp only [wholeNumber, ofDigits_digitValues, value_toDigits]
  rw [if_pos True.intro, if_pos ⟨positive, small⟩]

end Number

open Text.Digits

variable {negative : Bool} {rest : List Char}

theorem foldl_digits (digits : List Nat) : ∀ start : Nat,
    digits.foldl (fun value digit => value * 10 + digit) start = start * 10 ^ digits.length + ofDigits digits := by
  induction digits with
  | nil => simp [ofDigits]
  | cons digit digits inductionHypothesis =>
    intro start
    rw [ofDigits, List.foldl_cons, List.foldl_cons, inductionHypothesis, inductionHypothesis (0 * 10 + digit),
      List.length_cons, pow_succ]
    ring

/-- Digits that fit 64 bits are all taken. -/
theorem takeLeading_all (digits : List Nat) : ∀ {start : Nat},
    start * 10 ^ digits.length + ofDigits digits ≤ maxWord →
      takeLeading start digits = (start * 10 ^ digits.length + ofDigits digits, []) := by
  induction digits with
  | nil =>
    intro start _
    simp [takeLeading, ofDigits]
  | cons digit digits inductionHypothesis =>
    intro start fits
    have total : start * 10 ^ (digit :: digits).length + ofDigits (digit :: digits) =
        (start * 10 + digit) * 10 ^ digits.length + ofDigits digits := by
      rw [ofDigits, List.foldl_cons, foldl_digits, List.length_cons, pow_succ]
      ring
    rw [total] at fits ⊢
    have first : start * 10 + digit ≤ maxWord :=
      (Nat.le_mul_of_pos_right _ (Nat.pow_pos (by decide))).trans ((Nat.le_add_right _ _).trans fits)
    rw [takeLeading, if_pos first]
    exact inductionHypothesis fits

theorem takeLeading_zero {digits : List Nat} (fits : ofDigits digits ≤ maxWord) :
    takeLeading 0 digits = (ofDigits digits, []) := by
  have all := @takeLeading_all digits 0 (by simpa using fits)
  simpa using all

/-- These characters are the sign and the digits of a power of ten. -/
def powerChars (power : Int) : List Char :=
  (if power < 0 then '-' else '+') :: Nat.toDigits 10 power.natAbs

theorem readExponent_powerChars (power : Int) (stops : Stops rest) :
    readExponent (powerChars power ++ rest) = some (power, rest) := by
  have digits : readDigits (Nat.toDigits 10 power.natAbs ++ rest) =
      (digitValues (Nat.toDigits 10 power.natAbs), rest) :=
    readDigits_append (fun _ member => isDigit_of_mem_toDigits _ member) stops.not_isDigit
  have some : ∃ first others, digitValues (Nat.toDigits 10 power.natAbs) = first :: others := by
    refine List.exists_cons_of_ne_nil fun none => ?_
    exact Nat.toDigits_ne_nil (List.map_eq_nil_iff.mp none)
  have valued : ofDigits (digitValues (Nat.toDigits 10 power.natAbs)) = power.natAbs := by
    rw [ofDigits_digitValues, value_toDigits]
  obtain ⟨first, others, shape⟩ := some
  rw [shape] at digits valued
  rw [powerChars, List.cons_append]
  by_cases below : power < 0
  · rw [if_pos below]
    simp only [readExponent, digits, valued, if_true]
    congr 2
    omega
  · rw [if_neg below]
    simp only [readExponent, digits, valued, Bool.false_eq_true, if_false]
    congr 2
    omega

section Rest

variable {digits : List Nat} {places : List Char}

/-- Places behind the point are taken like the digits before it. -/
theorem takeLeading_places (fits : ofDigits digits * 10 ^ places.length + value places ≤ maxWord) :
    takeLeading 0 digits = (ofDigits digits, []) ∧ takeLeading (ofDigits digits) (digitValues places) =
      (ofDigits digits * 10 ^ places.length + value places, []) := by
  have length : (digitValues places).length = places.length := List.length_map _
  have whole : ofDigits digits ≤ maxWord :=
    (Nat.le_mul_of_pos_right _ (Nat.pow_pos (by decide))).trans ((Nat.le_add_right _ _).trans fits)
  refine ⟨takeLeading_zero whole, ?_⟩
  rw [← length, ← ofDigits_digitValues] at fits ⊢
  exact takeLeading_all _ fits

theorem digitValues_cons (nonempty : places ≠ []) :
    ∃ first others, digitValues places = first :: others := by
  refine List.exists_cons_of_ne_nil fun none => nonempty ?_
  exact List.map_eq_nil_iff.mp none

/-- A number with places behind the point ends where its places end. -/
theorem readRest_point (nonempty : places ≠ []) (all : ∀ place ∈ places, place.isDigit = true)
    (fits : ofDigits digits * 10 ^ places.length + value places ≤ maxWord) (stops : Stops rest) :
    readRest negative digits ('.' :: (places ++ rest)) =
      (realNumber negative (ofDigits digits * 10 ^ places.length + value places) (-(places.length : Int)),
        some rest) := by
  obtain ⟨whole, behind⟩ := takeLeading_places fits
  obtain ⟨first, others, shape⟩ := digitValues_cons nonempty
  have length : (first :: others).length = places.length := shape ▸ List.length_map _
  have read := readDigits_append all stops.not_isDigit
  rw [shape] at behind read
  simp only [readRest, whole, read, behind, length]
  split
  · exact absurd rfl stops.head_ne.2.2.1
  · exact absurd rfl stops.head_ne.2.2.2
  · simp

/-- A number with places behind the point may have a power of ten. -/
theorem readRest_pointPower (nonempty : places ≠ []) (all : ∀ place ∈ places, place.isDigit = true) (power : Int)
    (fits : ofDigits digits * 10 ^ places.length + value places ≤ maxWord) (stops : Stops rest) :
    readRest negative digits ('.' :: (places ++ 'e' :: (powerChars power ++ rest))) =
      (realNumber negative (ofDigits digits * 10 ^ places.length + value places) (power - places.length),
        some rest) := by
  obtain ⟨whole, behind⟩ := takeLeading_places fits
  obtain ⟨first, others, shape⟩ := digitValues_cons nonempty
  have length : (first :: others).length = places.length := shape ▸ List.length_map _
  have read : readDigits (places ++ 'e' :: (powerChars power ++ rest)) =
      (digitValues places, 'e' :: (powerChars power ++ rest)) := readDigits_append all (by simp)
  rw [shape] at behind read
  simp only [readRest, whole, read, behind, length, readExponent_powerChars power stops]
  congr 2
  simp
  omega

/-- A number without places may have a power of ten. -/
theorem readRest_power (power : Int) (fits : ofDigits digits ≤ maxWord) (stops : Stops rest) :
    readRest negative digits ('e' :: (powerChars power ++ rest)) =
      (realNumber negative (ofDigits digits) power, some rest) := by
  simp only [readRest, takeLeading_zero fits, readExponent_powerChars power stops]
  simp

end Rest

open Binary64 (layout widest)

theorem value_append (first second : List Char) :
    value (first ++ second) = value first * 10 ^ second.length + value second := by
  have digits : digitValues (first ++ second) = digitValues first ++ digitValues second := List.map_append
  have length : (digitValues second).length = second.length := List.length_map _
  rw [← ofDigits_digitValues, ← ofDigits_digitValues, ← ofDigits_digitValues, digits, ← length, ofDigits,
    List.foldl_append, foldl_digits]
  rfl

theorem value_replicate (count : Nat) : value (List.replicate count '0') = 0 := by
  have shown := value_replicate_append count []
  rwa [List.append_nil] at shown

/-- This condition says that a text is read as a number with given digits and a given power of ten. -/
def ReadsAs (negative : Bool) (characters : List Char) (digits : Nat) (power : Int) : Prop :=
  ∀ rest, Stops rest → readNumber negative (characters ++ rest) = (realNumber negative digits power, some rest)

theorem all_toDigits (number : Nat) : ∀ digit ∈ Nat.toDigits 10 number, digit.isDigit = true :=
  fun _ member => isDigit_of_mem_toDigits number member

theorem all_replicate (count : Nat) : ∀ digit ∈ List.replicate count '0', digit.isDigit = true := by
  intro digit member
  rw [List.eq_of_mem_replicate member]
  decide

theorem lt_pow_length (number : Nat) : number < 10 ^ (Nat.toDigits 10 number).length :=
  (Nat.length_toDigits_le_iff (by decide) (List.length_pos_of_ne_nil Nat.toDigits_ne_nil)).mp (Nat.le_refl _)

section Layout

variable {number : Nat} {power : Int}

/-- A whole number is written with a zero behind the point. -/
theorem readsAs_whole (up : 0 ≤ power) (short : (Nat.toDigits 10 number).length + power ≤ 16)
    (some : 0 < number ∨ power = 0) :
    ∃ digits ≤ 10 ^ 17, ReadsAs negative (layout (Nat.toDigits 10 number) power) digits (-1) := by
  obtain ⟨count, rfl⟩ := Int.eq_ofNat_of_zero_le up
  set whole := Nat.toDigits 10 number ++ List.replicate count '0' with wholeIs
  have valued : ofDigits (digitValues whole) = number * 10 ^ count := by
    rw [ofDigits_digitValues, value_append, value_toDigits, value_replicate, List.length_replicate, Nat.add_zero]
  have bound : number * 10 ^ count ≤ 10 ^ 16 := by
    calc number * 10 ^ count ≤ 10 ^ (Nat.toDigits 10 number).length * 10 ^ count :=
          Nat.mul_le_mul_right _ (lt_pow_length number).le
      _ = 10 ^ ((Nat.toDigits 10 number).length + count) := (pow_add _ _ _).symm
      _ ≤ 10 ^ 16 := Nat.pow_le_pow_right (by decide) (by omega)
  have leading : whole = ['0'] ∨ ∀ digit ∈ whole.head?, digit.toNat - 48 ≠ 0 := by
    rcases some with positive | none
    · rw [wholeIs, List.head?_append_of_ne_nil _ Nat.toDigits_ne_nil]
      exact .inr (head_toDigits positive)
    · obtain rfl : count = 0 := by omega
      rw [wholeIs, List.replicate_zero, List.append_nil]
      exact leading_toDigits number
  have all : ∀ digit ∈ whole, digit.isDigit = true := by
    intro digit member
    rcases List.mem_append.mp member with written | zero
    · exact all_toDigits number digit written
    · exact all_replicate count digit zero
  have nonempty : whole ≠ [] := List.append_ne_nil_of_left_ne_nil Nat.toDigits_ne_nil _
  have shape : layout (Nat.toDigits 10 number) count = whole ++ ['.', '0'] := by
    simp only [layout]
    rw [if_pos ⟨up, short⟩, Int.toNat_natCast]
  refine ⟨number * 10 ^ count * 10, by omega, fun rest stops => ?_⟩
  have fits : ofDigits (digitValues whole) * 10 ^ ['0'].length + value ['0'] ≤ maxWord := by
    have zero : value ['0'] = 0 := rfl
    rw [valued, zero, List.length_singleton, pow_one, maxWord]
    omega
  have read : readRest negative (digitValues whole) ('.' :: (['0'] ++ rest)) = _ :=
    readRest_point (by decide) (by simp) fits stops
  rw [valued] at read
  rw [shape, List.append_assoc, readNumber_append nonempty all leading (by simp)]
  exact read

/-- The digits of a number with a point among them are read as they are. -/
theorem readsAs_split (inside : 0 < (Nat.toDigits 10 number).length + power) (down : power < 0)
    (short : (Nat.toDigits 10 number).length + power ≤ 16) (few : number ≤ 10 ^ 17) :
    ReadsAs negative (layout (Nat.toDigits 10 number) power) number power := by
  set written := Nat.toDigits 10 number with writtenIs
  set point := ((written.length : Int) + power).toNat with pointIs
  have shape : layout written power = written.take point ++ ['.'] ++ written.drop point := by
    simp only [layout]
    rw [if_neg (by omega), if_pos ⟨inside, short⟩]
  have length : (written.drop point).length = written.length - point := List.length_drop
  have places : ((written.drop point).length : Int) = -power := by omega
  have valued : ofDigits (digitValues (written.take point)) * 10 ^ (written.drop point).length +
      value (written.drop point) = number := by
    rw [ofDigits_digitValues, ← value_append, List.take_append_drop, writtenIs, value_toDigits]
  have all := all_toDigits number
  have positive : 0 < number := by
    refine Nat.pos_of_ne_zero fun zero => ?_
    have single : written.length = 1 := by rw [writtenIs, zero]; rfl
    omega
  intro rest stops
  have nonempty : written.take point ≠ [] := by
    rw [ne_eq, List.take_eq_nil_iff, not_or]
    exact ⟨by omega, Nat.toDigits_ne_nil⟩
  have leading : ∀ digit ∈ (written.take point).head?, digit.toNat - 48 ≠ 0 := by
    rw [List.head?_take, if_neg (by omega)]
    exact head_toDigits positive
  have read : readRest negative (digitValues (written.take point)) ('.' :: (written.drop point ++ rest)) = _ :=
    readRest_point (by rw [← List.length_pos_iff]; omega)
      (fun digit member => all digit (List.mem_of_mem_drop member)) (by rw [valued]; simp [maxWord]; omega) stops
  rw [valued, places, Int.neg_neg] at read
  rw [shape, List.append_assoc, List.append_assoc, readNumber_append nonempty
    (fun digit member => all digit (List.mem_of_mem_take member)) (.inr leading) (by simp)]
  exact read

/-- The digits of a small number stand behind a point and zeros. -/
theorem readsAs_small (outside : (Nat.toDigits 10 number).length + power ≤ 0)
    (near : -5 < (Nat.toDigits 10 number).length + power) (few : number ≤ 10 ^ 17) :
    ReadsAs negative (layout (Nat.toDigits 10 number) power) number power := by
  set written := Nat.toDigits 10 number with writtenIs
  have some : 0 < written.length := List.length_pos_of_ne_nil Nat.toDigits_ne_nil
  set places := List.replicate (-((written.length : Int) + power)).toNat '0' ++ written with placesIs
  have shape : layout written power = '0' :: '.' :: places := by
    simp only [layout]
    rw [if_neg (by omega), if_neg (by omega), if_pos ⟨near, outside⟩]
    rfl
  have length : (places.length : Int) = -power := by
    rw [placesIs, List.length_append, List.length_replicate]
    omega
  have valued : ofDigits (digitValues ['0']) * 10 ^ places.length + value places = number := by
    have zero : ofDigits (digitValues ['0']) = 0 := rfl
    rw [zero, Nat.zero_mul, Nat.zero_add, placesIs, value_replicate_append, writtenIs, value_toDigits]
  have all : ∀ digit ∈ places, digit.isDigit = true := by
    intro digit member
    rcases List.mem_append.mp member with zero | digits
    · exact all_replicate _ digit zero
    · exact all_toDigits number digit digits
  intro rest stops
  have read : readRest negative (digitValues ['0']) ('.' :: (places ++ rest)) = _ :=
    readRest_point (List.append_ne_nil_of_right_ne_nil _ Nat.toDigits_ne_nil) all
      (by rw [valued]; simp [maxWord]; omega) stops
  rw [valued, length, Int.neg_neg] at read
  rw [shape]
  have start : readNumber negative (['0'] ++ '.' :: (places ++ rest)) = _ :=
    readNumber_append (by decide) (by simp) (.inl rfl) (by simp)
  exact start.trans read

/-- The digits of a number that is very large or very small stand before a power of ten. -/
theorem readsAs_power (large : ¬(0 ≤ power ∧ (Nat.toDigits 10 number).length + power ≤ 16))
    (outside : ¬(0 < (Nat.toDigits 10 number).length + power ∧ (Nat.toDigits 10 number).length + power ≤ 16))
    (far : ¬(-5 < (Nat.toDigits 10 number).length + power ∧ (Nat.toDigits 10 number).length + power ≤ 0))
    (few : number ≤ 10 ^ 17) : ReadsAs negative (layout (Nat.toDigits 10 number) power) number power := by
  have all := all_toDigits number
  have leading := leading_toDigits number
  have valued : ofDigits (digitValues (Nat.toDigits 10 number)) = number := by
    rw [ofDigits_digitValues, value_toDigits]
  have bound : number ≤ maxWord := by
    rw [maxWord]
    omega
  obtain ⟨first, others, written⟩ := List.exists_cons_of_ne_nil (Nat.toDigits_ne_nil (n := number) (b := 10))
  rw [written] at large outside far all leading valued ⊢
  cases others with
  | nil =>
    have shape : layout [first] power = [first] ++ 'e' :: powerChars power := by
      have exponent : (([first].length : Int) + power) - 1 = power := by
        rw [List.length_singleton]
        omega
      simp only [layout]
      rw [if_neg large, if_neg outside, if_neg far, exponent]
      rfl
    intro rest stops
    have read : readRest negative (digitValues [first]) ('e' :: (powerChars power ++ rest)) = _ :=
      readRest_power power (by rwa [valued]) stops
    have start : readNumber negative ([first] ++ 'e' :: (powerChars power ++ rest)) = _ :=
      readNumber_append (by simp) all leading (by simp)
    rw [valued] at read
    rw [shape]
    exact start.trans read
  | cons second others =>
    have more : ∀ digit ∈ ([first] : List Char).head?, digit.toNat - 48 ≠ 0 := by
      rcases leading with single | nonzero
      · simp at single
      · exact nonzero
    have shape : layout (first :: second :: others) power = [first] ++ '.' :: ((second :: others) ++
        'e' :: powerChars (((first :: second :: others).length : Int) + power - 1)) := by
      simp only [layout]
      rw [if_neg large, if_neg outside, if_neg far]
      simp [powerChars]
    have total : ofDigits (digitValues [first]) * 10 ^ (second :: others).length + value (second :: others) =
        number := by
      rw [ofDigits_digitValues, ← value_append, ← valued, ofDigits_digitValues]
      rfl
    have exponent : ((first :: second :: others).length : Int) + power - 1 - ((second :: others).length : Int) =
        power := by
      simp only [List.length_cons]
      omega
    intro rest stops
    have read : readRest negative (digitValues [first]) ('.' :: ((second :: others) ++
        'e' :: (powerChars (((first :: second :: others).length : Int) + power - 1) ++ rest))) = _ :=
      readRest_pointPower (by simp) (fun digit member => all digit (List.mem_cons_of_mem _ member)) _
        (by rwa [total]) stops
    rw [total, exponent] at read
    have start : readNumber negative ([first] ++ '.' :: ((second :: others) ++
        'e' :: (powerChars (((first :: second :: others).length : Int) + power - 1) ++ rest))) = _ :=
      readNumber_append (by simp) (fun digit member => all digit (by simp_all)) (.inr more) (by simp)
    rw [shape]
    simpa only [List.append_assoc, List.cons_append, List.nil_append] using start.trans read

/-- Each text of digits and a power of ten is read as them, or as a whole number with a zero behind the point. -/
theorem readsAs_layout (few : number ≤ 10 ^ 17) (some : 0 < number ∨ power = 0) :
    ReadsAs negative (layout (Nat.toDigits 10 number) power) number power ∨
      ∃ digits ≤ 10 ^ 17, ReadsAs negative (layout (Nat.toDigits 10 number) power) digits (-1) := by
  by_cases whole : 0 ≤ power ∧ (Nat.toDigits 10 number).length + power ≤ 16
  · exact .inr (readsAs_whole whole.1 whole.2 some)
  · by_cases inside : 0 < (Nat.toDigits 10 number).length + power ∧ (Nat.toDigits 10 number).length + power ≤ 16
    · exact .inl (readsAs_split inside.1 (by omega) inside.2 few)
    · by_cases near : -5 < (Nat.toDigits 10 number).length + power ∧ (Nat.toDigits 10 number).length + power ≤ 0
      · exact .inl (readsAs_small near.2 near.1 few)
      · exact .inl (readsAs_power whole inside near few)

end Layout

/-- A number that can be read starts with a digit. -/
theorem isDigit_of_readNumber {characters : List Char} {draft : Draft}
    (read : readNumber negative characters = (draft, some rest)) :
    ∃ first others, characters = first :: others ∧ first.isDigit = true := by
  cases characters with
  | nil => simp [readNumber, readDigits] at read
  | cons first others =>
    refine ⟨first, others, rfl, Decidable.byContradiction fun other => ?_⟩
    have none : readDigits (first :: others) = ([], first :: others) := by
      simp [readDigits, other]
    rw [readNumber, none] at read
    simp at read

/-- The text of a finite number, without its sign, is read as a finite number, though not always as the same one. -/
theorem readNumber_layout {fraction : Binary64} (finite : fraction.Finite) :
    ∃ again : Binary64, again.Finite ∧ ∀ rest, Stops rest →
      readNumber negative (layout (Nat.toDigits 10 fraction.shortest.1) fraction.shortest.2 ++ rest) =
        (.number (.real again), some rest) := by
  have reads {digits : Nat} {power : Int}
      (known : ReadsAs negative (layout (Nat.toDigits 10 fraction.shortest.1) fraction.shortest.2) digits power)
      (rounds : (Binary64.ofDecimal negative digits power).isSome = true) :
      ∃ again : Binary64, again.Finite ∧ ∀ rest, Stops rest →
        readNumber negative (layout (Nat.toDigits 10 fraction.shortest.1) fraction.shortest.2 ++ rest) =
          (.number (.real again), some rest) := by
    obtain ⟨again, rounded⟩ := Option.isSome_iff_exists.mp rounds
    refine ⟨again, Binary64.finite_of_ofDecimal rounded, fun rest stops => ?_⟩
    rw [known rest stops, realNumber, rounded]
  by_cases zero : fraction.mantissa = 0
  · have digits : fraction.shortest = (0, 0) := by rw [Binary64.shortest, if_pos zero]
    have known : ∃ digits ≤ 10 ^ 17, ReadsAs negative
        (layout (Nat.toDigits 10 fraction.shortest.1) fraction.shortest.2) digits (-1) := by
      rw [digits]
      exact readsAs_whole (Int.le_refl 0) (by decide) (.inr rfl)
    obtain ⟨digits, few, known⟩ := known
    exact reads known (Binary64.isSome_ofDecimal_down few (by decide))
  · obtain ⟨some, few, low⟩ := Binary64.moderate_shortest finite zero
    rcases readsAs_layout few (.inl some) with known | ⟨digits, few, known⟩
    · refine reads known ?_
      by_cases down : fraction.shortest.2 < 0
      · exact Binary64.isSome_ofDecimal_down few down
      · obtain ⟨power, up⟩ := Int.eq_ofNat_of_zero_le (Int.not_lt.mp down)
        rw [up, zpow_natCast, ← Binary64.cast_power, ← Nat.cast_mul] at low
        rw [up]
        exact Binary64.isSome_ofDecimal_up few (Nat.cast_le.mp low)
    · exact reads known (Binary64.isSome_ofDecimal_down few (by decide))

end ContractWorks.Draft

import ContractWorks.Text.Hex
import ContractWorks.Time.Instant
import Mathlib.Algebra.Group.Nat.Defs

namespace ContractWorks.Text.Hex

/-- A row of octets that is walked through from an index lists what is left of it, after what was listed before. -/
theorem toList_loop (octets : ByteArray) (index : Nat) (listed : List UInt8) :
    ByteArray.toList.loop octets index listed = listed.reverse ++ octets.data.toList.drop index := by
  induction index, listed using ByteArray.toList.loop.induct octets with
  | case1 index listed inside inductionHypothesis =>
    have there : index < octets.data.toList.length := inside
    have here : octets.get! index = octets.data.toList[index] := by
      rw [ByteArray.get!]
      exact getElem!_pos octets.data index inside
    rw [ByteArray.toList.loop, if_pos inside, inductionHypothesis, List.reverse_cons, List.append_assoc,
      List.singleton_append, List.drop_eq_getElem_cons there, here]
  | case2 index listed beyond =>
    have past : octets.data.toList.length ≤ index := Nat.le_of_not_lt beyond
    rw [ByteArray.toList.loop, if_neg beyond, List.drop_eq_nil_of_le past, List.append_nil]

theorem toList_eq (octets : ByteArray) : octets.toList = octets.data.toList := by
  rw [ByteArray.toList, toList_loop]
  rfl

/-- The octets of a text are those of its characters. -/
theorem toUTF8_ofList (characters : List Char) :
    (String.ofList characters).toUTF8.toList = characters.flatMap String.utf8EncodeChar := by
  rw [toList_eq, String.toUTF8_eq_toByteArray, String.toByteArray_ofList, List.utf8Encode, List.data_toByteArray]

/-- This is the octet of a digit. -/
def digitOctet (value : Nat) : UInt8 :=
  UInt8.ofNat (digit value).toNat

theorem utf8EncodeChar_digit : ∀ value < 16, String.utf8EncodeChar (digit value) = [digitOctet value] := by
  decide

theorem value?_digitOctet : ∀ value < 16, value? (digitOctet value).toNat = some value := by
  decide

/-- These are the octets of the digits of octets. -/
def digitOctets (bytes : List UInt8) : List UInt8 :=
  (bytes.flatMap octet).flatMap String.utf8EncodeChar

theorem digitOctets_cons (byte : UInt8) (bytes : List UInt8) :
    digitOctets (byte :: bytes) =
      digitOctet (byte.toNat / 16) :: digitOctet (byte.toNat % 16) :: digitOctets bytes := by
  have bound : byte.toNat < 256 := byte.toNat_lt
  have high := utf8EncodeChar_digit (byte.toNat / 16) (by omega)
  have low := utf8EncodeChar_digit (byte.toNat % 16) (by omega)
  simp only [digitOctets, List.flatMap_cons, octet, high, low, List.cons_append, List.nil_append]

/-- Octets are read back from their digits. -/
theorem decodePairs_digitOctets (bytes : List UInt8) : ∀ {position : Nat},
    decodePairs position (digitOctets bytes) = .ok bytes := by
  induction bytes with
  | nil => exact rfl
  | cons byte bytes inductionHypothesis =>
    intro position
    have bound : byte.toNat < 256 := byte.toNat_lt
    have high := value?_digitOctet (byte.toNat / 16) (by omega)
    have low := value?_digitOctet (byte.toNat % 16) (by omega)
    have whole : UInt8.ofNat (byte.toNat / 16 * 16 + byte.toNat % 16) = byte := by
      rw [Nat.div_add_mod', UInt8.ofNat_toNat]
    rw [digitOctets_cons, decodePairs, high, low]
    simp only [inductionHypothesis, bind, Except.bind, pure, Except.pure, whole]

/-- Octets are read back from the text of their digits. -/
theorem decode_encode (bytes : List UInt8) : decode (encode bytes) = .ok bytes := by
  have even : (digitOctets bytes).length % 2 = 0 := by
    induction bytes with
    | nil => rfl
    | cons byte bytes inductionHypothesis =>
      rw [digitOctets_cons, List.length_cons, List.length_cons]
      omega
  have octets : (encode bytes).toUTF8.toList = digitOctets bytes := toUTF8_ofList _
  rw [decode]
  simp only [octets]
  rw [if_neg (by rw [even]; decide)]
  exact decodePairs_digitOctets bytes

end ContractWorks.Text.Hex

namespace ContractWorks.Text.Digits

/-- This function gives the number that a row of decimal digits stands for. -/
def value (digits : List Char) : Nat :=
  digits.foldl (fun value digit => value * 10 + (digit.toNat - 48)) 0

theorem value_append_single (digits : List Char) (digit : Char) :
    value (digits ++ [digit]) = value digits * 10 + (digit.toNat - 48) := by
  simp only [value, List.foldl_append, List.foldl_cons, List.foldl_nil]

/-- One digit stands for itself. -/
theorem digitChar_toNat : ∀ digit < 10, (Nat.digitChar digit).toNat - 48 = digit := by
  decide

/-- The written digits of a number stand for that number. -/
theorem value_toDigits (number : Nat) : value (Nat.toDigits 10 number) = number := by
  induction number using Nat.strongRecOn with
  | _ number inductionHypothesis =>
    have last := digitChar_toNat (number % 10) (Nat.mod_lt _ (by decide))
    rw [Nat.toDigits_eq_if (by decide)]
    split
    · next small =>
      rw [Nat.mod_eq_of_lt small] at last
      simpa [value] using last
    · next large =>
      rw [value_append_single, inductionHypothesis (number / 10) (by omega), last]
      omega

theorem isDigit_of_mem_toDigits (number : Nat) {digit : Char}
    (member : digit ∈ Nat.toDigits 10 number) : digit.isDigit = true :=
  Nat.isDigit_of_mem_toDigits (by decide) (by decide) member

/-- Zeros in front of a number do not change it. -/
theorem value_replicate_append (count : Nat) (digits : List Char) :
    value (List.replicate count '0' ++ digits) = value digits := by
  induction count with
  | zero => rfl
  | succ count inductionHypothesis =>
    rw [List.replicate_succ, List.cons_append, ← inductionHypothesis]
    rfl

theorem value_padded (width number : Nat) : value (Time.Instant.padded width number) = number := by
  simp only [Time.Instant.padded, value_replicate_append, value_toDigits]

theorem isDigit_of_mem_padded {width number : Nat} {digit : Char}
    (member : digit ∈ Time.Instant.padded width number) : digit.isDigit = true := by
  rcases List.mem_append.mp member with zero | written
  · rw [List.eq_of_mem_replicate zero]
    decide
  · exact isDigit_of_mem_toDigits number written

theorem padded_ne_nil (width number : Nat) : Time.Instant.padded width number ≠ [] := by
  simp [Time.Instant.padded, Nat.toDigits_ne_nil]

/-- A number that needs no more digits than the width is written with exactly that many. -/
theorem length_padded {width number : Nat} (positive : 0 < width) (small : number < 10 ^ width) :
    (Time.Instant.padded width number).length = width := by
  have bound := (Nat.length_toDigits_le_iff (b := 10) (by decide) positive).mpr small
  simp only [Time.Instant.padded, List.length_append, List.length_replicate]
  omega

/-- A row of digits ends where the digits end. -/
theorem takeWhile_isDigit_append {digits rest : List Char}
    (all : ∀ digit ∈ digits, digit.isDigit = true)
    (stop : ∀ character ∈ rest.head?, character.isDigit = false) :
    (digits ++ rest).takeWhile Char.isDigit = digits := by
  rw [List.takeWhile_append_of_pos all]
  cases rest with
  | nil => simp
  | cons character rest => simp [stop character (by simp)]

theorem dropWhile_isDigit_append {digits rest : List Char}
    (all : ∀ digit ∈ digits, digit.isDigit = true)
    (stop : ∀ character ∈ rest.head?, character.isDigit = false) :
    (digits ++ rest).dropWhile Char.isDigit = rest := by
  rw [List.dropWhile_append_of_pos all]
  cases rest with
  | nil => simp
  | cons character rest => simp [stop character (by simp)]

end ContractWorks.Text.Digits

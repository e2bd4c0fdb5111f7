import ContractWorks.Proofs.Number.Rounding

namespace ContractWorks.Binary64

variable {number : Binary64} {fraction : Nat × Nat}

theorem size_pos (nonzero : number.mantissa ≠ 0) : 0 < number.size := by
  have positive : (0 : ℚ) < number.mantissa := by exact_mod_cast Nat.pos_of_ne_zero nonzero
  rw [size]
  positivity

/-- A positive whole number lies between the powers of ten that its digits are counted by. -/
theorem digitCount_bounds {whole : Nat} (positive : 0 < whole) :
    (10 : ℚ) ^ ((digitCount whole : Int) - 1) ≤ whole ∧ (whole : ℚ) < 10 ^ (digitCount whole : Int) := by
  have some : 0 < digitCount whole := List.length_pos_of_ne_nil Nat.toDigits_ne_nil
  have above : whole < 10 ^ digitCount whole :=
    (Nat.length_toDigits_le_iff (by decide) some).mp (Nat.le_refl _)
  have below : 10 ^ (digitCount whole - 1) ≤ whole := by
    rcases Nat.eq_zero_or_pos (digitCount whole - 1) with single | more
    · rw [single]
      exact positive
    · refine Nat.le_of_not_lt fun less => ?_
      have few : digitCount whole ≤ digitCount whole - 1 := (Nat.length_toDigits_le_iff (by decide) more).mpr less
      omega
  constructor
  · have index : (digitCount whole : Int) - 1 = (digitCount whole - 1 : Nat) := by omega
    rw [index, zpow_natCast]
    exact_mod_cast below
  · rw [zpow_natCast]
    exact_mod_cast above

/-- The power of ten at or below a fraction is found from one that lies at most one step below it. -/
theorem decimalMagnitude_bounds (sound : 0 < fraction.2) (steps : Nat) {guess : Int}
    (low : (10 : ℚ) ^ guess ≤ ratio fraction) (high : ratio fraction < 10 ^ (guess + 2)) :
    (10 : ℚ) ^ decimalMagnitude fraction (steps + 2) guess ≤ ratio fraction ∧
      ratio fraction < 10 ^ (decimalMagnitude fraction (steps + 2) guess + 1) := by
  have compares (power : Int) :
      (scale 10 (-power) fraction).1 < (scale 10 (-power) fraction).2 ↔ ratio fraction < 10 ^ power := by
    rw [← ratio_lt_one_iff (scale_pos (by decide) _ sound), ratio_scale (by decide), Nat.cast_ofNat, zpow_neg,
      ← div_eq_mul_inv, div_lt_one (by positivity)]
  have next : guess + 1 + 1 = guess + 2 := by omega
  rw [decimalMagnitude, decimalMagnitude]
  simp only [compares]
  split
  · next here => exact ⟨low, here⟩
  · next beyond =>
    rw [next, if_pos high]
    exact ⟨le_of_not_gt beyond, next ▸ high⟩

/-- The first guess lies at most one step below. -/
theorem guess_bounds {fraction : Nat × Nat} (positive : 0 < fraction.1) (sound : 0 < fraction.2) :
    (10 : ℚ) ^ ((digitCount fraction.1 : Int) - (digitCount fraction.2 : Int) - 1) ≤ ratio fraction ∧
      ratio fraction < 10 ^ ((digitCount fraction.1 : Int) - (digitCount fraction.2 : Int) - 1 + 2) := by
  obtain ⟨topLow, topHigh⟩ := digitCount_bounds positive
  obtain ⟨bottomLow, bottomHigh⟩ := digitCount_bounds sound
  have below : (0 : ℚ) < fraction.2 := by exact_mod_cast sound
  have ten : (10 : ℚ) ≠ 0 := by norm_num
  constructor
  · rw [ratio, le_div_iff₀ below]
    calc (10 : ℚ) ^ ((digitCount fraction.1 : Int) - (digitCount fraction.2 : Int) - 1) * fraction.2
        ≤ 10 ^ ((digitCount fraction.1 : Int) - (digitCount fraction.2 : Int) - 1) *
            10 ^ (digitCount fraction.2 : Int) := mul_le_mul_of_nonneg_left bottomHigh.le (by positivity)
      _ = 10 ^ ((digitCount fraction.1 : Int) - 1) := by
        rw [← zpow_add₀ ten]
        congr 1
        omega
      _ ≤ fraction.1 := topLow
  · rw [ratio, div_lt_iff₀ below]
    calc (fraction.1 : ℚ) < 10 ^ (digitCount fraction.1 : Int) := topHigh
      _ = 10 ^ ((digitCount fraction.1 : Int) - (digitCount fraction.2 : Int) - 1 + 2) *
            10 ^ ((digitCount fraction.2 : Int) - 1) := by
        rw [← zpow_add₀ ten]
        congr 1
        omega
      _ ≤ 10 ^ ((digitCount fraction.1 : Int) - (digitCount fraction.2 : Int) - 1 + 2) * fraction.2 :=
        mul_le_mul_of_nonneg_left bottomLow (by positivity)

/-- Digits that read back as a number lie no more than half a place above it. -/
theorem le_of_readsBack {digits : Nat} {power : Int} (reads : number.readsBack digits power = true) :
    (digits : ℚ) * 10 ^ power ≤ (4 * number.mantissa + 2) * 2 ^ (number.exponent - 2) := by
  set decimal := scale 2 (-(number.exponent - 2)) (scale 10 power (digits, 1)) with decimalIs
  have sound : 0 < decimal.2 := scale_pos (by decide) _ (scale_pos (by decide) _ Nat.one_pos)
  have valued : ratio decimal = digits * 10 ^ power * 2 ^ (-(number.exponent - 2)) := by
    rw [decimalIs, ratio_scale (by decide), ratio_scale (by decide), ratio_one]
    norm_num
  have order : decimal.1 ≤ (4 * number.mantissa + 2) * decimal.2 := by
    rw [readsBack] at reads
    simp only [← decimalIs] at reads
    split at reads
    · exact of_decide_eq_true (Bool.and_eq_true_iff.mp reads).2
    · exact (of_decide_eq_true (Bool.and_eq_true_iff.mp reads).2).le
  have below : (0 : ℚ) < decimal.2 := by exact_mod_cast sound
  have cast : (decimal.1 : ℚ) ≤ (4 * number.mantissa + 2) * decimal.2 := by exact_mod_cast order
  have bound : ratio decimal ≤ 4 * number.mantissa + 2 := by
    rwa [ratio, div_le_iff₀ below]
  rwa [valued, zpow_neg, ← div_eq_mul_inv, div_le_iff₀ (by positivity)] at bound

/-- No number but the largest reaches the digits of the largest, not even with half a place more. -/
theorem place_le_widest (finite : number.Finite) (inner : ¬(number.mantissa = 2 ^ 53 - 1 ∧ number.exponent = 971)) :
    (4 * number.mantissa + 2) * (2 : ℚ) ^ (number.exponent - 2) + 10 ^ 292 / 2 ≤ widest := by
  have room : (2 ^ 55 - 6) * 2 ^ 969 * 2 + 10 ^ 292 ≤ 2 * widest := by decide +kernel
  have cast : (((2 ^ 55 - 6) * 2 ^ 969 * 2 + 10 ^ 292 : Nat) : ℚ) ≤ (2 * widest : Nat) := Nat.cast_le.mpr room
  rw [Nat.cast_add, Nat.cast_mul, Nat.cast_mul, Nat.cast_mul, cast_power, Nat.cast_pow 2 969, Nat.cast_ofNat] at cast
  have power : (2 : ℚ) ^ (969 : Int) = 2 ^ 969 := zpow_ofNat 2 969
  have below : (4 * number.mantissa + 2) * (2 : ℚ) ^ (number.exponent - 2) ≤ (2 ^ 55 - 6 : Nat) * 2 ^ 969 := by
    have small := finite.mantissa
    by_cases top : number.exponent = 971
    · have most : 4 * number.mantissa + 2 ≤ 2 ^ 55 - 6 := by omega
      have mantissa : (4 * number.mantissa + 2 : ℚ) ≤ (2 ^ 55 - 6 : Nat) := by exact_mod_cast most
      have exponent : number.exponent - 2 = 969 := by omega
      rw [exponent, ← power]
      exact mul_le_mul_of_nonneg_right mantissa (by positivity)
    · have most : 4 * number.mantissa + 2 ≤ 2 * (2 ^ 55 - 6) := by omega
      have mantissa : (4 * number.mantissa + 2 : ℚ) ≤ 2 * (2 ^ 55 - 6 : Nat) := by exact_mod_cast most
      have exponent : (2 : ℚ) ^ (number.exponent - 2) ≤ 2 ^ (968 : Int) :=
        zpow_le_zpow_right₀ one_le_two (by have := finite.exponent; omega)
      have double : (2 : ℚ) ^ (969 : Int) = 2 * 2 ^ (968 : Int) := by
        rw [mul_comm]
        exact zpow_add_one₀ two_ne_zero 968
      rw [← power, double, mul_left_comm, ← mul_assoc]
      exact mul_le_mul mantissa exponent (by positivity) (by positivity)
  generalize (2 : ℚ) ^ 969 = unit at cast below
  generalize (10 : ℚ) ^ 292 = gap at cast ⊢
  push_cast at cast below
  linarith

theorem size_le_place (number : Binary64) :
    number.size ≤ (4 * number.mantissa + 2) * (2 : ℚ) ^ (number.exponent - 2) := by
  have four : (2 : ℚ) ^ number.exponent = 4 * 2 ^ (number.exponent - 2) := by
    rw [zpow_sub₀ two_ne_zero]
    norm_num
    ring
  have positive : (0 : ℚ) ≤ 2 ^ (number.exponent - 2) := by positivity
  rw [size, four]
  linarith

/-- Digits are moderate when there are some, no more than seventeen places of them, and when they do not go beyond
those of the largest number. -/
structure Moderate (digits : Nat) (power : Int) : Prop where
  some : 0 < digits
  few : digits ≤ 10 ^ 17
  low : (digits : ℚ) * 10 ^ power ≤ widest

theorem roundQuotient_near (numerator denominator : Nat) :
    numerator / denominator ≤ roundQuotient numerator denominator ∧
      roundQuotient numerator denominator ≤ numerator / denominator + 1 := by
  rw [roundQuotient]
  split_ifs
  · omega
  · omega
  · omega

section Search

variable {magnitude : Int} {count digits : Nat} (low : (10 : ℚ) ^ magnitude ≤ number.size)
  (high : number.size < 10 ^ (magnitude + 1))

include low high

/-- The digits that the search tries have as many places as it has come to. -/
theorem few_of_near (some : 0 < count) (most : count ≤ 17)
    (least : (scale 10 (-(magnitude - count + 1)) number.fraction).1 /
      (scale 10 (-(magnitude - count + 1)) number.fraction).2 ≤ digits)
    (near : digits ≤ (scale 10 (-(magnitude - count + 1)) number.fraction).1 /
      (scale 10 (-(magnitude - count + 1)) number.fraction).2 + 1) : 0 < digits ∧ digits ≤ 10 ^ 17 := by
  set scaled := scale 10 (-(magnitude - count + 1)) number.fraction with scaledIs
  have sound : 0 < scaled.2 := scale_pos (by decide) _ number.fraction_pos
  have below : (0 : ℚ) < scaled.2 := by exact_mod_cast sound
  have valued : ratio scaled = number.size * 10 ^ (-(magnitude - count + 1)) := by
    rw [scaledIs, ratio_scale (by decide), ratio_fraction, Nat.cast_ofNat]
  have ten : (10 : ℚ) ≠ 0 := by norm_num
  have above : ratio scaled < (10 ^ count : Nat) := by
    calc ratio scaled < 10 ^ (magnitude + 1) * 10 ^ (-(magnitude - count + 1)) := by
          rw [valued]
          exact mul_lt_mul_of_pos_right high (by positivity)
      _ = 10 ^ (count : Int) := by
          rw [← zpow_add₀ ten]
          congr 1
          omega
      _ = (10 ^ count : Nat) := by rw [zpow_natCast, cast_power]
  have under : 1 ≤ ratio scaled := by
    calc (1 : ℚ) ≤ 10 ^ ((count : Int) - 1) := one_le_zpow₀ (by norm_num) (by omega)
      _ = 10 ^ magnitude * 10 ^ (-(magnitude - count + 1)) := by
          rw [← zpow_add₀ ten]
          congr 1
          omega
      _ ≤ ratio scaled := by
          rw [valued]
          exact mul_le_mul_of_nonneg_right low (by positivity)
  rw [ratio, le_div_iff₀ below, one_mul] at under
  rw [ratio, div_lt_iff₀ below] at above
  have first : scaled.2 ≤ scaled.1 := by exact_mod_cast under
  have last : scaled.1 < 10 ^ count * scaled.2 := by exact_mod_cast above
  have floor : 0 < scaled.1 / scaled.2 := Nat.div_pos first sound
  have ceiling : scaled.1 / scaled.2 < 10 ^ count := Nat.div_lt_of_lt_mul (by rwa [Nat.mul_comm])
  have places : 10 ^ count ≤ 10 ^ 17 := Nat.pow_le_pow_right (by decide) most
  exact ⟨by omega, by omega⟩

/-- The digits of the last place are rounded, so that they go no more than half a place beyond the number. -/
theorem low_of_rounded (finite : number.Finite)
    (inner : ¬(number.mantissa = 2 ^ 53 - 1 ∧ number.exponent = 971)) (few : digits ≤ 10 ^ 17)
    (rounded : (digits : ℚ) ≤ ratio (scale 10 (-(magnitude - (17 : Nat) + 1)) number.fraction) + 1 / 2) :
    (digits : ℚ) * 10 ^ (magnitude - (17 : Nat) + 1) ≤ widest := by
  have place := place_le_widest finite inner
  have sized := size_le_place number
  have half : (0 : ℚ) ≤ 10 ^ 292 / 2 := by positivity
  have ten : (10 : ℚ) ≠ 0 := by norm_num
  by_cases top : magnitude ≤ 307
  · have room : 10 ^ 17 * 10 ^ 291 ≤ widest := full_le_shortened.trans shortened_le_widest
    have cast : ((10 ^ 17 * 10 ^ 291 : Nat) : ℚ) ≤ widest := Nat.cast_le.mpr room
    rw [Nat.cast_mul, cast_power 291] at cast
    have fewCast : (digits : ℚ) ≤ (10 ^ 17 : Nat) := Nat.cast_le.mpr few
    have power : (10 : ℚ) ^ (magnitude - (17 : Nat) + 1) ≤ 10 ^ 291 := by
      rw [← zpow_ofNat]
      exact zpow_le_zpow_right₀ (by norm_num) (by push_cast; omega)
    exact (mul_le_mul fewCast power (by positivity) (by positivity)).trans cast
  · have edge : magnitude = 308 := by
      have cast : (widest : ℚ) < (10 ^ 309 : Nat) := Nat.cast_lt.mpr widest_lt
      rw [cast_power 309, ← zpow_ofNat] at cast
      have below : (10 : ℚ) ^ magnitude < 10 ^ (309 : Int) :=
        (low.trans (sized.trans (le_of_add_le_of_nonneg_left place half))).trans_lt cast
      have order := (zpow_lt_zpow_iff_right₀ (by norm_num)).mp below
      omega
    subst edge
    have exponent : (308 : Int) - (17 : Nat) + 1 = (292 : Nat) := by decide
    have unit : (0 : ℚ) < 10 ^ 292 := by positivity
    rw [exponent, ratio_scale (by decide), ratio_fraction, Nat.cast_ofNat, zpow_neg, zpow_natCast] at rounded
    rw [exponent, zpow_natCast]
    calc (digits : ℚ) * 10 ^ 292 ≤ (number.size * (10 ^ 292)⁻¹ + 1 / 2) * 10 ^ 292 :=
          mul_le_mul_of_nonneg_right rounded unit.le
      _ = number.size + 10 ^ 292 / 2 := by
          rw [add_mul, inv_mul_cancel_right₀ unit.ne', one_div_mul_eq_div]
      _ ≤ widest := (add_le_add_left sized _).trans place

/-- The search ends with moderate digits, as long as the number is not the largest. -/
theorem moderate_of_shortestFrom (finite : number.Finite)
    (inner : ¬(number.mantissa = 2 ^ 53 - 1 ∧ number.exponent = 971)) (steps : Nat) :
    ∀ {count : Nat}, 0 < count → count + steps = 17 →
      Moderate (shortestFrom number magnitude steps count).1 (shortestFrom number magnitude steps count).2 := by
  have half : (0 : ℚ) ≤ 10 ^ 292 / 2 := by positivity
  have place := le_of_add_le_of_nonneg_left (place_le_widest finite inner) half
  induction steps with
  | zero =>
    intro count some full
    obtain ⟨near, beyond⟩ := roundQuotient_near (scale 10 (-(magnitude - count + 1)) number.fraction).1
      (scale 10 (-(magnitude - count + 1)) number.fraction).2
    obtain ⟨least, most⟩ := few_of_near low high some (by omega) near beyond
    obtain rfl : count = 17 := full
    have sound : 0 < (scale 10 (-(magnitude - (17 : Nat) + 1)) number.fraction).2 :=
      scale_pos (by decide) _ number.fraction_pos
    exact ⟨least, most, low_of_rounded low high finite inner most (roundQuotient_bounds _ sound).1⟩
  | succ steps inductionHypothesis =>
    intro count some full
    rw [shortestFrom]
    have few (digits : Nat) := @few_of_near number magnitude count digits low high some (by omega)
    have rounded := roundQuotient_near (scale 10 (-(magnitude - count + 1)) number.fraction).1
      (scale 10 (-(magnitude - count + 1)) number.fraction).2
    generalize roundQuotient (scale 10 (-(magnitude - count + 1)) number.fraction).1
      (scale 10 (-(magnitude - count + 1)) number.fraction).2 = nearest at rounded ⊢
    generalize (scale 10 (-(magnitude - count + 1)) number.fraction).1 /
      (scale 10 (-(magnitude - count + 1)) number.fraction).2 = floor at few rounded ⊢
    have other : floor ≤ (if nearest = floor then floor + 1 else floor) ∧
        (if nearest = floor then floor + 1 else floor) ≤ floor + 1 := by split <;> omega
    generalize (if nearest = floor then floor + 1 else floor) = farther at other ⊢
    split
    · next reads =>
      obtain ⟨least, most⟩ := few _ rounded.1 rounded.2
      exact ⟨least, most, (le_of_readsBack reads).trans place⟩
    · split
      · next reads =>
        obtain ⟨least, most⟩ := few _ other.1 other.2
        exact ⟨least, most, (le_of_readsBack reads).trans place⟩
      · exact inductionHypothesis (Nat.succ_pos count) (by omega)

end Search

/-- Zeros at the end of moderate digits can be left out. -/
theorem Moderate.dropZeros (steps : Nat) : ∀ {digits : Nat} {power : Int}, Moderate digits power →
    Moderate (dropZeros steps digits power).1 (dropZeros steps digits power).2 := by
  induction steps with
  | zero => exact fun moderate => moderate
  | succ steps inductionHypothesis =>
    intro digits power moderate
    rw [Binary64.dropZeros]
    split
    · next last =>
      have ends : digits % 10 = 0 := of_decide_eq_true (Bool.and_eq_true_iff.mp last).1
      obtain ⟨tenth, rfl⟩ := Nat.dvd_of_mod_eq_zero ends
      obtain ⟨some, few, low⟩ := moderate
      rw [Nat.mul_div_cancel_left tenth (by decide)]
      refine inductionHypothesis ⟨by omega, by omega, ?_⟩
      rw [Nat.cast_mul, Nat.cast_ofNat, mul_comm (10 : ℚ), mul_assoc] at low
      rwa [zpow_add_one₀ (by norm_num), mul_comm _ (10 : ℚ)]
    · exact moderate

/-- The shortest digits of a number other than zero are moderate ones without the zeros at their end. -/
theorem exists_shortest_eq (finite : number.Finite) (nonzero : number.mantissa ≠ 0) :
    ∃ digits power, Moderate digits power ∧ number.shortest = Binary64.dropZeros 20 digits power := by
  by_cases inner : number.mantissa = 2 ^ 53 - 1 ∧ number.exponent = 971
  · obtain ⟨negative, mantissa, exponent⟩ := number
    obtain ⟨rfl, rfl⟩ : mantissa = 2 ^ 53 - 1 ∧ exponent = 971 := inner
    have digits : shortest ⟨negative, 2 ^ 53 - 1, 971⟩ = Binary64.dropZeros 20 17976931348623157 292 := by
      cases negative <;> decide +kernel
    refine ⟨_, _, ⟨by decide, by decide, ?_⟩, digits⟩
    rw [widest, Nat.cast_mul, cast_power, zpow_ofNat]
  · have positive : 0 < number.fraction.1 := by
      have sized : 0 < ratio number.fraction := by
        rw [ratio_fraction]
        exact size_pos nonzero
      refine Nat.pos_of_ne_zero fun zero => ?_
      rw [ratio, zero] at sized
      simp at sized
    obtain ⟨low, high⟩ := guess_bounds positive number.fraction_pos
    have bounds := decimalMagnitude_bounds number.fraction_pos 1 low high
    rw [ratio_fraction] at bounds
    have found := moderate_of_shortestFrom bounds.1 bounds.2 finite inner 16 Nat.one_pos rfl
    refine ⟨_, _, found, ?_⟩
    rw [shortest, if_neg nonzero]

/-- The shortest digits of a number other than zero are moderate. -/
theorem moderate_shortest (finite : number.Finite) (nonzero : number.mantissa ≠ 0) :
    Moderate number.shortest.1 number.shortest.2 := by
  obtain ⟨digits, power, moderate, same⟩ := exists_shortest_eq finite nonzero
  rw [same]
  exact moderate.dropZeros 20

/-- No zero is left at the end of digits when all can be left out. -/
theorem mod_dropZeros (steps : Nat) : ∀ {digits : Nat} {power : Int}, 0 < digits → digits < 10 ^ steps →
    (Binary64.dropZeros steps digits power).1 % 10 ≠ 0 := by
  induction steps with
  | zero => exact fun some few => absurd few (by omega)
  | succ steps inductionHypothesis =>
    intro digits power some few
    rw [Binary64.dropZeros]
    split
    · next last =>
      have ends : digits % 10 = 0 := of_decide_eq_true (Bool.and_eq_true_iff.mp last).1
      exact inductionHypothesis (by omega) (by omega)
    · next last =>
      intro zero
      simp [zero, Nat.ne_of_gt some] at last

/-- The shortest digits of a number other than zero do not end in a zero. -/
theorem mod_shortest (finite : number.Finite) (nonzero : number.mantissa ≠ 0) : number.shortest.1 % 10 ≠ 0 := by
  obtain ⟨digits, power, moderate, same⟩ := exists_shortest_eq finite nonzero
  rw [same]
  exact mod_dropZeros 20 moderate.some (Nat.lt_of_le_of_lt moderate.few (by decide))

end ContractWorks.Binary64

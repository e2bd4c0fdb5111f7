import ContractWorks.Number.Binary64
import Mathlib.Algebra.Order.Field.Power
import Mathlib.Algebra.Order.Field.Rat
import Mathlib.Tactic.FieldSimp
import Mathlib.Tactic.Linarith
import Mathlib.Tactic.NormNum
import Mathlib.Tactic.Positivity
import Mathlib.Tactic.Ring

namespace ContractWorks.Binary64

section Rounding

/-- This is the rational number that a fraction stands for. -/
def ratio (fraction : Nat × Nat) : ℚ :=
  fraction.1 / fraction.2

/-- This is the value of a number without its sign. -/
def size (number : Binary64) : ℚ :=
  number.mantissa * (2 : ℚ) ^ number.exponent

/-- A number is finite when its mantissa and its exponent are no larger than those of the largest number. -/
structure Finite (number : Binary64) : Prop where
  mantissa : number.mantissa < 2 ^ 53
  exponent : number.exponent ≤ 971

theorem scale_pos {base : Nat} (positive : 0 < base) (power : Int) {fraction : Nat × Nat}
    (sound : 0 < fraction.2) : 0 < (scale base power fraction).2 := by
  rw [scale]
  split
  · exact sound
  · exact Nat.mul_pos sound (Nat.pow_pos positive)

theorem ratio_scale {base : Nat} (positive : 0 < base) (power : Int) (fraction : Nat × Nat) :
    ratio (scale base power fraction) = ratio fraction * (base : ℚ) ^ power := by
  have nonzero : (base : ℚ) ≠ 0 := by exact_mod_cast positive.ne'
  rw [scale, ratio, ratio]
  split
  · next up =>
    obtain ⟨count, rfl⟩ := Int.eq_ofNat_of_zero_le up
    simp only [Int.toNat_natCast, zpow_natCast, Nat.cast_mul, Nat.pow_eq, Nat.cast_pow]
    ring
  · next down =>
    obtain ⟨count, rfl⟩ : ∃ count : Nat, power = -(count : Int) := ⟨(-power).toNat, by omega⟩
    simp only [Int.neg_neg, Int.toNat_natCast, zpow_neg, zpow_natCast, Nat.cast_mul, Nat.pow_eq, Nat.cast_pow]
    field_simp

theorem ratio_fraction (number : Binary64) : ratio number.fraction = number.size := by
  rw [fraction, ratio_scale Nat.two_pos, size, ratio]
  simp

theorem fraction_pos (number : Binary64) : 0 < number.fraction.2 :=
  scale_pos Nat.two_pos _ Nat.one_pos

/-- A fraction is compared with one by its parts. -/
theorem ratio_lt_one_iff {fraction : Nat × Nat} (sound : 0 < fraction.2) :
    ratio fraction < 1 ↔ fraction.1 < fraction.2 := by
  have positive : (0 : ℚ) < fraction.2 := by exact_mod_cast sound
  rw [ratio, div_lt_one positive]
  exact_mod_cast Iff.rfl

/-- A rounded quotient is off by no more than a half. -/
theorem roundQuotient_bounds (numerator : Nat) {denominator : Nat} (positive : 0 < denominator) :
    (roundQuotient numerator denominator : ℚ) ≤ ratio (numerator, denominator) + 1 / 2 ∧
      ratio (numerator, denominator) ≤ roundQuotient numerator denominator + 1 / 2 := by
  have split := Nat.div_add_mod numerator denominator
  have small := Nat.mod_lt numerator positive
  have bounds : 2 * (denominator * roundQuotient numerator denominator) ≤ 2 * numerator + denominator ∧
      2 * numerator ≤ 2 * (denominator * roundQuotient numerator denominator) + denominator := by
    rw [roundQuotient]
    generalize numerator / denominator = quotient at split
    generalize numerator % denominator = remainder at split small
    split_ifs with low high
    · constructor <;> omega
    · rw [Nat.mul_add]
      constructor <;> omega
    · rcases Nat.mod_two_eq_zero_or_one quotient with even | odd
      · rw [even]
        constructor <;> simp only [Nat.add_zero] <;> omega
      · rw [odd, Nat.mul_add]
        constructor <;> omega
  have below : (0 : ℚ) < denominator := by exact_mod_cast positive
  have upper : (2 : ℚ) * (denominator * roundQuotient numerator denominator) ≤ 2 * numerator + denominator := by
    exact_mod_cast bounds.1
  have lower : (2 : ℚ) * numerator ≤ 2 * (denominator * roundQuotient numerator denominator) + denominator := by
    exact_mod_cast bounds.2
  rw [ratio]
  constructor
  · rw [div_add_div _ _ below.ne' two_ne_zero, le_div_iff₀ (by positivity)]
    linarith
  · rw [div_le_iff₀ below]
    linarith

/-- A positive whole number lies between the power of two of its logarithm and the next one. -/
theorem log2_bounds {number : Nat} (positive : 0 < number) :
    (2 : ℚ) ^ (number.log2 : Int) ≤ number ∧ (number : ℚ) < 2 ^ ((number.log2 : Int) + 1) := by
  constructor
  · rw [zpow_natCast]
    exact_mod_cast Nat.log2_self_le positive.ne'
  · have above : number < 2 ^ (number.log2 + 1) := Nat.lt_log2_self
    exact_mod_cast above

/-- What a fraction is rounded to: it lies between two powers of two, which give the exponent, and the mantissa is
off by no more than a half. -/
theorem ofFraction_spec (negative : Bool) {numerator denominator : Nat} (positive : 0 < numerator)
    (sound : 0 < denominator) :
    ∃ (magnitude exponent : Int) (mantissa : Nat), exponent = max (magnitude - 52) (-1074) ∧
      (2 : ℚ) ^ magnitude ≤ ratio (numerator, denominator) ∧
        ratio (numerator, denominator) < 2 ^ (magnitude + 1) ∧
          (mantissa : ℚ) ≤ ratio (numerator, denominator) * 2 ^ (-exponent) + 1 / 2 ∧
            ratio (numerator, denominator) * 2 ^ (-exponent) ≤ mantissa + 1 / 2 ∧
              ofFraction negative numerator denominator =
                if mantissa = 0x20000000000000 then
                  if 971 < exponent + 1 then none else some ⟨negative, 0x10000000000000, exponent + 1⟩
                else if 971 < exponent then none else some ⟨negative, mantissa, exponent⟩ := by
  obtain ⟨topLow, topHigh⟩ := log2_bounds positive
  obtain ⟨bottomLow, bottomHigh⟩ := log2_bounds sound
  have below : (0 : ℚ) < denominator := by exact_mod_cast sound
  set guess : Int := (Nat.log2 numerator : Int) - (Nat.log2 denominator : Int) with guessed
  have above : ratio (numerator, denominator) < 2 ^ (guess + 1) := by
    rw [ratio, div_lt_iff₀ below]
    calc (numerator : ℚ) < 2 ^ ((numerator.log2 : Int) + 1) := topHigh
      _ = 2 ^ (guess + 1) * 2 ^ (denominator.log2 : Int) := by
        rw [← zpow_add₀ two_ne_zero]
        congr 1
        omega
      _ ≤ 2 ^ (guess + 1) * denominator := mul_le_mul_of_nonneg_left bottomLow (by positivity)
  have under : (2 : ℚ) ^ (guess - 1) ≤ ratio (numerator, denominator) := by
    rw [ratio, le_div_iff₀ below]
    calc (2 : ℚ) ^ (guess - 1) * denominator
        ≤ 2 ^ (guess - 1) * 2 ^ ((denominator.log2 : Int) + 1) :=
          mul_le_mul_of_nonneg_left bottomHigh.le (by positivity)
      _ = 2 ^ (numerator.log2 : Int) := by
        rw [← zpow_add₀ two_ne_zero]
        congr 1
        omega
      _ ≤ numerator := topLow
  have scaled : ratio (scale 2 (-guess) (numerator, denominator)) =
      ratio (numerator, denominator) * 2 ^ (-guess) := ratio_scale Nat.two_pos _ _
  have compares : (scale 2 (-guess) (numerator, denominator)).1 < (scale 2 (-guess) (numerator, denominator)).2 ↔
      ratio (numerator, denominator) < 2 ^ guess := by
    rw [← ratio_lt_one_iff (scale_pos Nat.two_pos _ sound), scaled, zpow_neg, ← div_eq_mul_inv,
      div_lt_one (by positivity)]
  set whole := scale 2 (-guess) (numerator, denominator) with wholeIs
  set magnitude : Int := if whole.1 < whole.2 then guess - 1 else guess with magnitudeIs
  set exponent : Int := max (magnitude - 52) (-1074) with exponentIs
  have scaledSound : 0 < (scale 2 (-exponent) (numerator, denominator)).2 := scale_pos Nat.two_pos _ sound
  have roundsTo := roundQuotient_bounds (scale 2 (-exponent) (numerator, denominator)).1 scaledSound
  have exact : ratio (scale 2 (-exponent) (numerator, denominator)) =
      ratio (numerator, denominator) * 2 ^ (-exponent) := ratio_scale Nat.two_pos _ _
  rw [Prod.mk.eta, exact] at roundsTo
  refine ⟨magnitude, exponent, _, rfl, ?_, ?_, roundsTo.1, roundsTo.2, ?_⟩
  · rw [magnitudeIs]
    split
    · exact under
    · next large => exact le_of_not_gt fun small => large (compares.mpr small)
  · rw [magnitudeIs]
    split
    · next small =>
      rw [Int.sub_add_cancel]
      exact compares.mp small
    · exact above
  · rw [ofFraction, if_neg positive.ne']
    simp only [← guessed, ← wholeIs, ← magnitudeIs, ← exponentIs]
    split <;> rfl

variable {negative : Bool} {numerator denominator : Nat} {number : Binary64}

theorem ofFraction_zero : ofFraction negative 0 denominator = some ⟨negative, 0, -1074⟩ :=
  rfl

/-- A rounded fraction is off by no more than half of the last place of its mantissa. -/
theorem size_of_ofFraction (positive : 0 < numerator) (sound : 0 < denominator)
    (rounded : ofFraction negative numerator denominator = some number) :
    ∃ magnitude exponent : Int, exponent = max (magnitude - 52) (-1074) ∧
      (2 : ℚ) ^ magnitude ≤ ratio (numerator, denominator) ∧
        ratio (numerator, denominator) < 2 ^ (magnitude + 1) ∧
          number.size ≤ ratio (numerator, denominator) + 2 ^ (exponent - 1) ∧
            ratio (numerator, denominator) ≤ number.size + 2 ^ (exponent - 1) := by
  obtain ⟨magnitude, exponent, mantissa, place, low, high, upper, lower, same⟩ :=
    ofFraction_spec negative positive sound
  have sized : number.size = mantissa * 2 ^ exponent := by
    rw [same] at rounded
    split_ifs at rounded with full large large
    · rw [← Option.some.inj rounded, size, full, zpow_add_one₀ two_ne_zero]
      norm_num
      ring
    · rw [← Option.some.inj rounded, size]
  have unscale (value : ℚ) : value * 2 ^ (-exponent) * 2 ^ exponent = value := by
    rw [mul_assoc, ← zpow_add₀ two_ne_zero, neg_add_cancel, zpow_zero, mul_one]
  have half : (1 / 2 : ℚ) * 2 ^ exponent = 2 ^ (exponent - 1) := by
    rw [zpow_sub_one₀ two_ne_zero]
    ring
  have unit : (0 : ℚ) ≤ 2 ^ exponent := by positivity
  refine ⟨magnitude, exponent, place, low, high, ?_, ?_⟩
  · have scaled := mul_le_mul_of_nonneg_right upper unit
    rwa [add_mul, unscale, half, ← sized] at scaled
  · have scaled := mul_le_mul_of_nonneg_right lower unit
    rwa [add_mul, unscale, half, ← sized] at scaled

/-- A fraction is rounded to a finite number, if to any. -/
theorem finite_of_ofFraction (sound : 0 < denominator)
    (rounded : ofFraction negative numerator denominator = some number) :
    number.Finite ∧ number.negative = negative := by
  rcases Nat.eq_zero_or_pos numerator with rfl | positive
  · rw [ofFraction_zero] at rounded
    rw [← Option.some.inj rounded]
    exact ⟨⟨by norm_num, by norm_num⟩, rfl⟩
  · obtain ⟨magnitude, exponent, mantissa, place, _, high, upper, _, same⟩ :=
      ofFraction_spec negative positive sound
    have bound : mantissa ≤ 2 ^ 53 := by
      have scaled : ratio (numerator, denominator) * 2 ^ (-exponent) < 2 ^ (53 : Int) := by
        calc ratio (numerator, denominator) * 2 ^ (-exponent)
            < 2 ^ (magnitude + 1) * 2 ^ (-exponent) := mul_lt_mul_of_pos_right high (by positivity)
          _ = 2 ^ (magnitude + 1 - exponent) := by rw [← zpow_add₀ two_ne_zero, sub_eq_add_neg]
          _ ≤ 2 ^ (53 : Int) := zpow_le_zpow_right₀ one_le_two (by omega)
      have whole : (mantissa : ℚ) < (2 ^ 53 + 1 : Nat) := by
        have power : (2 : ℚ) ^ (53 : Int) = 2 ^ 53 := zpow_natCast 2 53
        push_cast
        linarith
      exact Nat.lt_succ_iff.mp (by exact_mod_cast whole)
    rw [same] at rounded
    split_ifs at rounded with full large large
    · rw [← Option.some.inj rounded]
      exact ⟨⟨by norm_num, by dsimp only; omega⟩, rfl⟩
    · rw [← Option.some.inj rounded]
      exact ⟨⟨by dsimp only; omega, by dsimp only; omega⟩, rfl⟩

/-- This bound lies half a place above the largest number. -/
def overflow : ℚ :=
  2 ^ (1024 : Int) - 2 ^ (970 : Int)

/-- A fraction below the bound is rounded to a number. -/
theorem isSome_ofFraction (sound : 0 < denominator)
    (small : ratio (numerator, denominator) < overflow) :
    (ofFraction negative numerator denominator).isSome = true := by
  rcases Nat.eq_zero_or_pos numerator with rfl | positive
  · rfl
  · obtain ⟨magnitude, exponent, mantissa, place, low, _, upper, _, same⟩ :=
      ofFraction_spec negative positive sound
    have top : magnitude < 1024 := by
      have below : (2 : ℚ) ^ magnitude < 2 ^ (1024 : Int) := by
        calc (2 : ℚ) ^ magnitude ≤ ratio (numerator, denominator) := low
          _ < overflow := small
          _ < 2 ^ (1024 : Int) := sub_lt_self _ (by positivity)
      exact (zpow_lt_zpow_iff_right₀ one_lt_two).mp below
    rw [same]
    split_ifs with full large large
    · -- The mantissa would only be full above the largest number.
      have edge : exponent = 971 := by omega
      subst edge
      have scaled : ratio (numerator, denominator) * 2 ^ (-(971 : Int)) < overflow * 2 ^ (-(971 : Int)) :=
        mul_lt_mul_of_pos_right small (by positivity)
      rw [overflow, sub_mul, ← zpow_add₀ two_ne_zero, ← zpow_add₀ two_ne_zero] at scaled
      rw [full] at upper
      generalize ratio (numerator, denominator) * 2 ^ (-(971 : Int)) = value at upper scaled
      norm_num at upper scaled
      linarith
    · rfl
    · omega
    · rfl

/-- A fraction that is no less than one is rounded by no more than a part of it, and so keeps half of its value. -/
theorem size_bounds_of_ofFraction (sound : 0 < denominator) (large : 1 ≤ ratio (numerator, denominator))
    (rounded : ofFraction negative numerator denominator = some number) :
    number.size ≤ ratio (numerator, denominator) * (1 + 2 ^ (-53 : Int)) ∧
      ratio (numerator, denominator) / 2 ≤ number.size := by
  rcases Nat.eq_zero_or_pos numerator with rfl | positive
  · norm_num [ratio] at large
  · obtain ⟨magnitude, exponent, place, low, high, upper, lower⟩ := size_of_ofFraction positive sound rounded
    have order : 0 < magnitude + 1 := by
      have first : (2 : ℚ) ^ (0 : Int) < 2 ^ (magnitude + 1) := by
        rw [zpow_zero]
        exact large.trans_lt high
      exact (zpow_lt_zpow_iff_right₀ one_lt_two).mp first
    have last : (2 : ℚ) ^ (exponent - 1) ≤ 2 ^ magnitude * 2 ^ (-53 : Int) := by
      rw [← zpow_add₀ two_ne_zero]
      exact zpow_le_zpow_right₀ one_le_two (by omega)
    have part : (2 : ℚ) ^ magnitude * 2 ^ (-53 : Int) ≤ ratio (numerator, denominator) * 2 ^ (-53 : Int) :=
      mul_le_mul_of_nonneg_right low (by positivity)
    have little : (2 : ℚ) ^ (-53 : Int) ≤ 1 / 2 := by norm_num
    have half : ratio (numerator, denominator) * 2 ^ (-53 : Int) ≤ ratio (numerator, denominator) * (1 / 2) :=
      mul_le_mul_of_nonneg_left little (by linarith)
    constructor
    · have off := last.trans part
      rw [mul_add, mul_one]
      linarith
    · have off := (last.trans part).trans half
      linarith

end Rounding

variable {negative : Bool} {number ten : Binary64} {significand power : Nat}

theorem ratio_one (numerator : Nat) : ratio (numerator, 1) = numerator := by
  rw [ratio, Nat.cast_one, div_one]

theorem ratio_mul (first second : Nat × Nat) :
    ratio (first.1 * second.1, first.2 * second.2) = ratio first * ratio second := by
  rw [ratio, ratio, ratio, Nat.cast_mul, Nat.cast_mul, mul_div_mul_comm]

theorem ratio_div (first second : Nat × Nat) :
    ratio (first.1 * second.2, first.2 * second.1) = ratio first / ratio second := by
  rw [ratio, ratio, ratio, Nat.cast_mul, Nat.cast_mul, div_div_div_eq]

/-- A whole number that is not too large is rounded to a number. -/
theorem ofFraction_whole (negative : Bool) {whole : Nat} (positive : 0 < whole) (small : (whole : ℚ) < overflow) :
    ∃ number, ofFraction negative whole 1 = some number ∧
      number.size ≤ whole * (1 + 2 ^ (-53 : Int)) ∧ (whole : ℚ) / 2 ≤ number.size := by
  obtain ⟨number, rounded⟩ := Option.isSome_iff_exists.mp
    (isSome_ofFraction Nat.one_pos (by rwa [ratio_one]) : (ofFraction negative whole 1).isSome = true)
  have large : 1 ≤ ratio (whole, 1) := by
    rw [ratio_one]
    exact_mod_cast positive
  have bounds := size_bounds_of_ofFraction Nat.one_pos large rounded
  rw [ratio_one] at bounds
  exact ⟨number, rounded, bounds⟩

theorem power_le_overflow : (2 : ℚ) ^ (1023 : Int) ≤ overflow := by
  have less : (2 : ℚ) ^ (970 : Int) ≤ 2 ^ (1023 : Int) := zpow_le_zpow_right₀ one_le_two (by decide)
  have double : (2 : ℚ) ^ (1024 : Int) = 2 ^ (1023 : Int) + 2 ^ (1023 : Int) := by
    rw [← mul_two]
    exact zpow_add_one₀ two_ne_zero 1023
  rw [overflow, double, add_sub_assoc]
  exact le_add_of_nonneg_right (sub_nonneg.mpr less)

theorem cast_power (power : Nat) : ((10 ^ power : Nat) : ℚ) = 10 ^ power := by
  rw [Nat.cast_pow, Nat.cast_ofNat]

theorem unit_pos (power : Nat) : 0 < 10 ^ power :=
  Nat.pow_pos (by decide)

theorem unit_le_unit (most : Nat) (less : power ≤ most) : 10 ^ power ≤ 10 ^ most :=
  Nat.pow_le_pow_right (by decide) less

theorem unit_le_mul (first second : Nat) (less : power ≤ first + second) : 10 ^ power ≤ 10 ^ first * 10 ^ second := by
  rw [← Nat.pow_add]
  exact unit_le_unit _ less

/-- This is the largest number that is written with seventeen digits. -/
def widest : Nat :=
  17976931348623157 * 10 ^ 292

/-- This is the largest number without its last two digits. -/
def shortened : Nat :=
  1797693134862315 * 10 ^ 293

theorem widest_lt : widest < 10 ^ 309 := by
  have unit := unit_pos 292
  rw [show 309 = 17 + 292 from rfl, Nat.pow_add, widest]
  omega

theorem shortened_le_widest : shortened ≤ widest := by
  rw [shortened, widest, Nat.pow_succ]
  omega

theorem widest_lt_succ : widest < (1797693134862315 + 1) * 10 ^ 293 := by
  have unit := unit_pos 292
  rw [widest, Nat.pow_succ]
  omega

theorem full_le_shortened : 10 ^ 17 * 10 ^ 291 ≤ shortened := by
  rw [shortened, Nat.pow_succ, Nat.pow_succ]
  omega

theorem unit_le_shortened (small : power ≤ 308) : 10 ^ power ≤ shortened :=
  (unit_le_mul 17 291 small).trans full_le_shortened

/-- The shortened number stays below the bound when it grows twice by what a rounding may add. -/
theorem grown_lt_overflow {whole : Nat} (small : whole ≤ shortened) :
    (whole : ℚ) * (1 + 2 ^ (-53 : Int)) * (1 + 2 ^ (-53 : Int)) < overflow := by
  have room : shortened * (2 ^ 53 + 1) ^ 2 + 2 ^ 970 * 2 ^ 106 < 2 ^ 1024 * 2 ^ 106 := by decide +kernel
  have cast : ((whole * (2 ^ 53 + 1) ^ 2 + 2 ^ 970 * 2 ^ 106 : Nat) : ℚ) < (2 ^ 1024 * 2 ^ 106 : Nat) :=
    Nat.cast_lt.mpr (lt_of_le_of_lt (Nat.add_le_add_right (Nat.mul_le_mul_right _ small) _) room)
  have unit : ((2 ^ 53 + 1 : Nat) : ℚ) = (1 + 2 ^ (-53 : Int)) * 2 ^ 53 := by norm_num
  have square : ((2 : ℚ) ^ 53) ^ 2 = 2 ^ 106 := by norm_num
  rw [Nat.cast_add, Nat.cast_mul, Nat.cast_mul, Nat.cast_mul, Nat.cast_pow (2 ^ 53 + 1), unit, mul_pow, square,
    ← mul_assoc, Nat.cast_pow, Nat.cast_pow, Nat.cast_pow, Nat.cast_ofNat, ← add_mul] at cast
  have below := lt_of_mul_lt_mul_right cast (by positivity)
  rw [sq, ← mul_assoc] at below
  rw [overflow, lt_sub_iff_add_lt, zpow_ofNat, zpow_ofNat]
  exact below

theorem whole_lt_overflow {whole : Nat} (small : whole ≤ shortened) : (whole : ℚ) < overflow := by
  have part : (1 : ℚ) ≤ 1 + 2 ^ (-53 : Int) := le_add_of_nonneg_right (by positivity)
  have grown : (whole : ℚ) ≤ whole * (1 + 2 ^ (-53 : Int)) := le_mul_of_one_le_right (by positivity) part
  exact (grown.trans (le_mul_of_one_le_right (by positivity) part)).trans_lt (grown_lt_overflow small)

/-- The powers of ten that a number may be multiplied by are rounded to numbers. -/
theorem ofFraction_power (small : power ≤ 308) :
    ∃ ten, ofFraction false (10 ^ power) 1 = some ten ∧
      ten.size ≤ 10 ^ power * (1 + 2 ^ (-53 : Int)) ∧ (10 : ℚ) ^ power / 2 ≤ ten.size := by
  rw [← cast_power]
  exact ofFraction_whole false (unit_pos power) (whole_lt_overflow (unit_le_shortened small))

theorem isSome_timesPower (small : power ≤ 308)
    (fits : number.size * (10 ^ power * (1 + 2 ^ (-53 : Int))) < overflow) :
    (number.timesPower power).isSome = true := by
  obtain ⟨ten, rounded, upper, _⟩ := ofFraction_power small
  have positive : 0 ≤ number.size := by
    rw [size]
    positivity
  rw [timesPower, Nat.pow_eq, rounded]
  refine isSome_ofFraction (Nat.mul_pos number.fraction_pos ten.fraction_pos) ?_
  rw [ratio_mul, ratio_fraction, ratio_fraction]
  exact (mul_le_mul_of_nonneg_left upper positive).trans_lt fits

/-- A fraction below a power of two is rounded to no more than the next one. -/
theorem size_le_of_ofFraction {numerator denominator : Nat} {bound : Int} (sound : 0 < denominator)
    (large : 0 ≤ bound) (below : ratio (numerator, denominator) < 2 ^ bound)
    (rounded : ofFraction negative numerator denominator = some number) : number.size ≤ 2 ^ (bound + 1) := by
  rcases Nat.eq_zero_or_pos numerator with rfl | positive
  · rw [ofFraction_zero] at rounded
    rw [← Option.some.inj rounded, size]
    simp only [Nat.cast_zero, zero_mul]
    positivity
  · obtain ⟨magnitude, exponent, place, low, _, upper, _⟩ := size_of_ofFraction positive sound rounded
    have order : magnitude < bound := (zpow_lt_zpow_iff_right₀ one_lt_two).mp (low.trans_lt below)
    have last : (2 : ℚ) ^ (exponent - 1) ≤ 2 ^ bound := zpow_le_zpow_right₀ one_le_two (by omega)
    have double : (2 : ℚ) ^ (bound + 1) = 2 ^ bound * 2 := zpow_add_one₀ two_ne_zero _
    linarith

theorem half_le_power (rounded : ofFraction false (10 ^ power) 1 = some ten) : 1 / 2 ≤ ten.size := by
  have one : (1 : ℚ) ≤ ratio (10 ^ power, 1) := by
    rw [ratio_one, cast_power]
    exact one_le_pow₀ (by norm_num)
  have half := (size_bounds_of_ofFraction Nat.one_pos one rounded).2
  linarith

theorem power_pos (rounded : ofFraction false (10 ^ power) 1 = some ten) : 0 < ten.fraction.1 := by
  have half := half_le_power rounded
  rw [← ratio_fraction] at half
  refine Nat.pos_of_ne_zero fun zero => ?_
  rw [ratio, zero] at half
  norm_num at half

/-- A number that is divided by a power of ten is at most four times as large, for all that is known of the rounding. -/
theorem overPower_spec {bound : Int} (small : power ≤ 308) (large : 0 ≤ bound) (room : bound < 1000)
    (below : number.size < 2 ^ bound) :
    ∃ smaller, number.overPower power = some smaller ∧ smaller.size ≤ 2 ^ (bound + 2) := by
  obtain ⟨ten, rounded, _, _⟩ := ofFraction_power small
  have half := half_le_power rounded
  have tenPositive := power_pos rounded
  have quotient : ratio (number.fraction.1 * ten.fraction.2, number.fraction.2 * ten.fraction.1) <
      2 ^ (bound + 1) := by
    rw [ratio_div, ratio_fraction, ratio_fraction, div_lt_iff₀ (by linarith), zpow_add_one₀ two_ne_zero]
    have scaled : (2 : ℚ) ^ bound * 2 * (1 / 2) ≤ 2 ^ bound * 2 * ten.size :=
      mul_le_mul_of_nonneg_left half (by positivity)
    linarith
  have sound := Nat.mul_pos number.fraction_pos tenPositive
  have less : (2 : ℚ) ^ (bound + 1) ≤ 2 ^ (1023 : Int) := zpow_le_zpow_right₀ one_le_two (by omega)
  have fits : ratio (number.fraction.1 * ten.fraction.2, number.fraction.2 * ten.fraction.1) < overflow :=
    quotient.trans_le (less.trans power_le_overflow)
  obtain ⟨smaller, divided⟩ := Option.isSome_iff_exists.mp (isSome_ofFraction sound fits :
    (ofFraction number.negative (number.fraction.1 * ten.fraction.2) (number.fraction.2 * ten.fraction.1)).isSome =
      true)
  have bounded := size_le_of_ofFraction sound (by omega) quotient divided
  have next : bound + 1 + 1 = bound + 2 := by omega
  rw [next] at bounded
  refine ⟨smaller, ?_, bounded⟩
  rw [overPower, Nat.pow_eq, rounded, Option.bind_eq_bind, Option.bind_some]
  exact divided

/-- A number that is not too large can be divided by any power of ten. -/
theorem isSome_shrink (steps : Nat) : ∀ {number : Binary64} {power : Nat} {bound : Int}, 0 ≤ bound →
    bound + 3 * steps < 1000 → number.size < 2 ^ bound → (shrink steps number power).isSome = true := by
  induction steps with
  | zero => exact fun _ _ _ => rfl
  | succ steps inductionHypothesis =>
    intro number power bound large room below
    rw [shrink]
    split
    · next small =>
      obtain ⟨smaller, divided, _⟩ := overPower_spec small large (by omega) below
      rw [divided]
      rfl
    · split
      · rfl
      · obtain ⟨smaller, divided, bounded⟩ := overPower_spec (Nat.le_refl 308) large (by omega) below
        rw [divided]
        have next : (2 : ℚ) ^ (bound + 2) < 2 ^ (bound + 3) := zpow_lt_zpow_right₀ one_lt_two (by omega)
        exact inductionHypothesis (by omega) (by push_cast at room; omega) (bounded.trans_lt next)

/-- Digits that need no more than seventeen places are rounded to a number. -/
theorem ofFraction_digits (negative : Bool) (digits : significand ≤ 10 ^ 17) :
    ∃ start, ofFraction negative significand 1 = some start ∧
      start.size ≤ significand * (1 + 2 ^ (-53 : Int)) := by
  rcases Nat.eq_zero_or_pos significand with rfl | positive
  · exact ⟨_, ofFraction_zero, by simp [size]⟩
  · have small : significand ≤ shortened := digits.trans (unit_le_shortened (by decide))
    obtain ⟨start, rounded, upper, _⟩ := ofFraction_whole negative positive (whole_lt_overflow small)
    exact ⟨start, rounded, upper⟩

/-- Digits can be moved any number of places to the right. -/
theorem isSome_ofDecimal_down {exponent : Int} (digits : significand ≤ 10 ^ 17) (down : exponent < 0) :
    (ofDecimal negative significand exponent).isSome = true := by
  obtain ⟨start, rounded, upper⟩ := ofFraction_digits negative digits
  have below : start.size < 2 ^ (58 : Int) := by
    have bound : (significand : ℚ) ≤ 10 ^ 17 := by exact_mod_cast digits
    calc start.size ≤ significand * (1 + 2 ^ (-53 : Int)) := upper
      _ ≤ 10 ^ 17 * (1 + 2 ^ (-53 : Int)) := mul_le_mul_of_nonneg_right bound (by positivity)
      _ < 2 ^ (58 : Int) := by norm_num
  rw [ofDecimal, rounded, Option.bind_eq_bind, Option.bind_some, if_neg (by omega)]
  exact isSome_shrink 4 (by decide) (by decide) below

/-- Digits far enough below the largest number can be moved to the left: what is lost in rounding them and the power
of ten does not carry them over the bound. -/
theorem isSome_ofDecimal_low (digits : significand ≤ 10 ^ 17) (small : power ≤ 308)
    (low : significand * 10 ^ power ≤ shortened) :
    (ofDecimal negative significand power).isSome = true := by
  obtain ⟨start, rounded, upper⟩ := ofFraction_digits negative digits
  rw [ofDecimal, rounded, Option.bind_eq_bind, Option.bind_some, if_pos (by omega), if_pos (by omega),
    Int.toNat_natCast]
  refine isSome_timesPower small ?_
  have cast : (significand : ℚ) * 10 ^ power ≤ shortened := by
    rw [← cast_power, ← Nat.cast_mul]
    exact Nat.cast_le.mpr low
  have part : (0 : ℚ) ≤ 1 + 2 ^ (-53 : Int) := by positivity
  calc start.size * (10 ^ power * (1 + 2 ^ (-53 : Int)))
      ≤ significand * (1 + 2 ^ (-53 : Int)) * (10 ^ power * (1 + 2 ^ (-53 : Int))) :=
        mul_le_mul_of_nonneg_right upper (by positivity)
    _ = significand * 10 ^ power * (1 + 2 ^ (-53 : Int)) * (1 + 2 ^ (-53 : Int)) := by ring
    _ ≤ shortened * (1 + 2 ^ (-53 : Int)) * (1 + 2 ^ (-53 : Int)) :=
        mul_le_mul_of_nonneg_right (mul_le_mul_of_nonneg_right cast part) part
    _ < overflow := grown_lt_overflow (Nat.le_refl _)

/-- The last digits below the largest number are rounded one by one. -/
theorem isSome_ofDecimal_high (negative : Bool) : ∀ last < 7,
    (ofDecimal negative (17976931348623151 + last) 292).isSome = true := by
  cases negative <;> decide +kernel

/-- Only digits that start in one place can come close to the largest number: those before it are too few, and those
behind it are whole. -/
theorem low_of_ne (digits : significand ≤ 10 ^ 17) (bound : significand * 10 ^ power ≤ widest)
    (elsewhere : power ≠ 292) : significand * 10 ^ power ≤ shortened := by
  rcases Nat.lt_or_gt_of_ne elsewhere with less | more
  · have unit : 10 ^ power ≤ 10 ^ 291 := unit_le_unit 291 (Nat.le_of_lt_succ less)
    exact (Nat.mul_le_mul digits unit).trans full_le_shortened
  · obtain ⟨further, rfl⟩ : ∃ further, power = further + 293 := ⟨power - 293, by omega⟩
    rw [pow_add, ← Nat.mul_assoc] at bound ⊢
    rw [shortened]
    have whole (unit : Nat) (lower : significand * 10 ^ further * unit ≤ widest)
        (upper : widest < (1797693134862315 + 1) * unit) : significand * 10 ^ further ≤ 1797693134862315 :=
      Nat.le_of_lt_succ (Nat.lt_of_mul_lt_mul_right (lt_of_le_of_lt lower upper))
    exact Nat.mul_le_mul_right _ (whole _ bound widest_lt_succ)

/-- Digits up to those of the largest number can be moved to the left. -/
theorem isSome_ofDecimal_up (digits : significand ≤ 10 ^ 17) (bound : significand * 10 ^ power ≤ widest) :
    (ofDecimal negative significand power).isSome = true := by
  rcases Nat.eq_zero_or_pos significand with rfl | positive
  · by_cases small : power ≤ 308
    · exact isSome_ofDecimal_low digits small (by rw [Nat.zero_mul]; exact Nat.zero_le _)
    · rw [ofDecimal, ofFraction_zero, Option.bind_eq_bind, Option.bind_some, if_pos (by omega),
        if_neg (by omega)]
      rfl
  · have small : power ≤ 308 := by
      have grows (least : Nat) (less : least ≤ power) : 10 ^ least ≤ significand * 10 ^ power :=
        (unit_le_unit power less).trans (Nat.le_mul_of_pos_left _ positive)
      refine Nat.le_of_not_lt fun more => ?_
      exact absurd (lt_of_le_of_lt ((grows 309 more).trans bound) widest_lt) (Nat.lt_irrefl _)
    by_cases low : significand * 10 ^ power ≤ shortened
    · exact isSome_ofDecimal_low digits small low
    · have place : 292 = power := by
        refine Eq.symm (Decidable.byContradiction fun elsewhere => low ?_)
        exact low_of_ne digits bound elsewhere
      subst place
      have most : significand ≤ 17976931348623157 := Nat.le_of_mul_le_mul_right bound (unit_pos 292)
      have least : 17976931348623150 < significand := by
        refine Nat.lt_of_not_le fun few => low ?_
        have places : 17976931348623150 * 10 ^ 292 = shortened := by
          rw [shortened, Nat.pow_succ]
          omega
        rw [← places]
        exact Nat.mul_le_mul_right _ few
      obtain ⟨last, rfl⟩ := Nat.exists_eq_add_of_le least
      exact isSome_ofDecimal_high negative last (by omega)

theorem finite_of_timesPower {result : Binary64} (done : number.timesPower power = some result) :
    result.Finite := by
  obtain ⟨ten, _, rounded⟩ := Option.bind_eq_some_iff.mp done
  exact (finite_of_ofFraction (Nat.mul_pos number.fraction_pos ten.fraction_pos) rounded).1

theorem finite_of_overPower {result : Binary64} (done : number.overPower power = some result) :
    result.Finite := by
  obtain ⟨ten, power, rounded⟩ := Option.bind_eq_some_iff.mp done
  exact (finite_of_ofFraction (Nat.mul_pos number.fraction_pos (power_pos power)) rounded).1

theorem finite_of_shrink (steps : Nat) : ∀ {number result : Binary64} {power : Nat}, number.Finite →
    shrink steps number power = some result → result.Finite := by
  induction steps with
  | zero =>
    intro number result power finite done
    exact Option.some.inj done ▸ finite
  | succ steps inductionHypothesis =>
    intro number result power finite done
    rw [shrink] at done
    split at done
    · exact finite_of_overPower done
    · split at done
      · exact Option.some.inj done ▸ finite
      · obtain ⟨smaller, divided, rest⟩ := Option.bind_eq_some_iff.mp done
        exact inductionHypothesis (finite_of_overPower divided) rest

/-- Digits are rounded to finite numbers. -/
theorem finite_of_ofDecimal {exponent : Int} (rounded : ofDecimal negative significand exponent = some number) :
    number.Finite := by
  obtain ⟨start, first, rest⟩ := Option.bind_eq_some_iff.mp rounded
  have finite := (finite_of_ofFraction Nat.one_pos first).1
  split at rest
  · split at rest
    · exact finite_of_timesPower rest
    · split at rest
      · exact Option.some.inj rest ▸ finite
      · simp at rest
  · exact finite_of_shrink 4 finite rest

end ContractWorks.Binary64

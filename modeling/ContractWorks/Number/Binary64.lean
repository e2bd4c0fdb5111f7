namespace ContractWorks

/-- A finite binary floating-point number is a signed mantissa times a power of two. -/
structure Binary64 where
  negative : Bool
  mantissa : Nat
  exponent : Int
  deriving DecidableEq, Repr

namespace Binary64

/-- This function divides and rounds to the nearest whole number, a half to the even neighbour. -/
def roundQuotient (numerator denominator : Nat) : Nat :=
  let quotient := numerator / denominator
  let remainder := numerator % denominator
  if 2 * remainder < denominator then quotient
  else if denominator < 2 * remainder then quotient + 1
  else quotient + quotient % 2

/-- This function multiplies a fraction by a power of a base. -/
def scale (base : Nat) (power : Int) (fraction : Nat × Nat) : Nat × Nat :=
  if 0 ≤ power then (fraction.1 * Nat.pow base power.toNat, fraction.2)
  else (fraction.1, fraction.2 * Nat.pow base (-power).toNat)

/-- This function rounds a fraction to a mantissa of 53 bits; too large a value has none. -/
def ofFraction (negative : Bool) (numerator denominator : Nat) : Option Binary64 :=
  if numerator = 0 then some ⟨negative, 0, -1074⟩
  else
    let guess : Int := (Nat.log2 numerator : Int) - (Nat.log2 denominator : Int)
    let whole := scale 2 (-guess) (numerator, denominator)
    let magnitude := if whole.1 < whole.2 then guess - 1 else guess
    let exponent := max (magnitude - 52) (-1074)
    let scaled := scale 2 (-exponent) (numerator, denominator)
    let mantissa := roundQuotient scaled.1 scaled.2
    let (mantissa, exponent) :=
      if mantissa = 0x20000000000000 then (0x10000000000000, exponent + 1) else (mantissa, exponent)
    if 971 < exponent then none else some ⟨negative, mantissa, exponent⟩

/-- This function gives the value without its sign as a fraction. -/
def fraction (number : Binary64) : Nat × Nat :=
  scale 2 number.exponent (number.mantissa, 1)

/-- This function multiplies a number by a power of ten that is itself rounded first. -/
def timesPower (number : Binary64) (power : Nat) : Option Binary64 := do
  let ten ← ofFraction false (Nat.pow 10 power) 1
  let left := number.fraction
  let right := ten.fraction
  ofFraction number.negative (left.1 * right.1) (left.2 * right.2)

/-- This function divides a number by a power of ten that is itself rounded first. -/
def overPower (number : Binary64) (power : Nat) : Option Binary64 := do
  let ten ← ofFraction false (Nat.pow 10 power) 1
  let left := number.fraction
  let right := ten.fraction
  ofFraction number.negative (left.1 * right.2) (left.2 * right.1)

/-- This function divides by large powers of ten until the rest of the exponent has a rounded power. -/
def shrink : Nat → Binary64 → Nat → Option Binary64
  | 0, number, _ => some number
  | steps + 1, number, power =>
    if power ≤ 308 then number.overPower power
    else if number.mantissa = 0 then some number
    else do
      let smaller ← number.overPower 308
      shrink steps smaller (power - 308)

/-- This function reads leading digits and a power of ten: the digits are rounded first, the scaled value
second. Too large a value has no result. -/
def ofDecimal (negative : Bool) (significand : Nat) (exponent : Int) : Option Binary64 := do
  let start ← ofFraction negative significand 1
  if 0 ≤ exponent then
    if exponent ≤ 308 then start.timesPower exponent.toNat
    else if significand = 0 then some start
    else none
  else shrink 4 start (-exponent).toNat

/-- This function looks for the power of ten at or below a positive fraction, from a guess upward. -/
def decimalMagnitude (fraction : Nat × Nat) : Nat → Int → Int
  | 0, guess => guess
  | steps + 1, guess =>
    let next := scale 10 (-(guess + 1)) fraction
    if next.1 < next.2 then guess else decimalMagnitude fraction steps (guess + 1)

/-- This function counts the decimal digits of a number. -/
def digitCount (number : Nat) : Nat :=
  (Nat.toDigits 10 number).length

/-- This test asks whether a decimal reads back as the number: the decimal lies between the halves towards
the neighbours, which count when the mantissa is even. -/
def readsBack (number : Binary64) (digits : Nat) (power : Int) : Bool :=
  let quarter := 4 * number.mantissa
  let below := if number.mantissa = 0x10000000000000 && number.exponent != -1074 then 1 else 2
  let decimal := scale 2 (-(number.exponent - 2)) (scale 10 power (digits, 1))
  let low := (quarter - below) * decimal.2
  let high := (quarter + 2) * decimal.2
  if number.mantissa % 2 = 0 then low ≤ decimal.1 && decimal.1 ≤ high
  else low < decimal.1 && decimal.1 < high

/-- This function looks for the fewest digits that read back, and takes the nearer of two such decimals. -/
def shortestFrom (number : Binary64) (magnitude : Int) : Nat → Nat → Nat × Int
  | 0, count =>
    let power := magnitude - (count : Int) + 1
    let scaled := scale 10 (-power) number.fraction
    (roundQuotient scaled.1 scaled.2, power)
  | steps + 1, count =>
    let power := magnitude - (count : Int) + 1
    let scaled := scale 10 (-power) number.fraction
    let floor := scaled.1 / scaled.2
    let nearest := roundQuotient scaled.1 scaled.2
    let other := if nearest = floor then floor + 1 else floor
    if number.readsBack nearest power then (nearest, power)
    else if number.readsBack other power then (other, power)
    else shortestFrom number magnitude steps (count + 1)

/-- This function moves trailing zeros of the digits into the power of ten. -/
def dropZeros : Nat → Nat → Int → Nat × Int
  | 0, digits, power => (digits, power)
  | steps + 1, digits, power =>
    if digits % 10 = 0 && digits != 0 then dropZeros steps (digits / 10) (power + 1)
    else (digits, power)

/-- This function gives the shortest digits of a number and their power of ten. -/
def shortest (number : Binary64) : Nat × Int :=
  if number.mantissa = 0 then (0, 0)
  else
    let fraction := number.fraction
    let guess : Int := (digitCount fraction.1 : Int) - (digitCount fraction.2 : Int) - 1
    let magnitude := decimalMagnitude fraction 3 guess
    let (digits, power) := shortestFrom number magnitude 16 1
    dropZeros 20 digits power

/-- This function writes digits that start at a given power of ten: positional from the fifth place after
the point to sixteen places before it, with an exponent elsewhere. -/
def layout (digits : List Char) (power : Int) : List Char :=
  let point : Int := (digits.length : Int) + power
  if 0 ≤ power ∧ point ≤ 16 then digits ++ List.replicate power.toNat '0' ++ ['.', '0']
  else if 0 < point ∧ point ≤ 16 then
    digits.take point.toNat ++ ['.'] ++ digits.drop point.toNat
  else if -5 < point ∧ point ≤ 0 then
    ['0', '.'] ++ List.replicate (-point).toNat '0' ++ digits
  else
    let exponent := point - 1
    let sign := if exponent < 0 then '-' else '+'
    let mantissa :=
      match digits with
      | [] => []
      | [single] => [single]
      | first :: rest => first :: '.' :: rest
    mantissa ++ ['e', sign] ++ Nat.toDigits 10 exponent.natAbs

/-- This function writes a number with the fewest digits that read back. -/
def text (number : Binary64) : String :=
  let (digits, power) := number.shortest
  let sign := if number.negative then ['-'] else []
  String.ofList (sign ++ layout (Nat.toDigits 10 digits) power)

end Binary64

end ContractWorks

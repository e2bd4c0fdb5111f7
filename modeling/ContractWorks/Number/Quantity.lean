import ContractWorks.Number.Binary64

namespace ContractWorks

/-- A quantity is a floating-point number, or infinite, or no number at all. -/
inductive Quantity where
  | finite (value : Binary64)
  | infinite (negative : Bool)
  | undefined
  deriving DecidableEq, Repr

namespace Quantity

/-- This function gives the quantity nearest to digits times a power of ten. -/
def ofDecimal (negative : Bool) (digits : List Nat) (power : Int) : Quantity :=
  let significand := digits.foldl (fun value digit => value * 10 + digit) 0
  let magnitude : Int := (Binary64.digitCount significand : Int) + power
  if significand = 0 ∨ magnitude < -330 then .finite ⟨negative, 0, -1074⟩
  else if 310 < magnitude then .infinite negative
  else
    let fraction := Binary64.scale 10 power (significand, 1)
    match Binary64.ofFraction negative fraction.1 fraction.2 with
    | some value => .finite value
    | none => .infinite negative

/-- This function writes digits times a power of ten without an exponent. -/
def positional (digits : List Char) (power : Int) : List Char :=
  let point : Int := (digits.length : Int) + power
  if 0 ≤ power then digits ++ List.replicate power.toNat '0'
  else if 0 < point then digits.take point.toNat ++ ['.'] ++ digits.drop point.toNat
  else ['0', '.'] ++ List.replicate (-point).toNat '0' ++ digits

/-- This function writes a quantity with the fewest digits that read back, and without an exponent. -/
def text : Quantity → String
  | .finite value =>
    let (digits, power) := value.shortest
    let sign := if value.negative then ['-'] else []
    String.ofList (sign ++ positional (Nat.toDigits 10 digits) power)
  | .infinite negative => if negative then "-inf" else "inf"
  | .undefined => "NaN"

/-- This function rounds a quantity to the nearest whole number from zero up to a bound, a half upward. -/
def toNatUpTo (bound : Nat) : Quantity → Nat
  | .finite value =>
    if value.negative then 0
    else
      let (numerator, denominator) := value.fraction
      min bound ((2 * numerator + denominator) / (2 * denominator))
  | .infinite negative => if negative then 0 else bound
  | .undefined => 0

/-- This test asks whether a quantity is zero. -/
def isZero : Quantity → Bool
  | .finite value => value.mantissa = 0
  | _ => false

end Quantity

end ContractWorks

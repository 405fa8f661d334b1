/-! Finite binary floating point numbers of 64 bits, by exact arithmetic on naturals: rounding a
quotient to the nearest number, and the number that a decimal significand and a power of ten are
read as. -/
namespace SmtSession

/-- The number `± significand · 2 ^ exponent`. -/
structure Binary64 where
  negative : Bool
  significand : Nat
  exponent : Int
  deriving DecidableEq, Repr, Inhabited

namespace Binary64

/-- The quotient rounded to the nearest natural, a half to the even neighbour. -/
def roundQuotient (num den : Nat) : Nat :=
  let quotient := num / den
  let twice := 2 * (num % den)
  if twice < den ∨ (twice = den ∧ quotient % 2 = 0) then quotient else quotient + 1

/-- The quotient `num / den · 2 ^ (-exponent)` as a quotient of naturals. -/
def scaleDown (num den : Nat) (exponent : Int) : Nat × Nat :=
  if exponent ≤ 0 then (num <<< (-exponent).toNat, den) else (num, den <<< exponent.toNat)

def leastExponent : Int := -1074

def leastNormal : Nat := 0x10000000000000

/-- The exponent at which the quotient has a significand of 53 bits, or the least exponent. -/
def exponentOf (num den : Nat) : Int :=
  let guess : Int := (Nat.log2 num : Int) - Nat.log2 den - 52
  let (a, b) := scaleDown num den guess
  max (if a / b < leastNormal then guess - 1 else guess) leastExponent

/-- The number nearest to a quotient, unless that is beyond the largest number. -/
def round? (num den : Nat) : Option Binary64 :=
  if num = 0 then some ⟨false, 0, leastExponent⟩
  else
    let exponent := exponentOf num den
    let (a, b) := scaleDown num den exponent
    let rounded := roundQuotient a b
    let (significand, exponent) :=
      if rounded = 2 * leastNormal then (leastNormal, exponent + 1) else (rounded, exponent)
    if exponent ≤ 971 then some ⟨false, significand, exponent⟩ else none

def mul? (x y : Binary64) : Option Binary64 :=
  let (a, b) := scaleDown (x.significand * y.significand) 1 (-(x.exponent + y.exponent))
  round? a b

def div? (x y : Binary64) : Option Binary64 :=
  let (a, b) := scaleDown x.significand y.significand (y.exponent - x.exponent)
  round? a b

def powerOfTen? (n : Nat) : Option Binary64 := round? (Nat.pow 10 n) 1

/-- Divide by the power 308 of ten, rounding, until that was done so often or zero is reached. -/
def shrink? : Nat → Binary64 → Option Binary64
  | 0, x => some x
  | times + 1, x =>
    if x.significand = 0 then some x
    else (powerOfTen? 308).bind fun scale => (x.div? scale).bind (shrink? times)

/-- Multiply by a power of ten in rounded steps: one step within the power 308, and below −308 as
many steps of that size as leave a remainder within it. -/
def timesPowerOfTen? (x : Binary64) (power : Int) : Option Binary64 :=
  if 308 < power then if x.significand = 0 then some x else none
  else if 0 ≤ power then (powerOfTen? power.toNat).bind x.mul?
  else
    let size := power.natAbs
    let steps := (size - 1) / 308
    (shrink? steps x).bind fun small =>
      (powerOfTen? (size - 308 * steps)).bind small.div?

/-- The number that `± significand · 10 ^ power` is read as, unless it is too large. -/
def ofDecimal? (negative : Bool) (significand : Nat) (power : Int) : Option Binary64 :=
  ((round? significand 1).bind (·.timesPowerOfTen? power)).map fun x => { x with negative }

end Binary64

end SmtSession

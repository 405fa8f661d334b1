import SmtSession.Number.Binary64
import SmtSession.Number.Integer

/-! The shortest decimal that reads back as a given binary number, and its notation: positional
near one, with an exponent elsewhere, and always with a point or an exponent. -/
namespace SmtSession

structure Decimal where
  digits : Nat
  power : Int
  deriving DecidableEq, Repr, Inhabited

namespace Decimal

/-- Four times the significand of a number and of the two ends of the interval that rounds to it.
The lower gap is half as wide below a power of two. -/
def interval (x : Binary64) : Nat × Nat × Nat :=
  let center := 4 * x.significand
  let narrow := x.significand = Binary64.leastNormal ∧ Binary64.leastExponent < x.exponent
  let lowerGap := if narrow then 1 else 2
  (center - lowerGap, center, center + 2)

/-- The quotient of naturals that `units` quarters of the last place stand for, in units of
`10 ^ power`. -/
def inPower (x : Binary64) (power : Int) (units : Nat) : Nat × Nat :=
  let (num, den) := Binary64.scaleDown units 4 (-x.exponent)
  if power ≤ 0 then (num * Nat.pow 10 (-power).toNat, den) else (num, den * Nat.pow 10 power.toNat)

/-- Whether `digits · 10 ^ power` rounds to the number. The ends belong to an even significand. -/
def readsBack (x : Binary64) (power : Int) (digits : Nat) : Bool :=
  let (low, _, high) := interval x
  let (lowNum, lowDen) := inPower x power low
  let (highNum, highDen) := inPower x power high
  if x.significand % 2 = 0 then lowNum ≤ digits * lowDen && digits * highDen ≤ highNum
  else lowNum < digits * lowDen && digits * highDen < highNum

/-- The multiples of `10 ^ power` next to the number that read back, the nearer one first and of two
equally near the even one. -/
def neighbours (x : Binary64) (power : Int) : List Nat :=
  let (num, den) := inPower x power (interval x).2.1
  let below := num / den
  let nearest := Binary64.roundQuotient num den
  let candidates := if nearest = below then [below, below + 1] else [below + 1, below]
  candidates.filter fun digits => digits ≠ 0 && readsBack x power digits

def leadingPower (x : Binary64) : Int :=
  let guess : Int := ((Nat.log2 x.significand : Int) + x.exponent) * 30103 / 100000
  let reaches (power : Int) : Bool :=
    let (num, den) := inPower x power (4 * x.significand)
    den ≤ num
  if reaches (guess + 1) then guess + 1 else if reaches guess then guess else guess - 1

/-- Trailing zeros of the digits go into the power; `fuel` bounds their number. -/
def withoutZeros : Nat → Decimal → Decimal
  | 0, d => d
  | fuel + 1, d =>
    if d.digits % 10 = 0 ∧ d.digits ≠ 0 then withoutZeros fuel ⟨d.digits / 10, d.power + 1⟩ else d

/-- The nearest decimal among those with the fewest digits that read back. Seventeen digits always
do. -/
def shortest (x : Binary64) : Decimal :=
  if x.significand = 0 then ⟨0, 0⟩
  else
    let top := leadingPower x
    let found := (List.range 17).findSome? fun (n : Nat) =>
      (neighbours x (top - n)).head?.map fun digits => (⟨digits, top - n⟩ : Decimal)
    withoutZeros 20 (found.getD ⟨0, 0⟩)

/-- Positional from the fifth place after the point to the sixteenth before it. -/
def notation64 (d : Decimal) : List Char :=
  let digits := Numeral.decimal d.digits
  let top := d.power + digits.length - 1
  if d.digits = 0 then ['0', '.', '0']
  else if -5 ≤ top ∧ top ≤ 15 then
    if 0 ≤ d.power then digits ++ List.replicate d.power.toNat '0' ++ ['.', '0']
    else if 0 ≤ top then digits.take (top.toNat + 1) ++ '.' :: digits.drop (top.toNat + 1)
    else ['0', '.'] ++ List.replicate (-top - 1).toNat '0' ++ digits
  else
    let fraction := if digits.length = 1 then [] else '.' :: digits.drop 1
    digits.take 1 ++ fraction ++ 'e' :: (if top < 0 then '-' else '+') :: Numeral.decimal top.natAbs

end Decimal

/-- The shortest decimal of a number, with a minus sign where the number has one. -/
def Binary64.chars (x : Binary64) : List Char :=
  (if x.negative then ['-'] else []) ++ (Decimal.shortest x).notation64

end SmtSession

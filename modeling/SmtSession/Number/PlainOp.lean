import SmtSession.Number.Integer

/-! Machine arithmetic. The plain operators on machine integers are those that neither check nor wrap
by themselves. A build stops at the first whose result its type does not hold, or takes the results
of all of them modulo the size of the type. Where the surroundings of an operator keep it in range,
its place says why. -/
namespace SmtSession

/-- What becomes of a plain operator out of range. -/
inductive Build where
  | checked
  | wrapping
  deriving DecidableEq, Repr, Inhabited

/-- A plain operator on machine integers, with its operands. -/
inductive PlainOp where
  /-- The negation of a signed integer of 128 bits. -/
  | negate (x : Int)
  /-- The difference of two signed integers of 128 bits. -/
  | subtract (x y : Int)
  /-- The difference of two unsigned integers. -/
  | subtractUnsigned (x y : Nat)
  /-- A shift of 128 bits, to either side. -/
  | shift (amount : Nat)
  deriving DecidableEq, Repr

/-- What arithmetic gives, or the operator at which a checked build stops. -/
abbrev Checked : Type → Type := Except PlainOp

namespace PlainOp

/-- Whether the type holds the result; a shift is by fewer bits than there are. -/
def InRange : PlainOp → Prop
  | .negate x => Int128.InRange (-x)
  | .subtract x y => Int128.InRange (x - y)
  | .subtractUnsigned x y => y ≤ x
  | .shift amount => amount < 128

instance : (op : PlainOp) → Decidable op.InRange
  | .negate x => inferInstanceAs (Decidable (Int128.InRange (-x)))
  | .subtract x y => inferInstanceAs (Decidable (Int128.InRange (x - y)))
  | .subtractUnsigned x y => inferInstanceAs (Decidable (y ≤ x))
  | .shift amount => inferInstanceAs (Decidable (amount < 128))

variable {α : Type}

/-- Apply an operator, to a result that is taken modulo the size of the type. -/
def perform (build : Build) (op : PlainOp) (result : α) : Checked α :=
  match build with
  | .checked => if op.InRange then .ok result else .error op
  | .wrapping => .ok result

theorem perform_eq_ok (build : Build) {op : PlainOp} (inside : op.InRange) (result : α) :
    perform build op result = .ok result := by
  cases build with
  | checked => exact if_pos inside
  | wrapping => rfl

/-- Apply an operator whose place keeps it in range. -/
def within (op : PlainOp) (_ : op.InRange) (result : α) : α := result

end PlainOp

/-! ### Widths inside 128 bits -/

namespace Width

/-- The 128 bits that belong to the width: all of them from width 128 on. -/
def mask (width : UInt32) : BitVec 128 :=
  if wide : 128 ≤ width.toNat then BitVec.allOnes 128
  else
    have narrow : (PlainOp.shift width.toNat).InRange := Nat.lt_of_not_le wide
    let power := PlainOp.within _ narrow (BitVec.twoPow 128 width.toNat)
    have positive : (PlainOp.subtractUnsigned power.toNat 1).InRange :=
      (BitVec.toNat_twoPow_of_lt narrow).symm ▸ Nat.one_le_two_pow
    PlainOp.within _ positive (power - 1#128)

/-- The two's complement of the bits at the width, of all 128 bits at width 0 and from 128 on. The
difference may be out of range: no signed integer of 128 bits is 2¹²⁷. -/
def signed (build : Build) (bits : BitVec 128) (width : UInt32) : Checked Int :=
  if edge : width = 0 ∨ 128 ≤ width.toNat then .ok bits.toInt
  else
    have narrow : (PlainOp.shift width.toNat).InRange :=
      Nat.lt_of_not_le fun wide => edge (.inr wide)
    have positive : (PlainOp.subtractUnsigned width.toNat 1).InRange :=
      Nat.pos_of_ne_zero fun zero => edge (.inl (UInt32.toNat_inj.mp zero))
    let place := PlainOp.within _ positive (width.toNat - 1)
    have below : (PlainOp.shift place).InRange := Nat.lt_of_le_of_lt (Nat.sub_le ..) narrow
    if PlainOp.within _ below (bits.getLsbD place) then
      let power := PlainOp.within _ narrow (BitVec.twoPow 128 width.toNat)
      PlainOp.perform build (.subtract bits.toInt power.toInt) (bits - power).toInt
    else .ok bits.toInt

end Width

end SmtSession

import SmtSession.Proofs.CheckedArithmetic
import SmtSession.Proofs.Operators

/-! Operators at widths above 128. Of a result the last 128 bits are kept, so it is exact unless it
takes more than these; which results do is said for each operator. A signed comparison takes the
last bit kept for the sign, which at such a width it is not. -/
namespace SmtSession

namespace Width

variable {width : UInt32} {bits : BitVec 128}

theorem and_mask_wide (bits : BitVec 128) (wide : 128 ≤ width.toNat) :
    bits &&& mask width = bits := by
  rw [mask_eq, if_pos wide, BitVec.and_allOnes]

theorem toNat_eq_residue_mod {n : Int} (wide : 128 ≤ width.toNat)
    (same : (bits.toNat : Int) % 2 ^ 128 = n % 2 ^ 128) :
    bits.toNat = residue width.toNat n % 2 ^ 128 := by
  have divides : (2 : Int) ^ 128 ∣ 2 ^ width.toNat :=
    Int.natCast_dvd_natCast.mpr (Nat.pow_dvd_pow 2 wide)
  have longer : n % 2 ^ width.toNat % 2 ^ 128 = n % 2 ^ 128 := Int.emod_emod_of_dvd n divides
  have positive : 0 ≤ n % 2 ^ width.toNat :=
    Int.emod_nonneg _ (Int.ne_of_gt (Int.pow_pos (by decide)))
  have small := bits.isLt
  unfold residue
  omega

theorem signed_wide (build : Build) (bits : BitVec 128) (wide : 128 ≤ width.toNat) :
    signed build bits width = .ok bits.toInt := by
  rw [signed_eq, if_pos (.inr wide)]

/-- Above 128 bits the sign bit of 128 bits is none. -/
theorem twosComplement_wide (bits : BitVec 128) {width : Nat} (wide : 128 < width) :
    twosComplement width bits.toNat = bits.toNat := by
  have double : 2 ^ 129 ≤ 2 ^ width := Nat.pow_le_pow_right (by decide) wide
  have small := bits.isLt
  exact if_pos (by omega)

end Width

/-- Of the exact result the last 128 bits are kept. -/
theorem BvOp.toNat_apply_wide (op : BvOp) (x y : BitVec 128) {width : UInt32}
    (wide : 128 ≤ width.toNat) :
    (op.apply x y).toNat = op.denote width.toNat x.toNat y.toNat % 2 ^ 128 := by
  have ltX := x.isLt
  have ltY := y.isLt
  cases op with
  | add =>
    refine Width.toNat_eq_residue_mod wide ?_
    rw [apply, BitVec.toNat_add]
    omega
  | sub =>
    refine Width.toNat_eq_residue_mod wide ?_
    rw [apply, BitVec.toNat_sub]
    omega
  | mul =>
    refine Width.toNat_eq_residue_mod wide ?_
    rw [apply, BitVec.toNat_mul, Int.natCast_emod, Int.natCast_mul]
    exact Int.emod_emod_of_dvd _ (Int.dvd_refl _)
  | udiv =>
    have isZero : y = 0#128 ↔ y.toNat = 0 := BitVec.toNat_inj.symm
    rw [apply, denote, BitVec.smtUDiv_eq]
    by_cases zero : y.toNat = 0
    · have divides : 2 ^ 128 ∣ 2 ^ width.toNat := Nat.pow_dvd_pow 2 wide
      have large : 2 ^ 128 ≤ 2 ^ width.toNat := Nat.pow_le_pow_right (by decide) wide
      rw [if_pos (isZero.mpr zero), if_pos zero, BitVec.toNat_allOnes]
      omega
    · have smaller : x.toNat / y.toNat < 2 ^ 128 := Nat.lt_of_le_of_lt (Nat.div_le_self _ _) ltX
      rw [if_neg (fun same => zero (isZero.mp same)), if_neg zero, BitVec.toNat_udiv,
        Nat.mod_eq_of_lt smaller]
  | urem =>
    have smaller : x.toNat % y.toNat < 2 ^ 128 := Nat.lt_of_le_of_lt (Nat.mod_le _ _) ltX
    rw [apply, denote, BitVec.toNat_umod]
    by_cases zero : y.toNat = 0
    · rw [if_pos zero, zero, Nat.mod_zero, Nat.mod_eq_of_lt ltX]
    · rw [if_neg zero, Nat.mod_eq_of_lt smaller]
  | and =>
    rw [apply, denote, BitVec.toNat_and]
    exact (Nat.mod_eq_of_lt (Nat.and_lt_two_pow _ ltY)).symm
  | or =>
    rw [apply, denote, BitVec.toNat_or]
    exact (Nat.mod_eq_of_lt (Nat.or_lt_two_pow ltX ltY)).symm
  | xor =>
    rw [apply, denote, BitVec.toNat_xor]
    exact (Nat.mod_eq_of_lt (Nat.xor_lt_two_pow ltX ltY)).symm

/-- At a width above 128, the residues that take more than 128 bits are those of negative numbers. -/
theorem residue_exceeds_iff {n : Int} {width : Nat} (wide : 128 < width) (lower : -2 ^ 128 < n)
    (upper : n < 2 ^ 128) : 2 ^ 128 ≤ residue width n ↔ n < 0 := by
  have double : 2 ^ 129 ≤ 2 ^ width := Nat.pow_le_pow_right (by decide) wide
  have cast : ((2 ^ width : Nat) : Int) = 2 ^ width := Int.natCast_pow 2 width
  rw [residue]
  by_cases negative : n < 0
  · have around : n % 2 ^ width = n + 2 ^ width := by
      rw [← Int.add_emod_right, Int.emod_eq_of_lt (by omega) (by omega)]
    rw [around]
    omega
  · rw [Int.emod_eq_of_lt (by omega) (by omega)]
    omega

/-- The operations on numbers of 128 bits whose exact result takes more: sums and products out of
range, differences that wrap around, and division by zero. -/
def BvOp.Exceeds (width : Nat) (x y : Nat) : BvOp → Prop
  | .add => 2 ^ 128 ≤ x + y
  | .sub => x < y
  | .mul => 2 ^ 128 ≤ x * y % 2 ^ width
  | .udiv => y = 0
  | .urem | .and | .or | .xor => False

theorem BvOp.exceeds_iff (op : BvOp) (x y : BitVec 128) {width : Nat} (wide : 128 < width) :
    op.Exceeds width x.toNat y.toNat ↔ 2 ^ 128 ≤ op.denote width x.toNat y.toNat := by
  have ltX := x.isLt
  have ltY := y.isLt
  have double : 2 ^ 129 ≤ 2 ^ width := Nat.pow_le_pow_right (by decide) wide
  have cast : ((2 ^ width : Nat) : Int) = 2 ^ width := Int.natCast_pow 2 width
  cases op with
  | add =>
    have whole : residue width (x.toNat + y.toNat) = x.toNat + y.toNat := by
      rw [residue, Int.emod_eq_of_lt (by omega) (by omega)]
      omega
    rw [Exceeds, denote, whole]
  | sub =>
    rw [Exceeds, denote, residue_exceeds_iff wide (by omega) (by omega)]
    omega
  | mul =>
    have product : residue width (x.toNat * y.toNat) = x.toNat * y.toNat % 2 ^ width := by
      rw [residue, ← cast, ← Int.natCast_mul, ← Int.natCast_emod, Int.toNat_natCast]
    rw [Exceeds, denote, product]
  | udiv =>
    have smaller : x.toNat / y.toNat ≤ x.toNat := Nat.div_le_self _ _
    rw [Exceeds, denote]
    split <;> omega
  | urem =>
    have smaller : x.toNat % y.toNat ≤ x.toNat := Nat.mod_le _ _
    rw [Exceeds, denote, false_iff]
    split <;> omega
  | and => simpa [Exceeds, denote] using Nat.and_lt_two_pow x.toNat ltY
  | or => simpa [Exceeds, denote] using Nat.or_lt_two_pow ltX ltY
  | xor => simpa [Exceeds, denote] using Nat.xor_lt_two_pow ltX ltY

/-- The order of 128 bits with a sign is that without exactly if their signs agree. -/
theorem Width.signed_order_iff (x y : BitVec 128) :
    ((x.toInt < y.toInt ↔ x.toNat < y.toNat) ↔ x.msb = y.msb) ∧
      ((x.toInt ≤ y.toInt ↔ x.toNat ≤ y.toNat) ↔ x.msb = y.msb) := by
  have ltX := x.isLt
  have ltY := y.isLt
  have top (z : BitVec 128) : z.msb = decide (2 ^ 127 ≤ z.toNat) := BitVec.msb_eq_decide z
  rw [BitVec.toInt_eq_msb_cond, BitVec.toInt_eq_msb_cond, top, top]
  by_cases highX : 2 ^ 127 ≤ x.toNat <;> by_cases highY : 2 ^ 127 ≤ y.toNat <;>
    simp only [highX, highY, decide_true, decide_false, ↓reduceIte, Bool.false_eq_true,
      Bool.true_eq_false, iff_true, iff_false] <;> omega

/-- A comparison of wide bitvectors does not stop. A signed one goes wrong where exactly one operand
has the last bit that is kept. -/
theorem BvOrder.apply_wide (build : Build) (op : BvOrder) (x y : BitVec 128) {width : UInt32}
    (wide : 128 < width.toNat) :
    ∃ holds, op.apply build width x y = .ok holds ∧
      (holds = op.denote width.toNat x.toNat y.toNat ↔ (op.isSigned = true → x.msb = y.msb)) := by
  have kept : 128 ≤ width.toNat := Nat.le_of_lt wide
  obtain ⟨strict, weak⟩ := Width.signed_order_iff x y
  cases op with
  | ult | ule | ugt | uge =>
    exact ⟨_, rfl, by simp [isSigned, denote, BitVec.lt_def, BitVec.le_def]⟩
  | slt =>
    refine ⟨decide (x.toInt < y.toInt), ?_, ?_⟩
    · rw [apply, Width.signed_wide build x kept, Width.signed_wide build y kept]
      rfl
    · rw [denote, Width.twosComplement_wide x wide, Width.twosComplement_wide y wide,
        decide_eq_decide, Int.ofNat_lt, strict]
      simp [isSigned]
  | sle =>
    refine ⟨decide (x.toInt ≤ y.toInt), ?_, ?_⟩
    · rw [apply, Width.signed_wide build x kept, Width.signed_wide build y kept]
      rfl
    · rw [denote, Width.twosComplement_wide x wide, Width.twosComplement_wide y wide,
        decide_eq_decide, Int.ofNat_le, weak]
      simp [isSigned]

theorem Width.toNat_neg_wide (bits : BitVec 128) {width : UInt32} (wide : 128 ≤ width.toNat) :
    (-bits).toNat = residue width.toNat (-bits.toNat) % 2 ^ 128 := by
  have small := bits.isLt
  refine toNat_eq_residue_mod wide ?_
  rw [BitVec.toNat_neg]
  omega

theorem residue_neg_exceeds_iff (bits : BitVec 128) {width : Nat} (wide : 128 < width) :
    bits.toNat ≠ 0 ↔ 2 ^ 128 ≤ residue width (-bits.toNat) := by
  have small := bits.isLt
  rw [residue_exceeds_iff wide (by omega) (by omega)]
  omega

theorem complement_exceeds (bits : BitVec 128) {width : Nat} (wide : 128 < width) :
    2 ^ 128 ≤ 2 ^ width - 1 - bits.toNat := by
  have small := bits.isLt
  have double : 2 ^ 129 ≤ 2 ^ width := Nat.pow_le_pow_right (by decide) wide
  omega

theorem Int128.toNat_bits (value : Int128) :
    (value.bits.toNat : Int) % 2 ^ 128 = value.val % 2 ^ 128 := by
  rw [bits, BitVec.toNat_ofInt]
  omega

/-- The residue of a negative literal takes more than 128 bits, and no other does. -/
theorem Int128.residue_exceeds_iff (value : Int128) {width : Nat} (wide : 128 < width) :
    value.val < 0 ↔ 2 ^ 128 ≤ residue width value.val := by
  have lower := value.lower
  have upper := value.upper
  rw [SmtSession.residue_exceeds_iff wide (by omega) (by omega)]

end SmtSession

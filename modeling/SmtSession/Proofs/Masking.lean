import SmtSession.Number.PlainOp
import SmtSession.Proofs.Meaning

namespace SmtSession.Width

theorem mask_eq (width : UInt32) : mask width =
    if 128 ≤ width.toNat then BitVec.allOnes 128 else BitVec.twoPow 128 width.toNat - 1#128 := by
  unfold mask
  split <;> rfl

theorem toNat_mask {width : UInt32} (narrow : width.toNat ≤ 128) :
    (mask width).toNat = 2 ^ width.toNat - 1 := by
  by_cases full : 128 ≤ width.toNat
  · have exact : width.toNat = 128 := by omega
    rw [mask_eq, if_pos full, BitVec.toNat_allOnes, exact]
  · have power := BitVec.toNat_twoPow_of_lt (Nat.lt_of_not_le full)
    have positive : 1#128 ≤ BitVec.twoPow 128 width.toNat := by
      rw [BitVec.le_def, power]
      exact Nat.one_le_two_pow
    rw [mask_eq, if_neg full, BitVec.toNat_sub_of_le positive, power]
    rfl

theorem toNat_and_mask (bits : BitVec 128) (width : UInt32) :
    (bits &&& mask width).toNat = bits.toNat % 2 ^ width.toNat := by
  by_cases narrow : width.toNat < 128
  · rw [BitVec.toNat_and, toNat_mask (Nat.le_of_lt narrow), Nat.and_two_pow_sub_one_eq_mod]
  · have inside : bits.toNat < 2 ^ width.toNat :=
      Nat.lt_of_lt_of_le bits.isLt (Nat.pow_le_pow_right (by decide) (by omega))
    rw [mask_eq, if_pos (by omega), BitVec.and_allOnes, Nat.mod_eq_of_lt inside]

theorem and_mask_eq_self {bits : BitVec 128} {width : UInt32}
    (inside : bits.toNat < 2 ^ width.toNat) : bits &&& mask width = bits := by
  apply BitVec.eq_of_toNat_eq
  rw [toNat_and_mask, Nat.mod_eq_of_lt inside]

/-- Bits that represent an integer modulo 2¹²⁸ represent it at every width inside. -/
theorem toNat_and_mask_eq_residue {bits : BitVec 128} {width : UInt32} {n : Int}
    (narrow : width.toNat ≤ 128) (same : (bits.toNat : Int) % 2 ^ 128 = n % 2 ^ 128) :
    (bits &&& mask width).toNat = residue width.toNat n := by
  have divides : (2 : Int) ^ width.toNat ∣ 2 ^ 128 :=
    Int.natCast_dvd_natCast.mpr (Nat.pow_dvd_pow 2 narrow)
  have shorter := congrArg (· % (2 : Int) ^ width.toNat) same
  simp only [Int.emod_emod_of_dvd _ divides] at shorter
  rw [toNat_and_mask, residue, ← shorter]
  exact (Int.toNat_natCast _).symm

theorem toNat_not_and_mask {bits : BitVec 128} {width : UInt32} (narrow : width.toNat ≤ 128)
    (inside : bits.toNat < 2 ^ width.toNat) :
    (~~~bits &&& mask width).toNat = 2 ^ width.toNat - 1 - bits.toNat := by
  obtain ⟨rounds, period⟩ := Nat.pow_dvd_pow 2 narrow
  have some : rounds ≠ 0 := by
    rintro rfl
    rw [Nat.mul_zero] at period
    exact absurd period (by decide)
  obtain ⟨more, rfl⟩ := Nat.exists_eq_succ_of_ne_zero some
  have split : 2 ^ 128 - 1 - bits.toNat =
      2 ^ width.toNat * more + (2 ^ width.toNat - 1 - bits.toNat) := by
    rw [Nat.mul_succ] at period
    omega
  rw [toNat_and_mask, BitVec.toNat_not, split, Nat.mul_add_mod]
  exact Nat.mod_eq_of_lt (by omega)

theorem getLsbD_top {bits : BitVec 128} {width : Nat} (positive : 0 < width)
    (inside : bits.toNat < 2 ^ width) :
    bits.getLsbD (width - 1) = decide (2 ^ width ≤ 2 * bits.toNat) := by
  have double : 2 ^ width = 2 * 2 ^ (width - 1) := by
    rw [← Nat.pow_succ']
    congr 1
    omega
  by_cases high : 2 ^ (width - 1) ≤ bits.toNat
  · have bit : bits.toNat.testBit (width - 1) = true :=
      Nat.testBit_of_two_pow_le_and_two_pow_add_one_gt high (by rwa [Nat.sub_add_cancel positive])
    have enough : 2 ^ width ≤ 2 * bits.toNat := by omega
    rw [BitVec.getLsbD, bit, decide_eq_true enough]
  · have bit : bits.toNat.testBit (width - 1) = false := Nat.testBit_lt_two_pow (by omega)
    have less : ¬2 ^ width ≤ 2 * bits.toNat := by omega
    rw [BitVec.getLsbD, bit, decide_eq_false less]

/-- Subtracting 2 to the width from bits inside it gives the negative number they stand for. -/
theorem toInt_sub_twoPow {bits : BitVec 128} {width : Nat} (narrow : width < 128)
    (inside : bits.toNat < 2 ^ width) :
    (bits - BitVec.twoPow 128 width).toInt = bits.toNat - 2 ^ width := by
  have half : 2 ^ width ≤ 2 ^ 127 := Nat.pow_le_pow_right (by decide) (by omega)
  have power := BitVec.toNat_twoPow_of_lt narrow
  have number : (bits - BitVec.twoPow 128 width).toNat = 2 ^ 128 - 2 ^ width + bits.toNat := by
    rw [BitVec.toNat_sub, power]
    exact Nat.mod_eq_of_lt (by omega)
  have large : ¬2 * (2 ^ 128 - 2 ^ width + bits.toNat) < 2 ^ 128 := by omega
  rw [BitVec.toInt_eq_toNat_cond, number, if_neg large]
  have cast : ((2 ^ width : Nat) : Int) = 2 ^ width := Int.natCast_pow 2 width
  omega

theorem signed_eq (build : Build) (bits : BitVec 128) (width : UInt32) : signed build bits width =
    if width = 0 ∨ 128 ≤ width.toNat then .ok bits.toInt
    else if bits.getLsbD (width.toNat - 1) then
      PlainOp.perform build (.subtract bits.toInt (BitVec.twoPow 128 width.toNat).toInt)
        (bits - BitVec.twoPow 128 width.toNat).toInt
    else .ok bits.toInt := by
  unfold signed
  split <;> rfl

/-- Bits inside a width stand for their two's complement, where the difference may wrap. -/
theorem signed_eq_twosComplement {bits : BitVec 128} {width : UInt32} (narrow : width.toNat ≤ 128)
    (inside : bits.toNat < 2 ^ width.toNat) :
    signed .wrapping bits width = .ok (twosComplement width.toNat bits.toNat) := by
  have isZero : width = 0 ↔ width.toNat = 0 := UInt32.toNat_inj.symm
  rw [signed_eq, twosComplement]
  simp only [isZero]
  generalize width.toNat = w at narrow inside
  by_cases edge : w = 0 ∨ 128 ≤ w
  · rw [if_pos edge]
    rcases edge with rfl | wide
    · have zero : bits.toNat = 0 := by omega
      rw [BitVec.toInt_eq_toNat_of_lt (by omega), zero]
      rfl
    · obtain rfl : w = 128 := by omega
      exact congrArg Except.ok (BitVec.toInt_eq_toNat_cond bits)
  · obtain ⟨positive, proper⟩ : 0 < w ∧ w < 128 := by omega
    rw [if_neg edge, getLsbD_top positive inside]
    have half : 2 ^ w ≤ 2 ^ 127 := Nat.pow_le_pow_right (by decide) (by omega)
    by_cases low : 2 * bits.toNat < 2 ^ w
    · rw [if_pos low, if_neg (by simpa using low), BitVec.toInt_eq_toNat_of_lt (by omega)]
    · rw [if_neg low, if_pos (by simpa using low), toInt_sub_twoPow proper inside]
      rfl

end SmtSession.Width

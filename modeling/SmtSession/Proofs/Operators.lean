import Mathlib.Logic.Basic
import SmtSession.Eval
import SmtSession.Proofs.Masking

namespace SmtSession

@[simp] theorem ok_bind {ε α β : Type} (a : α) (f : α → Except ε β) :
    (Except.ok a >>= f) = f a := rfl

@[simp] theorem error_bind {ε α β : Type} (err : ε) (f : α → Except ε β) :
    (Except.error err >>= f) = .error err := rfl

theorem bind_eq_ok_iff {ε α β : Type} {taken : Except ε α} {next : α → Except ε β} {result : β} :
    (taken >>= next) = .ok result ↔ ∃ a, taken = .ok a ∧ next a = .ok result := by
  cases taken with
  | error err => simp
  | ok a => simp

namespace Value

@[simp] theorem toBool_bool (term : Term) (b : Bool) : toBool term (.bool b) = .ok b := rfl

@[simp] theorem toInt_int (term : Term) (n : Int128) : toInt term (.int n) = .ok n := rfl

@[simp] theorem toStr_str (term : Term) (s : String) : toStr term (.str s) = .ok s := rfl

@[simp] theorem toBitVec_bitVec (term : Term) (bits : BitVec 128) (width : UInt32) :
    toBitVec term (.bitVec bits width) = .ok (bits, width) := rfl

variable {term : Term} {value : Value}

theorem toBool_eq_ok {b : Bool} : value.toBool term = .ok b ↔ value = .bool b := by
  cases value <;> simp [toBool, bool?]

theorem toInt_eq_ok {n : Int128} : value.toInt term = .ok n ↔ value = .int n := by
  cases value <;> simp [toInt, int?]

theorem toStr_eq_ok {s : String} : value.toStr term = .ok s ↔ value = .str s := by
  cases value <;> simp [toStr, str?]

theorem toBitVec_eq_ok {bits : BitVec 128} {width : UInt32} :
    value.toBitVec term = .ok (bits, width) ↔ value = .bitVec bits width := by
  cases value <;> simp [toBitVec, bitVec?]

end Value

/-- A value stands for a meaning of its sort. A bitvector stays below 2 to its width. -/
inductive Value.Denotes : Value → SmtSort → Meaning → Prop where
  | bool (value : Bool) : Denotes (.bool value) .bool (.bool value)
  | int (value : Int128) : Denotes (.int value) .int (.int value.val)
  | bitVec {bits : BitVec 128} {width : UInt32} : bits.toNat < 2 ^ width.toNat →
      Denotes (.bitVec bits width) (.bitVec width) (.bitVec bits.toNat width.toNat)
  | str (value : String) : Denotes (.str value) .string (.str value.toList)

theorem Value.Denotes.ofEq {b c : Bool} (same : b = c) :
    (Value.bool b).Denotes .bool (.bool c) := same ▸ .bool b

section

variable {v : Value} {m : Meaning}

theorem Value.Denotes.isBool (denotes : v.Denotes .bool m) :
    ∃ holds, v = .bool holds ∧ m = .bool holds := by
  cases denotes with
  | bool holds => exact ⟨holds, rfl, rfl⟩

theorem Value.Denotes.isInt (denotes : v.Denotes .int m) :
    ∃ n : Int128, v = .int n ∧ m = .int n.val := by
  cases denotes with
  | int n => exact ⟨n, rfl, rfl⟩

theorem Value.Denotes.isBitVec {width : UInt32} (denotes : v.Denotes (.bitVec width) m) :
    ∃ bits, v = .bitVec bits width ∧ m = .bitVec bits.toNat width.toNat ∧
      bits.toNat < 2 ^ width.toNat := by
  cases denotes with
  | @bitVec bits _ inside => exact ⟨bits, rfl, rfl, inside⟩

theorem Value.Denotes.isStr (denotes : v.Denotes .string m) :
    ∃ text, v = .str text ∧ m = .str text.toList := by
  cases denotes with
  | str text => exact ⟨text, rfl, rfl⟩

end

theorem Value.Denotes.masked {bits : BitVec 128} {width : UInt32} {number : Nat}
    (same : (bits &&& Width.mask width).toNat = number) :
    Denotes (.bitVec (bits &&& Width.mask width) width) (.bitVec width)
      (.bitVec number width.toNat) := by
  subst same
  refine .bitVec ?_
  rw [Width.toNat_and_mask]
  exact Nat.mod_lt _ (Nat.two_pow_pos _)

theorem Int128.inRange_of_ofInt? {n : Int} {held : Int128} (given : ofInt? n = some held) :
    InRange n := by
  have same := ofInt?_eq_some_iff.mp given
  exact ⟨same ▸ held.lower, same ▸ held.upper⟩

theorem Int128.ofInt?_eq_none_iff {n : Int} : ofInt? n = none ↔ ¬InRange n := by
  constructor
  · intro none inside
    have some : ofInt? n = some ⟨n, inside.1, inside.2⟩ := ofInt?_eq_some_iff.mpr rfl
    rw [some] at none
    cases none
  · intro outside
    cases given : ofInt? n with
    | none => rfl
    | some held => exact absurd (inRange_of_ofInt? given) outside

/-- The exact result of an operator, and of a remainder the quotient that it belongs to. -/
def IntOp.exact : IntOp → Int → Int → Int
  | .add, x, y => x + y
  | .sub, x, y => x - y
  | .mul, x, y => x * y
  | .div, x, y | .mod, x, y => x / y

/-- Whether the second operand is a divisor. -/
def IntOp.divides : IntOp → Bool
  | .div | .mod => true
  | .add | .sub | .mul => false

namespace IntOp

variable {op : IntOp} {x y n : Int128}

theorem val_of_result? (interp : Interpretation) (result : op.result? x y = some n) :
    n.val = op.denote interp x.val y.val := by
  cases op with
  | add | sub | mul => exact Int128.ofInt?_eq_some_iff.mp result
  | div =>
    by_cases zero : y.val = 0
    · rw [result?, if_pos zero] at result
      cases result
    · rw [result?, if_neg zero] at result
      rw [denote, if_neg zero]
      exact Int128.ofInt?_eq_some_iff.mp result
  | mod =>
    by_cases zero : y.val = 0
    · rw [result?, if_pos zero] at result
      cases result
    · rw [result?, if_neg zero] at result
      obtain ⟨_, _, remainder⟩ := Option.bind_eq_some_iff.mp result
      rw [denote, if_neg zero]
      exact Int128.ofInt?_eq_some_iff.mp remainder

theorem inRange_emod (x y : Int128) (nonzero : y.val ≠ 0) : Int128.InRange (x.val % y.val) := by
  have lower := y.lower
  have upper := y.upper
  have positive := Int.emod_nonneg x.val nonzero
  have below := Int.emod_lt x.val nonzero
  unfold Int128.InRange
  omega

/-- There is no result for a zero divisor and for an exact result out of range. -/
theorem result?_eq_none_iff : op.result? x y = none ↔
    (op.divides = true ∧ y.val = 0) ∨ ¬Int128.InRange (op.exact x.val y.val) := by
  cases op with
  | add | sub | mul => simp [result?, exact, divides, Int128.ofInt?_eq_none_iff]
  | div =>
    by_cases zero : y.val = 0
    · simp [result?, divides, zero]
    · simp [result?, exact, zero, Int128.ofInt?_eq_none_iff]
  | mod =>
    by_cases zero : y.val = 0
    · simp [result?, divides, zero]
    · have remainder : Int128.ofInt? (x.val % y.val) ≠ none := fun none =>
        absurd (inRange_emod x y zero) (Int128.ofInt?_eq_none_iff.mp none)
      cases quotient : Int128.ofInt? (x.val / y.val) with
      | none => simp [result?, exact, zero, quotient, Int128.ofInt?_eq_none_iff.mp quotient]
      | some q =>
        have inside := Int128.inRange_of_ofInt? quotient
        simp [result?, exact, zero, quotient, inside, remainder]

end IntOp

/-- The masked result of a bitvector operator is the number that the operator denotes. -/
theorem BvOp.toNat_apply (op : BvOp) {x y : BitVec 128} {width : UInt32}
    (narrow : width.toNat ≤ 128) (insideX : x.toNat < 2 ^ width.toNat)
    (insideY : y.toNat < 2 ^ width.toNat) :
    (op.apply x y &&& Width.mask width).toNat = op.denote width.toNat x.toNat y.toNat := by
  have ltX := x.isLt
  have ltY := y.isLt
  cases op with
  | add =>
    refine Width.toNat_and_mask_eq_residue narrow ?_
    show ((x + y).toNat : Int) % 2 ^ 128 = _
    rw [BitVec.toNat_add]
    omega
  | sub =>
    refine Width.toNat_and_mask_eq_residue narrow ?_
    show ((x - y).toNat : Int) % 2 ^ 128 = _
    rw [BitVec.toNat_sub]
    omega
  | mul =>
    refine Width.toNat_and_mask_eq_residue narrow ?_
    show ((x * y).toNat : Int) % 2 ^ 128 = _
    rw [BitVec.toNat_mul, Int.natCast_emod, Int.natCast_mul]
    exact Int.emod_emod_of_dvd _ (Int.dvd_refl _)
  | udiv =>
    have isZero : y = 0#128 ↔ y.toNat = 0 := BitVec.toNat_inj.symm
    rw [apply, denote, BitVec.smtUDiv_eq]
    by_cases zero : y.toNat = 0
    · rw [if_pos (isZero.mpr zero), if_pos zero, BitVec.allOnes_and, Width.toNat_mask narrow]
    · have smaller : x.toNat / y.toNat < 2 ^ width.toNat :=
        Nat.lt_of_le_of_lt (Nat.div_le_self _ _) insideX
      rw [if_neg (fun same => zero (isZero.mp same)), if_neg zero, Width.toNat_and_mask,
        BitVec.toNat_udiv, Nat.mod_eq_of_lt smaller]
  | urem =>
    have smaller : x.toNat % y.toNat < 2 ^ width.toNat :=
      Nat.lt_of_le_of_lt (Nat.mod_le _ _) insideX
    rw [Width.toNat_and_mask, apply, denote, BitVec.toNat_umod, Nat.mod_eq_of_lt smaller]
    by_cases zero : y.toNat = 0
    · rw [if_pos zero, zero, Nat.mod_zero]
    · rw [if_neg zero]
  | and =>
    rw [Width.toNat_and_mask, apply, denote, BitVec.toNat_and]
    exact Nat.mod_eq_of_lt (Nat.and_lt_two_pow _ insideY)
  | or =>
    rw [Width.toNat_and_mask, apply, denote, BitVec.toNat_or]
    exact Nat.mod_eq_of_lt (Nat.or_lt_two_pow insideX insideY)
  | xor =>
    rw [Width.toNat_and_mask, apply, denote, BitVec.toNat_xor]
    exact Nat.mod_eq_of_lt (Nat.xor_lt_two_pow insideX insideY)

theorem BvOrder.apply_eq (op : BvOrder) {x y : BitVec 128} {width : UInt32}
    (narrow : width.toNat ≤ 128) (insideX : x.toNat < 2 ^ width.toNat)
    (insideY : y.toNat < 2 ^ width.toNat) :
    op.apply .wrapping width x y = .ok (op.denote width.toNat x.toNat y.toNat) := by
  cases op with
  | ult | ule | ugt | uge => rfl
  | slt | sle =>
    rw [apply, denote, Width.signed_eq_twosComplement narrow insideX,
      Width.signed_eq_twosComplement narrow insideY]
    rfl

theorem occurs_iff (part whole : List Char) : occurs part whole = true ↔ part <:+: whole := by
  induction whole with
  | nil => simp [occurs]
  | cons c rest ih => simp [occurs, ih, List.infix_cons_iff]

theorem startsWith_eq (part whole : String) :
    whole.startsWith part = part.toList.isPrefixOf whole.toList := by
  rw [Bool.eq_iff_iff, String.startsWith_string_iff, List.isPrefixOf_iff_prefix]

theorem contains_eq (whole part : String) :
    whole.contains part = occurs part.toList whole.toList := by
  rw [Bool.eq_iff_iff, String.contains_string_iff, occurs_iff]

namespace Value

variable {x y : Value} {sort : SmtSort} {m n : Meaning}

/-- Values of one sort are the same if their meanings are. -/
theorem same_of_denotes (first : x.Denotes sort m) (second : y.Denotes sort n) :
    x.same y = .ok (m == n) := by
  cases first with
  | bool a =>
    cases second with
    | bool b => exact congrArg Except.ok (beq_eq_beq.mpr (by simp))
  | int a =>
    cases second with
    | int b =>
      have whole : a = b ↔ a.val = b.val := ⟨congrArg _, Int128.ext⟩
      exact congrArg Except.ok (beq_eq_beq.mpr (by simp [whole]))
  | @bitVec bits width _ =>
    cases second with
    | @bitVec other _ _ =>
      rw [same, if_pos rfl]
      exact congrArg Except.ok (beq_eq_beq.mpr (by simp [BitVec.toNat_inj]))
  | str a =>
    cases second with
    | str b => exact congrArg Except.ok (beq_eq_beq.mpr (by simp [String.toList_inj]))

/-- Values that stand for meanings of one sort, one for one. -/
inductive AllDenote (sort : SmtSort) : List Value → List Meaning → Prop where
  | nil : AllDenote sort [] []
  | cons {value : Value} {meaning : Meaning} {values : List Value} {meanings : List Meaning} :
      value.Denotes sort meaning → AllDenote sort values meanings →
      AllDenote sort (value :: values) (meaning :: meanings)

theorem differsFrom_of_denotes {values : List Value} {meanings : List Meaning}
    (first : x.Denotes sort m) (others : AllDenote sort values meanings) :
    x.differsFrom values = .ok (decide (m ∉ meanings)) := by
  induction others with
  | nil => rfl
  | @cons value meaning values meanings second _ ih =>
    rw [differsFrom, same_of_denotes first second]
    by_cases equal : m = meaning
    · simp [equal]
    · have differs : (m == meaning) = false := beq_eq_false_iff_ne.mpr equal
      simp [equal, differs, ih]

theorem allDiffer_of_denotes {values : List Value} {meanings : List Meaning}
    (all : AllDenote sort values meanings) : allDiffer values = .ok (decide meanings.Nodup) := by
  induction all with
  | nil => rfl
  | @cons value meaning values meanings first others ih =>
    rw [allDiffer, differsFrom_of_denotes first others]
    by_cases among : meaning ∈ meanings
    · simp [among]
    · simp [among, ih]

end Value

theorem Value.ofExact (exact : Int) (fault : EvalFault) :
    (∃ v, (Int128.ofInt? exact).elim (Except.error fault) (fun n => .ok (Value.int n)) = .ok v ∧
        v.Denotes .int (.int exact)) ∨ ¬Int128.InRange exact := by
  cases given : Int128.ofInt? exact with
  | none => exact .inr (Int128.ofInt?_eq_none_iff.mp given)
  | some n =>
    have same := Int128.ofInt?_eq_some_iff.mp given
    exact .inl ⟨.int n, rfl, same ▸ .int n⟩

namespace UnaryOp

/-- The exact integer that a unary operator gives, if it gives one. -/
def exactResult? : UnaryOp → Value → Option Int
  | .intNeg, .int n => some (-n.val)
  | .strLen, .str s => some s.length
  | _, _ => none

theorem apply_intNeg (arg : Term) (n : Int128) : UnaryOp.intNeg.apply arg (.int n) =
    (Int128.ofInt? (-n.val)).elim (.error .overflow) fun m => .ok (.int m) := rfl

theorem apply_strLen (arg : Term) (s : String) : UnaryOp.strLen.apply arg (.str s) =
    (Int128.ofInt? s.length).elim (.error .overflow) fun n => .ok (.int n) := by
  have unfolded (x : Value) : UnaryOp.strLen.apply arg x = (x.toStr arg >>= fun s =>
      (Int128.ofInt? s.length).elim (.error .overflow) fun n => .ok (.int n)) := rfl
  rw [unfolded, Value.toStr_str, ok_bind]

/-- A unary operator gives the value of what it denotes, or its exact result is out of range. -/
theorem apply_denotes {op : UnaryOp} {operand result : SmtSort} {x : Value} {m : Meaning}
    (arg : Term) (maps : op.Maps operand result) (evaluated : operand.IsEvaluated)
    (value : x.Denotes operand m) :
    (∃ v, op.apply arg x = .ok v ∧ v.Denotes result (op.denote m)) ∨
      ∃ exact, op.exactResult? x = some exact ∧ ¬Int128.InRange exact := by
  cases maps with
  | not =>
    obtain ⟨b, rfl, rfl⟩ := value.isBool
    exact .inl ⟨_, rfl, .bool _⟩
  | @bvNeg width =>
    obtain ⟨bits, rfl, rfl, inside⟩ := value.isBitVec
    have number : (-bits &&& Width.mask width).toNat = residue width.toNat (-bits.toNat) := by
      have below := bits.isLt
      refine Width.toNat_and_mask_eq_residue evaluated ?_
      rw [BitVec.toNat_neg]
      omega
    exact .inl ⟨_, rfl, .masked number⟩
  | @bvNot width =>
    obtain ⟨bits, rfl, rfl, inside⟩ := value.isBitVec
    exact .inl ⟨_, rfl, .masked (Width.toNat_not_and_mask evaluated inside)⟩
  | intNeg =>
    obtain ⟨n, rfl, rfl⟩ := value.isInt
    rcases Value.ofExact (-n.val) .overflow with given | outside
    · exact .inl given
    · exact .inr ⟨_, rfl, outside⟩
  | strLen =>
    obtain ⟨s, rfl, rfl⟩ := value.isStr
    have meaning : UnaryOp.strLen.denote (.str s.toList) = .int s.length := by
      simp only [denote, Meaning.toChars, String.length_toList]
    rw [meaning, apply_strLen]
    rcases Value.ofExact s.length .overflow with given | outside
    · exact .inl given
    · exact .inr ⟨_, rfl, outside⟩

theorem apply_eq_error {op : UnaryOp} {x : Value} {exact : Int} (arg : Term)
    (result : op.exactResult? x = some exact) (outside : ¬Int128.InRange exact) :
    ∃ fault, op.apply arg x = .error fault := by
  have none := Int128.ofInt?_eq_none_iff.mpr outside
  refine ⟨.overflow, ?_⟩
  unfold exactResult? at result
  split at result
  · cases result
    rw [apply_intNeg, none]
    rfl
  · cases result
    rw [apply_strLen, none]
    rfl
  · cases result

end UnaryOp

end SmtSession

import SmtSession.Proofs.Congruence
import SmtSession.Proofs.Evaluation
import SmtSession.Proofs.WideOperators

namespace SmtSession

/-- A value that is not wrong: that of the meaning, or a text that was not read. -/
def Value.Stands (v : Value) (sort : SmtSort) (m : Meaning) : Prop :=
  v.Denotes sort m ∨ ∃ text, v = .raw text

namespace Value

variable {v : Value} {sort : SmtSort} {m : Meaning}

theorem Stands.denotes (stands : v.Stands sort m) (typed : ∀ text, v ≠ .raw text) :
    v.Denotes sort m := by
  rcases stands with denotes | ⟨text, same⟩
  · exact denotes
  · exact absurd same (typed text)

/-- What 128 bits keep of a number stands for it if that is all of it. -/
theorem Denotes.kept {bits : BitVec 128} {width : UInt32} {number : Nat}
    (wide : 128 ≤ width.toNat) (same : bits.toNat = number % 2 ^ 128) (whole : number < 2 ^ 128) :
    Denotes (.bitVec bits width) (.bitVec width) (.bitVec number width.toNat) := by
  have all : bits.toNat = number := same.trans (Nat.mod_eq_of_lt whole)
  have inside : bits.toNat < 2 ^ width.toNat :=
    Nat.lt_of_lt_of_le bits.isLt (Nat.pow_le_pow_right (by decide) wide)
  rw [← all]
  exact .bitVec inside

theorem same_typed {x y : Value} {equal : Bool} (compared : x.same y = .ok equal) :
    (∀ text, x ≠ .raw text) ∧ ∀ text, y ≠ .raw text := by
  constructor
  · rintro text rfl
    cases compared
  · rintro text rfl
    cases x <;> cases compared

end Value

namespace Term

/-- The sort of a term, of any width. Functions that are not interpreted may give any sort; they
have no values. -/
inductive Sorted (sorts : String → Option SmtSort) : Term → SmtSort → Prop where
  | boolLit {value : Bool} : Sorted sorts (.boolLit value) .bool
  | intLit {value : Int128} : Sorted sorts (.intLit value) .int
  | bitVecLit {value : Int128} {width : UInt32} :
      Sorted sorts (.bitVecLit value width) (.bitVec width)
  | stringLit {value : String} : Sorted sorts (.stringLit value) .string
  | const {name : String} {sort : SmtSort} : sorts name = some sort →
      Sorted sorts (.const name) sort
  | unary {op : UnaryOp} {arg : Term} {operand result : SmtSort} : op.Maps operand result →
      Sorted sorts arg operand → Sorted sorts (.unary op arg) result
  | binary {op : BinaryOp} {left right : Term} {operand result : SmtSort} :
      op.Maps operand result → Sorted sorts left operand → Sorted sorts right operand →
      Sorted sorts (.binary op left right) result
  | ite {condition onTrue onFalse : Term} {sort : SmtSort} : Sorted sorts condition .bool →
      Sorted sorts onTrue sort → Sorted sorts onFalse sort →
      Sorted sorts (.ite condition onTrue onFalse) sort
  | nary {op : NaryOp} {args : List Term} {operand result : SmtSort} : op.Maps operand result →
      (∀ arg ∈ args, Sorted sorts arg operand) → Sorted sorts (.nary op args) result
  | app {name : String} {args : List Term} {sort : SmtSort} : Sorted sorts (.app name args) sort

/-- An operation at a width above 128, applied to values, that 128 bits are too few for: its exact
result is a number that takes more, or it compares signed numbers whose last bit kept is taken for
their sign. -/
inductive Overruns (env : Assignment) : Term → Prop where
  | literal {value : Int128} {width : UInt32} : 128 < width.toNat → value.val < 0 →
      Overruns env (.bitVecLit value width)
  | negation {arg : Term} {bits : BitVec 128} {width : UInt32} : 128 < width.toNat →
      arg.eval env = .ok (.bitVec bits width) → bits.toNat ≠ 0 → Overruns env (.unary .bvNeg arg)
  | complement {arg : Term} {bits : BitVec 128} {width : UInt32} : 128 < width.toNat →
      arg.eval env = .ok (.bitVec bits width) → Overruns env (.unary .bvNot arg)
  | operation {op : BvOp} {left right : Term} {a b : BitVec 128} {width : UInt32} :
      128 < width.toNat → left.eval env = .ok (.bitVec a width) →
      right.eval env = .ok (.bitVec b width) → op.Exceeds width.toNat a.toNat b.toNat →
      Overruns env (.binary (.bv op) left right)
  | order {op : BvOrder} {left right : Term} {a b : BitVec 128} {width : UInt32} :
      128 < width.toNat → left.eval env = .ok (.bitVec a width) →
      right.eval env = .ok (.bitVec b width) → op.isSigned = true → a.msb ≠ b.msb →
      Overruns env (.binary (.bvOrder op) left right)

/-- A term whose value, if it has one, is not wrong. -/
def Sound (env : Assignment) (interp : Interpretation) (sort : SmtSort) (term : Term) : Prop :=
  ∀ v, term.eval env = .ok v → v.Stands sort (term.denote interp)

section

variable {env : Assignment} {interp : Interpretation} {sorts : String → Option SmtSort}
  {operand result : SmtSort}

/-- A sort that is not evaluated has no values of its own, or is that of wide bitvectors. -/
theorem wide_of_denotes {v : Value} {m : Meaning} (denotes : v.Denotes operand m)
    (beyond : ¬operand.IsEvaluated) : ∃ width : UInt32, operand = .bitVec width ∧
      128 < width.toNat := by
  cases denotes with
  | bool | int | str => exact absurd trivial beyond
  | @bitVec bits width => exact ⟨width, rfl, Nat.lt_of_not_le beyond⟩

theorem apply_typed {op : UnaryOp} {arg : Term} {x v : Value} (given : op.apply arg x = .ok v) :
    (∀ text, x ≠ .raw text) ∧ ∀ text, v ≠ .raw text := by
  constructor
  · rintro text rfl
    cases op <;> cases given
  · rintro text rfl
    cases op with
    | not | bvNeg | bvNot =>
      obtain ⟨_, _, made⟩ := bind_eq_ok_iff.mp given
      cases made
    | intNeg =>
      obtain ⟨n, _, made⟩ := bind_eq_ok_iff.mp given
      cases held : Int128.ofInt? (-n.val) <;> simp [held] at made
    | strLen =>
      obtain ⟨s, _, made⟩ := bind_eq_ok_iff.mp given
      cases held : Int128.ofInt? s.length <;> simp [held] at made

theorem eval_binary_typed {op : BinaryOp} {left right : Term} {v : Value}
    (given : (Term.binary op left right).eval env = .ok v) : ∀ text, v ≠ .raw text := by
  rintro text rfl
  cases op with
  | implies =>
    obtain ⟨_, _, afterLeft⟩ := bind_eq_ok_iff.mp given
    obtain ⟨p, _, decided⟩ := bind_eq_ok_iff.mp afterLeft
    cases p with
    | false => cases decided
    | true =>
      obtain ⟨_, _, afterRight⟩ := bind_eq_ok_iff.mp decided
      obtain ⟨_, _, made⟩ := bind_eq_ok_iff.mp afterRight
      cases made
  | int op =>
    simp only [eval_int, bind_eq_ok_iff] at given
    obtain ⟨_, _, a, _, _, _, b, _, made⟩ := given
    cases held : op.result? a b <;> simp [held] at made
  | _ =>
    simp [eval_iff, eval_eq, eval_bv, eval_bvOrder, eval_intOrder, eval_strPrefixOf,
      eval_strContains, bind_eq_ok_iff] at given

theorem Sound.unary {op : UnaryOp} {arg : Term} (maps : op.Maps operand result)
    (sound : Sound env interp operand arg) (fits : ¬Overruns env (.unary op arg)) :
    Sound env interp result (.unary op arg) := by
  intro v given
  rw [eval_unary] at given
  obtain ⟨x, evalArg, applied⟩ := bind_eq_ok_iff.mp given
  have denotes := (sound x evalArg).denotes (apply_typed applied).1
  refine .inl ?_
  by_cases evaluated : operand.IsEvaluated
  · rcases op.apply_denotes arg maps evaluated denotes with ⟨w, same, value⟩ | ⟨exact, res, outside⟩
    · cases applied.symm.trans same
      exact value
    · obtain ⟨fault, refused⟩ := UnaryOp.apply_eq_error arg res outside
      cases applied.symm.trans refused
  · obtain ⟨width, rfl, wide⟩ := wide_of_denotes denotes evaluated
    have kept : 128 ≤ width.toNat := Nat.le_of_lt wide
    obtain ⟨bits, rfl, meaning, _⟩ := denotes.isBitVec
    rw [denote, meaning]
    cases maps with
    | bvNeg =>
      cases applied
      have small : residue width.toNat (-bits.toNat) < 2 ^ 128 := Nat.lt_of_not_le fun large =>
        fits (.negation wide evalArg ((residue_neg_exceeds_iff bits wide).mpr large))
      rw [Width.and_mask_wide _ kept]
      exact .kept kept (Width.toNat_neg_wide bits kept) small
    | bvNot => exact absurd (.complement wide evalArg) fits

/-- Operands that are converted one after the other, by a conversion that texts have no part in. -/
theorem operands_of_converted {α : Type} (convert : Value → Term → Except EvalFault α)
    (next : α → α → Except EvalFault Value) {left right : Term} {v : Value}
    (typed : ∀ term text a, convert (.raw text) term ≠ .ok a)
    (given : (left.eval env >>= fun x => convert x left >>= fun a =>
      right.eval env >>= fun y => convert y right >>= fun b => next a b) = .ok v) :
    ∃ x, left.eval env = .ok x ∧ (∀ text, x ≠ .raw text) ∧
      ∃ y, right.eval env = .ok y ∧ ∀ text, y ≠ .raw text := by
  obtain ⟨x, evalLeft, afterLeft⟩ := bind_eq_ok_iff.mp given
  obtain ⟨a, isLeft, goesOn⟩ := bind_eq_ok_iff.mp afterLeft
  obtain ⟨y, evalRight, afterRight⟩ := bind_eq_ok_iff.mp goesOn
  obtain ⟨b, isRight, _⟩ := bind_eq_ok_iff.mp afterRight
  refine ⟨x, evalLeft, ?_, y, evalRight, ?_⟩
  · rintro text rfl
    exact typed left text a isLeft
  · rintro text rfl
    exact typed right text b isRight

/-- An operator looks at its left operand, then at its right one unless a premise is false, and has
no use for texts that were not read. -/
theorem operands_of_eval {op : BinaryOp} {left right : Term} {v : Value}
    (given : (Term.binary op left right).eval env = .ok v) :
    ∃ x, left.eval env = .ok x ∧ (∀ text, x ≠ .raw text) ∧
      ((op = .implies ∧ x = .bool false ∧ v = .bool true) ∨
        ((op = .implies → x = .bool true) ∧
          ∃ y, right.eval env = .ok y ∧ ∀ text, y ≠ .raw text)) := by
  by_cases decides : op = .implies
  · subst decides
    rw [eval_implies] at given
    obtain ⟨x, evalLeft, afterLeft⟩ := bind_eq_ok_iff.mp given
    obtain ⟨p, isBool, decided⟩ := bind_eq_ok_iff.mp afterLeft
    rw [Value.toBool_eq_ok] at isBool
    subst isBool
    refine ⟨_, evalLeft, nofun, ?_⟩
    cases p with
    | false => exact .inl ⟨rfl, rfl, (Except.ok.inj decided).symm⟩
    | true =>
      obtain ⟨y, evalRight, afterRight⟩ := bind_eq_ok_iff.mp decided
      obtain ⟨q, isBool, _⟩ := bind_eq_ok_iff.mp afterRight
      rw [Value.toBool_eq_ok] at isBool
      subst isBool
      exact .inr ⟨fun _ => rfl, _, evalRight, nofun⟩
  · have both : ∃ x, left.eval env = .ok x ∧ (∀ text, x ≠ .raw text) ∧
        ∃ y, right.eval env = .ok y ∧ ∀ text, y ≠ .raw text := by
      cases op with
      | implies => exact absurd rfl decides
      | eq =>
        rw [eval_eq] at given
        obtain ⟨x, evalLeft, afterLeft⟩ := bind_eq_ok_iff.mp given
        obtain ⟨y, evalRight, afterRight⟩ := bind_eq_ok_iff.mp afterLeft
        obtain ⟨equal, compared, _⟩ := bind_eq_ok_iff.mp afterRight
        obtain ⟨first, second⟩ := Value.same_typed compared
        exact ⟨x, evalLeft, first, y, evalRight, second⟩
      | iff => exact operands_of_converted (fun x term => x.toBool term) _ nofun given
      | bv op =>
        exact operands_of_converted (fun x term => x.toBitVec term)
          (fun a b => requireWidth a.2 b.2 >>= fun _ =>
            .ok (.bitVec (op.apply a.1 b.1 &&& Width.mask a.2) a.2)) nofun given
      | bvOrder op =>
        exact operands_of_converted (fun x term => x.toBitVec term)
          (fun a b => requireWidth a.2 b.2 >>= fun _ =>
            EvalFault.ofChecked (op.apply env.build a.2 a.1 b.1) >>= fun holds =>
              .ok (.bool holds)) nofun given
      | int op =>
        exact operands_of_converted (fun x term => x.toInt term) _
          (fun _ _ _ same => nomatch Value.toInt_eq_ok.mp same) given
      | intOrder op =>
        exact operands_of_converted (fun x term => x.toInt term) _
          (fun _ _ _ same => nomatch Value.toInt_eq_ok.mp same) given
      | strPrefixOf => exact operands_of_converted (fun x term => x.toStr term) _ nofun given
      | strContains => exact operands_of_converted (fun x term => x.toStr term) _ nofun given
    obtain ⟨x, evalLeft, typedLeft, rightToo⟩ := both
    exact ⟨x, evalLeft, typedLeft, .inr ⟨fun same => absurd same decides, rightToo⟩⟩

/-- Operands of wide bitvectors give the value of what the operator denotes, unless 128 bits are too
few for it. -/
theorem eval_wide_of_values (interp : Interpretation) {op : BinaryOp} {left right : Term}
    {width : UInt32} {x y : Value} {m n : Meaning} (maps : op.Maps (.bitVec width) result)
    (wide : 128 < width.toNat)
    (evalLeft : left.eval env = .ok x) (evalRight : right.eval env = .ok y)
    (first : x.Denotes (.bitVec width) m) (second : y.Denotes (.bitVec width) n)
    (fits : ¬Overruns env (.binary op left right)) :
    ∃ v, (Term.binary op left right).eval env = .ok v ∧
      v.Denotes result (op.denote interp m n) := by
  have kept : 128 ≤ width.toNat := Nat.le_of_lt wide
  have compared := Value.same_of_denotes first second
  obtain ⟨a, rfl, rfl, insideLeft⟩ := first.isBitVec
  obtain ⟨b, rfl, rfl, insideRight⟩ := second.isBitVec
  cases maps with
  | eq => exact ⟨_, eval_eq_of_values evalLeft evalRight compared, .bool _⟩
  | @bv op =>
    have small : op.denote width.toNat a.toNat b.toNat < 2 ^ 128 := Nat.lt_of_not_le fun large =>
      fits (.operation wide evalLeft evalRight ((op.exceeds_iff a b wide).mpr large))
    refine ⟨_, eval_bv_of_values op evalLeft evalRight, ?_⟩
    rw [Width.and_mask_wide _ kept]
    exact .kept kept (op.toNat_apply_wide a b kept) small
  | @bvOrder op =>
    obtain ⟨holds, given, right⟩ := op.apply_wide env.build a b wide
    have whole := eval_bvOrder_of_values op evalLeft evalRight
    rw [given] at whole
    refine ⟨_, whole, .ofEq (right.mpr fun signed => ?_)⟩
    by_contra differ
    exact fits (.order wide evalLeft evalRight signed differ)

theorem Sound.binary {op : BinaryOp} {left right : Term} (maps : op.Maps operand result)
    (first : Sound env interp operand left)
    (second : ∀ x, left.eval env = .ok x → (op = .implies → x = .bool true) →
      Sound env interp operand right)
    (fits : ¬Overruns env (.binary op left right)) :
    Sound env interp result (.binary op left right) := by
  intro v given
  refine .inl ?_
  obtain ⟨x, evalLeft, typedLeft, ⟨rfl, rfl, rfl⟩ | ⟨goesOn, y, evalRight, typedRight⟩⟩ :=
    operands_of_eval given
  · cases maps
    obtain ⟨_, same, holds⟩ := ((first _ evalLeft).denotes typedLeft).isBool
    cases same
    have meaning : (Term.binary .implies left right).denote interp = .bool true := by
      rw [denote, holds]
      rfl
    exact meaning ▸ .bool true
  · have denotesLeft := (first x evalLeft).denotes typedLeft
    have denotesRight := (second x evalLeft goesOn y evalRight).denotes typedRight
    by_cases evaluated : operand.IsEvaluated
    · rcases eval_binary_of_values interp maps evaluated evalLeft evalRight denotesLeft
        denotesRight with ⟨w, same, value⟩ | fails | ⟨stop, stopped⟩
      · cases given.symm.trans same
        exact value
      · obtain ⟨fault, refused⟩ := fails.refused
        cases given.symm.trans refused
      · cases given.symm.trans stopped
    · obtain ⟨width, rfl, wide⟩ := wide_of_denotes denotesLeft evaluated
      obtain ⟨w, same, value⟩ := eval_wide_of_values interp maps wide evalLeft evalRight
        denotesLeft denotesRight fits
      cases given.symm.trans same
      exact value

theorem Sound.ite {condition onTrue onFalse : Term} {sort : SmtSort}
    (test : Sound env interp .bool condition)
    (first : condition.eval env = .ok (.bool true) → Sound env interp sort onTrue)
    (second : condition.eval env = .ok (.bool false) → Sound env interp sort onFalse) :
    Sound env interp sort (.ite condition onTrue onFalse) := by
  intro v given
  rw [eval_ite] at given
  obtain ⟨_, evalTest, given⟩ := bind_eq_ok_iff.mp given
  obtain ⟨holds, isBool, given⟩ := bind_eq_ok_iff.mp given
  rw [Value.toBool_eq_ok] at isBool
  subst isBool
  obtain ⟨_, same, meaning⟩ := ((test _ evalTest).denotes nofun).isBool
  cases same
  rw [denote, meaning, Meaning.toBool]
  cases holds with
  | true => exact first evalTest v given
  | false => exact second evalTest v given

/-- The operands that an operator looks at are sound. -/
def SoundAmong (env : Assignment) (interp : Interpretation) (sort : SmtSort) (op : NaryOp) :
    List Term → Prop
  | [] => True
  | arg :: rest => Sound env interp sort arg ∧
      ∀ x, arg.eval env = .ok x → op.GoesOn x → SoundAmong env interp sort op rest

theorem soundAmong_of_reached {op : NaryOp} {sort : SmtSort} (args : List Term)
    (each : ∀ before arg after, args = before ++ arg :: after →
      (∀ earlier ∈ before, ∃ x, earlier.eval env = .ok x ∧ op.GoesOn x) →
      Sound env interp sort arg) : SoundAmong env interp sort op args := by
  induction args with
  | nil => trivial
  | cons arg rest ih =>
    refine ⟨each [] arg rest rfl (fun _ absent => absurd absent List.not_mem_nil), ?_⟩
    intro x evalArg goesOn
    refine ih ?_
    rintro before inner after rfl earlier
    refine each (arg :: before) inner after rfl ?_
    intro previous among
    rcases List.mem_cons.mp among with rfl | among
    · exact ⟨x, evalArg, goesOn⟩
    · exact earlier previous among

theorem allTrue_sound {args : List Term} {holds : Bool}
    (sound : SoundAmong env interp .bool .and args) (given : allTrue env args = .ok holds) :
    holds = (denoteAll interp args).all Meaning.toBool := by
  induction args with
  | nil => exact (Except.ok.inj given).symm
  | cons arg rest ih =>
    obtain ⟨first, others⟩ := sound
    rw [allTrue_cons] at given
    obtain ⟨_, evalArg, given⟩ := bind_eq_ok_iff.mp given
    obtain ⟨here, isBool, given⟩ := bind_eq_ok_iff.mp given
    rw [Value.toBool_eq_ok] at isBool
    subst isBool
    obtain ⟨_, same, meaning⟩ := ((first _ evalArg).denotes nofun).isBool
    cases same
    rw [denoteAll, List.all_cons, meaning]
    cases here with
    | true => exact ih (others _ evalArg rfl) given
    | false => exact (Except.ok.inj given).symm

theorem anyTrue_sound {args : List Term} {holds : Bool}
    (sound : SoundAmong env interp .bool .or args) (given : anyTrue env args = .ok holds) :
    holds = (denoteAll interp args).any Meaning.toBool := by
  induction args with
  | nil => exact (Except.ok.inj given).symm
  | cons arg rest ih =>
    obtain ⟨first, others⟩ := sound
    rw [anyTrue_cons] at given
    obtain ⟨_, evalArg, given⟩ := bind_eq_ok_iff.mp given
    obtain ⟨here, isBool, given⟩ := bind_eq_ok_iff.mp given
    rw [Value.toBool_eq_ok] at isBool
    subst isBool
    obtain ⟨_, same, meaning⟩ := ((first _ evalArg).denotes nofun).isBool
    cases same
    rw [denoteAll, List.any_cons, meaning]
    cases here with
    | true => exact (Except.ok.inj given).symm
    | false => exact ih (others _ evalArg rfl) given

theorem evalAll_sound {sort : SmtSort} {args : List Term} {values : List Value}
    (sound : SoundAmong env interp sort .distinct args) (given : evalAll env args = .ok values) :
    List.Forall₂ (Value.Stands · sort ·) values (denoteAll interp args) := by
  induction args generalizing values with
  | nil =>
    cases given
    exact .nil
  | cons arg rest ih =>
    obtain ⟨first, others⟩ := sound
    rw [evalAll_cons] at given
    obtain ⟨x, evalArg, given⟩ := bind_eq_ok_iff.mp given
    obtain ⟨more, evalRest, made⟩ := bind_eq_ok_iff.mp given
    cases made
    exact .cons (first x evalArg) (ih (others x evalArg trivial) evalRest)

theorem evalTexts_sound {args : List Term} {texts : List String}
    (sound : SoundAmong env interp .string .strConcat args)
    (given : evalTexts env args = .ok texts) :
    texts.flatMap String.toList = (denoteAll interp args).flatMap Meaning.toChars := by
  induction args generalizing texts with
  | nil =>
    cases given
    rfl
  | cons arg rest ih =>
    obtain ⟨first, others⟩ := sound
    rw [evalTexts_cons] at given
    obtain ⟨_, evalArg, given⟩ := bind_eq_ok_iff.mp given
    obtain ⟨text, isStr, given⟩ := bind_eq_ok_iff.mp given
    obtain ⟨more, evalRest, made⟩ := bind_eq_ok_iff.mp given
    rw [Value.toStr_eq_ok] at isStr
    subst isStr
    cases made
    obtain ⟨_, same, meaning⟩ := ((first _ evalArg).denotes nofun).isStr
    cases same
    rw [denoteAll, List.flatMap_cons, List.flatMap_cons, meaning, Meaning.toChars,
      ih (others _ evalArg trivial) evalRest]

end

end Term

namespace Value

variable {x : Value} {sort : SmtSort} {m : Meaning} {values : List Value} {meanings : List Meaning}

theorem differsFrom_sound (stands : x.Stands sort m)
    (others : List.Forall₂ (Stands · sort ·) values meanings) {differs : Bool}
    (given : x.differsFrom values = .ok differs) : differs = decide (m ∉ meanings) := by
  induction others with
  | nil => exact (Except.ok.inj given).symm
  | @cons value meaning values meanings second _ ih =>
    rw [differsFrom] at given
    cases compared : x.same value with
    | error fault =>
      rw [compared] at given
      cases given
    | ok equal =>
      obtain ⟨typedX, typedValue⟩ := same_typed compared
      have exact := same_of_denotes (stands.denotes typedX) (second.denotes typedValue)
      rw [compared] at given exact
      obtain rfl : equal = (m == meaning) := Except.ok.inj exact
      by_cases alike : m = meaning
      · simp only [alike, beq_self_eq_true] at given ⊢
        simpa using (Except.ok.inj given).symm
      · have different : (m == meaning) = false := beq_eq_false_iff_ne.mpr alike
        rw [different] at given
        rw [ih given]
        simp [alike]

theorem allDiffer_sound (all : List.Forall₂ (Stands · sort ·) values meanings) {differ : Bool}
    (given : allDiffer values = .ok differ) : differ = decide meanings.Nodup := by
  induction all with
  | nil => exact (Except.ok.inj given).symm
  | @cons value meaning values meanings first others ih =>
    rw [allDiffer] at given
    cases differs : value.differsFrom values with
    | error fault =>
      rw [differs] at given
      cases given
    | ok apart =>
      have exact := differsFrom_sound first others differs
      rw [differs] at given
      by_cases among : meaning ∈ meanings
      · simp only [among, not_true_eq_false, decide_false] at exact
        subst exact
        simpa [among] using (Except.ok.inj given).symm
      · simp only [among, not_false_eq_true, decide_true] at exact
        subst exact
        rw [ih given]
        simp [among]

end Value

namespace Term

section

variable {env : Assignment} {interp : Interpretation} {sorts : String → Option SmtSort}
  {operand result sort : SmtSort} {term inner : Term}

theorem Sound.nary {op : NaryOp} {args : List Term} (maps : op.Maps operand result)
    (sound : SoundAmong env interp operand op args) : Sound env interp result (.nary op args) := by
  intro v given
  refine .inl ?_
  cases maps with
  | and =>
    rw [eval_and] at given
    obtain ⟨holds, decided, made⟩ := bind_eq_ok_iff.mp given
    cases made
    exact .ofEq (allTrue_sound sound decided)
  | or =>
    rw [eval_or] at given
    obtain ⟨holds, decided, made⟩ := bind_eq_ok_iff.mp given
    cases made
    exact .ofEq (anyTrue_sound sound decided)
  | distinct =>
    rw [eval_distinct] at given
    obtain ⟨values, evalArgs, compared⟩ := bind_eq_ok_iff.mp given
    obtain ⟨differ, decided, made⟩ := bind_eq_ok_iff.mp compared
    cases made
    exact .ofEq (Value.allDiffer_sound (evalAll_sound sound evalArgs) decided)
  | strConcat =>
    rw [eval_strConcat] at given
    obtain ⟨texts, evalArgs, made⟩ := bind_eq_ok_iff.mp given
    cases made
    rw [denote, NaryOp.denote, ← evalTexts_sound sound evalArgs, ← String.toList_join]
    exact .str _

/-- Literals up to 128 bits, and those that are not negative, have the value of their meaning. -/
theorem Sound.bitVecLit {value : Int128} {width : UInt32}
    (fits : ¬Overruns env (.bitVecLit value width)) :
    Sound env interp (.bitVec width) (.bitVecLit value width) := by
  rintro v ⟨⟩
  refine .inl ?_
  by_cases narrow : width.toNat ≤ 128
  · exact .masked (Width.toNat_and_mask_eq_residue narrow value.toNat_bits)
  · have kept : 128 ≤ width.toNat := by omega
    have wide : 128 < width.toNat := Nat.lt_of_not_le narrow
    have small : residue width.toNat value.val < 2 ^ 128 := Nat.lt_of_not_le fun large =>
      fits (.literal wide ((value.residue_exceeds_iff wide).mpr large))
    rw [Width.and_mask_wide _ kept]
    exact .kept kept (Width.toNat_eq_residue_mod kept value.toNat_bits) small

/-- The value of a sorted term is not wrong if the constants are not and no operation that was
evaluated overruns. -/
theorem Sound.of_sorted (constants : ∀ name sort, sorts name = some sort →
      Sound env interp sort (.const name)) (wellSorted : term.Sorted sorts sort)
    (fits : ∀ inner, Evaluates env term inner → ¬Overruns env inner) :
    Sound env interp sort term := by
  induction wellSorted with
  | boolLit =>
    rintro v ⟨⟩
    exact .inl (.bool _)
  | intLit =>
    rintro v ⟨⟩
    exact .inl (.int _)
  | bitVecLit => exact .bitVecLit (fits _ .self)
  | stringLit =>
    rintro v ⟨⟩
    exact .inl (.str _)
  | const declared => exact constants _ _ declared
  | unary maps _ ih =>
    exact .unary maps (ih fun inner evaluated => fits inner (.operand evaluated)) (fits _ .self)
  | binary maps _ _ first second =>
    refine .binary maps (first fun inner evaluated => fits inner (.left evaluated)) ?_
      (fits _ .self)
    intro x evalLeft goesOn
    exact second fun inner evaluated => fits inner (.right evalLeft goesOn evaluated)
  | ite _ _ _ test first second =>
    refine .ite (test fun inner evaluated => fits inner (.condition evaluated)) ?_ ?_
    · intro evalTest
      exact first fun inner evaluated => fits inner (.onTrue evalTest evaluated)
    · intro evalTest
      exact second fun inner evaluated => fits inner (.onFalse evalTest evaluated)
  | nary maps _ ih =>
    refine .nary maps (soundAmong_of_reached _ ?_)
    rintro before arg after rfl earlier
    have among : arg ∈ before ++ arg :: after := List.mem_append_right _ List.mem_cons_self
    exact ih arg among fun inner evaluated => fits inner (.argument earlier evaluated)
  | app => rintro v ⟨⟩

end

end Term

end SmtSession

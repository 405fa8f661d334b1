import SmtSession.Proofs.Literals
import SmtSession.Proofs.ModelEvaluation
import SmtSession.Proofs.WideEvaluation

namespace SmtSession

namespace Term

section

variable {env : Assignment} {interp : Interpretation} {sorts : String → Option SmtSort}
  {sort : SmtSort} {term inner : Term}

theorem Evaluates.trans {innermost : Term} (outer : Evaluates env term inner)
    (further : Evaluates env inner innermost) : Evaluates env term innermost := by
  induction outer with
  | self => exact further
  | operand _ ih => exact .operand (ih further)
  | left _ ih => exact .left (ih further)
  | right evalLeft goesOn _ ih => exact .right evalLeft goesOn (ih further)
  | condition _ ih => exact .condition (ih further)
  | onTrue evalTest _ ih => exact .onTrue evalTest (ih further)
  | onFalse evalTest _ ih => exact .onFalse evalTest (ih further)
  | argument earlier _ ih => exact .argument earlier (ih further)

theorem Sorted.of_evaluates (wellSorted : term.Sorted sorts sort)
    (evaluated : Evaluates env term inner) : ∃ sort, inner.Sorted sorts sort := by
  induction evaluated generalizing sort with
  | self => exact ⟨sort, wellSorted⟩
  | operand _ ih =>
    cases wellSorted with
    | unary _ arg => exact ih arg
  | left _ ih =>
    cases wellSorted with
    | binary _ left _ => exact ih left
  | right _ _ _ ih =>
    cases wellSorted with
    | binary _ _ right => exact ih right
  | condition _ ih =>
    cases wellSorted with
    | ite condition _ _ => exact ih condition
  | onTrue _ _ ih =>
    cases wellSorted with
    | ite _ onTrue _ => exact ih onTrue
  | onFalse _ _ ih =>
    cases wellSorted with
    | ite _ _ onFalse => exact ih onFalse
  | argument _ _ ih =>
    cases wellSorted with
    | nary _ args => exact ih (args _ (List.mem_append_right _ List.mem_cons_self))

/-- A term with a sort, a value, and another meaning. -/
def Wrong (env : Assignment) (interp : Interpretation) (sorts : String → Option SmtSort)
    (term : Term) : Prop :=
  ∃ sort v, term.Sorted sorts sort ∧ term.eval env = .ok v ∧ ¬v.Stands sort (term.denote interp)

/-- The meaning that a value of bits is not wrong for. -/
theorem Sound.number_eq {bits : BitVec 128} {width : UInt32} (sound : Sound env interp sort term)
    (given : term.eval env = .ok (.bitVec bits width)) :
    (term.denote interp).number = bits.toNat ∧ (term.denote interp).width = width.toNat := by
  have denotes := (sound _ given).denotes nofun
  generalize term.denote interp = m at denotes
  cases denotes
  exact ⟨rfl, rfl⟩

theorem Sound.number_lt {bits : BitVec 128} {width : UInt32} (sound : Sound env interp sort term)
    (given : term.eval env = .ok (.bitVec bits width)) : (term.denote interp).number < 2 ^ 128 := by
  rw [(sound.number_eq given).1]
  exact bits.isLt

/-- An operation that overruns has a value that is wrong, or one of its operands has. -/
theorem Overruns.wrong (overruns : Overruns env term) (wellSorted : term.Sorted sorts sort) :
    ∃ inner, Evaluates env term inner ∧ inner.Wrong env interp sorts := by
  by_contra none
  have sound : ∀ inner innerSort, Evaluates env term inner → inner.Sorted sorts innerSort →
      Sound env interp innerSort inner := by
    intro inner innerSort evaluated sorted v given
    by_contra wrong
    exact none ⟨inner, evaluated, innerSort, v, sorted, given, wrong⟩
  have whole := sound term sort .self wellSorted
  cases overruns with
  | @literal value width wide negative =>
    have small : residue width.toNat value.val < 2 ^ 128 := whole.number_lt rfl
    exact absurd ((value.residue_exceeds_iff wide).mp negative) (Nat.not_le.mpr small)
  | @negation arg bits width wide evalArg nonzero =>
    cases wellSorted with
    | unary _ sortedArg =>
      obtain ⟨number, same⟩ := (sound arg _ (.operand .self) sortedArg).number_eq evalArg
      have given : (Term.unary .bvNeg arg).eval env =
          .ok (.bitVec (-bits &&& Width.mask width) width) := by
        rw [eval_unary, evalArg]
        rfl
      have small : residue (arg.denote interp).width (-(arg.denote interp).number) < 2 ^ 128 :=
        whole.number_lt given
      rw [number, same] at small
      exact absurd ((residue_neg_exceeds_iff bits wide).mp nonzero) (Nat.not_le.mpr small)
  | @complement arg bits width wide evalArg =>
    cases wellSorted with
    | unary _ sortedArg =>
      obtain ⟨number, same⟩ := (sound arg _ (.operand .self) sortedArg).number_eq evalArg
      have given : (Term.unary .bvNot arg).eval env =
          .ok (.bitVec (~~~bits &&& Width.mask width) width) := by
        rw [eval_unary, evalArg]
        rfl
      have small : 2 ^ (arg.denote interp).width - 1 - (arg.denote interp).number < 2 ^ 128 :=
        whole.number_lt given
      rw [number, same] at small
      exact absurd (complement_exceeds bits wide) (Nat.not_le.mpr small)
  | @operation op left right a b width wide evalLeft evalRight exceeds =>
    cases wellSorted with
    | binary _ sortedLeft sortedRight =>
      obtain ⟨numberLeft, same⟩ := (sound left _ (.left .self) sortedLeft).number_eq evalLeft
      obtain ⟨numberRight, _⟩ :=
        (sound right _ (.right evalLeft nofun .self) sortedRight).number_eq evalRight
      have small : op.denote (left.denote interp).width (left.denote interp).number
          (right.denote interp).number < 2 ^ 128 :=
        whole.number_lt (eval_bv_of_values op evalLeft evalRight)
      rw [numberLeft, numberRight, same] at small
      exact absurd ((op.exceeds_iff a b wide).mp exceeds) (Nat.not_le.mpr small)
  | @order op left right a b width wide evalLeft evalRight signed differ =>
    cases wellSorted with
    | binary _ sortedLeft sortedRight =>
      obtain ⟨numberLeft, same⟩ := (sound left _ (.left .self) sortedLeft).number_eq evalLeft
      obtain ⟨numberRight, _⟩ :=
        (sound right _ (.right evalLeft nofun .self) sortedRight).number_eq evalRight
      obtain ⟨holds, given, exactly⟩ := op.apply_wide env.build a b wide
      have evaluated := eval_bvOrder_of_values op evalLeft evalRight
      rw [given] at evaluated
      have denotes := (whole _ evaluated).denotes nofun
      have meaning : (Term.binary (.bvOrder op) left right).denote interp =
          .bool (op.denote (left.denote interp).width (left.denote interp).number
            (right.denote interp).number) := rfl
      rw [meaning, numberLeft, numberRight, same] at denotes
      have agrees : holds = op.denote width.toNat a.toNat b.toNat := by
        generalize op.denote width.toNat a.toNat b.toNat = answer at denotes
        cases denotes
        rfl
      exact differ (exactly.mp agrees signed)

/-- A text as a value is that of a constant that was evaluated. -/
theorem unread_of_eval {text : String} (wellSorted : term.Sorted sorts sort)
    (given : term.eval env = .ok (.raw text)) :
    ∃ name, Evaluates env term (.const name) ∧ env.lookup name = .ok (.raw text) := by
  induction wellSorted with
  | boolLit | intLit | bitVecLit | stringLit | app => cases given
  | @const name => exact ⟨name, .self, given⟩
  | unary =>
    rw [eval_unary] at given
    obtain ⟨x, _, applied⟩ := bind_eq_ok_iff.mp given
    exact absurd rfl ((apply_typed applied).2 text)
  | binary => exact absurd rfl (eval_binary_typed given text)
  | ite _ _ _ _ first second =>
    rw [eval_ite] at given
    obtain ⟨_, evalTest, afterTest⟩ := bind_eq_ok_iff.mp given
    obtain ⟨holds, isBool, chosen⟩ := bind_eq_ok_iff.mp afterTest
    rw [Value.toBool_eq_ok] at isBool
    subst isBool
    cases holds with
    | true =>
      obtain ⟨name, evaluated, unread⟩ := first chosen
      exact ⟨name, .onTrue evalTest evaluated, unread⟩
    | false =>
      obtain ⟨name, evaluated, unread⟩ := second chosen
      exact ⟨name, .onFalse evalTest evaluated, unread⟩
  | nary maps =>
    cases maps with
    | and | or | strConcat =>
      obtain ⟨_, _, made⟩ := bind_eq_ok_iff.mp given
      cases made
    | distinct =>
      rw [eval_distinct] at given
      obtain ⟨_, _, compared⟩ := bind_eq_ok_iff.mp given
      obtain ⟨_, _, made⟩ := bind_eq_ok_iff.mp compared
      cases made

end

end Term

theorem Value.denotes_default {sort : SmtSort} {v : Value}
    (completed : Value.default? sort = some v) :
    sort.isInterpreted = true ∧ v.Denotes sort (Meaning.default sort) := by
  cases sort with
  | bool =>
    cases completed
    exact ⟨rfl, .bool false⟩
  | int =>
    cases completed
    exact ⟨rfl, .int (.wrap 0)⟩
  | bitVec width =>
    cases completed
    exact ⟨rfl, .bitVec (Nat.two_pow_pos _)⟩
  | string =>
    cases completed
    exact ⟨rfl, .str ""⟩
  | uninterpreted name => cases completed

/-- The constants mean what a model says: the value of the last text, where that is read at the
sort, and the default of the sort where there is no text. -/
structure Interpretation.Reads (interp : Interpretation) (build : Build)
    (sorts : List (String × SmtSort)) (raw : Model) : Prop where
  assigned : ∀ name sort text value, lookupLast? name sorts = some sort →
    lookupLast? name raw.assignments = some text → Value.read build text sort = .ok value →
    (∀ kept, value ≠ .raw kept) → interp.constant name = value.meaning
  completed : ∀ name sort, lookupLast? name sorts = some sort →
    lookupLast? name raw.assignments = none → sort.isInterpreted = true →
    interp.constant name = Meaning.default sort

namespace Interpretation

variable {interp : Interpretation} {build : Build} {producedAt : Nat}
  {sorts : List (String × SmtSort)} {raw : Model} {model : ResultModel}

theorem reads_ofModel (quotientByZero remainderByZero : Int → Int) :
    (ofModel build sorts raw quotientByZero remainderByZero).Reads build sorts raw where
  assigned name sort text value declared given taken _ := by
    simp only [ofModel, declared, given, taken, Checked.meaning]
  completed name sort declared absent _ := by simp only [ofModel, declared, absent]

theorem Reads.sound (reads : interp.Reads build sorts raw)
    (readFrom : ResultModel.ReadFrom build producedAt sorts raw model) {name : String}
    {sort : SmtSort} (declared : lookupLast? name sorts = some sort) :
    Term.Sound model.assignment interp sort (.const name) := by
  intro v given
  have looked : model.assignment.lookup name = .ok v := given
  have same := readFrom.lookup name
  unfold Assignment.lookup at looked
  simp only [readFrom.sameSorts, declared] at looked
  rw [Term.denote]
  cases assigned : lookupLast? name raw.assignments with
  | some text =>
    rw [assigned, Option.map_some, ResultModel.typedValue, declared] at same
    obtain ⟨w, found, taken⟩ := Option.map_eq_some_iff.mp same
    rw [found] at looked
    cases looked
    by_cases unread : ∃ kept, v = .raw kept
    · exact .inr unread
    · have known : ∀ kept, v ≠ .raw kept := fun kept same => unread ⟨kept, same⟩
      rw [reads.assigned name sort text v declared assigned taken.symm known]
      exact .inl ((Value.read_cases taken.symm).resolve_right (known _))
  | none =>
    rw [assigned, Option.map_none, Option.map_eq_none_iff] at same
    rw [same] at looked
    cases completed : Value.default? sort with
    | none =>
      rw [completed] at looked
      cases looked
    | some default =>
      rw [completed] at looked
      cases looked
      obtain ⟨interpreted, denotes⟩ := Value.denotes_default completed
      rw [reads.completed name sort declared assigned interpreted]
      exact .inl denotes

end Interpretation

namespace Term

theorem indexedChars_inj {m n : Nat} {width : UInt32}
    (same : indexedChars m width = indexedChars n width) : m = n := by
  have digits : Numeral.decimal m = Numeral.decimal n := by
    simpa [indexedChars] using same
  have read := congrArg (Numeral.digits? 10) digits
  rw [Numeral.decimal, Numeral.decimal, Numeral.digits?_toDigits (by decide) (by decide),
    Numeral.digits?_toDigits (by decide) (by decide)] at read
  exact Option.some.inj read

/-- A literal is printed as its residue, unless it is negative and wider than 128 bits. -/
theorem bitVecChars_iff (value : Int128) (width : UInt32) :
    bitVecChars value width = indexedChars (residue width.toNat value.val) width ↔
      width.toNat ≤ 128 ∨ 0 ≤ value.val := by
  by_cases narrow : width.toNat ≤ 128
  · rw [bitVecChars, Width.toNat_and_mask_eq_residue narrow value.toNat_bits]
    simp [narrow]
  · have kept : 128 ≤ width.toNat := by omega
    have exceeds := value.residue_exceeds_iff (Nat.lt_of_not_le narrow)
    rw [bitVecChars, Width.and_mask_wide _ kept]
    constructor
    · intro same
      have small := value.bits.isLt
      rw [indexedChars_inj same] at small
      omega
    · intro either
      have small : residue width.toNat value.val < 2 ^ 128 := by omega
      rw [Width.toNat_eq_residue_mod kept value.toNat_bits, Nat.mod_eq_of_lt small]

end Term

namespace ResultModel

variable {build : Build} {producedAt : Nat} {sorts : List (String × SmtSort)} {raw : Model}
  {model : ResultModel}

theorem eval_of_evaluate {generation : Nat} {term : Term} {v : Value}
    (given : model.evaluate generation term = .ok (.ok v)) : term.eval model.assignment = .ok v := by
  unfold evaluate at given
  split at given
  · cases given
  · cases found : term.eval model.assignment with
    | error fault =>
      rw [found] at given
      obtain ⟨message, _, made⟩ := bind_eq_ok_iff.mp given
      cases made
    | ok value =>
      rw [found] at given
      cases given
      rfl

/-- At any width, a term has the value of its meaning, or the text of a constant that was not read,
unless an operation that was evaluated overruns 128 bits; then, and only then, some term that was
evaluated has a value and not that of its meaning. A literal is printed as its residue unless it is
negative and wider than 128 bits. -/
theorem evaluate_any_width (given : ofModel build producedAt sorts raw = .ok model)
    {interp : Interpretation} {term : Term} {sort : SmtSort}
    (reads : interp.Reads build sorts raw) (wellSorted : term.Sorted (lookupLast? · sorts) sort) :
    ((∀ inner, term.Evaluates model.assignment inner → ¬inner.Overruns model.assignment) →
      ∀ generation v, model.evaluate generation term = .ok (.ok v) →
        v.Denotes sort (term.denote interp) ∨
          ∃ name text, v = .raw text ∧ term.Evaluates model.assignment (.const name) ∧
            model.assignment.lookup name = .ok (.raw text)) ∧
    ((∃ inner, term.Evaluates model.assignment inner ∧ inner.Overruns model.assignment) ↔
      ∃ inner, term.Evaluates model.assignment inner ∧
        inner.Wrong model.assignment interp (lookupLast? · sorts)) ∧
    ∀ value width,
      (Term.bitVecLit value width).chars = Term.indexedChars (residue width.toNat value.val) width ↔
        width.toNat ≤ 128 ∨ 0 ≤ value.val := by
  have readFrom := readFrom_of_ofModel given
  have sound (inner : Term) (innerSort : SmtSort)
      (sorted : inner.Sorted (lookupLast? · sorts) innerSort)
      (fits : ∀ operation, inner.Evaluates model.assignment operation →
        ¬operation.Overruns model.assignment) :=
    Term.Sound.of_sorted (fun _ _ => reads.sound readFrom) sorted fits
  refine ⟨?_, ⟨?_, ?_⟩, Term.bitVecChars_iff⟩
  · intro fits generation v answered
    have evaluated := eval_of_evaluate answered
    rcases sound term sort wellSorted fits v evaluated with denotes | ⟨text, rfl⟩
    · exact .inl denotes
    · obtain ⟨name, constant, unread⟩ := Term.unread_of_eval wellSorted evaluated
      exact .inr ⟨name, text, rfl, constant, unread⟩
  · rintro ⟨inner, evaluated, overruns⟩
    obtain ⟨innerSort, sorted⟩ := wellSorted.of_evaluates evaluated
    obtain ⟨innermost, further, wrong⟩ := overruns.wrong sorted
    exact ⟨innermost, evaluated.trans further, wrong⟩
  · rintro ⟨inner, evaluated, innerSort, v, sorted, answered, wrong⟩
    by_contra none
    refine wrong (sound inner innerSort sorted ?_ v answered)
    intro operation further overruns
    exact none ⟨operation, evaluated.trans further, overruns⟩

/-- A byte in 200 bits is less than its successor, as signed numbers too. -/
def byteSorts : List (String × SmtSort) := [("x", .bitVec 200)]

def byteModel : Model := ⟨[("x", "#xff")]⟩

def byteEnv : Assignment := { values := [("x", .bitVec 255 200)], sorts := byteSorts }

theorem ofModel_byteModel : ofModel .checked 0 byteSorts byteModel =
    .ok { producedAt := 0, raw := byteModel, assignment := byteEnv } := rfl

def successorTerm : Term :=
  .binary (.bvOrder .slt) (.const "x") (.binary (.bv .add) (.const "x") (.bitVecLit (.wrap 1) 200))

theorem successorTerm_sorted : successorTerm.Sorted (lookupLast? · byteSorts) .bool := by
  have byte : Term.Sorted (lookupLast? · byteSorts) (.const "x") (.bitVec 200) := .const rfl
  exact .binary .bvOrder byte (.binary .bv byte .bitVecLit)

theorem successorTerm_fits (inner : Term) (evaluated : successorTerm.Evaluates byteEnv inner) :
    ¬inner.Overruns byteEnv := by
  have byte : (Term.const "x").eval byteEnv = .ok (.bitVec 255 200) := rfl
  have one : (Term.bitVecLit (.wrap 1) 200).eval byteEnv = .ok (.bitVec 1 200) := rfl
  have next : (Term.binary (.bv .add) (.const "x") (.bitVecLit (.wrap 1) 200)).eval byteEnv =
      .ok (.bitVec 256 200) := rfl
  cases evaluated with
  | self =>
    intro overruns
    cases overruns with
    | order wide evalLeft evalRight signed differ =>
      cases byte.symm.trans evalLeft
      cases next.symm.trans evalRight
      exact differ rfl
  | left constant =>
    cases constant
    nofun
  | right _ _ sum =>
    cases sum with
    | self =>
      intro overruns
      cases overruns with
      | operation wide evalLeft evalRight exceeds =>
        cases byte.symm.trans evalLeft
        cases one.symm.trans evalRight
        exact absurd exceeds
          (show ¬2 ^ 128 ≤ (255 : BitVec 128).toNat + (1 : BitVec 128).toNat by decide)
    | left constant =>
      cases constant
      nofun
    | right _ _ literal =>
      cases literal
      intro overruns
      cases overruns with
      | literal wide negative => exact absurd negative (by decide)

theorem successorTerm_true :
    (∃ model, ofModel .checked 0 byteSorts byteModel = .ok model ∧
      model.evaluate 0 successorTerm = .ok (.ok (.bool true))) ∧
    (Interpretation.ofModel .checked byteSorts byteModel id id).Reads .checked byteSorts
      byteModel ∧
    successorTerm.Sorted (lookupLast? · byteSorts) .bool ∧
    successorTerm.denote (.ofModel .checked byteSorts byteModel id id) = .bool true := by
  have reads := @Interpretation.reads_ofModel .checked byteSorts byteModel id id
  obtain ⟨fitting, _, _⟩ := evaluate_any_width ofModel_byteModel reads successorTerm_sorted
  refine ⟨⟨_, ofModel_byteModel, rfl⟩, reads, successorTerm_sorted, ?_⟩
  rcases fitting successorTerm_fits 0 (.bool true) rfl with denotes | ⟨_, _, same, _⟩
  · obtain ⟨_, same, meaning⟩ := denotes.isBool
    cases same
    exact meaning
  · cases same

/-- Zero and 2¹²⁷ in 129 bits. -/
def middleTerm : Term :=
  .binary (.bvOrder .slt) (.bitVecLit (.wrap 0) 129)
    (.binary (.bv .add) (.bitVecLit (.wrap 0x7fffffffffffffffffffffffffffffff) 129)
      (.bitVecLit (.wrap 1) 129))

/-- In 129 bits, zero is not found to be less than 2¹²⁷, and the literal of minus one is printed as
2¹²⁸ − 1. -/
theorem wide_order_and_literal_wrong :
    middleTerm.Sorted (lookupLast? · []) .bool ∧
      (ofModel .checked 0 [] {} >>= fun model => model.evaluate 0 middleTerm) =
        .ok (.ok (.bool false)) ∧
      (∀ interp, middleTerm.denote interp = .bool true) ∧
      (Term.bitVecLit (.wrap (-1)) 129).text =
        "(_ bv340282366920938463463374607431768211455 129)" ∧
      residue 129 (Int128.wrap (-1)).val = 2 ^ 129 - 1 := by
  refine ⟨.binary .bvOrder .bitVecLit (.binary .bv .bitVecLit .bitVecLit), ?_, ?_, ?_, ?_⟩
  · rfl
  · intro interp
    have less : BvOrder.denote 129 .slt (residue 129 (Int128.wrap 0).val)
        (BvOp.denote 129 .add (residue 129 (Int128.wrap 0x7fffffffffffffffffffffffffffffff).val)
          (residue 129 (Int128.wrap 1).val)) = true := by decide +kernel
    exact congrArg Meaning.bool less
  · decide +kernel
  · have minusOne : (Int128.wrap (-1)).val = -1 := by decide +kernel
    rw [minusOne]
    decide +kernel

end ResultModel

end SmtSession

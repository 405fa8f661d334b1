import Mathlib.Data.List.Forall2
import SmtSession.Proofs.Refusal

namespace SmtSession

namespace Term

/-- A term that has all values of another one. -/
def Covers (full part : Term) : Prop :=
  ∀ env value, part.eval env = .ok value → full.eval env = .ok value

theorem Covers.refl (term : Term) : Covers term term := fun _ _ given => given

variable {full part left left' right right' : Term}

theorem apply_covers {op : UnaryOp} {x value : Value} (given : op.apply part x = .ok value) :
    op.apply full x = .ok value := by
  cases op <;> cases x <;> first | exact given | cases given

theorem Covers.unary (op : UnaryOp) (covers : Covers full part) :
    Covers (.unary op full) (.unary op part) := by
  intro env value given
  rw [eval_unary] at given ⊢
  obtain ⟨x, evalPart, applied⟩ := bind_eq_ok_iff.mp given
  rw [covers env x evalPart, ok_bind]
  exact apply_covers applied

/-- An equivalence is an equality of truth values. -/
theorem Covers.iff (first : Covers left left') (second : Covers right right') :
    Covers (.binary .eq left right) (.binary .iff left' right') := by
  intro env value given
  simp only [eval_iff, bind_eq_ok_iff, Value.toBool_eq_ok] at given
  obtain ⟨_, evalLeft, p, rfl, _, evalRight, q, rfl, given⟩ := given
  rw [← given]
  exact eval_eq_of_values (first env _ evalLeft) (second env _ evalRight) rfl

theorem Covers.binary (op : BinaryOp) (first : Covers left left') (second : Covers right right') :
    Covers (.binary op left right) (.binary op left' right') := by
  intro env value given
  cases op with
  | implies =>
    simp only [eval_implies, bind_eq_ok_iff, Value.toBool_eq_ok] at given
    obtain ⟨_, evalLeft, p, rfl, given⟩ := given
    cases p with
    | false =>
      rw [← given]
      exact eval_implies_false right (first env _ evalLeft)
    | true =>
      simp only [↓reduceIte, bind_eq_ok_iff, Value.toBool_eq_ok] at given
      obtain ⟨_, evalRight, q, rfl, given⟩ := given
      rw [← given]
      exact eval_implies_of_values (first env _ evalLeft) (second env _ evalRight)
  | iff =>
    simp only [eval_iff, bind_eq_ok_iff, Value.toBool_eq_ok] at given
    obtain ⟨_, evalLeft, p, rfl, _, evalRight, q, rfl, given⟩ := given
    rw [← given]
    exact eval_iff_of_values (first env _ evalLeft) (second env _ evalRight)
  | eq =>
    simp only [eval_eq, bind_eq_ok_iff] at given
    obtain ⟨x, evalLeft, y, evalRight, equal, compared, given⟩ := given
    rw [← given]
    exact eval_eq_of_values (first env x evalLeft) (second env y evalRight) compared
  | bv op =>
    simp only [eval_bv, bind_eq_ok_iff, Prod.exists, Value.toBitVec_eq_ok,
      requireWidth_eq_ok] at given
    obtain ⟨_, evalLeft, a, width, rfl, _, evalRight, b, _, rfl, _, rfl, given⟩ := given
    rw [← given]
    exact eval_bv_of_values op (first env _ evalLeft) (second env _ evalRight)
  | bvOrder op =>
    simp only [eval_bvOrder, bind_eq_ok_iff, Prod.exists, Value.toBitVec_eq_ok,
      requireWidth_eq_ok] at given
    obtain ⟨_, evalLeft, a, width, rfl, _, evalRight, b, _, rfl, _, rfl, holds, compared, given⟩ :=
      given
    rw [eval_bvOrder_of_values op (first env _ evalLeft) (second env _ evalRight), compared]
    exact given
  | int op =>
    simp only [eval_int, bind_eq_ok_iff, Value.toInt_eq_ok] at given
    obtain ⟨_, evalLeft, a, rfl, _, evalRight, b, rfl, given⟩ := given
    rw [eval_int_of_values op (first env _ evalLeft) (second env _ evalRight)]
    cases result : op.result? a b with
    | none =>
      rw [result] at given
      cases given
    | some n =>
      rw [result] at given
      exact given
  | intOrder op =>
    simp only [eval_intOrder, bind_eq_ok_iff, Value.toInt_eq_ok] at given
    obtain ⟨_, evalLeft, a, rfl, _, evalRight, b, rfl, given⟩ := given
    rw [← given]
    exact eval_intOrder_of_values op (first env _ evalLeft) (second env _ evalRight)
  | strPrefixOf =>
    simp only [eval_strPrefixOf, bind_eq_ok_iff, Value.toStr_eq_ok] at given
    obtain ⟨_, evalLeft, a, rfl, _, evalRight, b, rfl, given⟩ := given
    rw [← given]
    exact eval_strPrefixOf_of_values (first env _ evalLeft) (second env _ evalRight)
  | strContains =>
    simp only [eval_strContains, bind_eq_ok_iff, Value.toStr_eq_ok] at given
    obtain ⟨_, evalLeft, a, rfl, _, evalRight, b, rfl, given⟩ := given
    rw [← given]
    exact eval_strContains_of_values (first env _ evalLeft) (second env _ evalRight)

theorem Covers.ite {condition condition' onTrue onTrue' onFalse onFalse' : Term}
    (test : Covers condition condition') (first : Covers onTrue onTrue')
    (second : Covers onFalse onFalse') :
    Covers (.ite condition onTrue onFalse) (.ite condition' onTrue' onFalse') := by
  intro env value given
  simp only [eval_ite, bind_eq_ok_iff, Value.toBool_eq_ok] at given
  obtain ⟨_, evalCondition, holds, rfl, given⟩ := given
  rw [eval_ite_of_bool onTrue onFalse (test env _ evalCondition)]
  cases holds with
  | false => exact second env value given
  | true => exact first env value given

section Operands

variable {fulls parts : List Term} {env : Assignment}

theorem allTrue_covers (covers : List.Forall₂ Covers fulls parts) {holds : Bool}
    (given : allTrue env parts = .ok holds) : allTrue env fulls = .ok holds := by
  induction covers with
  | nil => exact given
  | @cons full part fulls parts first _ ih =>
    simp only [allTrue_cons, bind_eq_ok_iff, Value.toBool_eq_ok] at given
    obtain ⟨_, evalPart, p, rfl, given⟩ := given
    rw [allTrue_cons, first env _ evalPart, ok_bind, Value.toBool_bool, ok_bind]
    cases p with
    | false => exact given
    | true => exact ih given

theorem anyTrue_covers (covers : List.Forall₂ Covers fulls parts) {holds : Bool}
    (given : anyTrue env parts = .ok holds) : anyTrue env fulls = .ok holds := by
  induction covers with
  | nil => exact given
  | @cons full part fulls parts first _ ih =>
    simp only [anyTrue_cons, bind_eq_ok_iff, Value.toBool_eq_ok] at given
    obtain ⟨_, evalPart, p, rfl, given⟩ := given
    rw [anyTrue_cons, first env _ evalPart, ok_bind, Value.toBool_bool, ok_bind]
    cases p with
    | false => exact ih given
    | true => exact given

theorem evalAll_covers (covers : List.Forall₂ Covers fulls parts) {values : List Value}
    (given : evalAll env parts = .ok values) : evalAll env fulls = .ok values := by
  induction covers generalizing values with
  | nil => exact given
  | @cons full part fulls parts first _ ih =>
    simp only [evalAll_cons, bind_eq_ok_iff] at given
    obtain ⟨x, evalPart, later, evalRest, given⟩ := given
    rw [evalAll_cons, first env x evalPart, ok_bind, ih evalRest, ok_bind]
    exact given

theorem evalTexts_covers (covers : List.Forall₂ Covers fulls parts) {texts : List String}
    (given : evalTexts env parts = .ok texts) : evalTexts env fulls = .ok texts := by
  induction covers generalizing texts with
  | nil => exact given
  | @cons full part fulls parts first _ ih =>
    simp only [evalTexts_cons, bind_eq_ok_iff, Value.toStr_eq_ok] at given
    obtain ⟨_, evalPart, text, rfl, later, evalRest, given⟩ := given
    rw [evalTexts_cons, first env _ evalPart, ok_bind, Value.toStr_str, ok_bind, ih evalRest,
      ok_bind]
    exact given

theorem Covers.nary (op : NaryOp) (covers : List.Forall₂ Covers fulls parts) :
    Covers (.nary op fulls) (.nary op parts) := by
  intro env value given
  cases op with
  | and =>
    rw [eval_and] at given ⊢
    obtain ⟨holds, evalParts, given⟩ := bind_eq_ok_iff.mp given
    rw [allTrue_covers covers evalParts]
    exact given
  | or =>
    rw [eval_or] at given ⊢
    obtain ⟨holds, evalParts, given⟩ := bind_eq_ok_iff.mp given
    rw [anyTrue_covers covers evalParts]
    exact given
  | distinct =>
    rw [eval_distinct] at given ⊢
    obtain ⟨values, evalParts, given⟩ := bind_eq_ok_iff.mp given
    rw [evalAll_covers covers evalParts]
    exact given
  | strConcat =>
    rw [eval_strConcat] at given ⊢
    obtain ⟨texts, evalParts, given⟩ := bind_eq_ok_iff.mp given
    rw [evalTexts_covers covers evalParts]
    exact given

end Operands

end Term

end SmtSession

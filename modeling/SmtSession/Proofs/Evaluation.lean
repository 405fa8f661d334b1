import SmtSession.Proofs.CheckedArithmetic

namespace SmtSession.Term

def Stopped (env : Assignment) (term : Term) : Prop := ∃ op, term.eval env = .error (.stopped op)

/-- A term has the value of its meaning, or an operation that was evaluated fails, or evaluation
stops. -/
def Correct (env : Assignment) (interp : Interpretation) (sort : SmtSort) (term : Term) : Prop :=
  (∃ v, term.eval env = .ok v ∧ v.Denotes sort (term.denote interp)) ∨ Blamed env term ∨
    Stopped env term

section

variable {env : Assignment} {interp : Interpretation} {operand result : SmtSort}

theorem Correct.unary {op : UnaryOp} {arg : Term} (maps : op.Maps operand result)
    (evaluated : operand.IsEvaluated) (correct : Correct env interp operand arg) :
    Correct env interp result (.unary op arg) := by
  rcases correct with ⟨x, evalArg, denotes⟩ | blamed | ⟨stop, stopped⟩
  · have unfolded : (Term.unary op arg).eval env = op.apply arg x := by
      rw [eval_unary, evalArg, ok_bind]
    rcases op.apply_denotes arg maps evaluated denotes with ⟨v, given, value⟩ |
      ⟨exact, result, outside⟩
    · exact .inl ⟨v, unfolded.trans given, value⟩
    · exact .inr (.inl ⟨_, .self, .unary evalArg result outside⟩)
  · exact .inr (.inl (blamed.outer fun _ => .operand))
  · exact .inr (.inr ⟨stop, by rw [eval_unary, stopped, error_bind]⟩)

/-- A comparison of operands that have values stops, or has the value of what it denotes. -/
theorem eval_bvOrder_cases (op : BvOrder) {left right : Term} {a b : BitVec 128} {width : UInt32}
    (evaluated : width.toNat ≤ 128) (evalLeft : left.eval env = .ok (.bitVec a width))
    (evalRight : right.eval env = .ok (.bitVec b width)) (insideLeft : a.toNat < 2 ^ width.toNat)
    (insideRight : b.toNat < 2 ^ width.toNat) :
    (Term.binary (.bvOrder op) left right).eval env =
        .ok (.bool (op.denote width.toNat a.toNat b.toNat)) ∨
      Stopped env (.binary (.bvOrder op) left right) := by
  have unfolded := eval_bvOrder_of_values op evalLeft evalRight
  rcases op.apply_cases env.build evaluated insideLeft insideRight with given | ⟨stop, stopped⟩
  · rw [given] at unfolded
    exact .inl unfolded
  · rw [stopped] at unfolded
    exact .inr ⟨stop, unfolded⟩

/-- Operands that have values give the value of what the operator denotes, but for an integer
operation that fails and a comparison that stops. -/
theorem eval_binary_of_values (interp : Interpretation) {op : BinaryOp} {left right : Term}
    {x y : Value} {m n : Meaning} (maps : op.Maps operand result) (evaluated : operand.IsEvaluated)
    (evalLeft : left.eval env = .ok x) (evalRight : right.eval env = .ok y)
    (first : x.Denotes operand m) (second : y.Denotes operand n) :
    (∃ v, (Term.binary op left right).eval env = .ok v ∧ v.Denotes result (op.denote interp m n)) ∨
      Fails env (.binary op left right) ∨ Stopped env (.binary op left right) := by
  cases maps with
  | @int op =>
    obtain ⟨a, rfl, rfl⟩ := first.isInt
    obtain ⟨b, rfl, rfl⟩ := second.isInt
    have unfolded := eval_int_of_values op evalLeft evalRight
    cases given : op.result? a b with
    | none => exact .inr (.inl (.binary evalLeft evalRight (IntOp.result?_eq_none_iff.mp given)))
    | some n =>
      have meaning : BinaryOp.denote interp (.int op) (.int a.val) (.int b.val) = .int n.val :=
        congrArg Meaning.int (IntOp.val_of_result? interp given).symm
      rw [given] at unfolded
      exact .inl ⟨.int n, unfolded, meaning ▸ .int n⟩
  | implies =>
    obtain ⟨p, rfl, rfl⟩ := first.isBool
    obtain ⟨q, rfl, rfl⟩ := second.isBool
    exact .inl ⟨_, eval_implies_of_values evalLeft evalRight, .bool _⟩
  | iff =>
    obtain ⟨p, rfl, rfl⟩ := first.isBool
    obtain ⟨q, rfl, rfl⟩ := second.isBool
    exact .inl ⟨_, eval_iff_of_values evalLeft evalRight, .bool _⟩
  | eq =>
    have compared := Value.same_of_denotes first second
    exact .inl ⟨_, eval_eq_of_values evalLeft evalRight compared, .bool _⟩
  | @bv op width =>
    obtain ⟨a, rfl, rfl, insideLeft⟩ := first.isBitVec
    obtain ⟨b, rfl, rfl, insideRight⟩ := second.isBitVec
    exact .inl ⟨_, eval_bv_of_values op evalLeft evalRight,
      .masked (op.toNat_apply evaluated insideLeft insideRight)⟩
  | @bvOrder op width =>
    obtain ⟨a, rfl, rfl, insideLeft⟩ := first.isBitVec
    obtain ⟨b, rfl, rfl, insideRight⟩ := second.isBitVec
    rcases eval_bvOrder_cases op evaluated evalLeft evalRight insideLeft insideRight with given |
      stopped
    · exact .inl ⟨_, given, .bool _⟩
    · exact .inr (.inr stopped)
  | @intOrder op =>
    obtain ⟨a, rfl, rfl⟩ := first.isInt
    obtain ⟨b, rfl, rfl⟩ := second.isInt
    exact .inl ⟨_, eval_intOrder_of_values op evalLeft evalRight, .ofEq (by cases op <;> rfl)⟩
  | strPrefixOf =>
    obtain ⟨a, rfl, rfl⟩ := first.isStr
    obtain ⟨b, rfl, rfl⟩ := second.isStr
    exact .inl ⟨_, eval_strPrefixOf_of_values evalLeft evalRight, .ofEq (startsWith_eq a b)⟩
  | strContains =>
    obtain ⟨a, rfl, rfl⟩ := first.isStr
    obtain ⟨b, rfl, rfl⟩ := second.isStr
    exact .inl ⟨_, eval_strContains_of_values evalLeft evalRight, .ofEq (contains_eq a b)⟩

theorem eval_right_error {op : BinaryOp} {left right : Term} {x : Value} {m : Meaning}
    {fault : EvalFault} (maps : op.Maps operand result) (evalLeft : left.eval env = .ok x)
    (denotes : x.Denotes operand m) (goesOn : op = .implies → x = .bool true)
    (failed : right.eval env = .error fault) :
    (Term.binary op left right).eval env = .error fault := by
  cases maps with
  | implies =>
    rw [goesOn rfl] at evalLeft
    simp [eval_implies, evalLeft, failed]
  | iff =>
    obtain ⟨p, rfl, rfl⟩ := denotes.isBool
    simp [eval_iff, evalLeft, failed]
  | eq => simp [eval_eq, evalLeft, failed]
  | bv | bvOrder =>
    obtain ⟨a, rfl, rfl, -⟩ := denotes.isBitVec
    simp [eval_bv, eval_bvOrder, evalLeft, failed]
  | int | intOrder =>
    obtain ⟨a, rfl, rfl⟩ := denotes.isInt
    simp [eval_int, eval_intOrder, evalLeft, failed]
  | strPrefixOf | strContains =>
    obtain ⟨a, rfl, rfl⟩ := denotes.isStr
    simp [eval_strPrefixOf, eval_strContains, evalLeft, failed]

theorem Correct.binary {op : BinaryOp} {left right : Term} (maps : op.Maps operand result)
    (evaluated : operand.IsEvaluated) (first : Correct env interp operand left)
    (second : Correct env interp operand right) :
    Correct env interp result (.binary op left right) := by
  rcases first with ⟨x, evalLeft, denotesLeft⟩ | blamed | ⟨stop, stopped⟩
  · by_cases goesOn : op = .implies → x = .bool true
    · rcases second with ⟨y, evalRight, denotesRight⟩ | blamed | ⟨stop, stopped⟩
      · rcases eval_binary_of_values interp maps evaluated evalLeft evalRight denotesLeft
          denotesRight with given | fails | stopped
        · exact .inl given
        · exact .inr (.inl ⟨_, .self, fails⟩)
        · exact .inr (.inr stopped)
      · exact .inr (.inl (blamed.outer fun _ => .right evalLeft goesOn))
      · exact .inr (.inr ⟨stop, eval_right_error maps evalLeft denotesLeft goesOn stopped⟩)
    · -- Only an implication is decided by its left operand alone.
      obtain ⟨rfl, false⟩ := Classical.not_imp.mp goesOn
      cases maps
      obtain ⟨_, rfl, holds⟩ := denotesLeft.isBool
      rw [Value.bool.injEq, Bool.not_eq_true] at false
      rw [false] at evalLeft holds
      have meaning : (Term.binary .implies left right).denote interp = .bool true := by
        rw [denote, holds]
        rfl
      exact .inl ⟨.bool true, eval_implies_false right evalLeft, meaning ▸ .bool true⟩
  · exact .inr (.inl (blamed.outer fun _ => .left))
  · exact .inr (.inr ⟨stop, eval_left_error op right stopped⟩)

theorem Correct.ite {condition onTrue onFalse : Term} {sort : SmtSort}
    (test : Correct env interp .bool condition) (first : Correct env interp sort onTrue)
    (second : Correct env interp sort onFalse) :
    Correct env interp sort (.ite condition onTrue onFalse) := by
  rcases test with ⟨_, evalTest, denotesTest⟩ | blamed | ⟨stop, stopped⟩
  · obtain ⟨holds, rfl, meaning⟩ := denotesTest.isBool
    have denoted : (Term.ite condition onTrue onFalse).denote interp =
        if holds then onTrue.denote interp else onFalse.denote interp := by
      rw [denote, meaning, Meaning.toBool]
    unfold Correct Stopped
    rw [eval_ite_of_bool onTrue onFalse evalTest, denoted]
    cases holds with
    | true =>
      exact first.imp_right fun refused =>
        refused.imp_left fun blamed => blamed.outer fun _ => .onTrue evalTest
    | false =>
      exact second.imp_right fun refused =>
        refused.imp_left fun blamed => blamed.outer fun _ => .onFalse evalTest
  · exact .inr (.inl (blamed.outer fun _ => .condition))
  · exact .inr (.inr ⟨stop, by rw [eval_ite, stopped, error_bind]⟩)

def BlamedAmong (env : Assignment) (op : NaryOp) (args : List Term) : Prop :=
  ∃ before arg after, args = before ++ arg :: after ∧
    (∀ earlier ∈ before, ∃ x, earlier.eval env = .ok x ∧ op.GoesOn x) ∧ Blamed env arg

section

variable {op : NaryOp} {arg : Term} {rest args : List Term} {x : Value}

theorem BlamedAmong.head (blamed : Blamed env arg) : BlamedAmong env op (arg :: rest) :=
  ⟨[], arg, rest, rfl, fun _ absent => absurd absent List.not_mem_nil, blamed⟩

theorem BlamedAmong.tail (evalArg : arg.eval env = .ok x) (goesOn : op.GoesOn x)
    (blamed : BlamedAmong env op rest) : BlamedAmong env op (arg :: rest) := by
  obtain ⟨before, inner, after, rfl, earlier, blamed⟩ := blamed
  refine ⟨arg :: before, inner, after, rfl, ?_, blamed⟩
  intro previous among
  rcases List.mem_cons.mp among with rfl | among
  · exact ⟨x, evalArg, goesOn⟩
  · exact earlier previous among

theorem BlamedAmong.blamed (among : BlamedAmong env op args) : Blamed env (.nary op args) := by
  obtain ⟨before, inner, after, rfl, earlier, blamed⟩ := among
  exact blamed.outer fun _ => .argument earlier

end

theorem allTrue_correct (args : List Term) (each : ∀ arg ∈ args, Correct env interp .bool arg) :
    allTrue env args = .ok ((denoteAll interp args).all Meaning.toBool) ∨
      BlamedAmong env .and args ∨ ∃ op, allTrue env args = .error (.stopped op) := by
  induction args with
  | nil => exact .inl rfl
  | cons arg rest ih =>
    obtain ⟨correct, others⟩ := List.forall_mem_cons.mp each
    rcases correct with ⟨_, evalArg, denotes⟩ | blamed | ⟨stop, stopped⟩
    · obtain ⟨holds, rfl, meaning⟩ := denotes.isBool
      rw [allTrue_cons, evalArg, denoteAll, List.all_cons, meaning]
      cases holds with
      | false => exact .inl rfl
      | true => exact (ih others).imp_right fun refused => refused.imp_left (.tail evalArg rfl)
    · exact .inr (.inl (.head blamed))
    · exact .inr (.inr ⟨stop, by rw [allTrue_cons, stopped, error_bind]⟩)

theorem anyTrue_correct (args : List Term) (each : ∀ arg ∈ args, Correct env interp .bool arg) :
    anyTrue env args = .ok ((denoteAll interp args).any Meaning.toBool) ∨
      BlamedAmong env .or args ∨ ∃ op, anyTrue env args = .error (.stopped op) := by
  induction args with
  | nil => exact .inl rfl
  | cons arg rest ih =>
    obtain ⟨correct, others⟩ := List.forall_mem_cons.mp each
    rcases correct with ⟨_, evalArg, denotes⟩ | blamed | ⟨stop, stopped⟩
    · obtain ⟨holds, rfl, meaning⟩ := denotes.isBool
      rw [anyTrue_cons, evalArg, denoteAll, List.any_cons, meaning]
      cases holds with
      | true => exact .inl rfl
      | false => exact (ih others).imp_right fun refused => refused.imp_left (.tail evalArg rfl)
    · exact .inr (.inl (.head blamed))
    · exact .inr (.inr ⟨stop, by rw [anyTrue_cons, stopped, error_bind]⟩)

theorem evalAll_correct {sort : SmtSort} (args : List Term)
    (each : ∀ arg ∈ args, Correct env interp sort arg) :
    (∃ values, evalAll env args = .ok values ∧
        Value.AllDenote sort values (denoteAll interp args)) ∨
      BlamedAmong env .distinct args ∨ ∃ op, evalAll env args = .error (.stopped op) := by
  induction args with
  | nil => exact .inl ⟨[], rfl, .nil⟩
  | cons arg rest ih =>
    obtain ⟨correct, others⟩ := List.forall_mem_cons.mp each
    rcases correct with ⟨value, evalArg, denotes⟩ | blamed | ⟨stop, stopped⟩
    · rw [evalAll_cons, evalArg, ok_bind]
      rcases ih others with ⟨values, evalRest, denoteRest⟩ | blamed | ⟨stop, stopped⟩
      · exact .inl ⟨_, by rw [evalRest, ok_bind], .cons denotes denoteRest⟩
      · exact .inr (.inl (blamed.tail evalArg trivial))
      · exact .inr (.inr ⟨stop, by rw [stopped, error_bind]⟩)
    · exact .inr (.inl (.head blamed))
    · exact .inr (.inr ⟨stop, by rw [evalAll_cons, stopped, error_bind]⟩)

theorem evalTexts_correct (args : List Term) (each : ∀ arg ∈ args, Correct env interp .string arg) :
    (∃ texts, evalTexts env args = .ok texts ∧
        texts.flatMap String.toList = (denoteAll interp args).flatMap Meaning.toChars) ∨
      BlamedAmong env .strConcat args ∨ ∃ op, evalTexts env args = .error (.stopped op) := by
  induction args with
  | nil => exact .inl ⟨[], rfl, rfl⟩
  | cons arg rest ih =>
    obtain ⟨correct, others⟩ := List.forall_mem_cons.mp each
    rcases correct with ⟨_, evalArg, denotes⟩ | blamed | ⟨stop, stopped⟩
    · obtain ⟨text, rfl, meaning⟩ := denotes.isStr
      rw [evalTexts_cons, evalArg, ok_bind, Value.toStr_str, ok_bind]
      rcases ih others with ⟨texts, evalRest, same⟩ | blamed | ⟨stop, stopped⟩
      · refine .inl ⟨_, by rw [evalRest, ok_bind], ?_⟩
        rw [denoteAll, List.flatMap_cons, List.flatMap_cons, meaning, same, Meaning.toChars]
      · exact .inr (.inl (blamed.tail evalArg trivial))
      · exact .inr (.inr ⟨stop, by rw [stopped, error_bind]⟩)
    · exact .inr (.inl (.head blamed))
    · exact .inr (.inr ⟨stop, by rw [evalTexts_cons, stopped, error_bind]⟩)

theorem Correct.nary {op : NaryOp} {args : List Term} (maps : op.Maps operand result)
    (each : ∀ arg ∈ args, Correct env interp operand arg) :
    Correct env interp result (.nary op args) := by
  unfold Correct Stopped
  cases maps with
  | and =>
    rw [eval_and, denote]
    rcases allTrue_correct args each with given | among | ⟨stop, stopped⟩
    · exact .inl ⟨_, by rw [given, ok_bind], .bool _⟩
    · exact .inr (.inl among.blamed)
    · exact .inr (.inr ⟨stop, by rw [stopped, error_bind]⟩)
  | or =>
    rw [eval_or, denote]
    rcases anyTrue_correct args each with given | among | ⟨stop, stopped⟩
    · exact .inl ⟨_, by rw [given, ok_bind], .bool _⟩
    · exact .inr (.inl among.blamed)
    · exact .inr (.inr ⟨stop, by rw [stopped, error_bind]⟩)
  | distinct =>
    rw [eval_distinct, denote]
    rcases evalAll_correct args each with ⟨values, given, denotes⟩ | among | ⟨stop, stopped⟩
    · refine .inl ⟨_, ?_, .bool _⟩
      rw [given, ok_bind, Value.allDiffer_of_denotes denotes, ok_bind]
    · exact .inr (.inl among.blamed)
    · exact .inr (.inr ⟨stop, by rw [stopped, error_bind]⟩)
  | strConcat =>
    rw [eval_strConcat, denote]
    rcases evalTexts_correct args each with ⟨texts, given, same⟩ | among | ⟨stop, stopped⟩
    · refine .inl ⟨.str (String.join texts), by rw [given, ok_bind], ?_⟩
      rw [NaryOp.denote, ← same, ← String.toList_join]
      exact .str _
    · exact .inr (.inl among.blamed)
    · exact .inr (.inr ⟨stop, by rw [stopped, error_bind]⟩)

/-- A term of a sort has the value of its meaning if the constants that it may use do, or an
operation fails, or evaluation stops. -/
theorem Correct.of_hasSort {sorts : String → Option SmtSort} {term : Term} {sort : SmtSort}
    (constants : ∀ name sort, sorts name = some sort → sort.IsEvaluated →
      ∃ v, env.lookup name = .ok v ∧ v.Denotes sort (interp.constant name))
    (wellSorted : term.HasSort sorts sort) : Correct env interp sort term := by
  induction wellSorted with
  | boolLit => exact .inl ⟨_, rfl, .bool _⟩
  | intLit => exact .inl ⟨_, rfl, .int _⟩
  | bitVecLit narrow =>
    refine .inl ⟨_, rfl, .masked (Width.toNat_and_mask_eq_residue narrow ?_)⟩
    rw [Int128.bits, BitVec.toNat_ofInt]
    omega
  | stringLit => exact .inl ⟨_, rfl, .str _⟩
  | const declared evaluated => exact .inl (constants _ _ declared evaluated)
  | unary maps operand correct => exact .unary maps operand.isEvaluated correct
  | binary maps operand _ first second => exact .binary maps operand.isEvaluated first second
  | ite _ _ _ test first second => exact .ite test first second
  | nary maps _ each => exact .nary maps each

end

end SmtSession.Term

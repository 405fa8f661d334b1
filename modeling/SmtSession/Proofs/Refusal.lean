import SmtSession.Proofs.Operators

/-! Refusal: which terms are evaluated on the way to a value, and the integer operations among them
that have a zero divisor or an exact result that 128 bits do not hold. One of these leaves the whole
term without a value. -/
namespace SmtSession

/-- The values of its operands after which an operator looks at the next one. -/
def NaryOp.GoesOn : NaryOp → Value → Prop
  | .and, x => x = .bool true
  | .or, x => x = .bool false
  | .distinct, _ | .strConcat, _ => True

namespace Term

/-- Which terms are evaluated on the way to the value of a term. -/
inductive Evaluates (env : Assignment) : Term → Term → Prop where
  | self {term : Term} : Evaluates env term term
  | operand {op : UnaryOp} {arg inner : Term} : Evaluates env arg inner →
      Evaluates env (.unary op arg) inner
  | left {op : BinaryOp} {left right inner : Term} : Evaluates env left inner →
      Evaluates env (.binary op left right) inner
  /-- The conclusion of an implication is looked at if the premise holds. -/
  | right {op : BinaryOp} {left right inner : Term} {x : Value} : left.eval env = .ok x →
      (op = .implies → x = .bool true) → Evaluates env right inner →
      Evaluates env (.binary op left right) inner
  | condition {condition onTrue onFalse inner : Term} : Evaluates env condition inner →
      Evaluates env (.ite condition onTrue onFalse) inner
  | onTrue {condition onTrue onFalse inner : Term} : condition.eval env = .ok (.bool true) →
      Evaluates env onTrue inner → Evaluates env (.ite condition onTrue onFalse) inner
  | onFalse {condition onTrue onFalse inner : Term} : condition.eval env = .ok (.bool false) →
      Evaluates env onFalse inner → Evaluates env (.ite condition onTrue onFalse) inner
  | argument {op : NaryOp} {before after : List Term} {arg inner : Term} :
      (∀ earlier ∈ before, ∃ x, earlier.eval env = .ok x ∧ op.GoesOn x) →
      Evaluates env arg inner → Evaluates env (.nary op (before ++ arg :: after)) inner

/-- An integer operation whose operands have values, with a zero divisor or an exact result out of
range. -/
inductive Fails (env : Assignment) : Term → Prop where
  | unary {op : UnaryOp} {arg : Term} {x : Value} {exact : Int} : arg.eval env = .ok x →
      op.exactResult? x = some exact → ¬Int128.InRange exact → Fails env (.unary op arg)
  | binary {op : IntOp} {left right : Term} {x y : Int128} : left.eval env = .ok (.int x) →
      right.eval env = .ok (.int y) →
      (op.divides = true ∧ y.val = 0) ∨ ¬Int128.InRange (op.exact x.val y.val) →
      Fails env (.binary (.int op) left right)

/-- An operation that was evaluated fails. -/
def Blamed (env : Assignment) (term : Term) : Prop :=
  ∃ operation, Evaluates env term operation ∧ Fails env operation

theorem Blamed.outer {env : Assignment} {inner outer : Term} (blamed : Blamed env inner)
    (reaches : ∀ operation, Evaluates env inner operation → Evaluates env outer operation) :
    Blamed env outer := by
  obtain ⟨operation, evaluated, fails⟩ := blamed
  exact ⟨operation, reaches operation evaluated, fails⟩

/-! ### The equations of evaluation -/

section

variable (env : Assignment) (left right arg : Term) (args : List Term)

theorem eval_unary (op : UnaryOp) :
    (Term.unary op arg).eval env = (arg.eval env >>= fun x => op.apply arg x) := rfl

theorem eval_implies : (Term.binary .implies left right).eval env =
    (left.eval env >>= fun x => x.toBool left >>= fun p =>
      if p then right.eval env >>= fun y => y.toBool right >>= fun q => .ok (.bool q)
      else .ok (.bool true)) := rfl

theorem eval_iff : (Term.binary .iff left right).eval env =
    (left.eval env >>= fun x => x.toBool left >>= fun p =>
      right.eval env >>= fun y => y.toBool right >>= fun q => .ok (.bool (p == q))) := rfl

theorem eval_eq : (Term.binary .eq left right).eval env =
    (left.eval env >>= fun x => right.eval env >>= fun y =>
      x.same y >>= fun equal => .ok (.bool equal)) := rfl

theorem eval_bv (op : BvOp) : (Term.binary (.bv op) left right).eval env =
    (left.eval env >>= fun x => x.toBitVec left >>= fun (a, width) =>
      right.eval env >>= fun y => y.toBitVec right >>= fun (b, other) =>
        requireWidth width other >>= fun _ =>
          .ok (.bitVec (op.apply a b &&& Width.mask width) width)) := rfl

theorem eval_bvOrder (op : BvOrder) : (Term.binary (.bvOrder op) left right).eval env =
    (left.eval env >>= fun x => x.toBitVec left >>= fun (a, width) =>
      right.eval env >>= fun y => y.toBitVec right >>= fun (b, other) =>
        requireWidth width other >>= fun _ =>
          EvalFault.ofChecked (op.apply env.build width a b) >>= fun holds =>
            .ok (.bool holds)) := rfl

theorem eval_int (op : IntOp) : (Term.binary (.int op) left right).eval env =
    (left.eval env >>= fun x => x.toInt left >>= fun a =>
      right.eval env >>= fun y => y.toInt right >>= fun b =>
        (op.result? a b).elim (.error (.overflowOrDivisionByZero left right))
          fun n => .ok (.int n)) := rfl

theorem eval_intOrder (op : IntOrder) : (Term.binary (.intOrder op) left right).eval env =
    (left.eval env >>= fun x => x.toInt left >>= fun a =>
      right.eval env >>= fun y => y.toInt right >>= fun b => .ok (.bool (op.apply a b))) := rfl

theorem eval_strPrefixOf : (Term.binary .strPrefixOf left right).eval env =
    (left.eval env >>= fun x => x.toStr left >>= fun a =>
      right.eval env >>= fun y => y.toStr right >>= fun b => .ok (.bool (b.startsWith a))) := rfl

theorem eval_strContains : (Term.binary .strContains left right).eval env =
    (left.eval env >>= fun x => x.toStr left >>= fun a =>
      right.eval env >>= fun y => y.toStr right >>= fun b => .ok (.bool (a.contains b))) := rfl

theorem eval_ite (condition onTrue onFalse : Term) : (Term.ite condition onTrue onFalse).eval env =
    (condition.eval env >>= fun x => x.toBool condition >>= fun holds =>
      if holds then onTrue.eval env else onFalse.eval env) := rfl

theorem eval_and : (Term.nary .and args).eval env =
    (allTrue env args >>= fun holds => .ok (.bool holds)) := rfl

theorem eval_or : (Term.nary .or args).eval env =
    (anyTrue env args >>= fun holds => .ok (.bool holds)) := rfl

theorem eval_distinct : (Term.nary .distinct args).eval env =
    (evalAll env args >>= fun values => Value.allDiffer values >>= fun differ =>
      .ok (.bool differ)) := rfl

theorem eval_strConcat : (Term.nary .strConcat args).eval env =
    (evalTexts env args >>= fun texts => .ok (.str (String.join texts))) := rfl

theorem allTrue_cons : allTrue env (arg :: args) =
    (arg.eval env >>= fun x => x.toBool arg >>= fun holds =>
      if holds then allTrue env args else .ok false) := rfl

theorem anyTrue_cons : anyTrue env (arg :: args) =
    (arg.eval env >>= fun x => x.toBool arg >>= fun holds =>
      if holds then .ok true else anyTrue env args) := rfl

theorem evalAll_cons : evalAll env (arg :: args) =
    (arg.eval env >>= fun value => evalAll env args >>= fun values => .ok (value :: values)) := rfl

theorem evalTexts_cons : evalTexts env (arg :: args) =
    (arg.eval env >>= fun x => x.toStr arg >>= fun text =>
      evalTexts env args >>= fun texts => .ok (text :: texts)) := rfl

end

theorem requireWidth_eq_ok {w v : UInt32} {done : Unit} :
    requireWidth w v = .ok done ↔ w = v := by
  simp [requireWidth]

/-! ### What operators give for the values of their operands -/

section

variable {env : Assignment} {left right : Term}

theorem eval_implies_false (right : Term) (evalLeft : left.eval env = .ok (.bool false)) :
    (Term.binary .implies left right).eval env = .ok (.bool true) := by
  simp [eval_implies, evalLeft]

theorem eval_implies_of_values {p q : Bool} (evalLeft : left.eval env = .ok (.bool p))
    (evalRight : right.eval env = .ok (.bool q)) :
    (Term.binary .implies left right).eval env = .ok (.bool (!p || q)) := by
  cases p with
  | false => exact eval_implies_false right evalLeft
  | true => simp [eval_implies, evalLeft, evalRight]

theorem eval_iff_of_values {p q : Bool} (evalLeft : left.eval env = .ok (.bool p))
    (evalRight : right.eval env = .ok (.bool q)) :
    (Term.binary .iff left right).eval env = .ok (.bool (p == q)) := by
  simp [eval_iff, evalLeft, evalRight]

theorem eval_eq_of_values {x y : Value} {equal : Bool} (evalLeft : left.eval env = .ok x)
    (evalRight : right.eval env = .ok y) (compared : x.same y = .ok equal) :
    (Term.binary .eq left right).eval env = .ok (.bool equal) := by
  simp [eval_eq, evalLeft, evalRight, compared]

theorem eval_bv_of_values {a b : BitVec 128} {width : UInt32} (op : BvOp)
    (evalLeft : left.eval env = .ok (.bitVec a width))
    (evalRight : right.eval env = .ok (.bitVec b width)) :
    (Term.binary (.bv op) left right).eval env =
      .ok (.bitVec (op.apply a b &&& Width.mask width) width) := by
  simp [eval_bv, evalLeft, evalRight, requireWidth]

theorem eval_bvOrder_of_values {a b : BitVec 128} {width : UInt32} (op : BvOrder)
    (evalLeft : left.eval env = .ok (.bitVec a width))
    (evalRight : right.eval env = .ok (.bitVec b width)) :
    (Term.binary (.bvOrder op) left right).eval env =
      (EvalFault.ofChecked (op.apply env.build width a b) >>= fun holds => .ok (.bool holds)) := by
  simp [eval_bvOrder, evalLeft, evalRight, requireWidth]

theorem eval_int_of_values {x y : Int128} (op : IntOp) (evalLeft : left.eval env = .ok (.int x))
    (evalRight : right.eval env = .ok (.int y)) :
    (Term.binary (.int op) left right).eval env =
      (op.result? x y).elim (.error (.overflowOrDivisionByZero left right))
        fun n => .ok (.int n) := by
  simp only [eval_int, evalLeft, evalRight, ok_bind, Value.toInt_int]

theorem eval_intOrder_of_values {a b : Int128} (op : IntOrder)
    (evalLeft : left.eval env = .ok (.int a)) (evalRight : right.eval env = .ok (.int b)) :
    (Term.binary (.intOrder op) left right).eval env = .ok (.bool (op.apply a b)) := by
  simp [eval_intOrder, evalLeft, evalRight]

theorem eval_strPrefixOf_of_values {a b : String} (evalLeft : left.eval env = .ok (.str a))
    (evalRight : right.eval env = .ok (.str b)) :
    (Term.binary .strPrefixOf left right).eval env = .ok (.bool (b.startsWith a)) := by
  simp [eval_strPrefixOf, evalLeft, evalRight]

theorem eval_strContains_of_values {a b : String} (evalLeft : left.eval env = .ok (.str a))
    (evalRight : right.eval env = .ok (.str b)) :
    (Term.binary .strContains left right).eval env = .ok (.bool (a.contains b)) := by
  simp [eval_strContains, evalLeft, evalRight]

theorem eval_ite_of_bool {condition : Term} (onTrue onFalse : Term) {holds : Bool}
    (evalCondition : condition.eval env = .ok (.bool holds)) :
    (Term.ite condition onTrue onFalse).eval env =
      if holds then onTrue.eval env else onFalse.eval env := by
  rw [eval_ite, evalCondition, ok_bind, Value.toBool_bool, ok_bind]

end

/-! ### Refusal: an operation that was evaluated and fails leaves no value -/

/-- A term that has no value. -/
def Refused (env : Assignment) (term : Term) : Prop := ∃ fault, term.eval env = .error fault

section

variable {env : Assignment}

theorem Fails.refused {term : Term} (fails : Fails env term) : Refused env term := by
  cases fails with
  | @unary op arg x exact evalArg result outside =>
    obtain ⟨fault, refused⟩ := UnaryOp.apply_eq_error arg result outside
    exact ⟨fault, by rw [eval_unary, evalArg, ok_bind, refused]⟩
  | @binary op left right x y evalLeft evalRight blame =>
    have none := IntOp.result?_eq_none_iff.mpr blame
    exact ⟨_, by rw [eval_int_of_values op evalLeft evalRight, none]; rfl⟩

theorem eval_left_error (op : BinaryOp) {left : Term} (right : Term) {fault : EvalFault}
    (failed : left.eval env = .error fault) : (binary op left right).eval env = .error fault := by
  cases op <;>
    simp only [eval_implies, eval_iff, eval_eq, eval_bv, eval_bvOrder, eval_int, eval_intOrder,
      eval_strPrefixOf, eval_strContains, failed, error_bind]

theorem error_after {α β : Type} (taken : Except EvalFault α) (fault : EvalFault) :
    ∃ other, (taken >>= fun _ => (.error fault : Except EvalFault β)) = .error other := by
  cases taken with
  | error mismatch => exact ⟨mismatch, rfl⟩
  | ok _ => exact ⟨fault, rfl⟩

/-- The right operand is looked at before the values are combined, but by an implication. -/
theorem refused_right {op : BinaryOp} {left right : Term} {x : Value}
    (evalLeft : left.eval env = .ok x) (goesOn : op = .implies → x = .bool true)
    (refused : Refused env right) : Refused env (.binary op left right) := by
  obtain ⟨fault, failed⟩ := refused
  unfold Refused
  cases op with
  | implies =>
    rw [goesOn rfl] at evalLeft
    exact ⟨fault, by simp [eval_implies, evalLeft, failed]⟩
  | eq => exact ⟨fault, by simp [eval_eq, evalLeft, failed]⟩
  | iff =>
    simp only [eval_iff, evalLeft, failed, ok_bind, error_bind]
    exact error_after _ _
  | bv | bvOrder =>
    simp only [eval_bv, eval_bvOrder, evalLeft, failed, ok_bind, error_bind]
    exact error_after _ _
  | int | intOrder =>
    simp only [eval_int, eval_intOrder, evalLeft, failed, ok_bind, error_bind]
    exact error_after _ _
  | strPrefixOf | strContains =>
    simp only [eval_strPrefixOf, eval_strContains, evalLeft, failed, ok_bind, error_bind]
    exact error_after _ _

section

variable {before after : List Term} {arg : Term}

theorem allTrue_refused
    (earlier : ∀ other ∈ before, ∃ x, other.eval env = .ok x ∧ NaryOp.and.GoesOn x)
    (refused : Refused env arg) : ∃ fault, allTrue env (before ++ arg :: after) = .error fault := by
  induction before with
  | nil =>
    obtain ⟨fault, failed⟩ := refused
    exact ⟨fault, by rw [List.nil_append, allTrue_cons, failed, error_bind]⟩
  | cons first rest ih =>
    obtain ⟨⟨_, evalFirst, rfl⟩, others⟩ := List.forall_mem_cons.mp earlier
    obtain ⟨fault, failed⟩ := ih others
    exact ⟨fault, by rw [List.cons_append, allTrue_cons, evalFirst]; simpa using failed⟩

theorem anyTrue_refused
    (earlier : ∀ other ∈ before, ∃ x, other.eval env = .ok x ∧ NaryOp.or.GoesOn x)
    (refused : Refused env arg) : ∃ fault, anyTrue env (before ++ arg :: after) = .error fault := by
  induction before with
  | nil =>
    obtain ⟨fault, failed⟩ := refused
    exact ⟨fault, by rw [List.nil_append, anyTrue_cons, failed, error_bind]⟩
  | cons first rest ih =>
    obtain ⟨⟨_, evalFirst, rfl⟩, others⟩ := List.forall_mem_cons.mp earlier
    obtain ⟨fault, failed⟩ := ih others
    exact ⟨fault, by rw [List.cons_append, anyTrue_cons, evalFirst]; simpa using failed⟩

theorem evalAll_refused (earlier : ∀ other ∈ before, ∃ x, other.eval env = .ok x)
    (refused : Refused env arg) : ∃ fault, evalAll env (before ++ arg :: after) = .error fault := by
  induction before with
  | nil =>
    obtain ⟨fault, failed⟩ := refused
    exact ⟨fault, by rw [List.nil_append, evalAll_cons, failed, error_bind]⟩
  | cons first rest ih =>
    obtain ⟨⟨_, evalFirst⟩, others⟩ := List.forall_mem_cons.mp earlier
    obtain ⟨fault, failed⟩ := ih others
    exact ⟨fault, by rw [List.cons_append, evalAll_cons, evalFirst, ok_bind, failed, error_bind]⟩

theorem evalTexts_refused (earlier : ∀ other ∈ before, ∃ x, other.eval env = .ok x)
    (refused : Refused env arg) :
    ∃ fault, evalTexts env (before ++ arg :: after) = .error fault := by
  induction before with
  | nil =>
    obtain ⟨fault, failed⟩ := refused
    exact ⟨fault, by rw [List.nil_append, evalTexts_cons, failed, error_bind]⟩
  | cons first rest ih =>
    obtain ⟨⟨x, evalFirst⟩, others⟩ := List.forall_mem_cons.mp earlier
    obtain ⟨fault, failed⟩ := ih others
    rw [List.cons_append, evalTexts_cons, evalFirst, ok_bind, failed]
    exact error_after _ _

theorem refused_argument {op : NaryOp}
    (earlier : ∀ other ∈ before, ∃ x, other.eval env = .ok x ∧ op.GoesOn x)
    (refused : Refused env arg) : Refused env (.nary op (before ++ arg :: after)) := by
  have valued : ∀ other ∈ before, ∃ x, other.eval env = .ok x := fun other among =>
    (earlier other among).imp fun _ given => given.1
  unfold Refused
  cases op with
  | and =>
    obtain ⟨fault, failed⟩ := allTrue_refused earlier refused
    exact ⟨fault, by rw [eval_and, failed, error_bind]⟩
  | or =>
    obtain ⟨fault, failed⟩ := anyTrue_refused earlier refused
    exact ⟨fault, by rw [eval_or, failed, error_bind]⟩
  | distinct =>
    obtain ⟨fault, failed⟩ := evalAll_refused valued refused
    exact ⟨fault, by rw [eval_distinct, failed, error_bind]⟩
  | strConcat =>
    obtain ⟨fault, failed⟩ := evalTexts_refused valued refused
    exact ⟨fault, by rw [eval_strConcat, failed, error_bind]⟩

end

/-- What is evaluated on the way and has no value leaves the term without one. -/
theorem Evaluates.refused {term inner : Term} (evaluated : Evaluates env term inner)
    (refused : Refused env inner) : Refused env term := by
  induction evaluated with
  | self => exact refused
  | operand _ ih =>
    obtain ⟨fault, failed⟩ := ih refused
    exact ⟨fault, by rw [eval_unary, failed, error_bind]⟩
  | left _ ih =>
    obtain ⟨fault, failed⟩ := ih refused
    exact ⟨fault, eval_left_error _ _ failed⟩
  | right evalLeft goesOn _ ih => exact refused_right evalLeft goesOn (ih refused)
  | condition _ ih =>
    obtain ⟨fault, failed⟩ := ih refused
    exact ⟨fault, by rw [eval_ite, failed, error_bind]⟩
  | onTrue evalCondition _ ih =>
    obtain ⟨fault, failed⟩ := ih refused
    exact ⟨fault, by rw [eval_ite_of_bool _ _ evalCondition, if_pos rfl, failed]⟩
  | onFalse evalCondition _ ih =>
    obtain ⟨fault, failed⟩ := ih refused
    exact ⟨fault, by rw [eval_ite_of_bool _ _ evalCondition, if_neg Bool.false_ne_true, failed]⟩
  | argument earlier _ ih => exact refused_argument earlier (ih refused)

theorem Blamed.refused {term : Term} (blamed : Blamed env term) : Refused env term := by
  obtain ⟨operation, evaluated, fails⟩ := blamed
  exact evaluated.refused fails.refused

end

end Term

end SmtSession

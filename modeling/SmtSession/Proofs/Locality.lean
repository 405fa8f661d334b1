import SmtSession.Proofs.Applications
import SmtSession.Proofs.Refusal
import SmtSession.ResultModel

namespace SmtSession

theorem lookupLast?_append {α : Type} (name : String) (front back : List (String × α)) :
    lookupLast? name (front ++ back) = (lookupLast? name back).or (lookupLast? name front) := by
  rw [lookupLast?, List.reverse_append, List.lookup_append]
  rfl

/-- Entries made of the names alone are found at the names that there are. -/
theorem lookupLast?_filterMap {α β : Type} (f : String → Option β) (name : String)
    (entries : List (String × α)) :
    lookupLast? name (entries.filterMap fun (key, _) => (f key).map (key, ·)) =
      (lookupLast? name entries).bind fun _ => f name := by
  unfold lookupLast?
  rw [← List.filterMap_reverse]
  induction entries.reverse with
  | nil => rfl
  | cons entry rest ih =>
    obtain ⟨key, value⟩ := entry
    rw [List.lookup_cons]
    by_cases same : name = key
    · subst same
      cases found : f name with
      | none => simp [found, ih]
      | some made => simp [found]
    · rw [beq_eq_false_iff_ne.mpr same, ← ih]
      cases found : f key with
      | none => simp [found]
      | some made => simp [found, List.lookup_cons, beq_eq_false_iff_ne.mpr same]

namespace Assignment

/-- The default of a constant that is declared without a value, if its sort has one. -/
def missing? (env : Assignment) (name : String) : Option Value :=
  match lookupLast? name env.values with
  | some _ => none
  | none => (lookupLast? name env.sorts).bind Value.default?

/-- The defaults of all constants without a value. -/
def defaults (env : Assignment) : List (String × Value) :=
  env.sorts.filterMap fun (name, _) => (env.missing? name).map (name, ·)

/-- The assignment with every default of a sort in the place of a missing value. -/
def completed (env : Assignment) : Assignment :=
  { env with values := env.values ++ env.defaults }

variable (env : Assignment) (name : String)

theorem sorts_completed : env.completed.sorts = env.sorts := rfl

theorem build_completed : env.completed.build = env.build := rfl

/-- The completed assignment has the values that were assigned, and for the names without one the
defaults of their sorts. -/
theorem lookupLast?_completed : lookupLast? name env.completed.values =
    (lookupLast? name env.values).or ((lookupLast? name env.sorts).bind Value.default?) := by
  rw [completed, lookupLast?_append, defaults, lookupLast?_filterMap, missing?]
  cases lookupLast? name env.values with
  | some value => simp
  | none => cases lookupLast? name env.sorts <;> simp

theorem lookup_completed : env.completed.lookup name = env.lookup name := by
  rw [lookup, lookup, lookupLast?_completed, sorts_completed]
  cases lookupLast? name env.values with
  | some value => rfl
  | none =>
    cases lookupLast? name env.sorts with
    | none => rfl
    | some sort => cases sort <;> rfl

end Assignment

namespace Term

theorem mem_namesAll {arg : Term} {args : List Term} {name : String} (member : arg ∈ args)
    (inside : name ∈ arg.names) : name ∈ namesAll args := by
  induction member with
  | head rest => exact List.mem_append_left _ inside
  | tail first _ ih => exact List.mem_append_right _ ih

theorem Occurs.mem_names {name : String} {term : Term} (occurs : (const name).Occurs term) :
    name ∈ term.names := by
  induction occurs with
  | whole => exact List.mem_singleton_self name
  | @operand term arg member _ ih =>
    cases term with
    | nary _ args => exact mem_namesAll member ih
    | app _ args => exact List.mem_cons_of_mem _ (mem_namesAll member ih)
    | unary | binary | ite =>
      simp only [args, List.mem_cons, List.not_mem_nil, or_false] at member
      simp only [names, List.mem_append]
      rcases member with rfl | rfl | rfl <;> simp [ih]
    | _ => cases member

section

variable {env other : Assignment} {args : List Term}

theorem allTrue_congr (same : ∀ arg ∈ args, arg.eval env = arg.eval other) :
    allTrue env args = allTrue other args := by
  induction args with
  | nil => rfl
  | cons arg rest ih =>
    obtain ⟨first, later⟩ := List.forall_mem_cons.mp same
    rw [allTrue_cons, allTrue_cons, first, ih later]

theorem anyTrue_congr (same : ∀ arg ∈ args, arg.eval env = arg.eval other) :
    anyTrue env args = anyTrue other args := by
  induction args with
  | nil => rfl
  | cons arg rest ih =>
    obtain ⟨first, later⟩ := List.forall_mem_cons.mp same
    rw [anyTrue_cons, anyTrue_cons, first, ih later]

theorem evalAll_congr (same : ∀ arg ∈ args, arg.eval env = arg.eval other) :
    evalAll env args = evalAll other args := by
  induction args with
  | nil => rfl
  | cons arg rest ih =>
    obtain ⟨first, later⟩ := List.forall_mem_cons.mp same
    rw [evalAll_cons, evalAll_cons, first, ih later]

theorem evalTexts_congr (same : ∀ arg ∈ args, arg.eval env = arg.eval other) :
    evalTexts env args = evalTexts other args := by
  induction args with
  | nil => rfl
  | cons arg rest ih =>
    obtain ⟨first, later⟩ := List.forall_mem_cons.mp same
    rw [evalTexts_cons, evalTexts_cons, first, ih later]

/-- A term that is not a constant is evaluated by its operands alone. -/
theorem eval_congr_args (build : env.build = other.build) {term : Term}
    (compound : ∀ name, term ≠ .const name)
    (same : ∀ arg ∈ term.args, arg.eval env = arg.eval other) :
    term.eval env = term.eval other := by
  cases term with
  | const name => exact absurd rfl (compound name)
  | boolLit | intLit | bitVecLit | stringLit | app => rfl
  | unary op arg =>
    have operand := same arg List.mem_cons_self
    rw [eval_unary, eval_unary, operand]
  | binary op left right =>
    have first := same left List.mem_cons_self
    have second := same right (List.mem_cons_of_mem _ List.mem_cons_self)
    cases op <;>
      simp only [eval_implies, eval_iff, eval_eq, eval_bv, eval_bvOrder, eval_int, eval_intOrder,
        eval_strPrefixOf, eval_strContains, first, second, build]
  | ite condition onTrue onFalse =>
    have test := same condition (by simp [args])
    have first := same onTrue (by simp [args])
    have second := same onFalse (by simp [args])
    rw [eval_ite, eval_ite, test, first, second]
  | nary op args =>
    have operands : ∀ arg ∈ args, arg.eval env = arg.eval other := same
    cases op with
    | and => rw [eval_and, eval_and, allTrue_congr operands]
    | or => rw [eval_or, eval_or, anyTrue_congr operands]
    | distinct => rw [eval_distinct, eval_distinct, evalAll_congr operands]
    | strConcat => rw [eval_strConcat, eval_strConcat, evalTexts_congr operands]

/-- Assignments that give the constants of a term the same values give it the same result. -/
theorem eval_congr (build : env.build = other.build) {term : Term}
    (agree : ∀ name, (const name).Occurs term → env.lookup name = other.lookup name) :
    term.eval env = term.eval other := by
  induction term using induction_args with
  | step term ih =>
    have operands : ∀ arg ∈ term.args, arg.eval env = arg.eval other := fun arg member =>
      ih arg member fun name occurs => agree name (.operand member occurs)
    cases term with
    | const name => exact agree name .whole
    | _ => exact eval_congr_args build nofun operands

end

end Term

def ResultModel.completed (model : ResultModel) : ResultModel :=
  { model with assignment := model.assignment.completed }

theorem ResultModel.get_completed (generation : Nat) (name : String) (model : ResultModel) :
    model.completed.get generation name = model.get generation name := by
  have checked : model.completed.ensureFresh generation = model.ensureFresh generation := rfl
  rw [get, get, checked]
  cases model.ensureFresh generation with
  | error err => rfl
  | ok _ =>
    simp only [completed, Assignment.lookupLast?_completed, Assignment.sorts_completed]
    cases lookupLast? name model.assignment.values with
    | some value => rfl
    | none => cases (lookupLast? name model.assignment.sorts).bind Value.default? <;> rfl

namespace Term

/-- Completion with the defaults of the sorts changes no result, neither of a term under an
assignment nor of a request to a model, and assignments that agree on the values and the sorts of
the constants that occur in a term give it the same result, in one build. -/
theorem eval_local (term : Term) (env : Assignment) :
    term.eval env.completed = term.eval env ∧
    (∀ (values : List (String × Value)) (sorts : List (String × SmtSort)),
      (∀ name, (const name).Occurs term →
        lookupLast? name env.values = lookupLast? name values ∧
        lookupLast? name env.sorts = lookupLast? name sorts) →
      term.eval env = term.eval { env with values, sorts }) ∧
    ∀ (generation : Nat) (model : ResultModel),
      model.completed.evaluate generation term = model.evaluate generation term ∧
      ∀ name, model.completed.get generation name = model.get generation name := by
  have complete (env : Assignment) : term.eval env.completed = term.eval env :=
    eval_congr env.build_completed fun name _ => env.lookup_completed name
  refine ⟨complete env, fun values sorts agree => ?_, fun generation model => ⟨?_, fun name => ?_⟩⟩
  · have sameBuild : env.build = { env with values, sorts }.build := rfl
    refine eval_congr sameBuild fun name occurs => ?_
    obtain ⟨sameValue, sameSort⟩ := agree name occurs
    rw [Assignment.lookup, Assignment.lookup, sameValue, sameSort]
  · have checked : model.completed.ensureFresh generation = model.ensureFresh generation := rfl
    rw [ResultModel.evaluate, ResultModel.evaluate, checked, ResultModel.completed,
      complete model.assignment]
  · exact model.get_completed generation name

/-- A comparison that does not hold, of a constant with a value and one without, and then an operand
of the wrong sort. -/
def sparseTerm : Term :=
  .nary .or [.binary (.intOrder .lt) (.const "x") (.const "y"),
    .binary .strPrefixOf (.const "s") (.unary .strLen (.const "s"))]

/-- A value that replaces an earlier one, two constants without a value, and names that the term
does not use. -/
def sparseEnv : Assignment where
  values := [("x", .int (.wrap 4)), ("x", .int (.wrap 3)), ("t", .bool true)]
  sorts := [("u", .uninterpreted "U"), ("x", .int), ("y", .int), ("s", .string)]

/-- The same said of the constants of the term, and something else of other names. -/
def shuffledEnv : Assignment where
  values := [("u", .raw "u!0"), ("x", .int (.wrap 3))]
  sorts := [("s", .bool), ("y", .int), ("s", .string), ("x", .int)]

theorem sparseTerm_local :
    sparseEnv.completed.values ≠ sparseEnv.values ∧
      sparseTerm.eval sparseEnv.completed = sparseTerm.eval sparseEnv ∧
      sparseTerm.eval sparseEnv = sparseTerm.eval shuffledEnv ∧
      sparseTerm.eval sparseEnv =
        .error (.expected "String" (.unary .strLen (.const "s"))) := by
  obtain ⟨complete, agreed, _⟩ := eval_local sparseTerm sparseEnv
  refine ⟨by decide, complete, agreed _ _ fun name occurs => ?_, rfl⟩
  have among : name ∈ ["x", "y", "s", "s"] := occurs.mem_names
  simp only [List.mem_cons, List.not_mem_nil, or_false] at among
  rcases among with rfl | rfl | rfl | rfl <;> exact ⟨rfl, rfl⟩

end Term

end SmtSession

import SmtSession.Proofs.CheckedEvaluation
import SmtSession.Proofs.Evaluation
import SmtSession.ResultModel

namespace SmtSession

namespace Value

/-- What a value stands for. Texts that are not read as values stand for nothing in particular. -/
def meaning : Value → Meaning
  | .bool value => .bool value
  | .int value => .int value.val
  | .bitVec bits width => .bitVec bits.toNat width.toNat
  | .str value => .str value.toList
  | .raw _ => .bool false

theorem denotes_readTrimmed {build : Build} {cs : List Char} {sort : SmtSort} {value : Value}
    (taken : readTrimmed? build cs sort = .ok (some value)) : value.Denotes sort value.meaning := by
  cases sort with
  | bool =>
    have found := Except.ok.inj taken
    split at found
    · cases found
      exact .bool true
    · split at found
      · cases found
        exact .bool false
      · cases found
  | int =>
    rw [readTrimmed?] at taken
    cases given : readInt? build cs with
    | error op =>
      rw [given] at taken
      cases taken
    | ok found =>
      rw [given] at taken
      obtain ⟨n, _, rfl⟩ := Option.map_eq_some_iff.mp (Except.ok.inj taken)
      exact .int n
  | bitVec width =>
    obtain ⟨number, _, rfl⟩ := Option.map_eq_some_iff.mp (Except.ok.inj taken)
    exact .masked rfl
  | string =>
    obtain ⟨decoded, _, rfl⟩ := Option.map_eq_some_iff.mp (Except.ok.inj taken)
    exact .str _
  | uninterpreted name => cases taken

/-- A text that is read at a sort is read as a value of the sort, or kept as it is. -/
theorem read_cases {build : Build} {text : String} {sort : SmtSort} {value : Value}
    (taken : read build text sort = .ok value) :
    value.Denotes sort value.meaning ∨ value = .raw (trimmed text) := by
  rw [read] at taken
  cases given : readTrimmed? build (Text.trim text.toList) sort with
  | error op =>
    rw [given] at taken
    cases taken
  | ok found =>
    rw [given] at taken
    cases found with
    | none => exact .inr (Except.ok.inj taken).symm
    | some v =>
      cases taken
      exact .inl (denotes_readTrimmed given)

/-- Only at the sort of integers does the reading of a text stop. -/
theorem read_eq_ok (build : Build) (text : String) {sort : SmtSort} (other : sort ≠ .int) :
    ∃ value, read build text sort = .ok value := by
  cases sort with
  | int => exact absurd rfl other
  | bool | bitVec | string | uninterpreted => exact ⟨_, rfl⟩

theorem default_denotes {sort : SmtSort} (evaluated : sort.IsEvaluated) :
    ∃ v, default? sort = some v ∧ v.Denotes sort (Meaning.default sort) := by
  cases sort with
  | bool => exact ⟨_, rfl, .bool false⟩
  | int => exact ⟨_, rfl, .int (.wrap 0)⟩
  | bitVec width => exact ⟨_, rfl, .bitVec (Nat.two_pow_pos _)⟩
  | string => exact ⟨_, rfl, .str ""⟩
  | uninterpreted name => exact evaluated.elim

end Value

theorem lookupLast?_map {α β : Type} (f : String → α → β) (name : String)
    (entries : List (String × α)) :
    lookupLast? name (entries.map fun (key, value) => (key, f key value)) =
      (lookupLast? name entries).map (f name) := by
  unfold lookupLast?
  rw [← List.map_reverse]
  induction entries.reverse with
  | nil => rfl
  | cons entry rest ih =>
    obtain ⟨key, value⟩ := entry
    rw [List.map_cons, List.lookup_cons, List.lookup_cons]
    by_cases same : name = key
    · rw [same, beq_self_eq_true]
      rfl
    · rw [beq_eq_false_iff_ne.mpr same]
      exact ih

theorem mem_of_lookupLast? {α : Type} {name : String} {value : α} {entries : List (String × α)}
    (found : lookupLast? name entries = some value) : (name, value) ∈ entries := by
  obtain ⟨front, back, split, _⟩ := List.lookup_eq_some_iff.mp found
  have among : (name, value) ∈ entries.reverse := split ▸ List.mem_append_right _ List.mem_cons_self
  exact List.mem_reverse.mp among

/-- Of every fault but a stop something is said. -/
theorem EvalFault.message_cases (fault : EvalFault) :
    (∃ op, fault = .stopped op) ∨
      (∀ op, fault ≠ .stopped op) ∧ ∃ message, fault.message = .ok message := by
  cases fault with
  | stopped op => exact .inl ⟨op, rfl⟩
  | _ => exact .inr ⟨by simp, _, rfl⟩

/-- What is read stands for what its value does. Where reading stops nothing in particular is
meant. -/
def Checked.meaning : Checked Value → Meaning
  | .ok value => value.meaning
  | .error _ => .bool false

/-- The constants of a model: what is assigned last to a name, read at its sort, or the default of
the sort. Which meaning a name without a sort has is of no account. -/
def Interpretation.ofModel (build : Build) (sorts : List (String × SmtSort)) (raw : Model)
    (quotientByZero remainderByZero : Int → Int) : Interpretation where
  constant name :=
    match lookupLast? name sorts, lookupLast? name raw.assignments with
    | some sort, some text => Checked.meaning (Value.read build text sort)
    | some sort, none => Meaning.default sort
    | none, _ => .bool false
  quotientByZero := quotientByZero
  remainderByZero := remainderByZero

/-- Every text of a model is read at the sort of its name, where terms of the sort are evaluated. -/
def Model.IsReadAt (build : Build) (sorts : List (String × SmtSort)) (raw : Model) : Prop :=
  ∀ name text sort, (name, text) ∈ raw.assignments → lookupLast? name sorts = some sort →
    sort.IsEvaluated → ∃ value, Value.read build text sort = .ok value ∧ ∀ kept, value ≠ .raw kept

namespace ResultModel

variable {build : Build} {producedAt : Nat} {sorts : List (String × SmtSort)} {raw : Model}
  {model : ResultModel}

theorem evaluate_of_value {term : Term} {v : Value}
    (evaluated : term.eval model.assignment = .ok v) :
    model.evaluate model.producedAt term = .ok (.ok v) := by
  have fresh : model.ensureFresh model.producedAt = .ok () := by simp [ensureFresh, isStale]
  simp only [evaluate, fresh, evaluated]

theorem evaluate_of_fault {term : Term} {fault : EvalFault}
    (evaluated : term.eval model.assignment = .error fault) :
    model.evaluate model.producedAt term =
      fault.message >>= fun message => .ok (.error (.evaluation message)) := by
  have fresh : model.ensureFresh model.producedAt = .ok () := by simp [ensureFresh, isStale]
  simp only [evaluate, fresh, evaluated]
  rfl

/-- The values of the texts of a model, each the one that its text is read as. -/
theorem typedValues_eq_ok {entries : List (String × String)} {values : List (String × Value)}
    (given : typedValues build sorts entries = .ok values) :
    values.map (fun (name, value) => (name, Except.ok value)) =
      entries.map fun (name, text) => (name, typedValue build sorts name text) := by
  induction entries generalizing values with
  | nil =>
    cases given
    rfl
  | cons entry rest ih =>
    obtain ⟨name, text⟩ := entry
    obtain ⟨value, taken, given⟩ := bind_eq_ok_iff.mp given
    obtain ⟨others, later, given⟩ := bind_eq_ok_iff.mp given
    cases given
    simp only [List.map_cons, ih later, taken]

/-- What a result model is made of. -/
structure ReadFrom (build : Build) (producedAt : Nat) (sorts : List (String × SmtSort))
    (raw : Model) (model : ResultModel) : Prop where
  sameGeneration : model.producedAt = producedAt
  sameRaw : model.raw = raw
  sameBuild : model.assignment.build = build
  sameSorts : model.assignment.sorts = sorts
  /-- The value of a name is the one that its last text is read as. -/
  lookup : ∀ name, (lookupLast? name model.assignment.values).map Except.ok =
    (lookupLast? name raw.assignments).map (typedValue build sorts name)

theorem readFrom_of_ofModel (given : ofModel build producedAt sorts raw = .ok model) :
    ReadFrom build producedAt sorts raw model := by
  obtain ⟨values, taken, given⟩ := bind_eq_ok_iff.mp given
  cases given
  refine ⟨rfl, rfl, rfl, rfl, fun name => ?_⟩
  have same := congrArg (lookupLast? name) (typedValues_eq_ok taken)
  rwa [lookupLast?_map (fun _ value => Except.ok value), lookupLast?_map] at same

theorem ofModel_eq_ok (producedAt : Nat)
    (taken : ∀ name text, (name, text) ∈ raw.assignments →
      ∃ value, typedValue build sorts name text = .ok value) :
    ∃ model, ofModel build producedAt sorts raw = .ok model := by
  have all : ∃ values, typedValues build sorts raw.assignments = .ok values := by
    generalize raw.assignments = entries at taken
    induction entries with
    | nil => exact ⟨[], rfl⟩
    | cons entry rest ih =>
      obtain ⟨value, first⟩ := taken entry.1 entry.2 List.mem_cons_self
      obtain ⟨values, others⟩ := ih fun name text among =>
        taken name text (List.mem_cons_of_mem _ among)
      exact ⟨_, bind_eq_ok_iff.mpr ⟨value, first, bind_eq_ok_iff.mpr ⟨values, others, rfl⟩⟩⟩
  obtain ⟨values, given⟩ := all
  exact ⟨_, bind_eq_ok_iff.mpr ⟨values, given, rfl⟩⟩

/-- The texts of a model do not stop where they are read at evaluated sorts, as integers are. -/
theorem ofModel_of_isReadAt (producedAt : Nat) (isRead : raw.IsReadAt build sorts) :
    ∃ model, ofModel build producedAt sorts raw = .ok model := by
  refine ofModel_eq_ok producedAt fun name text among => ?_
  unfold typedValue
  cases declared : lookupLast? name sorts with
  | none => exact ⟨_, rfl⟩
  | some sort =>
    by_cases integer : sort = .int
    · obtain ⟨value, taken, _⟩ := isRead name text sort among declared (integer ▸ trivial)
      exact ⟨value, taken⟩
    · exact Value.read_eq_ok build text integer

/-- A constant has the value of its meaning. -/
theorem ReadFrom.lookup_denotes (readFrom : ReadFrom build producedAt sorts raw model)
    (quotientByZero remainderByZero : Int → Int) (isRead : raw.IsReadAt build sorts)
    {name : String} {sort : SmtSort} (declared : lookupLast? name sorts = some sort)
    (evaluated : sort.IsEvaluated) :
    ∃ v, model.assignment.lookup name = .ok v ∧ v.Denotes sort
      ((Interpretation.ofModel build sorts raw quotientByZero remainderByZero).constant name) := by
  have same := readFrom.lookup name
  unfold Assignment.lookup Interpretation.ofModel
  simp only [readFrom.sameSorts, declared]
  cases assigned : lookupLast? name raw.assignments with
  | some text =>
    obtain ⟨v, taken, typed⟩ :=
      isRead name text sort (mem_of_lookupLast? assigned) declared evaluated
    rw [assigned, Option.map_some, typedValue, declared] at same
    obtain ⟨w, found, given⟩ := Option.map_eq_some_iff.mp same
    obtain rfl : v = w := Except.ok.inj (taken.symm.trans given.symm)
    refine ⟨v, by rw [found], ?_⟩
    simp only [taken]
    exact (Value.read_cases taken).resolve_right (typed _)
  | none =>
    rw [assigned, Option.map_none, Option.map_eq_none_iff] at same
    obtain ⟨v, default, denotes⟩ := Value.default_denotes evaluated
    refine ⟨v, ?_, denotes⟩
    rw [same, default]
    rfl

/-- A term that has a sort has the value of its meaning, whatever division by zero is, and the value
is of the sort. Otherwise evaluation is refused, exactly because an integer operation that was
evaluated has a zero divisor or an exact result that 128 bits do not hold. Only a checked build may
stop instead, at a difference out of range in a signed comparison that evaluation comes to. -/
theorem evaluate_correct (build : Build) (producedAt : Nat) {term : Term} {sort : SmtSort}
    (isRead : raw.IsReadAt build sorts) (wellSorted : term.HasSort (lookupLast? · sorts) sort) :
    ∃ model, ofModel build producedAt sorts raw = .ok model ∧
      ((∃ v, model.evaluate producedAt term = .ok (.ok v) ∧
          (∀ quotientByZero remainderByZero, v.Denotes sort
            (term.denote (.ofModel build sorts raw quotientByZero remainderByZero))) ∧
          ¬term.Blamed model.assignment) ∨
        (∃ message, model.evaluate producedAt term = .ok (.error (.evaluation message)) ∧
          term.Blamed model.assignment) ∨
        ∃ op, model.evaluate producedAt term = .error op ∧ build = .checked ∧
          term.Overflows model.assignment ∧ ¬op.InRange) := by
  obtain ⟨model, given⟩ := ofModel_of_isReadAt producedAt isRead
  have readFrom := readFrom_of_ofModel given
  refine ⟨model, given, ?_⟩
  have correct (quotientByZero remainderByZero : Int → Int) :
      term.Correct model.assignment (.ofModel build sorts raw quotientByZero remainderByZero)
        sort :=
    .of_hasSort (fun _ _ => readFrom.lookup_denotes quotientByZero remainderByZero isRead)
      wellSorted
  cases evaluated : term.eval model.assignment with
  | ok v =>
    have whole := readFrom.sameGeneration ▸ evaluate_of_value evaluated
    have blameless : ¬term.Blamed model.assignment := by
      intro blamed
      obtain ⟨fault, refused⟩ := blamed.refused
      cases evaluated.symm.trans refused
    refine .inl ⟨v, whole, fun quotientByZero remainderByZero => ?_, blameless⟩
    rcases correct quotientByZero remainderByZero with ⟨w, same, denotes⟩ | blamed | ⟨op, stopped⟩
    · obtain rfl : v = w := Except.ok.inj (evaluated.symm.trans same)
      exact denotes
    · exact absurd blamed blameless
    · cases evaluated.symm.trans stopped
  | error fault =>
    have whole := readFrom.sameGeneration ▸ evaluate_of_fault evaluated
    rcases fault.message_cases with ⟨op, rfl⟩ | ⟨noStop, message, said⟩
    · have cause := Term.overflows_of_stopped evaluated
      rw [readFrom.sameBuild] at cause
      exact .inr (.inr ⟨op, whole, cause⟩)
    · rw [said, ok_bind] at whole
      -- Whatever division by zero may be, the operation that fails is the same.
      rcases correct id id with ⟨v, given, _⟩ | blamed | ⟨op, stopped⟩
      · cases evaluated.symm.trans given
      · exact .inr (.inl ⟨message, whole, blamed⟩)
      · exact absurd (Except.error.inj (evaluated.symm.trans stopped)) (noStop op)

/-- A negative byte, a negative number, a string with an escape, and a flag without a text. -/
def mixedSorts : List (String × SmtSort) :=
  [("x", .bitVec 8), ("n", .int), ("s", .string), ("p", .bool)]

def mixedModel : Model := ⟨[("x", "#xf0"), ("n", "(- 7)"), ("s", "\"a\\u\x7be9\x7d\"")]⟩

/-- Signed order, remainder of a negative number, length in characters, division by zero that is
not reached, and bitvector division by zero. -/
def mixedTerm : Term :=
  .nary .and
    [.binary (.bvOrder .slt) (.const "x") (.bitVecLit (.wrap 5) 8),
      .binary .eq (.binary (.int .mod) (.const "n") (.intLit (.wrap 2))) (.intLit (.wrap 1)),
      .binary .eq (.unary .strLen (.nary .strConcat [.const "s", .stringLit "z"]))
        (.intLit (.wrap 3)),
      .binary .implies (.const "p")
        (.binary .eq (.binary (.int .div) (.intLit (.wrap 1)) (.intLit (.wrap 0)))
          (.intLit (.wrap 0))),
      .nary .distinct
        [.const "x", .unary .bvNeg (.const "x"),
          .binary (.bv .udiv) (.const "x") (.bitVecLit (.wrap 0) 8)]]

theorem mixedTerm_hasSort : mixedTerm.HasSort (lookupLast? · mixedSorts) .bool := by
  have byte : Term.HasSort (lookupLast? · mixedSorts) (.const "x") (.bitVec 8) :=
    .const rfl (show (8 : UInt32).toNat ≤ 128 by decide)
  have literal (n : Int128) : Term.HasSort (lookupLast? · mixedSorts) (.bitVecLit n 8) (.bitVec 8) :=
    .bitVecLit (by decide)
  refine .nary .and ?_
  simp only [List.forall_mem_cons, List.not_mem_nil, false_implies, implies_true, and_true]
  refine ⟨.binary .bvOrder byte (literal _), ?_, ?_, ?_, ?_⟩
  · exact .binary .eq (.binary .int (.const rfl trivial) .intLit) .intLit
  · refine .binary .eq (.unary .strLen (.nary .strConcat ?_)) .intLit
    simp only [List.forall_mem_cons, List.not_mem_nil, false_implies, implies_true, and_true]
    exact ⟨.const rfl trivial, .stringLit⟩
  · exact .binary .implies (.const rfl trivial) (.binary .eq (.binary .int .intLit .intLit) .intLit)
  · refine .nary (@NaryOp.Maps.distinct (.bitVec 8)) ?_
    simp only [List.forall_mem_cons, List.not_mem_nil, false_implies, implies_true, and_true]
    exact ⟨byte, .unary .bvNeg byte, .binary .bv byte (literal _)⟩

theorem mixedModel_isReadAt : mixedModel.IsReadAt .checked mixedSorts := by
  intro name text sort assigned declared _
  simp only [mixedModel, List.mem_cons, Prod.mk.injEq, List.not_mem_nil, or_false] at assigned
  rcases assigned with ⟨rfl, rfl⟩ | ⟨rfl, rfl⟩ | ⟨rfl, rfl⟩
  · obtain rfl : SmtSort.bitVec 8 = sort := Option.some.inj declared
    exact ⟨.bitVec 0xf0 8, rfl, by simp⟩
  · obtain rfl : SmtSort.int = sort := Option.some.inj declared
    exact ⟨.int (.wrap (-7)), rfl, by simp⟩
  · obtain rfl : SmtSort.string = sort := Option.some.inj declared
    exact ⟨.str "aé", rfl, by simp⟩

theorem mixedTerm_true : mixedModel.IsReadAt .checked mixedSorts ∧
    mixedTerm.HasSort (lookupLast? · mixedSorts) .bool ∧
    (ofModel .checked 1 mixedSorts mixedModel >>= fun model => model.evaluate 1 mixedTerm) =
      .ok (.ok (.bool true)) ∧
    ∀ quotientByZero remainderByZero,
      mixedTerm.denote (.ofModel .checked mixedSorts mixedModel quotientByZero remainderByZero) =
        .bool true := by
  have value : (ofModel .checked 1 mixedSorts mixedModel >>= fun model =>
      model.evaluate 1 mixedTerm) = .ok (.ok (.bool true)) := by
    rfl
  refine ⟨mixedModel_isReadAt, mixedTerm_hasSort, value, ?_⟩
  intro quotientByZero remainderByZero
  obtain ⟨model, given, evaluated⟩ :=
    evaluate_correct .checked 1 mixedModel_isReadAt mixedTerm_hasSort
  rw [given, ok_bind] at value
  rcases evaluated with ⟨v, given, denotes, _⟩ | ⟨message, refused, _⟩ | ⟨op, stopped, _⟩
  · cases value.symm.trans given
    obtain ⟨_, same, meaning⟩ := (denotes quotientByZero remainderByZero).isBool
    cases same
    exact meaning
  · cases value.symm.trans refused
  · cases value.symm.trans stopped

end ResultModel

end SmtSession

import SmtSession.Proofs.ModelEvaluation

namespace SmtSession

/-! ### Masked bitvectors -/

/-- No bit of a bitvector is outside its width. -/
def Value.IsMasked : Value → Prop
  | .bitVec bits width => bits.toNat < 2 ^ width.toNat
  | .bool _ | .int _ | .str _ | .raw _ => True

theorem Value.isMasked_and (bits : BitVec 128) (width : UInt32) :
    (Value.bitVec (bits &&& Width.mask width) width).IsMasked := by
  show (bits &&& Width.mask width).toNat < 2 ^ width.toNat
  rw [Width.toNat_and_mask]
  exact Nat.mod_lt _ (Nat.two_pow_pos _)

/-- The value of a result is masked, if it has one. -/
def Masks (result : Except EvalFault Value) : Prop :=
  ∀ value, result = .ok value → value.IsMasked

namespace Masks

variable {α : Type}

theorem given {value : Value} (masked : value.IsMasked) : Masks (.ok value) := by
  rintro _ ⟨⟩
  exact masked

theorem bool (value : Bool) : Masks (.ok (.bool value)) := given trivial

theorem str (value : String) : Masks (.ok (.str value)) := given trivial

theorem refused (fault : EvalFault) : Masks (.error fault) := by
  rintro _ ⟨⟩

theorem int (exact : Option Int128) (fault : EvalFault) :
    Masks (exact.elim (.error fault) fun n => .ok (.int n)) := by
  cases exact with
  | none => exact .refused fault
  | some n => exact .given trivial

theorem bitVec (bits : BitVec 128) (width : UInt32) :
    Masks (.ok (.bitVec (bits &&& Width.mask width) width)) :=
  .given (Value.isMasked_and bits width)

theorem bind {taken : Except EvalFault α} {next : α → Except EvalFault Value}
    (each : ∀ a, Masks (next a)) : Masks (taken >>= next) := by
  intro value made
  obtain ⟨a, _, last⟩ := bind_eq_ok_iff.mp made
  exact each a value last

end Masks

def Assignment.IsMasked (env : Assignment) : Prop :=
  ∀ name, Masks (env.lookup name)

/-- Masked bits are read as a signed number without leaving 128 bits, but for those of 127 bits with
the top one: the power that is subtracted there is the least integer itself. -/
theorem Width.overflows_iff {bits : BitVec 128} {width : UInt32}
    (masked : bits.toNat < 2 ^ width.toNat) :
    Overflows bits width ↔ width.toNat = 127 ∧ bits.getLsbD 126 = true := by
  unfold Overflows
  generalize width.toNat = w at masked
  constructor
  · rintro ⟨positive, narrow, top, outside⟩
    have last : w = 127 := by
      refine Decidable.byContradiction fun other => ?_
      have half : 2 ^ w ≤ 2 ^ 126 := Nat.pow_le_pow_right (by decide) (by omega)
      have power := BitVec.toNat_twoPow_of_lt narrow
      have number : (BitVec.twoPow 128 w).toInt = (2 ^ w : Nat) := by
        rw [BitVec.toInt_eq_toNat_of_lt (by omega), power]
      refine outside ?_
      rw [BitVec.toInt_eq_toNat_of_lt (by omega), number, Int128.InRange]
      omega
    subst last
    exact ⟨rfl, top⟩
  · rintro ⟨rfl, top⟩
    refine ⟨by decide, by decide, top, ?_⟩
    have high : 2 ^ 127 ≤ 2 * bits.toNat := by
      have found := getLsbD_top (by decide : 0 < 127) masked
      rw [show (127 - 1 : Nat) = 126 from rfl, top] at found
      exact of_decide_eq_true found.symm
    have least : (BitVec.twoPow 128 127).toInt = -2 ^ 127 := by decide
    rw [BitVec.toInt_eq_toNat_of_lt (by omega), least, Int128.InRange]
    omega

namespace Term

theorem masks_unary (op : UnaryOp) (arg : Term) (x : Value) : Masks (op.apply arg x) := by
  cases op with
  | not => exact .bind fun b => .bool _
  | bvNeg | bvNot => exact .bind fun _ => .bitVec _ _
  | intNeg | strLen => exact .bind fun _ => .int _ _

variable {env : Assignment}

theorem masks_binary (op : BinaryOp) (left right : Term) :
    Masks ((binary op left right).eval env) := by
  cases op with
  | implies =>
    rw [eval_implies]
    refine .bind fun x => .bind fun p => ?_
    cases p with
    | false => exact .bool true
    | true => exact .bind fun y => .bind fun q => .bool q
  | iff =>
    rw [eval_iff]
    exact .bind fun x => .bind fun p => .bind fun y => .bind fun q => .bool _
  | eq =>
    rw [eval_eq]
    exact .bind fun x => .bind fun y => .bind fun same => .bool same
  | bv op =>
    rw [eval_bv]
    exact .bind fun x => .bind fun a => .bind fun y => .bind fun b => .bind fun _ => .bitVec _ _
  | bvOrder op =>
    rw [eval_bvOrder]
    exact .bind fun x => .bind fun a => .bind fun y => .bind fun b => .bind fun _ =>
      .bind fun holds => .bool holds
  | int op =>
    rw [eval_int]
    exact .bind fun x => .bind fun a => .bind fun y => .bind fun b => .int _ _
  | intOrder op =>
    rw [eval_intOrder]
    exact .bind fun x => .bind fun a => .bind fun y => .bind fun b => .bool _
  | strPrefixOf =>
    rw [eval_strPrefixOf]
    exact .bind fun x => .bind fun a => .bind fun y => .bind fun b => .bool _
  | strContains =>
    rw [eval_strContains]
    exact .bind fun x => .bind fun a => .bind fun y => .bind fun b => .bool _

theorem masks_nary (op : NaryOp) (args : List Term) : Masks ((nary op args).eval env) := by
  cases op with
  | and =>
    rw [eval_and]
    exact .bind fun holds => .bool holds
  | or =>
    rw [eval_or]
    exact .bind fun holds => .bool holds
  | distinct =>
    rw [eval_distinct]
    exact .bind fun values => .bind fun differ => .bool differ
  | strConcat =>
    rw [eval_strConcat]
    exact .bind fun texts => .str _

/-- Evaluation masks the bitvectors that it makes, so that every value is masked if the constants
are. -/
theorem masks_eval (masked : env.IsMasked) : (term : Term) → Masks (term.eval env)
  | .boolLit _ | .intLit _ | .stringLit _ => .given trivial
  | .bitVecLit .. => .bitVec _ _
  | .const name => masked name
  | .unary op arg => by
    rw [eval_unary]
    exact .bind fun x => masks_unary op arg x
  | .binary op left right => masks_binary op left right
  | .ite condition onTrue onFalse => by
    rw [eval_ite]
    refine .bind fun x => .bind fun holds => ?_
    cases holds with
    | false => exact masks_eval masked onFalse
    | true => exact masks_eval masked onTrue
  | .nary op args => masks_nary op args
  | .app .. => .refused _

end Term

/-! ### Result models -/

theorem Value.Denotes.isMasked {value : Value} {sort : SmtSort} {meaning : Meaning}
    (denotes : value.Denotes sort meaning) : value.IsMasked := by
  cases denotes with
  | bitVec inside => exact inside
  | bool | int | str => trivial

theorem Value.isMasked_read {build : Build} {text : String} {sort : SmtSort} {value : Value}
    (taken : read build text sort = .ok value) : value.IsMasked := by
  rcases read_cases taken with denotes | rfl
  · exact denotes.isMasked
  · trivial

namespace ResultModel

variable {build : Build} {producedAt : Nat} {sorts : List (String × SmtSort)} {raw : Model}
  {model : ResultModel} {name text : String}

theorem isMasked_typedValue {value : Value} (taken : typedValue build sorts name text = .ok value) :
    value.IsMasked := by
  unfold typedValue at taken
  split at taken
  · exact Value.isMasked_read taken
  · cases taken
    trivial

/-- Whatever texts a model has, its bitvectors are masked. -/
theorem ReadFrom.isMasked (readFrom : ReadFrom build producedAt sorts raw model) :
    model.assignment.IsMasked := by
  intro name
  have same := readFrom.lookup name
  unfold Assignment.lookup
  cases found : lookupLast? name model.assignment.values with
  | some value =>
    rw [found] at same
    obtain ⟨text, _, taken⟩ := Option.map_eq_some_iff.mp same.symm
    exact .given (isMasked_typedValue taken)
  | none =>
    cases lookupLast? name model.assignment.sorts with
    | none => exact .refused _
    | some sort =>
      cases sort with
      | bitVec width => exact .given (Nat.two_pow_pos _)
      | bool | int | string => exact .given trivial
      | uninterpreted kind => exact .refused _

theorem typedValue_stops (sorts : List (String × SmtSort)) (name text : String) :
    StopsIff id (lookupLast? name sorts = some .int ∧ Value.NegatesLeast (Text.trim text.toList))
      fun build => typedValue build sorts name text := by
  unfold typedValue
  cases lookupLast? name sorts with
  | none => exact (StopsIff.ok _).congr (by simp)
  | some sort => exact (Value.read_stops text sort).congr (by simp)

/-- The texts of a model are read unless one of them, at the sort of integers, is the negation of
the least one. -/
theorem typedValues_stops (sorts : List (String × SmtSort)) (entries : List (String × String)) :
    StopsIff id (∃ entry ∈ entries, lookupLast? entry.1 sorts = some .int ∧
        Value.NegatesLeast (Text.trim entry.2.toList))
      fun build => typedValues build sorts entries := by
  induction entries with
  | nil => exact (StopsIff.ok []).congr (by simp)
  | cons entry rest ih =>
    have first := typedValue_stops sorts entry.1 entry.2
    have stops := first.andThen fun value => ih.map fun values => (entry.1, value) :: values
    refine stops.congr ?_
    simp only [List.mem_cons, exists_eq_or_imp]
    by_cases now : lookupLast? entry.1 sorts = some .int ∧
        Value.NegatesLeast (Text.trim entry.2.toList)
    · simp [now]
    · obtain ⟨value, given⟩ := first.ok_of_not now
      simp [now, given]

end ResultModel

/-- Where bitvectors are masked, only signed comparisons of 127 bits overflow, of bits with the top
one. -/
theorem Term.overflows_iff {env : Assignment} (masked : env.IsMasked) (term : Term) :
    term.Overflows env ↔ ∃ order left right a b,
      term.Reaches env (.binary (.bvOrder order) left right) ∧ order.isSigned = true ∧
        left.eval env = .ok (.bitVec a 127) ∧ right.eval env = .ok (.bitVec b 127) ∧
        (a.getLsbD 126 = true ∨ b.getLsbD 126 = true) := by
  constructor
  · rintro ⟨_, reaches, @⟨order, left, right, a, b, width, evalLeft, evalRight, signed, beyond⟩⟩
    have insideLeft := masks_eval masked _ _ evalLeft
    have insideRight := masks_eval masked _ _ evalRight
    rw [Width.overflows_iff insideLeft, Width.overflows_iff insideRight, ← and_or_left] at beyond
    obtain ⟨last, top⟩ := beyond
    obtain rfl : width = 127 := UInt32.toNat_inj.mp last
    exact ⟨order, left, right, a, b, reaches, signed, evalLeft, evalRight, top⟩
  · rintro ⟨order, left, right, a, b, reaches, signed, evalLeft, evalRight, top⟩
    have insideLeft := masks_eval masked _ _ evalLeft
    have insideRight := masks_eval masked _ _ evalRight
    refine ⟨_, reaches, evalLeft, evalRight, signed, ?_⟩
    rw [Width.overflows_iff insideLeft, Width.overflows_iff insideRight, ← and_or_left]
    exact ⟨rfl, top⟩

/-- The plain operators of reading and of evaluation. A text is read without leaving the range of
one, but for the negation of the least integer at the sort of integers, and so are the texts of a
model. A term is evaluated, under any assignment, without leaving the range of one, but for a signed
comparison that cannot read an operand; under the values of a model that is a comparison of 127 bits
one of whose operands has its top bit. -/
theorem stops_only_at_overflow (text : String) (sort : SmtSort) (env : Assignment) (term : Term)
    (sorts : List (String × SmtSort)) (raw : Model) :
    StopsIff id (sort = .int ∧ Value.NegatesLeast (Text.trim text.toList))
      (fun build => Value.read build text sort) ∧
    StopsIff id (∃ entry ∈ raw.assignments, lookupLast? entry.1 sorts = some .int ∧
        Value.NegatesLeast (Text.trim entry.2.toList))
      (fun build => ResultModel.typedValues build sorts raw.assignments) ∧
    StopsIff .stopped (term.Overflows (env.under .checked))
      (fun build => term.eval (env.under build)) ∧
    ∃ values, ResultModel.typedValues .wrapping sorts raw.assignments = .ok values ∧
      (term.Overflows { values, sorts, build := .checked } ↔ ∃ order left right a b,
        term.Reaches { values, sorts, build := .checked } (.binary (.bvOrder order) left right) ∧
        order.isSigned = true ∧
        left.eval { values, sorts, build := .checked } = .ok (.bitVec a 127) ∧
        right.eval { values, sorts, build := .checked } = .ok (.bitVec b 127) ∧
        (a.getLsbD 126 = true ∨ b.getLsbD 126 = true)) := by
  have texts := ResultModel.typedValues_stops sorts raw.assignments
  refine ⟨Value.read_stops text sort, texts, Term.agrees env term, ?_⟩
  cases given : ResultModel.typedValues .wrapping sorts raw.assignments with
  | error op => exact absurd given (texts.never op)
  | ok values =>
    have made : ResultModel.ofModel .wrapping 0 sorts raw =
        .ok { producedAt := 0, raw, assignment := { values, sorts, build := .wrapping } } :=
      bind_eq_ok_iff.mpr ⟨values, given, rfl⟩
    have masked : Assignment.IsMasked { values, sorts, build := .checked } :=
      (ResultModel.readFrom_of_ofModel made).isMasked
    exact ⟨values, rfl, Term.overflows_iff masked term⟩

/-- A text is read, and a term without constants is evaluated, with a plain operator out of range:
the negation of the least integer, and the difference of 2¹²⁶ and the least integer. -/
theorem negation_and_difference_overflow :
    (Value.read .checked "(- -170141183460469231731687303715884105728)" .int =
        .error (.negate (-0x80000000000000000000000000000000)) ∧
      ¬PlainOp.InRange (.negate (-0x80000000000000000000000000000000))) ∧
    (Term.binary (.bvOrder .slt) (.bitVecLit (.wrap 0x40000000000000000000000000000000) 127)
        (.bitVecLit (.wrap 0) 127)).eval {} =
        .error (.stopped
          (.subtract 0x40000000000000000000000000000000 (-0x80000000000000000000000000000000))) ∧
      ¬PlainOp.InRange
        (.subtract 0x40000000000000000000000000000000 (-0x80000000000000000000000000000000)) := by
  refine ⟨⟨?_, by decide⟩, ?_, by decide⟩
  · rfl
  · rfl

end SmtSession

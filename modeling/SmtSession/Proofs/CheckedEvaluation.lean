import SmtSession.Proofs.CheckedArithmetic

namespace SmtSession

def Assignment.under (build : Build) (env : Assignment) : Assignment := { env with build }

/-- The fault of a result is no stop, if there is one. -/
def EvalFault.NoStop {α : Type} (result : Except EvalFault α) : Prop :=
  ∀ op, result ≠ .error (.stopped op)

section

open EvalFault

theorem EvalFault.noStop_ok {α : Type} (value : α) : NoStop (.ok value) := by simp [NoStop]

theorem EvalFault.noStop_elim {α β : Type} {found : Option α} {fault : EvalFault} {f : α → β}
    (own : ∀ op, fault ≠ .stopped op) : NoStop (found.elim (.error fault) fun a => .ok (f a)) := by
  cases found with
  | none => simpa [NoStop] using own
  | some a => exact noStop_ok _

namespace Value

variable (arg : Term) (x : Value)

theorem noStop_toBool : NoStop (x.toBool arg) := noStop_elim (f := id) (by simp)

theorem noStop_toInt : NoStop (x.toInt arg) := noStop_elim (f := id) (by simp)

theorem noStop_toStr : NoStop (x.toStr arg) := noStop_elim (f := id) (by simp)

theorem noStop_toBitVec : NoStop (x.toBitVec arg) := noStop_elim (f := id) (by simp)

theorem noStop_same (y : Value) : NoStop (x.same y) := by
  intro op
  unfold same
  split
  case h_6 => split <;> simp
  all_goals simp

theorem noStop_differsFrom (values : List Value) : NoStop (x.differsFrom values) := by
  intro op
  induction values with
  | nil => exact noStop_ok _ op
  | cons y rest ih =>
    unfold differsFrom
    split
    · next fault compared =>
      rintro ⟨⟩
      exact noStop_same x y op compared
    · exact noStop_ok _ op
    · exact ih

theorem noStop_allDiffer (values : List Value) : NoStop (allDiffer values) := by
  intro op
  induction values with
  | nil => exact noStop_ok _ op
  | cons x rest ih =>
    unfold allDiffer
    split
    · next fault compared =>
      rintro ⟨⟩
      exact noStop_differsFrom x rest op compared
    · exact noStop_ok _ op
    · exact ih

end Value

theorem Term.noStop_requireWidth (w v : UInt32) : NoStop (requireWidth w v) := by
  intro op
  unfold requireWidth
  split <;> simp

theorem Assignment.noStop_lookup (env : Assignment) (name : String) : NoStop (env.lookup name) := by
  intro op
  unfold lookup
  split
  · exact noStop_ok _ op
  · split
    · simp
    · exact noStop_elim (f := id) (by simp) op

end

/-- What has a fault of its own at most does not depend on the build. -/
theorem StopsIff.given {α : Type} {result : Except EvalFault α} (noStop : EvalFault.NoStop result) :
    StopsIff .stopped False fun _ => result := .const noStop

theorem StopsIff.inside {α : Type} {cause : Prop} {taken : Build → Checked α}
    (stopsIff : StopsIff id cause taken) :
    StopsIff .stopped cause fun build => EvalFault.ofChecked (taken build) where
  stops held := by
    obtain ⟨op, stopped, outside⟩ := stopsIff.stops held
    exact ⟨op, by rw [stopped]; rfl, outside⟩
  goesOn none := congrArg _ (stopsIff.goesOn none)
  never op := by
    cases given : taken .wrapping with
    | error other => exact absurd given (stopsIff.never other)
    | ok a => simp [EvalFault.ofChecked]

theorem UnaryOp.apply_stops (op : UnaryOp) (arg : Term) (x : Value) :
    StopsIff .stopped False fun _ => op.apply arg x := by
  have exact (result : Int) : StopsIff .stopped False fun _ => (Int128.ofInt? result).elim
      (.error EvalFault.overflow) fun n => .ok (Value.int n) :=
    .given (EvalFault.noStop_elim (by simp))
  cases op with
  | not => exact (StopsIff.given (x.noStop_toBool arg)).map fun b => Value.bool !b
  | bvNeg =>
    exact (StopsIff.given (x.noStop_toBitVec arg)).map fun p =>
      Value.bitVec (-p.1 &&& Width.mask p.2) p.2
  | bvNot =>
    exact (StopsIff.given (x.noStop_toBitVec arg)).map fun p =>
      Value.bitVec (~~~p.1 &&& Width.mask p.2) p.2
  | intNeg =>
    have stops := (StopsIff.given (x.noStop_toInt arg)).andThen fun n => exact (-n.val)
    exact stops.congr (by simp)
  | strLen =>
    have stops := (StopsIff.given (x.noStop_toStr arg)).andThen fun s => exact s.length
    exact stops.congr (by simp)

/-- The values of its left operand after which an operator looks at the right one. -/
def BinaryOp.LooksOn : BinaryOp → Value → Prop
  | .implies, x => x = .bool true
  | .iff, x => ∃ p, x = .bool p
  | .eq, _ => True
  | .bv _, x | .bvOrder _, x => ∃ bits width, x = .bitVec bits width
  | .int _, x | .intOrder _, x => ∃ n, x = .int n
  | .strPrefixOf, x | .strContains, x => ∃ s, x = .str s

/-- The values of an operand after which an operator looks at the next one. -/
def NaryOp.LooksOn : NaryOp → Value → Prop
  | .and, x => x = .bool true
  | .or, x => x = .bool false
  | .distinct, _ => True
  | .strConcat, x => ∃ s, x = .str s

namespace Term

/-- Which terms evaluation comes to, also where the sorts of operands do not fit: an operand of the
wrong sort is the last one that is looked at. -/
inductive Reaches (env : Assignment) : Term → Term → Prop where
  | self {term : Term} : Reaches env term term
  | operand {op : UnaryOp} {arg inner : Term} : Reaches env arg inner →
      Reaches env (.unary op arg) inner
  | left {op : BinaryOp} {left right inner : Term} : Reaches env left inner →
      Reaches env (.binary op left right) inner
  | right {op : BinaryOp} {left right inner : Term} {x : Value} : left.eval env = .ok x →
      op.LooksOn x → Reaches env right inner → Reaches env (.binary op left right) inner
  | condition {condition onTrue onFalse inner : Term} : Reaches env condition inner →
      Reaches env (.ite condition onTrue onFalse) inner
  | onTrue {condition onTrue onFalse inner : Term} : condition.eval env = .ok (.bool true) →
      Reaches env onTrue inner → Reaches env (.ite condition onTrue onFalse) inner
  | onFalse {condition onTrue onFalse inner : Term} : condition.eval env = .ok (.bool false) →
      Reaches env onFalse inner → Reaches env (.ite condition onTrue onFalse) inner
  | argument {op : NaryOp} {before after : List Term} {arg inner : Term} :
      (∀ earlier ∈ before, ∃ x, earlier.eval env = .ok x ∧ op.LooksOn x) →
      Reaches env arg inner → Reaches env (.nary op (before ++ arg :: after)) inner

/-- A comparison that cannot read one of its operands as a signed number. -/
inductive Beyond (env : Assignment) : Term → Prop where
  | comparison {order : BvOrder} {left right : Term} {a b : BitVec 128} {width : UInt32} :
      left.eval env = .ok (.bitVec a width) → right.eval env = .ok (.bitVec b width) →
      order.Overflows width a b → Beyond env (.binary (.bvOrder order) left right)

/-- Evaluation comes to a comparison that cannot read one of its operands. -/
def Overflows (env : Assignment) (term : Term) : Prop :=
  ∃ comparison, Reaches env term comparison ∧ Beyond env comparison

def OverflowsAmong (env : Assignment) (op : NaryOp) : List Term → Prop
  | [] => False
  | arg :: rest => Overflows env arg ∨
      ∃ x, arg.eval env = .ok x ∧ op.LooksOn x ∧ OverflowsAmong env op rest

section

variable {env : Assignment}

theorem overflows_unary {op : UnaryOp} {arg : Term} :
    Overflows env (.unary op arg) ↔ Overflows env arg := by
  constructor
  · rintro ⟨comparison, reaches, beyond⟩
    cases reaches with
    | self => cases beyond
    | operand reaches => exact ⟨comparison, reaches, beyond⟩
  · rintro ⟨comparison, reaches, beyond⟩
    exact ⟨comparison, .operand reaches, beyond⟩

theorem overflows_binary {op : BinaryOp} {left right : Term} :
    Overflows env (.binary op left right) ↔ Overflows env left ∨
      (∃ x, left.eval env = .ok x ∧ op.LooksOn x ∧ Overflows env right) ∨
      Beyond env (.binary op left right) := by
  constructor
  · rintro ⟨comparison, reaches, beyond⟩
    cases reaches with
    | self => exact .inr (.inr beyond)
    | left reaches => exact .inl ⟨comparison, reaches, beyond⟩
    | right evalLeft looks reaches =>
      exact .inr (.inl ⟨_, evalLeft, looks, comparison, reaches, beyond⟩)
  · rintro (⟨comparison, reaches, beyond⟩ |
      ⟨x, evalLeft, looks, comparison, reaches, beyond⟩ | beyond)
    · exact ⟨comparison, .left reaches, beyond⟩
    · exact ⟨comparison, .right evalLeft looks reaches, beyond⟩
    · exact ⟨_, .self, beyond⟩

theorem overflows_ite {condition onTrue onFalse : Term} :
    Overflows env (.ite condition onTrue onFalse) ↔ Overflows env condition ∨
      (condition.eval env = .ok (.bool false) ∧ Overflows env onFalse) ∨
      (condition.eval env = .ok (.bool true) ∧ Overflows env onTrue) := by
  constructor
  · rintro ⟨comparison, reaches, beyond⟩
    cases reaches with
    | self => cases beyond
    | condition reaches => exact .inl ⟨comparison, reaches, beyond⟩
    | onTrue holds reaches => exact .inr (.inr ⟨holds, comparison, reaches, beyond⟩)
    | onFalse fails reaches => exact .inr (.inl ⟨fails, comparison, reaches, beyond⟩)
  · rintro (⟨comparison, reaches, beyond⟩ | ⟨fails, comparison, reaches, beyond⟩ |
      ⟨holds, comparison, reaches, beyond⟩)
    · exact ⟨comparison, .condition reaches, beyond⟩
    · exact ⟨comparison, .onFalse fails reaches, beyond⟩
    · exact ⟨comparison, .onTrue holds reaches, beyond⟩

theorem overflowsAmong_iff {op : NaryOp} {args : List Term} :
    OverflowsAmong env op args ↔ ∃ before arg after, args = before ++ arg :: after ∧
      (∀ earlier ∈ before, ∃ x, earlier.eval env = .ok x ∧ op.LooksOn x) ∧ Overflows env arg := by
  induction args with
  | nil => simp [OverflowsAmong]
  | cons first rest ih =>
    rw [OverflowsAmong, ih]
    constructor
    · rintro (now | ⟨x, evalFirst, looks, before, arg, after, rfl, earlier, later⟩)
      · exact ⟨[], first, rest, rfl, by simp, now⟩
      · exact ⟨first :: before, arg, after, rfl,
          List.forall_mem_cons.mpr ⟨⟨x, evalFirst, looks⟩, earlier⟩, later⟩
    · rintro ⟨before, arg, after, split, earlier, overflows⟩
      cases before with
      | nil =>
        obtain ⟨rfl, rfl⟩ := List.cons.inj split
        exact .inl overflows
      | cons head before =>
        obtain ⟨rfl, rfl⟩ := List.cons.inj split
        obtain ⟨⟨x, evalFirst, looks⟩, earlier⟩ := List.forall_mem_cons.mp earlier
        exact .inr ⟨x, evalFirst, looks, before, arg, after, rfl, earlier, overflows⟩

theorem overflows_nary {op : NaryOp} {args : List Term} :
    Overflows env (.nary op args) ↔ OverflowsAmong env op args := by
  rw [overflowsAmong_iff]
  constructor
  · rintro ⟨comparison, reaches, beyond⟩
    cases reaches with
    | self => cases beyond
    | argument earlier reaches => exact ⟨_, _, _, rfl, earlier, comparison, reaches, beyond⟩
  · rintro ⟨before, arg, after, rfl, earlier, comparison, reaches, beyond⟩
    exact ⟨comparison, .argument earlier reaches, beyond⟩

end

/-- The checked evaluation of a term stops exactly if it comes to such a comparison. -/
def Agrees (env : Assignment) (term : Term) : Prop :=
  StopsIff .stopped (Overflows (env.under .checked) term) fun build => term.eval (env.under build)

section

variable {env : Assignment}

theorem Agrees.unary (op : UnaryOp) {arg : Term} (first : Agrees env arg) :
    Agrees env (.unary op arg) := by
  have stops := first.andThen fun x => op.apply_stops arg x
  exact stops.congr (by simp [overflows_unary])

/-- Only a comparison of bitvectors reads its operands as signed numbers. -/
theorem overflows_binary_other {op : BinaryOp} {left right : Term}
    (other : ∀ order, op ≠ .bvOrder order) :
    Overflows env (.binary op left right) ↔ Overflows env left ∨
      ∃ x, left.eval env = .ok x ∧ op.LooksOn x ∧ Overflows env right := by
  have never : ¬Beyond env (.binary op left right) := by
    rintro ⟨⟩
    exact other _ rfl
  rw [overflows_binary, or_iff_left never]

theorem beyond_bvOrder {order : BvOrder} {left right : Term} :
    Beyond env (.binary (.bvOrder order) left right) ↔
      ∃ a width, left.eval env = .ok (.bitVec a width) ∧
        ∃ b, right.eval env = .ok (.bitVec b width) ∧ order.Overflows width a b := by
  constructor
  · rintro ⟨evalLeft, evalRight, overflows⟩
    exact ⟨_, _, evalLeft, _, evalRight, overflows⟩
  · rintro ⟨_, _, evalLeft, _, evalRight, overflows⟩
    exact .comparison evalLeft evalRight overflows

/-- Two operands, of which the second is looked at if the first has the right kind of value. -/
theorem Agrees.operands {left right : Term} {α β : Type} {kindLeft : Value → Except EvalFault α}
    {kindRight : Value → Except EvalFault β} {cause : α → β → Prop}
    {combine : Build → α → β → Except EvalFault Value} (first : Agrees env left)
    (second : Agrees env right) (noStopLeft : ∀ x, EvalFault.NoStop (kindLeft x))
    (noStopRight : ∀ y, EvalFault.NoStop (kindRight y))
    (combines : ∀ a b, StopsIff .stopped (cause a b) fun build => combine build a b) :
    StopsIff .stopped
      (Overflows (env.under .checked) left ∨
        ∃ x, left.eval (env.under .checked) = .ok x ∧ ∃ a, kindLeft x = .ok a ∧
          (Overflows (env.under .checked) right ∨
            ∃ y, right.eval (env.under .checked) = .ok y ∧ ∃ b, kindRight y = .ok b ∧ cause a b))
      fun build => left.eval (env.under build) >>= fun x => kindLeft x >>= fun a =>
        right.eval (env.under build) >>= fun y => kindRight y >>= combine build a := by
  have stops := first.andThen fun x => (StopsIff.given (noStopLeft x)).andThen fun a =>
    second.andThen fun y => (StopsIff.given (noStopRight y)).andThen (combines a)
  exact stops.congr (by simp)

theorem Agrees.implies {left right : Term} (first : Agrees env left) (second : Agrees env right) :
    Agrees env (.binary .implies left right) := by
  have decides (p : Bool) : StopsIff .stopped (p = true ∧ Overflows (env.under .checked) right)
      fun build => if p then right.eval (env.under build) >>= fun y => y.toBool right >>= fun q =>
        .ok (Value.bool q) else .ok (.bool true) := by
    -- A false premise leaves the conclusion alone, and with it whatever stops there.
    cases p with
    | false => exact (StopsIff.ok _).congr (by simp)
    | true =>
      have stops := second.andThen fun y =>
        (StopsIff.given (y.noStop_toBool right)).map Value.bool
      exact stops.congr (by simp)
  have stops := first.andThen fun x =>
    (StopsIff.given (x.noStop_toBool left)).andThen decides
  exact stops.congr (by simp [overflows_binary_other, BinaryOp.LooksOn, Value.toBool_eq_ok])

theorem Agrees.bvOrder (op : BvOrder) {left right : Term} (first : Agrees env left)
    (second : Agrees env right) : Agrees env (.binary (.bvOrder op) left right) := by
  have combines (p q : BitVec 128 × UInt32) :=
    (StopsIff.given (noStop_requireWidth p.2 q.2)).andThen fun _ =>
      (StopsIff.inside (op.apply_stops p.2 p.1 q.1)).map Value.bool
  have stops := first.operands second (Value.noStop_toBitVec left)
    (Value.noStop_toBitVec right) combines
  refine stops.congr ?_
  rw [overflows_binary, beyond_bvOrder]
  simp only [BinaryOp.LooksOn, Value.toBitVec_eq_ok, requireWidth_eq_ok, Prod.exists, false_or]
  constructor
  · rintro (here | ⟨_, evalLeft, ⟨a, width, rfl⟩, later⟩ |
      ⟨a, width, evalLeft, b, evalRight, beyond⟩)
    · exact .inl here
    · exact .inr ⟨_, evalLeft, a, width, rfl, .inl later⟩
    · exact .inr ⟨_, evalLeft, a, width, rfl, .inr ⟨_, evalRight, b, width, rfl, (), rfl, beyond⟩⟩
  · rintro (here |
      ⟨_, evalLeft, a, width, rfl, later | ⟨_, evalRight, b, _, rfl, _, rfl, beyond⟩⟩)
    · exact .inl here
    · exact .inr (.inl ⟨_, evalLeft, ⟨a, width, rfl⟩, later⟩)
    · exact .inr (.inr ⟨a, width, evalLeft, b, evalRight, beyond⟩)

theorem Agrees.binary (op : BinaryOp) {left right : Term} (first : Agrees env left)
    (second : Agrees env right) : Agrees env (.binary op left right) := by
  cases op with
  | implies => exact .implies first second
  | bvOrder op => exact .bvOrder op first second
  | iff =>
    have stops := first.operands second (Value.noStop_toBool left)
      (Value.noStop_toBool right) fun p q => StopsIff.ok (Value.bool (p == q))
    exact stops.congr (by simp [overflows_binary_other, BinaryOp.LooksOn, Value.toBool_eq_ok])
  | eq =>
    have stops := first.andThen fun x => second.andThen fun y =>
      (StopsIff.given (x.noStop_same y)).map Value.bool
    exact stops.congr (by simp [overflows_binary_other, BinaryOp.LooksOn])
  | bv op =>
    have combines (p q : BitVec 128 × UInt32) :=
      (StopsIff.given (noStop_requireWidth p.2 q.2)).map fun _ =>
        Value.bitVec (op.apply p.1 q.1 &&& Width.mask p.2) p.2
    have stops := first.operands second (Value.noStop_toBitVec left)
      (Value.noStop_toBitVec right) combines
    exact stops.congr (by simp [overflows_binary_other, BinaryOp.LooksOn, Value.toBitVec_eq_ok])
  | int op =>
    have exact (a b : Int128) : StopsIff .stopped False fun _ => (op.result? a b).elim
        (.error (EvalFault.overflowOrDivisionByZero left right)) fun n => .ok (Value.int n) :=
      .given (EvalFault.noStop_elim (by simp))
    have stops := first.operands second (Value.noStop_toInt left)
      (Value.noStop_toInt right) exact
    exact stops.congr (by simp [overflows_binary_other, BinaryOp.LooksOn, Value.toInt_eq_ok])
  | intOrder op =>
    have stops := first.operands second (Value.noStop_toInt left)
      (Value.noStop_toInt right) fun a b =>
        StopsIff.ok (Value.bool (op.apply a b))
    exact stops.congr (by simp [overflows_binary_other, BinaryOp.LooksOn, Value.toInt_eq_ok])
  | strPrefixOf =>
    have stops := first.operands second (Value.noStop_toStr left)
      (Value.noStop_toStr right) fun a b =>
        StopsIff.ok (Value.bool (b.startsWith a))
    exact stops.congr (by simp [overflows_binary_other, BinaryOp.LooksOn, Value.toStr_eq_ok])
  | strContains =>
    have stops := first.operands second (Value.noStop_toStr left)
      (Value.noStop_toStr right) fun a b =>
        StopsIff.ok (Value.bool (a.contains b : Bool))
    exact stops.congr (by simp [overflows_binary_other, BinaryOp.LooksOn, Value.toStr_eq_ok])

theorem Agrees.ite {condition onTrue onFalse : Term} (test : Agrees env condition)
    (first : Agrees env onTrue) (second : Agrees env onFalse) :
    Agrees env (.ite condition onTrue onFalse) := by
  have decides (holds : Bool) : StopsIff .stopped
      ((holds = false ∧ Overflows (env.under .checked) onFalse) ∨
        (holds = true ∧ Overflows (env.under .checked) onTrue))
      fun build =>
        if holds then onTrue.eval (env.under build) else onFalse.eval (env.under build) := by
    cases holds with
    | false => exact second.congr (by simp)
    | true => exact first.congr (by simp)
  have stops := test.andThen fun x =>
    (StopsIff.given (x.noStop_toBool condition)).andThen decides
  refine stops.congr ?_
  rw [overflows_ite]
  simp only [Value.toBool_eq_ok, false_or]
  constructor
  · rintro (here | ⟨evalTest, later⟩ | ⟨evalTest, later⟩)
    · exact .inl here
    · exact .inr ⟨_, evalTest, false, rfl, .inl ⟨rfl, later⟩⟩
    · exact .inr ⟨_, evalTest, true, rfl, .inr ⟨rfl, later⟩⟩
  · rintro (here | ⟨_, evalTest, _, rfl, ⟨rfl, later⟩ | ⟨rfl, later⟩⟩)
    · exact .inl here
    · exact .inr (.inl ⟨evalTest, later⟩)
    · exact .inr (.inr ⟨evalTest, later⟩)

theorem allTrue_stops {args : List Term} (each : ∀ arg ∈ args, Agrees env arg) :
    StopsIff .stopped (OverflowsAmong (env.under .checked) .and args)
      fun build => allTrue (env.under build) args := by
  induction args with
  | nil => exact .ok _
  | cons arg rest ih =>
    obtain ⟨first, later⟩ := List.forall_mem_cons.mp each
    have decides (holds : Bool) : StopsIff .stopped
        (holds = true ∧ OverflowsAmong (env.under .checked) .and rest)
        fun build => if holds then allTrue (env.under build) rest else .ok false := by
      cases holds with
      | false => exact (StopsIff.ok _).congr (by simp)
      | true => exact (ih later).congr (by simp)
    have stops := first.andThen fun x =>
      (StopsIff.given (x.noStop_toBool arg)).andThen decides
    exact stops.congr (by simp [OverflowsAmong, NaryOp.LooksOn, Value.toBool_eq_ok])

theorem anyTrue_stops {args : List Term} (each : ∀ arg ∈ args, Agrees env arg) :
    StopsIff .stopped (OverflowsAmong (env.under .checked) .or args)
      fun build => anyTrue (env.under build) args := by
  induction args with
  | nil => exact .ok _
  | cons arg rest ih =>
    obtain ⟨first, later⟩ := List.forall_mem_cons.mp each
    have decides (holds : Bool) : StopsIff .stopped
        (holds = false ∧ OverflowsAmong (env.under .checked) .or rest)
        fun build => if holds then .ok true else anyTrue (env.under build) rest := by
      cases holds with
      | false => exact (ih later).congr (by simp)
      | true => exact (StopsIff.ok _).congr (by simp)
    have stops := first.andThen fun x =>
      (StopsIff.given (x.noStop_toBool arg)).andThen decides
    exact stops.congr (by simp [OverflowsAmong, NaryOp.LooksOn, Value.toBool_eq_ok])

theorem evalAll_stops {args : List Term} (each : ∀ arg ∈ args, Agrees env arg) :
    StopsIff .stopped (OverflowsAmong (env.under .checked) .distinct args)
      fun build => evalAll (env.under build) args := by
  induction args with
  | nil => exact .ok _
  | cons arg rest ih =>
    obtain ⟨first, later⟩ := List.forall_mem_cons.mp each
    have stops := first.andThen fun x => (ih later).map fun values => x :: values
    exact stops.congr (by simp [OverflowsAmong, NaryOp.LooksOn])

theorem evalTexts_stops {args : List Term} (each : ∀ arg ∈ args, Agrees env arg) :
    StopsIff .stopped (OverflowsAmong (env.under .checked) .strConcat args)
      fun build => evalTexts (env.under build) args := by
  induction args with
  | nil => exact .ok _
  | cons arg rest ih =>
    obtain ⟨first, later⟩ := List.forall_mem_cons.mp each
    have stops := first.andThen fun x =>
      (StopsIff.given (x.noStop_toStr arg)).andThen fun text =>
        (ih later).map fun texts => text :: texts
    exact stops.congr (by simp [OverflowsAmong, NaryOp.LooksOn, Value.toStr_eq_ok])

theorem Agrees.nary (op : NaryOp) {args : List Term} (each : ∀ arg ∈ args, Agrees env arg) :
    Agrees env (.nary op args) := by
  cases op with
  | and => exact ((allTrue_stops each).map Value.bool).congr overflows_nary
  | or => exact ((anyTrue_stops each).map Value.bool).congr overflows_nary
  | distinct =>
    have stops := (evalAll_stops each).andThen fun values =>
      (StopsIff.given (Value.noStop_allDiffer values)).map Value.bool
    exact stops.congr (by simp [overflows_nary])
  | strConcat =>
    exact ((evalTexts_stops each).map fun texts => Value.str (String.join texts)).congr
      overflows_nary

theorem Agrees.leaf {term : Term} (alone : ∀ inner, Reaches (env.under .checked) term inner →
      inner = term) (noComparison : ¬Beyond (env.under .checked) term)
    (same : term.eval (env.under .checked) = term.eval (env.under .wrapping))
    (noStop : EvalFault.NoStop (term.eval (env.under .wrapping))) : Agrees env term where
  stops := fun ⟨inner, reaches, beyond⟩ => absurd (alone inner reaches ▸ beyond) noComparison
  goesOn _ := same
  never := noStop

mutual
/-- A checked evaluation of any term stops exactly if it comes to a comparison that cannot read one
of its operands. -/
theorem agrees (env : Assignment) : (term : Term) → Agrees env term
  | .boolLit _ | .intLit _ | .bitVecLit .. | .stringLit _ =>
    .leaf (by rintro _ ⟨⟩; rfl) (by rintro ⟨⟩) rfl (EvalFault.noStop_ok _)
  | .app .. => .leaf (by rintro _ ⟨⟩; rfl) (by rintro ⟨⟩) rfl (by rintro _ ⟨⟩)
  | .const name => .leaf (by rintro _ ⟨⟩; rfl) (by rintro ⟨⟩) rfl (env.noStop_lookup name)
  | .unary op arg => .unary op (agrees env arg)
  | .binary op left right => .binary op (agrees env left) (agrees env right)
  | .ite condition onTrue onFalse =>
    .ite (agrees env condition) (agrees env onTrue) (agrees env onFalse)
  | .nary op args => .nary op (agrees_args env args)

theorem agrees_args (env : Assignment) : (args : List Term) → ∀ arg ∈ args, Agrees env arg
  | [] => fun _ absent => absurd absent List.not_mem_nil
  | arg :: rest => List.forall_mem_cons.mpr ⟨agrees env arg, agrees_args env rest⟩
end

/-- A stop is one of a checked build, for an operand that cannot be read. -/
theorem overflows_of_stopped {term : Term} {op : PlainOp}
    (stopped : term.eval env = .error (.stopped op)) :
    env.build = .checked ∧ term.Overflows env ∧ ¬op.InRange := by
  have apart : Function.Injective EvalFault.stopped := fun _ _ => EvalFault.stopped.inj
  have stopped : term.eval (env.under env.build) = .error (.stopped op) := stopped
  obtain ⟨checked, overflows, outside⟩ := (agrees env term).of_error apart stopped
  have same : env.under .checked = env := by rw [← checked]; rfl
  exact ⟨checked, same ▸ overflows, outside⟩

end

end Term

end SmtSession

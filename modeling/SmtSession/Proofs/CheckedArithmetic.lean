import SmtSession.Proofs.Refusal
import SmtSession.Value

/-! Checked arithmetic: where a build that checks its plain operators stops in the reading of a value
and in an operator on values. Where it does not stop it gives what a build that wraps gives. -/
namespace SmtSession

/-- The checked build of a computation stops exactly if there is a cause, at an operator that is out
of range, and otherwise gives what the wrapping build gives, which never stops. -/
structure StopsIff {ε α : Type} (stop : PlainOp → ε) (cause : Prop) (taken : Build → Except ε α) :
    Prop where
  stops : cause → ∃ op, taken .checked = .error (stop op) ∧ ¬op.InRange
  goesOn : ¬cause → taken .checked = taken .wrapping
  never : ∀ op, taken .wrapping ≠ .error (stop op)

namespace StopsIff

variable {ε α β : Type} {stop : PlainOp → ε} {first second : Prop} {taken : Build → Except ε α}

/-- What does not depend on the build. -/
theorem const {result : Except ε α} (never : ∀ op, result ≠ .error (stop op)) :
    StopsIff stop False fun _ => result :=
  ⟨False.elim, fun _ => rfl, never⟩

theorem ok (value : α) : StopsIff stop False fun _ => .ok value := const (by simp)

theorem perform (op : PlainOp) (result : α) :
    StopsIff id (¬op.InRange) fun build => op.perform build result where
  stops outside := ⟨op, if_neg outside, outside⟩
  goesOn inside := if_pos (Decidable.not_not.mp inside)
  never := by simp [PlainOp.perform]

theorem congr (stopsIff : StopsIff stop first taken) (same : second ↔ first) :
    StopsIff stop second taken where
  stops cause := stopsIff.stops (same.mp cause)
  goesOn none := stopsIff.goesOn (mt same.mpr none)
  never := stopsIff.never

/-- One computation after another, which may stop if the first goes on and has a value. -/
theorem andThen {cause : α → Prop} {next : Build → α → Except ε β}
    (one : StopsIff stop first taken)
    (two : ∀ a, StopsIff stop (cause a) fun build => next build a) :
    StopsIff stop (first ∨ ∃ a, taken .checked = .ok a ∧ cause a)
      fun build => taken build >>= next build := by
  have never : ∀ op, (taken .wrapping >>= next .wrapping) ≠ .error (stop op) := by
    intro op
    cases given : taken .wrapping with
    | error err =>
      intro same
      rw [error_bind, Except.error.injEq] at same
      exact one.never op (same ▸ given)
    | ok a => exact (two a).never op
  by_cases stopped : first
  · obtain ⟨op, same, outside⟩ := one.stops stopped
    have ends : (taken .checked >>= next .checked) = .error (stop op) := by rw [same, error_bind]
    exact ⟨fun _ => ⟨op, ends, outside⟩, fun none => absurd (.inl stopped) none, never⟩
  · have runs := one.goesOn stopped
    -- Both builds come to the second with the same value, or to neither with the same error.
    cases given : taken .wrapping with
    | error err =>
      rw [given] at runs
      refine ⟨fun cause => ?_, fun _ => by simp only [runs, given, error_bind], never⟩
      simp [stopped, runs] at cause
    | ok a =>
      rw [given] at runs
      have after : StopsIff stop (cause a) fun build => taken build >>= next build :=
        ⟨by simpa only [runs, ok_bind] using (two a).stops,
          by simpa only [runs, given, ok_bind] using (two a).goesOn, never⟩
      exact after.congr (by simp [stopped, runs])

theorem map (one : StopsIff stop first taken) (f : α → β) :
    StopsIff stop first fun build => taken build >>= fun a => .ok (f a) := by
  have both : StopsIff stop (first ∨ ∃ a, taken .checked = .ok a ∧ False)
      fun build => taken build >>= fun a => .ok (f a) := one.andThen fun a => ok (f a)
  exact both.congr (by simp)

/-- A build that does not stop gives what the wrapping build gives. -/
theorem cases (stopsIff : StopsIff stop first taken) (build : Build) :
    taken build = taken .wrapping ∨
      build = .checked ∧ first ∧ ∃ op, taken build = .error (stop op) ∧ ¬op.InRange := by
  cases build with
  | wrapping => exact .inl rfl
  | checked =>
    by_cases cause : first
    · exact .inr ⟨rfl, cause, stopsIff.stops cause⟩
    · exact .inl (stopsIff.goesOn cause)

/-- A stop is a stop of the checked build, at an operator out of range. -/
theorem of_error (stopsIff : StopsIff stop first taken) (apart : Function.Injective stop)
    {build : Build} {op : PlainOp} (stopped : taken build = .error (stop op)) :
    build = .checked ∧ first ∧ ¬op.InRange := by
  rcases stopsIff.cases build with same | ⟨checked, cause, other, given, outside⟩
  · exact absurd (same.symm.trans stopped) (stopsIff.never op)
  · obtain rfl : other = op := apart (Except.error.inj (given.symm.trans stopped))
    exact ⟨checked, cause, outside⟩

theorem ok_of_not {taken : Build → Checked α} (stopsIff : StopsIff id first taken)
    (none : ¬first) : ∃ a, taken .checked = .ok a := by
  rw [stopsIff.goesOn none]
  cases given : taken .wrapping with
  | ok a => exact ⟨a, rfl⟩
  | error op => exact absurd given (stopsIff.never op)

end StopsIff

namespace Width

/-- The difference by which bits are read as a negative number is out of range. -/
def Overflows (bits : BitVec 128) (width : UInt32) : Prop :=
  0 < width.toNat ∧ width.toNat < 128 ∧ bits.getLsbD (width.toNat - 1) = true ∧
    ¬Int128.InRange (bits.toInt - (BitVec.twoPow 128 width.toNat).toInt)

theorem signed_stops (bits : BitVec 128) (width : UInt32) :
    StopsIff id (Overflows bits width) fun build => signed build bits width := by
  have isZero : width = 0 ↔ width.toNat = 0 := UInt32.toNat_inj.symm
  simp only [signed_eq, isZero]
  by_cases edge : width.toNat = 0 ∨ 128 ≤ width.toNat
  · simp only [if_pos edge]
    refine (StopsIff.ok _).congr ?_
    simp only [Overflows, iff_false]
    omega
  · simp only [if_neg edge]
    obtain ⟨positive, narrow⟩ : 0 < width.toNat ∧ width.toNat < 128 := by omega
    cases top : bits.getLsbD (width.toNat - 1) with
    | false => exact (StopsIff.ok _).congr (by simp [Overflows, top])
    | true =>
      exact (StopsIff.perform _ _).congr
        (by simp [Overflows, positive, narrow, top, PlainOp.InRange])

end Width

namespace Value

/-- The text is the negation of the least integer. -/
def NegatesLeast (cs : List Char) : Prop :=
  ∃ inner rest n, Text.between? ['('] [')'] cs = some inner ∧ Text.trim inner = '-' :: rest ∧
    Numeral.int128? (Text.trim rest) = some n ∧ n.val = -0x80000000000000000000000000000000

theorem negate_inRange_iff (n : Int128) :
    PlainOp.InRange (.negate n.val) ↔ n.val ≠ -0x80000000000000000000000000000000 := by
  have lower := n.lower
  have upper := n.upper
  simp only [PlainOp.InRange, Int128.InRange]
  omega

theorem readInt?_stops (cs : List Char) :
    StopsIff id (NegatesLeast cs) fun build => readInt? build cs := by
  cases framed : Text.between? ['('] [')'] cs with
  | none =>
    simp only [readInt?, framed]
    exact (StopsIff.ok _).congr (by simp [NegatesLeast, framed])
  | some inner =>
    by_cases minus : ∃ rest, Text.trim inner = '-' :: rest
    · obtain ⟨rest, minus⟩ := minus
      simp only [readInt?, framed, minus]
      cases number : Numeral.int128? (Text.trim rest) with
      | none => exact (StopsIff.ok none).congr (by simp [NegatesLeast, framed, minus, number])
      | some n =>
        refine (StopsIff.perform (.negate n.val) (some n.neg)).congr ?_
        rw [negate_inRange_iff, Decidable.not_not]
        simp [NegatesLeast, framed, minus, number]
    · have other : ∀ rest, Text.trim inner ≠ '-' :: rest := fun rest same => minus ⟨rest, same⟩
      simp only [readInt?, framed]
      exact (StopsIff.ok none).congr (by simp [NegatesLeast, framed, other])

theorem readTrimmed?_stops (cs : List Char) (sort : SmtSort) :
    StopsIff id (sort = .int ∧ NegatesLeast cs) fun build => readTrimmed? build cs sort := by
  cases sort with
  | int => exact ((readInt?_stops cs).map (·.map Value.int)).congr (by simp)
  | bool | bitVec | string | uninterpreted => exact (StopsIff.ok _).congr (by simp)

/-- Reading stops at nothing but the negation of the least integer. -/
theorem read_stops (text : String) (sort : SmtSort) :
    StopsIff id (sort = .int ∧ NegatesLeast (Text.trim text.toList))
      fun build => read build text sort :=
  (readTrimmed?_stops _ sort).map _

end Value

/-! ### Operators -/

namespace BvOrder

def isSigned : BvOrder → Bool
  | .slt | .sle => true
  | .ult | .ule | .ugt | .uge => false

/-- A signed comparison that cannot read one of its operands. -/
def Overflows (order : BvOrder) (width : UInt32) (x y : BitVec 128) : Prop :=
  order.isSigned = true ∧ (Width.Overflows x width ∨ Width.Overflows y width)

/-- The second operand is read where the first one can be. -/
theorem overflows_iff_either {order : BvOrder} {width : UInt32} {x y : BitVec 128}
    (signed : order.isSigned = true) : order.Overflows width x y ↔
      Width.Overflows x width ∨ ∃ a, Width.signed .checked x width = .ok a ∧
        Width.Overflows y width := by
  rw [Overflows, and_iff_right signed]
  by_cases first : Width.Overflows x width
  · simp [first]
  · obtain ⟨a, given⟩ := (Width.signed_stops x width).ok_of_not first
    simp [first, given]

theorem apply_stops (order : BvOrder) (width : UInt32) (x y : BitVec 128) :
    StopsIff id (order.Overflows width x y) fun build => order.apply build width x y := by
  have both (decides : Int → Int → Bool) := (Width.signed_stops x width).andThen fun a =>
    (Width.signed_stops y width).map (decides a)
  cases order with
  | slt => exact (both fun a b => a < b).congr (overflows_iff_either rfl)
  | sle => exact (both fun a b => a ≤ b).congr (overflows_iff_either rfl)
  | ult | ule | ugt | uge => exact (StopsIff.ok _).congr (by simp [Overflows, isSigned])

/-- Bits inside a width are compared as they denote, where the comparison does not stop. -/
theorem apply_cases (build : Build) (order : BvOrder) {x y : BitVec 128} {width : UInt32}
    (narrow : width.toNat ≤ 128) (insideX : x.toNat < 2 ^ width.toNat)
    (insideY : y.toNat < 2 ^ width.toNat) :
    order.apply build width x y = .ok (order.denote width.toNat x.toNat y.toNat) ∨
      ∃ op, order.apply build width x y = .error op := by
  rcases (order.apply_stops width x y).cases build with same | ⟨_, _, op, stopped, _⟩
  · exact .inl (same.trans (order.apply_eq narrow insideX insideY))
  · exact .inr ⟨op, stopped⟩

end BvOrder

end SmtSession

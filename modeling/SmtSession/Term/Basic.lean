import SmtSession.Number.Integer

namespace SmtSession

/-- Bitvector operators whose result has the width of both operands. -/
inductive BvOp where
  | add | sub | mul | udiv | urem | and | or | xor
  deriving DecidableEq, Repr

/-- Bitvector comparisons, unsigned and signed. -/
inductive BvOrder where
  | ult | ule | ugt | uge | slt | sle
  deriving DecidableEq, Repr

inductive IntOp where
  | add | sub | mul | div | mod
  deriving DecidableEq, Repr

inductive IntOrder where
  | lt | le | gt | ge
  deriving DecidableEq, Repr

inductive UnaryOp where
  | not | bvNeg | bvNot | intNeg | strLen
  deriving DecidableEq, Repr

inductive BinaryOp where
  | implies
  | iff
  | eq
  | bv (op : BvOp)
  | bvOrder (op : BvOrder)
  | int (op : IntOp)
  | intOrder (op : IntOrder)
  | strPrefixOf
  | strContains
  deriving DecidableEq, Repr

/-- Operators that take any number of operands, none included. -/
inductive NaryOp where
  | and | or | distinct | strConcat
  deriving DecidableEq, Repr

inductive Term where
  | boolLit (value : Bool)
  | intLit (value : Int128)
  /-- The residue of `value` modulo 2 to the width. -/
  | bitVecLit (value : Int128) (width : UInt32)
  | stringLit (value : String)
  | const (name : String)
  | unary (op : UnaryOp) (arg : Term)
  | binary (op : BinaryOp) (left right : Term)
  | ite (condition onTrue onFalse : Term)
  | nary (op : NaryOp) (args : List Term)
  /-- An application of a function that is not interpreted here. -/
  | app (name : String) (args : List Term)
  deriving Inhabited

namespace Term

def args : Term → List Term
  | .boolLit _ | .intLit _ | .bitVecLit .. | .stringLit _ | .const _ => []
  | .unary _ arg => [arg]
  | .binary _ left right => [left, right]
  | .ite condition onTrue onFalse => [condition, onTrue, onFalse]
  | .nary _ args | .app _ args => args

end Term

end SmtSession

namespace SmtSession.Term

mutual
private def decideEq : (a b : Term) → Decidable (a = b)
  | .boolLit x, b => by
    cases b with
    | boolLit y => exact decidable_of_iff (x = y) (by simp)
    | _ => exact isFalse (by simp)
  | .intLit x, b => by
    cases b with
    | intLit y => exact decidable_of_iff (x = y) (by simp)
    | _ => exact isFalse (by simp)
  | .bitVecLit x w, b => by
    cases b with
    | bitVecLit y v => exact decidable_of_iff (x = y ∧ w = v) (by simp)
    | _ => exact isFalse (by simp)
  | .stringLit x, b => by
    cases b with
    | stringLit y => exact decidable_of_iff (x = y) (by simp)
    | _ => exact isFalse (by simp)
  | .const x, b => by
    cases b with
    | const y => exact decidable_of_iff (x = y) (by simp)
    | _ => exact isFalse (by simp)
  | .unary op x, b => by
    cases b with
    | unary op' y =>
      have := decideEq x y
      exact decidable_of_iff (op = op' ∧ x = y) (by simp)
    | _ => exact isFalse (by simp)
  | .binary op x₁ x₂, b => by
    cases b with
    | binary op' y₁ y₂ =>
      have := decideEq x₁ y₁
      have := decideEq x₂ y₂
      exact decidable_of_iff (op = op' ∧ x₁ = y₁ ∧ x₂ = y₂) (by simp)
    | _ => exact isFalse (by simp)
  | .ite x₁ x₂ x₃, b => by
    cases b with
    | ite y₁ y₂ y₃ =>
      have := decideEq x₁ y₁
      have := decideEq x₂ y₂
      have := decideEq x₃ y₃
      exact decidable_of_iff (x₁ = y₁ ∧ x₂ = y₂ ∧ x₃ = y₃) (by simp)
    | _ => exact isFalse (by simp)
  | .nary op xs, b => by
    cases b with
    | nary op' ys =>
      have := decideEqAll xs ys
      exact decidable_of_iff (op = op' ∧ xs = ys) (by simp)
    | _ => exact isFalse (by simp)
  | .app f xs, b => by
    cases b with
    | app g ys =>
      have := decideEqAll xs ys
      exact decidable_of_iff (f = g ∧ xs = ys) (by simp)
    | _ => exact isFalse (by simp)

private def decideEqAll : (as bs : List Term) → Decidable (as = bs)
  | [], [] => isTrue rfl
  | [], _ :: _ => isFalse (by simp)
  | _ :: _, [] => isFalse (by simp)
  | x :: xs, y :: ys =>
    have := decideEq x y
    have := decideEqAll xs ys
    decidable_of_iff (x = y ∧ xs = ys) (by simp)
end

instance : DecidableEq Term := decideEq

end SmtSession.Term

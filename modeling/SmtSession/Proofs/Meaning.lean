import Mathlib.Algebra.Group.Int.Defs
import Mathlib.Algebra.Group.Nat.Defs
import SmtSession.SmtSort
import SmtSession.Term.Basic

/-! Meanings: what terms denote in SMT-LIB, with integers of any size, bitvectors as numbers modulo
2 to their width and strings as sequences of characters. A meaning of another sort than an operator
takes is read as some fixed one; which, is of no account for terms that have a sort. -/
namespace SmtSession

inductive Meaning where
  | bool (value : Bool)
  | int (value : Int)
  | bitVec (number width : Nat)
  | str (chars : List Char)
  deriving DecidableEq, Repr, Inhabited

namespace Meaning

def toBool : Meaning → Bool
  | .bool value => value
  | _ => false

def toInt : Meaning → Int
  | .int value => value
  | _ => 0

def number : Meaning → Nat
  | .bitVec number _ => number
  | _ => 0

def width : Meaning → Nat
  | .bitVec _ width => width
  | _ => 0

def toChars : Meaning → List Char
  | .str chars => chars
  | _ => []

def default : SmtSort → Meaning
  | .bool => .bool false
  | .int => .int 0
  | .bitVec width => .bitVec 0 width.toNat
  | .string => .str []
  | .uninterpreted _ => .bool false

end Meaning

/-- What SMT-LIB leaves open: the constants, and division by zero. -/
structure Interpretation where
  constant : String → Meaning
  quotientByZero : Int → Int
  remainderByZero : Int → Int

/-- The number of a bitvector that represents an integer. -/
def residue (width : Nat) (n : Int) : Nat := (n % 2 ^ width).toNat

/-- The two's complement of a bitvector's number. -/
def twosComplement (width number : Nat) : Int :=
  if 2 * number < 2 ^ width then number else number - 2 ^ width

def occurs (part : List Char) : List Char → Bool
  | [] => part.isEmpty
  | c :: rest => part.isPrefixOf (c :: rest) || occurs part rest

def UnaryOp.denote : UnaryOp → Meaning → Meaning
  | .not, m => .bool (!m.toBool)
  | .bvNeg, m => .bitVec (residue m.width (-m.number)) m.width
  | .bvNot, m => .bitVec (2 ^ m.width - 1 - m.number) m.width
  | .intNeg, m => .int (-m.toInt)
  | .strLen, m => .int m.toChars.length

/-- Division by zero gives all ones, and the remainder by zero is the dividend. -/
def BvOp.denote (width : Nat) : BvOp → Nat → Nat → Nat
  | .add, x, y => residue width (x + y)
  | .sub, x, y => residue width (x - y)
  | .mul, x, y => residue width (x * y)
  | .udiv, x, y => if y = 0 then 2 ^ width - 1 else x / y
  | .urem, x, y => if y = 0 then x else x % y
  | .and, x, y => x &&& y
  | .or, x, y => x ||| y
  | .xor, x, y => x ^^^ y

def BvOrder.denote (width : Nat) : BvOrder → Nat → Nat → Bool
  | .ult, x, y => x < y
  | .ule, x, y => x ≤ y
  | .ugt, x, y => y < x
  | .uge, x, y => y ≤ x
  | .slt, x, y => twosComplement width x < twosComplement width y
  | .sle, x, y => twosComplement width x ≤ twosComplement width y

/-- Division rounds so that the remainder is not negative. -/
def IntOp.denote (interp : Interpretation) : IntOp → Int → Int → Int
  | .add, x, y => x + y
  | .sub, x, y => x - y
  | .mul, x, y => x * y
  | .div, x, y => if y = 0 then interp.quotientByZero x else x / y
  | .mod, x, y => if y = 0 then interp.remainderByZero x else x % y

def IntOrder.denote : IntOrder → Int → Int → Bool
  | .lt, x, y => x < y
  | .le, x, y => x ≤ y
  | .gt, x, y => y < x
  | .ge, x, y => y ≤ x

def BinaryOp.denote (interp : Interpretation) : BinaryOp → Meaning → Meaning → Meaning
  | .implies, m, n => .bool (!m.toBool || n.toBool)
  | .iff, m, n => .bool (m.toBool == n.toBool)
  | .eq, m, n => .bool (m == n)
  | .bv op, m, n => .bitVec (op.denote m.width m.number n.number) m.width
  | .bvOrder op, m, n => .bool (op.denote m.width m.number n.number)
  | .int op, m, n => .int (op.denote interp m.toInt n.toInt)
  | .intOrder op, m, n => .bool (op.denote m.toInt n.toInt)
  | .strPrefixOf, m, n => .bool (m.toChars.isPrefixOf n.toChars)
  | .strContains, m, n => .bool (occurs n.toChars m.toChars)

def NaryOp.denote : NaryOp → List Meaning → Meaning
  | .and, ms => .bool (ms.all Meaning.toBool)
  | .or, ms => .bool (ms.any Meaning.toBool)
  | .distinct, ms => .bool (decide ms.Nodup)
  | .strConcat, ms => .str (ms.flatMap Meaning.toChars)

namespace Term

mutual
/-- What a term denotes. Functions that are not interpreted here have no meaning of their own. -/
def denote (interp : Interpretation) : Term → Meaning
  | .boolLit value => .bool value
  | .intLit value => .int value.val
  | .bitVecLit value width => .bitVec (residue width.toNat value.val) width.toNat
  | .stringLit value => .str value.toList
  | .const name => interp.constant name
  | .unary op arg => op.denote (arg.denote interp)
  | .binary op left right => op.denote interp (left.denote interp) (right.denote interp)
  | .ite condition onTrue onFalse =>
    if (condition.denote interp).toBool then onTrue.denote interp else onFalse.denote interp
  | .nary op args => op.denote (denoteAll interp args)
  | .app _ _ => .bool false

def denoteAll (interp : Interpretation) : List Term → List Meaning
  | [] => []
  | arg :: rest => arg.denote interp :: denoteAll interp rest
end

end Term

/-! ### Sorts of terms -/

/-- The sorts that are evaluated: bitvectors up to 128 bits, and every other interpreted sort. -/
def SmtSort.IsEvaluated : SmtSort → Prop
  | .bitVec width => width.toNat ≤ 128
  | .uninterpreted _ => False
  | .bool | .int | .string => True

/-- The sort that an operator takes and the sort that it gives. -/
inductive UnaryOp.Maps : UnaryOp → SmtSort → SmtSort → Prop where
  | not : Maps .not .bool .bool
  | bvNeg {width : UInt32} : Maps .bvNeg (.bitVec width) (.bitVec width)
  | bvNot {width : UInt32} : Maps .bvNot (.bitVec width) (.bitVec width)
  | intNeg : Maps .intNeg .int .int
  | strLen : Maps .strLen .string .int

/-- Both operands are of one sort. -/
inductive BinaryOp.Maps : BinaryOp → SmtSort → SmtSort → Prop where
  | implies : Maps .implies .bool .bool
  | iff : Maps .iff .bool .bool
  | eq {sort : SmtSort} : Maps .eq sort .bool
  | bv {op : BvOp} {width : UInt32} : Maps (.bv op) (.bitVec width) (.bitVec width)
  | bvOrder {op : BvOrder} {width : UInt32} : Maps (.bvOrder op) (.bitVec width) .bool
  | int {op : IntOp} : Maps (.int op) .int .int
  | intOrder {op : IntOrder} : Maps (.intOrder op) .int .bool
  | strPrefixOf : Maps .strPrefixOf .string .bool
  | strContains : Maps .strContains .string .bool

/-- All operands are of one sort. -/
inductive NaryOp.Maps : NaryOp → SmtSort → SmtSort → Prop where
  | and : Maps .and .bool .bool
  | or : Maps .or .bool .bool
  | distinct {sort : SmtSort} : Maps .distinct sort .bool
  | strConcat : Maps .strConcat .string .string

/-- The sort of a term, under the sorts that its constants are declared with. There is none for
applications of functions that are not interpreted. -/
inductive Term.HasSort (sorts : String → Option SmtSort) : Term → SmtSort → Prop where
  | boolLit {value : Bool} : HasSort sorts (.boolLit value) .bool
  | intLit {value : Int128} : HasSort sorts (.intLit value) .int
  | bitVecLit {value : Int128} {width : UInt32} : width.toNat ≤ 128 →
      HasSort sorts (.bitVecLit value width) (.bitVec width)
  | stringLit {value : String} : HasSort sorts (.stringLit value) .string
  | const {name : String} {sort : SmtSort} : sorts name = some sort → sort.IsEvaluated →
      HasSort sorts (.const name) sort
  | unary {op : UnaryOp} {arg : Term} {operand result : SmtSort} : op.Maps operand result →
      HasSort sorts arg operand → HasSort sorts (.unary op arg) result
  | binary {op : BinaryOp} {left right : Term} {operand result : SmtSort} :
      op.Maps operand result → HasSort sorts left operand → HasSort sorts right operand →
      HasSort sorts (.binary op left right) result
  | ite {condition onTrue onFalse : Term} {sort : SmtSort} : HasSort sorts condition .bool →
      HasSort sorts onTrue sort → HasSort sorts onFalse sort →
      HasSort sorts (.ite condition onTrue onFalse) sort
  | nary {op : NaryOp} {args : List Term} {operand result : SmtSort} : op.Maps operand result →
      (∀ arg ∈ args, HasSort sorts arg operand) → HasSort sorts (.nary op args) result

/-- Terms are of evaluated sorts only. -/
theorem Term.HasSort.isEvaluated {sorts : String → Option SmtSort} {term : Term} {sort : SmtSort}
    (wellSorted : term.HasSort sorts sort) : sort.IsEvaluated := by
  induction wellSorted with
  | boolLit | intLit | stringLit => trivial
  | bitVecLit narrow => exact narrow
  | const _ evaluated => exact evaluated
  | unary maps _ operand =>
    cases maps with
    | bvNeg | bvNot => exact operand
    | not | intNeg | strLen => trivial
  | binary maps _ _ operand _ =>
    cases maps with
    | bv => exact operand
    | _ => trivial
  | ite _ _ _ _ onTrue _ => exact onTrue
  | nary maps _ _ => cases maps <;> trivial

end SmtSession

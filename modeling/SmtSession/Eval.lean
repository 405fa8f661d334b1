import SmtSession.Term.Basic
import SmtSession.Value

/-! Evaluation of terms under assigned values and declared sorts. A constant without a value has
the default of its sort. Connectives look at no more operands than they need, and integers outside
the range of 128 bits are faults. -/
namespace SmtSession

/-- Values by name, the later of two entries of one name being the one that counts. -/
def lookupLast? {α : Type} (name : String) (entries : List (String × α)) : Option α :=
  entries.reverse.lookup name

structure Assignment where
  values : List (String × Value) := []
  sorts : List (String × SmtSort) := []
  build : Build := .checked
  deriving DecidableEq, Inhabited

/-- Why a term has no value. A stop of the program is none of its errors. -/
inductive EvalFault where
  | undeclared (name : String)
  | uninterpretedSort (name : String) (sort : SmtSort)
  | uninterpretedApplication (name : String)
  | expected (kind : String) (term : Term)
  | widthMismatch (left right : UInt32)
  | sortMismatch (left right : Value)
  | incomparable (text : String)
  | overflow
  | overflowOrDivisionByZero (left right : Term)
  | stopped (op : PlainOp)
  deriving DecidableEq

def EvalFault.message : EvalFault → Checked String
  | .undeclared name => .ok ("undeclared symbol `" ++ name ++ "`")
  | .uninterpretedSort name sort => .ok ("`" ++ name ++ "` has uninterpreted sort " ++ sort.text)
  | .uninterpretedApplication name => .ok ("uninterpreted application `" ++ name ++ "`")
  | .expected kind term => .ok ("expected " ++ kind ++ ": " ++ term.text)
  | .widthMismatch left right =>
    .ok ("bitvector width mismatch: " ++ toString left.toNat ++ " vs " ++ toString right.toNat)
  | .sortMismatch left right =>
    .ok ("sort mismatch comparing " ++ left.text ++ " and " ++ right.text)
  | .incomparable text => .ok ("cannot compare uninterpreted value " ++ text)
  | .overflow => .ok "integer overflow"
  | .overflowOrDivisionByZero left right =>
    .ok ("integer overflow or division by zero in " ++ left.text ++ " and " ++ right.text)
  | .stopped op => .error op

def EvalFault.ofChecked {α : Type} : Checked α → Except EvalFault α
  | .ok a => .ok a
  | .error op => .error (.stopped op)

/-- The bits of the result before the width is applied. Division by zero gives all ones, and the
remainder by zero is the dividend. -/
def BvOp.apply : BvOp → BitVec 128 → BitVec 128 → BitVec 128
  | .add, x, y => x + y
  | .sub, x, y => x - y
  | .mul, x, y => x * y
  | .udiv, x, y => x.smtUDiv y
  | .urem, x, y => x % y
  | .and, x, y => x &&& y
  | .or, x, y => x ||| y
  | .xor, x, y => x ^^^ y

def BvOrder.apply (build : Build) (width : UInt32) :
    BvOrder → BitVec 128 → BitVec 128 → Checked Bool
  | .ult, x, y => .ok (x < y)
  | .ule, x, y => .ok (x ≤ y)
  | .ugt, x, y => .ok (y < x)
  | .uge, x, y => .ok (y ≤ x)
  | .slt, x, y => do
    return (← Width.signed build x width) < (← Width.signed build y width)
  | .sle, x, y => do
    return (← Width.signed build x width) ≤ (← Width.signed build y width)

/-- The exact result, with Euclidean division; none for a zero divisor or outside 128 bits. A
remainder is refused together with its quotient. -/
def IntOp.result? : IntOp → Int128 → Int128 → Option Int128
  | .add, x, y => Int128.ofInt? (x.val + y.val)
  | .sub, x, y => Int128.ofInt? (x.val - y.val)
  | .mul, x, y => Int128.ofInt? (x.val * y.val)
  | .div, x, y => if y.val = 0 then none else Int128.ofInt? (x.val / y.val)
  | .mod, x, y =>
    if y.val = 0 then none
    else (Int128.ofInt? (x.val / y.val)).bind fun _ => Int128.ofInt? (x.val % y.val)

def IntOrder.apply : IntOrder → Int128 → Int128 → Bool
  | .lt, x, y => x.val < y.val
  | .le, x, y => x.val ≤ y.val
  | .gt, x, y => y.val < x.val
  | .ge, x, y => y.val ≤ x.val

namespace Value

def same : Value → Value → Except EvalFault Bool
  | .raw text, _ => .error (.incomparable text)
  | _, .raw text => .error (.incomparable text)
  | .bool x, .bool y => .ok (x == y)
  | .int x, .int y => .ok (x == y)
  | .str x, .str y => .ok (x == y)
  | .bitVec x w, .bitVec y v => if w = v then .ok (x == y) else .error (.widthMismatch w v)
  | left, right => .error (.sortMismatch left right)

/-- Whether a value differs from all of a list, the first equal or incomparable one deciding. -/
def differsFrom (value : Value) : List Value → Except EvalFault Bool
  | [] => .ok true
  | other :: rest =>
    match value.same other with
    | .error fault => .error fault
    | .ok true => .ok false
    | .ok false => value.differsFrom rest

/-- Whether all values differ pairwise, compared in order. -/
def allDiffer : List Value → Except EvalFault Bool
  | [] => .ok true
  | value :: rest =>
    match value.differsFrom rest with
    | .error fault => .error fault
    | .ok false => .ok false
    | .ok true => allDiffer rest

def toBool (term : Term) (value : Value) : Except EvalFault Bool :=
  value.bool?.elim (.error (.expected "Bool" term)) .ok

def toInt (term : Term) (value : Value) : Except EvalFault Int128 :=
  value.int?.elim (.error (.expected "Int" term)) .ok

def toStr (term : Term) (value : Value) : Except EvalFault String :=
  value.str?.elim (.error (.expected "String" term)) .ok

def toBitVec (term : Term) (value : Value) : Except EvalFault (BitVec 128 × UInt32) :=
  value.bitVec?.elim (.error (.expected "bitvector" term)) .ok

end Value

namespace Assignment

/-- The value of a constant: the assigned one, else the default of its declared sort. -/
def lookup (env : Assignment) (name : String) : Except EvalFault Value :=
  match lookupLast? name env.values with
  | some value => .ok value
  | none =>
    match lookupLast? name env.sorts with
    | none => .error (.undeclared name)
    | some sort => (Value.default? sort).elim (.error (.uninterpretedSort name sort)) .ok

end Assignment

namespace UnaryOp

def apply (arg : Term) (value : Value) : UnaryOp → Except EvalFault Value
  | .not => do return .bool (!(← value.toBool arg))
  | .bvNeg => do
    let (bits, width) ← value.toBitVec arg
    return .bitVec (-bits &&& Width.mask width) width
  | .bvNot => do
    let (bits, width) ← value.toBitVec arg
    return .bitVec (~~~bits &&& Width.mask width) width
  | .intNeg => do
    let n ← value.toInt arg
    (Int128.ofInt? (-n.val)).elim (.error .overflow) fun m => .ok (.int m)
  | .strLen => do
    let s ← value.toStr arg
    (Int128.ofInt? s.length).elim (.error .overflow) fun n => .ok (.int n)

end UnaryOp

namespace Term

def requireWidth (w v : UInt32) : Except EvalFault Unit :=
  if w = v then .ok () else .error (.widthMismatch w v)

mutual
def eval (env : Assignment) : Term → Except EvalFault Value
  | .boolLit value => .ok (.bool value)
  | .intLit value => .ok (.int value)
  | .bitVecLit value width => .ok (.bitVec (value.bits &&& Width.mask width) width)
  | .stringLit value => .ok (.str value)
  | .const name => env.lookup name
  | .unary op arg => do op.apply arg (← arg.eval env)
  | .binary op left right => do
    let x ← left.eval env
    match op with
    | .implies =>
      if ← x.toBool left then return .bool (← (← right.eval env).toBool right)
      else return .bool true
    | .iff =>
      let p ← x.toBool left
      return .bool (p == (← (← right.eval env).toBool right))
    | .eq => return .bool (← x.same (← right.eval env))
    | .bv op =>
      let (a, width) ← x.toBitVec left
      let (b, other) ← (← right.eval env).toBitVec right
      requireWidth width other
      return .bitVec (op.apply a b &&& Width.mask width) width
    | .bvOrder op =>
      let (a, width) ← x.toBitVec left
      let (b, other) ← (← right.eval env).toBitVec right
      requireWidth width other
      return .bool (← EvalFault.ofChecked (op.apply env.build width a b))
    | .int op =>
      let a ← x.toInt left
      let b ← (← right.eval env).toInt right
      (op.result? a b).elim (.error (.overflowOrDivisionByZero left right)) fun n => .ok (.int n)
    | .intOrder op =>
      let a ← x.toInt left
      let b ← (← right.eval env).toInt right
      return .bool (op.apply a b)
    | .strPrefixOf =>
      let a ← x.toStr left
      let b ← (← right.eval env).toStr right
      return .bool (b.startsWith a)
    | .strContains =>
      let a ← x.toStr left
      let b ← (← right.eval env).toStr right
      return .bool (a.contains b)
  | .ite condition onTrue onFalse => do
    if ← (← condition.eval env).toBool condition then onTrue.eval env else onFalse.eval env
  | .nary .and args => do return .bool (← allTrue env args)
  | .nary .or args => do return .bool (← anyTrue env args)
  | .nary .distinct args => do return .bool (← Value.allDiffer (← evalAll env args))
  | .nary .strConcat args => do return .str (String.join (← evalTexts env args))
  | .app name _ => .error (.uninterpretedApplication name)

/-- A conjunction stops at the first false operand. -/
def allTrue (env : Assignment) : List Term → Except EvalFault Bool
  | [] => .ok true
  | arg :: rest => do
    if ← (← arg.eval env).toBool arg then allTrue env rest else return false

/-- A disjunction stops at the first true operand. -/
def anyTrue (env : Assignment) : List Term → Except EvalFault Bool
  | [] => .ok false
  | arg :: rest => do
    if ← (← arg.eval env).toBool arg then return true else anyTrue env rest

/-- The values of all operands, from left to right. -/
def evalAll (env : Assignment) : List Term → Except EvalFault (List Value)
  | [] => .ok []
  | arg :: rest => do
    let value ← arg.eval env
    return value :: (← evalAll env rest)

def evalTexts (env : Assignment) : List Term → Except EvalFault (List String)
  | [] => .ok []
  | arg :: rest => do
    let text ← (← arg.eval env).toStr arg
    return text :: (← evalTexts env rest)
end

end Term

end SmtSession

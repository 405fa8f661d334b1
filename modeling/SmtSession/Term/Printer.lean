import SmtSession.Number.PlainOp
import SmtSession.Term.Basic
import SmtSession.Text.Basic

/-! The SMT-LIB text of terms: an operator in front of its operands, with the literal forms of each
sort. An application to no operands is written as what it denotes, where it denotes something. -/
namespace SmtSession

def BvOp.symbol : BvOp → String
  | .add => "bvadd"
  | .sub => "bvsub"
  | .mul => "bvmul"
  | .udiv => "bvudiv"
  | .urem => "bvurem"
  | .and => "bvand"
  | .or => "bvor"
  | .xor => "bvxor"

def BvOrder.symbol : BvOrder → String
  | .ult => "bvult"
  | .ule => "bvule"
  | .ugt => "bvugt"
  | .uge => "bvuge"
  | .slt => "bvslt"
  | .sle => "bvsle"

def IntOp.symbol : IntOp → String
  | .add => "+"
  | .sub => "-"
  | .mul => "*"
  | .div => "div"
  | .mod => "mod"

def IntOrder.symbol : IntOrder → String
  | .lt => "<"
  | .le => "<="
  | .gt => ">"
  | .ge => ">="

def UnaryOp.symbol : UnaryOp → String
  | .not => "not"
  | .bvNeg => "bvneg"
  | .bvNot => "bvnot"
  | .intNeg => "-"
  | .strLen => "str.len"

def BinaryOp.symbol : BinaryOp → String
  | .implies => "=>"
  | .iff | .eq => "="
  | .bv op => op.symbol
  | .bvOrder op => op.symbol
  | .int op => op.symbol
  | .intOrder op => op.symbol
  | .strPrefixOf => "str.prefixof"
  | .strContains => "str.contains"

def NaryOp.symbol : NaryOp → String
  | .and => "and"
  | .or => "or"
  | .distinct => "distinct"
  | .strConcat => "str.++"

namespace Term

def operator? : Term → Option String
  | .boolLit _ | .intLit _ | .bitVecLit .. | .stringLit _ | .const _ => none
  | .unary op _ => some op.symbol
  | .binary op _ _ => some op.symbol
  | .ite .. => some "ite"
  | .nary op _ => some op.symbol
  | .app name _ => some name

def boolChars (value : Bool) : List Char := (if value then "true" else "false").toList

/-- SMT-LIB has no negative numerals: a negative integer is written as a negation. -/
def intChars (value : Int128) : List Char :=
  if value.val < 0 then "(- ".toList ++ Numeral.decimal value.val.natAbs ++ [')']
  else Numeral.decimal value.val.natAbs

def indexedChars (value : Nat) (width : UInt32) : List Char :=
  "(_ bv".toList ++ Numeral.decimal value ++ ' ' :: Numeral.decimal width.toNat ++ [')']

def bitVecChars (value : Int128) (width : UInt32) : List Char :=
  indexedChars (value.bits &&& Width.mask width).toNat width

/-- How an operator without operands is written; only `distinct` keeps its parentheses. -/
def nullaryChars : NaryOp → List Char
  | .and => "true".toList
  | .or => "false".toList
  | .strConcat => "\"\"".toList
  | .distinct => "(distinct)".toList

mutual
def chars : Term → List Char
  | .boolLit value => boolChars value
  | .intLit value => intChars value
  | .bitVecLit value width => bitVecChars value width
  | .stringLit value => StringLiteral.encode value.toList
  | .const name => name.toList
  | .unary op arg => '(' :: op.symbol.toList ++ ' ' :: arg.chars ++ [')']
  | .binary op left right =>
    '(' :: op.symbol.toList ++ ' ' :: left.chars ++ ' ' :: right.chars ++ [')']
  | .ite condition onTrue onFalse =>
    "(ite ".toList ++ condition.chars ++ ' ' :: onTrue.chars ++ ' ' :: onFalse.chars ++ [')']
  | .nary op [] => nullaryChars op
  | .nary op (arg :: rest) => '(' :: op.symbol.toList ++ operands (arg :: rest) ++ [')']
  | .app name [] => name.toList
  | .app name (arg :: rest) => '(' :: name.toList ++ operands (arg :: rest) ++ [')']

def operands : List Term → List Char
  | [] => []
  | arg :: rest => ' ' :: arg.chars ++ operands rest
end

def text (term : Term) : String := String.ofList term.chars

end Term

end SmtSession

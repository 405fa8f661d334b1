import SmtSession.Json.Basic
import SmtSession.SolverError

namespace SmtSession

structure RawOption where
  name : String
  value : Json
  deriving BEq, Inhabited

inductive OptionValue where
  | integer (value : UInt64)
  | symbol (value : String)
  deriving DecidableEq, Repr, Inhabited

structure SolverOption where
  name : String
  value : OptionValue
  deriving DecidableEq, Repr, Inhabited

def isSymbolChar (c : Char) : Bool := c.isAlphanum || "~!@$%^&*_-+=<>.?/".toList.contains c

/-- Simple symbols have one character or more and do not start with a digit. -/
def isSymbol (text : String) : Bool :=
  match text.toList with
  | [] => false
  | c :: rest => !c.isDigit && (c :: rest).all isSymbolChar

def OptionValue.text : OptionValue → String
  | .integer value => toString value.toNat
  | .symbol value => value

def OptionValue.toJson : OptionValue → Json
  | .integer value => .number (.natural value)
  | .symbol value => .string value

namespace SolverOption

def toRaw (option : SolverOption) : RawOption := ⟨option.name, option.value.toJson⟩

/-- The value of an option: a number of 64 bits without sign, or a simple symbol. -/
def value? : Json → Option OptionValue
  | .number (.natural value) => some (.integer value)
  | .string value => if isSymbol value then some (.symbol value) else none
  | _ => none

/-- An option whose name is a simple symbol and whose value is of one of the two forms. -/
def ofRaw (raw : RawOption) : Except SolverError SolverOption :=
  match value? raw.value with
  | some value =>
    if isSymbol raw.name then .ok ⟨raw.name, value⟩
    else .error (.malformedOption raw.name raw.value.text)
  | none => .error (.malformedOption raw.name raw.value.text)

end SolverOption

end SmtSession

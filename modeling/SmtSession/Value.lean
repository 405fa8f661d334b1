import SmtSession.SmtSort
import SmtSession.Term.Printer

namespace SmtSession

inductive Value where
  | bool (value : Bool)
  | int (value : Int128)
  /-- The value is below 2 to the width, and below 2¹²⁸ at every width. -/
  | bitVec (bits : BitVec 128) (width : UInt32)
  | str (value : String)
  /-- A text that is not read as a value. -/
  | raw (text : String)
  deriving DecidableEq, Inhabited

namespace Value

/-- The value of a constant to which a model assigns none. -/
def default? : SmtSort → Option Value
  | .bool => some (.bool false)
  | .int => some (.int (.wrap 0))
  | .bitVec width => some (.bitVec 0 width)
  | .string => some (.str "")
  | .uninterpreted _ => none

def bool? : Value → Option Bool
  | .bool value => some value
  | _ => none

def int? : Value → Option Int128
  | .int value => some value
  | _ => none

def bitVec? : Value → Option (BitVec 128 × UInt32)
  | .bitVec bits width => some (bits, width)
  | _ => none

def str? : Value → Option String
  | .str value => some value
  | _ => none

/-- The literal of a value, and a raw text as it is. -/
def chars : Value → List Char
  | .bool value => Term.boolChars value
  | .int value => Term.intChars value
  | .bitVec bits width => Term.indexedChars bits.toNat width
  | .str value => StringLiteral.encode value.toList
  | .raw text => text.toList

def text (value : Value) : String := String.ofList value.chars

end Value

end SmtSession

namespace SmtSession.Value

/-- A numeral, or the negation of one in parentheses. The numeral may have a sign of its own, so that
the negation may be out of range. -/
def readInt? (build : Build) (cs : List Char) : Checked (Option Int128) :=
  match Text.between? ['('] [')'] cs with
  | some inner =>
    match Text.trim inner with
    | '-' :: rest =>
      match Numeral.int128? (Text.trim rest) with
      | some n => PlainOp.perform build (.negate n.val) (some n.neg)
      | none => .ok none
    | _ => .ok none
  | none => .ok (Numeral.int128? cs)

/-- Hexadecimal digits after `#x`, binary digits after `#b`, both below 2¹²⁸. -/
def readDigits? : List Char → Option Nat
  | '#' :: 'x' :: digits => Numeral.below? 16 Int128.size digits
  | '#' :: 'b' :: digits => Numeral.below? 2 Int128.size digits
  | _ => none

/-- The number and the width of the indexed form; words after these two are not looked at. -/
def readIndexed? (cs : List Char) : Option (Nat × UInt32) :=
  match (Text.between? "(_".toList [')'] cs).map Text.words with
  | some (('b' :: 'v' :: digits) :: width :: _) =>
    match Numeral.below? 10 Int128.size digits, Numeral.uint32? width with
    | some number, some width => some (number, width)
    | _, _ => none
  | _ => none

/-- The number that a text denotes at a width: the indexed form states its width and must agree,
digits are taken at any width. -/
def readBitVec? (width : UInt32) (cs : List Char) : Option Nat :=
  match cs with
  | '#' :: 'x' :: _ | '#' :: 'b' :: _ => readDigits? cs
  | _ => (readIndexed? cs).bind fun (number, stated) =>
      if stated = width then some number else none

/-- The value that a text without blanks at its ends denotes at a sort. -/
def readTrimmed? (build : Build) (cs : List Char) : SmtSort → Checked (Option Value)
  | .bool => .ok <|
    if cs = "true".toList then some (.bool true)
    else if cs = "false".toList then some (.bool false)
    else none
  | .int => (readInt? build cs).map (·.map .int)
  | .bitVec width => .ok <|
    (readBitVec? width cs).map fun number =>
      .bitVec (BitVec.ofNat 128 number &&& Width.mask width) width
  | .string => .ok <| (StringLiteral.decode? cs).map fun value => .str (String.ofList value)
  | .uninterpreted _ => .ok none

def read (build : Build) (text : String) (sort : SmtSort) : Checked Value :=
  let cs := Text.trim text.toList
  (readTrimmed? build cs sort).map (·.getD (.raw (String.ofList cs)))

end SmtSession.Value

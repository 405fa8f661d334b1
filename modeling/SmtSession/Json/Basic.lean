import SmtSession.Number.ShortestDecimal

/-! JSON values. Integers of 64 bits are exact, all other numbers are binary floating point. Objects
keep their fields in the order of the text; the canonical form sorts them and keeps the last of
several fields of one name. -/
namespace SmtSession

inductive JsonNumber where
  | natural (value : UInt64)
  /-- The integer `-1 - below`, down to −2⁶³. -/
  | negative (below : Fin 0x8000000000000000)
  | real (value : Binary64)
  deriving DecidableEq, Repr, Inhabited

inductive Json where
  | null
  | bool (value : Bool)
  | number (value : JsonNumber)
  | string (value : String)
  | array (items : List Json)
  | object (fields : List (String × Json))
  /-- A text of the right form that denotes nothing: a number beyond all numbers, or a string or an
  object's field name with half a surrogate pair. -/
  | meaningless
  deriving BEq, Repr, Inhabited

namespace Json

/-- How the sequence of characters that JSON forbids in strings is written. -/
def escapeControl (c : Char) : List Char :=
  let digits := Numeral.hexadecimal c.toNat
  ['\\', 'u'] ++ List.replicate (4 - digits.length) '0' ++ digits

def escapeChar (c : Char) : List Char :=
  if c = '"' then ['\\', '"']
  else if c = '\\' then ['\\', '\\']
  else if c = '\x08' then ['\\', 'b']
  else if c = '\x0c' then ['\\', 'f']
  else if c = '\n' then ['\\', 'n']
  else if c = '\r' then ['\\', 'r']
  else if c = '\t' then ['\\', 't']
  else if c.toNat < 0x20 then escapeControl c
  else [c]

def stringChars (value : String) : List Char :=
  '"' :: value.toList.flatMap escapeChar ++ ['"']

end Json

def JsonNumber.chars : JsonNumber → List Char
  | .natural value => Numeral.decimal value.toNat
  | .negative below => '-' :: Numeral.decimal (below.val + 1)
  | .real value => value.chars

namespace Json

mutual
/-- The text without blanks. -/
def chars : Json → List Char
  | .null | .meaningless => "null".toList
  | .bool value => (if value then "true" else "false").toList
  | .number value => value.chars
  | .string value => stringChars value
  | .array items => '[' :: itemChars items ++ [']']
  | .object fields => '{' :: fieldChars fields ++ ['}']

def itemChars : List Json → List Char
  | [] => []
  | [item] => item.chars
  | item :: next :: rest => item.chars ++ ',' :: itemChars (next :: rest)

def fieldChars : List (String × Json) → List Char
  | [] => []
  | [(name, value)] => stringChars name ++ ':' :: value.chars
  | (name, value) :: next :: rest =>
    stringChars name ++ ':' :: value.chars ++ ',' :: fieldChars (next :: rest)
end

def text (json : Json) : String := String.ofList json.chars

/-- Put a field in the order of the names, in place of a field of the same name. -/
def insertField (name : String) (value : Json) : List (String × Json) → List (String × Json)
  | [] => [(name, value)]
  | (other, old) :: rest =>
    if name < other then (name, value) :: (other, old) :: rest
    else if name = other then (name, value) :: rest
    else (other, old) :: insertField name value rest

mutual
/-- The value itself, with the fields of every object sorted, the last of a name kept. There is none
for a meaningless part, nor for lists and objects nested more than `levels` deep. -/
def canonical? (levels : Nat) : Json → Option Json
  | .array items => if levels = 0 then none else (canonicalItems? (levels - 1) items).map .array
  | .object fields =>
    if levels = 0 then none else (canonicalFields? (levels - 1) [] fields).map .object
  | .meaningless => none
  | json => some json

def canonicalItems? (levels : Nat) : List Json → Option (List Json)
  | [] => some []
  | item :: rest =>
    (item.canonical? levels).bind fun first => (canonicalItems? levels rest).map (first :: ·)

def canonicalFields? (levels : Nat) (sorted : List (String × Json)) :
    List (String × Json) → Option (List (String × Json))
  | [] => some sorted
  | (name, value) :: rest =>
    (value.canonical? levels).bind fun kept =>
      canonicalFields? levels (insertField name kept sorted) rest
end

/-- The values of all fields of a name, in order. -/
def fieldValues (name : String) (fields : List (String × Json)) : List Json :=
  (fields.filter (·.1 == name)).map (·.2)

end Json

end SmtSession

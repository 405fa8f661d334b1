import SmtSession.Json.Basic

/-! Reading JSON: strictly the grammar of the standard. What is of the right form but denotes
nothing is read as meaningless, so that it can still stand where nobody looks. Numbers take as many
digits as fit into 64 bits and leave the others to the power of ten. -/
namespace SmtSession.Json

def isSpace (c : Char) : Bool := c == ' ' || c == '\n' || c == '\t' || c == '\r'

def skipSpaces (cs : List Char) : List Char := cs.dropWhile isSpace

/-- Add digits to a significand while it stays below 2⁶⁴; the digits left over are counted. -/
def absorb (significand : Nat) : List Char → Nat × Nat × Nat
  | [] => (significand, 0, 0)
  | c :: rest =>
    let grown := 10 * significand + (c.toNat - '0'.toNat)
    if grown < UInt64.size then
      let (final, taken, left) := absorb grown rest
      (final, taken + 1, left)
    else (significand, 0, rest.length + 1)

/-- The number of an integer's digits: exact where 64 bits hold it; a negative zero is no integer. -/
def integerNumber? (negative : Bool) (significand left : Nat) : Option JsonNumber :=
  if left = 0 ∧ !negative then some (.natural (UInt64.ofNat significand))
  else if range : left = 0 ∧ 1 ≤ significand ∧ significand ≤ 0x8000000000000000 then
    some (.negative ⟨significand - 1, by omega⟩)
  else (Binary64.ofDecimal? negative significand left).map .real

/-- The digits of an integer part, which starts with a zero only when it is zero. -/
def integerDigits? (cs : List Char) : Option (List Char × List Char) :=
  match cs.span Char.isDigit with
  | ([], _) => none
  | ('0' :: _ :: _, _) => none
  | split => some split

def fractionDigits? : List Char → Option (List Char × List Char)
  | '.' :: rest =>
    match rest.span Char.isDigit with
    | ([], _) => none
    | split => some split
  | cs => some ([], cs)

/-- The exponent behind its letter, when there is one. -/
def exponentPart? : List Char → Option (Option Int × List Char)
  | c :: rest =>
    if c = 'e' ∨ c = 'E' then
      let (negative, digits) :=
        match rest with
        | '+' :: rest => (false, rest)
        | '-' :: rest => (true, rest)
        | rest => (false, rest)
      let (digits, rest) := digits.span Char.isDigit
      (Numeral.digits? 10 digits).map fun n => (some (if negative then -n else n), rest)
    else some (none, c :: rest)
  | [] => some (none, [])

def readMagnitude? (negative : Bool) (cs : List Char) : Option (Json × List Char) := do
  let (whole, rest) ← integerDigits? cs
  let (fraction, rest) ← fractionDigits? rest
  let (exponent, rest) ← exponentPart? rest
  let (significand, _, left) := absorb 0 whole
  let number? :=
    if fraction.isEmpty ∧ exponent.isNone then integerNumber? negative significand left
    else
      let (significand, taken, _) := absorb significand fraction
      (Binary64.ofDecimal? negative significand ((left : Int) - taken + exponent.getD 0)).map .real
  return (number?.elim .meaningless .number, rest)

def readNumber? : List Char → Option (Json × List Char)
  | '-' :: rest => readMagnitude? true rest
  | cs => readMagnitude? false cs

def escapedUnit? : List Char → Option (Nat × List Char)
  | d₁ :: d₂ :: d₃ :: d₄ :: rest => (Numeral.digits? 16 [d₁, d₂, d₃, d₄]).map (·, rest)
  | _ => none

/-- What an escape with a single letter stands for. -/
def escapedChar? : Char → Option Char
  | '"' => some '"'
  | '\\' => some '\\'
  | '/' => some '/'
  | 'b' => some '\x08'
  | 'f' => some '\x0c'
  | 'n' => some '\n'
  | 'r' => some '\r'
  | 't' => some '\t'
  | _ => none

/-- A string as 16-bit escapes and characters, the number of an escape on the left. -/
def stringParts? : Nat → List Char → Option (List (Nat ⊕ Char) × List Char)
  | 0, _ => none
  | _ + 1, '"' :: rest => some ([], rest)
  | fuel + 1, '\\' :: 'u' :: rest => do
    let (unit, rest) ← escapedUnit? rest
    let (parts, rest) ← stringParts? fuel rest
    return (.inl unit :: parts, rest)
  | fuel + 1, '\\' :: c :: rest => do
    let c ← escapedChar? c
    let (parts, rest) ← stringParts? fuel rest
    return (.inr c :: parts, rest)
  | fuel + 1, c :: rest => do
    if c.toNat < 0x20 ∨ c = '\\' then none
    else
      let (parts, rest) ← stringParts? fuel rest
      return (.inr c :: parts, rest)
  | _ + 1, [] => none

/-- The characters of the parts; escapes of the two halves of a pair make one character, and a half
alone makes none. -/
def joinParts? : List (Nat ⊕ Char) → Option (List Char)
  | [] => some []
  | .inr c :: rest => (joinParts? rest).map (c :: ·)
  | .inl high :: .inl low :: rest =>
    if 0xd800 ≤ high ∧ high < 0xdc00 ∧ 0xdc00 ≤ low ∧ low < 0xe000 then
      let c := Char.ofNat (0x10000 + (high - 0xd800) * 0x400 + (low - 0xdc00))
      (joinParts? rest).map (c :: ·)
    else if high.isValidChar then (joinParts? (.inl low :: rest)).map (Char.ofNat high :: ·)
    else none
  | .inl unit :: rest =>
    if unit.isValidChar then (joinParts? rest).map (Char.ofNat unit :: ·) else none

/-- A string behind its opening quote: its value, none when it denotes nothing. -/
def readString? (cs : List Char) : Option (Option String × List Char) :=
  (stringParts? (cs.length + 1) cs).map fun (parts, rest) =>
    ((joinParts? parts).map String.ofList, rest)

/-- An object's fields make an object when each has a name. -/
def objectOf (fields : List (Option String × Json)) : Json :=
  if fields.all (·.1.isSome) then .object (fields.map fun (name, value) => (name.getD "", value))
  else .meaningless

mutual
/-- A value, after blanks. The fuel bounds the depth and the length together. -/
def readValue? : Nat → List Char → Option (Json × List Char)
  | 0, _ => none
  | fuel + 1, cs =>
    match skipSpaces cs with
    | '{' :: rest =>
      match skipSpaces rest with
      | '}' :: rest => some (.object [], rest)
      | rest => (readFields? fuel rest).map fun (fields, rest) => (objectOf fields, rest)
    | '[' :: rest =>
      match skipSpaces rest with
      | ']' :: rest => some (.array [], rest)
      | rest => (readItems? fuel rest).map fun (items, rest) => (.array items, rest)
    | '"' :: rest =>
      (readString? rest).map fun (value, rest) => (value.elim .meaningless .string, rest)
    | 't' :: 'r' :: 'u' :: 'e' :: rest => some (.bool true, rest)
    | 'f' :: 'a' :: 'l' :: 's' :: 'e' :: rest => some (.bool false, rest)
    | 'n' :: 'u' :: 'l' :: 'l' :: rest => some (.null, rest)
    | rest => readNumber? rest

def readItems? : Nat → List Char → Option (List Json × List Char)
  | 0, _ => none
  | fuel + 1, cs => do
    let (item, rest) ← readValue? fuel cs
    match skipSpaces rest with
    | ',' :: rest =>
      let (items, rest) ← readItems? fuel rest
      return (item :: items, rest)
    | ']' :: rest => return ([item], rest)
    | _ => none

def readFields? : Nat → List Char → Option (List (Option String × Json) × List Char)
  | 0, _ => none
  | fuel + 1, cs =>
    match skipSpaces cs with
    | '"' :: rest => do
      let (name, rest) ← readString? rest
      let rest ← match skipSpaces rest with
        | ':' :: rest => some rest
        | _ => none
      let (value, rest) ← readValue? fuel rest
      match skipSpaces rest with
      | ',' :: rest =>
        let (fields, rest) ← readFields? fuel rest
        return ((name, value) :: fields, rest)
      | '}' :: rest => return ([(name, value)], rest)
      | _ => none
    | _ => none
end

/-- The one value of a text, with nothing but blanks around it. -/
def read? (text : String) : Option Json :=
  let cs := text.toList
  match readValue? (2 * cs.length + 2) cs with
  | some (json, rest) => if (skipSpaces rest).isEmpty then some json else none
  | none => none

end SmtSession.Json

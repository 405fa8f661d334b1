import SmtSession.Number.Integer

namespace SmtSession.Text

/-- Characters with Unicode's White_Space property. -/
def isBlank (c : Char) : Bool :=
  let n := c.toNat
  (0x9 ≤ n && n ≤ 0xd) || n == 0x20 || n == 0x85 || n == 0xa0 || n == 0x1680 ||
    (0x2000 ≤ n && n ≤ 0x200a) || n == 0x2028 || n == 0x2029 || n == 0x202f ||
    n == 0x205f || n == 0x3000

def trimStart (cs : List Char) : List Char := cs.dropWhile isBlank

def trimEnd (cs : List Char) : List Char := (trimStart cs.reverse).reverse

/-- The text without the blanks at its two ends. -/
def trim (cs : List Char) : List Char := trimEnd (trimStart cs)

/-- The maximal runs without a blank, in order. -/
def words (cs : List Char) : List (List Char) :=
  (cs.splitOnP isBlank).filter (fun word => !word.isEmpty)

/-- `inner` when the text is `opening`, `inner`, `closing`. -/
def between? (opening closing : List Char) (cs : List Char) : Option (List Char) :=
  (opening.isPrefixOf? cs).bind closing.isSuffixOf?

end SmtSession.Text

namespace SmtSession

def trimmed (text : String) : String := String.ofList (Text.trim text.toList)

end SmtSession

namespace SmtSession.StringLiteral

/-- An escape of the character's number in hexadecimal. -/
def escape (c : Char) : List Char := ['\\', 'u', '{'] ++ Numeral.hexadecimal c.toNat ++ ['}']

/-- Printable ASCII stands for itself, the backslash excepted, since it begins an escape. -/
def escapeChar (c : Char) : List Char :=
  if c = '\\' then escape c else if ' ' ≤ c ∧ c ≤ '~' then [c] else escape c

def escapeAll (cs : List Char) : List Char := cs.flatMap escapeChar

/-- A quote is written twice. -/
def doubleQuotes (cs : List Char) : List Char :=
  cs.flatMap fun c => if c = '"' then ['"', '"'] else [c]

/-- The literal that denotes the characters. -/
def encode (cs : List Char) : List Char := '"' :: doubleQuotes (escapeAll cs) ++ ['"']

/-- Two quotes in a row are read as one. -/
def mergeQuotes : List Char → List Char
  | '"' :: '"' :: rest => '"' :: mergeQuotes rest
  | c :: rest => c :: mergeQuotes rest
  | [] => []

/-- The character with a hexadecimal number, unless it is a surrogate or out of range. -/
def scalar? (digits : List Char) : Option Char :=
  (Numeral.below? 16 UInt32.size digits).bind fun n =>
    if n.isValidChar then some (Char.ofNat n) else none

/-- The characters that a text with escapes denotes. `braced` holds, last first, the digits of an
escape whose brace is still open. An escape is four digits or any number of them in braces. -/
def unescape (braced : Option (List Char)) : List Char → Option (List Char)
  | [] => if braced.isSome then none else some []
  | c :: rest =>
    match braced with
    | some digits =>
      if c = '}' then
        (scalar? digits.reverse).bind fun d => (unescape none rest).map (d :: ·)
      else unescape (some (c :: digits)) rest
    | none =>
      match c, rest with
      | '\\', 'u' :: '{' :: rest => unescape (some []) rest
      | '\\', 'u' :: d₁ :: d₂ :: d₃ :: d₄ :: rest =>
        (scalar? [d₁, d₂, d₃, d₄]).bind fun d => (unescape none rest).map (d :: ·)
      | '\\', 'u' :: _ => none
      | c, rest => (unescape none rest).map (c :: ·)

/-- The characters that a literal denotes. -/
def decode? (cs : List Char) : Option (List Char) :=
  (Text.between? ['"'] ['"'] cs).bind fun inner => unescape none (mergeQuotes inner)

end SmtSession.StringLiteral

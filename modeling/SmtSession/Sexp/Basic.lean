/-! S-expressions: atoms, which keep their delimiters, and lists; their canonical text; and the
token sequence that a forest of them stands for. -/
namespace SmtSession

inductive Sexp where
  /-- A bare word, a quoted string or a quoted symbol, as it was written. -/
  | atom (text : String)
  | list (items : List Sexp)
  deriving BEq, Repr, Inhabited

namespace Sexp

mutual
private def decideEq : (a b : Sexp) → Decidable (a = b)
  | .atom s, .atom t => decidable_of_iff (s = t) (by simp)
  | .list xs, .list ys =>
    have := decideEqAll xs ys
    decidable_of_iff (xs = ys) (by simp)
  | .atom _, .list _ => isFalse (by simp)
  | .list _, .atom _ => isFalse (by simp)

private def decideEqAll : (as bs : List Sexp) → Decidable (as = bs)
  | [], [] => isTrue rfl
  | [], _ :: _ => isFalse (by simp)
  | _ :: _, [] => isFalse (by simp)
  | x :: xs, y :: ys =>
    have := decideEq x y
    have := decideEqAll xs ys
    decidable_of_iff (x = y ∧ xs = ys) (by simp)
end

instance : DecidableEq Sexp := decideEq

def atom? : Sexp → Option String
  | .atom text => some text
  | .list _ => none

def items? : Sexp → Option (List Sexp)
  | .atom _ => none
  | .list items => some items

/-- The first item of a list, when it is an atom. -/
def head? (s : Sexp) : Option String := s.items?.bind (·.head?) |>.bind atom?

mutual
/-- The text of a tree, followed by `rest`: atoms as they are and lists in parentheses, with one
space between items. -/
def charsThen : Sexp → List Char → List Char
  | .atom text, rest => text.toList ++ rest
  | .list items, rest => '(' :: spacedThen items (')' :: rest)

/-- The items with one space between neighbours, followed by `rest`. -/
def spacedThen : List Sexp → List Char → List Char
  | [], rest => rest
  | [item], rest => item.charsThen rest
  | item :: next :: items, rest => item.charsThen (' ' :: spacedThen (next :: items) rest)
end

def chars (s : Sexp) : List Char := s.charsThen []

def spaced (items : List Sexp) : List Char := spacedThen items []

mutual
theorem charsThen_append : (s : Sexp) → (middle rest : List Char) →
    s.charsThen (middle ++ rest) = s.charsThen middle ++ rest
  | .atom text, middle, rest => by simp [charsThen]
  | .list items, middle, rest => by simp [charsThen, ← spacedThen_append items]

theorem spacedThen_append : (items : List Sexp) → (middle rest : List Char) →
    spacedThen items (middle ++ rest) = spacedThen items middle ++ rest
  | [], middle, rest => rfl
  | [item], middle, rest => by simp [spacedThen, charsThen_append item]
  | item :: next :: items, middle, rest => by
    simp [spacedThen, spacedThen_append (next :: items), ← charsThen_append item]
end

theorem charsThen_eq (s : Sexp) (rest : List Char) : s.charsThen rest = s.chars ++ rest :=
  s.charsThen_append [] rest

theorem spacedThen_eq (items : List Sexp) (rest : List Char) :
    spacedThen items rest = spaced items ++ rest := spacedThen_append items [] rest

@[simp] theorem chars_atom (text : String) : (atom text).chars = text.toList := by
  simp [chars, charsThen]

@[simp] theorem chars_list (items : List Sexp) :
    (list items).chars = '(' :: spaced items ++ [')'] := by
  simp [chars, charsThen, spacedThen_eq]

@[simp] theorem spaced_nil : spaced [] = [] := rfl

@[simp] theorem spaced_singleton (item : Sexp) : spaced [item] = item.chars := rfl

@[simp] theorem spaced_cons_cons (item next : Sexp) (items : List Sexp) :
    spaced (item :: next :: items) = item.chars ++ ' ' :: spaced (next :: items) := by
  simp [spaced, spacedThen, charsThen_eq]

def text (s : Sexp) : String := String.ofList s.chars

instance : ToString Sexp := ⟨text⟩

/-- The three kinds of token of the S-expression syntax. -/
inductive Token where
  | opening
  | closing
  | atom (text : String)
  deriving DecidableEq, Repr

mutual
/-- The tokens of a tree, in order, followed by `rest`. -/
def tokensThen : Sexp → List Token → List Token
  | .atom text, rest => .atom text :: rest
  | .list items, rest => .opening :: flattenThen items (.closing :: rest)

/-- The tokens of a forest, in order, followed by `rest`. -/
def flattenThen : List Sexp → List Token → List Token
  | [], rest => rest
  | item :: items, rest => item.tokensThen (flattenThen items rest)
end

def tokens (s : Sexp) : List Token := s.tokensThen []

def flatten (forest : List Sexp) : List Token := flattenThen forest []

mutual
theorem tokensThen_append : (s : Sexp) → (middle rest : List Token) →
    s.tokensThen (middle ++ rest) = s.tokensThen middle ++ rest
  | .atom _, _, _ => rfl
  | .list items, middle, rest => by simp [tokensThen, ← flattenThen_append items]

theorem flattenThen_append : (forest : List Sexp) → (middle rest : List Token) →
    flattenThen forest (middle ++ rest) = flattenThen forest middle ++ rest
  | [], _, _ => rfl
  | item :: items, middle, rest => by
    simp [flattenThen, flattenThen_append items, tokensThen_append item]
end

theorem tokensThen_eq (s : Sexp) (rest : List Token) : s.tokensThen rest = s.tokens ++ rest :=
  s.tokensThen_append [] rest

theorem flattenThen_eq (forest : List Sexp) (rest : List Token) :
    flattenThen forest rest = flatten forest ++ rest := flattenThen_append forest [] rest

@[simp] theorem tokens_atom (text : String) : (atom text).tokens = [.atom text] := rfl

@[simp] theorem tokens_list (items : List Sexp) :
    (list items).tokens = .opening :: flatten items ++ [.closing] := by
  simp [tokens, tokensThen, flattenThen_eq]

@[simp] theorem flatten_nil : flatten [] = [] := rfl

@[simp] theorem flatten_cons (item : Sexp) (items : List Sexp) :
    flatten (item :: items) = item.tokens ++ flatten items := by
  simp [flatten, flattenThen, tokensThen_eq]

end Sexp

/-- Why a text is not read as S-expressions, or not accepted as assertable text. -/
inductive SexpError where
  | unterminatedString
  | unterminatedSymbol
  | unexpectedClosing
  | unbalanced
  | empty
  | trailing (text : String)
  | notCommand (item : Sexp)
  | notAssertable (head : String)
  deriving DecidableEq, Repr

namespace SexpError

def message : SexpError → String
  | .unterminatedString => "Unterminated string literal"
  | .unterminatedSymbol => "Unterminated quoted symbol"
  | .unexpectedClosing => "Unexpected `)`"
  | .unbalanced => "Unbalanced parentheses"
  | .empty => "Empty S-expression"
  | .trailing text => "Trailing input after S-expression: " ++ text
  | .notCommand item => "Expected a command, got `" ++ item.text ++ "`"
  | .notAssertable head => "`" ++ head ++ "` cannot be asserted as text"

end SexpError

end SmtSession

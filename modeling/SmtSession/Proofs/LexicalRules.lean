import Mathlib.Logic.ExistsUnique
import SmtSession.Proofs.Spelling

namespace SmtSession.Sexp

/-- `Lexeme text token rest`: a blank, a comment or a token stands at the head of the text, and the
rest follows. -/
inductive Lexeme : List Char → Option Token → List Char → Prop where
  | blank {c : Char} {rest : List Char} : Text.isBlank c = true → Lexeme (c :: rest) none rest
  /-- A comment goes to the end of its line. -/
  | comment {note rest : List Char} : '\n' ∉ note → Lexeme (';' :: note ++ '\n' :: rest) none rest
  /-- The last line need not end. -/
  | lastComment {note : List Char} : '\n' ∉ note → Lexeme (';' :: note) none []
  | opening {rest : List Char} : Lexeme ('(' :: rest) (some .opening) rest
  | closing {rest : List Char} : Lexeme (')' :: rest) (some .closing) rest
  /-- A string, in which every quote is written twice. -/
  | string {inner rest : List Char} : rest.head? ≠ some '"' →
      Lexeme ('"' :: StringLiteral.doubleQuotes inner ++ '"' :: rest)
        (some (.atom (String.ofList ('"' :: StringLiteral.doubleQuotes inner ++ ['"'])))) rest
  /-- A symbol between bars. -/
  | symbol {inner rest : List Char} : '|' ∉ inner →
      Lexeme ('|' :: inner ++ '|' :: rest)
        (some (.atom (String.ofList ('|' :: inner ++ ['|'])))) rest
  /-- A bare word goes on up to a character that ends it. -/
  | word {first : Char} {more rest : List Char} : first ≠ '|' →
      (∀ c ∈ first :: more, Lexer.endsWord c = false) →
      (∀ c, rest.head? = some c → Lexer.endsWord c = true) →
      Lexeme (first :: more ++ rest) (some (.atom (String.ofList (first :: more)))) rest

/-- A string or a symbol begins, and does not end. -/
inductive Unclosed : List Char → Prop where
  | string (inner : List Char) : Unclosed ('"' :: StringLiteral.doubleQuotes inner)
  | symbol {inner : List Char} : '|' ∉ inner → Unclosed ('|' :: inner)

/-- `Lexes text tokens rest`: the text falls into the tokens and the rest. -/
inductive Lexes : List Char → List Token → List Char → Prop where
  | refl (text : List Char) : Lexes text [] text
  | step {text middle rest : List Char} {token : Option Token} {tokens : List Token} :
      Lexeme text token middle → Lexes middle tokens rest → Lexes text (token.toList ++ tokens) rest

/-- Every string and every symbol in the text is closed. -/
def LiteralsClosed (text : List Char) : Prop :=
  ∀ tokens rest, Lexes text tokens rest → ¬ Unclosed rest

namespace Lexer

theorem finish_word (read : List Char) (found : List Token) {rest : List Char}
    (ends : ∀ c, rest.head? = some c → endsWord c = true) :
    (run ⟨.word read, found⟩ rest).finish =
      (run { found := .atom (String.ofList read.reverse) :: found } rest).finish := by
  cases rest with
  | nil => rfl
  | cons c rest =>
    have last : feed ⟨.word read, found⟩ c =
        feed { found := .atom (String.ofList read.reverse) :: found } c :=
      if_pos (ends c rfl)
    rw [run_cons, run_cons, last]

theorem finish_stringQuote (read : List Char) (found : List Token) {rest : List Char}
    (ends : rest.head? ≠ some '"') :
    (run ⟨.stringQuote read, found⟩ rest).finish =
      (run { found := .atom (String.ofList read.reverse) :: found } rest).finish := by
  cases rest with
  | nil => rfl
  | cons c rest =>
    have last : feed ⟨.stringQuote read, found⟩ c =
        feed { found := .atom (String.ofList read.reverse) :: found } c :=
      if_neg (fun quote => ends (congrArg some quote))
    rw [run_cons, run_cons, last]

end Lexer

theorem Lexeme.finish_run {text rest : List Char} {token : Option Token}
    (lexeme : Lexeme text token rest) (found : List Token) :
    (Lexer.run { found } text).finish =
      (Lexer.run { found := token.toList ++ found } rest).finish := by
  cases lexeme with
  | @blank c _ white =>
    have seals : Seals [c] [] := .blank white
    exact congrArg (fun lexer => (Lexer.run lexer rest).finish) (seals found)
  | @comment note _ oneLine =>
    have split : ';' :: note ++ '\n' :: rest = (';' :: note ++ ['\n']) ++ rest := by simp
    rw [split, Lexer.run_append, Seals.comment oneLine found]
    rfl
  | @lastComment note oneLine =>
    show (Lexer.run ⟨.comment, found⟩ note).finish = _
    rw [Lexer.run_comment found oneLine]
    rfl
  | opening => rfl
  | closing => rfl
  | @string inner _ ends =>
    have split : '"' :: StringLiteral.doubleQuotes inner ++ '"' :: rest =
        '"' :: (StringLiteral.doubleQuotes inner ++ '"' :: rest) := rfl
    have begun : Lexer.feed { found } '"' = ⟨.string ['"'], found⟩ := rfl
    have ended (read : List Char) :
        Lexer.feed ⟨.string read, found⟩ '"' = ⟨.stringQuote ('"' :: read), found⟩ := rfl
    rw [split, Lexer.run_cons, begun, Lexer.run_append, Lexer.run_string, Lexer.run_cons, ended,
      Lexer.finish_stringQuote _ _ ends]
    simp
  | @symbol inner _ closed =>
    have split : '|' :: inner ++ '|' :: rest = ('|' :: inner ++ ['|']) ++ rest := by simp
    rw [split, Lexer.run_append, Seals.symbol closed found]
    rfl
  | @word first more _ noBar goesOn ends =>
    rw [Lexer.run_append, Lexer.run_wholeWord found noBar goesOn, Lexer.finish_word _ _ ends]
    simp

theorem Lexes.finish_run {text rest : List Char} {tokens : List Token}
    (lexes : Lexes text tokens rest) (found : List Token) :
    (Lexer.run { found } text).finish =
      (Lexer.run { found := tokens.reverse ++ found } rest).finish := by
  induction lexes generalizing found with
  | refl => rfl
  | @step text middle rest token tokens lexeme _ ih =>
    have single : token.toList.reverse = token.toList := by cases token <;> rfl
    rw [lexeme.finish_run, ih, List.reverse_append, List.append_assoc, single]

/-- The lexer refuses a text that ends inside a literal. -/
theorem Unclosed.finish_run {text : List Char} (unclosed : Unclosed text) (found : List Token) :
    ∃ err, (Lexer.run { found } text).finish = .error err := by
  cases unclosed with
  | string inner =>
    refine ⟨.unterminatedString, ?_⟩
    show (Lexer.run ⟨.string ['"'], found⟩ (StringLiteral.doubleQuotes inner)).finish = _
    rw [Lexer.run_string]
    rfl
  | @symbol inner open' =>
    refine ⟨.unterminatedSymbol, ?_⟩
    show (Lexer.run ⟨.symbol ['|'], found⟩ inner).finish = _
    rw [Lexer.run_symbol _ _ open']
    rfl

theorem Lexeme.shorter {text rest : List Char} {token : Option Token}
    (lexeme : Lexeme text token rest) : rest.length < text.length := by
  cases lexeme <;> simp <;> omega

/-- After a quote either all quotes are written twice, or there is a first that is not. -/
theorem split_string (text : List Char) :
    (∃ inner, text = StringLiteral.doubleQuotes inner) ∨
      ∃ inner rest, text = StringLiteral.doubleQuotes inner ++ '"' :: rest ∧
        rest.head? ≠ some '"' := by
  have quoted (inner : List Char) : StringLiteral.doubleQuotes ('"' :: inner) =
      '"' :: '"' :: StringLiteral.doubleQuotes inner := rfl
  have plain {c : Char} (other : c ≠ '"') (inner : List Char) :
      StringLiteral.doubleQuotes (c :: inner) = c :: StringLiteral.doubleQuotes inner := by
    simp [StringLiteral.doubleQuotes, other]
  fun_induction StringLiteral.mergeQuotes text with
  | case1 rest ih =>
    rcases ih with ⟨inner, rfl⟩ | ⟨inner, after, rfl, ends⟩
    · exact .inl ⟨'"' :: inner, rfl⟩
    · exact .inr ⟨'"' :: inner, after, rfl, ends⟩
  | case2 c rest single ih =>
    by_cases quote : c = '"'
    · subst quote
      refine .inr ⟨[], rest, rfl, fun another => ?_⟩
      obtain ⟨after, rfl⟩ : ∃ after, rest = '"' :: after := List.head?_eq_some_iff.mp another
      exact single after rfl rfl
    · rcases ih with ⟨inner, rfl⟩ | ⟨inner, after, rfl, ends⟩
      · exact .inl ⟨c :: inner, (plain quote inner).symm⟩
      · exact .inr ⟨c :: inner, after, by rw [plain quote]; rfl, ends⟩
  | case3 => exact .inl ⟨[], rfl⟩

/-- A text falls into what stands before the first end of a word, and the rest. -/
theorem split_word (text : List Char) : ∃ more rest, text = more ++ rest ∧
    (∀ c ∈ more, Lexer.endsWord c = false) ∧
      ∀ c, rest.head? = some c → Lexer.endsWord c = true := by
  refine ⟨text.takeWhile (!Lexer.endsWord ·), text.dropWhile (!Lexer.endsWord ·),
    (List.takeWhile_append_dropWhile ..).symm, ?_, ?_⟩
  · intro c member
    have goesOn := List.all_eq_true.mp (text.all_takeWhile (p := (!Lexer.endsWord ·))) c member
    simpa using goesOn
  · intro c first
    have ends := List.head?_dropWhile_not (!Lexer.endsWord ·) text
    rw [first] at ends
    simpa using ends

/-- A text goes on by the rules, unless it ends inside a literal. -/
theorem lexeme_or_unclosed (c : Char) (text : List Char) :
    (∃ token rest, Lexeme (c :: text) token rest) ∨ Unclosed (c :: text) := by
  by_cases opening : c = '('
  · subst opening
    exact .inl ⟨_, _, .opening⟩
  by_cases closing : c = ')'
  · subst closing
    exact .inl ⟨_, _, .closing⟩
  by_cases semicolon : c = ';'
  · subst semicolon
    by_cases lineEnd : '\n' ∈ text
    · obtain ⟨note, rest, rfl, oneLine⟩ := List.eq_append_cons_of_mem lineEnd
      exact .inl ⟨_, _, .comment oneLine⟩
    · exact .inl ⟨_, _, .lastComment lineEnd⟩
  by_cases quote : c = '"'
  · subst quote
    rcases split_string text with ⟨inner, rfl⟩ | ⟨inner, rest, rfl, ends⟩
    · exact .inr (.string inner)
    · exact .inl ⟨_, _, .string ends⟩
  by_cases bar : c = '|'
  · subst bar
    by_cases closed : '|' ∈ text
    · obtain ⟨inner, rest, rfl, first⟩ := List.eq_append_cons_of_mem closed
      exact .inl ⟨_, _, .symbol first⟩
    · exact .inr (.symbol closed)
  by_cases white : Text.isBlank c = true
  · exact .inl ⟨_, _, .blank white⟩
  obtain ⟨more, rest, rfl, goesOn, ends⟩ := split_word text
  have inWord : Lexer.endsWord c = false := by
    simp [Lexer.endsWord, opening, closing, semicolon, quote, white]
  exact .inl ⟨_, _, .word bar (List.forall_mem_cons.mpr ⟨inWord, goesOn⟩) ends⟩

/-- A text whose literals are closed falls into tokens. -/
theorem LiteralsClosed.lexes {text : List Char} (closed : LiteralsClosed text) :
    ∃ tokens, Lexes text tokens [] := by
  induction length : text.length using Nat.strongRecOn generalizing text with
  | _ n ih =>
    cases text with
    | nil => exact ⟨[], .refl []⟩
    | cons c text =>
      rcases lexeme_or_unclosed c text with ⟨token, rest, lexeme⟩ | unclosed
      · have later : LiteralsClosed rest := fun tokens after lexes =>
          closed _ after (.step lexeme lexes)
        obtain ⟨tokens, lexes⟩ := ih _ (length ▸ lexeme.shorter) later rfl
        exact ⟨_, .step lexeme lexes⟩
      · exact absurd unclosed (closed [] _ (.refl _))

theorem tokenize_of_lexes {text : List Char} {tokens : List Token} (lexes : Lexes text tokens []) :
    tokenize text = .ok tokens := by
  rw [tokenize, lexes.finish_run, List.append_nil]
  exact congrArg Except.ok tokens.reverse_reverse

/-- What the lexer accepts has no open literal: it would have been refused there. -/
theorem literalsClosed_of_tokenize {text : List Char} {tokens : List Token}
    (read : tokenize text = .ok tokens) : LiteralsClosed text := by
  intro before rest begun unclosed
  obtain ⟨err, refused⟩ := unclosed.finish_run (before.reverse ++ [])
  rw [tokenize, begun.finish_run, refused] at read
  cases read

/-- The lexer gives the tokens that a text falls into. -/
theorem tokenize_eq_ok_iff_lexes {text : List Char} {tokens : List Token} :
    tokenize text = .ok tokens ↔ Lexes text tokens [] := by
  constructor
  · intro read
    obtain ⟨found, lexes⟩ := (literalsClosed_of_tokenize read).lexes
    have same := tokenize_of_lexes lexes
    rw [read] at same
    cases same
    exact lexes
  · exact tokenize_of_lexes

/-- A text whose literals are closed falls into tokens in one way. -/
theorem literalsClosed_iff {text : List Char} :
    LiteralsClosed text ↔ ∃! tokens, Lexes text tokens [] := by
  constructor
  · intro closed
    obtain ⟨tokens, lexes⟩ := closed.lexes
    refine ⟨tokens, lexes, fun other another => ?_⟩
    have same := tokenize_of_lexes lexes
    rw [tokenize_of_lexes another] at same
    exact Except.ok.inj same
  · rintro ⟨tokens, lexes, _⟩
    exact literalsClosed_of_tokenize (tokenize_of_lexes lexes)

end SmtSession.Sexp

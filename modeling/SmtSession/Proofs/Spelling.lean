import SmtSession.Proofs.Trimming
import SmtSession.Sexp.Reader
import SmtSession.Text.Basic

/-! Spelling: which tokens a piece of text stands for, wherever it is written. What was found before
has no influence, and of what follows only the first character counts. -/
namespace SmtSession.Sexp

namespace Lexer

/-- The lexer with tokens found before all of its own. -/
def above (base : List Token) (lexer : Lexer) : Lexer := { lexer with found := lexer.found ++ base }

theorem above_feedGap (base : List Token) (lexer : Lexer) (c : Char) :
    (lexer.above base).feedGap c = (lexer.feedGap c).above base := by
  unfold feedGap
  repeat' split
  all_goals rfl

theorem above_feed (base : List Token) (lexer : Lexer) (c : Char) :
    (lexer.above base).feed c = (lexer.feed c).above base := by
  obtain ⟨mode, found⟩ := lexer
  cases mode with
  | gap => exact above_feedGap base ⟨.gap, found⟩ c
  | comment =>
    simp only [above, feed]
    split <;> rfl
  | word read =>
    simp only [above, feed]
    split
    · exact above_feedGap base (emitAtom read ⟨.word read, found⟩) c
    · rfl
  | string read => rfl
  | stringQuote read =>
    simp only [above, feed]
    split
    · rfl
    · exact above_feedGap base (emitAtom read ⟨.stringQuote read, found⟩) c
  | symbol read =>
    simp only [above, feed]
    split <;> rfl

theorem above_run (base : List Token) (lexer : Lexer) (cs : List Char) :
    (lexer.above base).run cs = (lexer.run cs).above base := by
  induction cs generalizing lexer with
  | nil => rfl
  | cons c rest ih =>
    show ((lexer.above base).feed c).run rest = ((lexer.feed c).run rest).above base
    rw [above_feed, ih]

@[simp] theorem run_nil (lexer : Lexer) : lexer.run [] = lexer := rfl

@[simp] theorem run_cons (lexer : Lexer) (c : Char) (rest : List Char) :
    lexer.run (c :: rest) = (lexer.feed c).run rest := rfl

/-- A text begun between tokens finds the same tokens whatever was found before. -/
theorem run_found (found : List Token) (cs : List Char) :
    run { found } cs = (run {} cs).above found := above_run found {} cs

theorem found_suffix (lexer : Lexer) (cs : List Char) :
    lexer.found <:+ (lexer.run cs).found := by
  have split : lexer = ({ lexer with found := [] } : Lexer).above lexer.found := rfl
  rw [split, above_run]
  exact ⟨_, rfl⟩

theorem run_comment (found : List Token) {note : List Char} (oneLine : '\n' ∉ note) :
    run ⟨.comment, found⟩ note = ⟨.comment, found⟩ := by
  induction note with
  | nil => rfl
  | cons c rest ih =>
    have next : feed ⟨.comment, found⟩ c = ⟨.comment, found⟩ :=
      if_neg (fun same => oneLine (by simp [same]))
    rw [run_cons, next]
    exact ih (fun member => oneLine (List.mem_cons_of_mem c member))

theorem run_symbol (read : List Char) (found : List Token) {inner : List Char}
    (closed : '|' ∉ inner) :
    run ⟨.symbol read, found⟩ inner = ⟨.symbol (inner.reverse ++ read), found⟩ := by
  induction inner generalizing read with
  | nil => rfl
  | cons c rest ih =>
    have next : feed ⟨.symbol read, found⟩ c = ⟨.symbol (c :: read), found⟩ :=
      if_neg (fun same => closed (by simp [same]))
    rw [run_cons, next, ih _ (fun member => closed (List.mem_cons_of_mem c member))]
    simp

theorem run_word (read : List Char) (found : List Token) {rest : List Char}
    (goesOn : ∀ c ∈ rest, endsWord c = false) :
    run ⟨.word read, found⟩ rest = ⟨.word (rest.reverse ++ read), found⟩ := by
  induction rest generalizing read with
  | nil => rfl
  | cons c rest ih =>
    have next : feed ⟨.word read, found⟩ c = ⟨.word (c :: read), found⟩ := by
      simp [feed, goesOn c List.mem_cons_self]
    rw [run_cons, next, ih _ (fun d member => goesOn d (List.mem_cons_of_mem c member))]
    simp

theorem run_wholeWord (found : List Token) {first : Char} {rest : List Char} (noBar : first ≠ '|')
    (goesOn : ∀ c ∈ first :: rest, endsWord c = false) :
    run { found } (first :: rest) = ⟨.word (rest.reverse ++ [first]), found⟩ := by
  have inWord := goesOn first List.mem_cons_self
  simp only [endsWord, Bool.or_eq_false_iff, beq_eq_false_iff_ne] at inWord
  obtain ⟨⟨⟨⟨opening, closing⟩, quote⟩, semicolon⟩, dark⟩ := inWord
  have begun : feed { found } first = ⟨.word [first], found⟩ := by
    simp [feed, feedGap, opening, closing, semicolon, quote, noBar, dark]
  rw [run_cons, begun, run_word _ _ (fun c member => goesOn c (List.mem_cons_of_mem first member))]

theorem run_string (read : List Char) (found : List Token) (inner : List Char) :
    run ⟨.string read, found⟩ (StringLiteral.doubleQuotes inner) =
      ⟨.string ((StringLiteral.doubleQuotes inner).reverse ++ read), found⟩ := by
  induction inner generalizing read with
  | nil => rfl
  | cons c rest ih =>
    have unfolded : StringLiteral.doubleQuotes (c :: rest) =
        (if c = '"' then ['"', '"'] else [c]) ++ StringLiteral.doubleQuotes rest := rfl
    rw [unfolded, run_append]
    by_cases quote : c = '"'
    · rw [if_pos quote]
      have next : run ⟨.string read, found⟩ ['"', '"'] = ⟨.string ('"' :: '"' :: read), found⟩ := rfl
      rw [next, ih]
      simp
    · rw [if_neg quote]
      have next : run ⟨.string read, found⟩ [c] = ⟨.string (c :: read), found⟩ := by
        simp [feed, quote]
      rw [next, ih]
      simp

/-- A line end completes an atom outside quotes and ends a comment, as the end of the text does. -/
theorem finish_eq_ok_iff {lexer : Lexer} {tokens : List Token} :
    lexer.finish = .ok tokens ↔ lexer.feed '\n' = { found := tokens.reverse } := by
  have same (found : List Token) :
      (Except.ok found.reverse : Except SexpError (List Token)) = .ok tokens ↔
        ({ found } : Lexer) = { found := tokens.reverse } := by
    simp [List.reverse_eq_iff]
  obtain ⟨mode, found⟩ := lexer
  cases mode with
  | gap | comment => exact same found
  | word read | stringQuote read => exact same (.atom (String.ofList read.reverse) :: found)
  | string read | symbol read =>
    constructor
    · intro read; cases read
    · intro ended; cases ended

end Lexer

theorem tokenize_eq_ok_iff {cs : List Char} {tokens : List Token} :
    tokenize cs = .ok tokens ↔ Lexer.run {} (cs ++ ['\n']) = { found := tokens.reverse } := by
  rw [tokenize, Lexer.finish_eq_ok_iff, Lexer.run_append]
  rfl

theorem tokenize_line_append {line : List Char} {tokens : List Token} (rest : List Char)
    (first : tokenize line = .ok tokens) :
    tokenize (line ++ '\n' :: rest) = (tokenize rest).map (tokens ++ ·) := by
  have ended := tokenize_eq_ok_iff.mp first
  have split : line ++ '\n' :: rest = (line ++ ['\n']) ++ rest := by simp
  rw [tokenize, split, Lexer.run_append, ended, Lexer.run_found, tokenize]
  obtain ⟨mode, found⟩ := Lexer.run {} rest
  cases mode <;> simp [Lexer.above, Lexer.finish, Lexer.emitAtom, Lexer.emit, Except.map]

/-- Characters after which every atom outside quotes is complete. -/
def separates (c : Char) : Bool := Lexer.endsWord c && c != '"'

/-- What a text does to a lexer that is between tokens, as far as a separating character after the
text can tell: it finds the tokens, in order. -/
def Spells (cs : List Char) (tokens : List Token) : Prop :=
  ∀ (found : List Token) (c : Char), separates c →
    (Lexer.run { found } cs).feed c = Lexer.feed { found := tokens.reverse ++ found } c

/-- The text finds the tokens, and they are complete whatever follows it. -/
def Seals (cs : List Char) (tokens : List Token) : Prop :=
  ∀ found : List Token, Lexer.run { found } cs = { found := tokens.reverse ++ found }

theorem Seals.spells {cs : List Char} {tokens : List Token} (seals : Seals cs tokens) :
    Spells cs tokens := by
  intro found c _
  rw [seals found]

theorem Spells.tokenize {cs : List Char} {tokens : List Token} (spells : Spells cs tokens) :
    tokenize cs = .ok tokens := by
  rw [tokenize_eq_ok_iff, Lexer.run_append]
  have ended := spells [] '\n' rfl
  rw [List.append_nil] at ended
  exact ended

namespace Seals

variable {cs ds : List Char} {tokens more : List Token}

theorem nil : Seals [] [] := fun _ => rfl

theorem opening : Seals ['('] [.opening] := fun _ => rfl

theorem closing : Seals [')'] [.closing] := fun _ => rfl

theorem append (first : Seals cs tokens) (second : Seals ds more) :
    Seals (cs ++ ds) (tokens ++ more) := by
  intro found
  rw [Lexer.run_append, first found, second]
  simp

theorem spells_append (first : Seals cs tokens) (second : Spells ds more) :
    Spells (cs ++ ds) (tokens ++ more) := by
  intro found c sep
  rw [Lexer.run_append, first found, second _ c sep]
  simp

theorem blank {c : Char} (white : Text.isBlank c = true) : Seals [c] [] := by
  have other (d : Char) (dark : Text.isBlank d = false) : c ≠ d := by
    rintro rfl
    rw [white] at dark
    cases dark
  intro found
  have h₁ := other '(' rfl
  have h₂ := other ')' rfl
  have h₃ := other ';' rfl
  have h₄ := other '"' rfl
  have h₅ := other '|' rfl
  simp [Lexer.feed, Lexer.feedGap, h₁, h₂, h₃, h₄, h₅, white]

theorem blanks {cs : List Char} (blank : Text.IsBlankRun cs) : Seals cs [] := by
  induction cs with
  | nil => exact Seals.nil
  | cons c rest ih =>
    have first : Seals [c] [] := Seals.blank (blank c List.mem_cons_self)
    exact first.append (ih (fun d member => blank d (List.mem_cons_of_mem c member)))

theorem comment {note : List Char} (oneLine : '\n' ∉ note) :
    Seals (';' :: note ++ ['\n']) [] := by
  intro found
  show Lexer.run (Lexer.run ⟨.gap, found⟩ [';']) (note ++ ['\n']) = _
  rw [Lexer.run_append]
  exact congrArg (Lexer.feed · '\n') (Lexer.run_comment found oneLine)

/-- Bars around anything without a bar. -/
theorem symbol {inner : List Char} (closed : '|' ∉ inner) :
    Seals ('|' :: inner ++ ['|']) [.atom (String.ofList ('|' :: inner ++ ['|']))] := by
  intro found
  show Lexer.run ⟨.symbol ['|'], found⟩ (inner ++ ['|']) = _
  rw [Lexer.run_append, Lexer.run_symbol _ _ closed]
  simp [Lexer.feed, Lexer.emitAtom, Lexer.emit]

end Seals

namespace Spells

variable {cs ds : List Char} {tokens more : List Token}

theorem nil : Spells [] [] := Seals.nil.spells

theorem append {c : Char} (first : Spells cs tokens) (second : Spells (c :: ds) more)
    (sep : separates c) : Spells (cs ++ c :: ds) (tokens ++ more) := by
  intro found next sepNext
  rw [Lexer.run_append, Lexer.run_cons, first found c sep, ← Lexer.run_cons, second _ next sepNext]
  simp

theorem seals_append {c : Char} (first : Spells cs tokens) (second : Seals (c :: ds) more)
    (sep : separates c) : Seals (cs ++ c :: ds) (tokens ++ more) := by
  intro found
  rw [Lexer.run_append, Lexer.run_cons, first found c sep, ← Lexer.run_cons, second]
  simp

/-- A bare word begins with no bar. -/
theorem word {first : Char} {rest : List Char} (noBar : first ≠ '|')
    (goesOn : ∀ c ∈ first :: rest, Lexer.endsWord c = false) :
    Spells (first :: rest) [.atom (String.ofList (first :: rest))] := by
  intro found c sep
  have ends : Lexer.endsWord c = true := by
    rw [separates, Bool.and_eq_true] at sep
    exact sep.1
  rw [Lexer.run_wholeWord found noBar goesOn]
  simp [Lexer.feed, ends, Lexer.emitAtom, Lexer.emit]

/-- Quotes around anything whose quotes are written twice. -/
theorem string (inner : List Char) :
    Spells ('"' :: StringLiteral.doubleQuotes inner ++ ['"'])
      [.atom (String.ofList ('"' :: StringLiteral.doubleQuotes inner ++ ['"']))] := by
  intro found c sep
  have noQuote : c ≠ '"' := by
    simp only [separates, Bool.and_eq_true, bne_iff_ne] at sep
    exact sep.2
  show (Lexer.run ⟨.string ['"'], found⟩ (StringLiteral.doubleQuotes inner ++ ['"'])).feed c = _
  rw [Lexer.run_append, Lexer.run_string]
  simp [Lexer.feed, Lexer.emitAtom, Lexer.emit, noQuote]

end Spells

/-- A bare word, in which no quoted symbol seems to begin. -/
def IsBareWord (cs : List Char) : Prop := cs ≠ [] ∧ ∀ c ∈ cs, Lexer.endsWord c = false ∧ c ≠ '|'

instance (cs : List Char) : Decidable (IsBareWord cs) :=
  @instDecidableAnd _ _ inferInstance (List.decidableBAll _ cs)

theorem IsBareWord.spells {cs : List Char} (bare : IsBareWord cs) :
    Spells cs [.atom (String.ofList cs)] := by
  obtain ⟨nonempty, plain⟩ := bare
  cases cs with
  | nil => exact absurd rfl nonempty
  | cons first rest =>
    exact Spells.word (plain first List.mem_cons_self).2 (fun c member => (plain c member).1)

/-- A text that does not end in a comment spells its tokens. -/
theorem spells_of_finish {cs : List Char} {tokens : List Token}
    (read : (Lexer.run {} cs).finish = .ok tokens) (code : (Lexer.run {} cs).mode ≠ .comment) :
    Spells cs tokens := by
  intro found c sep
  simp only [separates, Bool.and_eq_true, bne_iff_ne] at sep
  obtain ⟨ends, noQuote⟩ := sep
  rw [Lexer.run_found]
  generalize Lexer.run {} cs = lexer at read code
  obtain ⟨mode, own⟩ := lexer
  cases mode with
  | gap =>
    cases read
    simp [Lexer.above]
  | comment => exact absurd rfl code
  | word read' =>
    cases read
    simp [Lexer.above, Lexer.feed, ends, Lexer.emitAtom, Lexer.emit]
  | stringQuote read' =>
    cases read
    simp [Lexer.above, Lexer.feed, noQuote, Lexer.emitAtom, Lexer.emit]
  | string read' | symbol read' => cases read

def Token.size : Token → Nat
  | .opening | .closing => 1
  | .atom text => text.length

/-- The number of characters that an unfinished token holds; a comment holds its semicolon. -/
def LexMode.size : LexMode → Nat
  | .gap => 0
  | .comment => 1
  | .word read | .string read | .stringQuote read | .symbol read => read.length

namespace Lexer

def size (lexer : Lexer) : Nat :=
  lexer.mode.size + lexer.found.foldr (fun token rest => token.size + rest) 0

theorem size_feedGap_le (lexer : Lexer) (c : Char) (between : lexer.mode.size = 0) :
    (lexer.feedGap c).size ≤ lexer.size + 1 := by
  simp only [feedGap, size, between]
  repeat' split
  all_goals simp [emit, LexMode.size, Token.size]
  all_goals omega

theorem size_emitAtom (read : List Char) (lexer : Lexer) (unfinished : lexer.mode.size = read.length) :
    (lexer.emitAtom read).size = lexer.size := by
  rw [size, size, unfinished]
  simp [emitAtom, emit, LexMode.size, Token.size]

/-- No character is held twice. -/
theorem size_feed_le (lexer : Lexer) (c : Char) : (lexer.feed c).size ≤ lexer.size + 1 := by
  obtain ⟨mode, found⟩ := lexer
  cases mode with
  | gap => exact size_feedGap_le ⟨.gap, found⟩ c rfl
  | comment =>
    simp only [feed]
    split <;> simp only [size, LexMode.size] <;> omega
  | word read =>
    have whole := size_emitAtom read ⟨.word read, found⟩ rfl
    simp only [feed]
    split
    · rw [← whole]
      exact size_feedGap_le _ c rfl
    · simp only [size, LexMode.size, List.length_cons]
      omega
  | string read =>
    simp only [feed]
    split <;> simp only [size, LexMode.size, List.length_cons] <;> omega
  | stringQuote read =>
    have whole := size_emitAtom read ⟨.stringQuote read, found⟩ rfl
    simp only [feed]
    split
    · simp only [size, LexMode.size, List.length_cons]
      omega
    · rw [← whole]
      exact size_feedGap_le _ c rfl
  | symbol read =>
    simp only [feed]
    split
    · have whole := size_emitAtom (c :: read) ⟨.symbol (c :: read), found⟩ rfl
      have same : (emitAtom (c :: read) ⟨.symbol read, found⟩).size =
          (emitAtom (c :: read) ⟨.symbol (c :: read), found⟩).size := rfl
      rw [same, whole]
      simp only [size, LexMode.size, List.length_cons]
      omega
    · simp only [size, LexMode.size, List.length_cons]
      omega

theorem size_run_le (lexer : Lexer) (cs : List Char) :
    (lexer.run cs).size ≤ lexer.size + cs.length := by
  induction cs generalizing lexer with
  | nil => exact Nat.le_refl _
  | cons c rest ih =>
    have now := size_feed_le lexer c
    have later := ih (lexer.feed c)
    rw [run_cons, List.length_cons]
    omega

end Lexer

/-- A name that is read as a single atom, whole. -/
def IsAtom (name : String) : Prop := tokenize name.toList = .ok [.atom name]

/-- A single atom does not end in a comment, since its characters are all held in the token. -/
theorem isAtom_iff_spells {name : String} : IsAtom name ↔ Spells name.toList [.atom name] := by
  constructor
  · intro single
    refine spells_of_finish single ?_
    intro inComment
    have held := Lexer.size_run_le {} name.toList
    unfold IsAtom tokenize at single
    generalize Lexer.run {} name.toList = lexer at single inComment held
    obtain ⟨mode, found⟩ := lexer
    cases inComment
    have alone : found = [.atom name] := by
      have reversed : found.reverse = [.atom name] := Except.ok.inj single
      simpa using congrArg List.reverse reversed
    subst alone
    simp only [Lexer.size, LexMode.size, List.foldr, Token.size, String.length_toList] at held
    omega
  · intro spells
    exact spells.tokenize

end SmtSession.Sexp

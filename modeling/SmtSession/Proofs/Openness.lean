import SmtSession.Proofs.Layout
import SmtSession.Reply

/-! Openness: following the lines of an answer and reading it with the lexer agree on what is still
open, as long as no bare word holds an odd number of bars: the lines are followed as if every bar
outside strings began or ended a symbol. -/
namespace SmtSession

theorem prefix_append_cases {α : Type} {front first second : List α}
    (part : front <+: first ++ second) :
    front <+: first ∨ ∃ rest, front = first ++ rest ∧ rest <+: second := by
  obtain ⟨back, split⟩ := part
  rcases List.append_eq_append_iff.mp split with ⟨rest, inside, _⟩ | ⟨rest, beyond, later⟩
  · exact .inl ⟨rest, inside.symm⟩
  · exact .inr ⟨rest, beyond, back, later.symm⟩

namespace Sexp

/-- Lists opened and not closed, less than zero when too many are closed. -/
def balance : List Token → Int
  | [] => 0
  | .opening :: rest => balance rest + 1
  | .closing :: rest => balance rest - 1
  | .atom _ :: rest => balance rest

@[simp] theorem balance_append (front back : List Token) :
    balance (front ++ back) = balance front + balance back := by
  induction front with
  | nil => simp [balance]
  | cons token rest ih =>
    cases token <;> simp only [List.cons_append, balance, ih] <;> omega

@[simp] theorem balance_reverse (tokens : List Token) :
    balance tokens.reverse = balance tokens := by
  induction tokens with
  | nil => rfl
  | cons token rest ih =>
    rw [List.reverse_cons, balance_append, ih]
    cases token <;> simp only [balance] <;> omega

/-- What is opened in these tokens is closed in them, and nothing else is. -/
structure Balanced (tokens : List Token) : Prop where
  whole : balance tokens = 0
  front : ∀ front, front <+: tokens → 0 ≤ balance front

namespace Balanced

variable {tokens more : List Token}

theorem nil : Balanced [] where
  whole := rfl
  front := by
    intro front part
    rw [List.prefix_nil.mp part]
    exact Int.le_refl 0

theorem append (first : Balanced tokens) (second : Balanced more) : Balanced (tokens ++ more) where
  whole := by rw [balance_append, first.whole, second.whole, Int.add_zero]
  front := by
    intro front part
    rcases prefix_append_cases part with inside | ⟨rest, rfl, later⟩
    · exact first.front front inside
    · have := second.front rest later
      rw [balance_append, first.whole]
      omega

theorem atom (text : String) : Balanced [.atom text] where
  whole := rfl
  front := by
    intro front part
    rcases List.prefix_cons_iff.mp part with rfl | ⟨rest, rfl, later⟩
    · exact Int.le_refl 0
    · rw [List.prefix_nil.mp later]
      exact Int.le_refl 0

theorem list (inside : Balanced tokens) : Balanced (.opening :: tokens ++ [.closing]) where
  whole := by
    have := inside.whole
    simp [balance, this]
  front := by
    intro front part
    rcases List.prefix_cons_iff.mp part with rfl | ⟨rest, rfl, later⟩
    · exact Int.le_refl 0
    · rw [balance]
      rcases prefix_append_cases later with inner | ⟨last, rfl, closing⟩
      · have := inside.front rest inner
        omega
      · rw [balance_append, inside.whole]
        rcases List.prefix_cons_iff.mp closing with rfl | ⟨none, rfl, nothing⟩
        · decide
        · rw [List.prefix_nil.mp nothing]
          decide

end Balanced

mutual
theorem balanced_tokens : (tree : Sexp) → Balanced tree.tokens
  | .atom text => by
    rw [tokens_atom]
    exact Balanced.atom text
  | .list items => by
    rw [tokens_list]
    exact (balanced_flatten items).list

theorem balanced_flatten : (items : List Sexp) → Balanced (flatten items)
  | [] => Balanced.nil
  | item :: rest => by
    rw [flatten_cons]
    exact (balanced_tokens item).append (balanced_flatten rest)
end

/-- An atom that is no bare word with a bar. -/
def Unbarred (cs : List Char) : Prop := cs.head? = some '"' ∨ cs.head? = some '|' ∨ '|' ∉ cs

theorem WellFormed.unbarred {cs : List Char} (formed : WellFormed cs) : Unbarred cs := by
  cases formed with
  | word bare => exact .inr (.inr (fun member => (bare.2 _ member).2 rfl))
  | string inner => exact .inl rfl
  | symbol closed => exact .inr (.inl rfl)

/-- An atom that closes as many symbols as it opens: a literal, or a bare word with an even number
of bars. -/
def EvenlyBarred (cs : List Char) : Prop :=
  cs.head? = some '"' ∨ cs.head? = some '|' ∨ cs.count '|' % 2 = 0

instance (cs : List Char) : Decidable (EvenlyBarred cs) :=
  inferInstanceAs (Decidable (_ ∨ _ ∨ _))

theorem Unbarred.evenlyBarred {cs : List Char} (unbarred : Unbarred cs) : EvenlyBarred cs := by
  rcases unbarred with quote | bar | absent
  · exact .inl quote
  · exact .inr (.inl bar)
  · exact .inr (.inr (by rw [List.count_eq_zero_of_not_mem absent]))

/-- Whether a bare word is being read with an odd number of bars so far. -/
def LexMode.isOddWord : LexMode → Bool
  | .word read => read.count '|' % 2 == 1
  | _ => false

namespace Lexer

/-- A bare word that is being read begins neither with a quote nor with a bar. -/
def Begun (lexer : Lexer) : Prop :=
  ∀ read, lexer.mode = .word read → ∃ first, read.getLast? = some first ∧ first ≠ '"' ∧ first ≠ '|'

/-- No bare word with a bar was read. -/
structure Plain (lexer : Lexer) : Prop where
  found : ∀ name, .atom name ∈ lexer.found → Unbarred name.toList
  word : ∀ read, lexer.mode = .word read → '|' ∉ read

/-- Every bare word that was read whole holds an even number of bars. -/
def Steady (lexer : Lexer) : Prop := ∀ name, .atom name ∈ lexer.found → EvenlyBarred name.toList

theorem Plain.steady {lexer : Lexer} (plain : lexer.Plain) : lexer.Steady :=
  fun name member => (plain.found name member).evenlyBarred

theorem Plain.notOdd {lexer : Lexer} (plain : lexer.Plain) : lexer.mode.isOddWord = false := by
  obtain ⟨mode, found⟩ := lexer
  cases mode with
  | word read => simp [LexMode.isOddWord, List.count_eq_zero_of_not_mem (plain.word read rfl)]
  | gap | comment | string read | stringQuote read | symbol read => rfl

theorem Steady.before_run {lexer : Lexer} {cs : List Char} (steady : (lexer.run cs).Steady) :
    lexer.Steady :=
  fun name member => steady name ((found_suffix lexer cs).subset member)

theorem isOddWord_feedGap (lexer : Lexer) (c : Char) :
    (lexer.feedGap c).mode.isOddWord = false := by
  by_cases bar : c = '|'
  · subst bar
    rfl
  · unfold Lexer.feedGap
    repeat' split
    all_goals simp [emit, LexMode.isOddWord, bar]

theorem isOddWord_feed {lexer : Lexer} (c : Char) (outside : ∀ held, lexer.mode ≠ .word held) :
    (lexer.feed c).mode.isOddWord = false := by
  obtain ⟨mode, found⟩ := lexer
  cases mode with
  | gap => exact isOddWord_feedGap _ c
  | word held => exact absurd rfl (outside held)
  | comment | string held | symbol held =>
    simp only [Lexer.feed]
    split <;> rfl
  | stringQuote held =>
    simp only [Lexer.feed]
    split
    · rfl
    · exact isOddWord_feedGap _ c

theorem Steady.even_of_ends {held : List Char} {found : List Token} {c : Char}
    (steady : (Lexer.feed ⟨.word held, found⟩ c).Steady) (begun : Begun ⟨.word held, found⟩)
    (ends : endsWord c = true) : (LexMode.word held).isOddWord = false := by
  have emitted : .atom (String.ofList held.reverse) ∈ (Lexer.feed ⟨.word held, found⟩ c).found := by
    simp only [feed, ends, ↓reduceIte]
    exact (found_suffix (emitAtom held ⟨.word held, found⟩) [c]).subset List.mem_cons_self
  obtain ⟨first, last, noQuote, noBar⟩ := begun held rfl
  have even := steady _ emitted
  rw [String.toList_ofList, EvenlyBarred, List.head?_reverse, last, List.count_reverse] at even
  rcases even with quote | bar | even
  · exact absurd (Option.some.inj quote) noQuote
  · exact absurd (Option.some.inj bar) noBar
  · simp [LexMode.isOddWord, even]

theorem Begun.feedGap (lexer : Lexer) (c : Char) : (lexer.feedGap c).Begun := by
  intro read same
  unfold Lexer.feedGap at same
  split at same
  · cases same
  · split at same
    · cases same
    · split at same
      · cases same
      · split at same
        · cases same
        · split at same
          · cases same
          · split at same
            · cases same
            · cases same
              exact ⟨c, rfl, by assumption, by assumption⟩

theorem Begun.feed {lexer : Lexer} (begun : lexer.Begun) (c : Char) : (lexer.feed c).Begun := by
  obtain ⟨mode, found⟩ := lexer
  cases mode with
  | gap => exact Begun.feedGap _ c
  | comment =>
    intro read same
    simp only [Lexer.feed] at same
    split at same <;> cases same
  | word held =>
    simp only [Lexer.feed]
    split
    · exact Begun.feedGap _ c
    · intro read same
      cases same
      obtain ⟨first, last, noQuote, noBar⟩ := begun held rfl
      refine ⟨first, ?_, noQuote, noBar⟩
      rw [List.getLast?_cons, last]
      rfl
  | string held =>
    intro read same
    simp only [Lexer.feed] at same
    split at same <;> cases same
  | stringQuote held =>
    simp only [Lexer.feed]
    split
    · intro read same
      cases same
    · exact Begun.feedGap _ c
  | symbol held =>
    intro read same
    simp only [Lexer.feed] at same
    split at same <;> cases same

theorem Begun.run {lexer : Lexer} (begun : lexer.Begun) (cs : List Char) :
    (lexer.run cs).Begun := by
  induction cs generalizing lexer with
  | nil => exact begun
  | cons c rest ih => exact ih (begun.feed c)

/-- What is plain in the end was plain all the time. -/
theorem Plain.before_feed {lexer : Lexer} {c : Char} (begun : lexer.Begun)
    (plain : (lexer.feed c).Plain) : lexer.Plain := by
  have kept : lexer.found <:+ (lexer.feed c).found := found_suffix lexer [c]
  refine ⟨fun name member => plain.found name (kept.subset member), ?_⟩
  intro read inWord member
  obtain ⟨first, last, noQuote, noBar⟩ := begun read inWord
  obtain ⟨mode, found⟩ := lexer
  cases inWord
  -- A bar in the word is found with the word if the word ends here, and stays in it if not.
  by_cases ends : endsWord c = true
  · have emitted :
        .atom (String.ofList read.reverse) ∈ (Lexer.feed ⟨.word read, found⟩ c).found := by
      simp only [feed, ends, ↓reduceIte]
      exact (found_suffix (emitAtom read ⟨.word read, found⟩) [c]).subset List.mem_cons_self
    have unbarred := plain.found _ emitted
    rw [String.toList_ofList, Unbarred, List.head?_reverse, last] at unbarred
    rcases unbarred with same | same | absent
    · exact noQuote (Option.some.inj same)
    · exact noBar (Option.some.inj same)
    · exact absent (List.mem_reverse.mpr member)
  · have longer : (Lexer.feed ⟨.word read, found⟩ c).mode = .word (c :: read) := by
      simp [feed, ends]
    exact plain.word _ longer (List.mem_cons_of_mem c member)

theorem Plain.before_run {lexer : Lexer} {cs : List Char} (begun : lexer.Begun)
    (plain : (lexer.run cs).Plain) : lexer.Plain := by
  induction cs generalizing lexer with
  | nil => exact plain
  | cons c rest ih => exact (ih (begun.feed c) plain).before_feed begun

end Lexer

end Sexp

namespace Openness

open Sexp (LexMode Lexer balance)

/-- What a text leaves open, as the lexer sees it. -/
def ofLexer (lexer : Lexer) : Openness where
  depth := balance lexer.found
  inString := match lexer.mode with
    | .string _ => true
    | _ => false
  inSymbol := match lexer.mode with
    | .symbol _ => true
    | _ => false

/-- What is left to follow of a line after one of its characters. A comment goes to the line's
end. -/
def after (lexer : Lexer) (rest : List Char) : Openness :=
  if lexer.mode = .comment then ofLexer lexer else (ofLexer lexer).scan rest

theorem scan_gap (mode : Sexp.LexMode) (found : List Sexp.Token) (c : Char) (rest : List Char) :
    ({ depth := balance found } : Openness).scan (c :: rest) =
      after (Lexer.feedGap c ⟨mode, found⟩) rest := by
  unfold Lexer.feedGap
  by_cases quote : c = '"'
  · subst quote
    rfl
  · by_cases bar : c = '|'
    · subst bar
      rfl
    · by_cases opening : c = '('
      · subst opening
        rfl
      · by_cases closing : c = ')'
        · subst closing
          rfl
        · by_cases code : c = ';'
          · subst code
            rfl
          · have skipped : ({ depth := balance found } : Openness).scan (c :: rest) =
                ({ depth := balance found } : Openness).scan rest := by
              simp [scan, quote, bar, opening, closing, code]
            rw [skipped, if_neg opening, if_neg closing, if_neg code, if_neg quote, if_neg bar]
            split <;> rfl

/-- Outside bare words, what the next character opens and closes does not depend on what was read
before. -/
theorem scan_cons_of_not_word {lexer : Lexer} (c : Char) (rest : List Char)
    (code : lexer.mode ≠ .comment) (outside : ∀ held, lexer.mode ≠ .word held) :
    (ofLexer lexer).scan (c :: rest) = after (lexer.feed c) rest := by
  obtain ⟨mode, found⟩ := lexer
  cases mode with
  | gap => exact scan_gap .gap found c rest
  | comment => exact absurd rfl code
  | word held => exact absurd rfl (outside held)
  | string held =>
    by_cases quote : c = '"'
    · subst quote
      rfl
    · simp [after, ofLexer, scan, Lexer.feed, quote]
  | stringQuote held =>
    by_cases quote : c = '"'
    · subst quote
      rfl
    · have next : Lexer.feed ⟨.stringQuote held, found⟩ c =
          (Lexer.emitAtom held ⟨.stringQuote held, found⟩).feedGap c := if_neg quote
      rw [next]
      exact scan_gap .gap (.atom (String.ofList held.reverse) :: found) c rest
  | symbol held =>
    by_cases bar : c = '|'
    · subst bar
      rfl
    · simp [after, ofLexer, scan, Lexer.feed, bar]

theorem scan_wordChar {openness : Openness} {c : Char} (rest : List Char)
    (code : openness.inString = false) (goesOn : Lexer.endsWord c = false) :
    openness.scan (c :: rest) = (if c = '|' then
      { openness with inSymbol := !openness.inSymbol } else openness).scan rest := by
  simp only [Lexer.endsWord, Bool.or_eq_false_iff, beq_eq_false_iff_ne] at goesOn
  obtain ⟨⟨⟨⟨opening, closing⟩, quote⟩, semicolon⟩, _⟩ := goesOn
  by_cases bar : c = '|'
  · simp [scan, bar, code]
  · simp [scan, bar, code, opening, closing, quote, semicolon]

/-- What is open for one who takes every bar outside strings for the delimiter of a symbol. -/
def follow (lexer : Lexer) : Openness :=
  { ofLexer lexer with inSymbol := (ofLexer lexer).inSymbol || lexer.mode.isOddWord }

theorem follow_eq_ofLexer {lexer : Lexer} (notOdd : lexer.mode.isOddWord = false) :
    follow lexer = ofLexer lexer := by
  simp [follow, notOdd]

theorem follow_cons {lexer : Lexer} {c : Char} (rest : List Char) (code : lexer.mode ≠ .comment)
    (begun : lexer.Begun) (steady : (lexer.feed c).Steady) :
    (follow lexer).scan (c :: rest) =
      if (lexer.feed c).mode = .comment then follow (lexer.feed c)
      else (follow (lexer.feed c)).scan rest := by
  obtain ⟨mode, found⟩ := lexer
  cases mode with
  | word held =>
    by_cases ends : Lexer.endsWord c = true
    · have next : Lexer.feed ⟨.word held, found⟩ c =
          (Lexer.emitAtom held ⟨.word held, found⟩).feedGap c := if_pos ends
      have notOdd := Lexer.isOddWord_feedGap (Lexer.emitAtom held ⟨.word held, found⟩) c
      rw [follow_eq_ofLexer (steady.even_of_ends begun ends), next, follow_eq_ofLexer notOdd]
      exact scan_gap .gap (.atom (String.ofList held.reverse) :: found) c rest
    · rw [Bool.not_eq_true] at ends
      have next : Lexer.feed ⟨.word held, found⟩ c = ⟨.word (c :: held), found⟩ := by
        simp [Lexer.feed, ends]
      rw [scan_wordChar rest rfl ends, next]
      by_cases bar : c = '|'
      · have toggled : (!(held.count '|' % 2 == 1)) = ((held.count '|' + 1) % 2 == 1) := by
          grind
        simp [follow, ofLexer, LexMode.isOddWord, bar, toggled]
      · simp [follow, ofLexer, LexMode.isOddWord, bar]
  | gap | comment | string held | stringQuote held | symbol held =>
    rw [follow_eq_ofLexer rfl, follow_eq_ofLexer (Lexer.isOddWord_feed c (by rintro _ ⟨⟩))]
    exact scan_cons_of_not_word c rest code (by rintro _ ⟨⟩)

/-- Following a line is reading it with the lexer, apart from the bars in words. -/
theorem follow_run {lexer : Lexer} {line : List Char} (code : lexer.mode ≠ .comment)
    (begun : lexer.Begun) (steady : (lexer.run line).Steady) (oneLine : '\n' ∉ line) :
    (follow lexer).scan line = follow (lexer.run line) := by
  induction line generalizing lexer with
  | nil => rfl
  | cons c rest ih =>
    rw [Lexer.run_cons] at steady ⊢
    rw [follow_cons rest code begun steady.before_run]
    have oneLineRest : '\n' ∉ rest := fun member => oneLine (List.mem_cons_of_mem c member)
    -- Where a comment begins the rest of the line is not followed; the lexer finds nothing in it.
    by_cases comment : (lexer.feed c).mode = .comment
    · have stays : lexer.feed c = ⟨.comment, (lexer.feed c).found⟩ := by rw [← comment]
      rw [if_pos comment, stays, Lexer.run_comment _ oneLineRest]
    · rw [if_neg comment]
      exact ih comment (begun.feed c) steady oneLineRest

/-- Following a line without bars in words is reading it with the lexer. -/
theorem scan_run {lexer : Lexer} {line : List Char} (code : lexer.mode ≠ .comment)
    (begun : lexer.Begun) (plain : (lexer.run line).Plain) (oneLine : '\n' ∉ line) :
    (ofLexer lexer).scan line = ofLexer (lexer.run line) := by
  rw [← follow_eq_ofLexer (plain.before_run begun).notOdd, ← follow_eq_ofLexer plain.notOdd]
  exact follow_run code begun plain.steady oneLine

/-- The end of a line opens and closes nothing. -/
theorem ofLexer_lineEnd (lexer : Lexer) : ofLexer (lexer.feed '\n') = ofLexer lexer := by
  obtain ⟨mode, found⟩ := lexer
  cases mode <;> rfl

theorem code_after_lineEnd (lexer : Lexer) : (lexer.feed '\n').mode ≠ .comment := by
  obtain ⟨mode, found⟩ := lexer
  cases mode <;> nofun

end Openness

end SmtSession

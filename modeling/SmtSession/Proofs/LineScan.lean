import Mathlib.Data.List.Induction
import SmtSession.Proofs.Acceptance
import SmtSession.Proofs.ReplyStream

/-! The scan of lines: where the reader finds the end of an answer, and where the lexer does. They
agree as long as no bare word holds an odd number of bars. Behind such a word the reader takes what
follows for a symbol, up to the next bar. -/
namespace SmtSession

namespace Openness

open Sexp (LexMode Lexer balance)

theorem scan_lineEnd (openness : Openness) : openness.scan ['\n'] = openness := by
  simp [scan]

theorem follow_lineEnd {lexer : Lexer} (begun : lexer.Begun)
    (steady : (lexer.feed '\n').Steady) : follow (lexer.feed '\n') = follow lexer := by
  by_cases comment : lexer.mode = .comment
  · obtain ⟨mode, found⟩ := lexer
    obtain rfl : mode = .comment := comment
    rfl
  · have followed := follow_cons [] comment begun steady
    rw [scan_lineEnd, if_neg (code_after_lineEnd lexer)] at followed
    exact followed.symm

/-- Every bar in a bare word is taken for the delimiter of a symbol. -/
theorem scan_word {openness : Openness} {word : List Char} (rest : List Char)
    (code : openness.inString = false) (goesOn : ∀ c ∈ word, Lexer.endsWord c = false) :
    openness.scan (word ++ rest) =
      ({ openness with inSymbol := openness.inSymbol ^^ (word.count '|' % 2 == 1) }).scan rest := by
  induction word generalizing openness with
  | nil => simp
  | cons c word ih =>
    have later : ∀ d ∈ word, Lexer.endsWord d = false :=
      fun d member => goesOn d (List.mem_cons_of_mem c member)
    rw [List.cons_append, scan_wordChar _ code (goesOn c List.mem_cons_self)]
    by_cases bar : c = '|'
    · have toggled : (!openness.inSymbol ^^ (word.count '|' % 2 == 1)) =
          (openness.inSymbol ^^ ((word.count '|' + 1) % 2 == 1)) := by grind
      have rest := @ih { openness with inSymbol := !openness.inSymbol } code later
      rw [if_pos bar, rest, bar, List.count_cons_self, toggled]
    · rw [if_neg bar, ih code later, List.count_cons_of_ne bar]

theorem scan_symbol {openness : Openness} {line : List Char} (code : openness.inString = false)
    (inSymbol : openness.inSymbol = true) (noBar : '|' ∉ line) :
    openness.scan line = openness := by
  induction line with
  | nil => rfl
  | cons c rest ih =>
    have other : c ≠ '|' := fun bar => noBar (bar ▸ List.mem_cons_self)
    have later := ih fun member => noBar (List.mem_cons_of_mem c member)
    simp [scan, code, inSymbol, other, later]

/-- Between lines the lexer is between tokens, in a string or in a symbol. -/
theorem mode_after_lineEnd (lexer : Lexer) :
    (lexer.feed '\n').mode = .gap ∨ (∃ read, (lexer.feed '\n').mode = .string read) ∨
      ∃ read, (lexer.feed '\n').mode = .symbol read := by
  obtain ⟨mode, found⟩ := lexer
  cases mode with
  | gap | comment | word read | stringQuote read => exact .inl rfl
  | string read => exact .inr (.inl ⟨_, rfl⟩)
  | symbol read => exact .inr (.inr ⟨_, rfl⟩)

/-- Between lines nothing is open when the lexer is between tokens, and no list is open. -/
theorem isOpen_lineEnd (lexer : Lexer) :
    (follow (lexer.feed '\n')).isOpen = false ↔
      (lexer.feed '\n').mode = .gap ∧ balance (lexer.feed '\n').found ≤ 0 := by
  rcases mode_after_lineEnd lexer with between | ⟨read, inString⟩ | ⟨read, inSymbol⟩
  · simp [isOpen, follow, ofLexer, between, LexMode.isOddWord]
  · simp [isOpen, follow, ofLexer, inString]
  · simp [isOpen, follow, ofLexer, inSymbol]

end Openness

namespace Sexp

theorem read_ofList_eq_ok_iff {text : List Char} {tree : Sexp} :
    read (String.ofList text) = .ok tree ↔ tokenize text = .ok tree.tokens := by
  rw [read_eq_ok_iff, readAll, String.toList_ofList, readAllChars_eq_ok_iff]
  simp

/-- The characters of a bare word, which may hold bars but does not begin with one. -/
structure IsWord (cs : List Char) : Prop where
  nonempty : cs ≠ []
  first : cs.head? ≠ some '|'
  goesOn : ∀ c ∈ cs, Lexer.endsWord c = false

theorem IsWord.spells {cs : List Char} (word : IsWord cs) :
    Spells cs [.atom (String.ofList cs)] := by
  cases cs with
  | nil => exact absurd rfl word.nonempty
  | cons first rest =>
    have noBar : first ≠ '|' := fun bar => word.first (congrArg some bar)
    exact Spells.word noBar word.goesOn

def oneWord (word : List Char) : List Char := '(' :: word ++ [')']

theorem IsWord.read_oneWord {word : List Char} (isWord : IsWord word) :
    read (String.ofList (oneWord word ++ ['\n'])) =
      .ok (.list [.atom (String.ofList word)]) := by
  have closing : Seals [')', '\n'] [.closing] := Seals.closing.append (Seals.blank rfl)
  have whole := Seals.opening.append (isWord.spells.seals_append closing rfl)
  rw [read_ofList_eq_ok_iff]
  have split : oneWord word ++ ['\n'] = ['('] ++ (word ++ ')' :: ['\n']) := by simp [oneWord]
  rw [split, whole.spells.tokenize]
  simp

theorem Lexer.eq_of_gap {lexer : Lexer} (between : lexer.mode = .gap) :
    lexer = { found := lexer.found } := by
  obtain ⟨mode, found⟩ := lexer
  obtain rfl : mode = .gap := between
  rfl

/-- Lines fall into tokens when the lexer is between tokens after them. -/
theorem tokenize_lines {body : List Char} {tokens : List Token} :
    tokenize (body ++ ['\n']) = .ok tokens ↔
      Lexer.run {} (body ++ ['\n']) = { found := tokens.reverse } := by
  have split : Lexer.run {} (body ++ ['\n']) = (Lexer.run {} body).feed '\n' := Lexer.run_append ..
  rw [tokenize, split]
  generalize ended : (Lexer.run {} body).feed '\n' = lexer
  have modes := Openness.mode_after_lineEnd (Lexer.run {} body)
  rw [ended] at modes
  obtain ⟨mode, found⟩ := lexer
  rcases modes with rfl | ⟨read, rfl⟩ | ⟨read, rfl⟩ <;>
    simp [Lexer.finish, List.reverse_eq_iff]

/-- A front of a tree's tokens that leaves nothing open holds all of them. -/
theorem eq_tokens_of_balance {tree : Sexp} {front rest : List Token}
    (split : tree.tokens = front ++ rest) (some : front ≠ []) (closed : balance front ≤ 0) :
    front = tree.tokens := by
  by_cases whole : front = tree.tokens
  · exact whole
  · have inside := tree.undivided_tokens.inside front ⟨rest, split.symm⟩ some whole
    rw [balance_eq_count] at closed
    omega

/-- When lines leave nothing open, they are a tree already or no text after them makes one. -/
theorem read_of_read_append {body more : List Char} {tree : Sexp} {found : List Token}
    (ended : Lexer.run {} (body ++ ['\n']) = { found }) (some : found ≠ [])
    (closed : balance found ≤ 0)
    (longer : read (String.ofList (body ++ ['\n'] ++ more)) = .ok tree) :
    read (String.ofList (body ++ ['\n'])) = .ok tree := by
  have first : tokenize body = .ok found.reverse := by
    rw [tokenize_eq_ok_iff, ended, List.reverse_reverse]
  have split : body ++ ['\n'] ++ more = body ++ '\n' :: more := by simp
  rw [split, read_ofList_eq_ok_iff, tokenize_line_append more first] at longer
  rcases later : tokenize more with err | rest
  · rw [later] at longer
    cases longer
  · rw [later] at longer
    have tokens : tree.tokens = found.reverse ++ rest := (Except.ok.inj longer).symm
    have whole := eq_tokens_of_balance tokens (by simpa using some) (by rwa [balance_reverse])
    rw [read_ofList_eq_ok_iff, tokenize_lines, ended, ← whole, List.reverse_reverse]

end Sexp

namespace ReplyReader

open Sexp (Lexer)

/-- The reader has followed the text of an unfinished answer, which holds a parenthesis at least; it
knows what is open in it unless a word has misled it. -/
structure Follows (reader : ReplyReader) : Prop where
  whole : IsWholeLines reader.pending
  begun : reader.pending ≠ [] → (Lexer.run {} reader.pending).found ≠ []
  level : (Lexer.run {} reader.pending).Steady →
    reader.openness = .follow (Lexer.run {} reader.pending)

theorem Follows.fresh : Follows {} :=
  ⟨.inl rfl, fun pending => absurd rfl pending, fun _ => rfl⟩

/-- A line is not a new answer or gives nothing while something is open after it. -/
theorem extend_eq_none_iff (line : List Char) (reader : ReplyReader) :
    (reader.extend line).1 = .ok none ↔ (reader.openness.scan line).isOpen = true := by
  cases opened : (reader.openness.scan line).isOpen with
  | true => simp [extend, opened]
  | false =>
    simp only [extend, opened, Bool.false_eq_true, ↓reduceIte, iff_false]
    rcases ReplyEvent.ofText (String.ofList (reader.pending ++ line ++ ['\n'])) with err | event
    · exact fun none => by cases none
    · exact fun none => by cases none

section Line

variable {reader : ReplyReader} {line : String}

def text (reader : ReplyReader) (line : String) : List Char :=
  reader.pending ++ line.toList ++ ['\n']

theorem run_text (reader : ReplyReader) (line : String) :
    Lexer.run {} (reader.text line) =
      ((Lexer.run {} reader.pending).run line.toList).feed '\n' := by
  rw [text, Lexer.run_append, Lexer.run_append]
  rfl

theorem Follows.scan (follows : reader.Follows) (oneLine : '\n' ∉ line.toList)
    (steady : (Lexer.run {} (reader.text line)).Steady) :
    reader.openness.scan line.toList = .follow (Lexer.run {} (reader.text line)) := by
  have begun : (Lexer.run {} reader.pending).Begun := Lexer.Begun.run (by nofun) _
  rw [run_text] at steady ⊢
  have steadyLine : ((Lexer.run {} reader.pending).run line.toList).Steady :=
    @Lexer.Steady.before_run _ ['\n'] steady
  rw [follows.level steadyLine.before_run, Openness.follow_lineEnd (begun.run _) steady]
  exact Openness.follow_run (code_after_wholeLines follows.whole) begun steadyLine oneLine

/-- What belongs to an answer holds a parenthesis at least. -/
theorem Follows.found_ne_nil (follows : reader.Follows) (belongs : reader.Belongs line) :
    (Lexer.run {} (reader.text line)).found ≠ [] := by
  have grows {front back : List Char} (some : (Lexer.run {} front).found ≠ []) :
      (Lexer.run {} (front ++ back)).found ≠ [] := by
    have suffix := Lexer.found_suffix (Lexer.run {} front) back
    rw [← Lexer.run_append] at suffix
    intro none
    rw [none] at suffix
    exact some (List.suffix_nil.mp suffix)
  rw [text, List.append_assoc]
  by_cases pending : reader.pending = []
  · have first := belongs.resolve_left fun some => some pending
    obtain ⟨lead, trail, blank, _, split⟩ := Text.trim_split line.toList
    obtain ⟨inner, word⟩ := List.head?_eq_some_iff.mp first
    have opened := ((Sexp.Seals.blanks blank).append Sexp.Seals.opening) []
    have begins : line.toList ++ ['\n'] = (lead ++ ['(']) ++ (inner ++ trail ++ ['\n']) := by
      rw [split, word]
      simp
    rw [pending, List.nil_append, begins]
    refine grows ?_
    rw [opened]
    exact List.cons_ne_nil _ _
  · exact grows (follows.begun pending)

theorem Follows.extend (follows : reader.Follows) (oneLine : '\n' ∉ line.toList)
    (belongs : reader.Belongs line) : (reader.extend line.toList).2.Follows := by
  by_cases opened : (reader.openness.scan line.toList).isOpen = true
  · have next : (reader.extend line.toList).2 =
        { pending := reader.text line, openness := reader.openness.scan line.toList } := by
      simp [ReplyReader.extend, opened, text]
    rw [next]
    refine ⟨.inr ?_, fun _ => follows.found_ne_nil belongs, ?_⟩
    · simp [text]
    · exact fun steady => follows.scan oneLine steady
  · have next : (reader.extend line.toList).2 = {} := by
      simp [ReplyReader.extend, opened]
    rw [next]
    exact .fresh

theorem feed_other (other : ¬ reader.Belongs line) : (reader.feed line).2 = reader := by
  have pending : reader.pending = [] := Classical.byContradiction fun some => other (.inl some)
  have first : (Text.trim line.toList).head? ≠ some '(' := fun begins => other (.inr begins)
  simp only [feed, feedChars, pending, List.isEmpty_nil, Bool.not_true, Bool.false_eq_true, first,
    ↓reduceIte]
  split <;> rfl

theorem Follows.feed (follows : reader.Follows) (oneLine : '\n' ∉ line.toList) :
    (reader.feed line).2.Follows := by
  by_cases belongs : reader.Belongs line
  · rw [feed_eq_extend belongs]
    exact follows.extend oneLine belongs
  · rw [feed_other belongs]
    exact follows

theorem pending_feed (belongs : reader.Belongs line) :
    (reader.feed line).2.pending = reader.text line ∨ (reader.feed line).2 = {} := by
  rw [feed_eq_extend belongs]
  simp only [ReplyReader.extend]
  split
  · exact .inl rfl
  · exact .inr rfl

/-- An answer is complete at a line when no list is open after it, and no token begun. -/
theorem Follows.complete_iff (follows : reader.Follows) (oneLine : '\n' ∉ line.toList)
    (belongs : reader.Belongs line) (steady : (Lexer.run {} (reader.text line)).Steady) :
    (reader.feed line).1 ≠ .ok none ↔
      (Lexer.run {} (reader.text line)).mode = .gap ∧
        Sexp.balance (Lexer.run {} (reader.text line)).found ≤ 0 := by
  have scanned := follows.scan oneLine steady
  rw [feed_eq_extend belongs, Ne, extend_eq_none_iff, scanned, Bool.not_eq_true, run_text]
  exact Openness.isOpen_lineEnd _

/-- The reader does not go past the end of an answer. -/
theorem Follows.complete_of_read (follows : reader.Follows) (oneLine : '\n' ∉ line.toList)
    (belongs : reader.Belongs line) (steady : (Lexer.run {} (reader.text line)).Steady)
    {tree : Sexp} (read : Sexp.read (String.ofList (reader.text line)) = .ok tree) :
    (reader.feed line).1 ≠ .ok none := by
  have ended := Sexp.tokenize_lines.mp (Sexp.read_ofList_eq_ok_iff.mp read)
  have closed : Sexp.balance tree.tokens.reverse = 0 := by
    rw [Sexp.balance_reverse, (Sexp.balanced_tokens tree).whole]
  rw [follows.complete_iff oneLine belongs steady, text, ended]
  exact ⟨rfl, Int.le_of_eq closed⟩

/-- The reader does not stop before the end of an answer. -/
theorem Follows.read_of_complete (follows : reader.Follows) (oneLine : '\n' ∉ line.toList)
    (belongs : reader.Belongs line) (steady : (Lexer.run {} (reader.text line)).Steady)
    (complete : (reader.feed line).1 ≠ .ok none) {more : List Char} {tree : Sexp}
    (longer : Sexp.read (String.ofList (reader.text line ++ more)) = .ok tree) :
    Sexp.read (String.ofList (reader.text line)) = .ok tree := by
  obtain ⟨between, closed⟩ := (follows.complete_iff oneLine belongs steady).mp complete
  exact Sexp.read_of_read_append (Lexer.eq_of_gap between) (follows.found_ne_nil belongs) closed
    longer

end Line

theorem Follows.results {reader : ReplyReader} (follows : reader.Follows) {lines : List String}
    (oneLine : ∀ line ∈ lines, '\n' ∉ line.toList) : (reader.results lines).2.Follows := by
  induction lines generalizing reader with
  | nil => exact follows
  | cons line rest ih =>
    exact ih (follows.feed (oneLine line List.mem_cons_self))
      (fun other member => oneLine other (List.mem_cons_of_mem line member))

theorem pending_results (lines : List String) :
    ∃ earlier answer, lines = earlier ++ answer ∧ (results {} earlier).2 = {} ∧
      (results {} lines).2.pending = Text.joined answer := by
  induction lines using List.reverseRecOn with
  | nil => exact ⟨[], [], rfl, rfl, rfl⟩
  | append_singleton lines line ih =>
    obtain ⟨earlier, answer, split, settled, pending⟩ := ih
    have next : (results {} (lines ++ [line])).2 = ((results {} lines).2.feed line).2 := by
      rw [results_append]
      rfl
    by_cases belongs : (results {} lines).2.Belongs line
    · rcases pending_feed belongs with goesOn | complete
      · refine ⟨earlier, answer ++ [line], by rw [split, List.append_assoc], settled, ?_⟩
        rw [next, goesOn, text, pending]
        simp [Text.joined]
      · exact ⟨lines ++ [line], [], by simp, next.trans complete, by rw [next, complete]; rfl⟩
    · have fresh : ReplyReader.Settled {} := fun _ => rfl
      have none : (results {} lines).2.pending = [] :=
        Classical.byContradiction fun some => belongs (.inl some)
      have same : (results {} (lines ++ [line])).2 = {} := by
        rw [next, feed_other belongs]
        exact fresh.results lines none
      exact ⟨lines ++ [line], [], by simp, same, by rw [same]; rfl⟩

/-- A list of one word that holds an odd number of bars seems to be open, with a symbol in it. -/
theorem scan_oneWord {word : List Char} (isWord : Sexp.IsWord word) :
    ({} : Openness).scan (Sexp.oneWord word) =
      if word.count '|' % 2 = 1 then { depth := 1, inSymbol := true } else {} := by
  have inside : ({} : Openness).scan (Sexp.oneWord word) =
      ({ depth := 1 } : Openness).scan (word ++ [')']) := rfl
  rw [inside, Openness.scan_word _ rfl isWord.goesOn]
  by_cases odd : word.count '|' % 2 = 1
  · simp [odd, Openness.scan]
  · simp [odd, Openness.scan]

theorem belongs_oneWord (word : List Char) (reader : ReplyReader) :
    reader.Belongs (String.ofList (Sexp.oneWord word)) := by
  right
  rw [String.toList_ofList]
  exact @Text.head?_trim [] '(' (word ++ [')']) Text.isBlankRun_nil rfl

theorem feed_oneWord {word : List Char} (isWord : Sexp.IsWord word) :
    (feed (String.ofList (Sexp.oneWord word)) {}).1 = .ok none ↔ word.count '|' % 2 = 1 := by
  rw [feed_eq_extend (belongs_oneWord word {}), extend_eq_none_iff, String.toList_ofList,
    scan_oneWord isWord]
  split
  · rename_i odd
    exact iff_of_true rfl odd
  · rename_i even
    exact iff_of_false nofun even

/-- A reader that takes itself to be in a symbol. -/
structure InSymbol (reader : ReplyReader) : Prop where
  some : reader.pending ≠ []
  code : reader.openness.inString = false
  inSymbol : reader.openness.inSymbol = true

/-- Lines without a bar give nothing then, whatever they say. -/
theorem InSymbol.results {reader : ReplyReader} (misled : reader.InSymbol) {lines : List String}
    (noBar : ∀ line ∈ lines, '|' ∉ line.toList) :
    (reader.results lines).1 = List.replicate lines.length (.ok none) := by
  induction lines generalizing reader with
  | nil => rfl
  | cons line rest ih =>
    have same := Openness.scan_symbol misled.code misled.inSymbol (noBar line List.mem_cons_self)
    have fed : reader.feed line =
        (.ok none, { pending := reader.text line, openness := reader.openness }) := by
      rw [feed_eq_extend (.inl misled.some)]
      simp [extend, same, Openness.isOpen, misled.inSymbol, text]
    have still : ReplyReader.InSymbol ⟨reader.text line, reader.openness⟩ :=
      ⟨by simp [text], misled.code, misled.inSymbol⟩
    have later := ih still fun other member => noBar other (List.mem_cons_of_mem line member)
    rw [results_cons, fed, later]
    rfl

theorem inSymbol_oneWord {word : List Char} (isWord : Sexp.IsWord word)
    (odd : word.count '|' % 2 = 1) :
    InSymbol (feed (String.ofList (Sexp.oneWord word)) {}).2 := by
  have scanned := scan_oneWord isWord
  rw [if_pos odd] at scanned
  have opened : Openness.isOpen { depth := 1, inSymbol := true } = true := rfl
  rw [feed_eq_extend (belongs_oneWord word {}), extend, String.toList_ofList]
  simp only [scanned, opened, ↓reduceIte]
  exact ⟨by simp, rfl, rfl⟩

/-- The reader and the lexer agree on where an answer ends, for every reader and line of it, when
the bare words of the text so far hold an even number of bars each: at the line with which the text
is one S-expression the answer is complete, and when it is complete the text is one S-expression, or
no text after it makes it one. An odd number of bars in one word is enough for the reader to go past
the end of an answer, and past all answers that follow up to the next bar. -/
theorem line_scan_agrees (lines : List String) :
    (∀ line, (∀ other ∈ lines ++ [line], '\n' ∉ other.toList) →
      let reader := (results {} lines).2
      reader.Belongs line → (Lexer.run {} (reader.text line)).Steady →
      (∃ earlier answer, lines = earlier ++ answer ∧ (results {} earlier).2 = {} ∧
        reader.text line = Text.joined (answer ++ [line])) ∧
      (∀ tree, Sexp.read (String.ofList (reader.text line)) = .ok tree →
        (reader.feed line).1 ≠ .ok none) ∧
      ((reader.feed line).1 ≠ .ok none → (reader.feed line).2 = {} ∧
        ∀ more tree, Sexp.read (String.ofList (reader.text line ++ more)) = .ok tree →
          Sexp.read (String.ofList (reader.text line)) = .ok tree)) ∧
    ∀ word, Sexp.IsWord word →
      let line := String.ofList (Sexp.oneWord word)
      Sexp.read (String.ofList (text {} line)) = .ok (.list [.atom (String.ofList word)]) ∧
      ((feed line {}).1 = .ok none ↔ word.count '|' % 2 = 1) ∧
      (word.count '|' % 2 = 1 → (∀ later ∈ lines, '|' ∉ later.toList) →
        (results {} (line :: lines)).1 = List.replicate (lines.length + 1) (.ok none)) := by
  constructor
  · intro line oneLine reader belongs steady
    have follows : reader.Follows :=
      Follows.fresh.results fun other member => oneLine other (List.mem_append_left _ member)
    have oneLine : '\n' ∉ line.toList := oneLine line (by simp)
    obtain ⟨earlier, answer, split, settled, pending⟩ := pending_results lines
    refine ⟨⟨earlier, answer, split, settled, ?_⟩, ?_, fun complete => ⟨?_, ?_⟩⟩
    · rw [text, pending]
      simp [Text.joined]
    · intro tree read
      exact follows.complete_of_read oneLine belongs steady read
    · have fresh : ReplyReader.Settled {} := fun _ => rfl
      exact ((fresh.results lines).feed line).2 complete
    · intro more tree longer
      exact follows.read_of_complete oneLine belongs steady complete longer
  · intro word isWord line
    have whole : text {} line = Sexp.oneWord word ++ ['\n'] := by simp [text, line]
    refine ⟨whole ▸ isWord.read_oneWord, feed_oneWord isWord, fun odd noBar => ?_⟩
    rw [results_cons, (feed_oneWord isWord).mpr odd, (inSymbol_oneWord isWord odd).results noBar]
    rfl

/-- An answer over lines whose atoms hold bars, quotes and parentheses. -/
def barredLines : List String := ["( ; |", "|a"]

def barredTree : Sexp := .list [.atom "|a\nb) |", .atom "\"c\"\"|\"", .atom "d|e|"]

theorem barredLines_complete :
    let line := "b) |\"c\"\"|\" d|e|)"
    let reader := (results {} barredLines).2
    (results {} barredLines).1 = [.ok none, .ok none] ∧
      Sexp.read (String.ofList (reader.text line)) = .ok barredTree ∧
      (reader.feed line).1 ≠ .ok none ∧
      (results {} ["(f|)", "sat", "(error \"g\")"]).1 = [.ok none, .ok none, .ok none] := by
  intro line reader
  obtain ⟨agrees, _⟩ := line_scan_agrees barredLines
  obtain ⟨_, misleads⟩ := line_scan_agrees ["sat", "(error \"g\")"]
  have read : Sexp.read (String.ofList (reader.text line)) = .ok barredTree := by
    rw [Sexp.read_ofList_eq_ok_iff]
    decide +kernel
  have oneLine : ∀ other ∈ barredLines ++ [line], '\n' ∉ other.toList := by decide
  have belongs : reader.Belongs line := .inl (by decide +kernel)
  have steady : (Lexer.run {} (reader.text line)).Steady := by
    have found := Sexp.tokenize_lines.mp (Sexp.read_ofList_eq_ok_iff.mp read)
    intro name member
    rw [text, found] at member
    simp only [barredTree, Sexp.tokens_list, Sexp.flatten_cons, Sexp.tokens_atom] at member
    simp only [Sexp.flatten_nil, List.append_nil, List.cons_append, List.nil_append,
      List.reverse_cons, List.reverse_nil, List.mem_cons, reduceCtorEq, Sexp.Token.atom.injEq,
      List.not_mem_nil, or_self, or_false, false_or] at member
    rcases member with rfl | rfl | rfl <;> decide
  have word : Sexp.IsWord ['f', '|'] := by
    refine ⟨by decide, by decide, ?_⟩
    intro c member
    simp only [List.mem_cons, List.not_mem_nil, or_false] at member
    rcases member with rfl | rfl <;> rfl
  obtain ⟨_, _, swallows⟩ := misleads _ word
  refine ⟨rfl, read, (agrees line oneLine belongs steady).2.1 barredTree read, ?_⟩
  exact swallows rfl (by decide)

/-- A bar in a word makes the reader miss the end of an answer, and the answers that follow; two
words with a bar make it stop before the end of an answer. -/
theorem odd_bar_misleads :
    Sexp.read "(a|b)\n" = .ok (.list [.atom "a|b"]) ∧
      (results {} ["(a|b)", "sat"]).1 = [.ok none, .ok none] ∧
      Sexp.read "(a|( b|)\n)" = .ok (.list [.atom "a|", .list [.atom "b|"]]) ∧
      (feed "(a|( b|)" {}).1 = .error (.parse "Unbalanced parentheses") := by
  refine ⟨?_, rfl, ?_, rfl⟩
  · decide +kernel
  · decide +kernel

end ReplyReader

end SmtSession

import SmtSession.Proofs.Openness

namespace SmtSession

namespace Text

/-- The text of lines, each with its line end. -/
def joined (lines : List String) : List Char := lines.flatMap fun line => line.toList ++ ['\n']

/-- What may follow an answer on its last line: blanks, and a comment. -/
inductive IsLineRest : List Char → Prop where
  | blanks {cs : List Char} : IsBlankRun cs → '\n' ∉ cs → IsLineRest cs
  | comment {cs note : List Char} : IsBlankRun cs → '\n' ∉ cs → '\n' ∉ note →
      IsLineRest (cs ++ ';' :: note)

@[simp] theorem joined_cons (line : String) (rest : List String) :
    joined (line :: rest) = line.toList ++ '\n' :: joined rest := by simp [joined]

theorem IsLineRest.oneLine {cs : List Char} (rest : IsLineRest cs) : '\n' ∉ cs := by
  cases rest with
  | blanks _ oneLine => exact oneLine
  | comment _ oneLine oneLineNote =>
    intro member
    rcases List.mem_append.mp member with member | member
    · exact oneLine member
    · rcases List.mem_cons.mp member with same | member
      · cases same
      · exact oneLineNote member

end Text

namespace Sexp

open Text (IsBlankRun IsLineRest)

theorem Seals.lineRest {cs : List Char} (rest : IsLineRest cs) : Seals (cs ++ ['\n']) [] := by
  cases rest with
  | blanks blank _ => exact (Seals.blanks blank).append (Seals.blank rfl)
  | @comment cs note blank _ oneLine =>
    have split : cs ++ ';' :: note ++ ['\n'] = cs ++ (';' :: note ++ ['\n']) := by simp
    rw [split]
    exact (Seals.blanks blank).append (Seals.comment oneLine)

/-- A list printed on lines of its own: it begins on the first of them and ends on the last. -/
inductive ListLayout (items : List Sexp) : List Char → Prop where
  | intro {lead inner trail : List Char} : IsBlankRun lead → '\n' ∉ lead →
      Layout (flatten items) inner → IsLineRest trail →
      ListLayout items (lead ++ '(' :: (inner ++ ')' :: (trail ++ ['\n'])))

/-- A parenthesis that closes a list completes what was found before it. -/
theorem Lexer.found_before_closing {lexer : Lexer} {rest : List Token}
    (closed : lexer.feed ')' = { found := .closing :: rest }) : lexer.found <:+ rest := by
  obtain ⟨mode, found⟩ := lexer
  cases mode with
  | gap =>
    cases closed
    exact List.suffix_refl found
  | word held | stringQuote held =>
    cases closed
    exact List.suffix_cons _ found
  | comment | string held | symbol held => cases closed

/-- No front of a layout of trees closes more than it opens. -/
theorem Layout.balance_front {items : List Sexp} {inner front : List Char}
    (layout : Layout (flatten items) inner) (part : front <+: inner) :
    0 ≤ balance (Lexer.run {} front).found := by
  obtain ⟨back, rfl⟩ := part
  have closed : (Lexer.run {} (front ++ back)).feed ')' =
      { found := .closing :: (flatten items).reverse } := by
    have ended := layout.spells [] ')' rfl
    rw [List.append_nil] at ended
    exact ended
  have before : (Lexer.run {} front).found <:+ (flatten items).reverse := by
    have grows := Lexer.found_suffix (Lexer.run {} front) back
    rw [← Lexer.run_append] at grows
    exact grows.trans (Lexer.found_before_closing closed)
  have front := (balanced_flatten items).front (Lexer.run {} front).found.reverse
    (by rw [← List.reverse_suffix, List.reverse_reverse]; exact before)
  rwa [balance_reverse] at front

theorem prefix_of_lineEnd {text front back : List Char} (part : text <+: front ++ back)
    (ended : text.getLast? = some '\n') (lastLine : '\n' ∉ back) : text <+: front := by
  rcases prefix_append_cases part with inside | ⟨rest, rfl, later⟩
  · exact inside
  · cases rest with
    | nil => exact ⟨[], by simp⟩
    | cons c rest =>
      rw [List.getLast?_append, List.getLast?_eq_some_getLast (List.cons_ne_nil c rest),
        Option.some_or, ← List.getLast?_eq_some_getLast] at ended
      exact absurd (later.subset (List.mem_of_getLast? ended)) lastLine

/-- Every list with well-formed atoms can be printed on one line. -/
theorem listLayout_chars {items : List Sexp} (formed : EveryAtom (WellFormed ·.toList) items) :
    ListLayout items ((Sexp.list items).chars ++ ['\n']) := by
  have whole : ListLayout items ([] ++ '(' :: (spaced items ++ ')' :: ([] ++ ['\n']))) :=
    .intro Text.isBlankRun_nil List.not_mem_nil (layout_spaced items formed)
      (.blanks Text.isBlankRun_nil List.not_mem_nil)
  simpa using whole

namespace ListLayout

variable {items : List Sexp} {text rest : List Char}

theorem seals (layout : ListLayout items text) : Seals text (.list items : Sexp).tokens := by
  obtain ⟨blank, _, inside, lineRest⟩ := layout
  have closing := Seals.closing.append (Seals.lineRest lineRest)
  have whole := (Seals.blanks blank).append
    (Seals.opening.append (inside.spells.seals_append closing rfl))
  rw [tokens_list]
  exact whole

theorem wellFormed (layout : ListLayout items text) :
    ∀ name, .atom name ∈ (.list items : Sexp).tokens → WellFormed name.toList := by
  obtain ⟨_, _, inside, _⟩ := layout
  intro name member
  refine inside.wellFormed name ?_
  simpa using member

theorem plain (layout : ListLayout items text) : (Lexer.run {} text).Plain := by
  rw [layout.seals []]
  constructor
  · intro name member
    rw [List.append_nil, List.mem_reverse] at member
    exact (layout.wellFormed name member).unbarred
  · intro held inWord
    cases inWord

theorem reads (layout : ListLayout items text) :
    Sexp.read (String.ofList text) = .ok (.list items) := by
  have tokens := layout.seals.spells.tokenize
  have single : readAllChars text = .ok [.list items] := by
    rw [readAllChars_eq_ok_iff, tokens]
    simp
  rw [Sexp.read, readAll, String.toList_ofList, single]

theorem closed (layout : ListLayout items text) :
    (Openness.ofLexer (Lexer.run {} text)).isOpen = false := by
  have balanced := (balanced_tokens (.list items)).whole
  rw [layout.seals [], List.append_nil, Openness.ofLexer, balance_reverse, balanced]
  rfl

theorem first_line (layout : ListLayout items (text ++ '\n' :: rest)) :
    ∃ lead inner, IsBlankRun lead ∧ text = lead ++ '(' :: inner := by
  generalize whole : text ++ '\n' :: rest = all at layout
  obtain ⟨blank, oneLine, _, _⟩ := layout
  rcases List.append_eq_append_iff.mp whole with ⟨more, split, cut⟩ | ⟨more, split, cut⟩
  · cases more with
    | nil => cases cut
    | cons c more =>
      cases cut
      exact absurd (by simp [split]) oneLine
  · cases more with
    | nil => cases cut
    | cons c more =>
      obtain ⟨rfl, _⟩ := List.cons.inj cut
      exact ⟨_, more, blank, split⟩

/-- As long as lines are missing the list is open. -/
theorem open_front (layout : ListLayout items (text ++ rest)) (ended : text.getLast? = some '\n')
    (missing : rest ≠ []) : (Openness.ofLexer (Lexer.run {} text)).isOpen = true := by
  generalize whole : text ++ rest = all at layout
  obtain @⟨lead, inner, trail, blank, oneLine, inside, lineRest⟩ := layout
  -- What is there ends a line, so it ends before the line of the parenthesis that closes the list.
  have lastLine : '\n' ∉ ')' :: trail := by simp [lineRest.oneLine]
  have part : text <+: lead ++ '(' :: inner := by
    have shorter := congrArg List.dropLast whole
    have cut : lead ++ '(' :: (inner ++ ')' :: (trail ++ ['\n'])) =
        ((lead ++ '(' :: inner) ++ ')' :: trail) ++ ['\n'] := by simp
    rw [List.dropLast_append_of_ne_nil missing, cut, List.dropLast_concat] at shorter
    exact prefix_of_lineEnd ⟨_, shorter⟩ ended lastLine
  have begun : ∃ front, text = lead ++ '(' :: front ∧ front <+: inner := by
    rcases prefix_append_cases part with short | ⟨front, rfl, later⟩
    · exact absurd (short.subset (List.mem_of_getLast? ended)) oneLine
    · rcases List.prefix_cons_iff.mp later with rfl | ⟨front, rfl, inFront⟩
      · rw [List.append_nil] at ended
        exact absurd (List.mem_of_getLast? ended) oneLine
      · exact ⟨front, rfl, inFront⟩
  obtain ⟨front, rfl, later⟩ := begun
  have inFront := inside.balance_front later
  have opened := (Seals.blanks blank).append Seals.opening []
  have split : lead ++ '(' :: front = (lead ++ ['(']) ++ front := by simp
  rw [split, Lexer.run_append, opened, Lexer.run_found]
  have deep : 0 < balance ((Lexer.run {} front).found ++ [.opening]) := by
    rw [balance_append]
    show 0 < balance (Lexer.run {} front).found + 1
    omega
  have deep' := decide_eq_true deep
  simp only [Openness.isOpen, Openness.ofLexer, Lexer.above, Bool.or_eq_true]
  exact .inl (.inl deep')

end ListLayout

end Sexp

end SmtSession

import SmtSession.Proofs.Framing

namespace SmtSession

namespace ReplyReader

open Sexp (Lexer ListLayout)

def results (reader : ReplyReader) :
    List String → List (Except SolverError (Option ReplyEvent)) × ReplyReader
  | [] => ([], reader)
  | line :: rest =>
    let (result, reader) := reader.feed line
    let (later, reader) := reader.results rest
    (result :: later, reader)

theorem results_cons (reader : ReplyReader) (line : String) (rest : List String) :
    reader.results (line :: rest) =
      ((reader.feed line).1 :: ((reader.feed line).2.results rest).1,
        ((reader.feed line).2.results rest).2) := rfl

theorem results_append (reader : ReplyReader) (first second : List String) :
    reader.results (first ++ second) =
      ((reader.results first).1 ++ ((reader.results first).2.results second).1,
        ((reader.results first).2.results second).2) := by
  induction first generalizing reader with
  | nil => rfl
  | cons line rest ih => simp [results_cons, ih]

/-- The reader inside an answer of which it has the text. -/
def inside (text : List Char) : ReplyReader where
  pending := text
  openness := .ofLexer (Lexer.run {} text)

/-- The lines of an answer so far: none, or whole lines. -/
def IsWholeLines (text : List Char) : Prop := text = [] ∨ text.getLast? = some '\n'

theorem code_after_wholeLines {text : List Char} (whole : IsWholeLines text) :
    (Lexer.run {} text).mode ≠ .comment := by
  rcases whole with rfl | ended
  · nofun
  · obtain ⟨before, rfl⟩ := List.getLast?_eq_some_iff.mp ended
    rw [Lexer.run_append]
    exact Openness.code_after_lineEnd _

/-- A line inside an answer, or one that begins with a parenthesis, belongs to an S-expression. -/
def Belongs (line : String) (reader : ReplyReader) : Prop :=
  reader.pending ≠ [] ∨ (Text.trim line.toList).head? = some '('

theorem feed_eq_extend {line : String} {reader : ReplyReader} (belongs : reader.Belongs line) :
    reader.feed line = reader.extend line.toList := by
  by_cases inAnswer : reader.pending = []
  · have first : (Text.trim line.toList).head? = some '(' :=
      belongs.resolve_left fun pending => pending inAnswer
    have answers : isIgnorable (Text.trim line.toList) = false := by
      unfold isIgnorable
      generalize Text.trim line.toList = word at first
      cases word with
      | nil => cases first
      | cons c word =>
        cases first
        rfl
    simp [feed, feedChars, inAnswer, answers, first]
  · simp [feed, feedChars, inAnswer]

section Answer

variable {items : List Sexp} {text rest : List Char} {line : String}

/-- A line that begins a list or stands inside an answer is added to it. -/
theorem feed_inside (layout : ListLayout items (text ++ (line.toList ++ '\n' :: rest))) :
    (inside text).feed line = (inside text).extend line.toList := by
  refine feed_eq_extend ?_
  cases text with
  | cons c text => exact .inl (List.cons_ne_nil c text)
  | nil =>
    obtain ⟨lead, inner, blank, begins⟩ := layout.first_line
    right
    rw [begins]
    exact Text.head?_trim inner blank rfl

/-- The reader follows the lines of a list up to the last, which completes it. -/
theorem extend_inside {event : ReplyEvent}
    (layout : ListLayout items (text ++ (line.toList ++ '\n' :: rest)))
    (whole : IsWholeLines text) (oneLine : '\n' ∉ line.toList)
    (gives : ReplyEvent.ofSexp (.list items) = .ok event) :
    (inside text).extend line.toList =
      if rest = [] then (.ok (some event), {})
      else (.ok none, inside (text ++ line.toList ++ ['\n'])) := by
  have split : text ++ (line.toList ++ '\n' :: rest) =
      (text ++ line.toList ++ ['\n']) ++ rest := by simp
  rw [split] at layout
  have plain : (Lexer.run {} (text ++ line.toList)).Plain := by
    have all := layout.plain
    rw [List.append_assoc, Lexer.run_append] at all
    exact all.before_run (Lexer.Begun.run (by nofun) _)
  have followed : (inside text).openness.scan line.toList =
      .ofLexer (Lexer.run {} (text ++ line.toList ++ ['\n'])) := by
    rw [Lexer.run_append] at plain
    rw [Lexer.run_append, Lexer.run_append]
    refine (Openness.scan_run (code_after_wholeLines whole) (Lexer.Begun.run (by nofun) _) plain
      oneLine).trans ?_
    exact (Openness.ofLexer_lineEnd _).symm
  by_cases last : rest = []
  · subst last
    rw [List.append_nil] at layout
    have read : ReplyEvent.ofText (String.ofList (text ++ line.toList ++ ['\n'])) = .ok event := by
      rw [ReplyEvent.ofText, layout.reads]
      exact gives
    simp only [extend, followed, layout.closed, ↓reduceIte]
    exact congrArg (fun read => (Except.map some read, ({} : ReplyReader))) read
  · have opened := layout.open_front (by simp) last
    simp only [extend, followed, opened, ↓reduceIte, if_neg last]
    rfl

/-- The lines of a list give nothing up to the last, which gives what the list says. -/
theorem results_inside {event : ReplyEvent} {lines : List String}
    (layout : ListLayout items (text ++ Text.joined lines)) (some : lines ≠ [])
    (whole : IsWholeLines text) (oneLine : ∀ line ∈ lines, '\n' ∉ line.toList)
    (gives : ReplyEvent.ofSexp (.list items) = .ok event) :
    (inside text).results lines =
      (List.replicate (lines.length - 1) (.ok none) ++ [.ok (.some event)], {}) := by
  induction lines generalizing text with
  | nil => exact absurd rfl some
  | cons line rest ih =>
    rw [Text.joined_cons] at layout
    have step := (feed_inside layout).trans
      (extend_inside layout whole (oneLine line List.mem_cons_self) gives)
    cases rest with
    | nil => simp [results, step, Text.joined]
    | cons next rest =>
      have more : Text.joined (next :: rest) ≠ [] := by simp
      have longer : ListLayout items
          (text ++ line.toList ++ ['\n'] ++ Text.joined (next :: rest)) := by simpa using layout
      have later := ih longer (List.cons_ne_nil next rest) (.inr (by simp))
        (fun other member => oneLine other (List.mem_cons_of_mem line member))
      rw [if_neg more] at step
      rw [results_cons, step, later]
      rfl

end Answer

end ReplyReader

/-- The words that answer a check, with what they say. -/
def Outcome.tokens : List (String × Outcome) :=
  [("sat", .sat), ("unsat", .unsat), ("unknown", .unknown "unknown"), ("timeout", .timeout)]

namespace Text

/-- A line outside an answer that answers nothing. -/
inductive IsSilent (line : String) : Prop where
  | blank : IsBlankRun line.toList → IsSilent line
  | success {lead trail : List Char} : IsBlankRun lead → IsBlankRun trail →
      line.toList = lead ++ "success".toList ++ trail → IsSilent line
  | comment {lead note : List Char} : IsBlankRun lead → line.toList = lead ++ ';' :: note →
      IsSilent line

end Text

/-- A piece of a solver's output, with what it says: a line that answers nothing, the answer to a
check on one line, or a list over one line or more. -/
inductive Prints : List String → Option ReplyEvent → Prop where
  | silent {line : String} : Text.IsSilent line → Prints [line] none
  | word {line token : String} {outcome : Outcome} {lead trail : List Char} :
      (token, outcome) ∈ Outcome.tokens → Text.IsBlankRun lead → Text.IsBlankRun trail →
      line.toList = lead ++ token.toList ++ trail → Prints [line] (some (.outcome outcome))
  | tree {lines : List String} {items : List Sexp} {event : ReplyEvent} :
      Sexp.ListLayout items (Text.joined lines) → (∀ line ∈ lines, '\n' ∉ line.toList) →
      ReplyEvent.ofSexp (.list items) = .ok event → Prints lines (some event)

namespace ReplyReader

theorem feed_silent {line : String} (silent : Text.IsSilent line) :
    feed line {} = (.ok none, {}) := by
  have passed : isIgnorable (Text.trim line.toList) = true := by
    cases silent with
    | blank blank =>
      have nothing : Text.trim line.toList = [] := by
        have framed := Text.trim_framed (Text.isTrimmed_of_dark Text.isDark_nil) blank
          Text.isBlankRun_nil
        simpa using framed
      rw [nothing]
      rfl
    | success blankLead blankTrail written =>
      rw [written, Text.trim_framed (by constructor <;> (intro c same; cases same; rfl)) blankLead
        blankTrail]
      rfl
    | @comment lead note blank written =>
      have first := Text.head?_trim note blank (c := ';') rfl
      rw [written, isIgnorable, first]
      simp
  simp [feed, feedChars, passed]

theorem feed_word {line token : String} {outcome : Outcome} {lead trail : List Char}
    (known : (token, outcome) ∈ Outcome.tokens) (blankLead : Text.IsBlankRun lead)
    (blankTrail : Text.IsBlankRun trail) (written : line.toList = lead ++ token.toList ++ trail) :
    feed line {} = (.ok (some (.outcome outcome)), {}) := by
  simp only [Outcome.tokens, List.mem_cons, Prod.mk.injEq, List.not_mem_nil, or_false] at known
  have trimmed : Text.IsTrimmed token.toList := by
    rcases known with ⟨rfl, rfl⟩ | ⟨rfl, rfl⟩ | ⟨rfl, rfl⟩ | ⟨rfl, rfl⟩ <;>
      constructor <;> (intro c same; cases same; rfl)
  simp only [feed, feedChars, written, Text.trim_framed trimmed blankLead blankTrail]
  rcases known with ⟨rfl, rfl⟩ | ⟨rfl, rfl⟩ | ⟨rfl, rfl⟩ | ⟨rfl, rfl⟩ <;> rfl

/-- The lines of one piece give what it says, at the last of them. -/
theorem results_piece {lines : List String} {event? : Option ReplyEvent}
    (printed : Prints lines event?) :
    results {} lines = (List.replicate (lines.length - 1) (.ok none) ++ [.ok event?], {}) := by
  cases printed with
  | silent silent => simp [results, feed_silent silent]
  | word known blankLead blankTrail written =>
    simp [results, feed_word known blankLead blankTrail written]
  | @tree _ items _ layout oneLine gives =>
    have some : lines ≠ [] := by
      rintro rfl
      have nothing : Sexp.ListLayout _ [] := layout
      generalize none : ([] : List Char) = text at nothing
      cases nothing
      simp at none
    have fromStart : Sexp.ListLayout items ([] ++ Text.joined lines) := layout
    exact results_inside fromStart some (.inl rfl) oneLine gives

/-- Between answers the reader is as in the beginning. -/
def Settled (reader : ReplyReader) : Prop := reader.pending = [] → reader = {}

theorem Settled.extend (line : List Char) (reader : ReplyReader) :
    (reader.extend line).2.Settled ∧
      ((reader.extend line).1 ≠ .ok none → (reader.extend line).2 = {}) := by
  by_cases opened : (reader.openness.scan line).isOpen = true
  · simp only [ReplyReader.extend, opened, ↓reduceIte]
    exact ⟨fun nothing => by simp at nothing, fun answers => absurd rfl answers⟩
  · simp only [ReplyReader.extend, opened]
    exact ⟨fun _ => rfl, fun _ => rfl⟩

theorem Settled.feed {reader : ReplyReader} (settled : reader.Settled) (line : String) :
    (reader.feed line).2.Settled ∧
      ((reader.feed line).1 ≠ .ok none → (reader.feed line).2 = {}) := by
  unfold ReplyReader.feed feedChars
  by_cases inAnswer : reader.pending.isEmpty = true
  · have fresh : reader = {} := settled (List.isEmpty_iff.mp inAnswer)
    subst fresh
    simp only [inAnswer, Bool.not_true, Bool.false_eq_true, ↓reduceIte]
    split
    · exact ⟨settled, fun answers => absurd rfl answers⟩
    · split
      · exact Settled.extend _ _
      · exact ⟨settled, fun _ => rfl⟩
  · simp only [inAnswer, Bool.not_false, ↓reduceIte]
    exact Settled.extend _ _

theorem Settled.results {reader : ReplyReader} (settled : reader.Settled) (lines : List String) :
    (reader.results lines).2.Settled := by
  induction lines generalizing reader with
  | nil => exact settled
  | cons line rest ih => exact ih (settled.feed line).1

/-- What a solver that prints these pieces makes the reader give, line by line. -/
def lineByLine (pieces : List (List String × Option ReplyEvent)) :
    List (Except SolverError (Option ReplyEvent)) :=
  pieces.flatMap fun (lines, event?) => List.replicate (lines.length - 1) (.ok none) ++ [.ok event?]

theorem results_lineByLine {pieces : List (List String × Option ReplyEvent)}
    (printed : ∀ piece ∈ pieces, Prints piece.1 piece.2) :
    results {} (pieces.flatMap (·.1)) = (lineByLine pieces, {}) := by
  induction pieces with
  | nil => rfl
  | cons piece rest ih =>
    have first := results_piece (printed piece List.mem_cons_self)
    have later := ih (fun other member => printed other (List.mem_cons_of_mem piece member))
    rw [List.flatMap_cons, results_append, first, later]
    rfl

theorem events_lineByLine (pieces : List (List String × Option ReplyEvent)) :
    (lineByLine pieces).filterMap (·.toOption.join) = pieces.filterMap (·.2) := by
  induction pieces with
  | nil => rfl
  | cons piece rest ih =>
    obtain ⟨lines, event?⟩ := piece
    rw [lineByLine, List.flatMap_cons, List.filterMap_append, ← lineByLine, ih]
    cases event? <;> simp [Except.toOption]

/-- However answers and silent lines follow each other, every line gives nothing but the last of an
answer, which gives what the answer says; so the events are the answers in order. After every line
that gives an event or an error, of any output, the reader is as in the beginning. -/
theorem results_of_pieces {pieces : List (List String × Option ReplyEvent)}
    (printed : ∀ piece ∈ pieces, Prints piece.1 piece.2) :
    results {} (pieces.flatMap (·.1)) = (lineByLine pieces, {}) ∧
      (results {} (pieces.flatMap (·.1))).1.filterMap (·.toOption.join) = pieces.filterMap (·.2) ∧
      ∀ lines line, ((results {} lines).2.feed line).1 ≠ .ok none →
        ((results {} lines).2.feed line).2 = {} := by
  have given := results_lineByLine printed
  refine ⟨given, ?_, ?_⟩
  · rw [given]
    exact events_lineByLine pieces
  · intro lines line answers
    have settled : ReplyReader.Settled {} := fun _ => rfl
    exact ((settled.results lines).feed line).2 answers

/-- The items of a model whose text, name and string hold parentheses, bars, comments and a line
end. -/
def crowdedModel : List Sexp :=
  [.list [.atom "define-fun", .atom "|a ) \"b|", .list [], .atom "String",
    .atom "\"one \"\"|\"\" (;\ntwo\""]]

/-- An output in which that model stands between other answers. -/
def crowdedOutput : List (List String × Option ReplyEvent) :=
  [(["; ready"], none), (["success"], none), ([" sat"], some (.outcome .sat)), ([""], none),
    ([" ( ; values follow (", "(define-fun |a ) \"b| ()String ; |", "\"one \"\"|\"\" (;", "two\")) ; )"],
      some (.model { assignments := [("|a ) \"b|", "\"one \"\"|\"\" (;\ntwo\"")] })),
    (["timeout"], some (.outcome .timeout))]

theorem crowdedModel_layout : Sexp.ListLayout crowdedModel
    (Text.joined [" ( ; values follow (", "(define-fun |a ) \"b| ()String ; |", "\"one \"\"|\"\" (;",
      "two\")) ; )"]) := by
  have keyword : Sexp.WellFormed "define-fun".toList := .word (by decide)
  have sort : Sexp.WellFormed "String".toList := .word (by decide)
  have name : Sexp.WellFormed "|a ) \"b|".toList := 
    @Sexp.WellFormed.symbol "a ) \"b".toList (by decide)
  have value : Sexp.WellFormed "\"one \"\"|\"\" (;\ntwo\"".toList :=
    .string "one \"|\" (;\ntwo".toList
  have firstNote : '\n' ∉ " values follow (".toList := by decide
  have secondNote : '\n' ∉ " |".toList := by decide
  have inner : Sexp.Layout (Sexp.flatten crowdedModel) _ :=
    .blank (c := ' ') rfl (.comment firstNote
      (.opening (.atom keyword (by rintro c ⟨⟩; rfl) (.blank (c := ' ') rfl
        (.atom name (by rintro c ⟨⟩; rfl) (.blank (c := ' ') rfl (.opening (.closing
          (.atom sort (by rintro c ⟨⟩; rfl) (.blank (c := ' ') rfl
            (.comment secondNote
              (.atom value (by rintro c ⟨⟩; rfl) (.closing .done)))))))))))))
  have lead : Text.IsBlankRun [' '] := by decide
  have trail : Text.IsLineRest " ; )".toList :=
    @Text.IsLineRest.comment [' '] " )".toList lead (by decide) (by decide)
  exact .intro lead (by decide) inner trail

theorem crowdedOutput_heard :
    (∀ piece ∈ crowdedOutput, Prints piece.1 piece.2) ∧
      (results {} (crowdedOutput.flatMap (·.1))).1.filterMap (·.toOption.join) =
        [.outcome .sat,
          .model { assignments := [("|a ) \"b|", "\"one \"\"|\"\" (;\ntwo\"")] },
          .outcome .timeout] := by
  have lead : Text.IsBlankRun [' '] := by decide
  have sat : ("sat", Outcome.sat) ∈ Outcome.tokens := by decide
  have timeout : ("timeout", Outcome.timeout) ∈ Outcome.tokens := by decide
  have printed : ∀ piece ∈ crowdedOutput, Prints piece.1 piece.2 := by
    intro piece member
    simp only [crowdedOutput, List.mem_cons, List.not_mem_nil, or_false] at member
    rcases member with rfl | rfl | rfl | rfl | rfl | rfl
    · exact .silent (@Text.IsSilent.comment _ [] " ready".toList Text.isBlankRun_nil rfl)
    · exact .silent (.success Text.isBlankRun_nil Text.isBlankRun_nil rfl)
    · exact .word sat lead Text.isBlankRun_nil rfl
    · exact .silent (.blank (by decide))
    · exact .tree crowdedModel_layout (by decide) rfl
    · exact .word timeout Text.isBlankRun_nil Text.isBlankRun_nil rfl
  exact ⟨printed, (results_of_pieces printed).2.1⟩

end ReplyReader

end SmtSession

import SmtSession.Emitter
import SmtSession.Proofs.Rendering
import SmtSession.Proofs.Trimming
import SmtSession.SmtSort

/-! The text of a stream: what a solver that reads a whole stream finds in it. Every command is
found as what its own text reads as, and nothing runs over from one command into the next. -/
namespace SmtSession

namespace Sexp

/-- A blank only completes what would be complete at the end of the text. -/
theorem Lexer.finish_of_feed_blank {lexer : Lexer} {c : Char} {tokens : List Token}
    (white : Text.isBlank c = true) (read : (lexer.feed c).finish = .ok tokens) :
    lexer.finish = .ok tokens := by
  have noQuote : c ≠ '"' := by
    rintro rfl
    cases white
  have noBar : c ≠ '|' := by
    rintro rfl
    cases white
  have ends : endsWord c = true := by simp [endsWord, white]
  have gap (found : List Token) : feed { found } c = { found } := Seals.blank white found
  obtain ⟨mode, found⟩ := lexer
  cases mode with
  | gap =>
    rw [gap] at read
    exact read
  | comment =>
    simp only [feed] at read
    split at read <;> exact read
  | word held =>
    simp only [feed, ends, ↓reduceIte] at read
    rw [show (emitAtom held ⟨.word held, found⟩).feedGap c = emitAtom held ⟨.word held, found⟩
      from gap _] at read
    exact read
  | stringQuote held =>
    simp only [feed, noQuote, ↓reduceIte] at read
    rw [show (emitAtom held ⟨.stringQuote held, found⟩).feedGap c =
      emitAtom held ⟨.stringQuote held, found⟩ from gap _] at read
    exact read
  | string held =>
    simp only [feed, noQuote, ↓reduceIte] at read
    cases read
  | symbol held =>
    simp only [feed, noBar, ↓reduceIte] at read
    cases read

theorem Lexer.finish_of_run_blanks {lexer : Lexer} {trail : List Char} {tokens : List Token}
    (blank : Text.IsBlankRun trail) (read : (lexer.run trail).finish = .ok tokens) :
    lexer.finish = .ok tokens := by
  induction trail generalizing lexer with
  | nil => exact read
  | cons c rest ih =>
    have later := ih (fun d member => blank d (List.mem_cons_of_mem c member)) read
    exact finish_of_feed_blank (blank c List.mem_cons_self) later

theorem tokenize_trim {cs : List Char} {tokens : List Token} (read : tokenize cs = .ok tokens) :
    tokenize (Text.trim cs) = .ok tokens := by
  obtain ⟨lead, trail, blankLead, blankTrail, split⟩ := Text.trim_split cs
  rw [split] at read
  simp only [tokenize, Lexer.run_append] at read ⊢
  rw [Seals.blanks blankLead []] at read
  exact Lexer.finish_of_run_blanks blankTrail read

theorem readAllChars_trim {cs : List Char} {trees : List Sexp}
    (read : readAllChars cs = .ok trees) : readAllChars (Text.trim cs) = .ok trees := by
  rw [readAllChars_eq_ok_iff] at read ⊢
  exact tokenize_trim read

end Sexp

namespace Declarations

theorem head_of_checkCommand {item : Sexp} (checked : checkCommand item = .ok ()) :
    ∃ head ∈ assertableHeads, item.head? = some head := by
  unfold checkCommand at checked
  cases known : item.head? with
  | none =>
    rw [known] at checked
    cases checked
  | some head =>
    rw [known] at checked
    by_cases allowed : head ∈ assertableHeads
    · exact ⟨head, allowed, rfl⟩
    · simp only [allowed, ↓reduceIte] at checked
      cases checked

theorem head_of_ofCommands {items : List Sexp} {declared : List (String × SmtSort)}
    (accepted : ofCommands items = .ok declared) :
    ∀ item ∈ items, ∃ head ∈ assertableHeads, item.head? = some head := by
  induction items generalizing declared with
  | nil =>
    intro item member
    cases member
  | cons first rest ih =>
    unfold ofCommands at accepted
    cases checked : checkCommand first with
    | error err =>
      rw [checked] at accepted
      cases accepted
    | ok _ =>
      rw [checked] at accepted
      cases later : ofCommands rest with
      | error err =>
        rw [later] at accepted
        cases accepted
      | ok others => exact List.forall_mem_cons.mpr ⟨head_of_checkCommand checked, ih later⟩

/-- An assertable text reads as commands that declare, define or assert. -/
theorem ofText_reads {text : String} {declared : List (String × SmtSort)}
    (accepted : ofText text = .ok declared) :
    ∃ items, Sexp.readAll text = .ok items ∧
      ∀ item ∈ items, ∃ head ∈ assertableHeads, item.head? = some head := by
  unfold ofText at accepted
  cases read : Sexp.readAll text with
  | error err =>
    rw [read] at accepted
    cases accepted
  | ok items =>
    rw [read] at accepted
    exact ⟨items, rfl, head_of_ofCommands accepted⟩

end Declarations

namespace Sexp

theorem head?_eq_some_iff {item : Sexp} {head : String} :
    item.head? = some head ↔ ∃ rest, item = .list (.atom head :: rest) := by
  cases item with
  | atom text => simp [head?, items?]
  | list items =>
    cases items with
    | nil => simp [head?, items?]
    | cons first rest => cases first <;> simp [head?, items?, atom?]

/-- Commands that move in the stack, ask for a reply or end the session. -/
def isControl (item : Sexp) : Bool :=
  item.head?.any fun head => head ∈ ["push", "pop", "reset", "check-sat", "get-model", "exit"]

end Sexp

namespace Command

def items (command : Command) : List Sexp :=
  match Sexp.readAll command.text with
  | .ok items => items
  | .error _ => []

/-- The tree of a command that moves in the stack, asks for a reply or ends the session. -/
def control? : Command → Option Sexp
  | .declareConst .. | .assert _ | .verbatim _ => none
  | command => command.tree?

/-- The names in a command are single atoms, and text may be asserted. -/
structure Readable (command : Command) : Prop where
  named : ∀ name ∈ command.names, Sexp.IsAtom name
  assertable : ∀ text, command = .verbatim text → ∃ declared, Declarations.ofText text = .ok declared

/-- What a command has to contribute to a stream: one list with its word at the head, or the lists
of an assertable text, which are those of the text before it is trimmed. -/
def Contributes (command : Command) (items : List Sexp) : Prop :=
  match command with
  | .verbatim text => Sexp.readAll text = .ok items ∧
      ∀ item ∈ items, ∃ head ∈ Declarations.assertableHeads, ∃ rest,
        item = .list (.atom head :: rest)
  | command => ∃ keyword operands, command.keyword? = some keyword ∧
      items = [.list (.atom keyword :: operands)]

theorem tree?_isSome_or_verbatim (command : Command) :
    (∃ text, command = .verbatim text) ∨
      ∃ keyword, command.keyword? = some keyword ∧
        command.tree? = some (.list (.atom keyword :: command.operands)) := by
  cases command with
  | verbatim text => exact .inl ⟨text, rfl⟩
  | _ => exact .inr ⟨_, rfl, rfl⟩

theorem items_of_read {command : Command} {items : List Sexp}
    (read : Sexp.readAll command.text = .ok items) : command.items = items := by
  rw [Command.items, read]

theorem Readable.reads {command : Command} (readable : command.Readable) :
    Sexp.readAll command.text = .ok command.items ∧ command.Contributes command.items ∧
      command.items.filter Sexp.isControl = command.control?.toList := by
  rcases command.tree?_isSome_or_verbatim with ⟨text, rfl⟩ | ⟨keyword, begins, written⟩
  · obtain ⟨declared, accepted⟩ := readable.assertable text rfl
    obtain ⟨items, read, heads⟩ := Declarations.ofText_reads accepted
    have sent : Sexp.readAll (Command.verbatim text).text = .ok items := by
      rw [Sexp.readAll, Command.text, String.toList_ofList]
      exact Sexp.readAllChars_trim read
    rw [items_of_read sent]
    refine ⟨sent, ⟨read, ?_⟩, ?_⟩
    · intro item member
      obtain ⟨head, allowed, begins⟩ := heads item member
      exact ⟨head, allowed, Sexp.head?_eq_some_iff.mp begins⟩
    · refine List.filter_eq_nil_iff.mpr ?_
      intro item member
      obtain ⟨head, allowed, begins⟩ := heads item member
      simp only [Declarations.assertableHeads, List.mem_cons, List.not_mem_nil, or_false] at allowed
      rw [Sexp.isControl, begins]
      rcases allowed with rfl | rfl | rfl | rfl | rfl | rfl <;> decide
  · have sent := readAll_text written readable.named
    rw [items_of_read sent]
    refine ⟨sent, ?_, ?_⟩
    · cases command <;> first | exact ⟨keyword, _, begins, rfl⟩ | cases begins
    · cases command <;> cases begins <;> rfl

end Command

namespace Stream

/-- The stream after some commands were sent to one without a limit. -/
def carrying (commands : List Command) : Stream :=
  commands.foldl (fun stream command => (stream.send command).2) {}

theorem written_foldl (commands : List Command) (stream : Stream) (unlimited : stream.room = none) :
    commands.foldl (fun stream command => (stream.send command).2) stream =
      { stream with written := stream.written ++ commands.flatMap line } := by
  induction commands generalizing stream with
  | nil => simp
  | cons command rest ih =>
    have sent : (stream.send command).2 =
        { stream with written := stream.written ++ line command } := by
      simp [send, write, unlimited]
    rw [List.foldl_cons, sent, ih { stream with written := stream.written ++ line command } unlimited]
    simp

theorem text_carrying (commands : List Command) :
    (carrying commands).text = String.ofList (commands.flatMap line) := by
  rw [carrying, written_foldl commands {} rfl]
  simp [text]

theorem readAllChars_lines {commands : List Command}
    (readable : ∀ command ∈ commands, command.Readable) :
    Sexp.readAllChars (commands.flatMap line) = .ok (commands.flatMap Command.items) := by
  induction commands with
  | nil => rfl
  | cons command rest ih =>
    have first := (readable command List.mem_cons_self).reads.1
    have later := ih (fun other member => readable other (List.mem_cons_of_mem command member))
    rw [Sexp.readAll, Command.text, String.toList_ofList] at first
    have both := Sexp.readAllChars_line_append first later
    simpa [List.flatMap_cons, line] using both

theorem filter_isControl_items {commands : List Command}
    (readable : ∀ command ∈ commands, command.Readable) :
    (commands.flatMap Command.items).filter Sexp.isControl =
      commands.filterMap Command.control? := by
  induction commands with
  | nil => rfl
  | cons command rest ih =>
    have first := (readable command List.mem_cons_self).reads.2.2
    have later := ih (fun other member => readable other (List.mem_cons_of_mem command member))
    rw [List.flatMap_cons, List.filter_append, first, later, List.filterMap_cons]
    cases command.control? <;> rfl

/-- A stream reads back as the commands that were sent, each as what its own text reads as. What is
seen in it of the stack, of queries and of the end is what was sent of them. -/
theorem carrying_reads_back {commands : List Command}
    (readable : ∀ command ∈ commands, command.Readable) :
    Sexp.readAll (carrying commands).text = .ok (commands.flatMap Command.items) ∧
      (∀ command ∈ commands, Sexp.readAll command.text = .ok command.items ∧
        command.Contributes command.items) ∧
      (commands.flatMap Command.items).filter Sexp.isControl =
        commands.filterMap Command.control? := by
  refine ⟨?_, ?_, ?_⟩
  · rw [text_carrying, Sexp.readAll, String.toList_ofList]
    exact readAllChars_lines readable
  · intro command member
    have reads := (readable command member).reads
    exact ⟨reads.1, reads.2.1⟩
  · exact filter_isControl_items readable

/-- Commands whose texts try to run over into the next: names and literals with parentheses, a line
end inside a literal, comments that are not ended, blanks around text. -/
def sprawling : List Command :=
  [.declareConst "|a ) b|" (.uninterpreted "U"),
    .verbatim "\n(define-fun f () String \"(push 7) ;\n\") ; not (ended",
    .assert (.binary .eq (.app "f" []) (.stringLit "\" (exit) ;")),
    .push 2, .verbatim " ; (reset) \u2003", .checkSat]

theorem sprawling_reads_back :
    (∀ command ∈ sprawling, command.Readable) ∧
      Sexp.readAll (carrying sprawling).text = .ok (sprawling.flatMap Command.items) ∧
      (sprawling.flatMap Command.items).filter Sexp.isControl =
        [.list [.atom "push", .atom "2"], .list [.atom "check-sat"]] := by
  have plain {command : Command} (named : ∀ name ∈ command.names, Sexp.IsAtom name)
      (noText : ∀ text, command ≠ .verbatim text) : command.Readable :=
    ⟨named, fun text same => absurd same (noText text)⟩
  have readable : ∀ command ∈ sprawling, command.Readable := by
    intro command member
    simp only [sprawling, List.mem_cons, List.not_mem_nil, or_false] at member
    rcases member with rfl | rfl | rfl | rfl | rfl | rfl
    · refine plain ?_ (fun text same => by cases same)
      intro name member
      simp only [Command.names, SmtSort.names, List.mem_cons, List.not_mem_nil, or_false] at member
      rcases member with rfl | rfl <;> rfl
    · refine ⟨fun name member => (by cases member), ?_⟩
      rintro text ⟨⟩
      exact ⟨[], rfl⟩
    · refine plain ?_ (fun text same => by cases same)
      intro name member
      simp only [Command.names, Term.names, Term.namesAll, List.append_nil, List.mem_cons,
        List.not_mem_nil, or_false] at member
      subst member
      rfl
    · exact plain (fun name member => by cases member) (fun text same => by cases same)
    · refine ⟨fun name member => (by cases member), ?_⟩
      rintro text ⟨⟩
      exact ⟨[], rfl⟩
    · exact plain (fun name member => by cases member) (fun text same => by cases same)
  obtain ⟨whole, _, controls⟩ := carrying_reads_back readable
  exact ⟨readable, whole, controls.trans rfl⟩

end Stream

end SmtSession

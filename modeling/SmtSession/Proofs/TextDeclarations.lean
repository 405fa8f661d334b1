import SmtSession.Proofs.Layout
import SmtSession.Proofs.Literals
import SmtSession.Proofs.Lockstep
import SmtSession.Proofs.Rendering

namespace SmtSession

namespace Sexp

theorem Layout.seals_gap {gap : List Char} (layout : Layout [] gap) : Seals gap [] := by
  generalize nothing : ([] : List Token) = tokens at layout
  induction layout with
  | done => exact Seals.nil
  | blank white _ ih => exact (Seals.blank white).append (ih nothing)
  | @comment note tokens text oneLine _ ih =>
    have split : ';' :: note ++ '\n' :: text = (';' :: note ++ ['\n']) ++ text := by simp
    rw [split]
    exact (Seals.comment oneLine).append (ih nothing)
  | opening | closing | atom => cases nothing

theorem seals_list {items : List Sexp} (atoms : EveryAtom IsAtom [.list items]) :
    Seals (list items).chars (list items).tokens := by
  have inside := spells_spaced items ((everyAtom_list items []).mp atoms).1
  rw [chars_list, tokens_list]
  exact Seals.opening.append (inside.seals_append Seals.closing rfl)

theorem spells_list {gap text : List Char} {items trees : List Sexp} (layout : Layout [] gap)
    (atoms : EveryAtom IsAtom [.list items]) (rest : Spells text (flatten trees)) :
    Spells (gap ++ ((list items).chars ++ text)) (flatten (.list items :: trees)) := by
  rw [flatten_cons]
  exact layout.seals_gap.spells_append ((seals_list atoms).spells_append rest)

end Sexp

namespace SmtSort

/-- The name of an uninterpreted sort is one atom, and not the name of another sort. -/
def IsNamed (sort : SmtSort) : Prop :=
  ∀ name, sort = .uninterpreted name → Sexp.IsAtom name ∧ name ∉ ["Bool", "Int", "String"]

theorem IsNamed.everyAtom {sort : SmtSort} (named : sort.IsNamed) :
    Sexp.EveryAtom Sexp.IsAtom [sort.tree] := by
  refine everyAtom_tree (fun _ formed => formed.isAtom) ?_
  intro name member
  cases sort with
  | uninterpreted own =>
    obtain rfl := List.mem_singleton.mp member
    exact (named name rfl).1
  | bool | int | bitVec width | string => cases member

theorem ofSexp?_tree {sort : SmtSort} (named : sort.IsNamed) : ofSexp? sort.tree = some sort := by
  cases sort with
  | bool | int | string => rfl
  | bitVec width =>
    have read := Numeral.uint32?_decimal width
    simp [tree, Numeral.atom, ofSexp?, read]
  | uninterpreted name =>
    have other := (named name rfl).2
    simp only [List.mem_cons, List.not_mem_nil, or_false, not_or] at other
    obtain ⟨noBool, noInt, noString⟩ := other
    simp only [tree, ofSexp?]

end SmtSort

namespace Declarations

/-- The two ways to declare a constant: as such, and as a function without parameters. -/
inductive Form where
  | const
  | function

namespace Form

def chars (name : String) (sort : SmtSort) : Form → List Char
  | const => (Command.declareConst name sort).chars
  | function =>
    '(' :: "declare-fun".toList ++ ' ' :: name.toList ++ ' ' :: "()".toList ++ ' ' :: sort.chars ++
      [')']

/-- What a declaration is a list of. -/
def items (name : String) (sort : SmtSort) : Form → List Sexp
  | const => [.atom "declare-const", .atom name, sort.tree]
  | function => [.atom "declare-fun", .atom name, .list [], sort.tree]

theorem chars_items (form : Form) (name : String) (sort : SmtSort) :
    (Sexp.list (form.items name sort)).chars = form.chars name sort := by
  cases form with
  | const =>
    rw [items, Term.chars_application, chars, Command.chars_declareConst]
    simp [SmtSort.chars_tree]
  | function =>
    have none : (Sexp.list []).chars = "()".toList := Sexp.chars_list []
    rw [items, Term.chars_application, chars, ← none]
    simp [SmtSort.chars_tree]

end Form

/-- `Declares declared text`: the text is made of printed declarations, one for each constant and in
order, with blanks and comment lines around them. -/
inductive Declares : List (String × SmtSort) → List Char → Prop where
  | done {gap : List Char} : Sexp.Layout [] gap → Declares [] gap
  | next {gap text : List Char} {declared : List (String × SmtSort)} (form : Form) (name : String)
      (sort : SmtSort) : Sexp.Layout [] gap → Declares declared text →
      Declares ((name, sort) :: declared) (gap ++ (form.chars name sort ++ text))

/-- The names of a constant and of its sort are single atoms. -/
def IsNamed (entry : String × SmtSort) : Prop := Sexp.IsAtom entry.1 ∧ entry.2.IsNamed

section

variable {name : String} {sort : SmtSort}

theorem everyAtom_items (named : IsNamed (name, sort)) (form : Form) :
    Sexp.EveryAtom Sexp.IsAtom [.list (form.items name sort)] := by
  have atoms := named.2.everyAtom
  cases form with
  | const =>
    simp only [Form.items, Sexp.everyAtom_list, Sexp.everyAtom_atom, Sexp.everyAtom_nil, and_true]
    exact ⟨rfl, named.1, atoms⟩
  | function =>
    simp only [Form.items, Sexp.everyAtom_list, Sexp.everyAtom_atom, Sexp.everyAtom_nil, and_true,
      true_and]
    exact ⟨rfl, named.1, atoms⟩

theorem ofCommands_items (named : IsNamed (name, sort)) (form : Form) (rest : List Sexp) :
    ofCommands (.list (form.items name sort) :: rest) =
      (ofCommands rest).map ((name, sort) :: ·) := by
  have read := SmtSort.ofSexp?_tree named.2
  cases form <;> simp [ofCommands, checkCommand, Sexp.head?, Sexp.items?, Sexp.atom?,
    assertableHeads, Form.items, ofCommand?, read]

end

section

variable {declared : List (String × SmtSort)} {text : List Char}

theorem Declares.reads (declares : Declares declared text)
    (named : ∀ entry ∈ declared, IsNamed entry) :
    ∃ trees, Sexp.Spells text (Sexp.flatten trees) ∧ ofCommands trees = .ok declared := by
  induction declares with
  | done gap => exact ⟨[], gap.spells, rfl⟩
  | next form name sort gap _ ih =>
    obtain ⟨own, others⟩ := List.forall_mem_cons.mp named
    obtain ⟨trees, spells, read⟩ := ih others
    refine ⟨.list (form.items name sort) :: trees, ?_, ?_⟩
    · rw [← form.chars_items]
      exact Sexp.spells_list gap (everyAtom_items own form) spells
    · rw [ofCommands_items own, read]
      rfl

theorem Declares.ofText_eq (declares : Declares declared text)
    (named : ∀ entry ∈ declared, IsNamed entry) :
    ofText (String.ofList text) = .ok declared := by
  obtain ⟨trees, spells, read⟩ := declares.reads named
  have found : Sexp.readAll (String.ofList text) = .ok trees := by
    rw [Sexp.readAll, String.toList_ofList, Sexp.readAllChars_eq_ok_iff]
    exact spells.tokenize
  rw [ofText, found]
  exact read

end

end Declarations

theorem Frames.add_nil {α : Type} (frames : Frames α) : frames.add [] = frames := by
  simp [Frames.add]

theorem Frames.add_add {α : Type} (first second : List α) (frames : Frames α) :
    (frames.add first).add second = frames.add (first ++ second) := by
  simp [Frames.add]

namespace Session

variable {β ε : Type}

/-- The session holds more constants in its innermost frame than another, and else the same frames
at the same depth. -/
structure Extends (declared : List (String × SmtSort)) (before after : Session β ε) : Prop where
  frames : after.frames = before.frames.add declared
  depth : after.depth = before.depth

theorem Extends.trans {session middle after : Session β ε} {first second : List (String × SmtSort)}
    (one : session.Extends first middle) (two : middle.Extends second after) :
    session.Extends (first ++ second) after :=
  ⟨by rw [two.frames, one.frames, Frames.add_add], two.depth.trans one.depth⟩

def declareSteps (declared : List (String × SmtSort)) : List Step :=
  declared.map fun entry => .call (.apply (.declare entry.1 entry.2))

section

variable [Backend β] [Emitter ε] {session : Session β ε} {declared : List (String × SmtSort)}

/-- An accepted operation that only adds the constants it declares leaves them in the innermost
frame. -/
theorem apply_extends {operation : Operation} (declares : declarationsOf operation = .ok declared)
    (adds : ∀ booked : Session β ε, booked.Extends declared (booked.book operation declared))
    (accepted : (session.apply operation).1 = .ok ()) :
    session.Extends declared (session.apply operation).2 := by
  rcases apply_cases operation session with
    ⟨err, backend, refused, _⟩ | ⟨given, before, after, permitted, _, _, applied, _⟩
  · rw [refused] at accepted
    cases accepted
  · have same := (permit_ok permitted).2.2
    rw [declares] at same
    obtain rfl := Except.ok.inj same
    obtain ⟨frames, depth⟩ := adds { session with backend := some after }
    rw [applied] at accepted ⊢
    rcases emit_cases (.told operation.command) operation.command
      ({ session with backend := some after }.book operation declared) with
      ⟨_, _, sent, _⟩ | ⟨_, _, sent, _⟩
    · rw [sent]
      exact ⟨frames, depth⟩
    · rw [sent] at accepted
      cases accepted

theorem run_extends
    (accepted : ∀ result ∈ (session.run (declareSteps declared)).1, result = .ok .done) :
    session.Extends declared (session.run (declareSteps declared)).2 := by
  induction declared generalizing session with
  | nil => exact ⟨(Frames.add_nil _).symm, rfl⟩
  | cons entry rest ih =>
    obtain ⟨done, others⟩ := List.forall_mem_cons.mp accepted
    have made : (session.apply (.declare entry.1 entry.2)).1 = .ok () := by
      change (session.apply (.declare entry.1 entry.2)).1.map _ = _ at done
      cases result : (session.apply (.declare entry.1 entry.2)).1 with
      | error err =>
        rw [result] at done
        cases done
      | ok _ => rfl
    have first : session.Extends [entry] (session.apply (.declare entry.1 entry.2)).2 :=
      apply_extends rfl (fun _ => ⟨rfl, rfl⟩) made
    exact first.trans (ih others)

end

section

variable [Emitter ε] {session : Session Shadow ε} {shadow : Shadow}

/-- An idle session over a shadow accepts what its shadow only records, and stays as it was. -/
theorem apply_accepted (log : Log ε) {operation : Operation}
    {declared : List (String × SmtSort)} (idle : session.state = .idle)
    (present : session.backend = some shadow)
    (permitted : session.permit operation = .ok declared)
    (recorded : shadow.perform operation = (.ok (), shadow.record operation.command))
    (adds : ∀ booked : Session Shadow ε,
      (booked.book operation declared).state = booked.state ∧
        (booked.book operation declared).backend = booked.backend) :
    (session.apply operation).1 = .ok () ∧ (session.apply operation).2.state = .idle ∧
      (session.apply operation).2.backend = some (shadow.record operation.command) := by
  have made : Backend.perform operation shadow = (.ok (), shadow.record operation.command) :=
    recorded
  have applied : session.apply operation =
      ({ session with backend := some (shadow.record operation.command) }.book operation
        declared).emit operation.command := by
    simp only [Session.apply, permitted, present, made]
  obtain ⟨_, _, sent, _⟩ := emit_logged log operation.command
    ({ session with backend := some (shadow.record operation.command) }.book operation declared)
  obtain ⟨state, backend⟩ :=
    adds { session with backend := some (shadow.record operation.command) }
  rw [applied, sent]
  exact ⟨rfl, state.trans idle, backend⟩

/-- So it accepts one call to declare each constant. -/
theorem run_accepted (log : Log ε) (declared : List (String × SmtSort))
    (idle : session.state = .idle) (present : session.backend = some shadow) :
    ∀ result ∈ (session.run (declareSteps declared)).1, result = .ok .done := by
  induction declared generalizing session shadow with
  | nil => exact nofun
  | cons entry rest ih =>
    have permitted : session.permit (.declare entry.1 entry.2) = .ok [entry] := by
      simp [permit, ensureIdle, idle, ensurePoppable, declarationsOf]
    obtain ⟨made, still, kept⟩ :=
      apply_accepted log idle present permitted rfl (fun _ => ⟨rfl, rfl⟩)
    refine List.forall_mem_cons.mpr ⟨?_, ih still kept⟩
    change (session.apply (.declare entry.1 entry.2)).1.map _ = _
    rw [made]
    rfl

end

/-- What a text declares on its own, asserted in a session, and by as many calls instead. -/
structure TextDeclares (declared : List (String × SmtSort)) (text : String) : Prop where
  /-- The text is read as the constants, in order. -/
  read : Declarations.ofText text = .ok declared
  /-- In any session the text, once accepted, leaves what the calls leave, once accepted. -/
  asserted : ∀ {β ε : Type} [Backend β] [Emitter ε] (session : Session β ε),
    (session.apply (.assertText text)).1 = .ok () →
    (∀ result ∈ (session.run (declareSteps declared)).1, result = .ok .done) →
    let byText := (session.apply (.assertText text)).2
    let byCalls := (session.run (declareSteps declared)).2
    session.Extends declared byText ∧ byText.frames = byCalls.frames ∧
      byText.visibleSorts = byCalls.visibleSorts ∧ byText.depth = byCalls.depth
  /-- An idle session over a shadow accepts both, if all commands arrive. -/
  accepted : ∀ {ε : Type} [Emitter ε] (_ : Log ε) (session : Session Shadow ε) (shadow : Shadow),
    session.state = .idle → session.backend = some shadow →
    (session.apply (.assertText text)).1 = .ok () ∧
      ∀ result ∈ (session.run (declareSteps declared)).1, result = .ok .done

/-- A text of printed declarations of constants, whatever their names and sorts, declares what the
calls declare. -/
theorem declares_as_calls {declared : List (String × SmtSort)} {text : List Char}
    (declares : Declarations.Declares declared text)
    (named : ∀ entry ∈ declared, Declarations.IsNamed entry) :
    TextDeclares declared (String.ofList text) := by
  have read := declares.ofText_eq named
  have told : declarationsOf (.assertText (String.ofList text)) = .ok declared := by
    simp only [declarationsOf, read]
    rfl
  refine ⟨read, ?_, ?_⟩
  · intro β ε _ _ session byText byCalls after afterCalls
    have whole : session.Extends declared after :=
      apply_extends told (fun _ => ⟨rfl, rfl⟩) byText
    have parts : session.Extends declared afterCalls := run_extends byCalls
    have frames : after.frames = afterCalls.frames := whole.frames.trans parts.frames.symm
    exact ⟨whole, frames, congrArg Frames.entries frames, whole.depth.trans parts.depth.symm⟩
  · intro ε _ log session shadow idle present
    have permitted : session.permit (.assertText (String.ofList text)) = .ok declared := by
      simp [permit, ensureIdle, idle, ensurePoppable, told]
    obtain ⟨accepted, _⟩ := apply_accepted log idle present permitted rfl (fun _ => ⟨rfl, rfl⟩)
    exact ⟨accepted, run_accepted log declared idle present⟩

/-- Constants whose names and sorts are hard to read, and a text that declares them. -/
def oddConstants : List (String × SmtSort) :=
  [("|a ) b|", .bitVec 4294967295), ("Bool", .uninterpreted "|Int|"), ("\"x\"", .string)]

def oddText : String :=
  "; (push 1)\n(declare-fun |a ) b| () (_ BitVec 4294967295))(declare-const Bool |Int|)" ++
    "\u2003;\n (declare-const \"x\" String)\n"

theorem oddText_declares :
    (∀ entry ∈ oddConstants, Declarations.IsNamed entry) ∧
      Declarations.Declares oddConstants oddText.toList ∧
      TextDeclares oddConstants (String.ofList oddText.toList) := by
  have named : ∀ entry ∈ oddConstants, Declarations.IsNamed entry := by
    intro entry member
    simp only [oddConstants, List.mem_cons, List.not_mem_nil, or_false] at member
    rcases member with rfl | rfl | rfl
    · exact ⟨rfl, nofun⟩
    · refine ⟨rfl, ?_⟩
      rintro name ⟨⟩
      exact ⟨rfl, by decide⟩
    · exact ⟨rfl, nofun⟩
  have comment : Sexp.Layout [] (';' :: " (push 1)".toList ++ ['\n']) := .comment (by decide) .done
  have blanks : Sexp.Layout [] "\u2003;\n ".toList :=
    .blank rfl (.comment List.not_mem_nil (.blank rfl .done))
  have lineEnd : Sexp.Layout [] "\n".toList := .blank rfl .done
  have declares : Declarations.Declares oddConstants oddText.toList :=
    .next .function _ _ comment (.next .const _ _ .done (.next .const _ _ blanks (.done lineEnd)))
  exact ⟨named, declares, declares_as_calls declares named⟩

end Session

end SmtSession

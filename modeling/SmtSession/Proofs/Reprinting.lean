import SmtSession.Proofs.Acceptance

namespace SmtSession.Sexp

open Text (IsBlankRun)

theorem Lexeme.isAtom {text rest : List Char} {name : String}
    (lexeme : Lexeme text (some (.atom name)) rest) : IsAtom name := by
  rw [isAtom_iff_spells]
  cases lexeme with
  | @string inner _ ends =>
    rw [String.toList_ofList]
    exact Spells.string inner
  | symbol closed =>
    rw [String.toList_ofList]
    exact (Seals.symbol closed).spells
  | word noBar goesOn ends =>
    rw [String.toList_ofList]
    exact Spells.word noBar goesOn

theorem Lexes.isAtom {text rest : List Char} {tokens : List Token}
    (lexes : Lexes text tokens rest) : ∀ name, .atom name ∈ tokens → IsAtom name := by
  induction lexes with
  | refl text =>
    intro name member
    cases member
  | @step text middle rest token tokens lexeme later ih =>
    intro name member
    rcases List.mem_append.mp member with here | there
    · have found : token = some (.atom name) := Option.mem_toList.mp here
      subst found
      exact lexeme.isAtom
    · exact ih name there

/-- Trees that were read hold no other atoms. -/
theorem everyAtom_of_readAll {text : String} {trees : List Sexp}
    (read : readAll text = .ok trees) : EveryAtom IsAtom trees :=
  (readAll_eq_ok_iff.mp read).isAtom

theorem EveryAtom.of_mem {p : String → Prop} {trees : List Sexp} {tree : Sexp}
    (every : EveryAtom p trees) (member : tree ∈ trees) : EveryAtom p [tree] := by
  obtain ⟨front, back, rfl⟩ := List.append_of_mem member
  have later := ((everyAtom_append front (tree :: back)).mp every).2
  exact ((everyAtom_cons tree back).mp later).1

/-- `Joined trees text`: the text is made of the texts of the trees, with blanks between
neighbours. -/
inductive Joined : List Sexp → List Char → Prop where
  | nil : Joined [] []
  | single (tree : Sexp) : Joined [tree] tree.chars
  | cons {tree next : Sexp} {trees : List Sexp} {gap text : List Char} : gap ≠ [] →
      IsBlankRun gap → Joined (next :: trees) text →
      Joined (tree :: next :: trees) (tree.chars ++ (gap ++ text))

/-- One separator may stand in all places. -/
theorem joined_intercalate {separator : List Char} (some : separator ≠ [])
    (blank : IsBlankRun separator) (trees : List Sexp) :
    Joined trees (separator.intercalate (trees.map chars)) := by
  induction trees with
  | nil => exact .nil
  | cons tree rest ih =>
    cases rest with
    | nil =>
      rw [List.map_singleton, List.intercalate_singleton]
      exact .single tree
    | cons next rest =>
      rw [List.map_cons, List.map_cons, List.intercalate_cons_cons, List.append_assoc]
      exact .cons some blank ih

theorem separates_of_isBlank {c : Char} (white : Text.isBlank c = true) : separates c = true := by
  have noQuote : c ≠ '"' := by
    rintro rfl
    cases white
  simp [separates, Lexer.endsWord, white, noQuote]

/-- Trees with blanks between them do not run into each other. -/
theorem Joined.spells {trees : List Sexp} {text : List Char} (joined : Joined trees text)
    (atoms : EveryAtom IsAtom trees) : Spells text (flatten trees) := by
  induction joined with
  | nil => exact Spells.nil
  | single tree => simpa using spells_chars tree atoms
  | @cons tree next trees gap text some blank later ih =>
    obtain ⟨first, others⟩ := (everyAtom_cons tree (next :: trees)).mp atoms
    cases gap with
    | nil => exact absurd rfl some
    | cons c gap =>
      have white : Text.isBlank c = true := blank c List.mem_cons_self
      have apart : separates c = true := separates_of_isBlank white
      have blanks : Seals (c :: gap) [] := Seals.blanks blank
      rw [flatten_cons]
      exact (spells_chars tree first).append (blanks.spells_append (ih others)) apart

theorem Joined.reads {trees : List Sexp} {text : List Char} (joined : Joined trees text)
    (atoms : EveryAtom IsAtom trees) : readAllChars text = .ok trees := by
  rw [readAllChars_eq_ok_iff]
  exact (joined.spells atoms).tokenize

/-- Trees that were read from any text are read from the texts that they print: each from its own,
and all of them from these texts in order, with any blanks between neighbours. -/
theorem printed_trees_read_back {text : String} {trees : List Sexp}
    (found : readAll text = .ok trees) :
    (∀ tree ∈ trees, read tree.text = .ok tree) ∧
    (∀ separator : String, separator ≠ "" → IsBlankRun separator.toList →
      readAll (separator.intercalate (trees.map Sexp.text)) = .ok trees) ∧
    ∀ joined, Joined trees joined → readAllChars joined = .ok trees := by
  have atoms := everyAtom_of_readAll found
  refine ⟨?_, ?_, fun joined layout => layout.reads atoms⟩
  · intro tree member
    rw [read_eq_ok_iff, readAll, Sexp.text, String.toList_ofList]
    exact readAllChars_chars (atoms.of_mem member)
  · intro separator some blank
    have nonempty : separator.toList ≠ [] := fun none => some (String.toList_eq_nil_iff.mp none)
    have printed : (trees.map Sexp.text).map String.toList = trees.map chars := by
      rw [List.map_map]
      exact List.map_congr_left fun tree _ => String.toList_ofList
    rw [readAll, String.toList_intercalate, printed]
    exact (joined_intercalate nonempty blank trees).reads atoms

/-- A text whose atoms hold characters that mean something between atoms, and the trees in it. -/
def unevenText : String := "(a|b\"c )\"\"\"|d\n(|;)\n(\\))||\u00a0e|f|(()\"\")"

def unevenTrees : List Sexp :=
  [.list [.atom "a|b", .atom "\"c )\"\"\"", .atom "|d\n(|", .list [.atom "\\"]], .atom "||",
    .atom "e|f|", .list [.list [], .atom "\"\""]]

theorem unevenTrees_read_back :
    readAll unevenText = .ok unevenTrees ∧
      (∀ tree ∈ unevenTrees, read tree.text = .ok tree) ∧
      readAll ("\n".intercalate (unevenTrees.map Sexp.text)) = .ok unevenTrees ∧
      readAll (" ".intercalate (unevenTrees.map Sexp.text)) = .ok unevenTrees := by
  have found : readAll unevenText = .ok unevenTrees := by
    rw [readAll, readAllChars_eq_ok_iff, tokenize_eq_ok_iff]
    decide +kernel
  obtain ⟨each, separated, _⟩ := printed_trees_read_back found
  exact ⟨found, each, separated "\n" (by decide) (by decide), separated " " (by decide) (by decide)⟩

end SmtSession.Sexp

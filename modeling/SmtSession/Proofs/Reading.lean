import SmtSession.Proofs.Spelling
import SmtSession.Sexp.Reader

namespace SmtSession.Sexp

theorem flatten_append (front back : List Sexp) :
    flatten (front ++ back) = flatten front ++ flatten back := by
  induction front with
  | nil => rfl
  | cons item rest ih => simp [ih]

namespace Forest

/-- The tokens of lists that are not yet closed, the innermost first. -/
def begun : List (List Sexp) → List Token
  | [] => []
  | inner :: outer => begun outer ++ .opening :: flatten inner.reverse

/-- The tokens that a partly read forest stands for. -/
def tokens (forest : Forest) : List Token :=
  flatten forest.finished.reverse ++ begun forest.openLists

theorem tokens_add (tree : Sexp) (forest : Forest) :
    (forest.add tree).tokens = forest.tokens ++ tree.tokens := by
  obtain ⟨openLists, finished⟩ := forest
  cases openLists <;> simp [add, tokens, begun, flatten_append]

theorem tokens_feed {forest next : Forest} {token : Token} (fits : forest.feed token = .ok next) :
    next.tokens = forest.tokens ++ [token] := by
  cases token with
  | atom text =>
    cases fits
    exact tokens_add (.atom text) forest
  | opening =>
    cases fits
    simp [tokens, begun]
  | closing =>
    obtain ⟨openLists, finished⟩ := forest
    cases openLists with
    | nil => cases fits
    | cons inner outer =>
      cases fits
      rw [tokens_add]
      simp [tokens, begun]

theorem tokens_run {forest last : Forest} {read : List Token} (fits : forest.run read = .ok last) :
    last.tokens = forest.tokens ++ read := by
  induction read generalizing forest with
  | nil =>
    cases fits
    simp
  | cons token rest ih =>
    rw [run] at fits
    cases step : forest.feed token with
    | error err =>
      rw [step] at fits
      cases fits
    | ok next =>
      rw [step] at fits
      rw [ih fits, tokens_feed step]
      simp

def addAll (trees : List Sexp) (forest : Forest) : Forest :=
  trees.foldl (fun forest tree => forest.add tree) forest

theorem addAll_open (trees inner : List Sexp) (outer : List (List Sexp)) (finished : List Sexp) :
    addAll trees ⟨inner :: outer, finished⟩ = ⟨(trees.reverse ++ inner) :: outer, finished⟩ := by
  induction trees generalizing inner with
  | nil => rfl
  | cons tree rest ih =>
    show addAll rest ⟨(tree :: inner) :: outer, finished⟩ = _
    rw [ih]
    simp

theorem addAll_finished (trees finished : List Sexp) :
    addAll trees ⟨[], finished⟩ = ⟨[], trees.reverse ++ finished⟩ := by
  induction trees generalizing finished with
  | nil => rfl
  | cons tree rest ih =>
    show addAll rest ⟨[], tree :: finished⟩ = _
    rw [ih]
    simp

mutual
theorem run_tokens_append : (tree : Sexp) → (forest : Forest) → (rest : List Token) →
    forest.run (tree.tokens ++ rest) = (forest.add tree).run rest
  | .atom _, _, _ => rfl
  | .list items, forest, rest => by
    have split : (list items).tokens ++ rest = .opening :: (flatten items ++ .closing :: rest) := by
      simp
    have inside := run_flatten_append items ⟨[] :: forest.openLists, forest.finished⟩
      (.closing :: rest)
    rw [split]
    show run ⟨[] :: forest.openLists, forest.finished⟩ _ = _
    rw [inside, addAll_open]
    simp [run, feed]

theorem run_flatten_append : (trees : List Sexp) → (forest : Forest) → (rest : List Token) →
    forest.run (flatten trees ++ rest) = (forest.addAll trees).run rest
  | [], _, _ => rfl
  | tree :: trees, forest, rest => by
    rw [flatten_cons, List.append_assoc, run_tokens_append tree, run_flatten_append trees]
    rfl
end

end Forest

/-- Trees are read from their tokens and from no others. -/
theorem ofTokens_eq_ok_iff {tokens : List Token} {trees : List Sexp} :
    ofTokens tokens = .ok trees ↔ tokens = flatten trees := by
  constructor
  · intro read
    unfold ofTokens at read
    cases last : Forest.run {} tokens with
    | error err =>
      rw [last] at read
      cases read
    | ok forest =>
      rw [last] at read
      have same := Forest.tokens_run last
      obtain ⟨openLists, finished⟩ := forest
      cases openLists with
      | nil =>
        cases read
        simpa [Forest.tokens, Forest.begun] using same.symm
      | cons inner outer => cases read
  · rintro rfl
    have all := Forest.run_flatten_append trees {} []
    rw [List.append_nil, Forest.addAll_finished] at all
    simp [ofTokens, all, Forest.run, Forest.finish]

theorem readAllChars_eq_ok_iff {cs : List Char} {trees : List Sexp} :
    readAllChars cs = .ok trees ↔ tokenize cs = .ok (flatten trees) := by
  unfold readAllChars
  cases tokenize cs with
  | error err => simp
  | ok tokens => simp [ofTokens_eq_ok_iff]

theorem readAllChars_line_append {line rest : List Char} {first later : List Sexp}
    (readFirst : readAllChars line = .ok first) (readLater : readAllChars rest = .ok later) :
    readAllChars (line ++ '\n' :: rest) = .ok (first ++ later) := by
  rw [readAllChars_eq_ok_iff] at readFirst readLater ⊢
  rw [tokenize_line_append rest readFirst, readLater, flatten_append]
  rfl

/-- Every atom in the trees has the property. -/
def EveryAtom (p : String → Prop) (trees : List Sexp) : Prop :=
  ∀ name, .atom name ∈ flatten trees → p name

section EveryAtom

variable {p q : String → Prop}

@[simp] theorem everyAtom_nil : EveryAtom p [] := by
  intro name member
  cases member

@[simp] theorem everyAtom_atom (name : String) (rest : List Sexp) :
    EveryAtom p (.atom name :: rest) ↔ p name ∧ EveryAtom p rest := by
  simp [EveryAtom, or_imp, forall_and]

@[simp] theorem everyAtom_list (items rest : List Sexp) :
    EveryAtom p (.list items :: rest) ↔ EveryAtom p items ∧ EveryAtom p rest := by
  simp [EveryAtom, or_imp, forall_and]

theorem everyAtom_cons (item : Sexp) (rest : List Sexp) :
    EveryAtom p (item :: rest) ↔ EveryAtom p [item] ∧ EveryAtom p rest := by
  cases item <;> simp

theorem everyAtom_append (front back : List Sexp) :
    EveryAtom p (front ++ back) ↔ EveryAtom p front ∧ EveryAtom p back := by
  simp [EveryAtom, flatten_append, or_imp, forall_and]

end EveryAtom

mutual
/-- The canonical text of a tree spells its tokens. -/
theorem spells_chars : (tree : Sexp) → EveryAtom IsAtom [tree] → Spells tree.chars tree.tokens
  | .atom text, atoms => by
    rw [chars_atom]
    exact isAtom_iff_spells.mp ((everyAtom_atom text []).mp atoms).1
  | .list items, atoms => by
    have inside : Spells (spaced items) (flatten items) :=
      spells_spaced items ((everyAtom_list items []).mp atoms).1
    rw [chars_list, tokens_list]
    exact (Seals.opening.spells_append inside).append Seals.closing.spells rfl

theorem spells_spaced : (items : List Sexp) → EveryAtom IsAtom items → Spells (spaced items) (flatten items)
  | [], _ => Spells.nil
  | [item], atoms => by simpa using spells_chars item atoms
  | item :: next :: items, atoms => by
    obtain ⟨first, later⟩ := (everyAtom_cons item (next :: items)).mp atoms
    have blank : Seals [' '] [] := Seals.blank rfl
    rw [spaced_cons_cons, flatten_cons]
    exact (spells_chars item first).append
      (blank.spells_append (spells_spaced (next :: items) later)) rfl
end

theorem readAllChars_chars {tree : Sexp} (atoms : EveryAtom IsAtom [tree]) :
    readAllChars tree.chars = .ok [tree] := by
  rw [readAllChars_eq_ok_iff, (spells_chars tree atoms).tokenize]
  simp

end SmtSession.Sexp

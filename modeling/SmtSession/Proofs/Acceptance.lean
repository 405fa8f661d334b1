import SmtSession.Proofs.LexicalRules
import SmtSession.Proofs.Openness

namespace SmtSession.Sexp

/-- No front of the tokens closes more than it opens, and together they close all that they open. -/
structure Matched (tokens : List Token) : Prop where
  front : ∀ front, front <+: tokens → front.count .closing ≤ front.count .opening
  whole : tokens.count .closing = tokens.count .opening

/-- The tokens of one tree: only with the last of them everything is closed. -/
structure Undivided (tokens : List Token) : Prop where
  nonempty : tokens ≠ []
  inside : ∀ front, front <+: tokens → front ≠ [] → front ≠ tokens →
    front.count .closing < front.count .opening

theorem balance_eq_count (tokens : List Token) :
    balance tokens = tokens.count .opening - tokens.count .closing := by
  induction tokens with
  | nil => rfl
  | cons token rest ih => cases token <;> simp [balance, ih] <;> omega

theorem matched_iff_balanced {tokens : List Token} : Matched tokens ↔ Balanced tokens := by
  constructor
  · rintro ⟨front, whole⟩
    refine ⟨?_, fun part inside => ?_⟩
    · rw [balance_eq_count]
      omega
    · have := front part inside
      rw [balance_eq_count]
      omega
  · rintro ⟨whole, front⟩
    refine ⟨fun part inside => ?_, ?_⟩
    · have := front part inside
      rw [balance_eq_count] at this
      omega
    · rw [balance_eq_count] at whole
      omega

namespace Forest

@[simp] theorem length_add (tree : Sexp) (forest : Forest) :
    (forest.add tree).openLists.length = forest.openLists.length := by
  obtain ⟨openLists, finished⟩ := forest
  cases openLists <;> rfl

theorem feed_fits {forest : Forest} {token : Token}
    (fits : 0 ≤ forest.openLists.length + balance [token]) :
    ∃ next, forest.feed token = .ok next ∧
      (next.openLists.length : Int) = forest.openLists.length + balance [token] := by
  cases token with
  | atom text => exact ⟨_, rfl, by simp [balance]⟩
  | opening => exact ⟨_, rfl, by simp [balance]⟩
  | closing =>
    obtain ⟨openLists, finished⟩ := forest
    cases openLists with
    | nil => simp [balance] at fits
    | cons inner outer =>
      refine ⟨_, rfl, ?_⟩
      simp only [length_add, List.length_cons, balance]
      omega

theorem run_fits {forest : Forest} {tokens : List Token}
    (fits : ∀ front, front <+: tokens → 0 ≤ forest.openLists.length + balance front) :
    ∃ last, forest.run tokens = .ok last ∧
      (last.openLists.length : Int) = forest.openLists.length + balance tokens := by
  induction tokens generalizing forest with
  | nil => exact ⟨forest, rfl, by simp [balance]⟩
  | cons token rest ih =>
    have now := fits [token] ⟨rest, rfl⟩
    obtain ⟨next, fed, level⟩ := feed_fits now
    have later : ∀ front, front <+: rest → 0 ≤ next.openLists.length + balance front := by
      intro front part
      have := fits (token :: front) ((List.prefix_cons_inj token).mpr part)
      rw [← List.singleton_append, balance_append] at this
      omega
    obtain ⟨last, ran, height⟩ := ih later
    refine ⟨last, by rw [run, fed]; exact ran, ?_⟩
    rw [height, level, ← List.singleton_append (l := rest), balance_append]
    omega

end Forest

/-- Matching parentheses make trees. -/
theorem Balanced.eq_flatten {tokens : List Token} (balanced : Balanced tokens) :
    ∃ trees, tokens = flatten trees := by
  have fits : ∀ front, front <+: tokens →
      0 ≤ ({} : Forest).openLists.length + balance front := by
    intro front part
    have := balanced.front front part
    simpa using this
  obtain ⟨last, ran, height⟩ := Forest.run_fits fits
  have done : last.openLists = [] := by
    rw [balanced.whole] at height
    exact List.eq_nil_of_length_eq_zero (by simpa using height)
  refine ⟨last.finished.reverse, ofTokens_eq_ok_iff.mp ?_⟩
  rw [ofTokens, ran]
  simp [Forest.finish, done]

theorem matched_iff_trees {tokens : List Token} :
    Matched tokens ↔ ∃ trees, tokens = flatten trees := by
  rw [matched_iff_balanced]
  constructor
  · exact Balanced.eq_flatten
  · rintro ⟨trees, rfl⟩
    exact balanced_flatten trees

theorem tokens_ne_nil (tree : Sexp) : tree.tokens ≠ [] := by
  cases tree <;> simp

theorem undivided_tokens (tree : Sexp) : Undivided tree.tokens := by
  refine ⟨tree.tokens_ne_nil, fun front part some short => ?_⟩
  cases tree with
  | atom text =>
    rcases List.prefix_cons_iff.mp part with rfl | ⟨rest, rfl, nothing⟩
    · exact absurd rfl some
    · exact absurd (by rw [List.prefix_nil.mp nothing]; rfl) short
  | list items =>
    rw [tokens_list] at part short
    rcases List.prefix_cons_iff.mp part with rfl | ⟨rest, rfl, later⟩
    · exact absurd rfl some
    · rcases prefix_append_cases later with inner | ⟨last, rfl, closing⟩
      · have held := (matched_iff_trees.mpr ⟨items, rfl⟩).front rest inner
        simp only [List.count_cons, beq_iff_eq, reduceCtorEq, ↓reduceIte]
        omega
      · rcases List.prefix_cons_iff.mp closing with rfl | ⟨nothing, rfl, empty⟩
        · have held := (matched_iff_trees.mpr ⟨items, rfl⟩).whole
          simp only [List.append_nil, List.count_cons, beq_iff_eq, reduceCtorEq, ↓reduceIte]
          omega
        · exact absurd (by rw [List.prefix_nil.mp empty]; rfl) short

/-- The tokens of trees are undivided when there is one tree. -/
theorem undivided_iff_single {trees : List Sexp} :
    Undivided (flatten trees) ↔ ∃ tree, trees = [tree] := by
  constructor
  · intro undivided
    match trees with
    | [] => exact absurd rfl undivided.nonempty
    | [tree] => exact ⟨tree, rfl⟩
    | first :: second :: rest =>
      have whole := (matched_iff_trees.mpr ⟨[first], rfl⟩).whole
      have part : flatten [first] <+: flatten (first :: second :: rest) :=
        ⟨flatten (second :: rest), (flatten_append [first] (second :: rest)).symm⟩
      have some : flatten [first] ≠ [] := by simpa using first.tokens_ne_nil
      have short : flatten [first] ≠ flatten (first :: second :: rest) := by
        simp [second.tokens_ne_nil]
      have := undivided.inside _ part some short
      omega
  · rintro ⟨tree, rfl⟩
    simpa using tree.undivided_tokens

theorem readAll_eq_ok_iff {text : String} {trees : List Sexp} :
    readAll text = .ok trees ↔ Lexes text.toList (flatten trees) [] := by
  rw [readAll, readAllChars_eq_ok_iff, tokenize_eq_ok_iff_lexes]

theorem read_eq_ok_iff {text : String} {tree : Sexp} :
    read text = .ok tree ↔ readAll text = .ok [tree] := by
  unfold read
  rcases readAll text with err | (_ | ⟨first, _ | ⟨second, rest⟩⟩) <;> simp

/-- What is said of the tokens of the trees that are read can be said of the tokens of the text. -/
theorem readAll_ok_iff (holds : List Token → Prop) (text : String) :
    (∃ trees, readAll text = .ok trees ∧ holds (flatten trees)) ↔
      LiteralsClosed text.toList ∧
        ∀ tokens, Lexes text.toList tokens [] → Matched tokens ∧ holds tokens := by
  constructor
  · rintro ⟨trees, read, said⟩
    have lexes := readAll_eq_ok_iff.mp read
    have closed := literalsClosed_of_tokenize (tokenize_of_lexes lexes)
    obtain ⟨first, _, only⟩ := literalsClosed_iff.mp closed
    refine ⟨closed, fun tokens other => ?_⟩
    have same : tokens = flatten trees := (only tokens other).trans (only _ lexes).symm
    exact ⟨matched_iff_trees.mpr ⟨trees, same⟩, same ▸ said⟩
  · rintro ⟨closed, matched⟩
    obtain ⟨tokens, lexes⟩ := closed.lexes
    obtain ⟨match', said⟩ := matched tokens lexes
    obtain ⟨trees, rfl⟩ := matched_iff_trees.mp match'
    exact ⟨trees, readAll_eq_ok_iff.mpr lexes, said⟩

/-- The reader accepts a text exactly when its literals are closed, which makes it fall into tokens
in one way, and the parentheses among these tokens match. The trees hold the tokens, in order. A
single tree is read exactly when, moreover, the tokens are those of one tree. -/
theorem reader_accepts (text : String) :
    (LiteralsClosed text.toList ↔ ∃! tokens, Lexes text.toList tokens []) ∧
    ((∃ trees, readAll text = .ok trees) ↔
      LiteralsClosed text.toList ∧ ∀ tokens, Lexes text.toList tokens [] → Matched tokens) ∧
    (∀ trees, readAll text = .ok trees ↔ Lexes text.toList (flatten trees) []) ∧
    (∀ tree, read text = .ok tree ↔ readAll text = .ok [tree]) ∧
    ((∃ tree, read text = .ok tree) ↔
      LiteralsClosed text.toList ∧
        ∀ tokens, Lexes text.toList tokens [] → Matched tokens ∧ Undivided tokens) := by
  have all := readAll_ok_iff (fun _ => True) text
  have single := readAll_ok_iff Undivided text
  simp only [and_true] at all
  simp only [undivided_iff_single] at single
  refine ⟨literalsClosed_iff, all, fun _ => readAll_eq_ok_iff, fun _ => read_eq_ok_iff, ?_⟩
  rw [← single]
  constructor
  · rintro ⟨tree, read⟩
    exact ⟨[tree], read_eq_ok_iff.mp read, tree, rfl⟩
  · rintro ⟨_, read, tree, rfl⟩
    exact ⟨tree, read_eq_ok_iff.mpr read⟩

/-- Parentheses in a string, a symbol and a comment do not count, and a literal ends a word. -/
theorem crowdedText_accepted :
    let text := "(ab\"c )\"\"\"|d (|(()));)"
    let tree := list [.atom "ab", .atom "\"c )\"\"\"", .atom "|d (|", .list [.list []]]
    LiteralsClosed text.toList ∧ Lexes text.toList (flatten [tree]) [] ∧
      Undivided (flatten [tree]) ∧ read text = .ok tree := by
  intro text tree
  obtain ⟨_, _, found, single, undivided⟩ := reader_accepts text
  have readAll : readAll text = .ok [tree] := by
    rw [Sexp.readAll, readAllChars_eq_ok_iff, tokenize_eq_ok_iff]
    decide +kernel
  have read : read text = .ok tree := (single tree).mpr readAll
  have lexes := (found [tree]).mp readAll
  obtain ⟨closed, every⟩ := undivided.mp ⟨tree, read⟩
  exact ⟨closed, lexes, (every _ lexes).2, read⟩

end SmtSession.Sexp

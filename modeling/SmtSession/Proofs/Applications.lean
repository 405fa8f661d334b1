import SmtSession.Eval
import SmtSession.Proofs.Acceptance
import SmtSession.Proofs.ValueText

namespace SmtSession

namespace Sexp

/-- A part occurs in a tree: it is the whole tree, or it occurs in an item of it. -/
inductive Occurs (part : Sexp) : Sexp → Prop where
  | whole : part.Occurs part
  | item {items : List Sexp} {item : Sexp} :
      item ∈ items → part.Occurs item → part.Occurs (.list items)

theorem occurs_atom_iff {part : Sexp} {text : String} :
    part.Occurs (.atom text) ↔ part = .atom text := by
  constructor
  · intro occurs
    cases occurs with
    | whole => rfl
  · rintro rfl
    exact .whole

theorem occurs_list_iff {part : Sexp} {items : List Sexp} :
    part.Occurs (.list items) ↔ part = .list items ∨ ∃ item ∈ items, part.Occurs item := by
  constructor
  · intro occurs
    cases occurs with
    | whole => exact .inl rfl
    | item member inside => exact .inr ⟨_, member, inside⟩
  · rintro (rfl | ⟨item, member, inside⟩)
    · exact .whole
    · exact .item member inside

theorem not_occurs_of_short {items inner : List Sexp} (short : items.length < 2)
    (long : 2 ≤ inner.length) (atoms : ∀ item ∈ inner, item.atom? ≠ none) :
    ¬(list items).Occurs (.list inner) := by
  rw [occurs_list_iff]
  rintro (same | ⟨item, member, inside⟩)
  · rw [list.inj same] at short
    omega
  · cases item with
    | atom text => cases occurs_atom_iff.mp inside
    | list => exact atoms _ member rfl

end Sexp

/-- What an operator gives when it has no operands. -/
def NaryOp.identity : NaryOp → Value
  | .and | .distinct => .bool true
  | .or => .bool false
  | .strConcat => .str ""

namespace Term

/-- A part occurs in a term: it is the whole term, or it occurs in an operand of it. -/
inductive Occurs (part : Term) : Term → Prop where
  | whole : part.Occurs part
  | operand {term arg : Term} : arg ∈ term.args → part.Occurs arg → part.Occurs term

theorem occurs_iff {part term : Term} :
    part.Occurs term ↔ part = term ∨ ∃ arg ∈ term.args, part.Occurs arg := by
  constructor
  · intro occurs
    cases occurs with
    | whole => exact .inl rfl
    | operand member inside => exact .inr ⟨_, member, inside⟩
  · rintro (rfl | ⟨arg, member, inside⟩)
    · exact .whole
    · exact .operand member inside

theorem sizeOf_lt_of_mem_args {term arg : Term} (member : arg ∈ term.args) :
    sizeOf arg < sizeOf term := by
  cases term with
  | nary _ args | app _ args =>
    have smaller : sizeOf arg < sizeOf args := List.sizeOf_lt_of_mem member
    simp only [nary.sizeOf_spec, app.sizeOf_spec]
    omega
  | unary | binary | ite =>
    simp only [args, List.mem_cons, List.not_mem_nil, or_false] at member
    rcases member with rfl | rfl | rfl
    all_goals
      simp only [unary.sizeOf_spec, binary.sizeOf_spec, ite.sizeOf_spec]
      omega
  | _ => cases member

/-- What holds of a term when it holds of its operands holds of every term. -/
theorem induction_args {motive : Term → Prop}
    (step : ∀ term : Term, (∀ arg ∈ term.args, motive arg) → motive term) (term : Term) :
    motive term :=
  step term fun arg member =>
    have := sizeOf_lt_of_mem_args member
    induction_args step arg
  termination_by sizeOf term

theorem trees_eq_map (args : List Term) : trees args = args.map tree := by
  induction args with
  | nil => rfl
  | cons arg rest ih => rw [trees, ih, List.map_cons]

/-- A term with operands is written as a list, its operator in front of them. -/
theorem tree_of_args {term : Term} (some : term.args ≠ []) :
    ∃ operator, term.tree = .list (.atom operator :: term.args.map tree) := by
  cases term with
  | nary op args =>
    cases args with
    | nil => exact absurd rfl some
    | cons arg rest => exact ⟨op.symbol, by rw [tree, trees_eq_map]; rfl⟩
  | app name args =>
    cases args with
    | nil => exact absurd rfl some
    | cons arg rest => exact ⟨name, by rw [tree, trees_eq_map]; rfl⟩
  | unary op _ => exact ⟨op.symbol, rfl⟩
  | binary op _ _ => exact ⟨op.symbol, rfl⟩
  | ite => exact ⟨"ite", rfl⟩
  | _ => exact absurd rfl some

theorem occurs_tree {part term : Term} (occurs : part.Occurs term) :
    part.tree.Occurs term.tree := by
  induction occurs with
  | whole => exact .whole
  | operand member _ ih =>
    obtain ⟨operator, written⟩ := tree_of_args (List.ne_nil_of_mem member)
    rw [written]
    exact .item (List.mem_cons_of_mem _ (List.mem_map_of_mem member)) ih

theorem short_occurs_leaf {term : Term} (bare : term.args = []) {items : List Sexp}
    (short : items.length < 2) :
    (Sexp.list items).Occurs term.tree ↔
      items = [.atom "distinct"] ∧ term = .nary .distinct [] := by
  cases term with
  | intLit value =>
    rw [tree, intTree]
    split
    · refine iff_of_false (Sexp.not_occurs_of_short short (Nat.le_refl 2) ?_) ?_
      · simp [Numeral.atom, Sexp.atom?]
      · rintro ⟨-, ⟨⟩⟩
    · simp [Numeral.atom, Sexp.occurs_atom_iff]
  | bitVecLit value width =>
    rw [tree, bitVecTree, indexedTree]
    refine iff_of_false (Sexp.not_occurs_of_short short (Nat.le_succ 2) ?_) ?_
    · simp [Numeral.atom, Sexp.atom?]
    · rintro ⟨-, ⟨⟩⟩
  | nary op args =>
    obtain rfl : args = [] := bare
    cases op <;> simp [tree, nullaryTree, Sexp.occurs_list_iff, Sexp.occurs_atom_iff]
  | app name args =>
    obtain rfl : args = [] := bare
    simp [tree, Sexp.occurs_atom_iff]
  | boolLit | stringLit | const => simp [tree, boolTree, stringTree, Sexp.occurs_atom_iff]
  | unary | binary | ite => cases bare

/-- The lists of fewer than two items in the tree of a term are its empty `distinct`s. -/
theorem short_occurs_tree_iff {items : List Sexp} (short : items.length < 2) (term : Term) :
    (Sexp.list items).Occurs term.tree ↔
      items = [.atom "distinct"] ∧ (nary .distinct []).Occurs term := by
  induction term using induction_args with
  | step term ih =>
    by_cases bare : term.args = []
    · rw [short_occurs_leaf bare short, occurs_iff, bare]
      simp [eq_comm]
    · -- A list of an operator and operands is not short, so a short list occurs in an operand.
      obtain ⟨operator, written⟩ := tree_of_args bare
      have long : items ≠ .atom operator :: term.args.map tree := by
        rintro rfl
        have some := List.length_pos_iff.mpr bare
        simp only [List.length_cons, List.length_map] at short
        omega
      have other : nary .distinct [] ≠ term := by
        rintro rfl
        exact bare rfl
      rw [occurs_iff, written, Sexp.occurs_list_iff]
      simp only [Sexp.list.injEq, long, other, false_or, List.mem_cons, List.mem_map,
        exists_eq_or_imp, Sexp.occurs_atom_iff, reduceCtorEq]
      constructor
      · rintro ⟨_, ⟨arg, member, rfl⟩, inside⟩
        obtain ⟨only, occurs⟩ := (ih arg member).mp inside
        exact ⟨only, arg, member, occurs⟩
      · rintro ⟨only, arg, member, occurs⟩
        exact ⟨arg.tree, ⟨arg, member, rfl⟩, (ih arg member).mpr ⟨only, occurs⟩⟩

/-- An application to no operands. -/
def IsBareApplication (term : Term) : Prop := term.operator? ≠ none ∧ term.args = []

theorem text_nullary {op : NaryOp} (other : op ≠ .distinct) :
    (nary op []).tree = .atom op.identity.text ∧ (nary op []).text = op.identity.text := by
  cases op with
  | distinct => exact absurd rfl other
  | and | or | strConcat => exact ⟨by decide, by decide⟩

theorem eval_nullary (op : NaryOp) (env : Assignment) :
    (nary op []).eval env = .ok op.identity := by
  cases op with
  | and | or | distinct | strConcat => rfl

/-- The value of an operator without operands is read back from its text. -/
theorem read_identity (op : NaryOp) :
    ∃ sort, op.identity.sort? = some sort ∧
      ∀ build, Value.read build op.identity.text sort = .ok op.identity := by
  cases op with
  | and | or | distinct => exact ⟨.bool, rfl, fun build => Value.read_text build rfl trivial⟩
  | strConcat => exact ⟨.string, rfl, fun build => Value.read_text build rfl trivial⟩

/-- An application to no operands is written as an atom, which denotes its value. -/
theorem bareApplication_atom {part : Term} (bare : part.IsBareApplication)
    (other : part ≠ .nary .distinct []) :
    part.tree = .atom part.text ∧ ∀ env value, part.eval env = .ok value →
      value.text = part.text ∧
      ∃ sort, value.sort? = some sort ∧ ∀ build, Value.read build part.text sort = .ok value := by
  obtain ⟨headed, empty⟩ := bare
  cases part with
  | nary op args =>
    obtain rfl : args = [] := empty
    have proper : op ≠ .distinct := by
      rintro rfl
      exact other rfl
    obtain ⟨written, text⟩ := text_nullary proper
    rw [text]
    refine ⟨written, fun env value given => ?_⟩
    obtain rfl : op.identity = value := Except.ok.inj ((eval_nullary op env).symm.trans given)
    exact ⟨rfl, read_identity op⟩
  | app name args =>
    obtain rfl : args = [] := empty
    have text : (app name []).text = name := String.ofList_toList
    rw [text]
    exact ⟨rfl, fun env value given => by cases given⟩
  | unary | binary | ite => cases empty
  | _ => exact absurd rfl headed

theorem read_text {term : Term} (named : ∀ name ∈ term.names, Sexp.IsAtom name) :
    Sexp.read term.text = .ok term.tree := by
  rw [Sexp.read_eq_ok_iff, Sexp.readAll, text, String.toList_ofList, ← chars_tree]
  exact Sexp.readAllChars_chars (everyAtom_tree term named)

/-- In the text of a term, the only lists with fewer than two items are those that applications of
`distinct` to no operands are written as. Every other application to no operands is written as an
atom, and where it has a value, the atom is the literal of that value. -/
theorem bare_applications_printed {term : Term}
    (named : ∀ name ∈ term.names, Sexp.IsAtom name) :
    Sexp.read term.text = .ok term.tree ∧
      (∀ items : List Sexp, items.length < 2 →
        ((Sexp.list items).Occurs term.tree ↔
          items = [.atom "distinct"] ∧ (nary .distinct []).Occurs term)) ∧
      ∀ part : Term, part.Occurs term → part.IsBareApplication → part ≠ .nary .distinct [] →
        (Sexp.atom part.text).Occurs term.tree ∧
        ∀ env value, part.eval env = .ok value →
          value.text = part.text ∧
          ∃ sort, value.sort? = some sort ∧
            ∀ build, Value.read build part.text sort = .ok value := by
  refine ⟨read_text named, fun items short => short_occurs_tree_iff short term, ?_⟩
  intro part occurs bare other
  obtain ⟨written, denotes⟩ := bareApplication_atom bare other
  exact ⟨written ▸ occurs_tree occurs, denotes⟩

/-- Applications to no operands below others, one of `distinct` among them, beside lists of one
operand. -/
def bareParts : Term :=
  .nary .or [.unary .not (.nary .and []), .binary .eq (.nary .strConcat []) (.app "|f (g)|" []),
    .app "f" [.app "c" [.nary .or []], .intLit (.wrap (-7)), .bitVecLit (.wrap 5) 8],
    .ite (.nary .distinct [.const "x"]) (.nary .distinct []) (.boolLit true)]

theorem bareParts_printed :
    (∀ name ∈ bareParts.names, Sexp.IsAtom name) ∧
      (Sexp.list [.atom "distinct"]).Occurs bareParts.tree ∧
      (Sexp.atom "\"\"").Occurs bareParts.tree ∧
      Sexp.read bareParts.text = .ok bareParts.tree := by
  have named : ∀ name ∈ bareParts.names, Sexp.IsAtom name := by
    intro name member
    simp only [bareParts, names, namesAll, List.mem_append, List.mem_cons, List.not_mem_nil,
      or_false, false_or, List.append_nil] at member
    rcases member with rfl | ⟨rfl | rfl⟩ | rfl <;> rfl
  obtain ⟨whole, short, atoms⟩ := bare_applications_printed named
  have inside (part : Term) (condition : Term) (member : condition ∈ bareParts.args)
      (below : part ∈ condition.args) : part.Occurs bareParts :=
    .operand member (.operand below .whole)
  have joined : (nary .strConcat []).Occurs bareParts :=
    inside _ (.binary .eq (.nary .strConcat []) (.app "|f (g)|" [])) (by simp [bareParts, args])
      (by simp [args])
  have apart : (nary .distinct []).Occurs bareParts :=
    inside _ (.ite (.nary .distinct [.const "x"]) (.nary .distinct []) (.boolLit true))
      (by simp [bareParts, args]) (by simp [args])
  exact ⟨named, (short _ (by decide)).mpr ⟨rfl, apart⟩,
    (atoms _ joined ⟨by decide, rfl⟩ (by decide)).1, whole⟩

/-- The application of `distinct` to no operands holds, yet its text is a list of the operator
alone. -/
theorem bare_distinct_keeps_parentheses :
    (nary .distinct []).text = "(distinct)" ∧
      Sexp.read "(distinct)" = .ok (.list [.atom "distinct"]) ∧
      (∀ env, (nary .distinct []).eval env = .ok (.bool true)) ∧
      ¬∀ term : Term, (∀ name ∈ term.names, Sexp.IsAtom name) →
        ∀ tree, Sexp.read term.text = .ok tree →
          ∀ operator, ¬(Sexp.list [.atom operator]).Occurs tree := by
  have text : (nary .distinct []).text = "(distinct)" := rfl
  have alone : Sexp.read "(distinct)" = .ok (.list [.atom "distinct"]) := rfl
  refine ⟨text, alone, eval_nullary .distinct, ?_⟩
  intro never
  have named : ∀ name ∈ (nary .distinct []).names, Sexp.IsAtom name :=
    fun name member => absurd member List.not_mem_nil
  exact never (nary .distinct []) named _ (text ▸ alone) "distinct" .whole

end Term

end SmtSession

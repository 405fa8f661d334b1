import SmtSession.Proofs.ModelEvaluation
import SmtSession.Proofs.ReplyStream
import SmtSession.Proofs.ValueText

namespace SmtSession

theorem lookupLast?_of_mem {α : Type} {name : String} {value : α} {entries : List (String × α)}
    (distinct : (entries.map (·.1)).Nodup) (member : (name, value) ∈ entries) :
    lookupLast? name entries = some value := by
  obtain ⟨front, back, split⟩ := List.append_of_mem (List.mem_reverse.mpr member)
  have apart : (entries.reverse.map (·.1)).Nodup := by
    rw [List.map_reverse]
    exact List.pairwise_reverse.mpr (distinct.imp fun differs => differs.symm)
  rw [split, List.map_append, List.map_cons, List.nodup_append] at apart
  rw [lookupLast?, split, List.lookup_eq_some_iff]
  refine ⟨front, back, rfl, ?_⟩
  intro other before
  have differs := apart.2.2 other.1 (List.mem_map_of_mem before) name List.mem_cons_self
  exact bne_iff_ne.mpr differs.symm

/-- An entry of a model that is printed: the value of a constant, or any other list. -/
inductive ModelEntry where
  | assigned (name : String) (sort : SmtSort) (value : Value)
  | other (items : List Sexp)

namespace ModelEntry

def definition (name : String) (sort value : Sexp) : List Sexp :=
  [.atom "define-fun", .atom name, .list [], sort, value]

def items : ModelEntry → List Sexp
  | .assigned name sort value => definition name sort.tree value.tree
  | .other items => items

def pair? : ModelEntry → Option (String × Value)
  | .assigned name _ value => some (name, value)
  | .other _ => none

/-- A value that a literal denotes, of the declared sort of its name, or an entry that is no
definition of a function without parameters. Names are well-formed, as is every other atom. -/
def Fits (sorts : List (String × SmtSort)) : ModelEntry → Prop
  | .assigned name sort value =>
    Sexp.WellFormed name.toList ∧ lookupLast? name sorts = some sort ∧
      value.sort? = some sort ∧ value.IsLiteral
  | .other items =>
    Sexp.EveryAtom (Sexp.WellFormed ·.toList) items ∧
      ∀ name sort value, items ≠ definition name sort value

theorem Fits.wellFormed {sorts : List (String × SmtSort)} {entry : ModelEntry}
    (fits : entry.Fits sorts) : Sexp.EveryAtom (Sexp.WellFormed ·.toList) entry.items := by
  cases entry with
  | other items => exact fits.1
  | assigned name sort value =>
    obtain ⟨named, _, ofSort, _⟩ := fits
    have keyword : Sexp.WellFormed "define-fun".toList := .word (by decide)
    have sorted : Sexp.EveryAtom (Sexp.WellFormed ·.toList) [sort.tree] := by
      refine SmtSort.everyAtom_tree (fun _ formed => formed) ?_
      cases value <;> cases ofSort <;> nofun
    have valued := value.everyAtom_tree ofSort
    simp only [items, definition, Sexp.everyAtom_atom, Sexp.everyAtom_list, Sexp.everyAtom_nil]
    rw [Sexp.everyAtom_cons]
    exact ⟨keyword, named, trivial, sorted, valued⟩

theorem assignment?_items {sorts : List (String × SmtSort)} {entry : ModelEntry}
    (fits : entry.Fits sorts) : ReplyEvent.assignment? (.list entry.items) =
      entry.pair?.map fun (name, value) => (name, value.text) := by
  cases entry with
  | assigned name sort value =>
    show some (name, value.tree.text) = some (name, value.text)
    rw [Value.text_tree]
  | other items =>
    show ReplyEvent.assignment? (.list items) = none
    unfold ReplyEvent.assignment?
    split
    · next name sort value same => exact absurd (Sexp.list.inj same) (fits.2 name sort value)
    · rfl

end ModelEntry

def ModelEntry.pairs (entries : List ModelEntry) : List (String × Value) :=
  entries.filterMap pair?

/-- The list that a model is printed as, with or without the word at its head. -/
def ModelEntry.reply (headed : Bool) (entries : List ModelEntry) : List Sexp :=
  (if headed then [.atom "model"] else []) ++ entries.map fun entry => .list entry.items

namespace ReplyEvent

variable {sorts : List (String × SmtSort)} {entries : List ModelEntry}

theorem modelEntries_reply (headed : Bool) (entries : List ModelEntry) :
    modelEntries (ModelEntry.reply headed entries) = entries.map fun entry => .list entry.items := by
  cases headed with
  | true => rfl
  | false => cases entries <;> rfl

theorem ofSexp_items (headed : Bool) (entries : List ModelEntry) :
    ofSexp (.list (ModelEntry.reply headed entries)) =
      .ok (.model ⟨(modelEntries (ModelEntry.reply headed entries)).filterMap assignment?⟩) := by
  cases headed with
  | true => rfl
  | false => cases entries <;> rfl

theorem assigned_eq (fits : ∀ entry ∈ entries, entry.Fits sorts) :
    (entries.map fun entry => Sexp.list entry.items).filterMap assignment? =
      (ModelEntry.pairs entries).map fun (name, value) => (name, value.text) := by
  induction entries with
  | nil => rfl
  | cons entry rest ih =>
    have first := ModelEntry.assignment?_items (fits entry List.mem_cons_self)
    have later := ih (fun other member => fits other (List.mem_cons_of_mem entry member))
    rw [List.map_cons, List.filterMap_cons, first, later]
    cases entry <;> rfl

/-- A printed model says its pairs, each value as its text. -/
theorem ofSexp_reply (headed : Bool) (fits : ∀ entry ∈ entries, entry.Fits sorts) :
    ofSexp (.list (ModelEntry.reply headed entries)) =
      .ok (.model ⟨(ModelEntry.pairs entries).map fun (name, value) => (name, value.text)⟩) := by
  rw [ofSexp_items, modelEntries_reply, assigned_eq fits]

end ReplyEvent

namespace ResultModel

variable {sorts : List (String × SmtSort)} {entries : List ModelEntry}

/-- A printed model has the values that were printed. -/
theorem typedValues_pairs (build : Build) (fits : ∀ entry ∈ entries, entry.Fits sorts) :
    typedValues build sorts ((ModelEntry.pairs entries).map fun (name, value) =>
      (name, value.text)) = .ok (ModelEntry.pairs entries) := by
  induction entries with
  | nil => rfl
  | cons entry rest ih =>
    have later := ih (fun other member => fits other (List.mem_cons_of_mem entry member))
    cases entry with
    | other items => exact later
    | assigned name sort value =>
      obtain ⟨_, declared, ofSort, literal⟩ := fits _ List.mem_cons_self
      have typed : typedValue build sorts name value.text = .ok value := by
        rw [typedValue, declared]
        exact Value.read_text build ofSort literal
      exact bind_eq_ok_iff.mpr ⟨value, typed, bind_eq_ok_iff.mpr ⟨_, later, rfl⟩⟩

/-- A result model answers for the names that it has a value for, at its own generation. -/
theorem get_and_evaluate {model : ResultModel} {name : String} {value : Value}
    (has : lookupLast? name model.assignment.values = some value) :
    model.get model.producedAt name = .ok (some value) ∧
      model.evaluate model.producedAt (.const name) = .ok (.ok value) := by
  have evaluated : (Term.const name).eval model.assignment = .ok value := by
    simp only [Term.eval, Assignment.lookup, has]
  have fresh : model.ensureFresh model.producedAt = .ok () := by simp [ensureFresh, isStale]
  exact ⟨by simp only [get, fresh, has], evaluate_of_value evaluated⟩

theorem wellFormed_reply (headed : Bool) (fits : ∀ entry ∈ entries, entry.Fits sorts) :
    Sexp.EveryAtom (Sexp.WellFormed ·.toList) (ModelEntry.reply headed entries) := by
  have head : Sexp.EveryAtom (Sexp.WellFormed ·.toList)
      (if headed then [.atom "model"] else []) := by
    cases headed with
    | true => exact (Sexp.everyAtom_atom _ _).mpr ⟨.word (by decide), Sexp.everyAtom_nil⟩
    | false => exact Sexp.everyAtom_nil
  rw [ModelEntry.reply, Sexp.everyAtom_append]
  refine ⟨head, ?_⟩
  induction entries with
  | nil => exact Sexp.everyAtom_nil
  | cons entry rest ih =>
    have later := ih (fun other member => fits other (List.mem_cons_of_mem entry member))
    exact (Sexp.everyAtom_list _ _).mpr ⟨(fits entry List.mem_cons_self).wellFormed, later⟩

/-- Every model with literal values can be printed. However it is printed, it is heard at its last
line as its pairs, and the result model has the value of every pair, both as the value of the name
and of the constant. -/
theorem reads_printed_model (headed : Bool) (producedAt : Nat)
    (fits : ∀ entry ∈ entries, entry.Fits sorts)
    (distinct : ((ModelEntry.pairs entries).map (·.1)).Nodup) :
    Sexp.ListLayout (ModelEntry.reply headed entries)
        ((Sexp.list (ModelEntry.reply headed entries)).chars ++ ['\n']) ∧
      ∀ lines : List String,
        Sexp.ListLayout (ModelEntry.reply headed entries) (Text.joined lines) →
        (∀ line ∈ lines, '\n' ∉ line.toList) →
        ∃ raw : Model,
          ReplyReader.results {} lines =
            (List.replicate (lines.length - 1) (.ok none) ++ [.ok (some (.model raw))], {}) ∧
          raw.assignments =
            (ModelEntry.pairs entries).map (fun (name, value) => (name, value.text)) ∧
          ∀ build, ∃ model, ofModel build producedAt sorts raw = .ok model ∧
            model.raw = raw ∧ model.assignment.values = ModelEntry.pairs entries ∧
            ∀ name value, (name, value) ∈ ModelEntry.pairs entries →
              model.get producedAt name = .ok (some value) ∧
                model.evaluate producedAt (.const name) = .ok (.ok value) := by
  refine ⟨Sexp.listLayout_chars (wellFormed_reply headed fits), ?_⟩
  intro lines layout oneLine
  have printed : Prints lines _ := .tree layout oneLine (ReplyEvent.ofSexp_reply headed fits)
  refine ⟨_, ReplyReader.results_piece printed, rfl, fun build => ?_⟩
  obtain ⟨model, given, generation, text, values⟩ : ∃ model,
      ofModel build producedAt sorts ⟨(ModelEntry.pairs entries).map fun (name, value) =>
        (name, value.text)⟩ = .ok model ∧ model.producedAt = producedAt ∧
      model.raw.assignments = (ModelEntry.pairs entries).map (fun (name, value) =>
        (name, value.text)) ∧ model.assignment.values = ModelEntry.pairs entries :=
    ⟨_, bind_eq_ok_iff.mpr ⟨_, typedValues_pairs build fits, rfl⟩, rfl, rfl, rfl⟩
  refine ⟨model, given, congrArg Model.mk text, values, fun name value member => ?_⟩
  rw [← generation]
  exact get_and_evaluate (values ▸ lookupLast?_of_mem distinct member)

/-- A model whose values look like text of the answer: a string of a quote, a backslash that seems to
begin an escape, a parenthesis, a line end and a bar; a negative number; a width above 128. -/
def trickyEntries : List ModelEntry :=
  [.assigned "|a ) b|" .string (.str "\"\\u{41}; (\n|"),
    .other [.atom "declare-fun", .atom "f", .list [.atom "Int"], .atom "Int"],
    .assigned "n" .int (.int ⟨-5, by decide, by decide⟩),
    .assigned "v" (.bitVec 130) (.bitVec 7 130)]

def trickyLines : List String :=
  ["(model ; values follow", " (define-fun |a ) b|", "() String \"\"\"\\u{5c}u{41}; (\\u{a}|\")",
    "(declare-fun f (Int) Int)(define-fun n ()Int (- 5", ")) (define-fun v () (_ BitVec 130)",
    "(_ bv7 130)))"]

def trickyTokens : List Sexp.Token :=
  [.atom "model", .opening, .atom "define-fun", .atom "|a ) b|", .opening, .closing,
    .atom "String", .atom "\"\"\"\\u{5c}u{41}; (\\u{a}|\"", .closing, .opening,
    .atom "declare-fun", .atom "f", .opening, .atom "Int", .closing, .atom "Int", .closing,
    .opening, .atom "define-fun", .atom "n", .opening, .closing, .atom "Int", .opening, .atom "-",
    .atom "5", .closing, .closing, .opening, .atom "define-fun", .atom "v", .opening, .closing,
    .opening, .atom "_", .atom "BitVec", .atom "130", .closing, .opening, .atom "_", .atom "bv7",
    .atom "130", .closing, .closing]

theorem flatten_trickyEntries :
    Sexp.flatten (ModelEntry.reply true trickyEntries) = trickyTokens := by
  decide

theorem trickyEntries_layout :
    Sexp.ListLayout (ModelEntry.reply true trickyEntries) (Text.joined trickyLines) := by
  have word (name : String) {tokens : List Sexp.Token} {text : List Char}
      (bare : Sexp.IsBareWord name.toList) (apart : text.head?.all Sexp.separates = true)
      (rest : Sexp.Layout tokens text) : Sexp.Layout (.atom name :: tokens) (name.toList ++ text) := by
    refine .atom (.word bare) ?_ rest
    intro c same
    rw [same] at apart
    exact apart
  have space {tokens : List Sexp.Token} {text : List Char} (rest : Sexp.Layout tokens text) :
      Sexp.Layout tokens (' ' :: text) := .blank rfl rest
  have lineEnd {tokens : List Sexp.Token} {text : List Char} (rest : Sexp.Layout tokens text) :
      Sexp.Layout tokens ('\n' :: text) := .blank rfl rest
  have name : Sexp.WellFormed "|a ) b|".toList := @Sexp.WellFormed.symbol "a ) b".toList (by decide)
  have literal : Sexp.WellFormed "\"\"\"\\u{5c}u{41}; (\\u{a}|\"".toList :=
    .string "\"\\u{5c}u{41}; (\\u{a}|".toList
  have vector : Sexp.Layout _ _ :=
    .opening <| word "define-fun" (by decide) rfl <| space <| word "v" (by decide) rfl <| space <|
    .opening <| .closing <| space <| .opening <| word "_" (by decide) rfl <| space <|
    word "BitVec" (by decide) rfl <| space <| word "130" (by decide) rfl <| .closing <| lineEnd <|
    .opening <| word "_" (by decide) rfl <| space <| word "bv7" (by decide) rfl <| space <|
    word "130" (by decide) rfl <| .closing <| .closing .done
  have number : Sexp.Layout _ _ :=
    .opening <| word "define-fun" (by decide) rfl <| space <| word "n" (by decide) rfl <| space <|
    .opening <| .closing <| word "Int" (by decide) rfl <| space <| .opening <|
    word "-" (by decide) rfl <| space <| word "5" (by decide) rfl <| lineEnd <| .closing <|
    .closing <| space vector
  have function : Sexp.Layout _ _ :=
    .opening <| word "declare-fun" (by decide) rfl <| space <| word "f" (by decide) rfl <| space <|
    .opening <| word "Int" (by decide) rfl <| .closing <| space <| word "Int" (by decide) rfl <|
    .closing number
  have text : Sexp.Layout _ _ :=
    .opening <| word "define-fun" (by decide) rfl <| space <| .atom name (by rintro c ⟨⟩; rfl) <|
    lineEnd <| .opening <| .closing <| space <| word "String" (by decide) rfl <| space <|
    .atom literal (by rintro c ⟨⟩; rfl) <| .closing <| lineEnd function
  have note : '\n' ∉ " values follow".toList := by decide
  have inner : Sexp.Layout trickyTokens _ :=
    word "model" (by decide) rfl <| space <|
    .comment note <| space text
  rw [← flatten_trickyEntries] at inner
  exact .intro Text.isBlankRun_nil List.not_mem_nil inner
    (.blanks Text.isBlankRun_nil List.not_mem_nil)

theorem trickyEntries_read_back :
    (∀ entry ∈ trickyEntries, entry.Fits
      [("n", .int), ("v", .bitVec 130), ("|a ) b|", .string)]) ∧
    ((ModelEntry.pairs trickyEntries).map (·.1)).Nodup ∧
    ∃ raw : Model,
      ReplyReader.results {} trickyLines =
        (List.replicate 5 (.ok none) ++ [.ok (some (.model raw))], {}) ∧
      (ofModel .checked 3 [("n", .int), ("v", .bitVec 130), ("|a ) b|", .string)] raw >>= fun model =>
        model.evaluate 3 (.const "|a ) b|")) = .ok (.ok (.str "\"\\u{41}; (\n|")) := by
  have fits : ∀ entry ∈ trickyEntries, entry.Fits
      [("n", .int), ("v", .bitVec 130), ("|a ) b|", .string)] := by
    intro entry member
    simp only [trickyEntries, List.mem_cons, List.not_mem_nil, or_false] at member
    rcases member with rfl | rfl | rfl | rfl
    · exact ⟨@Sexp.WellFormed.symbol "a ) b".toList (by decide), rfl, rfl, trivial⟩
    · refine ⟨?_, fun name sort value same => by simp [ModelEntry.definition] at same⟩
      have words : ∀ name ∈ ["declare-fun", "f", "Int"], Sexp.WellFormed name.toList :=
        fun name member => .word ((show ∀ name ∈ ["declare-fun", "f", "Int"],
          Sexp.IsBareWord name.toList by decide) name member)
      simpa using words
    · exact ⟨.word (by decide), rfl, rfl,
        show (-5 : Int) ≠ -0x80000000000000000000000000000000 by decide⟩
    · exact ⟨.word (by decide), rfl, rfl, show (7 : BitVec 128).toNat < 2 ^ 130 by decide⟩
  have distinct : ((ModelEntry.pairs trickyEntries).map (·.1)).Nodup := by decide
  obtain ⟨raw, heard, _, valued⟩ :=
    (reads_printed_model true 3 fits distinct).2 trickyLines trickyEntries_layout (by decide)
  obtain ⟨model, given, _, _, has⟩ := valued .checked
  refine ⟨fits, distinct, raw, heard, ?_⟩
  rw [given, ok_bind]
  exact (has _ _ (by decide)).2

end ResultModel

end SmtSession

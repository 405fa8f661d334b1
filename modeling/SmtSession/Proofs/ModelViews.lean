import SmtSession.Proofs.ModelEvaluation
import SmtSession.Proofs.ModelReply

namespace SmtSession

/-- The value of a constant of a sort, from the text assigned to it if there is one. -/
def Value.ofText? (build : Build) (sort : SmtSort) : Option String → Checked (Option Value)
  | some text => (read build text sort).map some
  | none => .ok (default? sort)

theorem Value.ofText?_inj {build : Build} {sort : SmtSort} {first last : String} :
    ofText? build sort (some first) = ofText? build sort (some last) ↔
      read build first sort = read build last sort := by
  cases one : read build first sort <;> cases two : read build last sort <;>
    simp [ofText?, one, two, Except.map]

/-- A name has a first text where it has a last one. -/
theorem Model.get?_eq_none_iff {raw : Model} {name : String} :
    raw.get? name = none ↔ lookupLast? name raw.assignments = none := by
  simp [get?, lookupLast?, List.lookup_eq_none_iff]

namespace ResultModel

variable {build : Build} {producedAt : Nat} {sorts : List (String × SmtSort)} {raw : Model}
  {model : ResultModel} {name : String} {sort : SmtSort}

/-- A fresh model has the value of the last text of a name. -/
theorem ReadFrom.get (readFrom : ReadFrom build producedAt sorts raw model)
    (declared : lookupLast? name sorts = some sort) :
    ∃ found, model.get producedAt name = .ok found ∧
      Value.ofText? build sort (lookupLast? name raw.assignments) = .ok found := by
  have fresh : model.ensureFresh producedAt = .ok () := by
    simp [ensureFresh, isStale, readFrom.sameGeneration]
  have same := readFrom.lookup name
  simp only [ResultModel.get, fresh, readFrom.sameSorts, declared]
  cases lastText : lookupLast? name raw.assignments with
  | none =>
    rw [lastText, Option.map_none, Option.map_eq_none_iff] at same
    rw [same]
    exact ⟨_, rfl, rfl⟩
  | some text =>
    rw [lastText, Option.map_some, typedValue, declared] at same
    obtain ⟨value, found, taken⟩ := Option.map_eq_some_iff.mp same
    rw [found]
    exact ⟨_, rfl, congrArg (Except.map some) taken.symm⟩

theorem evaluate_const_iff (model : ResultModel) (generation : Nat) (name : String)
    (value : Value) : model.evaluate generation (.const name) = .ok (.ok value) ↔
      model.get generation name = .ok (some value) := by
  rw [evaluate, get]
  cases model.ensureFresh generation with
  | error err => simp
  | ok _ =>
    simp only [Term.eval, Assignment.lookup]
    cases lookupLast? name model.assignment.values with
    | some assigned => simp
    | none =>
      cases lookupLast? name model.assignment.sorts with
      | none => simp [EvalFault.message]
      | some sort =>
        simp only [Option.bind_some]
        cases Value.default? sort <;> simp [EvalFault.message]

/-- The value of a name with a declared sort is that of its last text, or the default of the sort;
it is that of the first text, which the raw model gives, exactly when both are read as one value, as
they are when no name is repeated. The value as a term is the same. -/
theorem views_agree_iff (given : ofModel build producedAt sorts raw = .ok model)
    (declared : lookupLast? name sorts = some sort) :
    ∃ found, model.get producedAt name = .ok found ∧
      Value.ofText? build sort (lookupLast? name raw.assignments) = .ok found ∧
      (Value.ofText? build sort (model.raw.get? name) = .ok found ↔
        ∀ first last, raw.get? name = some first → lookupLast? name raw.assignments = some last →
          Value.read build first sort = Value.read build last sort) ∧
      ((raw.assignments.map (·.1)).Nodup →
        Value.ofText? build sort (model.raw.get? name) = .ok found) ∧
      ∀ value, model.evaluate producedAt (.const name) = .ok (.ok value) ↔
        model.get producedAt name = .ok (some value) := by
  have readFrom := readFrom_of_ofModel given
  obtain ⟨found, asked, typed⟩ := readFrom.get declared
  have agree : Value.ofText? build sort (model.raw.get? name) = .ok found ↔
      ∀ first last, raw.get? name = some first → lookupLast? name raw.assignments = some last →
        Value.read build first sort = Value.read build last sort := by
    rw [readFrom.sameRaw, ← typed]
    cases firstText : raw.get? name with
    | none => simp [Model.get?_eq_none_iff.mp firstText]
    | some first =>
      cases lastText : lookupLast? name raw.assignments with
      | none =>
        rw [Model.get?_eq_none_iff.mpr lastText] at firstText
        cases firstText
      | some last => simp [Value.ofText?_inj]
  refine ⟨found, asked, typed, agree, fun distinct => agree.mpr ?_,
    fun value => evaluate_const_iff _ _ _ value⟩
  intro first last firstText lastText
  obtain ⟨front, back, split, _⟩ := List.lookup_eq_some_iff.mp firstText
  have member : (name, first) ∈ raw.assignments :=
    split ▸ List.mem_append_right _ List.mem_cons_self
  rw [lookupLast?_of_mem distinct member] at lastText
  rw [Option.some.inj lastText]

/-- A name with three texts, of which the first and the last are read as one value. -/
def repeatedTexts : Model :=
  ⟨[("b", "#x05"), ("u", "u!0"), ("b", "#b111"), ("b", " (_ bv5 8) ")]⟩

theorem repeatedTexts_agree :
    lookupLast? "b" [("b", SmtSort.int), ("b", .bitVec 8)] = some (.bitVec 8) ∧
      ∃ model found, ofModel .checked 7 [("b", .int), ("b", .bitVec 8)] repeatedTexts = .ok model ∧
        model.get 7 "b" = .ok found ∧
        Value.ofText? .checked (.bitVec 8) (repeatedTexts.get? "b") = .ok found ∧
        model.evaluate 7 (.const "b") = .ok (.ok (.bitVec 5 8)) := by
  have declared : lookupLast? "b" [("b", SmtSort.int), ("b", .bitVec 8)] = some (.bitVec 8) := rfl
  obtain ⟨model, given⟩ : ∃ model,
      ofModel .checked 7 [("b", .int), ("b", .bitVec 8)] repeatedTexts = .ok model := ⟨_, rfl⟩
  obtain ⟨found, asked, typed, agree, _, asTerm⟩ := views_agree_iff given declared
  have same : Value.read .checked "#x05" (.bitVec 8) =
      Value.read .checked " (_ bv5 8) " (.bitVec 8) := by decide +kernel
  have value : Value.ofText? .checked (.bitVec 8)
      (lookupLast? "b" repeatedTexts.assignments) = .ok (some (.bitVec 5 8)) := by decide +kernel
  obtain rfl : some (.bitVec 5 8) = found := Except.ok.inj (value.symm.trans typed)
  refine ⟨declared, model, _, given, asked, ?_, (asTerm _).mpr asked⟩
  rw [(readFrom_of_ofModel given).sameRaw] at agree
  refine agree.mpr fun first last firstText lastText => ?_
  cases firstText
  cases lastText
  exact same

/-- Of two texts of one name the raw model gives the first, and the value is that of the second. -/
theorem repeated_name_disagrees :
    (∃ model, ofModel .checked 0 [("a", .int)] ⟨[("a", "1"), ("a", "2")]⟩ = .ok model ∧
      model.raw.get? "a" = some "1" ∧ model.get 0 "a" = .ok (some (.int (.wrap 2)))) ∧
    ¬∀ (producedAt : Nat) (sorts : List (String × SmtSort)) (raw : Model) (model : ResultModel)
      (name : String) (sort : SmtSort), ofModel .checked producedAt sorts raw = .ok model →
      lookupLast? name sorts = some sort →
      ∃ found, model.get producedAt name = .ok found ∧
        Value.ofText? .checked sort (model.raw.get? name) = .ok found := by
  refine ⟨⟨_, rfl, rfl, rfl⟩, ?_⟩
  intro always
  obtain ⟨found, asked, typed⟩ :=
    always 0 [("a", .int)] ⟨[("a", "1"), ("a", "2")]⟩ _ "a" .int rfl rfl
  have second : some (Value.int (.wrap 2)) = found := Except.ok.inj asked
  have first : some (Value.int (.wrap 1)) = found := Except.ok.inj typed
  exact absurd (first.trans second.symm) (by decide)

end ResultModel

end SmtSession

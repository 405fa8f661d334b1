import SmtSession.Emitter
import SmtSession.Proofs.Milestones
import SmtSession.Proofs.Operators

namespace SmtSession

theorem exists_of_map_ok {ε α β : Type} {f : α → β} {result : Except ε α} {value : β}
    (mapped : result.map f = .ok value) : ∃ inner, result = .ok inner ∧ f inner = value := by
  rcases result with err | inner
  · cases mapped
  · exact ⟨inner, rfl, Except.ok.inj mapped⟩

namespace ResultModel

/-- A model is asked for a name: it answers exactly at its own generation. -/
theorem get_stale_iff (model : ResultModel) (generation : Nat) (name : String) :
    (model.get generation name = .error (.staleModel model.producedAt generation) ↔
        generation ≠ model.producedAt) ∧
      (generation = model.producedAt → ∃ value, model.get generation name = .ok value) := by
  by_cases fresh : generation = model.producedAt
  · simp [get, ensureFresh, isStale, fresh]
  · simp [get, ensureFresh, isStale, fresh]

/-- A model is asked for the value of a term: only at another generation it is stale. -/
theorem evaluate_stale_iff (model : ResultModel) (generation : Nat) (term : Term) :
    (model.evaluate generation term = .ok (.error (.staleModel model.producedAt generation)) ↔
        generation ≠ model.producedAt) ∧
      (generation = model.producedAt → ∀ produced current,
        model.evaluate generation term ≠ .ok (.error (.staleModel produced current))) := by
  by_cases fresh : generation = model.producedAt
  · have unmoved : model.ensureFresh generation = .ok () := by simp [ensureFresh, isStale, fresh]
    have answered : ∀ produced current,
        model.evaluate generation term ≠ .ok (.error (.staleModel produced current)) := by
      intro produced current given
      simp only [evaluate, unmoved] at given
      split at given
      · cases given
      · -- A fault is said or stops the program; neither is staleness.
        obtain ⟨message, _, other⟩ := bind_eq_ok_iff.mp given
        cases other
    exact ⟨iff_of_false (answered _ _) (not_not_intro fresh), fun _ => answered⟩
  · simp [evaluate, ensureFresh, isStale, fresh]

theorem producedAt_of_fetched {fetched : Except SolverError Model} {build : Build}
    {generation : Nat} {sorts : List (String × SmtSort)} {model : ResultModel}
    (given : fetched.map (ofModel build generation sorts) = .ok (.ok model)) :
    model.producedAt = generation := by
  obtain ⟨raw, _, taken⟩ := exists_of_map_ok given
  obtain ⟨values, _, made⟩ := bind_eq_ok_iff.mp taken
  cases made
  rfl

end ResultModel

namespace Session

variable {β ε : Type} [Backend β] [Emitter ε] {session : Session β ε}

/-- Some call of a run makes a change, or ends the session. -/
def IsChangedBy (session : Session β ε) (steps : List Step) : Prop :=
  ∃ earlier call later, steps = earlier ++ .call call :: later ∧
    (session.run earlier).2.Affects call

theorem changed_mem_callMilestones (coherent : session.Coherent) {call : Call} :
    .changed ∈ session.callMilestones call ↔ session.Affects call := by
  rw [← takesEffect_iff coherent]
  simp [callMilestones]

/-- The changes that take effect are milestones. -/
theorem isChangedBy_iff (coherent : session.Coherent) {steps : List Step} :
    session.IsChangedBy steps ↔ .changed ∈ session.milestones steps := by
  induction steps generalizing session with
  | nil => simp [IsChangedBy, milestones]
  | cons step rest ih =>
    rw [milestones, List.mem_append, ← ih (step_coherent coherent step)]
    constructor
    · rintro ⟨earlier, call, later, split, effective⟩
      rcases earlier with _ | ⟨first, earlier⟩
      · obtain ⟨rfl, rfl⟩ := List.cons.inj split
        exact .inl ((changed_mem_callMilestones coherent).mpr effective)
      · obtain ⟨rfl, rfl⟩ := List.cons.inj split
        exact .inr ⟨earlier, call, later, rfl, effective⟩
    · rintro (now | ⟨earlier, call, later, rfl, effective⟩)
      · cases step with
        | call call => exact ⟨[], call, rest, rfl, (changed_mem_callMilestones coherent).mp now⟩
        | signal _ | expect _ | settle => cases now
      · exact ⟨step :: earlier, call, later, rfl, effective⟩

theorem count_changed_le (steps : List Step) :
    (session.milestones steps).count .changed ≤ (Step.calls steps).length := by
  induction steps generalizing session with
  | nil => exact Nat.le_refl 0
  | cons step rest ih =>
    have later : ((session.step step).2.milestones rest).count .changed ≤
        (Step.calls rest).length := ih
    rw [milestones, List.count_append]
    cases step with
    | call call =>
      have once : (session.callMilestones call).count .changed ≤ 1 := by
        simp only [callMilestones]
        rcases session.completion call with _ | outcome <;> cases session.takesEffect call <;> simp
      simp only [stepMilestones, Step.calls, List.filterMap_cons, Step.call?,
        List.length_cons] at later ⊢
      omega
    | signal _ | expect _ | settle =>
      simpa [stepMilestones, Step.calls, Step.call?, List.filterMap_cons] using later

theorem model_producedAt {model : ResultModel} (given : session.model.1 = .ok (.ok model)) :
    model.producedAt = session.generation := by
  rcases session.model_contacts with
    ⟨_, _, called, _⟩ | ⟨backend, _, _, _, _, called, _⟩ | ⟨_, _, _, called, _⟩
  · simp [called] at given
  · exact ResultModel.producedAt_of_fetched (called ▸ given)
  · exact ResultModel.producedAt_of_fetched (called ▸ given)

/-- The session that gives a model out is at the generation of the model. -/
theorem given_producedAt {call : Call} {model : ResultModel}
    (given : (session.call call).1 = .ok (.model (some (.ok model)))) :
    model.producedAt = (session.call call).2.generation := by
  have bound {session : Session β ε} (given : session.model.1 = .ok (.ok model)) :
      model.producedAt = session.model.2.generation := by
    rw [model_producedAt given]
    exact (congrArg Standing.generation session.model_standing).symm
  cases call with
  | model =>
    obtain ⟨produced, found, same⟩ := exists_of_map_ok given
    cases same
    exact bound found
  | getModel =>
    obtain ⟨produced, found, same⟩ := exists_of_map_ok given
    cases same
    simp only [call, Session.getModel] at found ⊢
    rcases called : session.check with ⟨err | outcome, checked⟩
    · simp [called] at found
    · by_cases sat : outcome.isSat
      · simp only [called, sat, ↓reduceIte] at found ⊢
        obtain ⟨_, found, same⟩ := exists_of_map_ok found
        cases same
        exact bound found
      · simp [called, sat] at found
  | apply _ | submitCheck | awaitOutcome | check | destroy =>
    obtain ⟨_, _, other⟩ := exists_of_map_ok given
    cases other

theorem run_generation (coherent : session.Coherent) (steps : List Step) :
    (session.run steps).2.generation =
      session.generation + (session.milestones steps).count .changed := by
  have moved := congrArg Standing.generation (run_standing coherent steps)
  rw [Standing.generation_enter] at moved
  exact moved

theorem generation_of_given {call : Call} {model : ResultModel} (coherent : session.Coherent)
    (given : (session.call call).1 = .ok (.model (some (.ok model)))) :
    (session.call call).2.generation = session.generation := by
  have none : (session.callMilestones call).count .changed = 0 := by
    rw [List.count_eq_zero, changed_mem_callMilestones coherent]
    intro affects
    cases affects with
    | change _ _ _ =>
      obtain ⟨_, _, other⟩ := exists_of_map_ok given
      cases other
    | destroy _ =>
      obtain ⟨_, _, other⟩ := exists_of_map_ok given
      cases other
  have moved := congrArg Standing.generation (call_standing coherent call)
  rw [Standing.generation_enter, none] at moved
  exact moved

/-- The generation has moved on from a model when a change has taken effect since. -/
theorem outdated_iff {call : Call} {model : ResultModel} (coherent : session.Coherent)
    (given : (session.call call).1 = .ok (.model (some (.ok model)))) (after : List Step) :
    ((session.call call).2.run after).2.generation ≠ model.producedAt ↔
      (session.call call).2.IsChangedBy after := by
  have later : (session.call call).2.Coherent := call_coherent coherent call
  rw [isChangedBy_iff later, run_generation later, given_producedAt given, ← List.count_pos_iff]
  omega

/-- A model answers for its names and for terms until a change takes effect after it was given out,
whether the command of the change arrives or not. It is stale from then on, whatever happens later,
and says so with its own generation and the current one, which count the changes that had taken
effect. Both stay in range for as long as there are few calls. -/
theorem stale_iff_changed {config : SessionConfig} {backend : β} {context : Context ε}
    {before after : List Step} {call : Call} {model : ResultModel}
    (started : startOn config backend context = .ok session)
    (few : (Step.calls (before ++ .call call :: after)).length < UInt64.size)
    (given : ((session.run before).2.call call).1 = .ok (.model (some (.ok model)))) :
    let produced := ((session.run before).2.call call).2
    let now := (session.run (before ++ .call call :: after)).2.generation
    (model.producedAt = (session.milestones before).count .changed ∧
      now = (session.milestones (before ++ .call call :: after)).count .changed ∧
      now < UInt64.size) ∧
    (∀ name,
      (model.get now name = .error (.staleModel model.producedAt now) ↔
        produced.IsChangedBy after) ∧
      (¬ produced.IsChangedBy after → ∃ value, model.get now name = .ok value)) ∧
    (∀ term,
      (model.evaluate now term = .ok (.error (.staleModel model.producedAt now)) ↔
        produced.IsChangedBy after) ∧
      (¬ produced.IsChangedBy after → ∀ earlier current,
        model.evaluate now term ≠ .ok (.error (.staleModel earlier current)))) ∧
    ∀ earlier later, after = earlier ++ later →
      produced.IsChangedBy earlier → produced.IsChangedBy after := by
  intro produced now
  obtain ⟨coherent, fresh⟩ := startOn_coherent started
  have reached : (session.run before).2.Coherent := run_coherent coherent before
  have last : (session.run (before ++ .call call :: after)).2 = (produced.run after).2 := by
    rw [run_append]
    rfl
  have counted (steps : List Step) :
      (session.run steps).2.generation = (session.milestones steps).count .changed := by
    have zero : session.generation = 0 := congrArg Standing.generation fresh
    rw [run_generation coherent, zero, Nat.zero_add]
  have bound : model.producedAt = produced.generation := given_producedAt given
  have unchanged : produced.generation = (session.run before).2.generation :=
    generation_of_given reached given
  have changed : now ≠ model.producedAt ↔ produced.IsChangedBy after := by
    rw [← outdated_iff reached given, ← last]
  have still (unchanged : ¬ produced.IsChangedBy after) : now = model.producedAt :=
    Decidable.not_not.mp (mt changed.mp unchanged)
  have few : now < UInt64.size := by
    have counts : now = _ := counted _
    rw [counts]
    exact Nat.lt_of_le_of_lt (count_changed_le _) few
  refine ⟨⟨?_, counted _, few⟩, ?_, ?_, ?_⟩
  · rw [bound, unchanged, counted]
  · intro name
    obtain ⟨stale, answers⟩ := model.get_stale_iff now name
    exact ⟨stale.trans changed, fun unchanged => answers (still unchanged)⟩
  · intro term
    obtain ⟨stale, answers⟩ := model.evaluate_stale_iff now term
    exact ⟨stale.trans changed, fun unchanged => answers (still unchanged)⟩
  · rintro earlier later rfl ⟨first, call, second, rfl, effective⟩
    exact ⟨first, call, second ++ later, by simp, effective⟩

/-- A session whose emitter has room for one check. -/
def cramped : Session Shadow Stream where
  config := { quick with mode := .native }
  options := []
  backend := some {}
  context :=
    { emitter := { room := some 12 }
      exchange := { notices := [createdNotice { quick with mode := .native } []] }
      origin := .channel }

/-- The command that opens a frame is lost, and the model of before is stale all the same. -/
theorem cramped_stale :
    startOn { quick with mode := .native } ({} : Shadow)
        ⟨({ room := some 12 } : Stream), {}, .channel⟩ = .ok cramped ∧
      ((cramped.run [.call .check]).2.call .model).1 = .ok (.model (some (.ok ⟨0, {}, {}⟩))) ∧
      (cramped.run [.call .check, .call .model, .call (.apply .push)]).2.state = .faulted ∧
      (⟨0, {}, {}⟩ : ResultModel).get 1 "x" = .error (.staleModel 0 1) := by
  have started : startOn { quick with mode := .native } ({} : Shadow)
      ⟨({ room := some 12 } : Stream), {}, .channel⟩ = .ok cramped := rfl
  have few : (Step.calls ([.call .check] ++ .call .model :: [.call (.apply .push)])).length <
      UInt64.size := by decide
  have given : ((cramped.run [.call .check]).2.call .model).1 =
      .ok (.model (some (.ok ⟨0, {}, {}⟩))) := rfl
  have faulted : (cramped.run [.call .check, .call .model, .call (.apply .push)]).2.state =
      .faulted := by decide +kernel
  have pushed : ((cramped.run [.call .check]).2.call .model).2.IsChangedBy
      [.call (.apply .push)] := ⟨[], .apply .push, [], rfl, .change rfl rfl rfl⟩
  obtain ⟨_, names, _⟩ := stale_iff_changed started few given
  exact ⟨started, given, faulted, (names "x").1.mpr pushed⟩

end Session

end SmtSession

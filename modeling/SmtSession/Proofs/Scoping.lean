import SmtSession.Proofs.Lockstep
import SmtSession.Proofs.Milestones

/-! Scoping: what is declared and asserted above a frame is gone once that frame is closed, and all
below it is as it was. The invariant is that the frames of the outer session stay below those opened
since, in the records and in the shadow alike. -/
namespace SmtSession

namespace Frames

variable {α : Type} {base frames : Frames α} {height : Nat}

/-- Frames that stand above others, as many as the height says. -/
def Above (base : Frames α) (height : Nat) (frames : Frames α) : Prop :=
  ∃ inner, inner.length = height ∧ frames.stack = inner ++ base.stack

theorem Above.none (frames : Frames α) : Above frames 0 frames := ⟨[], rfl, rfl⟩

theorem Above.eq_of_zero (above : Above base 0 frames) : frames = base := by
  obtain ⟨inner, none, stack⟩ := above
  obtain rfl := List.length_eq_zero_iff.mp none
  obtain ⟨top, below⟩ := base
  obtain ⟨rfl, rfl⟩ := List.cons.inj stack
  rfl

theorem Above.push (above : Above base height frames) : Above base (height + 1) frames.push := by
  obtain ⟨inner, rfl, stack⟩ := above
  exact ⟨[] :: inner, rfl, congrArg ([] :: ·) stack⟩

/-- New entries go to the innermost frame, and so to none of those below. -/
theorem Above.add (above : Above base height frames) (opened : 0 < height) (entries : List α) :
    Above base height (frames.add entries) := by
  obtain ⟨_ | ⟨top, inner⟩, rfl, stack⟩ := above
  · exact absurd opened (Nat.lt_irrefl 0)
  · obtain ⟨rfl, below⟩ := List.cons.inj stack
    exact ⟨(frames.top ++ entries) :: inner, rfl, congrArg ((frames.top ++ entries) :: ·) below⟩

theorem Above.pop {n : Nat} (above : Above base height frames) (within : n ≤ height) :
    Above base (height - n) (frames.pop n) := by
  obtain ⟨inner, rfl, stack⟩ := above
  have lengths := congrArg List.length stack
  simp only [length_stack, List.length_append] at lengths
  refine ⟨inner.drop n, List.length_drop, ?_⟩
  rw [stack_pop (by omega), stack, List.drop_append_of_le_length within]

end Frames

namespace Shadow

variable {shadow after : Shadow} {operation : Operation}

/-- The shadow without its note of the last check. -/
def unchecked (shadow : Shadow) : Shadow := { shadow with lastCheck := none }

/-- A change that is made leaves the options, and no note of a check. -/
theorem perform_keeps (made : shadow.perform operation = (.ok (), after)) :
    after.options = shadow.options ∧ after.lastCheck = none := by
  cases operation with
  | pop n =>
    simp only [perform] at made
    split at made
    · obtain ⟨_, rfl⟩ := Prod.mk.inj made
      exact ⟨rfl, rfl⟩
    · cases made
  | declare name sort | assert term | assertText text | push | reset =>
    obtain ⟨_, rfl⟩ := Prod.mk.inj made
    exact ⟨rfl, rfl⟩

end Shadow

namespace Session

variable {ε : Type} {outer session : Session Shadow ε} {base : Shadow} {height : Nat}

/-- A session that has opened frames within an outer one, and has left alone what is below them. -/
structure Encloses (outer : Session Shadow ε) (base : Shadow) (height : Nat)
    (session : Session Shadow ε) : Prop where
  depth : session.depth = outer.depth + height
  records : Frames.Above outer.frames height session.frames
  options : ∀ shadow, session.backend = some shadow → shadow.options = base.options
  shadow : ∀ shadow, session.backend = some shadow → Frames.Above base.frames height shadow.frames

theorem Encloses.refl (present : session.backend = some base) :
    session.Encloses base 0 session := by
  refine ⟨rfl, .none _, ?_, ?_⟩
  · intro shadow found
    rw [Option.some.inj (present.symm.trans found)]
  · intro shadow found
    rw [Option.some.inj (present.symm.trans found)]
    exact .none _

/-- Frames are enclosed until frames, depth or shadow change; the note of a check does not count. -/
theorem Encloses.kept {after : Session Shadow ε} (encloses : outer.Encloses base height session)
    (depth : after.depth = session.depth) (frames : after.frames = session.frames)
    (backend : after.backend.map Shadow.unchecked = session.backend.map Shadow.unchecked) :
    outer.Encloses base height after := by
  have before (shadow : Shadow) (found : after.backend = some shadow) : ∃ before,
      session.backend = some before ∧ shadow.options = before.options ∧
        shadow.frames = before.frames := by
    rw [found] at backend
    obtain ⟨before, present, same⟩ := Option.map_eq_some_iff.mp backend.symm
    obtain ⟨options, frames, _⟩ := Shadow.mk.inj same
    exact ⟨before, present, options.symm, frames.symm⟩
  refine ⟨depth ▸ encloses.depth, frames ▸ encloses.records, ?_, ?_⟩
  · intro shadow found
    obtain ⟨before, present, options, _⟩ := before shadow found
    exact options ▸ encloses.options before present
  · intro shadow found
    obtain ⟨before, present, _, frames⟩ := before shadow found
    exact frames ▸ encloses.shadow before present

/-- A change acts on the frames opened since, as long as it closes no other. -/
theorem Encloses.book {operation : Operation} {declared : List (String × SmtSort)}
    {before after : Shadow} (encloses : outer.Encloses base height session)
    (opened : 0 < height ∨ operation = .push)
    (permitted : session.permit operation = .ok declared) (present : session.backend = some before)
    (made : before.perform operation = (.ok (), after))
    (within : outer.depth ≤ ({ session with backend := some after }.book operation declared).depth)
    (above : operation = .reset →
      outer.depth < ({ session with backend := some after }.book operation declared).depth) :
    ∃ height, outer.Encloses base height
      ({ session with backend := some after }.book operation declared) := by
  obtain ⟨_, poppable, _⟩ := permit_ok permitted
  obtain ⟨depth, records, options, shadow⟩ := encloses
  have options := options before present
  have shadow := shadow before present
  cases operation with
  | reset => exact absurd (above rfl) (Nat.not_lt_zero _)
  | push =>
    obtain ⟨_, rfl⟩ := Prod.mk.inj made
    refine ⟨height + 1, congrArg (· + 1) depth, records.push, ?_, ?_⟩
    · rintro _ ⟨⟩
      exact options
    · rintro _ ⟨⟩
      exact shadow.push
  | pop n =>
    have enough : n ≤ session.depth := by
      simp only [ensurePoppable] at poppable
      split at poppable
      · cases poppable
      · omega
    have inside : n ≤ height := by
      simp only [Session.book] at within
      omega
    simp only [Shadow.perform] at made
    split at made
    · obtain ⟨_, rfl⟩ := Prod.mk.inj made
      refine ⟨height - n, ?_, records.pop inside, ?_, ?_⟩
      · simp only [Session.book]
        omega
      · rintro _ ⟨⟩
        exact options
      · rintro _ ⟨⟩
        exact shadow.pop inside
    · cases made
  | declare name sort | assert term | assertText text =>
    obtain ⟨_, rfl⟩ := Prod.mk.inj made
    have opened : 0 < height := opened.resolve_right fun pushes => by cases pushes
    refine ⟨height, depth, records.add opened declared, ?_, ?_⟩
    · rintro _ ⟨⟩
      exact options
    · rintro _ ⟨⟩
      exact shadow.add opened _

variable [Emitter ε]

theorem Encloses.emit (encloses : outer.Encloses base height session) (command : Command) :
    outer.Encloses base height (session.emit command).2 := by
  rcases emit_cases (.told command) command session with
    ⟨_, _, sent, _⟩ | ⟨_, _, sent, _⟩ <;> rw [sent] <;> exact encloses.kept rfl rfl rfl

theorem depth_emit (command : Command) (session : Session Shadow ε) :
    (session.emit command).2.depth = session.depth := by
  rcases emit_cases (.told command) command session with
    ⟨_, _, sent, _⟩ | ⟨_, _, sent, _⟩
  · rw [sent]
  · rw [sent]
    rfl

theorem Encloses.apply {operation : Operation} {result : Except SolverError Unit}
    {after : Session Shadow ε} (encloses : outer.Encloses base height session)
    (opened : 0 < height ∨ operation = .push) (called : session.apply operation = (result, after))
    (within : outer.depth ≤ after.depth) (above : operation = .reset → outer.depth < after.depth) :
    ∃ height, outer.Encloses base height after := by
  rcases apply_shadow operation session with
    ⟨err, refused⟩ | ⟨declared, before, shadow, permitted, present, made, applied⟩
  · obtain ⟨_, rfl⟩ := Prod.mk.inj (called.symm.trans refused)
    exact ⟨height, encloses⟩
  · have emitted : after = (Session.emit operation.command _).2 :=
      congrArg Prod.snd (called.symm.trans applied)
    rw [emitted] at within above ⊢
    rw [depth_emit] at within above
    obtain ⟨height, encloses⟩ := encloses.book opened permitted present made within above
    exact ⟨height, encloses.emit operation.command⟩

theorem unchecked_submitCheck (session : Session Shadow ε) :
    session.submitCheck.2.backend.map Shadow.unchecked =
      session.backend.map Shadow.unchecked := by
  rcases session.submitCheck_backend with kept | ⟨backend, present, asked⟩
  · rw [kept]
  · rw [asked, present]
    rfl

theorem unchecked_model (session : Session Shadow ε) :
    session.model.2.backend.map Shadow.unchecked = session.backend.map Shadow.unchecked := by
  rcases session.model_backend with kept | ⟨backend, present, asked⟩
  · rw [kept]
  · rw [asked, present]
    rfl

theorem Encloses.submitCheck (encloses : outer.Encloses base height session) :
    outer.Encloses base height session.submitCheck.2 := by
  have same := session.unchecked_submitCheck
  rcases session.submitCheck_cases with
    ⟨_, _, called, _⟩ | ⟨_, _, _, _, ⟨_, _, called, _⟩ | ⟨_, _, called, _⟩⟩ <;>
    rw [called] at same ⊢ <;> exact encloses.kept rfl rfl same

theorem Encloses.model (encloses : outer.Encloses base height session) :
    outer.Encloses base height session.model.2 := by
  have same := session.unchecked_model
  rcases session.model_cases with
    ⟨_, _, _, called⟩ | ⟨_, _, _, _, _, called, _⟩ | ⟨_, called⟩
  · rw [called]
    exact encloses
  · rw [called] at same ⊢
    exact encloses.kept rfl rfl same
  · rw [called] at same ⊢
    rcases session.fetchExternalModel_cases with
      ⟨_, _, _, _, _, rfl, _, fetched, _⟩ | ⟨_, _, fetched, _⟩ <;>
      rw [fetched] at same ⊢ <;> exact encloses.kept rfl rfl same

omit [Emitter ε] in
theorem Encloses.awaitOutcome (encloses : outer.Encloses base height session) :
    outer.Encloses base height session.awaitOutcome.2 := by
  rcases session.awaitOutcome_settles with ⟨_, called⟩ | ⟨_, _, _, _, _, called⟩
  · rw [called]
    exact encloses
  · rw [called]
    exact encloses.kept rfl rfl rfl

theorem Encloses.destroy (encloses : outer.Encloses base height session) :
    outer.Encloses base height session.destroy.2 := by
  rcases session.destroy_cases with ⟨_, called, _⟩ | ⟨_, _, called, _⟩
  · rw [called]
    exact encloses
  · rw [called]
    exact ⟨encloses.depth, encloses.records, nofun, nofun⟩

/-- No call that stays above the depth of the outer session gets at the frames of that one. -/
theorem Encloses.call (encloses : outer.Encloses base height session) (opened : 0 < height)
    (call : Call) (within : outer.depth < (session.call call).2.depth) :
    ∃ height, outer.Encloses base height (session.call call).2 := by
  apply call_preserves (motive := fun after => ∃ height, outer.Encloses base height after)
  · rintro operation rfl
    have within : outer.depth < (session.apply operation).2.depth := within
    exact encloses.apply (.inl opened) rfl (Nat.le_of_lt within) fun _ => within
  · intro _
    exact ⟨height, encloses.destroy⟩
  · rintro _ ⟨height, encloses⟩
    exact ⟨height, encloses.submitCheck⟩
  · rintro _ ⟨height, encloses⟩
    exact ⟨height, encloses.awaitOutcome⟩
  · rintro _ ⟨height, encloses⟩
    exact ⟨height, encloses.model⟩
  · exact ⟨height, encloses⟩

theorem Encloses.step (encloses : outer.Encloses base height session) (opened : 0 < height)
    (step : Step) (within : outer.depth < (session.step step).2.depth) :
    ∃ height, outer.Encloses base height (session.step step).2 := by
  cases step with
  | call call => exact encloses.call opened call within
  | signal _ | expect _ | settle => exact ⟨height, encloses.kept rfl rfl rfl⟩

theorem Encloses.run (encloses : outer.Encloses base height session) {steps : List Step}
    (within : ∀ moment, outer.depth < (session.run (steps.take moment)).2.depth) :
    ∃ height, 0 < height ∧ outer.Encloses base height (session.run steps).2 := by
  have opened : 0 < height := by
    have now : outer.depth < session.depth := within 0
    have depth := encloses.depth
    omega
  induction steps generalizing session height with
  | nil => exact ⟨height, opened, encloses⟩
  | cons step rest ih =>
    have within (moment : Nat) :
        outer.depth < ((session.step step).2.run (rest.take moment)).2.depth := within (moment + 1)
    have next : outer.depth < (session.step step).2.depth := within 0
    obtain ⟨height, encloses⟩ := encloses.step opened step next
    have depth := encloses.depth
    exact ih encloses within (by omega)

theorem shadow_of_applied {operation : Operation} {after : Session Shadow ε}
    (applied : session.apply operation = (.ok (), after)) :
    ∃ before shadow, session.backend = some before ∧
      before.perform operation = (.ok (), shadow) ∧ after.backend = some shadow := by
  rcases apply_shadow operation session with
    ⟨_, refused⟩ | ⟨declared, before, shadow, _, present, made, called⟩
  · rw [refused] at applied
    cases applied
  · refine ⟨before, shadow, present, made, ?_⟩
    rw [called] at applied
    rcases emit_cases (.told operation.command) operation.command
      ({ session with backend := some shadow }.book operation declared) with
      ⟨_, _, sent, _⟩ | ⟨_, _, sent, _⟩ <;> rw [sent] at applied <;> cases applied
    cases operation <;> rfl

/-- A scope is opened by a push, and closed by the pop that leads back to its depth; in between
there are more frames open all the time, however often some are opened and closed. What it leaves
is what was there before: the shadow but for its note of the last check, and the session's
records. -/
theorem scope_restores {opened last : Session Shadow ε} {inside : List Step} {n : Nat}
    (pushed : session.apply .push = (.ok (), opened))
    (within : ∀ moment, session.depth < (opened.run (inside.take moment)).2.depth)
    (popped : (opened.run inside).2.apply (.pop n) = (.ok (), last))
    (back : last.depth = session.depth) :
    ∃ before after, session.backend = some before ∧ last.backend = some after ∧
      after = before.unchecked ∧ after.depth = before.depth ∧
      after.assertions = before.assertions ∧ after.declarations = before.declarations ∧
      after.texts = before.texts ∧ last.display = session.display ∧
      last.frames = session.frames ∧ last.visibleSorts = session.visibleSorts := by
  obtain ⟨before, _, present, _⟩ := shadow_of_applied pushed
  obtain ⟨_, after, _, made, left⟩ := shadow_of_applied popped
  have entered : session.depth < opened.depth := within 0
  obtain ⟨_, encloses⟩ :=
    (Encloses.refl present).apply (.inr rfl) pushed (Nat.le_of_lt entered) nofun
  obtain ⟨_, inner, encloses⟩ := encloses.run within
  obtain ⟨height, encloses⟩ :=
    encloses.apply (.inl inner) popped (Nat.le_of_eq back.symm) nofun
  obtain rfl : height = 0 := by
    have depth := encloses.depth
    omega
  have frames : last.frames = session.frames := encloses.records.eq_of_zero
  obtain rfl : after = before.unchecked := by
    obtain ⟨options, kept, lastCheck⟩ := after
    obtain rfl : options = before.options := encloses.options _ left
    obtain rfl : kept = before.frames := (encloses.shadow _ left).eq_of_zero
    obtain rfl : lastCheck = none := (Shadow.perform_keeps made).2
    rfl
  refine ⟨before, before.unchecked, present, left, rfl, rfl, rfl, rfl, rfl, ?_, frames, ?_⟩
  · rw [display, display, left, present]
    rfl
  · rw [visibleSorts, frames]
    rfl

/-- What is done before a scope is opened. -/
def enclosing : List Step :=
  [.call (.apply (.declare "x" .int)), .call (.apply (.assert (.const "p")))]

/-- A name is declared anew, a check is made, and two frames are closed at once. -/
def nesting : List Step :=
  [.call (.apply (.declare "x" .bool)), .call (.apply .push), .call .submitCheck,
    .call .awaitOutcome, .call (.apply .push), .call (.apply (.assertText "(assert x)")),
    .call (.apply (.pop 2)), .call (.apply .push), .call (.apply (.declare "z" .int))]

theorem nesting_restores :
    let outer := (impatient.run enclosing).2
    let opened := (outer.apply .push).2
    let last := ((opened.run nesting).2.apply (.pop 2)).2
    (opened.run nesting).2.visibleSorts = [("x", .int), ("x", .bool), ("z", .int)] ∧
      last.visibleSorts = [("x", .int)] ∧
      last.display = .ok "(declare-const x Int)\n(assert p)\n" := by
  intro outer opened last
  have pushed : outer.apply .push = (.ok (), opened) := rfl
  have within : ∀ moment, outer.depth < (opened.run (nesting.take moment)).2.depth :=
    (forall_take_iff (fun now => outer.depth < (opened.run now).2.depth) nesting).mpr
      (by decide +kernel)
  have accepted : ((opened.run nesting).2.apply (.pop 2)).1.toOption = some () := by decide +kernel
  have popped : (opened.run nesting).2.apply (.pop 2) = (.ok (), last) := by
    rcases called : (opened.run nesting).2.apply (.pop 2) with ⟨err | ⟨⟩, after⟩
    · rw [called] at accepted
      cases accepted
    · simp only [last, called]
  have back : last.depth = outer.depth := by decide +kernel
  obtain ⟨_, _, _, _, _, _, _, _, _, shown, _, sorts⟩ := scope_restores pushed within popped back
  refine ⟨by decide +kernel, ?_, ?_⟩
  · rw [sorts]
    rfl
  · rw [shown]
    rfl

end Session

end SmtSession

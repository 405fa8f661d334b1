import SmtSession.Proofs.Milestones

namespace SmtSession

/-- Where a step takes a session that is not idle: collecting an outcome ends a check, and the rest
is ended by the end of the session alone. -/
def SessionState.after (state : SessionState) : Step → SessionState
  | .call .destroy => .destroyed
  | .call .awaitOutcome => if state = .awaitingCheckResult then .idle else state
  | _ => state

/-- A session that is not idle is faulted only if it was so before. -/
theorem SessionState.of_after_faulted {state : SessionState} {step : Step}
    (faulted : state.after step = .faulted) : state = .faulted := by
  rw [after.eq_def] at faulted
  split at faulted
  · cases faulted
  · split at faulted
    · cases faulted
    · exact faulted
  · exact faulted

/-- Calls that a session takes only when it is idle. -/
def Call.needsIdle : Call → Bool
  | .awaitOutcome | .destroy => false
  | .apply _ | .submitCheck | .check | .model | .getModel => true

namespace Session

variable {β ε : Type}

/-- The records of a session fit its state, and each other. -/
structure WellKept (session : Session β ε) : Prop extends Coherent session where
  frames : session.frames.toList.length = session.depth + 1

section Busy

variable {session : Session β ε}

theorem ensureIdle_busy (busy : session.state ≠ .idle) :
    ∃ err, session.ensureIdle = .error err := by
  cases ready : session.ensureIdle with
  | error err => exact ⟨err, rfl⟩
  | ok done => exact absurd (ensureIdle_ok.mp ready) busy

theorem awaitOutcome_still (still : session.pending = none) :
    session.awaitOutcome =
      (.error (if session.state = .destroyed then .destroyedSessionUse else .noPendingCheck),
        session) := by
  simp only [awaitOutcome, still]
  split <;> rfl

theorem awaitOutcome_pending {check : PendingCheck} (live : session.state ≠ .destroyed)
    (pending : session.pending = some check) :
    ∃ result context lastCheck, session.awaitOutcome = (result, { session with
      pending := none, state := .idle, context, lastCheck }) := by
  obtain ⟨result, context, collected⟩ :=
    outcomeOfPending_keeps check { session with pending := none, state := .idle }
  rcases result with err | outcome
  · exact ⟨_, _, _, by simp only [awaitOutcome, live, pending, collected, ↓reduceIte]; rfl⟩
  · exact ⟨_, _, _, by simp only [awaitOutcome, live, pending, collected, ↓reduceIte]; rfl⟩

variable [Backend β] [Emitter ε]

theorem call_busy {call : Call} {err : SolverError} (busy : session.ensureIdle = .error err)
    (needs : call.needsIdle = true) : session.call call = (.error err, session) := by
  cases call with
  | awaitOutcome | destroy => cases needs
  | apply operation =>
    simp only [call, Session.apply, permit, busy]
    rfl
  | submitCheck | check | model | getModel =>
    simp only [call, Session.getModel, Session.check, Session.model, submitCheck, busy]
    rfl

theorem contacts_busy {call : Call} {err : SolverError} (busy : session.ensureIdle = .error err)
    (needs : call.needsIdle = true) : session.contacts call = {} := by
  have busy : session.recorded.ensureIdle = .error err := busy
  rw [contacts, call_busy busy needs, record_recorded]

omit [Backend β] [Emitter ε] in
/-- An outcome is collected without a word to either side. -/
theorem record_awaitOutcome (session : Session (RecordedBackend β) (RecordedEmitter ε)) :
    session.awaitOutcome.2.record = session.record := by
  rcases session.awaitOutcome_cases with
    ⟨_, _, called, _⟩ | ⟨_, _, _, called, _⟩ | ⟨_, _, _, _, _, _, waited, called, _⟩
  · rw [called]
  · rw [called]
    rfl
  · have emitter := Context.wait_emitter waited
    rw [called]
    simp only [record, emitter]

theorem contacts_awaitOutcome : session.contacts .awaitOutcome = {} :=
  (record_awaitOutcome session.recorded).trans session.record_recorded

/-- The end of a session hands over the last command, whether it arrives or not. -/
theorem contacts_destroy (live : session.state ≠ .destroyed) :
    session.contacts .destroy = ⟨[], [Emitter.delivery .exit session.context.emitter]⟩ := by
  rcases session.recorded.destroy_cases with ⟨finished, _⟩ | ⟨_, context, called, emitter, _⟩
  · exact absurd finished live
  · have handed := session.recorded.context.deliveries_send .exit
    rw [← emitter] at handed
    simp only [contacts, call, called, record, handed]
    rfl

end Busy

section States

variable [Backend β] [Emitter ε] {session : Session β ε}

/-- A step takes a session that is not idle where the state alone says. -/
theorem step_busy (coherent : session.Coherent) (busy : session.state ≠ .idle) (step : Step) :
    (session.step step).2.state = session.state.after step := by
  obtain ⟨err, refused⟩ := ensureIdle_busy busy
  cases step with
  | signal _ | expect _ | settle => rfl
  | call call =>
    have refused (needs : call.needsIdle = true) :
        (session.step (.call call)).2.state = session.state := by
      simp only [Session.step, call_busy refused needs]
    cases call with
    | awaitOutcome =>
      rcases pending : session.pending with _ | check
      · have other : session.state ≠ .awaitingCheckResult := by
          rw [ne_eq, ← coherent.pending, pending]
          exact Bool.false_ne_true
        simp only [Session.step, call, awaitOutcome_still pending, SessionState.after, other,
          ↓reduceIte]
      · have waiting : session.state = .awaitingCheckResult :=
          coherent.pending.mp (by rw [pending]; rfl)
        obtain ⟨_, _, _, collected⟩ := awaitOutcome_pending (by simp [waiting]) pending
        simp only [Session.step, call, collected, SessionState.after, waiting, ↓reduceIte]
    | destroy =>
      simp only [Session.step, call, destroy, SessionState.after]
      split
      · assumption
      · rfl
    | apply _ | submitCheck | check | model | getModel =>
      exact refused rfl

theorem call_live {call : Call} (goesOn : call ≠ .destroy) (live : session.state ≠ .destroyed) :
    (session.call call).2.state ≠ .destroyed := by
  apply call_preserves (motive := fun session => session.state ≠ .destroyed)
  · intro operation _
    rcases session.apply_cases operation with
      ⟨_, _, called, _⟩ | ⟨declared, _, after, _, _, _, called, _⟩
    · rw [called]
      exact live
    · rw [called]
      rcases emit_cases (.told operation.command) operation.command
        ({ session with backend := some after }.book operation declared) with
        ⟨_, _, sent, _⟩ | ⟨_, _, sent, _⟩ <;> rw [sent]
      · cases operation <;> exact live
      · nofun
  · intro ended
    exact absurd ended goesOn
  · intro session live
    rcases session.submitCheck_cases with
      ⟨_, _, called, _⟩ | ⟨_, _, _, _, ⟨_, _, called, _⟩ | ⟨_, _, called, _⟩⟩ <;> rw [called]
    · exact live
    · nofun
    · nofun
  · intro session live
    rcases session.awaitOutcome_settles with ⟨_, called⟩ | ⟨_, _, _, _, _, called⟩ <;> rw [called]
    · exact live
    · nofun
  · intro session live
    rcases session.model_cases with
      ⟨_, _, _, called⟩ | ⟨_, _, _, _, _, called, _⟩ | ⟨_, called⟩ <;> rw [called]
    · exact live
    · exact live
    · rcases session.fetchExternalModel_cases with
        ⟨_, _, _, _, _, rfl, _, fetched, _⟩ | ⟨_, _, fetched, _⟩ <;> rw [fetched]
      · exact live
      · nofun
  · exact live

theorem call_frames (level : session.frames.depth = session.depth) (call : Call) :
    (session.call call).2.frames.depth = (session.call call).2.depth := by
  apply call_preserves (motive := fun session => session.frames.depth = session.depth)
  · intro operation _
    rcases session.apply_cases operation with
      ⟨_, _, called, _⟩ | ⟨declared, _, after, _, _, _, called, _⟩
    · rw [called]
      exact level
    · have booked : ({ session with backend := some after }.book operation declared).frames.depth =
          ({ session with backend := some after }.book operation declared).depth := by
        cases operation <;> simp [book, level]
        rfl
      rw [called]
      rcases emit_cases (.told operation.command) operation.command
        ({ session with backend := some after }.book operation declared) with
        ⟨_, _, sent, _⟩ | ⟨_, _, sent, _⟩ <;> rw [sent] <;> exact booked
  · intro _
    rcases session.destroy_cases with ⟨_, called, _⟩ | ⟨_, _, called, _⟩ <;> rw [called] <;>
      exact level
  · intro session level
    rcases session.submitCheck_cases with
      ⟨_, _, called, _⟩ | ⟨_, _, _, _, ⟨_, _, called, _⟩ | ⟨_, _, called, _⟩⟩ <;> rw [called] <;>
      exact level
  · intro session level
    rcases session.awaitOutcome_settles with ⟨_, called⟩ | ⟨_, _, _, _, _, called⟩ <;>
      rw [called] <;> exact level
  · intro session level
    rcases session.model_cases with
      ⟨_, _, _, called⟩ | ⟨_, _, _, _, _, called, _⟩ | ⟨_, called⟩
    · rw [called]
      exact level
    · rw [called]
      exact level
    · rw [called]
      rcases session.fetchExternalModel_cases with
        ⟨_, _, _, _, _, rfl, _, fetched, _⟩ | ⟨_, _, fetched, _⟩ <;> rw [fetched] <;> exact level
  · exact level

end States

section Handed

variable [Backend β] [Emitter ε] {session : Session β ε}

/-- The commands that a call hands to the emitter, whether they arrive or not. -/
def handed (session : Session β ε) (call : Call) : List Command :=
  (session.contacts call).deliveries.map Delivery.command

theorem handed_inquiry {call : Call} (inquiry : call.isInquiry = true) :
    ∀ command ∈ session.handed call, command.isQuery = true := by
  have queries : ∀ delivery ∈ (session.contacts call).deliveries,
      delivery.command.isQuery = true := by
    apply inquiry_preserves inquiry
      (motive := fun recorded => ∀ delivery ∈ recorded.record.deliveries,
        delivery.command.isQuery = true)
    · intro recorded queries
      rcases recorded.submitCheck_contacts with
        ⟨_, _, called, _⟩ | ⟨_, _, _, _, _, _, _, called, _⟩ | ⟨_, _, backend, _, _, called, _⟩
      · rw [called]
        exact queries
      · rw [called]
        exact queries
      · rw [called, record_submit]
        simp only [List.mem_append, List.mem_singleton]
        rintro delivery (earlier | rfl)
        · exact queries delivery earlier
        · rfl
    · intro recorded queries
      rw [record_awaitOutcome]
      exact queries
    · intro recorded queries
      rcases recorded.model_contacts with
        ⟨_, _, called, _⟩ | ⟨_, _, _, _, _, called, _⟩ | ⟨_, _, _, called, _⟩
      · rw [called]
        exact queries
      · rw [called]
        exact queries
      · rw [called]
        simp only [record_fetchExternalModel, List.mem_append, List.mem_singleton]
        rintro delivery (earlier | rfl)
        · exact queries delivery earlier
        · rfl
    · rw [record_recorded]
      simp
  intro command handed
  obtain ⟨delivery, found, rfl⟩ := List.mem_map.mp handed
  exact queries delivery found

/-- No call but the end of the session hands over its last command. -/
theorem exit_not_handed {call : Call} (goesOn : call ≠ .destroy) :
    .exit ∉ session.handed call := by
  intro member
  cases call with
  | destroy => exact goesOn rfl
  | apply operation =>
    rcases session.apply_contacts operation with
      ⟨_, _, _, contacts⟩ | ⟨_, _, _, _, _, _, _, _, contacts⟩ | ⟨_, _, _, _, _, _, _, contacts⟩
    · simp [handed, contacts] at member
    · simp [handed, contacts] at member
    · have told : .exit = operation.command := by
        simpa [handed, contacts, Emitter.delivery] using member
      cases operation <;> cases told
  | submitCheck | awaitOutcome | check | model | getModel =>
    exact absurd (handed_inquiry rfl _ member) Bool.false_ne_true

theorem handed_destroy (live : session.state ≠ .destroyed) : session.handed .destroy = [.exit] := by
  rw [handed, contacts_destroy live]
  rfl

theorem handed_destroyed (ended : session.state = .destroyed) (call : Call) :
    session.handed call = [] := by
  have silent : session.contacts call = {} := by
    have refused : session.ensureIdle = .error .destroyedSessionUse := by simp [ensureIdle, ended]
    cases call with
    | awaitOutcome => exact contacts_awaitOutcome
    | destroy =>
      have ended : session.recorded.state = .destroyed := ended
      simp only [contacts, Session.call, destroy, ended, ↓reduceIte, record_recorded]
    | apply _ | submitCheck | check | model | getModel => exact contacts_busy refused rfl
  rw [handed, silent]
  rfl

theorem handed_faulted {call : Call} (faulted : session.state = .faulted) :
    session.handed call = if call = .destroy then [.exit] else [] := by
  obtain ⟨err, busy⟩ : ∃ err, session.ensureIdle = .error err :=
    ensureIdle_busy (by simp [faulted])
  have silent (quiet : session.contacts call = {}) : session.handed call = [] := by
    rw [handed, quiet]
    rfl
  cases call with
  | awaitOutcome => exact silent contacts_awaitOutcome
  | destroy => exact handed_destroy (by simp [faulted])
  | apply _ | submitCheck | check | model | getModel => exact silent (contacts_busy busy rfl)

theorem exit_mem_handed (call : Call) : .exit ∈ session.handed call ↔
    session.state ≠ .destroyed ∧ (session.call call).2.state = .destroyed := by
  by_cases ended : session.state = .destroyed
  · simp [handed_destroyed ended, ended]
  · by_cases last : call = .destroy
    · subst last
      simp [handed_destroy ended, ended, Session.call, destroy]
    · simp [exit_not_handed last, call_live last ended]

/-- The commands handed over end with the last one if the session has ended, and are without it
otherwise. -/
def EndsWith (session : Session β ε) (handed : List Command) : Prop :=
  ∃ others, .exit ∉ others ∧
    handed = others ++ if session.state = .destroyed then [.exit] else []

theorem EndsWith.call {before : List Command} (coherent : session.Coherent)
    (ends : session.EndsWith before) (call : Call) :
    (session.call call).2.EndsWith (before ++ session.handed call) := by
  obtain ⟨others, absent, rfl⟩ := ends
  by_cases ended : session.state = .destroyed
  · have stays : (session.call call).2.state = .destroyed := by
      have moved : (session.call call).2.state = session.state.after (.call call) :=
        step_busy coherent (by simp [ended]) (.call call)
      rw [moved, ended]
      cases call <;> rfl
    exact ⟨others, absent, by simp [handed_destroyed ended, ended, stays]⟩
  · by_cases last : call = .destroy
    · subst last
      have done : (session.call .destroy).2.state = .destroyed := by
        simp [Session.call, destroy, ended]
      exact ⟨others, absent, by simp [handed_destroy ended, ended, done]⟩
    · refine ⟨others ++ session.handed call, ?_, by simp [ended, call_live last ended]⟩
      simp [absent, exit_not_handed last]

omit [Backend β] [Emitter ε] in
theorem EndsWith.of_destroyed {commands : List Command} (ends : session.EndsWith commands)
    (ended : session.state = .destroyed) :
    ∃ others, .exit ∉ others ∧ commands = others ++ [.exit] := by
  obtain ⟨others, absent, rfl⟩ := ends
  exact ⟨others, absent, by rw [if_pos ended]⟩

omit [Backend β] [Emitter ε] in
theorem EndsWith.of_only {commands : List Command} (ends : session.EndsWith commands)
    (only : ∀ command ∈ commands, command = .exit) :
    commands = if session.state = .destroyed then [.exit] else [] := by
  obtain ⟨others, absent, rfl⟩ := ends
  have empty : others = [] := by
    refine List.eq_nil_iff_forall_not_mem.mpr fun command member => absent ?_
    rwa [← only command (List.mem_append_left _ member)]
  rw [empty, List.nil_append]

end Handed

end Session

end SmtSession

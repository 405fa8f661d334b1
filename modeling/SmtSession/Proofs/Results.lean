import SmtSession.Proofs.SessionLedger

namespace SmtSession

/-- Whether a reply is of the kind that a query asks for; an error answers any query. -/
def Reply.answers (query : Command) : Reply → Bool
  | .outcome _ => query == .checkSat
  | .model _ => query == .getModel
  | .error _ => true

namespace Event

/-- The wait for a query has ended with a reply of the wrong kind. -/
def isMismatch : Event → Bool
  | .ended _ query (.reply reply) => !reply.answers query
  | _ => false

/-- An outcome and a model come from the last wait of their call. Only a reply of the wrong kind is
reported as one that cannot be read. -/
def Explain (events : List Event) : Except SolverError Answer → Prop
  | .ok (.outcome outcome) => ∃ earlier ticket result,
      events = earlier ++ [.ended ticket .checkSat result] ∧
        Session.outcomeOf result = .ok outcome
  | .ok (.model (some taken)) => ∃ earlier ticket raw generation sorts,
      events = earlier ++ [.ended ticket .getModel (.reply (.model raw))] ∧
        ResultModel.ofModel .checked generation sorts raw = taken
  | .error (.parse _) => ∃ event ∈ events, event.isMismatch = true
  | .ok .done | .ok (.model none) | .error _ => True

variable {first second : List Event} {result : Except SolverError Answer}

theorem Explain.append (first : List Event) (explain : Explain second result) :
    Explain (first ++ second) result := by
  match result with
  | .ok (.outcome outcome) =>
    obtain ⟨earlier, ticket, result, rfl, same⟩ := explain
    exact ⟨first ++ earlier, ticket, result, by simp, same⟩
  | .ok (.model (some taken)) =>
    obtain ⟨earlier, ticket, raw, generation, sorts, rfl, same⟩ := explain
    exact ⟨first ++ earlier, ticket, raw, generation, sorts, by simp, same⟩
  | .ok .done | .ok (.model none) => trivial
  | .error err =>
    cases err with
    | parse message =>
      obtain ⟨event, member, mismatch⟩ := explain
      exact ⟨event, List.mem_append_right first member, mismatch⟩
    | _ => trivial

theorem Explain.more {err : SolverError} (explain : Explain first (.error err)) :
    Explain (first ++ second) (.error err) := by
  cases err with
  | parse message =>
    obtain ⟨event, member, mismatch⟩ := explain
    exact ⟨event, List.mem_append_left second member, mismatch⟩
  | _ => trivial

theorem Explain.error {events : List Event} {err : SolverError}
    (read : ∀ message, err ≠ .parse message) :
    Explain events (.error err) := by
  cases err with
  | parse message => exact absurd rfl (read message)
  | _ => trivial

end Event

namespace Session

variable {β ε : Type} {session : Session β ε} {ledger : Ledger}

theorem explain_outcomeOf (earlier : List Event) (ticket : Nat) (result : WaitResult) :
    Event.Explain (earlier ++ [.ended ticket .checkSat result])
      ((outcomeOf result).map .outcome) := by
  cases given : outcomeOf result with
  | ok outcome => exact ⟨earlier, ticket, result, rfl, given⟩
  | error err =>
    match result with
    | .reply (.model model) =>
      obtain rfl := Except.error.inj given
      exact ⟨_, List.mem_append_right earlier (List.mem_singleton_self _), rfl⟩
    | .reply (.outcome _) | .reply (.error _) | .timedOut | .cancelled | .disconnected =>
      cases given

theorem explain_modelOf (earlier : List Event) (ticket generation : Nat) (timeout : Duration)
    (sorts : List (String × SmtSort)) (result : WaitResult) :
    Event.Explain (earlier ++ [.ended ticket .getModel result])
      (((modelOf timeout result).map (ResultModel.ofModel .checked generation sorts)).map
        fun model => .model (some model)) := by
  match result with
  | .reply (.model model) => exact ⟨earlier, ticket, model, generation, sorts, rfl, rfl⟩
  | .reply (.outcome outcome) =>
    exact ⟨_, List.mem_append_right earlier (List.mem_singleton_self _), rfl⟩
  | .reply (.error _) | .timedOut | .cancelled | .disconnected => trivial

theorem Tracks.explain_awaitOutcome (tracks : session.Tracks ledger) :
    Event.Explain session.awaitEvents (session.awaitOutcome.1.map .outcome) := by
  rcases awaitOutcome_cases session with
    ⟨err, rfl | rfl, awaited, events⟩ | ⟨ticket, outcome, pending, _, _⟩ |
    ⟨ticket, result, after, notices, lastCheck, pending, waited, awaited, events⟩
  · rw [awaited]
    trivial
  · rw [awaited]
    trivial
  · cases ((tracks.of_pending pending).pending _ pending).1
  · rw [awaited, events]
    exact explain_outcomeOf _ ticket result

variable [Backend β] [Emitter ε]

theorem Tracks.submitCheck_error (tracks : session.Tracks ledger) {err : SolverError}
    {after : Session β ε} (refused : session.submitCheck = (.error err, after)) :
    ∀ message, err ≠ .parse message := by
  rcases submitCheck_cases session with
    ⟨cause, backend, submitted, _, ⟨busy, _⟩ | ⟨idle, answered⟩⟩ |
    ⟨native, backend, idle, _, submitted⟩
  · obtain rfl : cause = err := by simpa [submitted] using congrArg Prod.fst refused
    exact (ensureIdle_error busy).2
  · rw [askBackend_external (tracks.of_idle idle).1.external] at answered
    cases answered
  · rcases submitted with ⟨_, _, submitted, _⟩ | ⟨fault, _, submitted, _⟩
    · simp [submitted] at refused
    · obtain rfl : .desynchronized fault = err := by
        simpa [submitted] using congrArg Prod.fst refused
      nofun

theorem Tracks.explain_check (tracks : session.Tracks ledger) :
    Event.Explain session.checkEvents (session.check.1.map .outcome) := by
  have submitted := tracks.submitCheck.tracks
  rcases called : session.submitCheck with ⟨err | ⟨⟩, after⟩ <;> rw [called] at submitted
  · simp only [Session.check, checkEvents, called]
    exact .error (tracks.submitCheck_error called)
  · simp only [Session.check, checkEvents, called]
    exact submitted.explain_awaitOutcome.append _

theorem Tracks.explain_model (tracks : session.Tracks ledger) :
    Event.Explain session.modelEvents (session.model.1.map fun model => .model (some model)) := by
  rcases session.model_cases with
    ⟨err, refused, _, given⟩ | ⟨_, _, idle, native, _, _, _⟩ | ⟨retrieves, given⟩
  · rw [given]
    rcases refused with busy | rfl
    · exact .error (ensureIdle_error busy).2
    · trivial
  · have external := (tracks.of_idle idle).1.external
    rw [mode, external] at native
    cases native
  · simp only [modelEvents, retrieves, given, ↓reduceIte]
    rcases session.fetchExternalModel_cases with
      ⟨signals, emitter, asked, result, after, _, _, fetched, events⟩ |
      ⟨fault, context, fetched, events⟩
    · rw [fetched, events]
      exact (explain_modelOf _ _ _ _ _ result).append _
    · rw [fetched]
      trivial

theorem Tracks.explain_getModel (tracks : session.Tracks ledger) :
    Event.Explain session.getModelEvents (session.getModel.1.map .model) := by
  have checked := tracks.check.tracks
  have explained := tracks.explain_check
  rcases called : session.check with ⟨err | outcome, after⟩ <;> rw [called] at checked explained
  · simp only [Session.getModel, getModelEvents, called]
    exact explained.more
  · cases sat : outcome.isSat
    · simp only [Session.getModel, called, sat]
      trivial
    · have given := checked.explain_model.append session.checkEvents
      simp only [Session.getModel, getModelEvents, called, sat, ↓reduceIte]
      rcases modelled : after.model with ⟨err | model, last⟩ <;> rw [modelled] at given <;>
        exact given

/-- Every call but a change is explained by its events. -/
theorem Tracks.explain (tracks : session.Tracks ledger) {call : Call}
    (asks : ∀ operation, call ≠ .apply operation) :
    Event.Explain (session.callEvents call) (session.call call).1 := by
  cases call with
  | apply operation => exact absurd rfl (asks operation)
  | submitCheck =>
    rcases called : session.submitCheck with ⟨err | ⟨⟩, after⟩ <;> simp only [Session.call, called]
    · exact .error (tracks.submitCheck_error called)
    · trivial
  | awaitOutcome => exact tracks.explain_awaitOutcome
  | check => exact tracks.explain_check
  | model => exact tracks.explain_model
  | getModel => exact tracks.explain_getModel
  | destroy =>
    rcases session.destroy_cases with ⟨_, called, _⟩ | ⟨_, context, called, _⟩ <;>
      simp only [Session.call, called] <;> trivial

end Session

end SmtSession

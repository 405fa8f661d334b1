import SmtSession.Proofs.History

/-! What a call can do, said once for each: how the session changes, and which events that makes. -/
namespace SmtSession

variable {β ε : Type}

/-- A command is sent, with everything heard at once; or it is not, and only the emitter has
changed. -/
theorem Context.send_cases [Emitter ε] (event : Event) (command : Command) (context : Context ε) :
    (∃ signals emitter,
      context.send command =
        (.ok (), { context with emitter, exchange := context.exchange.receiveAll signals }) ∧
      context.sendEvents event command = event :: signals.map .heard) ∨
    ∃ err emitter, context.send command = (.error err, { context with emitter }) ∧
      context.sendEvents event command = [] := by
  simp only [send, sendEvents]
  rcases Emitter.send command context.emitter with ⟨err | signals, emitter⟩
  · exact .inr ⟨err, emitter, rfl, rfl⟩
  · exact .inl ⟨signals, emitter, rfl, rfl⟩

theorem Context.wait_exchange {ticket : Nat} {timeout heartbeat : Duration} {result : WaitResult}
    {context after : Context ε}
    (waited : context.wait ticket timeout heartbeat = (result, after)) :
    context.exchange.wait ticket timeout heartbeat = (result, after.exchange) := by
  simp only [wait] at waited
  obtain ⟨rfl, rfl⟩ := Prod.mk.inj waited
  rfl

theorem Context.wait_emitter {ticket : Nat} {timeout heartbeat : Duration} {result : WaitResult}
    {context after : Context ε}
    (waited : context.wait ticket timeout heartbeat = (result, after)) :
    after.emitter = context.emitter := by
  simp only [wait] at waited
  obtain ⟨_, rfl⟩ := Prod.mk.inj waited
  rfl

theorem Context.foldl_note (noted : List Notice) (context : Context ε) :
    ∃ notices, noted.foldl (fun context notice => context.note notice) context =
      { context with exchange := { context.exchange with notices } } := by
  induction noted generalizing context with
  | nil => exact ⟨context.exchange.notices, rfl⟩
  | cons notice rest ih =>
    obtain ⟨notices, told⟩ := ih (context.note notice)
    exact ⟨notices, told⟩

namespace Session

variable {session : Session β ε}

/-- A session starts with its backend configured, and with nothing done yet. -/
theorem startOn_ok [Backend β] {config : SessionConfig} {backend : β} {context : Context ε}
    (started : startOn config backend context = .ok session) :
    ∃ options configured notices, Backend.configure options backend = (.ok (), configured) ∧
      session = { config, options, backend := some configured,
                  context := { context with exchange := { context.exchange with notices } } } := by
  simp only [startOn] at started
  rcases resolved : config.resolveOptions with ⟨err | options, noted⟩
  · simp only [resolved, reduceCtorEq] at started
  · rcases applied : Backend.configure options backend with ⟨err | ⟨⟩, configured⟩
    · simp only [resolved, applied, reduceCtorEq] at started
    · obtain ⟨notices, told⟩ := context.foldl_note noted
      simp only [resolved, applied, told, Except.ok.injEq] at started
      exact ⟨options, configured, _, applied, started.symm⟩

theorem ensureIdle_ok : session.ensureIdle = .ok () ↔ session.state = .idle := by
  cases state : session.state <;> simp [ensureIdle, state]

/-- Only a session that is not idle is refused, and not for something that was read. -/
theorem ensureIdle_error {err : SolverError} (refused : session.ensureIdle = .error err) :
    session.state ≠ .idle ∧ ∀ message, err ≠ .parse message := by
  cases state : session.state <;> simp only [ensureIdle, state, reduceCtorEq] at refused
  all_goals
    obtain rfl := Except.error.inj refused
    exact ⟨nofun, nofun⟩

def faulted (fault : String) (context : Context ε) (session : Session β ε) : Session β ε :=
  { session with context, state := .faulted, fault := some fault }

theorem emit_cases [Emitter ε] (event : Event) (command : Command) (session : Session β ε) :
    (∃ signals emitter,
      session.emit command =
        (.ok (), { session with
          context := { session.context with
            emitter, exchange := session.context.exchange.receiveAll signals } }) ∧
      session.context.sendEvents event command = event :: signals.map .heard) ∨
    ∃ fault context,
      session.emit command = (.error (.desynchronized fault), session.faulted fault context) ∧
      session.context.sendEvents event command = [] := by
  rcases session.context.send_cases event command with
    ⟨signals, emitter, sent, events⟩ | ⟨err, emitter, sent, events⟩
  · exact .inl ⟨signals, emitter, by simp only [emit, sent], events⟩
  · exact .inr ⟨deliveryFault command err, _, by simp only [emit, sent]; rfl, events⟩

/-- A query is sent under the next ticket, or the session is faulted. -/
theorem sendQuery_cases [Emitter ε] (query : Command) (session : Session β ε) :
    (∃ signals emitter,
      session.sendQuery query =
        (.ok session.context.exchange.issued, { session with
          context := { session.context with
            emitter, exchange := session.context.exchange.issueTicket.receiveAll signals } }) ∧
      session.queryEvents query =
        .asked session.context.exchange.issued query :: signals.map .heard) ∨
    ∃ fault context,
      session.sendQuery query = (.error (.desynchronized fault), session.faulted fault context) ∧
      session.queryEvents query = [] := by
  rcases emit_cases (.asked session.context.exchange.issued query) query
      { session with context := session.context.issueTicket } with
    ⟨signals, emitter, sent, events⟩ | ⟨fault, context, sent, events⟩
  · exact .inl ⟨signals, emitter, by simp only [sendQuery, sent]; rfl, events⟩
  · exact .inr ⟨fault, context, by simp only [sendQuery, sent]; rfl, events⟩

/-- The change that a session books is one that it permits and that its backend has made. -/
theorem apply_cases [Backend β] [Emitter ε] (operation : Operation) (session : Session β ε) :
    (∃ err backend, session.apply operation = (.error err, { session with backend }) ∧
      session.applyEvents operation = [] ∧
      (backend = session.backend ∨ ∃ before after, session.backend = some before ∧
        backend = some after ∧ Backend.perform operation before = (.error err, after))) ∨
    ∃ declared before after, session.permit operation = .ok declared ∧
      session.backend = some before ∧ Backend.perform operation before = (.ok (), after) ∧
      session.apply operation =
        ({ session with backend := some after }.book operation declared).emit operation.command ∧
      session.applyEvents operation =
        session.context.sendEvents (.told operation.command) operation.command := by
  simp only [Session.apply, applyEvents]
  cases permitted : session.permit operation with
  | error err => exact .inl ⟨err, session.backend, rfl, rfl, .inl rfl⟩
  | ok declared =>
    cases present : session.backend with
    | none => exact .inl ⟨.destroyedSessionUse, none, by simp [← present], rfl, .inl rfl⟩
    | some before =>
      rcases made : Backend.perform operation before with ⟨err | ⟨⟩, after⟩
      · exact .inl ⟨err, some after, by simp only [made], by simp only [made],
          .inr ⟨before, after, rfl, rfl, made⟩⟩
      · exact .inr ⟨declared, before, after, rfl, rfl, made, by simp only [made],
          by simp only [made]⟩

theorem permit_ok {operation : Operation} {declared : List (String × SmtSort)}
    (permitted : session.permit operation = .ok declared) :
    session.state = .idle ∧ session.ensurePoppable operation = .ok () ∧
      declarationsOf operation = .ok declared := by
  unfold permit at permitted
  split at permitted
  · cases permitted
  · rename_i idle
    split at permitted
    · cases permitted
    · rename_i poppable
      exact ⟨ensureIdle_ok.mp idle, poppable, permitted⟩

theorem book_context (operation : Operation) (declared : List (String × SmtSort))
    (session : Session β ε) :
    (session.book operation declared).context = session.context := by
  cases operation <;> rfl

/-- An outcome is collected only when a check is pending, from the backend or at the end of a
wait. -/
theorem awaitOutcome_cases (session : Session β ε) :
    (∃ err, (err = .destroyedSessionUse ∨ err = .noPendingCheck) ∧
      session.awaitOutcome = (.error err, session) ∧ session.awaitEvents = []) ∨
    (∃ ticket outcome, session.pending = some ⟨ticket, some outcome⟩ ∧
      session.awaitOutcome = (.ok outcome, { session with
        pending := none, state := .idle, lastCheck := some (session.generation, outcome) }) ∧
      session.awaitEvents = []) ∨
    ∃ ticket result after notices lastCheck, session.pending = some ⟨ticket, none⟩ ∧
      session.context.wait ticket session.config.checkTimeout session.config.heartbeat =
        (result, after) ∧
      session.awaitOutcome = (outcomeOf result, { session with
        pending := none, state := .idle, lastCheck,
        context := { after with exchange := { after.exchange with notices } } }) ∧
      session.awaitEvents = (session.context.exchange.heardSince after.exchange).map .heard ++
        [.ended ticket .checkSat result] := by
  by_cases finished : session.state = .destroyed
  · exact .inl ⟨.destroyedSessionUse, .inl rfl, by simp only [awaitOutcome, finished, ↓reduceIte],
      by simp only [awaitEvents, finished, ↓reduceIte]⟩
  rcases check : session.pending with _ | ⟨ticket, _ | outcome⟩
  · exact .inl ⟨.noPendingCheck, .inr rfl, by simp only [awaitOutcome, finished, check, ↓reduceIte],
      by simp only [awaitEvents, finished, check, ↓reduceIte]⟩
  · right; right
    rcases waited : session.context.wait ticket session.config.checkTimeout session.config.heartbeat
      with ⟨result, after⟩
    rcases noticed : checkNotice? ticket session.config.checkTimeout result with _ | notice <;>
      rcases told : outcomeOf result with err | outcome <;>
      exact ⟨ticket, result, after, _, _, rfl, waited,
        by simp only [awaitOutcome, outcomeOfPending, waitForOutcome, finished, check, waited,
          noticed, told, ↓reduceIte]; rfl,
        by simp only [awaitEvents, Context.waitEvents, finished, check, waited, ↓reduceIte]⟩
  · exact .inr (.inl ⟨ticket, outcome, rfl,
      by simp only [awaitOutcome, outcomeOfPending, finished, check, ↓reduceIte],
      by simp only [awaitEvents, finished, check, ↓reduceIte]⟩)

theorem askBackend_keeps [Backend β] (session : Session β ε) :
    ∃ answer backend, session.askBackend = (answer, { session with backend }) := by
  cases mode : session.mode with
  | external => exact ⟨.ok none, session.backend, by simp only [askBackend, mode]⟩
  | native =>
    cases present : session.backend with
    | none =>
      refine ⟨.error .destroyedSessionUse, none, ?_⟩
      simp only [askBackend, mode, present]
      rw [← present]
    | some backend => exact ⟨_, _, by simp only [askBackend, mode, present]; rfl⟩

/-- A check that an idle session submits is pending under the ticket of its query. -/
theorem submitCheck_cases [Backend β] [Emitter ε] (session : Session β ε) :
    (∃ err backend, session.submitCheck = (.error err, { session with backend }) ∧
      session.submitEvents = [] ∧
      (session.ensureIdle = .error err ∧ backend = session.backend ∨
        session.state = .idle ∧ session.askBackend = (.error err, { session with backend }))) ∨
    ∃ native backend, session.state = .idle ∧
      session.askBackend = (.ok native, { session with backend }) ∧
      ((∃ signals emitter,
        session.submitCheck = (.ok (), { session with
          backend, state := .awaitingCheckResult,
          pending := some ⟨session.context.exchange.issued, native⟩,
          context := { session.context with
            emitter, exchange := session.context.exchange.issueTicket.receiveAll signals } }) ∧
        session.submitEvents =
          .asked session.context.exchange.issued .checkSat :: signals.map .heard) ∨
      ∃ fault context,
        session.submitCheck =
          (.error (.desynchronized fault), { session with backend }.faulted fault context) ∧
        session.submitEvents = []) := by
  rcases ready : session.ensureIdle with err | ⟨⟩
  · exact .inl ⟨err, session.backend, by simp only [submitCheck, ready],
      by simp only [submitEvents, ready], .inl ⟨rfl, rfl⟩⟩
  · obtain ⟨answer, backend, asked⟩ := session.askBackend_keeps
    rcases answer with err | native
    · exact .inl ⟨err, backend, by simp only [submitCheck, ready, asked],
        by simp only [submitEvents, ready, asked], .inr ⟨ensureIdle_ok.mp ready, asked⟩⟩
    · refine .inr ⟨native, backend, ensureIdle_ok.mp ready, asked, ?_⟩
      rcases sendQuery_cases .checkSat { session with backend } with
        ⟨signals, emitter, sent, events⟩ | ⟨fault, context, sent, events⟩
      · exact .inl ⟨signals, emitter, by simp only [submitCheck, ready, asked, sent],
          by simp only [submitEvents, ready, asked, events]⟩
      · exact .inr ⟨fault, context, by simp only [submitCheck, ready, asked, sent],
          by simp only [submitEvents, ready, asked, events]⟩

/-- A request for a model that is passed on sends its query, and waits for the reply. -/
theorem fetchExternalModel_cases [Emitter ε] (session : Session β ε) :
    (∃ signals emitter asked result after,
      asked = { session with context := { session.context with
        emitter, exchange := session.context.exchange.issueTicket.receiveAll signals } } ∧
      asked.context.wait session.context.exchange.issued asked.config.checkTimeout
        asked.config.heartbeat = (result, after) ∧
      session.fetchExternalModel =
        (modelOf asked.config.checkTimeout result, { asked with context := after }) ∧
      session.retrievalEvents =
        .asked session.context.exchange.issued .getModel :: signals.map .heard ++
          ((asked.context.exchange.heardSince after.exchange).map .heard ++
            [.ended session.context.exchange.issued .getModel result])) ∨
    ∃ fault context,
      session.fetchExternalModel =
        (.error (.desynchronized fault), session.faulted fault context) ∧
      session.retrievalEvents = [] := by
  rcases session.sendQuery_cases .getModel with
    ⟨signals, emitter, sent, events⟩ | ⟨fault, context, sent, events⟩
  · generalize now : Session.mk _ _ _ _ _ _ _ _ _ _ _ = asked at sent
    rcases waited : asked.context.wait session.context.exchange.issued asked.config.checkTimeout
      asked.config.heartbeat with ⟨result, after⟩
    exact .inl ⟨signals, emitter, asked, result, after, now.symm, waited,
      by simp only [fetchExternalModel, sent, waited],
      by simp only [retrievalEvents, Context.waitEvents, sent, events, waited]⟩
  · exact .inr ⟨fault, context, by simp only [fetchExternalModel, sent],
      by simp only [retrievalEvents, sent, events, List.append_nil]⟩

theorem retrieves_idle (retrieves : session.retrieves = true) : session.state = .idle := by
  simp only [Session.retrieves, Bool.and_eq_true, beq_iff_eq] at retrieves
  exact retrieves.1.1

/-- A request for a model is refused, answered by the backend, or passed on to the external
solver. -/
theorem model_cases [Backend β] [Emitter ε] (session : Session β ε) :
    (∃ err, (session.ensureIdle = .error err ∨ err = .noModel) ∧ session.retrieves = false ∧
      session.model = (.error err, session)) ∨
    (∃ result backend, session.state = .idle ∧ session.mode = .native ∧ session.retrieves = false ∧
      session.model = (result, { session with backend }) ∧
      (backend = session.backend ∨
        backend = session.backend.map fun backend => (Backend.model backend).2)) ∨
    session.retrieves = true ∧ session.model =
      (session.fetchExternalModel.1.map
        (ResultModel.ofModel .checked session.generation session.visibleSorts),
        session.fetchExternalModel.2) := by
  rcases ready : session.ensureIdle with err | ⟨⟩
  · have busy := (ensureIdle_error ready).1
    exact .inl ⟨err, .inl rfl, by simp [retrieves, busy], by simp only [model, ready]⟩
  · have idle := ensureIdle_ok.mp ready
    cases fresh : session.hasFreshSat with
    | false =>
      exact .inl ⟨.noModel, .inr rfl, by simp [retrieves, fresh], by simp [model, ready, fresh]⟩
    | true =>
      cases mode : session.mode with
      | external =>
        exact .inr (.inr ⟨by simp [retrieves, idle, fresh, mode],
          by simp only [model, ready, fresh, fetchModel, mode, ↓reduceIte]⟩)
      | native =>
        have kept : session.retrieves = false := by simp [retrieves, mode]
        right; left
        cases present : session.backend with
        | none =>
          refine ⟨.error .destroyedSessionUse, none, idle, rfl, kept, ?_, .inl rfl⟩
          simp only [model, ready, fresh, fetchModel, mode, present, ↓reduceIte]
          rw [← present]
          rfl
        | some backend =>
          refine ⟨(Backend.model backend).1.map
            (ResultModel.ofModel .checked session.generation session.visibleSorts),
            some (Backend.model backend).2, idle, rfl, kept, ?_, .inr rfl⟩
          simp only [model, ready, fresh, fetchModel, mode, present, ↓reduceIte]

/-- A session is destroyed once; its last command need not arrive. -/
theorem destroy_cases [Emitter ε] (session : Session β ε) :
    (session.state = .destroyed ∧ session.destroy = (.error .destroyedSessionUse, session) ∧
      session.destroyEvents = []) ∨
    session.state ≠ .destroyed ∧ ∃ context, session.destroy = (.ok (), { session with
        backend := none, pending := none, state := .destroyed,
        generation := session.generation + 1, context }) ∧
      context.emitter = (session.context.send .exit).2.emitter ∧
      session.destroyEvents = session.context.sendEvents (.told .exit) .exit := by
  by_cases finished : session.state = .destroyed
  · exact .inl ⟨finished, by simp only [destroy, finished, ↓reduceIte], by
      simp only [destroyEvents, finished, ↓reduceIte]⟩
  · refine .inr ⟨finished, _, by simp only [destroy, finished, ↓reduceIte]; rfl, ?_, by
      simp only [destroyEvents, finished, ↓reduceIte]⟩
    simp only [sendExit]
    split <;> rename_i sent <;> simp only [sent] <;> rfl

end Session

end SmtSession

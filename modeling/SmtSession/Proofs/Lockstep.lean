import SmtSession.Proofs.Calls
import SmtSession.Proofs.Replay

/-! Lockstep: a session over the shadow backend, the shadow itself and the solver that is sent the
commands hold the same frames, as long as every command arrives. The invariant compares the first
two with the replay of the commands sent. -/
namespace SmtSession

/-- A log of what an emitter is sent: every command arrives, and is logged last. -/
structure Log (ε : Type) [Emitter ε] where
  entries : ε → List Command
  sent : ∀ command emitter, ∃ signals next,
    Emitter.send command emitter = (.ok signals, next) ∧ entries next = entries emitter ++ [command]

def Transcript.log : Log Transcript := ⟨Transcript.commands, fun _ _ => ⟨[], _, rfl, rfl⟩⟩

namespace Session

variable {β ε : Type}

/-- Commands that are sent when a call is accepted, and only then. -/
def ifAccepted {α : Type} (commands : List Command) : Except SolverError α → List Command
  | .ok _ => commands
  | .error _ => []

/-- The query for a model is sent when the external solver is to give it. -/
def retrieval (session : Session β ε) : List Command :=
  if session.retrieves then [.getModel] else []

/-- The commands that a call sends. -/
def emission [Backend β] [Emitter ε] (session : Session β ε) : Call → List Command
  | .apply operation => ifAccepted [operation.command] (session.apply operation).1
  | .submitCheck | .check => ifAccepted [.checkSat] session.submitCheck.1
  | .awaitOutcome => []
  | .model => session.retrieval
  | .getModel => ifAccepted [.checkSat] session.submitCheck.1 ++
    match session.check with
    | (.ok outcome, checked) => if outcome.isSat then checked.retrieval else []
    | (.error _, _) => []
  | .destroy => ifAccepted [.exit] session.destroy.1

def stepEmission [Backend β] [Emitter ε] (session : Session β ε) : Step → List Command
  | .call call => session.emission call
  | .signal _ | .expect _ | .settle => []

/-- The commands that a run sends, in the order of its calls. -/
def transcript [Backend β] [Emitter ε] (session : Session β ε) : List Step → List Command
  | [] => []
  | step :: rest => session.stepEmission step ++ (session.step step).2.transcript rest

/-- The session and its shadow hold what the replay of the commands sent holds. -/
structure InStep (sent : List Command) (session : Session Shadow ε) : Prop where
  mirrored : ∃ frames, session.backend.map Shadow.frames = some frames ∧
    frames.stack = Replay.stack sent ∧ session.depth = frames.depth
  script : (Script.mk sent).finalDepth? = some session.depth
  declared : session.frames.stack = Replay.declarations (Replay.stack sent)

/-- A destroyed session holds nothing any more. -/
def Kept (sent : List Command) (session : Session Shadow ε) : Prop :=
  session.state = .destroyed ∧ session.pending = none ∨ session.InStep sent

theorem emit_logged [Emitter ε] (log : Log ε) (command : Command) (session : Session β ε) :
    ∃ signals emitter,
      session.emit command = (.ok (), { session with
        context := { session.context with
          emitter, exchange := session.context.exchange.receiveAll signals } }) ∧
      log.entries emitter = log.entries session.context.emitter ++ [command] := by
  obtain ⟨signals, emitter, sent, logged⟩ := log.sent command session.context.emitter
  exact ⟨signals, emitter, by simp only [emit, Context.send, sent], logged⟩

theorem sendQuery_logged [Emitter ε] (log : Log ε) (query : Command) (session : Session β ε) :
    ∃ signals emitter,
      session.sendQuery query = (.ok session.context.exchange.issued, { session with
        context := { session.context with
          emitter, exchange := session.context.exchange.issueTicket.receiveAll signals } }) ∧
      log.entries emitter = log.entries session.context.emitter ++ [query] := by
  obtain ⟨signals, emitter, sent, logged⟩ :=
    emit_logged log query { session with context := session.context.issueTicket }
  exact ⟨signals, emitter, by simp only [sendQuery, sent]; rfl, logged⟩

theorem commands_waitEvents (ticket : Nat) (query : Command) (timeout heartbeat : Duration)
    (context : Context ε) :
    Event.commands (context.waitEvents ticket query timeout heartbeat) = [] := by
  rw [Context.waitEvents, Event.commands_append, Event.commands_heard]
  rfl

theorem commands_awaitEvents {session : Session β ε} : Event.commands session.awaitEvents = [] := by
  unfold awaitEvents
  split
  · rfl
  · split
    · exact commands_waitEvents ..
    · rfl

theorem commands_sendEvents [Emitter ε] (log : Log ε) (event : Event) (command : Command)
    (context : Context ε) :
    Event.commands (context.sendEvents event command) = event.command?.toList := by
  obtain ⟨signals, next, sent, _⟩ := log.sent command context.emitter
  have silent := Event.commands_heard signals
  simp only [Context.sendEvents, sent, Event.commands, List.filterMap_cons] at silent ⊢
  cases event.command? <;> simp [silent]

theorem commands_modelEvents [Emitter ε] (log : Log ε) {session : Session β ε} :
    Event.commands session.modelEvents = session.retrieval := by
  cases retrieves : session.retrieves with
  | false => simp [modelEvents, retrieval, retrieves, Event.commands]
  | true =>
    simp only [modelEvents, retrieval, retrieves, ↓reduceIte]
    rw [retrievalEvents, Event.commands_append, queryEvents, commands_sendEvents log]
    split
    · rfl
    · rw [commands_waitEvents, List.append_nil]
      rfl

section Commands

variable [Backend β] [Emitter ε] {session : Session β ε}

theorem commands_applyEvents (operation : Operation) :
    Event.commands (session.applyEvents operation) =
      ifAccepted [operation.command] (session.apply operation).1 := by
  rcases apply_cases operation session with
    ⟨err, backend, applied, events, _⟩ | ⟨declared, before, after, _, _, _, applied, events⟩
  · rw [applied, events]
    rfl
  · have context := book_context operation declared { session with backend := some after }
    rw [applied, events]
    generalize Session.book operation declared { session with backend := some after } = next at *
    have same : session.context = next.context := context.symm
    rw [same]
    rcases emit_cases (.told operation.command) operation.command next with
      ⟨signals, emitter, sent, events⟩ | ⟨fault, context, sent, events⟩
    · rw [sent, events, Event.commands, List.filterMap_cons]
      exact congrArg (operation.command :: ·) (Event.commands_heard signals)
    · rw [sent, events]
      rfl

theorem commands_submitEvents : Event.commands session.submitEvents =
    ifAccepted [.checkSat] session.submitCheck.1 := by
  rcases submitCheck_cases session with
    ⟨err, backend, submitted, events, _⟩ |
    ⟨native, backend, _, _,
      ⟨signals, emitter, submitted, events⟩ | ⟨fault, context, submitted, events⟩⟩
  · rw [submitted, events]
    rfl
  · rw [submitted, events, Event.commands, List.filterMap_cons]
    exact congrArg (Command.checkSat :: ·) (Event.commands_heard signals)
  · rw [submitted, events]
    rfl

theorem commands_checkEvents : Event.commands session.checkEvents =
    ifAccepted [.checkSat] session.submitCheck.1 := by
  rw [checkEvents, Event.commands_append, commands_submitEvents]
  split
  · exact List.append_nil _
  · rw [commands_awaitEvents, List.append_nil]

theorem commands_callEvents (log : Log ε) (call : Call) :
    Event.commands (session.callEvents call) = session.emission call := by
  cases call with
  | apply operation => exact commands_applyEvents operation
  | submitCheck => exact commands_submitEvents
  | awaitOutcome => exact commands_awaitEvents
  | check => exact commands_checkEvents
  | model => exact commands_modelEvents log
  | getModel =>
    simp only [callEvents, getModelEvents, emission, Event.commands_append, commands_checkEvents]
    rcases session.check with ⟨err | outcome, checked⟩
    · rfl
    · cases sat : outcome.isSat
      · simp only [sat, Bool.false_eq_true, ↓reduceIte]
        rfl
      · simp only [sat, ↓reduceIte]
        exact congrArg _ (commands_modelEvents log)
  | destroy =>
    rcases session.destroy_cases with ⟨_, called, events⟩ | ⟨_, context, called, _, events⟩
    · simp only [callEvents, emission, called, events]
      rfl
    · simp only [callEvents, emission, called, events, commands_sendEvents log]
      rfl

/-- As long as every command arrives, the commands of a history are those that the log shows. -/
theorem commands_history (log : Log ε) (steps : List Step) :
    Event.commands (session.history steps) = session.transcript steps := by
  induction steps generalizing session with
  | nil => rfl
  | cons step rest ih =>
    have now : Event.commands (session.stepEvents step) = session.stepEmission step := by
      cases step with
      | call call => exact commands_callEvents log call
      | signal signal | expect arrivals => rfl
      | settle => simp [stepEvents, stepEmission, Event.commands, Event.command?]
    rw [history, transcript, Event.commands_append, now, ih]

end Commands

theorem InStep.congr {sent : List Command} {session after : Session Shadow ε}
    (inStep : session.InStep sent)
    (backend : after.backend.map Shadow.frames = session.backend.map Shadow.frames)
    (depth : after.depth = session.depth) (frames : after.frames = session.frames) :
    after.InStep sent :=
  ⟨backend ▸ depth ▸ inStep.mirrored, depth ▸ inStep.script, frames ▸ inStep.declared⟩

theorem InStep.started {config : SessionConfig} {context : Context ε}
    {session : Session Shadow ε}
    (started : startOn config ({} : Shadow) context = .ok session) :
    session.InStep [] ∧ session.context.emitter = context.emitter := by
  obtain ⟨options, configured, notices, applied, rfl⟩ := startOn_ok started
  obtain ⟨_, rfl⟩ := Prod.mk.inj applied
  exact ⟨⟨⟨{}, rfl, rfl, rfl⟩, rfl, rfl⟩, rfl⟩

/-- A change that the shadow makes and the session books is the one that the command makes. -/
theorem InStep.book {sent : List Command} {session : Session Shadow ε} {operation : Operation}
    {declared : List (String × SmtSort)} {before after : Shadow} (inStep : session.InStep sent)
    (permitted : session.permit operation = .ok declared) (present : session.backend = some before)
    (made : before.perform operation = (.ok (), after))
    (within : ({ session with backend := some after }.book operation declared).depth <
      UInt32.size) :
    ({ session with backend := some after }.book operation declared).InStep
      (sent ++ [operation.command]) := by
  obtain ⟨_, poppable, accepted⟩ := permit_ok permitted
  obtain ⟨⟨frames, mirrored, stack, level⟩, script, records⟩ := inStep
  obtain rfl : before.frames = frames := by simpa [present] using mirrored
  rw [← stack] at records
  refine ⟨⟨after.frames, ?_, ?_, ?_⟩, ?_, ?_⟩
  · cases operation <;> rfl
  · rw [Shadow.stack_perform made, stack, Replay.stack_concat]
  · exact depth_perform { session with backend := some after } level made
  · rw [Script.finalDepth?_concat script]
    exact depth_book { session with backend := some after } poppable within
  · rw [Replay.stack_concat, ← stack]
    exact stack_book { session with backend := some after } accepted poppable level records

theorem InStep.query {sent : List Command} {session : Session Shadow ε} {query : Command}
    (inStep : session.InStep sent) (asks : query.isQuery = true) :
    session.InStep (sent ++ [query]) := by
  have same : Replay.stack (sent ++ [query]) = Replay.stack sent := by
    rw [Replay.stack_concat]
    cases query <;> first | rfl | cases asks
  have depth : (Script.mk (sent ++ [query])).finalDepth? = some session.depth := by
    rw [Script.finalDepth?_concat inStep.script]
    cases query <;> first | rfl | cases asks
  exact ⟨same ▸ inStep.mirrored, depth, same ▸ inStep.declared⟩

theorem askBackend_shadow (session : Session Shadow ε) :
    ∃ answer backend, session.askBackend = (answer, { session with backend }) ∧
      backend.map Shadow.frames = session.backend.map Shadow.frames := by
  cases mode : session.mode with
  | external => exact ⟨.ok none, session.backend, by simp only [askBackend, mode], rfl⟩
  | native =>
    cases present : session.backend with
    | none =>
      refine ⟨.error .destroyedSessionUse, none, ?_, rfl⟩
      simp only [askBackend, mode, present]
      rw [← present]
    | some shadow =>
      exact ⟨.ok (some shadow.outcome), some shadow.check.2,
        by simp only [askBackend, mode, present]; rfl, rfl⟩

/-- A change that the shadow does not make leaves the session as it is. -/
theorem apply_shadow [Emitter ε] (operation : Operation) (session : Session Shadow ε) :
    (∃ err, session.apply operation = (.error err, session)) ∨
    ∃ declared before after, session.permit operation = .ok declared ∧
      session.backend = some before ∧ before.perform operation = (.ok (), after) ∧
      session.apply operation = Session.emit operation.command
        ({ session with backend := some after }.book operation declared) := by
  rcases apply_cases operation session with
    ⟨err, backend, applied, _, kept⟩ |
    ⟨declared, before, after, permitted, present, made, applied, _⟩
  · have same : backend = session.backend := by
      rcases kept with rfl | ⟨before, after, present, rfl, refused⟩
      · rfl
      · rw [present, Shadow.perform_error refused]
    exact .inl ⟨err, by rw [applied, same]⟩
  · exact .inr ⟨declared, before, after, permitted, present, made, applied⟩

/-- What is sent on the way from one session to another is logged, and keeps all in step. -/
structure Advances [Emitter ε] (log : Log ε) (session after : Session Shadow ε)
    (emitted : List Command) : Prop where
  logged : log.entries after.context.emitter = log.entries session.context.emitter ++ emitted
  kept : ∀ sent, session.Kept sent → after.Kept (sent ++ emitted)

variable [Emitter ε] {log : Log ε} {session middle after : Session Shadow ε}

theorem Advances.trans {first second : List Command} (one : Advances log session middle first)
    (two : Advances log middle after second) : Advances log session after (first ++ second) := by
  constructor
  · rw [two.logged, one.logged, List.append_assoc]
  · intro sent kept
    rw [← List.append_assoc]
    exact two.kept _ (one.kept sent kept)

theorem Advances.silent (emitter : after.context.emitter = session.context.emitter)
    (finished : session.state = .destroyed ∧ session.pending = none →
      after.state = .destroyed ∧ after.pending = none)
    (backend : after.backend.map Shadow.frames = session.backend.map Shadow.frames)
    (depth : after.depth = session.depth) (frames : after.frames = session.frames) :
    Advances log session after [] := by
  constructor
  · rw [emitter, List.append_nil]
  · intro sent kept
    rw [List.append_nil]
    exact kept.imp finished fun inStep => inStep.congr backend depth frames

theorem Advances.query {query : Command} (asks : query.isQuery = true)
    (logged : log.entries after.context.emitter = log.entries session.context.emitter ++ [query])
    (live : session.state ≠ .destroyed)
    (backend : after.backend.map Shadow.frames = session.backend.map Shadow.frames)
    (depth : after.depth = session.depth) (frames : after.frames = session.frames) :
    Advances log session after [query] := by
  refine ⟨logged, ?_⟩
  intro sent kept
  rcases kept with ⟨finished, _⟩ | inStep
  · exact absurd finished live
  · exact .inr ((inStep.congr backend depth frames).query asks)

theorem apply_advances (operation : Operation)
    (within : (session.apply operation).2.depth < UInt32.size) :
    Advances log session (session.apply operation).2
      (ifAccepted [operation.command] (session.apply operation).1) := by
  rcases apply_shadow operation session with
    ⟨err, applied⟩ | ⟨declared, before, shadow, permitted, present, made, applied⟩
  · rw [applied]
    exact .silent rfl id rfl rfl rfl
  · have idle := (permit_ok permitted).1
    have booked := fun sent (inStep : session.InStep sent) => inStep.book permitted present made
    have context := book_context operation declared { session with backend := some shadow }
    rw [applied] at within ⊢
    generalize Session.book operation declared { session with backend := some shadow } = next at *
    obtain ⟨signals, emitter, sent, logged⟩ := emit_logged log operation.command next
    rw [sent] at within ⊢
    refine ⟨context ▸ logged, ?_⟩
    intro sent kept
    rcases kept with ⟨finished, _⟩ | inStep
    · rw [idle] at finished
      cases finished
    · exact .inr ((booked sent inStep within).congr rfl rfl rfl)

theorem submitCheck_advances : Advances log session session.submitCheck.2
    (ifAccepted [.checkSat] session.submitCheck.1) := by
  obtain ⟨answer, backend, asked, frames⟩ := askBackend_shadow session
  rcases ready : session.ensureIdle with err | ⟨⟩
  · simp only [submitCheck, ready]
    exact .silent rfl id rfl rfl rfl
  · have live : session.state ≠ .destroyed := by simp [ensureIdle_ok.mp ready]
    rcases answer with err | native
    · simp only [submitCheck, ready, asked]
      exact .silent rfl id frames rfl rfl
    · obtain ⟨signals, emitter, sent, logged⟩ :=
        sendQuery_logged log .checkSat { session with backend }
      simp only [submitCheck, ready, asked, sent]
      exact .query rfl logged live frames rfl rfl

theorem awaitOutcome_advances : Advances log session session.awaitOutcome.2 [] := by
  rcases awaitOutcome_cases session with
    ⟨err, _, awaited, _⟩ | ⟨ticket, outcome, pending, awaited, _⟩ |
    ⟨ticket, result, after, notices, lastCheck, pending, waited, awaited, _⟩
  · rw [awaited]
    exact .silent rfl id rfl rfl rfl
  · rw [awaited]
    exact .silent rfl (fun finished => by simp [pending] at finished) rfl rfl rfl
  · rw [awaited]
    have emitter := Context.wait_emitter waited
    exact .silent emitter (fun finished => by simp [pending] at finished) rfl rfl rfl

theorem check_advances : Advances log session session.check.2
    (ifAccepted [.checkSat] session.submitCheck.1) := by
  have submitted : Advances log session _ _ := submitCheck_advances
  rcases called : session.submitCheck with ⟨err | ⟨⟩, after⟩ <;> rw [called] at submitted
  · simpa only [Session.check, called] using submitted
  · simp only [Session.check, called]
    exact submitted.trans awaitOutcome_advances

theorem model_advances : Advances log session session.model.2 session.retrieval := by
  rcases session.model_cases with
    ⟨err, _, kept, given⟩ | ⟨result, backend, _, _, kept, given, same⟩ | ⟨retrieves, given⟩
  · rw [retrieval, kept, given]
    exact .silent rfl id rfl rfl rfl
  · have frames : backend.map Shadow.frames = session.backend.map Shadow.frames := by
      rcases same with rfl | rfl
      · rfl
      · rw [Option.map_map]
        rfl
    rw [retrieval, kept, given]
    exact .silent rfl id frames rfl rfl
  · have live : session.state ≠ .destroyed := by simp [retrieves_idle retrieves]
    obtain ⟨signals, emitter, sent, logged⟩ := sendQuery_logged log .getModel session
    generalize now : Session.mk _ _ _ _ _ _ _ _ _ _ _ = asked at sent
    rcases waited : asked.context.wait session.context.exchange.issued asked.config.checkTimeout
      asked.config.heartbeat with ⟨result, after⟩
    simp only [retrieval, retrieves, given, fetchExternalModel, sent, waited, ↓reduceIte]
    have emitter := Context.wait_emitter waited
    subst now
    exact .query rfl (emitter ▸ logged) live rfl rfl rfl

theorem getModel_advances :
    Advances log session session.getModel.2 (session.emission .getModel) := by
  have checked : Advances log session _ _ := check_advances
  rcases called : session.check with ⟨err | outcome, after⟩ <;> rw [called] at checked
  · simpa only [Session.getModel, emission, called, List.append_nil] using checked
  · cases sat : outcome.isSat
    · simpa only [Session.getModel, emission, called, sat, List.append_nil, Bool.false_eq_true,
        ↓reduceIte] using checked
    · simp only [Session.getModel, emission, called, sat, ↓reduceIte]
      exact checked.trans model_advances

theorem destroy_advances : Advances log session session.destroy.2
    (ifAccepted [.exit] session.destroy.1) := by
  rcases session.destroy_cases with ⟨finished, called, _⟩ | ⟨_, context, called, emitter, _⟩
  · rw [called]
    exact .silent rfl id rfl rfl rfl
  · rw [called]
    refine ⟨?_, fun _ _ => .inl ⟨rfl, rfl⟩⟩
    obtain ⟨signals, next, sent, logged⟩ := log.sent .exit session.context.emitter
    simp only [Context.send, sent] at emitter
    rw [emitter]
    exact logged

theorem call_advances (call : Call) (within : (session.call call).2.depth < UInt32.size) :
    Advances log session (session.call call).2 (session.emission call) := by
  cases call with
  | apply operation => exact apply_advances operation within
  | submitCheck => exact submitCheck_advances
  | awaitOutcome => exact awaitOutcome_advances
  | check => exact check_advances
  | model => exact model_advances
  | getModel => exact getModel_advances
  | destroy => exact destroy_advances

theorem step_advances (step : Step) (within : (session.step step).2.depth < UInt32.size) :
    Advances log session (session.step step).2 (session.stepEmission step) := by
  cases step with
  | call call => exact call_advances call within
  | signal signal => exact .silent rfl id rfl rfl rfl
  | expect arrivals => exact .silent rfl id rfl rfl rfl
  | settle => exact .silent rfl id rfl rfl rfl

theorem run_advances (steps : List Step)
    (within : ∀ moment, (session.run (steps.take moment)).2.depth < UInt32.size) :
    Advances log session (session.run steps).2 (session.transcript steps) := by
  induction steps generalizing session with
  | nil => exact .silent rfl id rfl rfl rfl
  | cons step rest ih =>
    exact (step_advances step (within 1)).trans (ih fun moment => within (moment + 1))

/-- As long as every command arrives, the log shows what the calls send, in their order, and until
it is destroyed the session holds what a solver holds that is sent just that: frame by frame in the
shadow, by its declarations in the session's own records, and by its depth. -/
theorem lockstep {config : SessionConfig} {context : Context ε} (log : Log ε)
    (started : startOn config ({} : Shadow) context = .ok session) (steps : List Step)
    (within : ∀ moment, (session.run (steps.take moment)).2.depth < UInt32.size) :
    let last := (session.run steps).2
    let sent := session.transcript steps
    log.entries last.context.emitter = log.entries context.emitter ++ sent ∧
      (last.state ≠ .destroyed →
        ∃ shadow, last.backend = some shadow ∧ shadow.frames.toList = replay sent ∧
          last.depth = shadow.depth ∧ (Script.mk sent).finalDepth? = some last.depth ∧
          last.frames.toList.length = last.depth + 1 ∧
          last.frames.toList = (replay sent).map (List.flatMap Command.declares)) := by
  intro last sent
  obtain ⟨inStep, emitter⟩ := InStep.started started
  obtain ⟨logged, kept⟩ : Advances log session _ _ := run_advances steps within
  refine ⟨emitter ▸ logged, ?_⟩
  intro live
  rcases kept [] (.inr inStep) with
    ⟨finished, _⟩ | ⟨⟨frames, mirrored, stack, level⟩, script, records⟩
  · exact absurd finished live
  · obtain ⟨shadow, present, rfl⟩ := Option.map_eq_some_iff.mp mirrored
    have declared : last.frames.toList = (replay sent).map (List.flatMap Command.declares) := by
      rw [← Frames.reverse_stack, records, replay, List.map_reverse]
      rfl
    refine ⟨shadow, present, ?_, level, script, ?_, declared⟩
    · rw [← Frames.reverse_stack, stack]
      rfl
    · rw [declared, List.length_map, replay, List.length_reverse, level]
      exact congrArg List.length stack.symm

/-- Frames are opened and filled around a check, and some calls are refused. -/
def restacking : List Step :=
  [.call (.apply (.declare "x" .int)), .call (.apply .push),
    .call (.apply (.assertText "(declare-const y Bool)")), .call .submitCheck,
    .call (.apply .push), .call .awaitOutcome, .call (.apply (.pop 2)), .call .model]

theorem restacking_lockstep :
    startOn quick ({} : Shadow) ⟨({} : Transcript), {}, .channel⟩ = .ok impatient ∧
      (∀ moment, (impatient.run (restacking.take moment)).2.depth < UInt32.size) ∧
      impatient.transcript restacking =
        [.declareConst "x" .int, .push 1, .verbatim "(declare-const y Bool)", .checkSat] ∧
      (impatient.run restacking).2.frames.toList = [[("x", .int)], [("y", .bool)]] := by
  have started : startOn quick ({} : Shadow) ⟨({} : Transcript), {}, .channel⟩ =
      .ok impatient := rfl
  have within : ∀ moment, (impatient.run (restacking.take moment)).2.depth < UInt32.size :=
    (forall_take_iff (fun now => (impatient.run now).2.depth < UInt32.size) restacking).mpr
      (by decide +kernel)
  have sent : impatient.transcript restacking =
      [.declareConst "x" .int, .push 1, .verbatim "(declare-const y Bool)", .checkSat] := by
    decide +kernel
  obtain ⟨_, kept⟩ := lockstep Transcript.log started restacking within
  obtain ⟨_, _, _, _, _, _, records⟩ := kept (by decide +kernel)
  rw [sent] at records
  exact ⟨started, within, sent, records.trans (by decide +kernel)⟩

end Session

end SmtSession

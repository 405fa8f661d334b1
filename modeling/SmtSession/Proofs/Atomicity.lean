import SmtSession.Emitter
import SmtSession.Proofs.ExchangeLedger
import SmtSession.Proofs.Recording

namespace SmtSession

/-- The command that a call hands over, unless it is made up of other calls. -/
def Call.command? : Call → Option Command
  | .apply operation => some operation.command
  | .submitCheck => some .checkSat
  | .model => some .getModel
  | _ => none

namespace Session

variable {β ε : Type}

section Sending

variable [Emitter ε] {command : Command} {session : Session β ε}

/-- A lost command faults the session, and changes nothing else that the session keeps. -/
theorem emit_lost {reason : SolverError}
    (lost : (Emitter.delivery command session.context.emitter).result = .error reason) :
    ∃ context, context.exchange.issued = session.context.exchange.issued ∧
      session.emit command = (.error (.desynchronized (deliveryFault command reason)),
        session.faulted (deliveryFault command reason) context) := by
  simp only [Emitter.delivery] at lost
  rcases sent : Emitter.send command session.context.emitter with ⟨err | signals, emitter⟩
  · obtain rfl : err = reason := by simpa [sent, Except.map] using lost
    refine ⟨_, ?_, by simp only [emit, Context.send, sent]; rfl⟩
    rfl
  · simp [sent, Except.map] at lost

theorem emit_arrived
    (arrived : (Emitter.delivery command session.context.emitter).result = .ok ()) :
    ∃ context, context.exchange.issued = session.context.exchange.issued ∧
      session.emit command = (.ok (), { session with context }) := by
  simp only [Emitter.delivery] at arrived
  rcases sent : Emitter.send command session.context.emitter with ⟨err | signals, emitter⟩
  · simp [sent, Except.map] at arrived
  · refine ⟨_, ?_, by simp only [emit, Context.send, sent]; rfl⟩
    exact Exchange.issued_receiveAll ..

end Sending

/-- What a session refuses on its own. -/
inductive Declines (session : Session β ε) : Call → Prop
  | busy {call : Call} (busy : session.state ≠ .idle) : Declines session call
  | pop {frames : Nat} (outside : frames = 0 ∨ session.depth < frames) :
    Declines session (.apply (.pop frames))
  | assertText {text : String} {err : SexpError}
    (unacceptable : Declarations.ofText text = .error err) :
    Declines session (.apply (.assertText text))
  | model (stale : session.lastCheck ≠ some (session.generation, .sat)) : Declines session .model

theorem declines_apply {operation : Operation} {session : Session β ε} :
    session.Declines (.apply operation) ↔ ∃ err, session.permit operation = .error err := by
  constructor
  · intro declines
    rcases permitted : session.permit operation with err | declared
    · exact ⟨err, rfl⟩
    · obtain ⟨idle, poppable, accepted⟩ := permit_ok permitted
      rcases declines with busy | outside | unacceptable
      · exact absurd idle busy
      · simp [ensurePoppable, outside] at poppable
      · simp only [declarationsOf, unacceptable] at accepted
        cases accepted
  · rintro ⟨err, refused⟩
    rcases ready : session.ensureIdle with _ | ⟨⟩
    · exact .busy (ensureIdle_error ready).1
    · simp only [permit, ready] at refused
      cases operation <;> simp only [ensurePoppable, declarationsOf, reduceCtorEq] at refused
      case assertText text =>
        rcases read : Declarations.ofText text with reason | declared
        · exact .assertText read
        · rw [read] at refused
          cases refused
      case pop frames =>
        by_cases outside : frames = 0 ∨ session.depth < frames
        · exact .pop outside
        · simp [outside] at refused

theorem declines_submitCheck {session : Session β ε} :
    session.Declines .submitCheck ↔ session.state ≠ .idle := by
  constructor
  · rintro ⟨busy⟩
    exact busy
  · exact .busy

theorem declines_model {session : Session β ε} :
    session.Declines .model ↔ session.state ≠ .idle ∨ session.hasFreshSat = false := by
  constructor
  · rintro (busy | _ | _ | stale)
    · exact .inl busy
    · exact .inr (by simpa [hasFreshSat] using stale)
  · rintro (busy | stale)
    · exact .busy busy
    · exact .model (by simpa [hasFreshSat] using stale)

variable [Backend β] [Emitter ε]

/-- What is done by the time a call hands its command over: the calls made to the backend, and the
session that is ready to send. -/
inductive Ready (session : Session β ε) : Call → List BackendCall → Session β ε → Prop
  | change {operation : Operation} {declared : List (String × SmtSort)} {before after : β}
    (permitted : session.permit operation = .ok declared)
    (present : session.backend = some before)
    (made : Backend.perform operation before = (.ok (), after)) :
    Ready session (.apply operation) [.perform operation (.ok ())]
      ({ session with backend := some after }.book operation declared)
  | check {calls : List BackendCall} {answer : Option Outcome} {backend : Option β}
    (idle : session.state = .idle) (consulted : session.Consulted calls answer backend) :
    Ready session .submitCheck calls
      { session with backend, context := session.context.issueTicket }
  | model (idle : session.state = .idle) (fresh : session.hasFreshSat = true)
    (external : session.mode = .external) :
    Ready session .model [] { session with context := session.context.issueTicket }

/-- A call either changes nothing or does all that it stands for, up to the delivery of its
command. -/
structure Atomic (session : Session β ε) (call : Call) : Prop where
  /-- What the session declines reaches neither side. -/
  declined : session.Declines call →
    ∃ err, session.call call = (.error err, session) ∧ session.contacts call = {}
  /-- A call that fails, though no command was lost, has made no change. It has sent nothing, unless
  it has asked the external solver for a model. -/
  refused : ∀ err, (session.call call).1 = .error err →
    (∀ delivery ∈ (session.contacts call).deliveries, delivery.result = .ok ()) →
    (session.contacts call).calls.any BackendCall.isChange = false ∧
    (session.call call).2.books = session.books ∧
    ((session.contacts call).deliveries = [] ∧
        (session.call call).2.context = session.context ∨
      call = .model ∧ session.mode = .external ∧
        session.contacts call = ⟨[], [⟨.getModel, .ok ()⟩]⟩ ∧
        (session.call call).2.context.exchange.issued = session.context.exchange.issued + 1)
  /-- When a command is lost, everything before it was done once, and the session is faulted. -/
  lost : ∀ delivery ∈ (session.contacts call).deliveries, ∀ reason,
    delivery.result = .error reason →
    ∃ calls ready, session.Ready call calls ready ∧ session.contacts call = ⟨calls, [delivery]⟩ ∧
      call.command? = some delivery.command ∧
      ∃ context, context.exchange.issued = ready.context.exchange.issued ∧
        (session.call call).2 =
          ready.faulted (deliveryFault delivery.command reason) context ∧
        (session.call call).1 =
          .error (.desynchronized (deliveryFault delivery.command reason))

variable {session : Session β ε} {call : Call}

theorem Atomic.ofUntouched {err : SolverError} (called : session.call call = (.error err, session))
    (silent : session.contacts call = {}) : session.Atomic call := by
  constructor
  · intro _
    exact ⟨err, called, silent⟩
  · intro _ _ _
    simp [called, silent]
  · simp [silent]

theorem Atomic.ofAsked {asked : BackendCall} {result : Except SolverError Answer}
    {backend : Option β} (accepted : ¬ session.Declines call)
    (called : session.call call = (result, { session with backend }))
    (contacts : session.contacts call = ⟨[asked], []⟩) (unchanged : asked.isChange = false) :
    session.Atomic call := by
  constructor
  · intro declines
    exact absurd declines accepted
  · intro _ _ _
    rw [called, contacts]
    exact ⟨by simp [unchanged], rfl, .inl ⟨rfl, rfl⟩⟩
  · simp [contacts]

theorem Atomic.ofSent {calls : List BackendCall} {ready : Session β ε} {command : Command}
    (accepted : ¬ session.Declines call) (prepared : session.Ready call calls ready)
    (sends : call.command? = some command)
    (contacts : session.contacts call =
      ⟨calls, [Emitter.delivery command session.context.emitter]⟩)
    (lost : ∀ context fault,
      ready.emit command = (.error (.desynchronized fault), ready.faulted fault context) →
      session.call call = (.error (.desynchronized fault), ready.faulted fault context))
    (arrived : ∀ context err, context.exchange.issued = ready.context.exchange.issued →
      ready.emit command = (.ok (), { ready with context }) →
      (session.call call).1 = .error err → call = .model ∧
        (session.call call).2.books = session.books ∧
        (session.call call).2.context.exchange.issued = ready.context.exchange.issued) :
    session.Atomic call := by
  have emitter : ready.context.emitter = session.context.emitter := by
    rcases prepared with ⟨_, _, _⟩ | _ | _
    · rw [book_context]
    · rfl
    · rfl
  constructor
  · intro declines
    exact absurd declines accepted
  · intro err failed
    rw [contacts]
    intro delivered
    obtain ⟨context, issued, sent⟩ := emit_arrived
      (emitter ▸ delivered _ (List.mem_singleton_self _))
    obtain ⟨rfl, books, ticket⟩ := arrived context err issued sent failed
    obtain rfl := Option.some.inj sends
    obtain _ | _ | ⟨_, _, external⟩ := prepared
    have arrived : Emitter.delivery .getModel session.context.emitter = ⟨.getModel, .ok ()⟩ :=
      congrArg (Delivery.mk .getModel) (delivered _ (List.mem_singleton_self _))
    exact ⟨rfl, books, .inr ⟨rfl, external, by rw [arrived], ticket⟩⟩
  · rw [contacts]
    intro delivery handed reason failed
    obtain rfl := List.mem_singleton.mp handed
    have failed : (Emitter.delivery command ready.context.emitter).result = .error reason :=
      emitter ▸ failed
    obtain ⟨context, issued, sent⟩ := emit_lost failed
    refine ⟨calls, ready, prepared, rfl, sends, context, issued, ?_⟩
    rw [lost context _ sent]
    exact ⟨rfl, rfl⟩

theorem apply_atomic (operation : Operation) : session.Atomic (.apply operation) := by
  rcases session.apply_contacts operation with
    ⟨err, _, called, contacts⟩ | ⟨declared, err, before, after, permitted, _, _, called, contacts⟩ |
    ⟨declared, before, after, permitted, present, made, called, contacts⟩
  · have declined : session.call (.apply operation) = (.error err, session) := by
      simp only [Session.call, called]
      rfl
    exact .ofUntouched declined contacts
  · have accepted : ¬ session.Declines (.apply operation) := by
      simp [declines_apply, permitted]
    exact .ofAsked accepted (by simp only [Session.call, called]; rfl) contacts rfl
  · have accepted : ¬ session.Declines (.apply operation) := by
      simp [declines_apply, permitted]
    refine .ofSent accepted (.change permitted present made) rfl contacts ?_ ?_
    · intro context fault sent
      simp only [Session.call, called, sent]
      rfl
    · intro context err _ sent failed
      simp [Session.call, called, sent, Except.map] at failed

theorem submitCheck_atomic : session.Atomic .submitCheck := by
  rcases session.submitCheck_contacts with
    ⟨err, _, called, contacts⟩ | ⟨err, before, after, idle, _, _, _, called, contacts⟩ |
    ⟨calls, answer, backend, idle, consulted, called, contacts⟩
  · have declined : session.call .submitCheck = (.error err, session) := by
      simp only [Session.call, called]
      rfl
    exact .ofUntouched declined contacts
  · have accepted : ¬ session.Declines .submitCheck := by simp [declines_submitCheck, idle]
    exact .ofAsked accepted (by simp only [Session.call, called]; rfl) contacts rfl
  · have accepted : ¬ session.Declines .submitCheck := by simp [declines_submitCheck, idle]
    refine .ofSent accepted (.check idle consulted) rfl contacts ?_ ?_
    · intro context fault sent
      simp only [Session.call, called, submit, sendQuery, sent]
      rfl
    · intro context err _ sent failed
      simp [Session.call, called, submit, sendQuery, sent, Except.map] at failed

theorem model_atomic : session.Atomic .model := by
  rcases session.model_contacts with
    ⟨err, _, called, contacts⟩ | ⟨backend, idle, fresh, _, _, called, contacts⟩ |
    ⟨idle, fresh, external, called, contacts⟩
  · have declined : session.call .model = (.error err, session) := by
      simp only [Session.call, called]
      rfl
    exact .ofUntouched declined contacts
  · have accepted : ¬ session.Declines .model := by simp [declines_model, idle, fresh]
    exact .ofAsked accepted (by simp only [Session.call, called]; rfl) contacts rfl
  · have accepted : ¬ session.Declines .model := by simp [declines_model, idle, fresh]
    refine .ofSent accepted (.model idle fresh external) rfl contacts ?_ ?_
    · intro context fault sent
      simp only [Session.call, called, fetchExternalModel, sendQuery, sent]
      rfl
    · intro context err issued sent _
      simp only [Session.call, called, fetchExternalModel, sendQuery, sent]
      refine ⟨trivial, rfl, ?_⟩
      exact (Exchange.issued_wait ..).trans issued

/-- Whatever the state of the session, its backend and its emitter, a call that hands over one
command is refused as a whole or made as a whole, and faults the session when the command is
lost. -/
theorem call_atomic (session : Session β ε) {call : Call} {command : Command}
    (sends : call.command? = some command) : session.Atomic call := by
  cases call with
  | apply operation => exact apply_atomic operation
  | submitCheck => exact submitCheck_atomic
  | model => exact model_atomic
  | awaitOutcome | check | getModel | destroy => cases sends

/-- A session whose commands all get lost. -/
def choked : Session Shadow Stream where
  config := quick
  options := []
  backend := some {}
  context := { emitter := { room := some 0 }, exchange := {}, origin := .channel }

/-- A frame is opened once on both sides of the session, and the session is faulted. -/
theorem choked_atomic :
    choked.Atomic (.apply .push) ∧
      choked.contacts (.apply .push) =
        ⟨[.perform .push (.ok ())], [⟨.push 1, .error (Stream.writeError "")⟩]⟩ ∧
      ((choked.call (.apply .push)).2.backend.map Shadow.depth) = some 1 ∧
      (choked.call (.apply .push)).2.books =
        { state := .faulted, depth := 1, frames := ⟨[], [[]]⟩, generation := 1, pending := none,
          lastCheck := none, fault := some
            (deliveryFault (.push 1) (Stream.writeError "")) } :=
  ⟨call_atomic choked rfl, rfl, rfl, rfl⟩

end Session

end SmtSession

import SmtSession.Proofs.Calls
import SmtSession.Proofs.Simulation

/-! Recording: a backend and an emitter that keep a record of what is asked of them. A session over
the two does what it does without them, and the records show which calls it makes to its backend and
which commands it hands to its emitter. -/
namespace SmtSession

/-- A call to a backend, with the answer. -/
inductive BackendCall where
  | configure (options : List SolverOption) (result : Except SolverError Unit)
  | perform (operation : Operation) (result : Except SolverError Unit)
  | check (result : Except SolverError Outcome)
  | model (result : Except SolverError Model)

def BackendCall.isChange : BackendCall → Bool
  | .perform _ (.ok ()) => true
  | _ => false

structure RecordedBackend (β : Type) where
  backend : β
  /-- The calls made, in order. -/
  calls : List BackendCall := []

def RecordedBackend.record {α β : Type} (call : Except SolverError α → BackendCall)
    (earlier : List BackendCall) (answered : Except SolverError α × β) :
    Except SolverError α × RecordedBackend β :=
  (answered.1, ⟨answered.2, earlier ++ [call answered.1]⟩)

instance {β : Type} [Backend β] : Backend (RecordedBackend β) where
  configure options recorded := RecordedBackend.record (.configure options) recorded.calls
    (Backend.configure options recorded.backend)
  perform operation recorded := RecordedBackend.record (.perform operation) recorded.calls
    (Backend.perform operation recorded.backend)
  check recorded := RecordedBackend.record .check recorded.calls (Backend.check recorded.backend)
  model recorded := RecordedBackend.record .model recorded.calls (Backend.model recorded.backend)
  display recorded := Backend.display recorded.backend

/-- A command handed to an emitter, and whether it could be delivered. -/
structure Delivery where
  command : Command
  result : Except SolverError Unit

def Emitter.delivery {ε : Type} [Emitter ε] (command : Command) (emitter : ε) : Delivery :=
  ⟨command, (Emitter.send command emitter).1.map fun _ => ()⟩

structure RecordedEmitter (ε : Type) where
  emitter : ε
  /-- The commands handed over, in order. -/
  deliveries : List Delivery := []

instance {ε : Type} [Emitter ε] : Emitter (RecordedEmitter ε) where
  send command recorded :=
    let (result, emitter) := Emitter.send command recorded.emitter
    (result, ⟨emitter, recorded.deliveries ++ [Emitter.delivery command recorded.emitter]⟩)

namespace Context

variable {ε : Type}

def recorded (context : Context ε) : Context (RecordedEmitter ε) :=
  { context with emitter := ⟨context.emitter, []⟩ }

def plain (context : Context (RecordedEmitter ε)) : Context ε :=
  { context with emitter := context.emitter.emitter }

theorem send_plain [Emitter ε] (command : Command) (context : Context (RecordedEmitter ε)) :
    context.plain.send command = ((context.send command).1, (context.send command).2.plain) := by
  simp only [send, plain, Emitter.send]
  rcases Emitter.send command context.emitter.emitter with ⟨err | signals, emitter⟩
  · rfl
  · rfl

theorem result_send [Emitter ε] (command : Command) (context : Context ε) :
    (context.send command).1 = (Emitter.delivery command context.emitter).result := by
  simp only [send, Emitter.delivery]
  rcases Emitter.send command context.emitter with ⟨err | signals, emitter⟩
  · rfl
  · rfl

theorem issued_send [Emitter ε] (command : Command) (context : Context ε) :
    (context.send command).2.exchange.issued = context.exchange.issued := by
  simp only [send]
  rcases Emitter.send command context.emitter with ⟨err | signals, emitter⟩
  · rfl
  · exact Exchange.issued_receiveAll ..

theorem deliveries_send [Emitter ε] (command : Command) (context : Context (RecordedEmitter ε)) :
    (context.send command).2.emitter.deliveries =
      context.emitter.deliveries ++ [Emitter.delivery command context.emitter.emitter] := by
  simp only [send, Emitter.send]
  rcases Emitter.send command context.emitter.emitter with ⟨err | signals, emitter⟩
  · rfl
  · rfl

theorem emitter_send [Emitter ε] (command : Command) (context : Context ε) :
    (context.send command).2.emitter = (Emitter.send command context.emitter).2 := by
  simp only [send]
  rcases Emitter.send command context.emitter with ⟨err | signals, emitter⟩
  · rfl
  · rfl

end Context

/-- A backend and an emitter answer as they do without a record. -/
def Likeness.recording (β ε : Type) [Backend β] [Emitter ε] :
    Likeness β (RecordedBackend β) ε (RecordedEmitter ε) where
  backends backend recorded := recorded.backend = backend
  contexts context recorded := recorded.plain = context
  asks := True
  waits := True
  perform := by
    rintro _ recorded rfl operation
    simp only [Backend.perform, RecordedBackend.record]
    rcases Backend.perform operation recorded.backend with ⟨result, after⟩
    exact .intro rfl
  check := by
    rintro _ recorded rfl _
    simp only [Backend.check, RecordedBackend.record]
    rcases Backend.check recorded.backend with ⟨result, after⟩
    exact .intro rfl
  model := by
    rintro _ recorded rfl _
    simp only [Backend.model, RecordedBackend.record]
    rcases Backend.model recorded.backend with ⟨result, after⟩
    exact .intro rfl
  note := by
    rintro _ recorded rfl notice
    rfl
  issued := by
    rintro _ recorded rfl
    rfl
  issueTicket := by
    rintro _ recorded rfl
    rfl
  send := by
    rintro _ recorded rfl command
    rw [recorded.send_plain command]
    rcases recorded.send command with ⟨result, after⟩
    exact .intro rfl
  wait := by
    rintro _ recorded rfl _ ticket timeout heartbeat
    exact .intro rfl

/-- What is asked of the two sides of a session. -/
structure Contacts where
  calls : List BackendCall := []
  deliveries : List Delivery := []

namespace Session

variable {β ε : Type}

def recorded (session : Session β ε) : Session (RecordedBackend β) (RecordedEmitter ε) :=
  { session with
    backend := session.backend.map (⟨·, []⟩)
    context := session.context.recorded }

def plain (session : Session (RecordedBackend β) (RecordedEmitter ε)) : Session β ε :=
  { session with
    backend := session.backend.map RecordedBackend.backend
    context := session.context.plain }

def record (session : Session (RecordedBackend β) (RecordedEmitter ε)) : Contacts where
  calls := (session.backend.map RecordedBackend.calls).getD []
  deliveries := session.context.emitter.deliveries

theorem record_recorded (session : Session β ε) : session.recorded.record = {} := by
  simp only [record, recorded]
  cases session.backend <;> rfl

theorem record_emit [Emitter ε] (command : Command)
    (session : Session (RecordedBackend β) (RecordedEmitter ε)) :
    (session.emit command).2.record = { session.record with
      deliveries := session.record.deliveries ++
        [Emitter.delivery command session.context.emitter.emitter] } := by
  have handed := session.context.deliveries_send command
  simp only [record, emit]
  rcases sent : session.context.send command with ⟨err | ⟨⟩, after⟩ <;> rw [sent] at handed
  · rw [← handed]
    rfl
  · rw [← handed]

theorem record_sendQuery [Emitter ε] (query : Command)
    (session : Session (RecordedBackend β) (RecordedEmitter ε)) :
    (session.sendQuery query).2.record = { session.record with
      deliveries := session.record.deliveries ++
        [Emitter.delivery query session.context.emitter.emitter] } := by
  simp only [sendQuery]
  exact record_emit query { session with context := session.context.issueTicket }

/-- Submit a check that the backend has been consulted about. -/
def submit [Emitter ε] (answer : Option Outcome) (session : Session β ε) :
    Except SolverError Unit × Session β ε :=
  match session.sendQuery .checkSat with
  | (.error err, session) => (.error err, session)
  | (.ok ticket, session) =>
    (.ok (), { session with pending := some ⟨ticket, answer⟩, state := .awaitingCheckResult })

theorem record_submit [Emitter ε] (answer : Option Outcome)
    (session : Session (RecordedBackend β) (RecordedEmitter ε)) :
    (session.submit answer).2.record = { session.record with
      deliveries := session.record.deliveries ++
        [Emitter.delivery .checkSat session.context.emitter.emitter] } := by
  rw [← record_sendQuery .checkSat session]
  simp only [submit]
  rcases session.sendQuery .checkSat with ⟨err | ticket, after⟩
  · rfl
  · rfl

theorem record_fetchExternalModel [Emitter ε]
    (session : Session (RecordedBackend β) (RecordedEmitter ε)) :
    session.fetchExternalModel.2.record = { session.record with
      deliveries := session.record.deliveries ++
        [Emitter.delivery .getModel session.context.emitter.emitter] } := by
  rw [← record_sendQuery .getModel session]
  simp only [fetchExternalModel]
  rcases session.sendQuery .getModel with ⟨err | ticket, after⟩
  · rfl
  · rfl

theorem record_book (operation : Operation) (declared : List (String × SmtSort))
    (session : Session (RecordedBackend β) (RecordedEmitter ε)) :
    (session.book operation declared).record = session.record := by
  cases operation <;> rfl

variable [Backend β] [Emitter ε]

/-- What a call asks of the two sides. -/
def contacts (call : Call) (session : Session β ε) : Contacts :=
  (session.recorded.call call).2.record

/-- Recording changes nothing. -/
theorem call_recorded (call : Call) (session : Session β ε) :
    (session.recorded.call call).1 = (session.call call).1 ∧
      (session.recorded.call call).2.plain = (session.call call).2 := by
  have backends : Option.Rel (Likeness.recording β ε).backends session.backend
      (session.backend.map (⟨·, []⟩)) := by
    rcases session.backend with _ | backend
    · exact .none
    · exact .some rfl
  have alike : Alike (.recording β ε) session session.recorded :=
    .intro backends rfl (fun _ => trivial) (fun _ => trivial) fun _ _ _ => trivial
  refine (alike.call call).elim fun result after recorded alike => ⟨rfl, ?_⟩
  obtain @⟨backend, context, backends, contexts, _⟩ := alike
  obtain ⟨config, options, present, context', _⟩ := after
  obtain rfl : context.plain = context' := contexts
  rcases present with _ | one <;> obtain related | _ := backends
  · rfl
  · obtain rfl : _ = one := related
    rfl

/-- A change that is not permitted is not asked of the backend, one that is not made is not
sent. -/
theorem apply_contacts (operation : Operation) (session : Session β ε) :
    (∃ err, (session.permit operation = .error err ∨ session.backend = none) ∧
      session.apply operation = (.error err, session) ∧
      session.contacts (.apply operation) = {}) ∨
    (∃ declared err before after, session.permit operation = .ok declared ∧
      session.backend = some before ∧ Backend.perform operation before = (.error err, after) ∧
      session.apply operation = (.error err, { session with backend := some after }) ∧
      session.contacts (.apply operation) = ⟨[.perform operation (.error err)], []⟩) ∨
    ∃ declared before after, session.permit operation = .ok declared ∧
      session.backend = some before ∧ Backend.perform operation before = (.ok (), after) ∧
      session.apply operation =
        ({ session with backend := some after }.book operation declared).emit operation.command ∧
      session.contacts (.apply operation) = ⟨[.perform operation (.ok ())],
        [Emitter.delivery operation.command session.context.emitter]⟩ := by
  have asked : session.recorded.permit operation = session.permit operation := rfl
  simp only [contacts, call, Session.apply, asked]
  cases permitted : session.permit operation with
  | error err =>
    exact .inl ⟨err, .inl rfl, rfl, session.record_recorded⟩
  | ok declared =>
    simp only [recorded]
    cases present : session.backend with
    | none => exact .inl ⟨.destroyedSessionUse, .inr rfl, rfl, rfl⟩
    | some before =>
      right
      simp only [Option.map_some, Backend.perform, RecordedBackend.record]
      rcases made : Backend.perform operation before with ⟨err | ⟨⟩, after⟩
      · exact .inl ⟨declared, err, before, after, rfl, rfl, made, rfl, rfl⟩
      · refine .inr ⟨declared, before, after, rfl, rfl, made, rfl, ?_⟩
        simp only [record_emit, record_book, book_context]
        rfl

/-- A session consults its backend about a check in the native mode only. -/
inductive Consulted (session : Session β ε) : List BackendCall → Option Outcome → Option β → Prop
  | external (mode : session.mode = .external) : Consulted session [] none session.backend
  | native {before after : β} {outcome : Outcome} (mode : session.mode = .native)
    (present : session.backend = some before)
    (answered : Backend.check before = (.ok outcome, after)) :
    Consulted session [.check (.ok outcome)] (some outcome) (some after)

/-- A check that the backend cannot answer is not sent. -/
theorem submitCheck_contacts (session : Session β ε) :
    (∃ err, (session.ensureIdle = .error err ∨ session.backend = none) ∧
      session.submitCheck = (.error err, session) ∧ session.contacts .submitCheck = {}) ∨
    (∃ err before after, session.state = .idle ∧ session.mode = .native ∧
      session.backend = some before ∧ Backend.check before = (.error err, after) ∧
      session.submitCheck = (.error err, { session with backend := some after }) ∧
      session.contacts .submitCheck = ⟨[.check (.error err)], []⟩) ∨
    ∃ calls answer backend, session.state = .idle ∧ session.Consulted calls answer backend ∧
      session.submitCheck = { session with backend }.submit answer ∧
      session.contacts .submitCheck =
        ⟨calls, [Emitter.delivery .checkSat session.context.emitter]⟩ := by
  have asked : session.recorded.ensureIdle = session.ensureIdle ∧
    session.recorded.mode = session.mode := ⟨rfl, rfl⟩
  simp only [contacts, call, submitCheck, askBackend, asked]
  rcases ready : session.ensureIdle with err | ⟨⟩
  · exact .inl ⟨err, .inl rfl, rfl, session.record_recorded⟩
  have idle := ensureIdle_ok.mp ready
  rcases mode : session.mode with _ | _
  · simp only [recorded]
    rcases present : session.backend with _ | before
    · exact .inl ⟨.destroyedSessionUse, .inr rfl, rfl, rfl⟩
    right
    simp only [Option.map_some, Backend.check, RecordedBackend.record]
    rcases answered : Backend.check before with ⟨err | outcome, after⟩
    · exact .inl ⟨err, before, after, idle, trivial, rfl, answered, rfl, rfl⟩
    · refine .inr ⟨_, _, _, idle, .native mode present answered, rfl, ?_⟩
      exact record_submit (some outcome)
        { session.recorded with backend := some ⟨after, [.check (.ok outcome)]⟩ }
  · right; right
    refine ⟨_, _, _, idle, .external mode, rfl, ?_⟩
    have submitted := record_submit none session.recorded
    rw [record_recorded] at submitted
    exact submitted

/-- A model is asked for when it is fresh, of the side that answers checks. -/
theorem model_contacts (session : Session β ε) :
    (∃ err, (session.ensureIdle = .error err ∨ session.hasFreshSat = false ∧ err = .noModel ∨
        session.mode = .native ∧ session.backend = none) ∧
      session.model = (.error err, session) ∧ session.contacts .model = {}) ∨
    (∃ backend, session.state = .idle ∧ session.hasFreshSat = true ∧ session.mode = .native ∧
      session.backend = some backend ∧
      session.model = ((Backend.model backend).1.map
          (ResultModel.ofModel .checked session.generation session.visibleSorts),
        { session with backend := some (Backend.model backend).2 }) ∧
      session.contacts .model = ⟨[.model (Backend.model backend).1], []⟩) ∨
    session.state = .idle ∧ session.hasFreshSat = true ∧ session.mode = .external ∧
      session.model = (session.fetchExternalModel.1.map
        (ResultModel.ofModel .checked session.generation session.visibleSorts),
        session.fetchExternalModel.2) ∧
      session.contacts .model = ⟨[], [Emitter.delivery .getModel session.context.emitter]⟩ := by
  have asked : session.recorded.ensureIdle = session.ensureIdle ∧
    session.recorded.hasFreshSat = session.hasFreshSat ∧
    session.recorded.mode = session.mode := ⟨rfl, rfl, rfl⟩
  simp only [contacts, call, model, fetchModel, asked]
  rcases ready : session.ensureIdle with err | ⟨⟩
  · exact .inl ⟨err, .inl rfl, rfl, session.record_recorded⟩
  have idle := ensureIdle_ok.mp ready
  rcases fresh : session.hasFreshSat with _ | _
  · exact .inl ⟨.noModel, .inr (.inl ⟨rfl, rfl⟩), rfl, session.record_recorded⟩
  rcases mode : session.mode with _ | _
  · simp only [recorded]
    rcases present : session.backend with _ | backend
    · exact .inl ⟨.destroyedSessionUse, .inr (.inr ⟨trivial, rfl⟩), rfl, rfl⟩
    · exact .inr (.inl ⟨backend, idle, trivial, trivial, rfl, rfl, rfl⟩)
  · refine .inr (.inr ⟨idle, rfl, rfl, rfl, ?_⟩)
    have asked := record_fetchExternalModel session.recorded
    rw [record_recorded] at asked
    exact asked

end Session

end SmtSession

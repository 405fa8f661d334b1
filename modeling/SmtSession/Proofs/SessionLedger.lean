import SmtSession.Proofs.Calls
import SmtSession.Proofs.ExchangeLedger

/-! In the external mode every history accords with the ledger that is kept along it: the ticket of
a query is its place among the queries, and a wait that ends with a reply ends with the reply of its
own ticket. The invariant is that the exchange follows the ledger, and that a pending check is the
last query sent. -/
namespace SmtSession

/-- What the ledger so far demands of an event. -/
def Event.Accords (ledger : Ledger) : Event → Prop
  | .told command => command.isQuery = false
  | .asked ticket query => query.isQuery = true ∧ ticket = ledger.queries.length
  | .ended ticket query result =>
    (∀ earlier ∈ ledger.waited, earlier < ticket) ∧ ledger.queries[ticket]? = some query ∧
      ∀ reply, result = .reply reply → ledger.replies[ticket]?.map Saying.reply = some reply
  | .heard _ => True

namespace Ledger

/-- Each event accords with the ledger of the events before it. -/
def Accords (ledger : Ledger) : List Event → Prop
  | [] => True
  | event :: rest => event.Accords ledger ∧ (ledger.enter event).Accords rest

theorem accords_append {ledger : Ledger} {first second : List Event} :
    ledger.Accords (first ++ second) ↔
      ledger.Accords first ∧ (ledger.enterAll first).Accords second := by
  induction first generalizing ledger with
  | nil => simp [Accords]
  | cons event rest ih => simp [Accords, ih, and_assoc]

theorem accords_heard {ledger : Ledger} (signals : List Signal) :
    ledger.Accords (signals.map .heard) := by
  induction signals generalizing ledger with
  | nil => trivial
  | cons signal rest ih => exact ⟨trivial, ih⟩

theorem queries_heard (ledger : Ledger) (signals : List Signal) :
    (ledger.enterAll (signals.map .heard)).queries = ledger.queries := by
  have silent : Event.queries (signals.map .heard) = [] := by
    simp [Event.queries, Event.query?]
  rw [queries_enterAll, silent, List.append_nil]

theorem waited_heard (ledger : Ledger) (signals : List Signal) :
    (ledger.enterAll (signals.map .heard)).waited = ledger.waited := by
  have silent : (signals.map Event.heard).filterMap Event.waited? = [] := by
    simp [Event.waited?]
  rw [waited_enterAll, silent, List.append_nil]

theorem Accords.event {events before after : List Event} {event : Event}
    (accords : Accords {} events) (split : events = before ++ event :: after) :
    event.Accords (ofEvents before) := by
  rw [split, accords_append] at accords
  exact accords.2.1

end Ledger

/-- The wait for a query that has been asked accords with the ledger, and leaves the exchange in
step with it. -/
theorem Exchange.Follows.await {ledger : Ledger} {x after : Exchange} {ticket : Nat}
    {query : Command} {timeout heartbeat : Duration} {result : WaitResult}
    (follows : x.Follows ledger ticket) (asked : ledger.queries[ticket]? = some query)
    (waited : x.wait ticket timeout heartbeat = (result, after)) :
    let events := (x.heardSince after).map .heard ++ [.ended ticket query result]
    ledger.Accords events ∧ (ledger.enterAll events).queries = ledger.queries ∧
      after.Follows (ledger.enterAll events) ledger.queries.length := by
  obtain ⟨settled, own⟩ := follows.wait waited
  have queries := ledger.queries_heard (x.heardSince after)
  have inside : ticket + 1 ≤ ledger.queries.length := (List.getElem?_eq_some_iff.mp asked).1
  refine ⟨?_, ?_, ?_⟩
  · refine Ledger.accords_append.mpr ⟨Ledger.accords_heard _, ⟨?_, queries ▸ asked, own⟩, trivial⟩
    rw [Ledger.waited_heard]
    exact follows.waited
  · rw [Ledger.enterAll_append]
    exact queries
  · rw [Ledger.enterAll_append]
    exact (settled.ended (Nat.le_refl _) query result).mono inside

namespace Session

variable {β ε : Type} {session : Session β ε} {ledger : Ledger}

/-- The lowest ticket whose reply is still of interest. -/
def floor (ledger : Ledger) (session : Session β ε) : Nat :=
  match session.pending with
  | some check => check.ticket
  | none => ledger.queries.length

structure Follows (ledger : Ledger) (session : Session β ε) : Prop where
  external : session.config.mode = .external
  exchange : session.context.exchange.Follows ledger (session.floor ledger)
  idle : session.state = .idle → session.pending = none
  pending : ∀ check, session.pending = some check →
    check.native = none ∧ ledger.queries[check.ticket]? = some .checkSat

/-- A session that will not ask or wait any more. -/
def IsOver (session : Session β ε) : Prop :=
  (session.state = .faulted ∨ session.state = .destroyed) ∧ session.pending = none

/-- The session is in step with the ledger as long as that matters. -/
def Tracks (ledger : Ledger) (session : Session β ε) : Prop :=
  session.IsOver ∨ session.Follows ledger

/-- Events that accord with a ledger and leave the session in step with it. -/
structure Leads (ledger : Ledger) (events : List Event) (after : Session β ε) : Prop where
  accords : ledger.Accords events
  tracks : after.Tracks (ledger.enterAll events)

theorem Leads.append {first second : List Event} {middle after : Session β ε}
    (one : Leads ledger first middle)
    (two : middle.Tracks (ledger.enterAll first) → Leads (ledger.enterAll first) second after) :
    Leads ledger (first ++ second) after := by
  obtain ⟨accords, tracks⟩ := two one.tracks
  exact ⟨Ledger.accords_append.mpr ⟨one.accords, accords⟩, Ledger.enterAll_append .. ▸ tracks⟩

theorem Leads.none (tracks : session.Tracks ledger) : Leads ledger [] session :=
  ⟨trivial, tracks⟩

theorem Follows.congr {after : Session β ε} (follows : session.Follows ledger)
    (config : after.config = session.config) (state : after.state = session.state)
    (pending : after.pending = session.pending)
    (exchange : after.context.exchange = session.context.exchange) : after.Follows ledger := by
  refine ⟨config ▸ follows.external, ?_, ?_, ?_⟩
  · rw [exchange, floor, pending]
    exact follows.exchange
  · rw [state, pending]
    exact follows.idle
  · rw [pending]
    exact follows.pending

theorem Tracks.congr {after : Session β ε} (tracks : session.Tracks ledger)
    (config : after.config = session.config) (state : after.state = session.state)
    (pending : after.pending = session.pending)
    (exchange : after.context.exchange = session.context.exchange) : after.Tracks ledger := by
  rcases tracks with finished | follows
  · left
    rw [IsOver, state, pending]
    exact finished
  · exact .inr (follows.congr config state pending exchange)

theorem Tracks.of_idle (tracks : session.Tracks ledger) (idle : session.state = .idle) :
    session.Follows ledger ∧ session.pending = none := by
  rcases tracks with ⟨finished, _⟩ | follows
  · rw [idle] at finished
    rcases finished with wrong | wrong <;> cases wrong
  · exact ⟨follows, follows.idle idle⟩

theorem Tracks.of_pending {check : PendingCheck} (tracks : session.Tracks ledger)
    (pending : session.pending = some check) : session.Follows ledger := by
  rcases tracks with ⟨_, none⟩ | follows
  · rw [pending] at none
    cases none
  · exact follows

theorem Follows.hear {after : Session β ε} (follows : session.Follows ledger)
    (signals : List Signal) (config : after.config = session.config)
    (state : after.state = session.state) (pending : after.pending = session.pending)
    (exchange : after.context.exchange = session.context.exchange.receiveAll signals) :
    after.Follows (ledger.enterAll (signals.map .heard)) := by
  have heard := follows.exchange.receiveAll signals
  have same : after.floor (ledger.enterAll (signals.map .heard)) = session.floor ledger := by
    rw [floor, floor, pending, Ledger.queries_heard]
  refine ⟨config ▸ follows.external, exchange ▸ same ▸ heard, ?_, ?_⟩
  · rw [state, pending]
    exact follows.idle
  · rw [pending, Ledger.queries_heard]
    exact follows.pending

theorem Tracks.hear {after : Session β ε} (tracks : session.Tracks ledger)
    (signals : List Signal) (config : after.config = session.config)
    (state : after.state = session.state) (pending : after.pending = session.pending)
    (exchange : after.context.exchange = session.context.exchange.receiveAll signals) :
    Leads ledger (signals.map .heard) after := by
  refine ⟨Ledger.accords_heard signals, ?_⟩
  rcases tracks with finished | follows
  · left
    rw [IsOver, state, pending]
    exact finished
  · exact .inr (follows.hear signals config state pending exchange)

theorem Leads.finished (finished : session.IsOver) : Leads ledger [] session :=
  .none (.inl finished)

theorem Leads.cons {event : Event} {rest : List Event} {after : Session β ε}
    (accords : event.Accords ledger) (leads : Leads (ledger.enter event) rest after) :
    Leads ledger (event :: rest) after :=
  ⟨⟨accords, leads.accords⟩, leads.tracks⟩

/-- A command that cannot be delivered is the last one of the session. -/
theorem Follows.emit [Emitter ε] (follows : session.Follows ledger) (free : session.pending = none)
    {command : Command} (tells : command.isQuery = false) :
    Leads ledger (session.context.sendEvents (.told command) command) (session.emit command).2 := by
  rcases emit_cases (.told command) command session with
    ⟨signals, emitter, sent, events⟩ | ⟨fault, context, sent, events⟩
  · rw [sent, events]
    exact .cons tells (Tracks.hear (.inr follows) signals rfl rfl rfl rfl)
  · rw [sent, events]
    exact .finished ⟨.inl rfl, free⟩

theorem Tracks.apply [Backend β] [Emitter ε] (tracks : session.Tracks ledger)
    (operation : Operation) :
    Leads ledger (session.applyEvents operation) (session.apply operation).2 := by
  rcases apply_cases operation session with
    ⟨err, backend, applied, events, _⟩ |
    ⟨declared, before, backend, permitted, _, _, applied, events⟩
  · rw [applied, events]
    exact .none (tracks.congr rfl rfl rfl rfl)
  · obtain ⟨follows, free⟩ := tracks.of_idle (permit_ok permitted).1
    rw [applied, events]
    generalize booked : book operation declared { session with backend := some backend } = after
    have config : after.config = session.config := by cases operation <;> exact booked ▸ rfl
    have state : after.state = session.state := by cases operation <;> exact booked ▸ rfl
    have pending : after.pending = session.pending := by cases operation <;> exact booked ▸ rfl
    have context : after.context = session.context := booked ▸ book_context operation declared _
    rw [← context]
    exact (follows.congr config state pending (congrArg _ context)).emit (pending.trans free)
      operation.command_tells

/-- A query is asked under the place that it takes among the queries. -/
theorem Follows.ask (follows : session.Follows ledger) (free : session.pending = none)
    (query : Command) (asks : query.isQuery = true) (signals : List Signal) :
    let ticket := session.context.exchange.issued
    let asked := ledger.enterAll (.asked ticket query :: signals.map .heard)
    ledger.Accords (.asked ticket query :: signals.map .heard) ∧
      asked.queries[ticket]? = some query ∧
      (session.context.exchange.issueTicket.receiveAll signals).Follows asked ticket := by
  have place := follows.exchange.issued
  refine ⟨⟨⟨asks, place⟩, Ledger.accords_heard signals⟩, ?_, ?_⟩
  · rw [Ledger.enterAll_cons, Ledger.queries_heard, place]
    exact List.getElem?_concat_length
  · have before := follows.exchange
    rw [floor, free, ← place] at before
    exact (before.issueTicket _ query).receiveAll signals

theorem askBackend_external [Backend β] (external : session.config.mode = .external) :
    session.askBackend = (.ok none, session) := by
  simp only [askBackend, mode, external]

theorem Tracks.submitCheck [Backend β] [Emitter ε] (tracks : session.Tracks ledger) :
    Leads ledger session.submitEvents session.submitCheck.2 := by
  rcases submitCheck_cases session with
    ⟨err, backend, submitted, events, _⟩ | ⟨native, backend, idle, answered, submitted⟩
  · rw [submitted, events]
    exact .none (tracks.congr rfl rfl rfl rfl)
  · obtain ⟨follows, free⟩ := tracks.of_idle idle
    rw [askBackend_external follows.external] at answered
    obtain rfl : none = native := Except.ok.inj (congrArg Prod.fst answered)
    rcases submitted with
      ⟨signals, emitter, submitted, events⟩ | ⟨fault, context, submitted, events⟩
    · obtain ⟨accords, asked, exchange⟩ := follows.ask free .checkSat rfl signals
      rw [submitted, events]
      refine ⟨accords, .inr ⟨follows.external, exchange, nofun, ?_⟩⟩
      intro check pending
      obtain rfl := Option.some.inj pending
      exact ⟨rfl, asked⟩
    · rw [submitted, events]
      exact .finished ⟨.inl rfl, free⟩

private theorem Tracks.rest {after : Session β ε} (external : after.config.mode = .external)
    (free : after.pending = none)
    (exchange : after.context.exchange.Follows ledger ledger.queries.length) :
    after.Tracks ledger := by
  refine .inr ⟨external, ?_, fun _ => free, ?_⟩
  · rw [floor, free]
    exact exchange
  · rw [free]
    nofun

theorem Tracks.awaitOutcome (tracks : session.Tracks ledger) :
    Leads ledger session.awaitEvents session.awaitOutcome.2 := by
  rcases awaitOutcome_cases session with
    ⟨err, _, awaited, events⟩ | ⟨ticket, outcome, pending, _, _⟩ |
    ⟨ticket, result, after, notices, lastCheck, pending, waited, awaited, events⟩
  · rw [awaited, events]
    exact .none tracks
  · have follows := tracks.of_pending pending
    cases (follows.pending _ pending).1
  · have follows := tracks.of_pending pending
    have exchange := follows.exchange
    rw [floor, pending] at exchange
    obtain ⟨accords, queries, settled⟩ :=
      exchange.await (follows.pending _ pending).2 (Context.wait_exchange waited)
    rw [awaited, events]
    refine ⟨accords, .rest follows.external rfl ?_⟩
    rw [queries]
    exact settled.transfer rfl rfl rfl rfl

theorem Tracks.check [Backend β] [Emitter ε] (tracks : session.Tracks ledger) :
    Leads ledger session.checkEvents session.check.2 := by
  refine tracks.submitCheck.append ?_
  intro submitted
  rcases called : session.submitCheck with ⟨err | ⟨⟩, after⟩ <;> rw [called] at submitted
  · simp only [Session.check, called]
    exact .none submitted
  · simp only [Session.check, called]
    exact submitted.awaitOutcome

theorem Tracks.model [Backend β] [Emitter ε] (tracks : session.Tracks ledger) :
    Leads ledger session.modelEvents session.model.2 := by
  rcases session.model_cases with
    ⟨err, _, kept, given⟩ | ⟨result, backend, _, _, kept, given, _⟩ | ⟨retrieves, given⟩
  · simp only [modelEvents, kept, given]
    exact .none tracks
  · simp only [modelEvents, kept, given]
    exact .none (tracks.congr rfl rfl rfl rfl)
  · obtain ⟨follows, free⟩ := tracks.of_idle (retrieves_idle retrieves)
    simp only [modelEvents, retrieves, given, ↓reduceIte]
    rcases session.fetchExternalModel_cases with
      ⟨signals, emitter, asking, result, after, rfl, waited, fetched, events⟩ |
      ⟨fault, context, fetched, events⟩
    · obtain ⟨accords, asked, exchange⟩ := follows.ask free .getModel rfl signals
      obtain ⟨later, queries, settled⟩ := exchange.await asked (Context.wait_exchange waited)
      rw [fetched, events]
      refine ⟨Ledger.accords_append.mpr ⟨accords, later⟩, .rest follows.external free ?_⟩
      rw [Ledger.enterAll_append, queries]
      exact settled
    · rw [fetched, events]
      exact .finished ⟨.inl rfl, free⟩

theorem Tracks.getModel [Backend β] [Emitter ε] (tracks : session.Tracks ledger) :
    Leads ledger session.getModelEvents session.getModel.2 := by
  refine tracks.check.append ?_
  intro checked
  rcases called : session.check with ⟨err | outcome, after⟩ <;> rw [called] at checked
  · simp only [Session.getModel, called]
    exact .none checked
  · cases sat : outcome.isSat
    · simp only [Session.getModel, called, sat]
      exact .none checked
    · simp only [Session.getModel, called, sat, ↓reduceIte]
      exact checked.model

/-- The last command of a session makes the responder say things that nobody waits for. -/
theorem Tracks.destroy [Emitter ε] (tracks : session.Tracks ledger) :
    Leads ledger session.destroyEvents session.destroy.2 := by
  rcases session.destroy_cases with ⟨_, called, events⟩ | ⟨_, context, called, _, events⟩
  · rw [called, events]
    exact .none tracks
  · rw [called, events]
    refine ⟨?_, .inl ⟨.inr rfl, rfl⟩⟩
    rcases session.context.send_cases (.told .exit) .exit with
      ⟨signals, _, _, events⟩ | ⟨_, _, _, events⟩
    · rw [events]
      exact ⟨rfl, Ledger.accords_heard signals⟩
    · rw [events]
      trivial

/-- What is planned to arrive does not matter before it arrives. -/
theorem Tracks.plan (tracks : session.Tracks ledger) (coming : List Arrival) :
    ({ session with context := { session.context with
      exchange := { session.context.exchange with coming } } } : Session β ε).Tracks ledger := by
  rcases tracks with finished | follows
  · exact .inl finished
  · exact .inr ⟨follows.external, follows.exchange.transfer rfl rfl rfl rfl, follows.idle,
      follows.pending⟩

theorem started_tracks [Backend β] {config : SessionConfig} {backend : β} {context : Context ε}
    (started : startOn config backend context = .ok session) (external : config.mode = .external)
    (unused : context.exchange = {}) : session.Tracks {} := by
  obtain ⟨options, configured, notices, _, rfl⟩ := startOn_ok started
  refine .rest external rfl ?_
  rw [unused]
  exact ⟨rfl, rfl, rfl, nofun, 0, Nat.le_refl 0, Nat.le_refl 0, rfl⟩

variable [Backend β] [Emitter ε]

theorem Tracks.call (tracks : session.Tracks ledger) (call : Call) :
    Leads ledger (session.callEvents call) (session.call call).2 := by
  cases call with
  | apply operation => exact tracks.apply operation
  | submitCheck => exact tracks.submitCheck
  | awaitOutcome => exact tracks.awaitOutcome
  | check => exact tracks.check
  | model => exact tracks.model
  | getModel => exact tracks.getModel
  | destroy => exact tracks.destroy

theorem Tracks.step (tracks : session.Tracks ledger) (step : Step) :
    Leads ledger (session.stepEvents step) (session.step step).2 := by
  cases step with
  | call call => exact tracks.call call
  | signal signal => exact tracks.hear [signal] rfl rfl rfl rfl
  | expect arrivals => exact .none (tracks.plan _)
  | settle =>
    have heard : Leads ledger _ session.settle := (tracks.plan []).hear
      (session.context.exchange.coming.map Arrival.signal) rfl rfl rfl rfl
    rwa [List.map_map] at heard

theorem Tracks.run (tracks : session.Tracks ledger) (steps : List Step) :
    Leads ledger (session.history steps) (session.run steps).2 := by
  induction steps generalizing session ledger with
  | nil => exact .none tracks
  | cons step rest ih => exact (tracks.step step).append ih

theorem history_accords {config : SessionConfig} {backend : β} {context : Context ε}
    (started : startOn config backend context = .ok session) (external : config.mode = .external)
    (unused : context.exchange = {}) (steps : List Step) :
    Ledger.Accords {} (session.history steps) :=
  ((started_tracks started external unused).run steps).accords

end Session

end SmtSession

import SmtSession.Session.Run

/-! Histories: the commands that a session has sent, the signals that it has heard and the waits
that it has ended, in the order in which they happened. A history is read off the calls of a run. -/
namespace SmtSession

/-- To look at every moment of a list it is enough to look at those up to its end. -/
theorem forall_take_iff {α : Type} (holds : List α → Prop) (items : List α) :
    (∀ moment, holds (items.take moment)) ↔
      ∀ moment < items.length + 1, holds (items.take moment) := by
  constructor
  · intro always moment _
    exact always moment
  · intro bounded moment
    by_cases inside : moment < items.length + 1
    · exact bounded moment inside
    · have whole := bounded items.length (Nat.lt_succ_self _)
      rw [List.take_length] at whole
      rwa [List.take_of_length_le (by omega)]

def Step.call? : Step → Option Call
  | .call made => some made
  | _ => none

def Step.calls (steps : List Step) : List Call := steps.filterMap call?

inductive Event where
  /-- A command that takes no ticket has been sent. -/
  | told (command : Command)
  /-- A query has been sent under a ticket. -/
  | asked (ticket : Nat) (query : Command)
  /-- A signal has arrived. -/
  | heard (signal : Signal)
  /-- The wait for the reply to a query is over. -/
  | ended (ticket : Nat) (query : Command) (result : WaitResult)
  deriving DecidableEq, Inhabited

namespace Event

def command? : Event → Option Command
  | .told command => some command
  | .asked _ query => some query
  | _ => none

def query? : Event → Option Command
  | .asked _ query => some query
  | _ => none

def ticket? : Event → Option Nat
  | .asked ticket _ => some ticket
  | _ => none

def waited? : Event → Option Nat
  | .ended ticket _ _ => some ticket
  | _ => none

def commands (events : List Event) : List Command := events.filterMap command?

def queries (events : List Event) : List Command := events.filterMap query?

theorem commands_append (first second : List Event) :
    commands (first ++ second) = commands first ++ commands second := List.filterMap_append ..

theorem commands_heard (signals : List Signal) : commands (signals.map .heard) = [] := by
  simp [commands, command?]

theorem queries_cons (event : Event) (events : List Event) :
    queries (event :: events) = event.query?.toList ++ queries events := by
  rw [queries, List.filterMap_cons, queries]
  cases event.query? <;> rfl

end Event

/-- The signals that arrived in a wait: those that were planned before and are not any more. -/
def Exchange.heardSince (before after : Exchange) : List Signal :=
  (before.coming.take (before.coming.length - after.coming.length)).map Arrival.signal

namespace Context

variable {ε : Type}

/-- What happens when a command is sent: the event of sending it, then what is heard at once. -/
def sendEvents [Emitter ε] (event : Event) (command : Command) (context : Context ε) :
    List Event :=
  match Emitter.send command context.emitter with
  | (.ok signals, _) => event :: signals.map .heard
  | (.error _, _) => []

def waitEvents (ticket : Nat) (query : Command) (timeout heartbeat : Duration)
    (context : Context ε) : List Event :=
  let (result, after) := context.wait ticket timeout heartbeat
  (context.exchange.heardSince after.exchange).map .heard ++ [.ended ticket query result]

end Context

namespace Session

variable {β ε : Type}

/-- A change is sent once it is permitted and the backend has made it. -/
def applyEvents [Backend β] [Emitter ε] (operation : Operation) (session : Session β ε) :
    List Event :=
  match session.permit operation with
  | .error _ => []
  | .ok _ =>
    match session.backend with
    | none => []
    | some backend =>
      match Backend.perform operation backend with
      | (.error _, _) => []
      | (.ok (), _) => session.context.sendEvents (.told operation.command) operation.command

def queryEvents [Emitter ε] (query : Command) (session : Session β ε) : List Event :=
  session.context.sendEvents (.asked session.context.exchange.issued query) query

def submitEvents [Backend β] [Emitter ε] (session : Session β ε) : List Event :=
  match session.ensureIdle with
  | .error _ => []
  | .ok () =>
    match session.askBackend with
    | (.error _, _) => []
    | (.ok _, checked) => checked.queryEvents .checkSat

/-- The outcome of a check is waited for unless the backend has given it. -/
def awaitEvents (session : Session β ε) : List Event :=
  if session.state = .destroyed then []
  else
    match session.pending with
    | some ⟨ticket, none⟩ =>
      session.context.waitEvents ticket .checkSat session.config.checkTimeout
        session.config.heartbeat
    | _ => []

def checkEvents [Backend β] [Emitter ε] (session : Session β ε) : List Event :=
  session.submitEvents ++
    match session.submitCheck with
    | (.error _, _) => []
    | (.ok (), submitted) => submitted.awaitEvents

def retrievalEvents [Emitter ε] (session : Session β ε) : List Event :=
  session.queryEvents .getModel ++
    match session.sendQuery .getModel with
    | (.error _, _) => []
    | (.ok ticket, asked) =>
      asked.context.waitEvents ticket .getModel asked.config.checkTimeout asked.config.heartbeat

/-- Whether a request for a model is passed on to the external solver. -/
def retrieves (session : Session β ε) : Bool :=
  session.state == .idle && session.hasFreshSat && session.mode == .external

def modelEvents [Emitter ε] (session : Session β ε) : List Event :=
  if session.retrieves then session.retrievalEvents else []

def getModelEvents [Backend β] [Emitter ε] (session : Session β ε) : List Event :=
  session.checkEvents ++
    match session.check with
    | (.error _, _) => []
    | (.ok outcome, checked) => if outcome.isSat then checked.modelEvents else []

def destroyEvents [Emitter ε] (session : Session β ε) : List Event :=
  if session.state = .destroyed then [] else session.context.sendEvents (.told .exit) .exit

variable [Backend β] [Emitter ε]

def callEvents (session : Session β ε) : Call → List Event
  | .apply operation => session.applyEvents operation
  | .submitCheck => session.submitEvents
  | .awaitOutcome => session.awaitEvents
  | .check => session.checkEvents
  | .model => session.modelEvents
  | .getModel => session.getModelEvents
  | .destroy => session.destroyEvents

def stepEvents (session : Session β ε) : Step → List Event
  | .call call => session.callEvents call
  | .signal signal => [.heard signal]
  | .expect _ => []
  | .settle => session.context.exchange.coming.map fun arrival => .heard arrival.signal

def history (session : Session β ε) : List Step → List Event
  | [] => []
  | step :: rest => session.stepEvents step ++ (session.step step).2.history rest

theorem history_append (session : Session β ε) (first second : List Step) :
    session.history (first ++ second) =
      session.history first ++ (session.run first).2.history second := by
  induction first generalizing session with
  | nil => rfl
  | cons step rest ih => simp [history, run, ih]

theorem run_append (session : Session β ε) (first second : List Step) :
    session.run (first ++ second) =
      ((session.run first).1 ++ ((session.run first).2.run second).1,
        ((session.run first).2.run second).2) := by
  induction first generalizing session with
  | nil => rfl
  | cons step rest ih => simp [run, ih]

/-- Settings under which a wait takes no time. -/
def quick : SessionConfig := { checkTimeoutMillis := 0 }

/-- A session that waits for nothing, before its first call. -/
def impatient : Session Shadow Transcript where
  config := quick
  options := []
  backend := some {}
  context :=
    { emitter := {}, exchange := { notices := [createdNotice quick []] }, origin := .channel }

end Session

end SmtSession

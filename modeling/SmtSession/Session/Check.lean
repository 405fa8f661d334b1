import SmtSession.Session.Basic

/-! Checks. In the native mode the backend answers when a check is submitted, before anything is
sent; in the external mode the answer is waited for when the outcome is collected. -/
namespace SmtSession.Session

variable {β ε : Type}

/-- The answer of the backend, where it is the one that counts. -/
def askBackend [Backend β] (session : Session β ε) :
    Except SolverError (Option Outcome) × Session β ε :=
  match session.mode with
  | .external => (.ok none, session)
  | .native =>
    match session.backend with
    | none => (.error .destroyedSessionUse, session)
    | some backend =>
      let (answer, backend) := Backend.check backend
      (answer.map some, { session with backend := some backend })

def sendQuery [Emitter ε] (query : Command) (session : Session β ε) :
    Except SolverError Nat × Session β ε :=
  let ticket := session.context.exchange.issued
  let (result, session) :=
    { session with context := session.context.issueTicket }.emit query
  (result.map fun () => ticket, session)

/-- Submit a check, whose outcome is to be collected afterwards. -/
def submitCheck [Backend β] [Emitter ε] (session : Session β ε) :
    Except SolverError Unit × Session β ε :=
  match session.ensureIdle with
  | .error err => (.error err, session)
  | .ok () =>
    match session.askBackend with
    | (.error err, session) => (.error err, session)
    | (.ok native, session) =>
      match session.sendQuery .checkSat with
      | (.error err, session) => (.error err, session)
      | (.ok ticket, session) =>
        (.ok (),
          { session with pending := some ⟨ticket, native⟩, state := .awaitingCheckResult })

def ticketNotice (level : NoticeLevel) (message : String) (ticket : Nat) : Notice :=
  { level, message, fields := [("ticket", toString ticket)] }

/-- The outcome that the end of a wait stands for. Only a model is no answer to a check. -/
def outcomeOf : WaitResult → Except SolverError Outcome
  | .reply (.outcome outcome) => .ok outcome
  | .reply (.model _) => .error (.parse "expected a check-sat reply, got a model")
  | .reply (.error message) => .ok (.unknown message)
  | .timedOut => .ok .timeout
  | .cancelled => .ok .cancelled
  | .disconnected => .ok .disconnected

/-- What observers are told about the end of a wait for a check. -/
def checkNotice? (ticket : Nat) (timeout : Duration) : WaitResult → Option Notice
  | .reply (.outcome _) | .reply (.model _) => none
  | .reply (.error message) =>
    some (ticketNotice .warning ("Check rejected by the solver: " ++ message) ticket)
  | .timedOut =>
    some (ticketNotice .warning (SolverError.unresponsiveBackend timeout).message ticket)
  | .cancelled => some (ticketNotice .info "Check cancelled" ticket)
  | .disconnected => some (ticketNotice .warning "External solver disconnected" ticket)

/-- Wait for the answer of the external solver to the check of a ticket. -/
def waitForOutcome (ticket : Nat) (session : Session β ε) :
    Except SolverError Outcome × Session β ε :=
  let timeout := session.config.checkTimeout
  let (result, context) := session.context.wait ticket timeout session.config.heartbeat
  let session := { session with context }
  (outcomeOf result,
    match checkNotice? ticket timeout result with
    | some notice => session.note notice
    | none => session)

/-- The outcome of a check that is no longer pending. -/
def outcomeOfPending (check : PendingCheck) (session : Session β ε) :
    Except SolverError Outcome × Session β ε :=
  match check.native with
  | some outcome => (.ok outcome, session)
  | none => session.waitForOutcome check.ticket

/-- Collect the outcome of the submitted check. -/
def awaitOutcome (session : Session β ε) : Except SolverError Outcome × Session β ε :=
  if session.state = .destroyed then (.error .destroyedSessionUse, session)
  else
    match session.pending with
    | none => (.error .noPendingCheck, session)
    | some check =>
      match outcomeOfPending check { session with pending := none, state := .idle } with
      | (.error err, session) => (.error err, session)
      | (.ok outcome, session) =>
        (.ok outcome, { session with lastCheck := some (session.generation, outcome) })

def check [Backend β] [Emitter ε] (session : Session β ε) :
    Except SolverError Outcome × Session β ε :=
  match session.submitCheck with
  | (.error err, session) => (.error err, session)
  | (.ok (), session) => session.awaitOutcome

end SmtSession.Session

import SmtSession.Session.Check

namespace SmtSession.Session

variable {β ε : Type}

/-- Whether the last completed check was satisfied, with no change since. -/
def hasFreshSat (session : Session β ε) : Bool :=
  session.lastCheck == some (session.generation, .sat)

/-- The model that the end of a wait stands for. -/
def modelOf (timeout : Duration) : WaitResult → Except SolverError Model
  | .reply (.model model) => .ok model
  | .reply (.outcome outcome) => .error (.parse ("expected a model, got " ++ outcome.text))
  | .reply (.error message) =>
    .error (.process ("(get-model) rejected by the solver: " ++ message))
  | .timedOut => .error (.unresponsiveBackend timeout)
  | .cancelled => .error (.process "model retrieval cancelled")
  | .disconnected => .error (.process "external solver disconnected")

def fetchExternalModel [Emitter ε] (session : Session β ε) :
    Except SolverError Model × Session β ε :=
  match session.sendQuery .getModel with
  | (.error err, session) => (.error err, session)
  | (.ok ticket, session) =>
    let timeout := session.config.checkTimeout
    let (result, context) := session.context.wait ticket timeout session.config.heartbeat
    (modelOf timeout result, { session with context })

/-- Ask the side that answers checks for a model. -/
def fetchModel [Backend β] [Emitter ε] (session : Session β ε) :
    Except SolverError Model × Session β ε :=
  match session.mode with
  | .external => session.fetchExternalModel
  | .native =>
    match session.backend with
    | none => (.error .destroyedSessionUse, session)
    | some backend =>
      let (result, backend) := Backend.model backend
      (result, { session with backend := some backend })

/-- The model of the last check, bound to the generation of the session. A text may stop the reading
of its values. -/
def model [Backend β] [Emitter ε] (session : Session β ε) :
    Except SolverError (Checked ResultModel) × Session β ε :=
  match session.ensureIdle with
  | .error err => (.error err, session)
  | .ok () =>
    if session.hasFreshSat then
      let (result, after) := session.fetchModel
      (result.map (ResultModel.ofModel .checked session.generation session.visibleSorts), after)
    else (.error .noModel, session)

/-- Check, and give the model when the outcome is satisfiable. -/
def getModel [Backend β] [Emitter ε] (session : Session β ε) :
    Except SolverError (Option (Checked ResultModel)) × Session β ε :=
  match session.check with
  | (.error err, session) => (.error err, session)
  | (.ok outcome, session) =>
    if outcome.isSat then
      let (result, session) := session.model
      (result.map some, session)
    else (.ok none, session)

end SmtSession.Session

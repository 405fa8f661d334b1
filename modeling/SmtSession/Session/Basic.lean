import SmtSession.Backend
import SmtSession.Context
import SmtSession.ResultModel

/-! Sessions keep a backend and an external solver in step: each change is made in the backend and
then sent as a command. The mode says which of the two answers checks. -/
namespace SmtSession

/-- A session goes from idle to awaiting when a check is submitted and back when its outcome is
collected. It is faulted once a command could not be delivered, and destroyed in the end. -/
inductive SessionState where
  | idle
  | awaitingCheckResult
  | faulted
  | destroyed
  deriving DecidableEq, Repr, Inhabited

def SessionState.text : SessionState → String
  | .idle => "Idle"
  | .awaitingCheckResult => "AwaitingCheckResult"
  | .faulted => "Faulted"
  | .destroyed => "Destroyed"

/-- A submitted check: its ticket and, in the native mode, the backend's answer. -/
structure PendingCheck where
  ticket : Nat
  native : Option Outcome
  deriving DecidableEq, Repr, Inhabited

structure Session (β ε : Type) where
  config : SessionConfig
  /-- The options that the backend was configured with. -/
  options : List SolverOption
  /-- The backend, until the session is destroyed. -/
  backend : Option β
  context : Context ε
  state : SessionState := .idle
  /-- The number of frames opened and not closed. -/
  depth : Nat := 0
  /-- The constants declared in each open frame, with their sorts. -/
  frames : Frames (String × SmtSort) := {}
  /-- How many changes have been made. -/
  generation : Nat := 0
  pending : Option PendingCheck := none
  /-- The outcome of the last check that was completed, and the generation at that time. -/
  lastCheck : Option (Nat × Outcome) := none
  /-- Why the session is faulted. -/
  fault : Option String := none

/-- A session that was refused at its start. The context still tells what observers were told. -/
structure Refusal (ε : Type) where
  error : SolverError
  context : Context ε

namespace Session

variable {β ε : Type}

def note (notice : Notice) (session : Session β ε) : Session β ε :=
  { session with context := session.context.note notice }

def receive (signal : Signal) (session : Session β ε) : Bool × Session β ε :=
  let (taken, context) := session.context.receive signal
  (taken, { session with context })

/-- Plan what will arrive while queries are waited for. -/
def expect (arrivals : List Arrival) (session : Session β ε) : Session β ε :=
  { session with
    context := { session.context with exchange := session.context.exchange.expect arrivals } }

/-- Let everything arrive that is still to come. -/
def settle (session : Session β ε) : Session β ε :=
  { session with
    context := { session.context with exchange := session.context.exchange.settle } }

def mode (session : Session β ε) : BackendMode := session.config.mode

def isAwaiting (session : Session β ε) : Bool := session.state == .awaitingCheckResult

/-- The sorts in force, those of inner frames last. -/
def visibleSorts (session : Session β ε) : List (String × SmtSort) := session.frames.entries

def describe (session : Session β ε) : String :=
  let mode := match session.mode with
    | .native => "Native"
    | .external => "External"
  "Session \x7b mode: " ++ mode ++ ", state: " ++ session.state.text ++ ", depth: " ++
    toString session.depth ++ ", generation: " ++ toString session.generation ++ ", .. \x7d"

def display [Backend β] (session : Session β ε) : Except SolverError String :=
  match session.backend with
  | some backend => .ok (Backend.display backend)
  | none => .error .destroyedSessionUse

def ensureIdle (session : Session β ε) : Except SolverError Unit :=
  match session.state with
  | .idle => .ok ()
  | .awaitingCheckResult => .error .checkPending
  | .faulted => .error (.desynchronized (session.fault.getD ""))
  | .destroyed => .error .destroyedSessionUse

def createdNotice (config : SessionConfig) (options : List SolverOption) : Notice where
  level := .info
  message := "Session created"
  fields := [("mode", config.mode.text), ("incremental", toString config.incremental),
    ("options", toString options.length)]

/-- Start a session over a backend, which is configured with the options of the settings. -/
def startOn [Backend β] (config : SessionConfig) (backend : β) (context : Context ε) :
    Except (Refusal ε) (Session β ε) :=
  let (resolved, notices) := config.resolveOptions
  let context := notices.foldl (fun context notice => context.note notice) context
  match resolved with
  | .error err => .error ⟨err, context⟩
  | .ok options =>
    match Backend.configure options backend with
    | (.error err, _) => .error ⟨err, context⟩
    | (.ok (), backend) =>
      .ok { config, options, backend := some backend,
            context := context.note (createdNotice config options) }

/-- Start a session over the backend that its mode stands for. -/
def start (config : SessionConfig) (context : Context ε) :
    Except (Refusal ε) (Session Shadow ε) :=
  match Shadow.forMode config.mode with
  | .error err => .error ⟨err, context⟩
  | .ok backend => startOn config backend context

/-- The fault of a command that could not be delivered. -/
def deliveryFault (command : Command) (err : SolverError) : String :=
  "failed to deliver " ++ command.text ++ ": " ++ err.message

/-- Send a command for what the session has done already. When it cannot be delivered, the session
and the solver are no longer in step. -/
def emit [Emitter ε] (command : Command) (session : Session β ε) :
    Except SolverError Unit × Session β ε :=
  match session.context.send command with
  | (.ok (), context) => (.ok (), { session with context })
  | (.error err, context) =>
    let fault := deliveryFault command err
    (.error (.desynchronized fault),
      { session with
        context := context.note { level := .warning, message := fault }
        state := .faulted
        fault := some fault })

end Session

end SmtSession

import SmtSession.Emitter
import SmtSession.Exchange.Wait

namespace SmtSession

/-- Who is at the other end. -/
inductive Origin where
  /-- Nobody: commands are only recorded. -/
  | detached
  /-- A responder within the program. -/
  | channel
  /-- A solver in a process of its own. -/
  | process (kind : SolverKind)
  deriving DecidableEq, Repr, Inhabited

structure Context (ε : Type) where
  emitter : ε
  exchange : Exchange
  origin : Origin
  deriving Inhabited

/-- The context of a session on its own. No reply will ever come. -/
def Context.detached : Context Transcript where
  emitter := {}
  exchange := .unattended
  origin := .detached

namespace Context

variable {ε : Type}

def processKind? (context : Context ε) : Option SolverKind :=
  match context.origin with
  | .process kind => some kind
  | _ => none

def isDetached (context : Context ε) : Bool := context.origin == .detached

def describe (context : Context ε) : String :=
  "SolverContext \x7b detached: " ++ toString context.isDetached ++ ", process: None, .. \x7d"

def note (notice : Notice) (context : Context ε) : Context ε :=
  { context with exchange := context.exchange.note notice }

def issueTicket (context : Context ε) : Context ε :=
  { context with exchange := context.exchange.issueTicket }

/-- Take in a signal from outside, and say whether it was taken. -/
def receive (signal : Signal) (context : Context ε) : Bool × Context ε :=
  let (taken, exchange) := context.exchange.receive signal
  (taken, { context with exchange })

def wait (ticket : Nat) (timeout heartbeat : Duration) (context : Context ε) :
    WaitResult × Context ε :=
  let (result, exchange) := context.exchange.wait ticket timeout heartbeat
  (result, { context with exchange })

/-- Send a command; what it makes the other end say arrives at once. -/
def send [Emitter ε] (command : Command) (context : Context ε) :
    Except SolverError Unit × Context ε :=
  match Emitter.send command context.emitter with
  | (.ok signals, emitter) =>
    (.ok (), { context with emitter, exchange := context.exchange.receiveAll signals })
  | (.error err, emitter) => (.error err, { context with emitter })

end Context

end SmtSession

import SmtSession.Rehearsal.ScriptedBackend
import SmtSession.Rehearsal.StandIn
import SmtSession.Session.Run

namespace SmtSession

/-- Backends that a rehearsal can set. One that does not solve on request ignores what is set. -/
class RehearsedBackend (β : Type) extends Backend β where
  edit : (ScriptedBackend → ScriptedBackend) → β → β
  /-- The calls logged since they were last taken. -/
  takeCalls : β → List String × β

instance : RehearsedBackend Shadow where
  edit _ shadow := shadow
  takeCalls shadow := ([], shadow)

instance : RehearsedBackend ScriptedBackend where
  edit change backend := change backend
  takeCalls := ScriptedBackend.takeCalls

/-- Emitters that a rehearsal can set. One that no responder listens to ignores what is set. -/
class RehearsedEmitter (ε : Type) extends Emitter ε where
  edit : (Responder → Responder) → ε → ε
  /-- The commands delivered, as far as they are kept. -/
  delivered : ε → List Command

instance : RehearsedEmitter Transcript where
  edit _ transcript := transcript
  delivered := Transcript.commands

instance : RehearsedEmitter Responder where
  edit change responder := change responder
  delivered := Responder.delivered

instance : RehearsedEmitter StandIn where
  edit _ program := program
  delivered _ := []

structure Bench (β ε : Type) where
  session : Session β ε
  /-- The models given out, in order. -/
  models : List ResultModel := []
  /-- The calls logged by a backend that the session has given up, until they are taken. -/
  calls : List String := []

namespace Bench

variable {β ε : Type} [RehearsedBackend β] [RehearsedEmitter ε]

def call (call : Call) (bench : Bench β ε) : Except SolverError Answer × Bench β ε :=
  let (answer, session) := bench.session.call call
  let models := match answer with
    | .ok (.model (some (.ok model))) => bench.models ++ [model]
    | _ => bench.models
  let calls := match bench.session.backend, session.backend with
    | some backend, none => (RehearsedBackend.takeCalls backend).1
    | _, _ => bench.calls
  (answer, { session, models, calls })

/-- Make a call while somebody else cancels what it waits for. -/
def callCancelled (call : Call) (bench : Bench β ε) : Except SolverError Answer × Bench β ε :=
  let planned := bench.session.expect [{ delay := 0, signal := .cancel }]
  let (answer, bench) := { bench with session := planned }.call call
  (answer, { bench with session := bench.session.settle })

/-- Whether the rehearsal speaks for the responder: not for a process, which speaks for itself, and
not where there is none. -/
def speaks (bench : Bench β ε) : Bool := bench.session.context.origin == .channel

/-- Take in a signal from outside, and say whether it was taken. A cancellation may come from
anybody, all else only from the responder. -/
def receive (signal : Signal) (bench : Bench β ε) : Bool × Bench β ε :=
  if signal.isCancel ∨ bench.speaks then
    let (taken, session) := bench.session.receive signal
    (taken, { bench with session })
  else (false, bench)

def editBackend (change : ScriptedBackend → ScriptedBackend) (bench : Bench β ε) : Bench β ε :=
  let session := bench.session
  { bench with
    session := { session with backend := session.backend.map (RehearsedBackend.edit change) } }

def editEmitter (change : Responder → Responder) (bench : Bench β ε) : Bench β ε :=
  let context := bench.session.context
  let emitter := RehearsedEmitter.edit change context.emitter
  { bench with session := { bench.session with context := { context with emitter } } }

/-- The calls logged by the backend since they were last taken. -/
def takeCalls (bench : Bench β ε) : List String × Bench β ε :=
  match bench.session.backend with
  | none => (bench.calls, { bench with calls := [] })
  | some backend =>
    let (calls, backend) := RehearsedBackend.takeCalls backend
    (calls, { bench with session := { bench.session with backend := some backend } })

/-- The commands delivered, as far as they are kept. -/
def delivered (bench : Bench β ε) : List Command :=
  RehearsedEmitter.delivered bench.session.context.emitter

def deliveredSince (earlier bench : Bench β ε) : List Command :=
  bench.delivered.drop earlier.delivered.length

/-- The bench after the last use of its session. -/
def drop (bench : Bench β ε) : Bench β ε := { bench with session := bench.session.drop }

end Bench

end SmtSession

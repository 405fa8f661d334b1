import SmtSession.Session.Change
import SmtSession.Session.Model

namespace SmtSession

inductive Call where
  | apply (operation : Operation)
  | submitCheck
  | awaitOutcome
  | check
  | model
  | getModel
  | destroy
  deriving DecidableEq, Inhabited

inductive Answer where
  | done
  | outcome (outcome : Outcome)
  | model (model : Option (Checked ResultModel))
  deriving Inhabited

/-- A call, or something that happens between two calls. -/
inductive Step where
  | call (call : Call)
  | signal (signal : Signal)
  /-- Plan what will arrive while queries are waited for. -/
  | expect (arrivals : List Arrival)
  /-- Let everything arrive that is still to come. -/
  | settle
  deriving DecidableEq, Inhabited

namespace Session

variable {β ε : Type} [Backend β] [Emitter ε]

def call (call : Call) (session : Session β ε) : Except SolverError Answer × Session β ε :=
  match call with
  | .apply operation =>
    let (result, session) := session.apply operation
    (result.map fun () => .done, session)
  | .submitCheck =>
    let (result, session) := session.submitCheck
    (result.map fun () => .done, session)
  | .awaitOutcome =>
    let (result, session) := session.awaitOutcome
    (result.map .outcome, session)
  | .check =>
    let (result, session) := session.check
    (result.map .outcome, session)
  | .model =>
    let (result, session) := session.model
    (result.map fun model => .model (some model), session)
  | .getModel =>
    let (result, session) := session.getModel
    (result.map .model, session)
  | .destroy =>
    let (result, session) := session.destroy
    (result.map fun () => .done, session)

/-- Take a step; only a call has a result. -/
def step (step : Step) (session : Session β ε) :
    Option (Except SolverError Answer) × Session β ε :=
  match step with
  | .call call =>
    let (result, session) := session.call call
    (some result, session)
  | .signal signal => (none, (session.receive signal).2)
  | .expect arrivals => (none, session.expect arrivals)
  | .settle => (none, session.settle)

/-- Take steps, to the results of the calls among them. -/
def run (session : Session β ε) : List Step → List (Except SolverError Answer) × Session β ε
  | [] => ([], session)
  | step :: rest =>
    let (result, session) := session.step step
    let (results, session) := session.run rest
    (result.toList ++ results, session)

end Session

end SmtSession

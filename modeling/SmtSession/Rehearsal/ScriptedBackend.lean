import SmtSession.Backend

/-! The scripted backend rehearses how a session treats its backend: a shadow that keeps a log of
the calls made, and whose failures and answers are set beforehand. -/
namespace SmtSession

structure ScriptedBackend where
  shadow : Shadow := {}
  /-- The calls made, in order. -/
  calls : List String := []
  /-- The failures of the next calls. -/
  failures : List SolverError := []
  /-- The outcomes of the next checks. -/
  outcomes : List Outcome := []
  /-- The models given out next. -/
  models : List Model := []
  /-- The failure of the configuration. -/
  configureError : Option SolverError := none
  deriving Inhabited

namespace ScriptedBackend

def callText : Operation → String
  | .declare name sort => "declare " ++ name ++ " " ++ sort.text
  | .assert term => "assert " ++ term.text
  | .assertText text => "assert_text " ++ text
  | .push => "push"
  | .pop frames => "pop " ++ toString frames
  | .reset => "reset"

/-- Log a call, and take the failure that is set for it. -/
def begin (call : String) (backend : ScriptedBackend) : Option SolverError × ScriptedBackend :=
  (backend.failures.head?,
    { backend with calls := backend.calls ++ [call], failures := backend.failures.tail })

def configure (options : List SolverOption) (backend : ScriptedBackend) :
    Except SolverError Unit × ScriptedBackend :=
  match backend.begin ("configure " ++ toString options.length) with
  | (some err, backend) => (.error err, backend)
  | (none, backend) =>
    match backend.configureError with
    | some err => (.error err, backend)
    | none => (.ok (), { backend with shadow := backend.shadow.configure options })

def perform (operation : Operation) (backend : ScriptedBackend) :
    Except SolverError Unit × ScriptedBackend :=
  match backend.begin (callText operation) with
  | (some err, backend) => (.error err, backend)
  | (none, backend) =>
    let (result, shadow) := backend.shadow.perform operation
    (result, { backend with shadow })

/-- The shadow checks too, but an outcome that is set has precedence. -/
def check (backend : ScriptedBackend) : Except SolverError Outcome × ScriptedBackend :=
  match backend.begin "check" with
  | (some err, backend) => (.error err, backend)
  | (none, backend) =>
    let (outcome, shadow) := backend.shadow.check
    (.ok (backend.outcomes.headD outcome),
      { backend with shadow, outcomes := backend.outcomes.tail })

def model (backend : ScriptedBackend) : Except SolverError Model × ScriptedBackend :=
  match backend.begin "model" with
  | (some err, backend) => (.error err, backend)
  | (none, backend) =>
    match backend.models with
    | [] => (backend.shadow.model, backend)
    | model :: models => (.ok model, { backend with models })

def takeCalls (backend : ScriptedBackend) : List String × ScriptedBackend :=
  (backend.calls, { backend with calls := [] })

instance : Backend ScriptedBackend where
  configure := configure
  perform := perform
  check := check
  model := model
  display backend := backend.shadow.display

end ScriptedBackend

end SmtSession

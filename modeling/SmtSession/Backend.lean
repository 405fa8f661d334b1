import SmtSession.Command
import SmtSession.Frames
import SmtSession.Outcome
import SmtSession.SessionConfig.Basic
import SmtSession.SolverOption

namespace SmtSession

/-- A backend is a state with these calls. A session checks the depth of the stack and the form of
asserted text before it makes a call. -/
class Backend (β : Type) where
  /-- Apply options, in order. A session does this once, at its start. -/
  configure : List SolverOption → β → Except SolverError Unit × β
  /-- Make a change to the stack of assertions. -/
  perform : Operation → β → Except SolverError Unit × β
  /-- Decide whether the assertions can be satisfied. -/
  check : β → Except SolverError Outcome × β
  /-- The assignments found by a check that was satisfied. -/
  model : β → Except SolverError Model × β
  /-- The state as text. -/
  display : β → String

structure Shadow where
  options : List SolverOption := []
  /-- The commands of each open frame, in order. -/
  frames : Frames Command := {}
  /-- The outcome of the last check, if nothing has changed since. -/
  lastCheck : Option Outcome := none
  deriving DecidableEq, Inhabited

namespace Shadow

def depth (shadow : Shadow) : Nat := shadow.frames.depth

/-- The terms asserted in open frames, outer frames first. -/
def assertions (shadow : Shadow) : List Term :=
  shadow.frames.entries.filterMap fun command =>
    match command with
    | .assert term => some term
    | _ => none

def declarations (shadow : Shadow) : List (String × SmtSort) :=
  shadow.frames.entries.filterMap fun command =>
    match command with
    | .declareConst name sort => some (name, sort)
    | _ => none

def texts (shadow : Shadow) : List String :=
  shadow.frames.entries.filterMap fun command =>
    match command with
    | .verbatim text => some text
    | _ => none

def configure (options : List SolverOption) (shadow : Shadow) : Shadow :=
  { shadow with options := shadow.options ++ options }

def record (command : Command) (shadow : Shadow) : Shadow :=
  { shadow with frames := shadow.frames.add [command], lastCheck := none }

def perform (operation : Operation) (shadow : Shadow) : Except SolverError Unit × Shadow :=
  match operation with
  | .push => (.ok (), { shadow with frames := shadow.frames.push, lastCheck := none })
  | .pop n =>
    if n ≤ shadow.depth then
      (.ok (), { shadow with frames := shadow.frames.pop n, lastCheck := none })
    else (.error (.invalidStackPop n shadow.depth), shadow)
  | .reset => (.ok (), { shadow with frames := {}, lastCheck := none })
  | .declare .. | .assert _ | .assertText _ => (.ok (), shadow.record operation.command)

/-- Whether anything but declarations is in an open frame. -/
def hasAssertion (shadow : Shadow) : Bool :=
  !(shadow.assertions.isEmpty && shadow.texts.isEmpty)

/-- Without assertions every assignment satisfies; with them nothing is known. -/
def outcome (shadow : Shadow) : Outcome :=
  if shadow.hasAssertion then .unknown "shadow backend does not solve" else .sat

def check (shadow : Shadow) : Outcome × Shadow :=
  (shadow.outcome, { shadow with lastCheck := some shadow.outcome })

/-- The model that assigns nothing, after a check that was satisfied. -/
def model (shadow : Shadow) : Except SolverError Model :=
  if shadow.lastCheck = some .sat then .ok {} else .error .noModel

/-- The lines of each frame, a frame below the outermost after the command that opened it. -/
def lines (shadow : Shadow) : List String :=
  match shadow.frames.toList with
  | [] => []
  | outermost :: inner => outermost.map Command.text ++
      inner.flatMap fun frame => (Command.push 1 :: frame).map Command.text

def display (shadow : Shadow) : String := String.join (shadow.lines.map (· ++ "\n"))

instance : Backend Shadow where
  configure options shadow := (.ok (), shadow.configure options)
  perform := perform
  check shadow := (.ok shadow.check.1, shadow.check.2)
  model shadow := (shadow.model, shadow)
  display := display

/-- The backend for a mode. None that solves is built in, so only the external mode has one. -/
def forMode : BackendMode → Except SolverError Shadow
  | .native =>
    .error (.backendUnavailable "native mode requires the `z3-native` feature")
  | .external => .ok {}

end Shadow

end SmtSession

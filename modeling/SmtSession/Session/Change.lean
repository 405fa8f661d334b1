import SmtSession.Session.Basic
import SmtSession.SmtSort

/-! Changes to the stack of assertions. A change is permitted, made in the backend, kept in the
session's own records and sent, in this order; the first step that refuses is the last. -/
namespace SmtSession.Session

variable {β ε : Type}

/-- The constants that an operation declares. Refuses text that may not be asserted. -/
def declarationsOf : Operation → Except SolverError (List (String × SmtSort))
  | .declare name sort => .ok [(name, sort)]
  | .assertText text =>
    (Declarations.ofText text).mapError fun err => .parse ("asserted text: " ++ err.message)
  | .assert _ | .push | .pop _ | .reset => .ok []

/-- Refuses to close no frame, or more frames than are open. -/
def ensurePoppable (session : Session β ε) : Operation → Except SolverError Unit
  | .pop n =>
    if n = 0 ∨ session.depth < n then .error (.invalidStackPop n session.depth) else .ok ()
  | _ => .ok ()

/-- Whether the session may make a change, and the constants that it declares. -/
def permit (operation : Operation) (session : Session β ε) :
    Except SolverError (List (String × SmtSort)) :=
  match session.ensureIdle with
  | .error err => .error err
  | .ok () =>
    match session.ensurePoppable operation with
    | .error err => .error err
    | .ok () => declarationsOf operation

/-- Keep a change that the backend has made in the records of the session. -/
def book (operation : Operation) (declared : List (String × SmtSort)) (session : Session β ε) :
    Session β ε :=
  let session := { session with generation := session.generation + 1 }
  match operation with
  | .declare .. | .assert _ | .assertText _ =>
    { session with frames := session.frames.add declared }
  | .push => { session with depth := session.depth + 1, frames := session.frames.push }
  | .pop n => { session with depth := session.depth - n, frames := session.frames.pop n }
  | .reset => { session with depth := 0, frames := {} }

/-- Make a change: in the backend, in the records, and in the external solver. -/
def apply [Backend β] [Emitter ε] (operation : Operation) (session : Session β ε) :
    Except SolverError Unit × Session β ε :=
  match session.permit operation with
  | .error err => (.error err, session)
  | .ok declared =>
    match session.backend with
    | none => (.error .destroyedSessionUse, session)
    | some backend =>
      match Backend.perform operation backend with
      | (.error err, backend) => (.error err, { session with backend := some backend })
      | (.ok (), backend) =>
        ({ session with backend := some backend }.book operation declared).emit operation.command

def exitFailureNotice (err : SolverError) : Notice :=
  { level := .warning, message := "Failed to deliver (exit): " ++ err.message }

/-- Send the last command. That it cannot be delivered is only noted. -/
def sendExit [Emitter ε] (context : Context ε) : Context ε :=
  match context.send .exit with
  | (.ok (), context) => context
  | (.error err, context) => context.note (exitFailureNotice err)

/-- Give up the backend and a pending check, and end the external solver. -/
def destroy [Emitter ε] (session : Session β ε) : Except SolverError Unit × Session β ε :=
  if session.state = .destroyed then (.error .destroyedSessionUse, session)
  else
    (.ok (),
      { session with
        backend := none
        pending := none
        state := .destroyed
        generation := session.generation + 1
        context := (sendExit session.context).note
          { level := .info, message := "Session destroyed" } })

/-- The session after its last use: destroyed, if it was not yet. -/
def drop [Emitter ε] (session : Session β ε) : Session β ε := session.destroy.2

end SmtSession.Session

import SmtSession.Outcome
import SmtSession.SolverError

/-! The exchange between a session that asks queries and a responder that answers them. Both sides
count: a query takes the next ticket when it is asked, a reply is stamped with the next ticket when
it is delivered. What arrives is queued until a query is waited for. -/
namespace SmtSession

/-- The answer to one query. -/
inductive Reply where
  | outcome (outcome : Outcome)
  | model (model : Model)
  /-- The solver has rejected the query, or its answer cannot be read. -/
  | error (message : String)
  deriving DecidableEq, Repr, Inhabited

/-- What is queued for the side that waits. -/
inductive Envelope where
  | reply (ticket : Nat) (reply : Reply)
  | cancel (ticket : Nat)
  | closed
  deriving DecidableEq, Repr, Inhabited

/-- What reaches an exchange from outside the session. -/
inductive Signal where
  /-- The responder answers the next query. -/
  | reply (reply : Reply)
  /-- The responder reports an error, which may or may not answer a query. -/
  | error (message : String)
  /-- Somebody cancels the wait that is going on. -/
  | cancel
  /-- A cancellation arrives that was meant for the wait of a ticket, which may be over by now. -/
  | lateCancel (ticket : Nat)
  /-- The responder goes away. -/
  | hangUp
  deriving DecidableEq, Repr, Inhabited

/-- Whether a signal is a cancellation, which may come from anybody. -/
def Signal.isCancel : Signal → Bool
  | .cancel | .lateCancel _ => true
  | _ => false

/-- A signal that comes some nanoseconds after the one before it. -/
structure Arrival where
  delay : Nat
  signal : Signal
  deriving DecidableEq, Repr, Inhabited

structure Exchange where
  /-- What has arrived and was not taken yet, the oldest first. -/
  queue : List Envelope := []
  /-- The number of tickets taken by queries: the ticket of the next query. -/
  issued : Nat := 0
  /-- The number of replies delivered: the ticket of the next reply. -/
  delivered : Nat := 0
  /-- The ticket of the query that is waited for. -/
  awaited : Option Nat := none
  /-- Whether there still is a responder. -/
  attended : Bool := true
  /-- Whether a wait has found that the responder is gone. -/
  closed : Bool := false
  /-- What will arrive while queries are waited for. -/
  coming : List Arrival := []
  /-- What observers were told, in order. -/
  notices : List Notice := []
  deriving DecidableEq, Inhabited

namespace Exchange

def note (notice : Notice) (x : Exchange) : Exchange := { x with notices := x.notices ++ [notice] }

def enqueue (envelope : Envelope) (x : Exchange) : Exchange :=
  { x with queue := x.queue ++ [envelope] }

/-- Take the ticket `x.issued` for a query that is about to be asked. -/
def issueTicket (x : Exchange) : Exchange := { x with issued := x.issued + 1 }

/-- Whether a query has been asked that no reply has answered yet. -/
def hasOutstanding (x : Exchange) : Bool := x.delivered < x.issued

/-- Queue a reply under the next ticket. -/
def deliver (reply : Reply) (x : Exchange) : Exchange :=
  { x.enqueue (.reply x.delivered reply) with delivered := x.delivered + 1 }

def strayErrorNotice (message : String) : Notice :=
  { level := .warning, message := "Solver error outside any query: " ++ message }

/-- Queue an error as the reply to the oldest unanswered query. When there is none, the error
belongs to a command that takes no ticket, and is only noted. -/
def deliverError (message : String) (x : Exchange) : Exchange :=
  if x.hasOutstanding then x.deliver (.error message) else x.note (strayErrorNotice message)

/-- Take in a signal, and say whether there was anyone to send it, or to hear of it: after the
responder has gone away it sends nothing more, and without a wait there is nothing to cancel. -/
def receive (signal : Signal) (x : Exchange) : Bool × Exchange :=
  match signal with
  | .reply reply => if x.attended then (true, x.deliver reply) else (false, x)
  | .error message => if x.attended then (true, x.deliverError message) else (false, x)
  | .cancel =>
    match x.awaited with
    | some ticket => (true, x.enqueue (.cancel ticket))
    | none => (false, x)
  | .lateCancel ticket => (true, x.enqueue (.cancel ticket))
  | .hangUp =>
    if x.attended then (true, { x.enqueue .closed with attended := false }) else (false, x)

def receiveAll (signals : List Signal) (x : Exchange) : Exchange :=
  signals.foldl (fun x signal => (x.receive signal).2) x

@[simp] theorem issued_receive (signal : Signal) (x : Exchange) :
    (x.receive signal).2.issued = x.issued := by
  cases signal <;> simp only [receive]
  case error message =>
    split
    · simp only [deliverError]
      split <;> rfl
    · rfl
  case cancel => split <;> rfl
  case lateCancel => rfl
  all_goals split <;> rfl

theorem issued_receiveAll (signals : List Signal) (x : Exchange) :
    (x.receiveAll signals).issued = x.issued := by
  induction signals generalizing x with
  | nil => rfl
  | cons signal rest ih => exact (ih _).trans (issued_receive signal x)

def expect (arrivals : List Arrival) (x : Exchange) : Exchange :=
  { x with coming := x.coming ++ arrivals }

/-- Let everything arrive that is still to come. -/
def settle (x : Exchange) : Exchange :=
  { x with coming := [] }.receiveAll (x.coming.map Arrival.signal)

/-- An exchange whose responder has gone away before the first query. -/
def unattended : Exchange := (({} : Exchange).receive .hangUp).2

end Exchange

end SmtSession

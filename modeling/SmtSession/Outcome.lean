namespace SmtSession

inductive Outcome where
  | sat
  | unsat
  | unknown (reason : String)
  deriving DecidableEq, Repr, Inhabited

namespace Outcome

def timeout : Outcome := .unknown "timeout"

def cancelled : Outcome := .unknown "cancelled"

def disconnected : Outcome := .unknown "external solver disconnected"

/-- The outcome that a solver's one-word answer stands for. -/
def ofToken? : String → Option Outcome
  | "sat" => some .sat
  | "unsat" => some .unsat
  | "unknown" => some (.unknown "unknown")
  | "timeout" => some timeout
  | _ => none

def isSat : Outcome → Bool
  | .sat => true
  | _ => false

def isUnsat : Outcome → Bool
  | .unsat => true
  | _ => false

def isUnknown : Outcome → Bool
  | .unknown _ => true
  | _ => false

def isTimeout (outcome : Outcome) : Bool := outcome == timeout

def text : Outcome → String
  | .sat => "sat"
  | .unsat => "unsat"
  | .unknown reason => if reason = "unknown" then "unknown" else "unknown (" ++ reason ++ ")"

end Outcome

structure Model where
  assignments : List (String × String) := []
  deriving DecidableEq, Repr, Inhabited

namespace Model

/-- The text assigned to a name, the first of several. -/
def get? (name : String) (model : Model) : Option String := model.assignments.lookup name

def size (model : Model) : Nat := model.assignments.length

def isEmpty (model : Model) : Bool := model.assignments.isEmpty

end Model

end SmtSession

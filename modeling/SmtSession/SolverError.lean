import SmtSession.Number.Integer
import SmtSession.SolverKind
import SmtSession.Text.Quoted

namespace SmtSession

structure Duration where
  nanoseconds : Nat
  deriving DecidableEq, Repr, Inhabited

namespace Duration

def ofMillis (milliseconds : Nat) : Duration := ⟨milliseconds * 1000000⟩

def ofParts (seconds nanoseconds : Nat) : Duration := ⟨seconds * 1000000000 + nanoseconds⟩

/-- Whole milliseconds, at most the largest number of 64 bits. -/
def toMillis (d : Duration) : UInt64 :=
  UInt64.ofNat (min (d.nanoseconds / 1000000) (UInt64.size - 1))

/-- The digits of a fraction `part / 10 ^ places` after its point, without trailing zeros. -/
def fraction (places part : Nat) : List Char :=
  let digits := Numeral.decimal part
  let padded := List.replicate (places - digits.length) '0' ++ digits
  (padded.reverse.dropWhile (· == '0')).reverse

/-- A count of units of `10 ^ places` nanoseconds, with its fraction. -/
def inUnit (places nanoseconds : Nat) (unit : String) : String :=
  let whole := Numeral.decimal (nanoseconds / Nat.pow 10 places)
  let part := fraction places (nanoseconds % Nat.pow 10 places)
  String.ofList (whole ++ (if part.isEmpty then [] else '.' :: part)) ++ unit

def text (d : Duration) : String :=
  if 1000000000 ≤ d.nanoseconds then inUnit 9 d.nanoseconds "s"
  else if 1000000 ≤ d.nanoseconds then inUnit 6 d.nanoseconds "ms"
  else if 1000 ≤ d.nanoseconds then inUnit 3 d.nanoseconds "µs"
  else inUnit 0 d.nanoseconds "ns"

end Duration

inductive NoticeLevel where
  | info
  | warning
  deriving DecidableEq, Repr, Inhabited

structure Notice where
  level : NoticeLevel
  message : String
  /-- Named details, in order. -/
  fields : List (String × String) := []
  deriving DecidableEq, Repr, Inhabited

def NoticeLevel.text : NoticeLevel → String
  | .info => "INFO"
  | .warning => "WARN"

inductive SolverError where
  | invalidStackPop (requested depth : Nat)
  | staleModel (producedAt current : Nat)
  | destroyedSessionUse
  | unresponsiveBackend (after : Duration)
  | malformedOption (name value : String)
  | checkPending
  | noPendingCheck
  | noModel
  | backendUnavailable (reason : String)
  | desynchronized (reason : String)
  | notFound (kind : SolverKind) (path : FilePath)
  | process (reason : String)
  | parse (reason : String)
  | translation (reason : String)
  | evaluation (reason : String)
  deriving BEq, Repr, Inhabited

namespace SolverError

def message : SolverError → String
  | .invalidStackPop requested depth =>
    "Cannot pop " ++ toString requested ++ " frame(s) at stack depth " ++ toString depth
  | .staleModel producedAt current =>
    "Model from generation " ++ toString producedAt ++ " is stale (session is at generation " ++
      toString current ++ ")"
  | .destroyedSessionUse => "Session has been destroyed"
  | .unresponsiveBackend after => "External solver did not respond within " ++ after.text
  | .malformedOption name value =>
    "Malformed value for option " ++ name ++ ": " ++ Text.quoted value
  | .checkPending => "A satisfiability check is still pending"
  | .noPendingCheck => "No satisfiability check is pending"
  | .noModel => "No model available for the current session state"
  | .backendUnavailable reason => "Backend unavailable: " ++ reason
  | .desynchronized reason => "Session protocol stream is out of sync: " ++ reason
  | .notFound kind path => kind.text ++ " binary not found at: " ++ path.text
  | .process reason => "Solver process error: " ++ reason
  | .parse reason => "Failed to parse solver output: " ++ reason
  | .translation reason => "Cannot translate term: " ++ reason
  | .evaluation reason => "Cannot evaluate term: " ++ reason

/-- Whether the session can go on to be used after the error. -/
def isRecoverable : SolverError → Bool
  | .staleModel .. | .unresponsiveBackend _ | .malformedOption .. | .noModel => true
  | .evaluation _ | .translation _ | .checkPending | .noPendingCheck => true
  | _ => false

end SolverError

end SmtSession

import SmtSession.SolverError
import SmtSession.Text.Basic

namespace SmtSession

structure SolverLaunch where
  kind : SolverKind
  path : FilePath
  /-- The time limit of one check, zero for none. -/
  timeoutMillis : UInt64 := 0
  extraArgs : List String := []
  deriving BEq, Repr, Inhabited

/-- What is found under a path. -/
inductive PathEntry where
  | absent
  | directory
  | program
  deriving DecidableEq, Repr, Inhabited

/-- What a look-up of a program by its name has answered. -/
structure LookupAnswer where
  status : Int
  output : String
  deriving DecidableEq, Repr, Inhabited

namespace SolverLaunch

/-- The arguments of the program: those of its kind, the time limit, and the extra ones. -/
def args (launch : SolverLaunch) : List String :=
  launch.kind.interactiveArgs ++ (launch.kind.timeoutArg? launch.timeoutMillis).toList ++
    launch.extraArgs

def validate (entry : FilePath → PathEntry) (launch : SolverLaunch) : Except SolverError Unit :=
  match entry launch.path with
  | .absent => .error (.notFound launch.kind launch.path)
  | .directory | .program => .ok ()

/-- Why a solver that was found could not be started. -/
def startError (reason : String) (launch : SolverLaunch) : SolverError :=
  .process ("Failed to start " ++ launch.kind.text ++ ": " ++ reason)

/-- An argument of a program ends before its first null character, so one with such a character
cannot be handed over. -/
def isArgument (text : String) : Bool := !text.toList.contains '\x00'

/-- Refuses arguments that cannot be handed over, and a path under which there is no program. -/
def ensureProgram (entry : FilePath → PathEntry) (launch : SolverLaunch) :
    Except SolverError Unit :=
  match launch.validate entry with
  | .error err => .error err
  | .ok () =>
    if !launch.args.all isArgument then
      .error (launch.startError "nul byte found in provided data")
    else
      match entry launch.path with
      | .program => .ok ()
      | .absent | .directory => .error (launch.startError "Permission denied (os error 13)")

/-- The path that a successful look-up names. Of a status, the lowest byte counts. -/
def answeredPath? (answer : LookupAnswer) : Option FilePath :=
  let path := trimmed answer.output
  if answer.status % 256 = 0 ∧ path ≠ "" then some ⟨path⟩ else none

/-- Where a solver may be, in order of preference. -/
def candidates (kind : SolverKind) (answer : Option LookupAnswer) : List FilePath :=
  (answer.bind answeredPath?).toList ++ kind.usualPaths.map FilePath.mk

/-- Launch the first candidate under whose path there is something. -/
def detect (entry : FilePath → PathEntry) (kind : SolverKind) (answer : Option LookupAnswer) :
    Except SolverError SolverLaunch :=
  match (candidates kind answer).find? fun path => entry path != .absent with
  | some path => .ok { kind, path }
  | none => .error (.notFound kind ⟨kind.binaryName⟩)

end SolverLaunch

end SmtSession

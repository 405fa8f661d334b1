import SmtSession.Emitter
import SmtSession.Reply
import SmtSession.SolverLaunch

/-! The stand-in rehearses a solver process: a program that is sent lines, answers each query with
the next of the replies it was given as arguments, and ends when it is told to. What it prints goes
through a reply reader. Some replies are not printed but done:

* `@silent` prints nothing;
* `@die` and `@exit N` end the program;
* `@args` and `@seen` print the arguments, or the lines seen before, as an error;
* `@bytes` prints a line that is no text, at which the reader stops, and then `sat`;
* `@stderr` prints to where nobody reads, and then `sat`.
-/
namespace SmtSession

structure Responder where
  /-- Why nothing can be delivered, as long as that is so. -/
  broken : Option String := none
  /-- The commands delivered, in order. -/
  delivered : List Command := []
  /-- What the next queries are answered with. -/
  answers : List (List Signal) := []
  deriving DecidableEq, Inhabited

namespace Responder

def send (command : Command) (responder : Responder) :
    Except SolverError (List Signal) × Responder :=
  match responder.broken with
  | some reason => (.error (.process reason), responder)
  | none =>
    let recorded := { responder with delivered := responder.delivered ++ [command] }
    if command.isQuery then
      (.ok (recorded.answers.headD []), { recorded with answers := recorded.answers.tail })
    else (.ok [], recorded)

instance : Emitter Responder := ⟨send⟩

end Responder

structure StandIn where
  /-- The arguments before the replies. -/
  arguments : List String
  replies : List String
  /-- The lines seen, in order. -/
  seen : List String := []
  reader : ReplyReader := {}
  /-- The exit status, once the program has ended. -/
  status : Option Nat := none
  deriving DecidableEq, Inhabited

namespace StandIn

/-- Start the stand-in with the arguments of a launch; replies stand after `--replies`. -/
def ofArguments (arguments : List String) : StandIn where
  arguments := arguments.takeWhile (· != "--replies")
  replies := (arguments.dropWhile (· != "--replies")).drop 1

/-- Launch the stand-in as a solver would be launched. -/
def launch (entry : FilePath → PathEntry) (settings : SolverLaunch) :
    Except SolverError StandIn :=
  (settings.ensureProgram entry).map fun () => ofArguments settings.args

/-- Whether the program goes on when it is told to end. -/
def hangs (program : StandIn) : Bool := program.arguments.contains "--hang"

/-- The lines of a text; a carriage return before a line end belongs to it. -/
def linesOf (text : String) : List String :=
  (text.toList.splitOnP (· == '\n')).map fun line =>
    String.ofList (if line.getLast? = some '\r' then line.dropLast else line)

/-- End with a status. The reader finds the end of the output. -/
def exit (status : Nat) (program : StandIn) : List Signal × StandIn :=
  ([.hangUp], { program with status := some status })

def print (text : String) (program : StandIn) : List Signal × StandIn :=
  let (signals, reader) := program.reader.signals (linesOf text)
  (signals, { program with reader })

def printError (message : String) (program : StandIn) : List Signal × StandIn :=
  program.print ("(error \"" ++ message ++ "\")")

/-- The status of a program that ends with a number of 32 bits: the lowest byte of the number. -/
def statusOf (number : List Char) : Nat :=
  match Numeral.int128? number with
  | some value =>
    if -0x80000000 ≤ value.val ∧ value.val < 0x80000000 then (value.val % 256).toNat else 0
  | none => 0

def respond (reply : String) (program : StandIn) : List Signal × StandIn :=
  match reply with
  | "@silent" => ([], program)
  | "@die" => program.exit 0
  | "@args" => program.printError (" ".intercalate program.arguments)
  | "@seen" => program.printError (";".intercalate program.seen)
  | "@bytes" => ([.hangUp], program)
  | "@stderr" => program.print "sat"
  | _ =>
    match "@exit ".toList.isPrefixOf? reply.toList with
    | some number => program.exit (statusOf number)
    | none => program.print reply

def answer (program : StandIn) : List Signal × StandIn :=
  match program.replies with
  | [] => ([], program)
  | reply :: replies => { program with replies }.respond reply

def readLine (line : String) (program : StandIn) : List Signal × StandIn :=
  if program.status.isSome then ([], program)
  else
    let (signals, next) :=
      if line = "(check-sat)" ∨ line = "(get-model)" then program.answer
      else if line = "(exit)" ∧ !program.hangs then program.exit 0
      else ([], program)
    (signals, { next with seen := next.seen ++ [line] })

def readLines (program : StandIn) : List String → List Signal × StandIn
  | [] => ([], program)
  | line :: rest =>
    let (signals, program) := program.readLine line
    let (later, program) := program.readLines rest
    (signals ++ later, program)

/-- Nothing can be written to a program that has ended. -/
def brokenPipe : SolverError := Stream.writeError "Broken pipe (os error 32)"

/-- Send a command and let the program read it. -/
def send (command : Command) (program : StandIn) : Except SolverError (List Signal) × StandIn :=
  if program.status.isSome then (.error brokenPipe, program)
  else
    let (signals, program) := program.readLines (linesOf command.text)
    (.ok signals, program)

instance : Emitter StandIn := ⟨send⟩

/-- Send commands in one go: all of them are written before the program reads the first. What it
prints is not looked at. -/
def sendAll (commands : List Command) (program : StandIn) :
    List (Except SolverError Unit) × StandIn :=
  if program.status.isSome then (commands.map fun _ => .error brokenPipe, program)
  else
    let lines := commands.flatMap fun command => linesOf command.text
    (commands.map fun _ => .ok (), (program.readLines lines).2)

/-- The exit status when the input has ended. A program that goes on is killed, and leaves none. -/
def finish (program : StandIn) : Option Nat :=
  match program.status with
  | some status => some status
  | none => if program.hangs then none else some 0

end StandIn

end SmtSession

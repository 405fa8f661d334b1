import SmtSession.Command
import SmtSession.Exchange.Basic
import SmtSession.SolverError

namespace SmtSession

/-- An emitter is a state that commands are sent to, one at a time. A delivered command may make the
receiving side answer at once, with signals that reach the session before it does anything else. -/
class Emitter (ε : Type) where
  send : Command → ε → Except SolverError (List Signal) × ε

structure Transcript where
  commands : List Command := []
  deriving DecidableEq, Inhabited

namespace Transcript

def record (command : Command) (transcript : Transcript) : Transcript :=
  { commands := transcript.commands ++ [command] }

def size (transcript : Transcript) : Nat := transcript.commands.length

def isEmpty (transcript : Transcript) : Bool := transcript.commands.isEmpty

def lines (transcript : Transcript) : List String := transcript.commands.map Command.text

def toScript (transcript : Transcript) : Script := { commands := transcript.commands }

instance : Emitter Transcript where
  send command transcript := (.ok [], transcript.record command)

end Transcript

structure Stream where
  /-- The characters written whole. -/
  written : List Char := []
  /-- The bytes written of a further character that is cut short. -/
  cut : List UInt8 := []
  /-- How many more bytes the sink takes, if there is a limit. -/
  room : Option Nat := none
  /-- What the sink says when it takes no more. -/
  fault : String := ""
  deriving DecidableEq, Inhabited

namespace Stream

def line (command : Command) : List Char := command.chars ++ ['\n']

def byteCount : List Char → Nat
  | [] => 0
  | c :: rest => c.utf8Size + byteCount rest

/-- The characters that fit into some bytes, the others, and how many bytes are left over. -/
def fitting : (room : Nat) → List Char → List Char × List Char × Nat
  | room, [] => ([], [], room)
  | room, c :: rest =>
    if c.utf8Size ≤ room then
      let (taken, others, left) := fitting (room - c.utf8Size) rest
      (c :: taken, others, left)
    else ([], c :: rest, room)

/-- Write what there is room for, and say whether that is everything. Of a character that does not
fit, the first bytes are written. -/
def write (cs : List Char) (stream : Stream) : Bool × Stream :=
  match stream.room with
  | none => (true, { stream with written := stream.written ++ cs })
  | some room =>
    match fitting room cs with
    | (taken, [], left) =>
      (true, { stream with written := stream.written ++ taken, room := some left })
    | (taken, next :: _, left) =>
      (false, { stream with
        written := stream.written ++ taken
        cut := stream.cut ++ (String.utf8EncodeChar next).take left
        room := some 0 })

def writeError (reason : String) : SolverError :=
  .process ("Failed to write to solver stdin: " ++ reason)

def send (command : Command) (stream : Stream) : Except SolverError Unit × Stream :=
  let (complete, next) := stream.write (line command)
  (if complete then .ok () else .error (writeError stream.fault), next)

def bytes (stream : Stream) : List UInt8 :=
  stream.written.flatMap String.utf8EncodeChar ++ stream.cut

def size (stream : Stream) : Nat := byteCount stream.written + stream.cut.length

/-- The text written. A character that is cut short shows as a replacement character. -/
def text (stream : Stream) : String :=
  String.ofList (stream.written ++ if stream.cut.isEmpty then [] else ['\ufffd'])

instance : Emitter Stream where
  send command stream :=
    let (result, stream) := stream.send command
    (result.map fun _ => [], stream)

end Stream

end SmtSession

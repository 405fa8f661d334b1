import SmtSession.Exchange.Basic
import SmtSession.Sexp.Reader
import SmtSession.SolverError
import SmtSession.Text.Basic

namespace SmtSession

inductive ReplyEvent where
  | outcome (outcome : Outcome)
  | model (model : Model)
  | solverError (message : String)
  deriving DecidableEq, Repr, Inhabited

namespace ReplyEvent

/-- The assignment of one entry of a model: the definition of a function without parameters. -/
def assignment? : Sexp → Option (String × String)
  | .list [.atom "define-fun", .atom name, .list [], _, value] => some (name, value.text)
  | _ => none

/-- The entries of a model stand in one list, some solvers write the word `model` before them. -/
def modelEntries : List Sexp → List Sexp
  | .atom "model" :: entries => entries
  | entries => entries

/-- Text without the quotes at its two ends. -/
def withoutQuotes (text : String) : String :=
  String.ofList ((text.toList.dropWhile (· == '"')).reverse.dropWhile (· == '"')).reverse

def errorMessage : List Sexp → String
  | message :: _ => withoutQuotes message.text
  | [] => ""

/-- What a complete S-expression says: an error, or a model. -/
def ofSexp : Sexp → Except SolverError ReplyEvent
  | .list (.atom "error" :: rest) => .ok (.solverError (errorMessage rest))
  | .list items => .ok (.model { assignments := (modelEntries items).filterMap assignment? })
  | .atom text => .error (.parse ("Expected model, got: " ++ text))

def ofText (text : String) : Except SolverError ReplyEvent :=
  match Sexp.read text with
  | .error err => .error (.parse err.message)
  | .ok tree => ofSexp tree

def ofWord (word : String) : Except SolverError ReplyEvent :=
  match Outcome.ofToken? word with
  | some found => .ok (.outcome found)
  | none => .error (.parse ("Unexpected solver output: " ++ word))

def signal : ReplyEvent → Signal
  | .outcome found => .reply (.outcome found)
  | .model found => .reply (.model found)
  | .solverError message => .error message

end ReplyEvent

/-- How far the S-expression of an unfinished answer is open. -/
structure Openness where
  /-- The lists opened and not closed, less than zero when too many were closed. -/
  depth : Int := 0
  inString : Bool := false
  inSymbol : Bool := false
  deriving DecidableEq, Repr, Inhabited

namespace Openness

/-- Follow the characters of one line. A comment goes to the end of the line. -/
def scan (openness : Openness) : List Char → Openness
  | [] => openness
  | c :: rest =>
    if c = '"' ∧ !openness.inSymbol then
      scan { openness with inString := !openness.inString } rest
    else if c = '|' ∧ !openness.inString then
      scan { openness with inSymbol := !openness.inSymbol } rest
    else if openness.inString || openness.inSymbol then scan openness rest
    else if c = ';' then openness
    else if c = '(' then scan { openness with depth := openness.depth + 1 } rest
    else if c = ')' then scan { openness with depth := openness.depth - 1 } rest
    else scan openness rest

/-- Whether more lines are needed. -/
def isOpen (openness : Openness) : Bool :=
  0 < openness.depth || openness.inString || openness.inSymbol

end Openness

structure ReplyReader where
  /-- The lines of an unfinished answer, each with its line end. -/
  pending : List Char := []
  openness : Openness := {}
  deriving DecidableEq, Repr, Inhabited

namespace ReplyReader

/-- Lines outside an answer that answer nothing: blank ones, acknowledgements and comments. -/
def isIgnorable (trimmedLine : List Char) : Bool :=
  trimmedLine.isEmpty || trimmedLine == "success".toList || trimmedLine.head? == some ';'

/-- Add a line to the S-expression that is being read. -/
def extend (line : List Char) (reader : ReplyReader) :
    Except SolverError (Option ReplyEvent) × ReplyReader :=
  let pending := reader.pending ++ line ++ ['\n']
  let openness := reader.openness.scan line
  if openness.isOpen then (.ok none, { pending, openness })
  else ((ReplyEvent.ofText (String.ofList pending)).map some, {})

/-- Read a line outside an answer, or a line of an unfinished one. -/
def feedChars (line : List Char) (reader : ReplyReader) :
    Except SolverError (Option ReplyEvent) × ReplyReader :=
  let word := Text.trim line
  if !reader.pending.isEmpty then reader.extend line
  else if isIgnorable word then (.ok none, reader)
  else if word.head? = some '(' then reader.extend line
  else ((ReplyEvent.ofWord (String.ofList word)).map some, reader)

/-- Read one line, without its line end. The result is the event that the line completes, if any. -/
def feed (line : String) (reader : ReplyReader) :
    Except SolverError (Option ReplyEvent) × ReplyReader :=
  reader.feedChars line.toList

/-- What a line makes the session hear. An answer that cannot be read is heard as an error. -/
def signal? : Except SolverError (Option ReplyEvent) → Option Signal
  | .ok event => event.map ReplyEvent.signal
  | .error err => some (.error err.message)

def signals (reader : ReplyReader) : List String → List Signal × ReplyReader
  | [] => ([], reader)
  | line :: rest =>
    let (result, reader) := reader.feed line
    let (later, reader) := reader.signals rest
    ((signal? result).toList ++ later, reader)

theorem signals_append (reader : ReplyReader) (first second : List String) :
    reader.signals (first ++ second) =
      ((reader.signals first).1 ++ ((reader.signals first).2.signals second).1,
        ((reader.signals first).2.signals second).2) := by
  induction first generalizing reader with
  | nil => rfl
  | cons line rest ih => simp [signals, ih]

end ReplyReader

end SmtSession

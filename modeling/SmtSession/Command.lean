import SmtSession.SmtSort
import SmtSession.Term.Basic
import SmtSession.Term.Printer

namespace SmtSession

inductive Command where
  | declareConst (name : String) (sort : SmtSort)
  | assert (term : Term)
  | checkSat
  | getModel
  | push (frames : Nat)
  | pop (frames : Nat)
  | reset
  | exit
  /-- Commands given as text; the blanks around them are not sent. -/
  | verbatim (text : String)
  deriving DecidableEq, Inhabited

namespace Command

def isQuery : Command → Bool
  | .checkSat | .getModel => true
  | _ => false

def chars : Command → List Char
  | .declareConst name sort =>
    "(declare-const ".toList ++ name.toList ++ ' ' :: sort.chars ++ [')']
  | .assert term => "(assert ".toList ++ term.chars ++ [')']
  | .checkSat => "(check-sat)".toList
  | .getModel => "(get-model)".toList
  | .push frames => "(push ".toList ++ Numeral.decimal frames ++ [')']
  | .pop frames => "(pop ".toList ++ Numeral.decimal frames ++ [')']
  | .reset => "(reset)".toList
  | .exit => "(exit)".toList
  | .verbatim text => Text.trim text.toList

def text (command : Command) : String := String.ofList command.chars

end Command

inductive Operation where
  | declare (name : String) (sort : SmtSort)
  | assert (term : Term)
  /-- Declarations, definitions and assertions given as text. -/
  | assertText (text : String)
  | push
  | pop (frames : Nat)
  | reset
  deriving DecidableEq, Inhabited

/-- The command that makes the same change in an external solver. -/
def Operation.command : Operation → Command
  | .declare name sort => .declareConst name sort
  | .assert term => .assert term
  | .assertText text => .verbatim text
  | .push => .push 1
  | .pop frames => .pop frames
  | .reset => .reset

theorem Operation.command_tells (operation : Operation) : operation.command.isQuery = false := by
  cases operation <;> rfl

structure Script where
  commands : List Command := []
  deriving DecidableEq, Inhabited

namespace Script

def push (command : Command) (script : Script) : Script :=
  { commands := script.commands ++ [command] }

def isEmpty (script : Script) : Bool := script.commands.isEmpty

def lines (script : Script) : List String := script.commands.map Command.text

/-- One command after the other, with a line end between neighbours. -/
def text (script : Script) : String := "\n".intercalate script.lines

/-- The stack depth after a command that starts at `depth`. A depth is a number of 32 bits. -/
def depthAfter? (depth : Nat) : Command → Option Nat
  | .push frames => if depth + frames < UInt32.size then some (depth + frames) else none
  | .pop frames => if frames ≤ depth then some (depth - frames) else none
  | .reset => some 0
  | _ => some depth

/-- The stack depth after all commands, unless one leaves the range of depths. -/
def finalDepth? (script : Script) : Option Nat := script.commands.foldlM depthAfter? 0

end Script

end SmtSession

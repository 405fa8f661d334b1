import SmtSession.Number.Integer

namespace SmtSession

structure FilePath where
  text : String
  deriving Repr, Inhabited

namespace FilePath

/-- Whether the path starts at the root, and its steps from there. Empty steps and steps to the
directory itself are left out, except such a step at the start of a relative path. -/
def route (path : FilePath) : Bool × List (List Char) :=
  let steps := path.text.toList.splitOnP (· == '/')
  let absolute := path.text.toList.head? == some '/'
  let here := if steps.head? == some ['.'] then [['.']] else []
  (absolute, here ++ steps.filter fun step => !(step.isEmpty || step == ['.']))

instance : BEq FilePath := ⟨fun a b => a.route == b.route⟩

end FilePath

inductive SolverKind where
  | z3
  | cvc5
  | yices
  deriving DecidableEq, Repr, Inhabited

namespace SolverKind

def text : SolverKind → String
  | .z3 => "Z3"
  | .cvc5 => "CVC5"
  | .yices => "Yices"

/-- The name under which settings refer to the solver. -/
def key : SolverKind → String
  | .z3 => "z3"
  | .cvc5 => "cvc5"
  | .yices => "yices"

/-- The kind of a name, whatever the case of its letters. Only ASCII letters have a letter of one of
these names as their small form. -/
def ofName (name : String) : Except String SolverKind :=
  match String.ofList (name.toList.map Char.toLower) with
  | "z3" => .ok .z3
  | "cvc5" => .ok .cvc5
  | "yices" | "yices2" | "yices-smt2" => .ok .yices
  | _ => .error ("Unknown solver: " ++ name ++ ". Valid options: z3, cvc5, yices")

def binaryName : SolverKind → String
  | .z3 => "z3"
  | .cvc5 => "cvc5"
  | .yices => "yices-smt2"

/-- Where a solver is usually installed, in order of preference. -/
def usualPaths (kind : SolverKind) : List String :=
  ["/opt/homebrew/bin/", "/usr/local/bin/", "/usr/bin/"].map (· ++ kind.binaryName)

/-- The arguments that make a solver read commands from its input and keep its state. -/
def interactiveArgs : SolverKind → List String
  | .z3 => ["-in", "-smt2"]
  | .cvc5 => ["--lang", "smt2", "--produce-models", "--incremental"]
  | .yices => ["--incremental"]

/-- The argument that limits the time of one check; zero sets no limit. Yices counts in seconds,
and a part of a second counts as a whole one. -/
def timeoutArg? (kind : SolverKind) (milliseconds : UInt64) : Option String :=
  let limit := milliseconds.toNat
  if limit = 0 then none
  else
    some <| match kind with
      | .z3 => "-t:" ++ toString limit
      | .cvc5 => "--tlimit-per=" ++ toString limit
      | .yices => "--timeout=" ++ toString ((limit + 999) / 1000)

end SolverKind

end SmtSession

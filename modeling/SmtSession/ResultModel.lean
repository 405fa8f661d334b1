import SmtSession.Eval
import SmtSession.Outcome
import SmtSession.SolverError
import SmtSession.Value

namespace SmtSession

structure ResultModel where
  producedAt : Nat
  raw : Model
  /-- The typed values and the sorts in force when the model was produced. -/
  assignment : Assignment
  deriving DecidableEq, Inhabited

namespace ResultModel

/-- The value of a text at the sort its name was declared with. -/
def typedValue (build : Build) (sorts : List (String × SmtSort)) (name text : String) :
    Checked Value :=
  match lookupLast? name sorts with
  | some sort => Value.read build text sort
  | none => .ok (.raw text)

def typedValues (build : Build) (sorts : List (String × SmtSort)) :
    List (String × String) → Checked (List (String × Value))
  | [] => .ok []
  | (name, text) :: rest => do
    let value ← typedValue build sorts name text
    return (name, value) :: (← typedValues build sorts rest)

def ofModel (build : Build) (producedAt : Nat) (sorts : List (String × SmtSort)) (raw : Model) :
    Checked ResultModel := do
  let values ← typedValues build sorts raw.assignments
  return { producedAt, raw, assignment := { values, sorts, build } }

def isStale (generation : Nat) (model : ResultModel) : Bool := generation != model.producedAt

/-- Refuses to answer for another generation than the model's own. -/
def ensureFresh (generation : Nat) (model : ResultModel) : Except SolverError Unit :=
  if model.isStale generation then .error (.staleModel model.producedAt generation) else .ok ()

/-- The value of a name: the assigned one, else the default of its sort, if there is either. -/
def get (generation : Nat) (name : String) (model : ResultModel) :
    Except SolverError (Option Value) :=
  match model.ensureFresh generation with
  | .error err => .error err
  | .ok () =>
    .ok <| match lookupLast? name model.assignment.values with
      | some value => some value
      | none => (lookupLast? name model.assignment.sorts).bind Value.default?

def evaluate (generation : Nat) (term : Term) (model : ResultModel) :
    Checked (Except SolverError Value) :=
  match model.ensureFresh generation with
  | .error err => .ok (.error err)
  | .ok () =>
    match term.eval model.assignment with
    | .ok value => .ok (.ok value)
    | .error fault => do return .error (.evaluation (← fault.message))

end ResultModel

end SmtSession

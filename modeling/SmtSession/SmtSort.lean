import SmtSession.Number.Integer
import SmtSession.Sexp.Basic
import SmtSession.Sexp.Reader

namespace SmtSession

inductive SmtSort where
  | bool
  | int
  | bitVec (width : UInt32)
  | string
  | uninterpreted (name : String)
  deriving DecidableEq, Repr, Inhabited

namespace SmtSort

/-- Every sort but an uninterpreted one has values of its own. -/
def isInterpreted : SmtSort → Bool
  | .uninterpreted _ => false
  | _ => true

def chars : SmtSort → List Char
  | .bool => "Bool".toList
  | .int => "Int".toList
  | .bitVec width => "(_ BitVec ".toList ++ Numeral.decimal width.toNat ++ [')']
  | .string => "String".toList
  | .uninterpreted name => name.toList

def text (sort : SmtSort) : String := String.ofList sort.chars

/-- A name that is no interpreted sort's is an uninterpreted sort; of the lists, only a bitvector
sort with a width of 32 bits is known. -/
def ofSexp? : Sexp → Option SmtSort
  | .atom "Bool" => some .bool
  | .atom "Int" => some .int
  | .atom "String" => some .string
  | .atom name => some (.uninterpreted name)
  | .list [.atom "_", .atom "BitVec", .atom width] => (Numeral.uint32? width.toList).map .bitVec
  | .list _ => none

end SmtSort

end SmtSession

namespace SmtSession.Declarations

/-- The commands that neither move in the stack nor ask for a reply. -/
def assertableHeads : List String :=
  ["assert", "declare-const", "declare-fun", "define-fun", "declare-sort", "define-sort"]

/-- The constant that one command declares, when its sort is known. -/
def ofCommand? : Sexp → Option (String × SmtSort)
  | .list [.atom "declare-const", .atom name, sort] => (SmtSort.ofSexp? sort).map (name, ·)
  | .list [.atom "declare-fun", .atom name, .list [], sort] =>
    (SmtSort.ofSexp? sort).map (name, ·)
  | _ => none

def checkCommand (item : Sexp) : Except SexpError Unit :=
  match item.head? with
  | none => .error (.notCommand item)
  | some head => if head ∈ assertableHeads then .ok () else .error (.notAssertable head)

def ofCommands : List Sexp → Except SexpError (List (String × SmtSort))
  | [] => .ok []
  | item :: rest =>
    match checkCommand item with
    | .error err => .error err
    | .ok () => (ofCommands rest).map ((ofCommand? item).toList ++ ·)

def ofText (text : String) : Except SexpError (List (String × SmtSort)) :=
  match Sexp.readAll text with
  | .error err => .error err
  | .ok items => ofCommands items

end SmtSession.Declarations

import SmtSession.Command
import SmtSession.Proofs.Layout

/-! Rendering: the trees that sorts, terms and commands are written as. Their texts are the canonical
texts of these trees, and every atom of the trees is read as itself as soon as the names are. -/
namespace SmtSession

namespace Numeral

theorem plain_of_isDigit {c : Char} (digit : c.isDigit = true) :
    Sexp.Lexer.endsWord c = false ∧ c ≠ '|' := by
  simp only [Char.isDigit, Bool.and_eq_true, decide_eq_true_eq, ge_iff_le, UInt32.le_iff_toNat_le]
    at digit
  obtain ⟨lower, upper⟩ := digit
  change 48 ≤ c.toNat at lower
  change c.toNat ≤ 57 at upper
  have other (d : Char) (outside : d.toNat < 48 ∨ 57 < d.toNat) : c ≠ d := by
    rintro rfl
    omega
  have dark : Text.isBlank c = false := by
    simp only [Text.isBlank, Bool.or_eq_false_iff, Bool.and_eq_false_iff, decide_eq_false_iff_not,
      beq_eq_false_iff_ne]
    omega
  have opening := other '(' (by decide)
  have closing := other ')' (by decide)
  have quote := other '"' (by decide)
  have semicolon := other ';' (by decide)
  exact ⟨by simp [Sexp.Lexer.endsWord, opening, closing, quote, semicolon, dark],
    other '|' (by decide)⟩

theorem decimal_isBareWord (n : Nat) : Sexp.IsBareWord (decimal n) := by
  constructor
  · exact Nat.toDigits_ne_nil
  · intro c member
    exact plain_of_isDigit (Nat.isDigit_of_mem_toDigits (by decide) (by decide) member)

def atom (n : Nat) : Sexp := .atom (String.ofList (decimal n))

end Numeral

def Term.indexedTree (value : Nat) (width : UInt32) : Sexp :=
  .list [.atom "_", .atom (String.ofList ("bv".toList ++ Numeral.decimal value)),
    Numeral.atom width.toNat]

def Term.bitVecTree (value : Int128) (width : UInt32) : Sexp :=
  indexedTree (value.bits &&& Width.mask width).toNat width

def Term.boolTree (value : Bool) : Sexp := .atom (if value then "true" else "false")

def Term.intTree (value : Int128) : Sexp :=
  if value.val < 0 then .list [.atom "-", Numeral.atom value.val.natAbs]
  else Numeral.atom value.val.natAbs

def Term.stringTree (value : String) : Sexp :=
  .atom (String.ofList (StringLiteral.encode value.toList))

def Term.nullaryTree : NaryOp → Sexp
  | .and => .atom "true"
  | .or => .atom "false"
  | .strConcat => .atom "\"\""
  | .distinct => .list [.atom "distinct"]

namespace Term

mutual
/-- The tree that a term is written as. -/
def tree : Term → Sexp
  | .boolLit value => boolTree value
  | .intLit value => intTree value
  | .bitVecLit value width => bitVecTree value width
  | .stringLit value => stringTree value
  | .const name => .atom name
  | .unary op arg => .list [.atom op.symbol, arg.tree]
  | .binary op left right => .list [.atom op.symbol, left.tree, right.tree]
  | .ite condition onTrue onFalse =>
    .list [.atom "ite", condition.tree, onTrue.tree, onFalse.tree]
  | .nary op [] => nullaryTree op
  | .nary op (arg :: rest) => .list (.atom op.symbol :: trees (arg :: rest))
  | .app name [] => .atom name
  | .app name (arg :: rest) => .list (.atom name :: trees (arg :: rest))

def trees : List Term → List Sexp
  | [] => []
  | arg :: rest => arg.tree :: trees rest
end

mutual
/-- The constants and the functions that occur in a term. -/
def names : Term → List String
  | .boolLit _ | .intLit _ | .bitVecLit .. | .stringLit _ => []
  | .const name => [name]
  | .unary _ arg => arg.names
  | .binary _ left right => left.names ++ right.names
  | .ite condition onTrue onFalse => condition.names ++ onTrue.names ++ onFalse.names
  | .nary _ args => namesAll args
  | .app name args => name :: namesAll args

def namesAll : List Term → List String
  | [] => []
  | arg :: rest => arg.names ++ namesAll rest
end

end Term

namespace Sexp

theorem spaced_cons (item : Sexp) (items : List Sexp) :
    spaced (item :: items) = item.chars ++ items.flatMap (fun next => ' ' :: next.chars) := by
  induction items generalizing item with
  | nil => simp
  | cons next rest ih =>
    rw [spaced_cons_cons, ih]
    simp

end Sexp

namespace Term

theorem chars_boolTree (value : Bool) : (boolTree value).chars = boolChars value := Sexp.chars_atom _

theorem chars_numeral (n : Nat) : (Numeral.atom n).chars = Numeral.decimal n := by
  simp [Numeral.atom]

theorem intChars_eq (value : Int128) : intChars value =
    if value.val < 0 then ['(', '-', ' '] ++ Numeral.decimal value.val.natAbs ++ [')']
    else Numeral.decimal value.val.natAbs := rfl

theorem indexedChars_eq (value : Nat) (width : UInt32) : indexedChars value width =
    ['(', '_', ' ', 'b', 'v'] ++ Numeral.decimal value ++
      ' ' :: Numeral.decimal width.toNat ++ [')'] := rfl

theorem chars_intTree (value : Int128) : (intTree value).chars = intChars value := by
  rw [intTree, intChars_eq]
  split
  · simp [chars_numeral]
  · exact chars_numeral _

theorem chars_indexedTree (value : Nat) (width : UInt32) :
    (indexedTree value width).chars = indexedChars value width := by
  simp [indexedTree, indexedChars_eq, chars_numeral]

theorem chars_bitVecTree (value : Int128) (width : UInt32) :
    (bitVecTree value width).chars = bitVecChars value width := chars_indexedTree _ _

theorem chars_stringTree (value : String) :
    (stringTree value).chars = StringLiteral.encode value.toList := by
  simp [stringTree]

theorem chars_nullaryTree (op : NaryOp) : (nullaryTree op).chars = nullaryChars op := by
  cases op <;> rfl

theorem chars_application (operator : String) (operands : List Sexp) :
    (Sexp.list (.atom operator :: operands)).chars =
      '(' :: operator.toList ++ operands.flatMap (fun next => ' ' :: next.chars) ++ [')'] := by
  rw [Sexp.chars_list, Sexp.spaced_cons, Sexp.chars_atom]
  rfl

theorem chars_unary (op : UnaryOp) (arg : Term) :
    chars (.unary op arg) = '(' :: op.symbol.toList ++ ' ' :: arg.chars ++ [')'] := rfl

theorem chars_binary (op : BinaryOp) (left right : Term) : chars (.binary op left right) =
    '(' :: op.symbol.toList ++ ' ' :: left.chars ++ ' ' :: right.chars ++ [')'] := rfl

theorem chars_ite (condition onTrue onFalse : Term) : chars (.ite condition onTrue onFalse) =
    ['(', 'i', 't', 'e', ' '] ++ condition.chars ++ ' ' :: onTrue.chars ++
      ' ' :: onFalse.chars ++ [')'] := rfl

theorem operands_cons (arg : Term) (rest : List Term) :
    operands (arg :: rest) = ' ' :: arg.chars ++ operands rest := rfl

mutual
/-- The text of a term is the canonical text of its tree. -/
theorem chars_tree : (term : Term) → term.tree.chars = term.chars
  | .boolLit value => chars_boolTree value
  | .intLit value => chars_intTree value
  | .bitVecLit value width => chars_bitVecTree value width
  | .stringLit value => chars_stringTree value
  | .const name => Sexp.chars_atom name
  | .unary op arg => by
    rw [tree, chars_application, chars_unary]
    simp [chars_tree arg]
  | .binary op left right => by
    rw [tree, chars_application, chars_binary]
    simp [chars_tree left, chars_tree right]
  | .ite condition onTrue onFalse => by
    rw [tree, chars_application, chars_ite]
    simp [chars_tree condition, chars_tree onTrue, chars_tree onFalse]
  | .nary op [] => chars_nullaryTree op
  | .nary op (arg :: rest) => by
    rw [tree, chars_application, flatMap_trees (arg :: rest)]
    rfl
  | .app name [] => Sexp.chars_atom name
  | .app name (arg :: rest) => by
    rw [tree, chars_application, flatMap_trees (arg :: rest)]
    rfl

theorem flatMap_trees : (args : List Term) →
    (trees args).flatMap (fun next => ' ' :: next.chars) = operands args
  | [] => rfl
  | arg :: rest => by
    rw [trees, List.flatMap_cons, chars_tree arg, flatMap_trees rest, operands_cons]
end

theorem wellFormed_decimal (n : Nat) :
    Sexp.WellFormed (String.ofList (Numeral.decimal n)).toList := by
  rw [String.toList_ofList]
  exact .word (Numeral.decimal_isBareWord n)

theorem wellFormed_indexed (n : Nat) :
    Sexp.WellFormed (String.ofList ("bv".toList ++ Numeral.decimal n)).toList := by
  have letters : Sexp.IsBareWord "bv".toList := by decide
  have digits := Numeral.decimal_isBareWord n
  rw [String.toList_ofList]
  refine .word ⟨List.cons_ne_nil 'b' _, ?_⟩
  intro c member
  rcases List.mem_append.mp member with member | member
  · exact letters.2 c member
  · exact digits.2 c member

theorem wellFormed_string (value : String) :
    Sexp.WellFormed (String.ofList (StringLiteral.encode value.toList)).toList := by
  rw [String.toList_ofList]
  exact .string (StringLiteral.escapeAll value.toList)

section Literals

variable {p : String → Prop} (wide : ∀ name : String, Sexp.WellFormed name.toList → p name)

include wide

theorem everyAtom_boolTree (value : Bool) : Sexp.EveryAtom p [boolTree value] := by
  rw [boolTree, Sexp.everyAtom_atom]
  cases value
  · exact ⟨wide "false" (.word (by decide)), Sexp.everyAtom_nil⟩
  · exact ⟨wide "true" (.word (by decide)), Sexp.everyAtom_nil⟩

theorem everyAtom_intTree (value : Int128) : Sexp.EveryAtom p [intTree value] := by
  have digits := wide _ (wellFormed_decimal value.val.natAbs)
  have minus := wide "-" (.word (by decide))
  unfold intTree
  split <;> simp [Numeral.atom, digits, minus]

theorem everyAtom_indexedTree (value : Nat) (width : UInt32) :
    Sexp.EveryAtom p [indexedTree value width] := by
  have underscore := wide "_" (.word (by decide))
  have number := wide _ (wellFormed_indexed value)
  have digits := wide _ (wellFormed_decimal width.toNat)
  simp only [indexedTree, Sexp.everyAtom_list, Sexp.everyAtom_atom, Numeral.atom,
    Sexp.everyAtom_nil]
  exact ⟨⟨underscore, number, digits, trivial⟩, trivial⟩

theorem everyAtom_stringTree (value : String) : Sexp.EveryAtom p [stringTree value] := by
  rw [stringTree, Sexp.everyAtom_atom]
  exact ⟨wide _ (wellFormed_string value), Sexp.everyAtom_nil⟩

end Literals

theorem everyAtom_nullaryTree (op : NaryOp) : Sexp.EveryAtom Sexp.IsAtom [nullaryTree op] := by
  cases op <;> simp [nullaryTree]
  all_goals rfl

theorem isAtom_unary (op : UnaryOp) : Sexp.IsAtom op.symbol := by
  cases op <;> rfl

theorem isAtom_binary (op : BinaryOp) : Sexp.IsAtom op.symbol := by
  cases op with
  | bv op => cases op <;> rfl
  | bvOrder op => cases op <;> rfl
  | int op => cases op <;> rfl
  | intOrder op => cases op <;> rfl
  | _ => rfl

theorem isAtom_nary (op : NaryOp) : Sexp.IsAtom op.symbol := by
  cases op <;> rfl

mutual
/-- Literals and operators are read as they are written; names have to be. -/
theorem everyAtom_tree : (term : Term) → (∀ name ∈ term.names, Sexp.IsAtom name) →
    Sexp.EveryAtom Sexp.IsAtom [term.tree]
  | .boolLit value, _ => everyAtom_boolTree (fun _ formed => formed.isAtom) value
  | .intLit value, _ => everyAtom_intTree (fun _ formed => formed.isAtom) value
  | .bitVecLit value width, _ => everyAtom_indexedTree (fun _ formed => formed.isAtom) _ width
  | .stringLit value, _ => everyAtom_stringTree (fun _ formed => formed.isAtom) value
  | .const name, named => by
    rw [tree, Sexp.everyAtom_atom]
    exact ⟨named name List.mem_cons_self, Sexp.everyAtom_nil⟩
  | .unary op arg, named => by
    have operand := everyAtom_tree arg named
    simp only [tree, Sexp.everyAtom_list, Sexp.everyAtom_atom, isAtom_unary, operand,
      Sexp.everyAtom_nil, and_self]
  | .binary op left right, named => by
    simp only [names, List.mem_append, or_imp, forall_and] at named
    have first := everyAtom_tree left named.1
    have second := everyAtom_tree right named.2
    rw [tree, Sexp.everyAtom_list, Sexp.everyAtom_atom, Sexp.everyAtom_cons]
    exact ⟨⟨isAtom_binary op, first, second⟩, Sexp.everyAtom_nil⟩
  | .ite condition onTrue onFalse, named => by
    simp only [names, List.mem_append, or_imp, forall_and] at named
    have test := everyAtom_tree condition named.1.1
    have first := everyAtom_tree onTrue named.1.2
    have second := everyAtom_tree onFalse named.2
    rw [tree, Sexp.everyAtom_list, Sexp.everyAtom_atom, Sexp.everyAtom_cons, Sexp.everyAtom_cons onTrue.tree]
    exact ⟨⟨rfl, test, first, second⟩, Sexp.everyAtom_nil⟩
  | .nary op [], _ => everyAtom_nullaryTree op
  | .nary op (arg :: rest), named => by
    rw [tree, Sexp.everyAtom_list, Sexp.everyAtom_atom]
    exact ⟨⟨isAtom_nary op, everyAtom_trees (arg :: rest) named⟩, Sexp.everyAtom_nil⟩
  | .app name [], named => by
    rw [tree, Sexp.everyAtom_atom]
    exact ⟨named name List.mem_cons_self, Sexp.everyAtom_nil⟩
  | .app name (arg :: rest), named => by
    have operands := everyAtom_trees (arg :: rest)
      (fun other member => named other (List.mem_cons_of_mem name member))
    rw [tree, Sexp.everyAtom_list, Sexp.everyAtom_atom]
    exact ⟨⟨named name List.mem_cons_self, operands⟩, Sexp.everyAtom_nil⟩

theorem everyAtom_trees : (args : List Term) → (∀ name ∈ namesAll args, Sexp.IsAtom name) →
    Sexp.EveryAtom Sexp.IsAtom (trees args)
  | [], _ => Sexp.everyAtom_nil
  | arg :: rest, named => by
    simp only [namesAll, List.mem_append, or_imp, forall_and] at named
    rw [trees, Sexp.everyAtom_cons]
    exact ⟨everyAtom_tree arg named.1, everyAtom_trees rest named.2⟩
end

end Term

namespace SmtSort

def tree : SmtSort → Sexp
  | .bool => .atom "Bool"
  | .int => .atom "Int"
  | .bitVec width => .list [.atom "_", .atom "BitVec", Numeral.atom width.toNat]
  | .string => .atom "String"
  | .uninterpreted name => .atom name

/-- The sort that has to be declared before it is used. -/
def names : SmtSort → List String
  | .uninterpreted name => [name]
  | _ => []

theorem chars_bitVec (width : UInt32) : chars (.bitVec width) =
    ['(', '_', ' ', 'B', 'i', 't', 'V', 'e', 'c', ' '] ++ Numeral.decimal width.toNat ++ [')'] := rfl

theorem chars_tree (sort : SmtSort) : sort.tree.chars = sort.chars := by
  cases sort with
  | bitVec width =>
    rw [tree, chars_bitVec]
    simp [Term.chars_numeral]
  | _ => exact Sexp.chars_atom _

theorem everyAtom_tree {p : String → Prop} {sort : SmtSort}
    (wide : ∀ name : String, Sexp.WellFormed name.toList → p name)
    (named : ∀ name ∈ sort.names, p name) : Sexp.EveryAtom p [sort.tree] := by
  cases sort with
  | bitVec width =>
    have underscore := wide "_" (.word (by decide))
    have keyword := wide "BitVec" (.word (by decide))
    have digits := wide _ (Term.wellFormed_decimal width.toNat)
    simp only [tree, Numeral.atom, Sexp.everyAtom_list, Sexp.everyAtom_atom, Sexp.everyAtom_nil]
    exact ⟨⟨underscore, keyword, digits, trivial⟩, trivial⟩
  | uninterpreted name =>
    exact (Sexp.everyAtom_atom name []).mpr ⟨named name List.mem_cons_self, Sexp.everyAtom_nil⟩
  | bool | int | string =>
    exact (Sexp.everyAtom_atom _ []).mpr ⟨wide _ (.word (by decide)), Sexp.everyAtom_nil⟩

end SmtSort

namespace Command

/-- The word that a command begins with; text is sent as it is. -/
def keyword? : Command → Option String
  | .declareConst .. => some "declare-const"
  | .assert _ => some "assert"
  | .checkSat => some "check-sat"
  | .getModel => some "get-model"
  | .push _ => some "push"
  | .pop _ => some "pop"
  | .reset => some "reset"
  | .exit => some "exit"
  | .verbatim _ => none

def operands : Command → List Sexp
  | .declareConst name sort => [.atom name, sort.tree]
  | .assert term => [term.tree]
  | .push frames | .pop frames => [Numeral.atom frames]
  | .checkSat | .getModel | .reset | .exit | .verbatim _ => []

/-- The tree that a command other than text is written as. -/
def tree? (command : Command) : Option Sexp :=
  command.keyword?.map fun keyword => .list (.atom keyword :: command.operands)

/-- The constants, functions and uninterpreted sorts that occur in a command. -/
def names : Command → List String
  | .declareConst name sort => name :: sort.names
  | .assert term => term.names
  | _ => []

theorem chars_declareConst (name : String) (sort : SmtSort) : chars (.declareConst name sort) =
    '(' :: "declare-const".toList ++ ' ' :: name.toList ++ ' ' :: sort.chars ++ [')'] := rfl

theorem chars_assert (term : Term) :
    chars (.assert term) = '(' :: "assert".toList ++ ' ' :: term.chars ++ [')'] := rfl

theorem chars_push (frames : Nat) :
    chars (.push frames) = '(' :: "push".toList ++ ' ' :: Numeral.decimal frames ++ [')'] := rfl

theorem chars_pop (frames : Nat) :
    chars (.pop frames) = '(' :: "pop".toList ++ ' ' :: Numeral.decimal frames ++ [')'] := rfl

theorem chars_tree {command : Command} {tree : Sexp} (written : command.tree? = some tree) :
    tree.chars = command.chars := by
  cases command with
  | declareConst name sort =>
    cases written
    rw [Term.chars_application, chars_declareConst]
    simp [operands, SmtSort.chars_tree]
  | assert term =>
    cases written
    rw [Term.chars_application, chars_assert]
    simp [operands, Term.chars_tree]
  | push frames =>
    cases written
    rw [Term.chars_application, chars_push]
    simp [operands, Term.chars_numeral]
  | pop frames =>
    cases written
    rw [Term.chars_application, chars_pop]
    simp [operands, Term.chars_numeral]
  | verbatim text => cases written
  | checkSat | getModel | reset | exit =>
    cases written
    rw [Term.chars_application]
    rfl

theorem isAtom_keyword {command : Command} {keyword : String}
    (begins : command.keyword? = some keyword) : Sexp.IsAtom keyword := by
  cases command <;> cases begins <;> rfl

theorem everyAtom_operands {command : Command} (named : ∀ name ∈ command.names, Sexp.IsAtom name) :
    Sexp.EveryAtom Sexp.IsAtom command.operands := by
  cases command with
  | declareConst name sort =>
    have sorted : Sexp.EveryAtom Sexp.IsAtom [sort.tree] :=
      SmtSort.everyAtom_tree (fun _ formed => formed.isAtom)
        (fun other member => named other (List.mem_cons_of_mem name member))
    exact (Sexp.everyAtom_atom name [sort.tree]).mpr ⟨named name List.mem_cons_self, sorted⟩
  | assert term => exact Term.everyAtom_tree term named
  | push frames | pop frames =>
    exact (Sexp.everyAtom_atom _ []).mpr ⟨(Term.wellFormed_decimal frames).isAtom, Sexp.everyAtom_nil⟩
  | _ => exact Sexp.everyAtom_nil

theorem readAll_text {command : Command} {tree : Sexp} (written : command.tree? = some tree)
    (named : ∀ name ∈ command.names, Sexp.IsAtom name) :
    Sexp.readAll command.text = .ok [tree] := by
  have atoms : Sexp.EveryAtom Sexp.IsAtom [tree] := by
    obtain ⟨keyword, begins, rfl⟩ := Option.map_eq_some_iff.mp written
    rw [Sexp.everyAtom_list, Sexp.everyAtom_atom]
    exact ⟨⟨isAtom_keyword begins, everyAtom_operands named⟩, Sexp.everyAtom_nil⟩
  rw [Sexp.readAll, text, String.toList_ofList, ← chars_tree written]
  exact Sexp.readAllChars_chars atoms

end Command

end SmtSession

import SmtSession.Proofs.Congruence
import SmtSession.Proofs.Literals
import SmtSession.SolverOption

namespace SmtSession

def UnaryOp.all : List UnaryOp := [.not, .bvNeg, .bvNot, .intNeg, .strLen]

/-- Without the equivalence, which is written as an equality is. -/
def BinaryOp.all : List BinaryOp :=
  [.implies, .eq, .strPrefixOf, .strContains] ++
    [BvOp.add, .sub, .mul, .udiv, .urem, .and, .or, .xor].map .bv ++
    [BvOrder.ult, .ule, .ugt, .uge, .slt, .sle].map .bvOrder ++
    [IntOp.add, .sub, .mul, .div, .mod].map .int ++
    [IntOrder.lt, .le, .gt, .ge].map .intOrder

def NaryOp.all : List NaryOp := [.and, .or, .distinct, .strConcat]

def UnaryOp.ofSymbol? (symbol : String) : Option UnaryOp := all.find? (·.symbol = symbol)

def BinaryOp.ofSymbol? (symbol : String) : Option BinaryOp := all.find? (·.symbol = symbol)

def NaryOp.ofSymbol? (symbol : String) : Option NaryOp := all.find? (·.symbol = symbol)

/-- The operator that the symbol of an operator is read as. -/
def BinaryOp.readAs : BinaryOp → BinaryOp
  | .iff => .eq
  | op => op

namespace Term

/-- The term that an atom is read as: a number, a string, a truth value, or else a constant. -/
def ofAtom? (name : String) : Option Term :=
  match Numeral.digits? 10 name.toList with
  | some n => (Int128.ofInt? n).map .intLit
  | none =>
    match StringLiteral.decode? name.toList with
    | some cs => some (.stringLit (String.ofList cs))
    | none =>
      if name = "true" then some (.boolLit true)
      else if name = "false" then some (.boolLit false)
      else some (.const name)

/-- The literals that are written as applications: negative numbers and bitvectors. -/
def ofLiteral? (head : String) : List Sexp → Option Term
  | [.atom numeral] =>
    if head = "-" then
      (Numeral.digits? 10 numeral.toList).bind fun n => (Int128.ofInt? (-n)).map .intLit
    else none
  | [.atom number, .atom width] =>
    if head = "_" then
      (Numeral.digits? 10 (number.toList.drop 2)).bind fun n =>
        (Numeral.uint32? width.toList).map (.bitVecLit (.ofBits (BitVec.ofNat 128 n)))
    else none
  | _ => none

def ofOperands? (head : String) (args : List Term) : Option Term :=
  match NaryOp.ofSymbol? head with
  | some op => some (.nary op args)
  | none =>
    match args with
    | [arg] => (UnaryOp.ofSymbol? head).map (.unary · arg)
    | [left, right] => (BinaryOp.ofSymbol? head).map (.binary · left right)
    | [condition, onTrue, onFalse] =>
      if head = "ite" then some (.ite condition onTrue onFalse) else none
    | _ => none

mutual
def ofTree? : Sexp → Option Term
  | .atom name => ofAtom? name
  | .list (.atom head :: args) =>
    match ofLiteral? head args with
    | some literal => some literal
    | none => (ofTrees? args).bind (ofOperands? head)
  | .list _ => none

def ofTrees? : List Sexp → Option (List Term)
  | [] => some []
  | arg :: rest => (ofTree? arg).bind fun term => (ofTrees? rest).map (term :: ·)
end

mutual
def isInterpreted : Term → Bool
  | .boolLit _ | .intLit _ | .bitVecLit .. | .stringLit _ | .const _ => true
  | .unary _ arg => arg.isInterpreted
  | .binary _ left right => left.isInterpreted && right.isInterpreted
  | .ite condition onTrue onFalse =>
    condition.isInterpreted && onTrue.isInterpreted && onFalse.isInterpreted
  | .nary _ args => areInterpreted args
  | .app .. => false

def areInterpreted : List Term → Bool
  | [] => true
  | arg :: rest => arg.isInterpreted && areInterpreted rest
end

end Term

/-! ### Symbols -/

theorem UnaryOp.ofSymbol?_symbol (op : UnaryOp) : ofSymbol? op.symbol = some op := by
  cases op <;> rfl

theorem BinaryOp.symbol_readAs (op : BinaryOp) : op.readAs.symbol = op.symbol := by
  cases op <;> rfl

theorem BinaryOp.readAs_mem (op : BinaryOp) : op.readAs ∈ all := by
  cases op with
  | bv op => cases op <;> decide
  | bvOrder op => cases op <;> decide
  | int op => cases op <;> decide
  | intOrder op => cases op <;> decide
  | implies | iff | eq | strPrefixOf | strContains => decide

theorem BinaryOp.ofSymbol?_symbol (op : BinaryOp) : ofSymbol? op.symbol = some op.readAs := by
  have every : ∀ op ∈ all, ofSymbol? op.symbol = some op := by decide
  rw [← op.symbol_readAs]
  exact every op.readAs op.readAs_mem

theorem NaryOp.ofSymbol?_symbol (op : NaryOp) : ofSymbol? op.symbol = some op := by
  cases op <;> rfl

theorem NaryOp.ofSymbol?_unary (op : UnaryOp) : ofSymbol? op.symbol = none := by
  cases op <;> rfl

theorem NaryOp.ofSymbol?_binary (op : BinaryOp) : ofSymbol? op.symbol = none := by
  have every : ∀ op ∈ BinaryOp.all, ofSymbol? op.symbol = none := by decide
  rw [← op.symbol_readAs]
  exact every op.readAs op.readAs_mem

theorem BinaryOp.symbol_ne_index (op : BinaryOp) : op.symbol ≠ "_" := by
  have every : ∀ op ∈ all, op.symbol ≠ "_" := by decide
  rw [← op.symbol_readAs]
  exact every op.readAs op.readAs_mem

/-! ### Atoms -/

namespace Numeral

theorem isDigit_of_digitValue? {c : Char} {d : Nat} (worth : digitValue? 10 c = some d) :
    c.isDigit = true := by
  by_contra other
  have digit : ¬('0' ≤ c ∧ c ≤ '9') := by
    rintro ⟨lower, upper⟩
    apply other
    rw [Char.isDigit, Bool.and_eq_true, decide_eq_true_eq, decide_eq_true_eq]
    exact ⟨lower, upper⟩
  unfold digitValue? at worth
  rw [if_neg digit, if_neg] at worth
  · cases worth
  · split
    · omega
    · split <;> omega

theorem digits?_decimal (n : Nat) : digits? 10 (decimal n) = some n :=
  digits?_toDigits (by decide) (by decide) n

theorem digits?_eq_none {c : Char} (rest : List Char) (other : c.isDigit = false) :
    digits? 10 (c :: rest) = none := by
  have worthless : digitValue? 10 c = none := by
    cases worth : digitValue? 10 c with
    | none => rfl
    | some d =>
      rw [isDigit_of_digitValue? worth] at other
      cases other
  simp [digits?, digitsFrom?, worthless]

end Numeral

theorem StringLiteral.decode?_eq_none {c : Char} (rest : List Char) (other : c ≠ '"') :
    decode? (c :: rest) = none := by
  have unquoted : Text.between? ['"'] ['"'] (c :: rest) = none := by
    simp [Text.between?, List.isPrefixOf?, other.symm]
  rw [decode?, unquoted, Option.bind_none]

theorem Int128.bits_ofBits (b : BitVec 128) : (Int128.ofBits b).bits = b := by
  apply BitVec.eq_of_toInt_eq
  simp only [bits, ofBits, wrap, BitVec.toInt_ofInt]
  exact (congrArg (Int.bmod · _) b.toInt_bmod_cancel).trans b.toInt_bmod_cancel

theorem isSymbolChar_plain {c : Char} (plain : isSymbolChar c = true) :
    Sexp.Lexer.endsWord c = false ∧ c ≠ '|' := by
  simp only [isSymbolChar, Bool.or_eq_true] at plain
  rcases plain with letter | special
  · have ranges : c.isAlphanum = ((decide (65 ≤ c.val ∧ c.val ≤ 90) ||
        97 ≤ c.val && c.val ≤ 122) || 48 ≤ c.val && c.val ≤ 57) := rfl
    have inside : (65 ≤ c.toNat ∧ c.toNat ≤ 90 ∨ 97 ≤ c.toNat ∧ c.toNat ≤ 122) ∨
        48 ≤ c.toNat ∧ c.toNat ≤ 57 := by
      simp only [ranges, Bool.or_eq_true, Bool.and_eq_true, decide_eq_true_eq,
        UInt32.le_iff_toNat_le] at letter
      exact letter
    have other (d : Char) (outside : d.toNat < 48 ∨ d.toNat = 59 ∨ 122 < d.toNat) : c ≠ d := by
      rintro rfl
      omega
    have dark : Text.isBlank c = false := by
      simp only [Text.isBlank, Bool.or_eq_false_iff, Bool.and_eq_false_iff, decide_eq_false_iff_not,
        beq_eq_false_iff_ne]
      omega
    have opening := other '(' (by decide)
    have closing := other ')' (by decide)
    have quote := other '"' (by decide)
    have semicolon := other ';' (by decide)
    exact ⟨by simp [Sexp.Lexer.endsWord, opening, closing, quote, semicolon, dark],
      other '|' (by decide)⟩
  · have plain : "~!@$%^&*_-+=<>.?/".toList.all
        (fun c => !Sexp.Lexer.endsWord c && c != '|') = true := rfl
    simpa using List.all_eq_true.mp plain c (List.contains_iff_mem.mp special)

/-- A name that is written like no literal: a simple symbol other than the truth values. -/
def IsConstantName (name : String) : Prop := isSymbol name = true ∧ name ≠ "true" ∧ name ≠ "false"

instance (name : String) : Decidable (IsConstantName name) :=
  inferInstanceAs (Decidable (isSymbol name = true ∧ name ≠ "true" ∧ name ≠ "false"))

namespace IsConstantName

variable {name : String}

theorem isBareWord (named : IsConstantName name) : Sexp.IsBareWord name.toList := by
  obtain ⟨symbol, _⟩ := named
  unfold isSymbol at symbol
  rcases chars : name.toList with _ | ⟨first, rest⟩
  · rw [chars] at symbol
    cases symbol
  · simp only [chars, Bool.and_eq_true, List.all_eq_true] at symbol
    exact ⟨List.cons_ne_nil first rest, fun c member => isSymbolChar_plain (symbol.2 c member)⟩

theorem isAtom (named : IsConstantName name) : Sexp.IsAtom name :=
  (Sexp.WellFormed.word named.isBareWord).isAtom

theorem ofAtom? (named : IsConstantName name) : Term.ofAtom? name = some (.const name) := by
  obtain ⟨symbol, notTrue, notFalse⟩ := named
  unfold isSymbol at symbol
  unfold Term.ofAtom?
  rcases chars : name.toList with _ | ⟨first, rest⟩
  · rw [chars] at symbol
    cases symbol
  · simp only [chars, Bool.and_eq_true, Bool.not_eq_true', List.all_eq_true] at symbol
    obtain ⟨noDigit, plain⟩ := symbol
    have unquoted : first ≠ '"' := by
      rintro rfl
      exact absurd (plain '"' List.mem_cons_self) (by decide)
    simp only [Numeral.digits?_eq_none rest noDigit, StringLiteral.decode?_eq_none rest unquoted,
      notTrue, notFalse, ↓reduceIte]

end IsConstantName

namespace Term

theorem ofAtom?_numeral (n : Nat) :
    ofAtom? (String.ofList (Numeral.decimal n)) = (Int128.ofInt? n).map .intLit := by
  rw [ofAtom?, String.toList_ofList, Numeral.digits?_decimal]

theorem ofAtom?_string (value : String) :
    ofAtom? (String.ofList (StringLiteral.encode value.toList)) = some (.stringLit value) := by
  have noNumber : Numeral.digits? 10 (StringLiteral.encode value.toList) = none :=
    Numeral.digits?_eq_none _ rfl
  rw [ofAtom?, String.toList_ofList, noNumber, StringLiteral.decode?_encode]
  simp

theorem ofAtom?_bool (value : Bool) :
    ofAtom? (if value then "true" else "false") = some (.boolLit value) := by
  cases value <;> rfl

/-! ### Trees -/

theorem ofTree?_atom (name : String) : ofTree? (.atom name) = ofAtom? name := by rw [ofTree?]

theorem ofTree?_list (head : String) (args : List Sexp) : ofTree? (.list (.atom head :: args)) =
    match ofLiteral? head args with
    | some literal => some literal
    | none => (ofTrees? args).bind (ofOperands? head) := by rw [ofTree?]

theorem ofTrees?_cons (arg : Sexp) (rest : List Sexp) : ofTrees? (arg :: rest) =
    (ofTree? arg).bind fun term => (ofTrees? rest).map (term :: ·) := by rw [ofTrees?]

theorem ofLiteral?_eq_none {head : String} {args : List Sexp} (noIndex : head ≠ "_")
    (noSign : head = "-" → args.length ≠ 1) : ofLiteral? head args = none := by
  unfold ofLiteral?
  split
  · rw [if_neg (fun minus => noSign minus rfl)]
  · rw [if_neg noIndex]
  · rfl

/-- What is read as a literal behind a minus sign is the negation of what it is read as without. -/
theorem ofLiteral?_minus {arg : Sexp} {literal full : Term}
    (read : ofLiteral? "-" [arg] = some literal) (operand : ofTree? arg = some full) :
    ∃ n m : Int128, full = .intLit n ∧ literal = .intLit m ∧ m.val = -n.val := by
  cases arg with
  | list items => cases read
  | atom numeral =>
    simp only [ofLiteral?, ↓reduceIte, Option.bind_eq_some_iff, Option.map_eq_some_iff] at read
    obtain ⟨k, digits, m, negated, rfl⟩ := read
    rw [ofTree?_atom, ofAtom?, digits, Option.map_eq_some_iff] at operand
    obtain ⟨n, held, rfl⟩ := operand
    refine ⟨n, m, rfl, rfl, ?_⟩
    rw [Int128.ofInt?_eq_some_iff.mp held, Int128.ofInt?_eq_some_iff.mp negated]

theorem ofTree?_intTree (value : Int128) : ofTree? (intTree value) = some (.intLit value) := by
  unfold intTree
  by_cases negative : value.val < 0
  · have same : -(value.val.natAbs : Int) = value.val := by omega
    rw [if_pos negative, ofTree?_list]
    simp only [ofLiteral?, Numeral.atom, ↓reduceIte, String.toList_ofList, Numeral.digits?_decimal,
      Option.bind_some, same, Int128.ofInt?_val, Option.map_some]
  · have same : (value.val.natAbs : Int) = value.val := by omega
    rw [if_neg negative, Numeral.atom, ofTree?_atom, ofAtom?_numeral, same, Int128.ofInt?_val]
    rfl

theorem ofTree?_bitVecTree (value : Int128) (width : UInt32) :
    ofTree? (bitVecTree value width) =
      some (.bitVecLit (.ofBits (value.bits &&& Width.mask width)) width) := by
  have cut : ("bv".toList ++ Numeral.decimal (value.bits &&& Width.mask width).toNat).drop 2 =
    Numeral.decimal (value.bits &&& Width.mask width).toNat := rfl
  rw [bitVecTree, indexedTree, ofTree?_list]
  simp only [ofLiteral?, Numeral.atom, ↓reduceIte, String.toList_ofList, cut,
    Numeral.digits?_decimal, Numeral.uint32?_decimal, Option.bind_some, Option.map_some,
    BitVec.ofNat_toNat, BitVec.setWidth_eq]

theorem Covers.residue (value : Int128) (width : UInt32) :
    Covers (.bitVecLit (.ofBits (value.bits &&& Width.mask width)) width)
      (.bitVecLit value width) := by
  intro env result given
  rw [← given]
  simp only [eval, Int128.bits_ofBits, BitVec.and_assoc, BitVec.and_self]

theorem Covers.negation {arg : Term} {n m : Int128} (covers : Covers (.intLit n) arg)
    (negated : m.val = -n.val) : Covers (.intLit m) (.unary .intNeg arg) := by
  intro env value given
  have folded : Covers (.unary .intNeg (.intLit n)) (.unary .intNeg arg) := covers.unary .intNeg
  have number : (Term.unary .intNeg (.intLit n)).eval env = .ok (.int m) := by
    have held : Int128.ofInt? (-n.val) = some m := Int128.ofInt?_eq_some_iff.mpr negated
    rw [eval_unary, eval, ok_bind, UnaryOp.apply_intNeg, held]
    rfl
  rw [← folded env value given, number]
  rfl

theorem ofTree?_nullaryTree (op : NaryOp) :
    ∃ full, ofTree? (nullaryTree op) = some full ∧ Covers full (.nary op []) := by
  cases op with
  | and => exact ⟨.boolLit true, rfl, fun _ _ given => given⟩
  | or => exact ⟨.boolLit false, rfl, fun _ _ given => given⟩
  | distinct => exact ⟨.nary .distinct [], rfl, .refl _⟩
  | strConcat => exact ⟨.stringLit "", rfl, fun _ _ given => given⟩

theorem ofTree?_unary {op : UnaryOp} {arg full : Term} (read : ofTree? arg.tree = some full)
    (covers : Covers full arg) : ∃ whole, ofTree? (Term.unary op arg).tree = some whole ∧
      Covers whole (.unary op arg) := by
  have operands : ofTrees? [arg.tree] = some [full] := by
    rw [ofTrees?_cons, read]
    rfl
  have applied : ofOperands? op.symbol [full] = some (.unary op full) := by
    simp only [ofOperands?, NaryOp.ofSymbol?_unary, UnaryOp.ofSymbol?_symbol, Option.map_some]
  rw [tree, ofTree?_list]
  cases literal : ofLiteral? op.symbol [arg.tree] with
  | none =>
    rw [operands]
    exact ⟨_, applied, covers.unary op⟩
  | some number =>
    have minus : op = .intNeg := by
      by_contra other
      rw [ofLiteral?_eq_none] at literal
      · cases literal
      · cases op <;> decide
      · intro minus
        cases op <;> first | exact absurd minus (by decide) | exact absurd rfl other
    subst minus
    obtain ⟨n, m, rfl, rfl, negated⟩ := ofLiteral?_minus literal read
    exact ⟨.intLit m, rfl, covers.negation negated⟩

theorem ofTree?_binary {op : BinaryOp} {left right left' right' : Term}
    (readLeft : ofTree? left'.tree = some left) (readRight : ofTree? right'.tree = some right) :
    ofTree? (Term.binary op left' right').tree = some (.binary op.readAs left right) := by
  have literal : ofLiteral? op.symbol [left'.tree, right'.tree] = none :=
    ofLiteral?_eq_none op.symbol_ne_index (fun _ => by simp)
  rw [tree, ofTree?_list, literal]
  simp only [readLeft, readRight, ofTrees?, ofOperands?, NaryOp.ofSymbol?_binary,
    BinaryOp.ofSymbol?_symbol, Option.bind_some, Option.map_some]

theorem Covers.readAs {op : BinaryOp} {left right left' right' : Term}
    (first : Covers left left') (second : Covers right right') :
    Covers (.binary op.readAs left right) (.binary op left' right') := by
  cases op with
  | iff => exact first.iff second
  | _ => exact .binary _ first second

mutual
/-- A term is read back as one that has all of its values. -/
theorem ofTree?_tree : (term : Term) → term.isInterpreted = true →
    (∀ name ∈ term.names, IsConstantName name) →
    ∃ full, ofTree? term.tree = some full ∧ Covers full term
  | .boolLit value, _, _ => ⟨.boolLit value, ofAtom?_bool value, .refl _⟩
  | .intLit value, _, _ => ⟨.intLit value, ofTree?_intTree value, .refl _⟩
  | .bitVecLit value width, _, _ =>
    ⟨_, ofTree?_bitVecTree value width, Covers.residue value width⟩
  | .stringLit value, _, _ => ⟨.stringLit value, ofAtom?_string value, .refl _⟩
  | .const name, _, named => ⟨.const name, (named name List.mem_cons_self).ofAtom?, .refl _⟩
  | .unary op arg, interpreted, named => by
    obtain ⟨full, read, covers⟩ := ofTree?_tree arg interpreted named
    exact ofTree?_unary read covers
  | .binary op left right, interpreted, named => by
    simp only [isInterpreted, Bool.and_eq_true] at interpreted
    simp only [names, List.mem_append, or_imp, forall_and] at named
    obtain ⟨fullLeft, readLeft, first⟩ := ofTree?_tree left interpreted.1 named.1
    obtain ⟨fullRight, readRight, second⟩ := ofTree?_tree right interpreted.2 named.2
    exact ⟨_, ofTree?_binary readLeft readRight, first.readAs second⟩
  | .ite condition onTrue onFalse, interpreted, named => by
    simp only [isInterpreted, Bool.and_eq_true] at interpreted
    simp only [names, List.mem_append, or_imp, forall_and] at named
    obtain ⟨_, readTest, test⟩ := ofTree?_tree condition interpreted.1.1 named.1.1
    obtain ⟨_, readTrue, first⟩ := ofTree?_tree onTrue interpreted.1.2 named.1.2
    obtain ⟨_, readFalse, second⟩ := ofTree?_tree onFalse interpreted.2 named.2
    refine ⟨_, ?_, test.ite first second⟩
    rw [tree, ofTree?_list, ofLiteral?_eq_none (by decide) (fun _ => by simp)]
    simp only [readTest, readTrue, readFalse, ofTrees?, Option.bind_some,
      Option.map_some]
    rfl
  | .nary op [], _, _ => ofTree?_nullaryTree op
  | .nary op (arg :: rest), interpreted, named => by
    obtain ⟨fulls, read, covers⟩ := ofTrees?_trees (arg :: rest) interpreted named
    refine ⟨.nary op fulls, ?_, .nary op covers⟩
    have literal : ofLiteral? op.symbol (trees (arg :: rest)) = none := by
      refine ofLiteral?_eq_none ?_ (fun minus => ?_)
      · cases op <;> decide
      · cases op <;> exact absurd minus (by decide)
    rw [tree, ofTree?_list, literal, read]
    simp only [ofOperands?, NaryOp.ofSymbol?_symbol, Option.bind_some]
  | .app .., interpreted, _ => nomatch interpreted

theorem ofTrees?_trees : (args : List Term) → areInterpreted args = true →
    (∀ name ∈ namesAll args, IsConstantName name) →
    ∃ fulls, ofTrees? (trees args) = some fulls ∧ List.Forall₂ Covers fulls args
  | [], _, _ => ⟨[], rfl, .nil⟩
  | arg :: rest, interpreted, named => by
    simp only [areInterpreted, Bool.and_eq_true] at interpreted
    simp only [namesAll, List.mem_append, or_imp, forall_and] at named
    obtain ⟨full, readFirst, first⟩ := ofTree?_tree arg interpreted.1 named.1
    obtain ⟨fulls, readRest, others⟩ := ofTrees?_trees rest interpreted.2 named.2
    refine ⟨full :: fulls, ?_, .cons first others⟩
    rw [trees, ofTrees?_cons, readFirst, readRest]
    rfl
end

/-- Terms that are written alike are written as one tree. -/
theorem tree_eq_of_text {s t : Term} (same : s.text = t.text)
    (namedFirst : ∀ name ∈ s.names, Sexp.IsAtom name)
    (namedSecond : ∀ name ∈ t.names, Sexp.IsAtom name) : s.tree = t.tree := by
  have chars : s.tree.chars = t.tree.chars := by
    rw [chars_tree, chars_tree]
    exact String.ofList_injective same
  have first := Sexp.readAllChars_chars (everyAtom_tree s namedFirst)
  have second := Sexp.readAllChars_chars (everyAtom_tree t namedSecond)
  rw [chars, second] at first
  exact (List.head_eq_of_cons_eq (Except.ok.inj first)).symm

/-- Terms that are written alike have the same value wherever both have one, if they apply nothing
but the operators and name their constants by simple symbols. -/
theorem value_eq_of_text {s t : Term} {env : Assignment} {v w : Value}
    (interpretedFirst : s.isInterpreted = true) (interpretedSecond : t.isInterpreted = true)
    (namedFirst : ∀ name ∈ s.names, IsConstantName name)
    (namedSecond : ∀ name ∈ t.names, IsConstantName name) (same : s.text = t.text)
    (evalFirst : s.eval env = .ok v) (evalSecond : t.eval env = .ok w) : v = w := by
  have trees : s.tree = t.tree := tree_eq_of_text same
    (fun name member => (namedFirst name member).isAtom)
    (fun name member => (namedSecond name member).isAtom)
  obtain ⟨full, read, covers⟩ := ofTree?_tree s interpretedFirst namedFirst
  obtain ⟨full', read', covers'⟩ := ofTree?_tree t interpretedSecond namedSecond
  rw [trees, read'] at read
  cases read
  have value := covers env v evalFirst
  rw [covers' env w evalSecond] at value
  exact (Except.ok.inj value).symm

/-- An equivalence and an equality, an empty conjunction and a truth value, a negative number and a
negation are told apart in terms, but not in their text. -/
theorem sharedSpelling_value :
    let number : Int128 := ⟨-5, by decide, by decide⟩
    let s : Term := .nary .and
      [.binary .iff (.boolLit true) (.nary .and []), .binary .eq (.intLit number) (.const "x")]
    let t : Term := .nary .and
      [.binary .eq (.nary .and []) (.boolLit true),
        .binary .eq (.unary .intNeg (.intLit ⟨5, by decide, by decide⟩)) (.const "x")]
    let env : Assignment := { values := [("x", .int number)] }
    s.text = "(and (= true true) (= (- 5) x))" ∧ t.text = s.text ∧
      ∃ v w, s.eval env = .ok v ∧ t.eval env = .ok w ∧ v = w := by
  intro number s t env
  have same : s.text = t.text := by decide +kernel
  have first : s.eval env = .ok (.bool true) := rfl
  have second : t.eval env = .ok (.bool true) := rfl
  have namedFirst : ∀ name ∈ s.names, IsConstantName name := by decide
  have namedSecond : ∀ name ∈ t.names, IsConstantName name := by decide
  exact ⟨by decide +kernel, same.symm, _, _, first, second,
    value_eq_of_text rfl rfl namedFirst namedSecond same first second⟩

end Term

end SmtSession

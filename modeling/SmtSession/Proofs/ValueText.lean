import SmtSession.Proofs.Literals
import SmtSession.Proofs.Masking
import SmtSession.Proofs.Trimming
import SmtSession.Value

namespace SmtSession

namespace Text

theorem words_pair {first second : List Char} (darkFirst : IsDark first)
    (darkSecond : IsDark second) (someFirst : first ≠ [])
    (someSecond : second ≠ []) : words (' ' :: (first ++ ' ' :: second)) = [first, second] := by
  have blank : isBlank ' ' = true := rfl
  have begins := List.splitOnP_append_cons_of_forall_mem isDark_nil ' ' blank (first ++ ' ' :: second)
  have goesOn := List.splitOnP_append_cons_of_forall_mem darkFirst ' ' blank second
  rw [List.nil_append] at begins
  rw [words, begins, goesOn, List.splitOnP_eq_singleton darkSecond]
  simp [someFirst, someSecond]

end Text

namespace Numeral

theorem dark_decimal (n : Nat) : Text.IsDark (decimal n) := by
  intro c member
  have plain := (decimal_isBareWord n).2 c member
  simp only [Sexp.Lexer.endsWord, Bool.or_eq_false_iff] at plain
  exact plain.1.2

end Numeral

namespace Value

/-- The sort that a value belongs to. -/
def sort? : Value → Option SmtSort
  | .bool _ => some .bool
  | .int _ => some .int
  | .bitVec _ width => some (.bitVec width)
  | .str _ => some .string
  | .raw _ => none

/-- Values that a literal denotes: the least integer of 128 bits is none of them, since the number
after its sign is out of range, and a bitvector stays below 2 to its width. -/
def IsLiteral : Value → Prop
  | .bool _ | .str _ => True
  | .int value => value.val ≠ -0x80000000000000000000000000000000
  | .bitVec bits width => bits.toNat < 2 ^ width.toNat
  | .raw _ => False

def tree : Value → Sexp
  | .bool value => Term.boolTree value
  | .int value => Term.intTree value
  | .bitVec bits width => Term.indexedTree bits.toNat width
  | .str value => Term.stringTree value
  | .raw text => .atom text

theorem everyAtom_tree {value : Value} {sort : SmtSort} (ofSort : value.sort? = some sort) :
    Sexp.EveryAtom (Sexp.WellFormed ·.toList) [value.tree] := by
  cases value with
  | bool value => exact Term.everyAtom_boolTree (fun _ formed => formed) value
  | int value => exact Term.everyAtom_intTree (fun _ formed => formed) value
  | bitVec bits width => exact Term.everyAtom_indexedTree (fun _ formed => formed) bits.toNat width
  | str value => exact Term.everyAtom_stringTree (fun _ formed => formed) value
  | raw text => cases ofSort

theorem text_tree (value : Value) : value.tree.text = value.text := by
  unfold Sexp.text Value.text
  congr 1
  cases value with
  | bool value => exact Term.chars_boolTree value
  | int value => exact Term.chars_intTree value
  | bitVec bits width => exact Term.chars_indexedTree bits.toNat width
  | str value => exact Term.chars_stringTree value
  | raw text => exact Sexp.chars_atom text

theorem readInt?_decimal (build : Build) (n : Nat) :
    readInt? build (Numeral.decimal n) = .ok (Int128.ofInt? n) := by
  have noParenthesis : '(' ∉ Numeral.decimal n :=
    Numeral.not_mem_toDigits (by decide) (by decide) rfl n
  have unframed : Text.between? ['('] [')'] (Numeral.decimal n) = none := by
    unfold Text.between?
    generalize Numeral.decimal n = ds at noParenthesis
    cases ds with
    | nil => rfl
    | cons d ds =>
      have other : '(' ≠ d := fun same => noParenthesis (same ▸ List.mem_cons_self)
      simp [List.isPrefixOf?, other]
  rw [readInt?, unframed]
  exact congrArg Except.ok (Numeral.int128?_decimal n)

theorem readInt?_negation (build : Build) (n : Nat) :
    readInt? build ('(' :: '-' :: ' ' :: (Numeral.decimal n ++ [')'])) =
      .ok ((Int128.ofInt? n).map Int128.neg) := by
  have dark := Numeral.dark_decimal n
  have framed := Text.between?_framed ['('] ('-' :: ([' '] ++ Numeral.decimal n)) [')']
  have minus : Text.isBlank '-' = false := rfl
  have space : Text.IsBlankRun [' '] := by decide
  have trimmed := Text.trim_eq_self
    (Text.isTrimmed_between [' '] minus dark Nat.toDigits_ne_nil)
  have inner := Text.trim_framed (Text.isTrimmed_of_dark dark) space Text.isBlankRun_nil
  rw [List.append_nil] at inner
  simp only [List.cons_append, List.nil_append] at framed trimmed inner
  rw [readInt?, framed]
  simp only [trimmed, inner, Numeral.int128?_decimal]
  cases given : Int128.ofInt? n with
  | none => rfl
  | some held =>
    have same := Int128.ofInt?_eq_some_iff.mp given
    have upper := held.upper
    have inside : PlainOp.InRange (.negate held.val) := by
      show Int128.InRange (-held.val)
      unfold Int128.InRange
      omega
    exact PlainOp.perform_eq_ok build inside _

theorem readInt?_intChars (build : Build) {value : Int128}
    (literal : value.val ≠ -0x80000000000000000000000000000000) :
    readInt? build (Term.intChars value) = .ok (some value) := by
  have lower := value.lower
  have upper := value.upper
  rw [Term.intChars_eq]
  by_cases negative : value.val < 0
  · have positive : Int128.ofInt? value.val.natAbs =
        some ⟨value.val.natAbs, by omega, by omega⟩ := Int128.ofInt?_eq_some_iff.mpr rfl
    have negated : Int128.neg ⟨value.val.natAbs, by omega, by omega⟩ = value := by
      apply Int128.ext
      show (-(value.val.natAbs : Int)).bmod 0x100000000000000000000000000000000 = value.val
      rw [Int.bmod_eq_of_le] <;> omega
    rw [if_pos negative]
    simp only [List.cons_append, List.nil_append]
    rw [readInt?_negation, positive, Option.map_some, negated]
  · have itself : (value.val.natAbs : Int) = value.val := by omega
    rw [if_neg negative, readInt?_decimal, itself, Int128.ofInt?_val]

theorem readBitVec?_indexedChars {n : Nat} (width : UInt32) (inside : n < Int128.size) :
    readBitVec? width (Term.indexedChars n width) = some n := by
  have dark : Text.IsDark ('b' :: 'v' :: Numeral.decimal n) := by
    intro c member
    rcases List.mem_cons.mp member with rfl | member
    · rfl
    · rcases List.mem_cons.mp member with rfl | member
      · rfl
      · exact Numeral.dark_decimal n c member
  have framed := Text.between?_framed ['(', '_']
    (' ' :: ('b' :: 'v' :: Numeral.decimal n ++ ' ' :: Numeral.decimal width.toNat)) [')']
  have words := Text.words_pair dark (Numeral.dark_decimal width.toNat) (List.cons_ne_nil _ _)
    Nat.toDigits_ne_nil
  have number : Numeral.below? 10 Int128.size (Numeral.decimal n) = some n :=
    Numeral.below?_toDigits (by decide) (by decide) rfl inside
  have indexed : readIndexed? (Term.indexedChars n width) = some (n, width) := by
    have split : Term.indexedChars n width = ['(', '_'] ++
        (' ' :: ('b' :: 'v' :: Numeral.decimal n ++ ' ' :: Numeral.decimal width.toNat) ++ [')']) := by
      simp [Term.indexedChars_eq]
    have cut : Text.between? "(_".toList [')'] (Term.indexedChars n width) = _ :=
      (congrArg _ split).trans framed
    rw [readIndexed?, cut, Option.map_some, words]
    simp only [number, Numeral.uint32?_decimal]
  have begins : Term.indexedChars n width = '(' :: (Term.indexedChars n width).tail := rfl
  have other : readBitVec? width (Term.indexedChars n width) =
      (readIndexed? (Term.indexedChars n width)).bind fun read =>
        if read.2 = width then some read.1 else none := by
    rw [begins]
    rfl
  rw [other, indexed]
  simp

theorem readTrimmed?_chars (build : Build) {value : Value} {sort : SmtSort}
    (ofSort : value.sort? = some sort) (literal : value.IsLiteral) :
    readTrimmed? build value.chars sort = .ok (some value) := by
  cases value with
  | bool value =>
    cases ofSort
    cases value <;> rfl
  | int value =>
    cases ofSort
    rw [readTrimmed?, chars, readInt?_intChars build literal]
    rfl
  | bitVec bits width =>
    cases ofSort
    rw [readTrimmed?, chars, readBitVec?_indexedChars width bits.isLt, Option.map_some,
      BitVec.ofNat_toNat, BitVec.setWidth_eq, Width.and_mask_eq_self literal]
  | str value =>
    cases ofSort
    rw [readTrimmed?, chars, StringLiteral.decode?_encode, Option.map_some, String.ofList_toList]
  | raw text => cases ofSort

theorem isTrimmed_chars {value : Value} {sort : SmtSort} (ofSort : value.sort? = some sort) :
    Text.IsTrimmed value.chars := by
  have quote : Text.isBlank '"' = false := rfl
  have parenthesis : Text.isBlank '(' = false := rfl
  have closing : Text.IsDark [')'] := by decide
  cases value with
  | bool value => cases value <;> exact Text.isTrimmed_of_dark (by decide)
  | int value =>
    rw [chars, Term.intChars_eq]
    split
    · exact Text.isTrimmed_between _ parenthesis (by decide) (List.cons_ne_nil _ _)
    · exact Text.isTrimmed_of_dark (Numeral.dark_decimal _)
  | bitVec bits width =>
    rw [chars, Term.indexedChars_eq]
    exact Text.isTrimmed_between _ parenthesis closing (List.cons_ne_nil _ _)
  | str value => exact Text.isTrimmed_between _ quote (by decide) (List.cons_ne_nil _ _)
  | raw text => cases ofSort

theorem read_text (build : Build) {value : Value} {sort : SmtSort}
    (ofSort : value.sort? = some sort) (literal : value.IsLiteral) :
    read build value.text sort = .ok value := by
  rw [read, text, String.toList_ofList, Text.trim_eq_self (isTrimmed_chars ofSort),
    readTrimmed?_chars build ofSort literal]
  rfl

end Value

end SmtSession

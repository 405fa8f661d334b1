import Mathlib.Data.Nat.Digits.Lemmas
import SmtSession.Proofs.Acceptance
import SmtSession.Proofs.ValueText

namespace SmtSession

namespace Numeral

variable {radix : Nat}

def smallDigits : List Char := "0123456789abcdef".toList

def capitalDigits : List Char := "0123456789ABCDEF".toList

/-- What a digit is worth; 16 where the character is no digit. -/
def worth (c : Char) : Nat := min (smallDigits.idxOf c) (capitalDigits.idxOf c)

/-- One digit or more to the base. -/
structure IsDigits (radix : Nat) (cs : List Char) : Prop where
  some : cs ≠ []
  small : ∀ c ∈ cs, worth c < radix

def number (radix : Nat) (cs : List Char) : Nat := Nat.ofDigits radix (cs.map worth).reverse

instance (radix : Nat) (cs : List Char) : Decidable (IsDigits radix cs) :=
  decidable_of_iff (cs ≠ [] ∧ cs.all (worth · < radix) = true) (by
    simp only [List.all_eq_true, decide_eq_true_eq]
    exact ⟨fun both => ⟨both.1, both.2⟩, fun digits => ⟨digits.some, digits.small⟩⟩)

theorem mem_digits_of_worth {c : Char} (digit : worth c < 16) :
    c ∈ smallDigits ++ capitalDigits := by
  rw [worth, min_lt_iff] at digit
  rw [List.mem_append]
  exact digit.imp List.idxOf_lt_length_iff.mp List.idxOf_lt_length_iff.mp

theorem digitValue?_eq_worth (narrow : radix ≤ 16) {c : Char} (small : worth c < radix) :
    digitValue? radix c = some (worth c) := by
  have table : (smallDigits ++ capitalDigits).all (fun c => (List.range 17).all fun radix =>
      worth c < radix → digitValue? radix c = some (worth c)) = true := by decide +kernel
  have row := List.all_eq_true.mp table c (mem_digits_of_worth (by omega))
  have entry := List.all_eq_true.mp row radix (List.mem_range.mpr (by omega))
  exact of_decide_eq_true entry small

theorem digitsFrom?_eq (narrow : radix ≤ 16) {cs : List Char}
    (small : ∀ c ∈ cs, worth c < radix) (start : Nat) :
    digitsFrom? radix start cs = some (radix ^ cs.length * start + number radix cs) := by
  induction cs generalizing start with
  | nil => simp [digitsFrom?, number]
  | cons c rest ih =>
    rw [digitsFrom?, digitValue?_eq_worth narrow (small c List.mem_cons_self), Option.bind_some,
      ih (fun d member => small d (List.mem_cons_of_mem c member))]
    have first : number radix (c :: rest) = number radix rest + radix ^ rest.length * worth c := by
      rw [number, List.map_cons, Nat.ofDigits_reverse_cons, List.length_map, number]
    rw [first, List.length_cons]
    congr 1
    ring

theorem digits?_eq_number (narrow : radix ≤ 16) {cs : List Char} (digits : IsDigits radix cs) :
    digits? radix cs = some (number radix cs) := by
  rw [digits?, if_neg (by simp [digits.some]), digitsFrom?_eq narrow digits.small]
  simp

theorem IsDigits.withoutPlus_eq (narrow : radix ≤ 16) {cs : List Char}
    (digits : IsDigits radix cs) : withoutPlus cs = cs := by
  refine withoutPlus_eq_self ?_
  intro plus
  have small := digits.small '+' plus
  have worthless : worth '+' = 16 := by decide
  omega

theorem below?_digits (narrow : radix ≤ 16) {cs : List Char} (digits : IsDigits radix cs)
    (bound : Nat) : below? radix bound cs =
      if number radix cs < bound then some (number radix cs) else none := by
  rw [below?, digits.withoutPlus_eq narrow, digits?_eq_number narrow digits, Option.filter_some]
  simp

theorem IsDigits.number_lt (large : 1 < radix) {cs : List Char} (digits : IsDigits radix cs) :
    number radix cs < radix ^ cs.length := by
  have bound := Nat.ofDigits_lt_base_pow_length large (l := (cs.map worth).reverse) (by
    intro d member
    obtain ⟨c, among, rfl⟩ := List.mem_map.mp (List.mem_reverse.mp member)
    exact digits.small c among)
  simpa [number] using bound

theorem IsDigits.dark (narrow : radix ≤ 16) {cs : List Char} (digits : IsDigits radix cs) :
    Text.IsDark cs := by
  intro c member
  have plain : Text.IsDark (smallDigits ++ capitalDigits) := by decide
  exact plain c (mem_digits_of_worth (Nat.lt_of_lt_of_le (digits.small c member) narrow))

end Numeral

namespace Text

theorem words_blank (rest : List Char) {lead : List Char} (blank : IsBlankRun lead) :
    words (lead ++ rest) = words rest := by
  induction lead with
  | nil => rfl
  | cons c lead ih =>
    have white : isBlank c = true := blank c List.mem_cons_self
    have begins := List.splitOnP_append_cons_of_forall_mem isDark_nil c white (lead ++ rest)
    rw [List.nil_append] at begins
    rw [List.cons_append, words, begins]
    exact ih fun d member => blank d (List.mem_cons_of_mem c member)

theorem words_cons {word gap : List Char} (rest : List Char) (dark : IsDark word)
    (some : word ≠ []) (blank : IsBlankRun gap) (ends : gap ≠ []) :
    words (word ++ (gap ++ rest)) = word :: words rest := by
  cases gap with
  | nil => exact absurd rfl ends
  | cons c gap =>
    have white : isBlank c = true := blank c List.mem_cons_self
    have cut := List.splitOnP_append_cons_of_forall_mem dark c white (gap ++ rest)
    have later : words (gap ++ rest) = words rest :=
      words_blank rest fun d member => blank d (List.mem_cons_of_mem c member)
    rw [List.cons_append, words, cut, ← later]
    simp [words, some]

theorem words_last {word trail : List Char} (dark : IsDark word) (some : word ≠ [])
    (blank : IsBlankRun trail) : words (word ++ trail) = [word] := by
  by_cases ends : trail = []
  · rw [ends, List.append_nil, words, List.splitOnP_eq_singleton dark]
    simp [some]
  · have cut := words_cons [] dark some blank ends
    rwa [List.append_nil] at cut

end Text

theorem Width.ofNat_and_mask {number : Nat} (inside : number < Int128.size) (width : UInt32) :
    BitVec.ofNat 128 number &&& mask width = BitVec.ofNat 128 (number % 2 ^ width.toNat) := by
  have cut : number % 2 ^ width.toNat < 2 ^ 128 :=
    Nat.lt_of_le_of_lt (Nat.mod_le number (2 ^ width.toNat)) inside
  apply BitVec.eq_of_toNat_eq
  rw [toNat_and_mask, BitVec.toNat_ofNat, BitVec.toNat_ofNat, Nat.mod_eq_of_lt inside,
    Nat.mod_eq_of_lt cut]

namespace Value

/-- The notations of a bitvector. -/
inductive BitVecNotation where
  | hexadecimal
  | binary
  | indexed
  deriving DecidableEq

/-- `Notates cs form number stated`: the text is the number in that notation, which states the
width: four bits for each hexadecimal digit, one for each binary digit, or the index. -/
inductive Notates : List Char → BitVecNotation → Nat → Nat → Prop where
  | hexadecimal {digits : List Char} : Numeral.IsDigits 16 digits →
      Notates ("#x".toList ++ digits) .hexadecimal (Numeral.number 16 digits) (4 * digits.length)
  | binary {digits : List Char} : Numeral.IsDigits 2 digits →
      Notates ("#b".toList ++ digits) .binary (Numeral.number 2 digits) digits.length
  | indexed {lead digits gap index trail : List Char} : lead ≠ [] → Text.IsBlankRun lead →
      Numeral.IsDigits 10 digits → gap ≠ [] → Text.IsBlankRun gap → Numeral.IsDigits 10 index →
      Text.IsBlankRun trail →
      Notates ("(_".toList ++ lead ++ "bv".toList ++ digits ++ gap ++ index ++ trail ++ [')'])
        .indexed (Numeral.number 10 digits) (Numeral.number 10 index)

variable {cs : List Char} {form : BitVecNotation} {number stated : Nat}

/-- A text in digits is a number below 2 to the width that it states. -/
theorem Notates.number_lt (notated : Notates cs form number stated) (digital : form ≠ .indexed) :
    number < 2 ^ stated := by
  cases notated with
  | hexadecimal digits =>
    have bound := digits.number_lt (by decide)
    rwa [show 16 = 2 ^ 4 from rfl, ← Nat.pow_mul] at bound
  | binary digits => exact digits.number_lt (by decide)
  | indexed => exact absurd rfl digital

theorem readIndexed?_indexed {lead digits gap index trail : List Char}
    (blankLead : Text.IsBlankRun lead) (decimal : Numeral.IsDigits 10 digits) (apart : gap ≠ [])
    (blankGap : Text.IsBlankRun gap) (decimalIndex : Numeral.IsDigits 10 index)
    (blankTrail : Text.IsBlankRun trail) :
    readIndexed? ("(_".toList ++ lead ++ "bv".toList ++ digits ++ gap ++ index ++ trail ++ [')']) =
      if Numeral.number 10 digits < Int128.size ∧ Numeral.number 10 index < UInt32.size then
        some (Numeral.number 10 digits, UInt32.ofNat (Numeral.number 10 index))
      else none := by
  have prefixed : Text.IsDark ("bv".toList ++ digits) := by
    intro c member
    rcases List.mem_append.mp member with letter | digit
    · exact (by decide : Text.IsDark "bv".toList) c letter
    · exact decimal.dark (by decide) c digit
  have framed := Text.between?_framed "(_".toList
    (lead ++ (("bv".toList ++ digits) ++ (gap ++ (index ++ trail)))) [')']
  have words : Text.words (lead ++ (("bv".toList ++ digits) ++ (gap ++ (index ++ trail)))) =
      ["bv".toList ++ digits, index] := by
    rw [Text.words_blank _ blankLead, Text.words_cons _ prefixed (by simp) blankGap apart,
      Text.words_last (decimalIndex.dark (by decide)) decimalIndex.some blankTrail]
  simp only [List.append_assoc] at framed words ⊢
  rw [readIndexed?, framed, Option.map_some, words]
  have number := Numeral.below?_digits (by decide) decimal Int128.size
  have width := Numeral.below?_digits (by decide) decimalIndex UInt32.size
  by_cases inside : Numeral.number 10 digits < Int128.size
  · rw [if_pos inside] at number
    by_cases short : Numeral.number 10 index < UInt32.size
    · rw [if_pos short] at width
      simp [number, Numeral.uint32?, width, inside, short]
    · rw [if_neg short] at width
      simp [number, Numeral.uint32?, width, short]
  · rw [if_neg inside] at number
    simp [number, inside]

/-- Digits are read at any width, the indexed form at the width that it states. -/
theorem readBitVec?_notated (notated : Notates cs form number stated) (width : UInt32) :
    readBitVec? width cs =
      if number < Int128.size ∧ (form = .indexed → stated = width.toNat) then some number
      else none := by
  cases notated with
  | hexadecimal digits =>
    have read := Numeral.below?_digits (by decide) digits Int128.size
    simpa [readBitVec?, readDigits?] using read
  | binary digits =>
    have read := Numeral.below?_digits (by decide) digits Int128.size
    simpa [readBitVec?, readDigits?] using read
  | @indexed lead digits gap index trail begun blankLead decimal apart blankGap decimalIndex
      blankTrail =>
    have read := readIndexed?_indexed blankLead decimal apart blankGap decimalIndex blankTrail
    have other : readBitVec? width
        ("(_".toList ++ lead ++ "bv".toList ++ digits ++ gap ++ index ++ trail ++ [')']) =
        (readIndexed? ("(_".toList ++ lead ++ "bv".toList ++ digits ++ gap ++ index ++ trail ++
          [')'])).bind fun read => if read.2 = width then some read.1 else none := rfl
    have bound := width.toNat_lt
    rw [other, read]
    by_cases short : Numeral.number 10 index < UInt32.size
    · have same : UInt32.ofNat (Numeral.number 10 index) = width ↔
          Numeral.number 10 index = width.toNat := by
        rw [← UInt32.toNat_inj, UInt32.toNat_ofNat_of_lt' short]
      by_cases inside : Numeral.number 10 digits < Int128.size <;> simp [inside, short, same]
    · have different : Numeral.number 10 index ≠ width.toNat := by
        intro same
        exact short (same ▸ bound)
      simp [short, different]

theorem read_notated {text : String} (notated : Notates (Text.trim text.toList) form number stated)
    (width : UInt32) (build : Build) : read build text (.bitVec width) =
      .ok (if number < Int128.size ∧ (form = .indexed → stated = width.toNat) then
        .bitVec (BitVec.ofNat 128 (number % 2 ^ width.toNat)) width
      else .raw (trimmed text)) := by
  rw [read, readTrimmed?, readBitVec?_notated notated width]
  split
  · next readable =>
    rw [Option.map_some, Width.ofNat_and_mask readable.1]
    rfl
  · rfl

/-- A text in one of the notations is read at a width as its number modulo 2 to the width, unless
the number is 2¹²⁸ or more or the text is in the indexed form and states another width; then it
stays as it is. So the width that the text states is the one that it is read at exactly in the
indexed form, but for texts that are too large to be read or happen to state that width. Of digits
that state the width, none are lost. -/
theorem notated_bitVec_read {text : String} {form : BitVecNotation} {number stated : Nat}
    (notated : Notates (Text.trim text.toList) form number stated) (width : UInt32)
    (build : Build) :
    (read build text (.bitVec width) =
      .ok (if number < Int128.size ∧ (form = .indexed → stated = width.toNat) then
        .bitVec (BitVec.ofNat 128 (number % 2 ^ width.toNat)) width
      else .raw (trimmed text))) ∧
    ((∀ bits taken, read build text (.bitVec width) = .ok (.bitVec bits taken) →
        stated = width.toNat) ↔
      form = .indexed ∨ stated = width.toNat ∨ Int128.size ≤ number) ∧
    (form ≠ .indexed → stated = width.toNat → number % 2 ^ width.toNat = number) := by
  refine ⟨read_notated notated width build, ⟨?_, ?_⟩, ?_⟩
  · intro agrees
    rw [read_notated notated width] at agrees
    by_cases readable : number < Int128.size ∧ (form = .indexed → stated = width.toNat)
    · rw [if_pos readable] at agrees
      exact Or.inr (Or.inl (agrees _ _ rfl))
    · by_cases inside : number < Int128.size
      · exact Or.inl (by_contra fun digital => readable ⟨inside, fun same => absurd same digital⟩)
      · exact Or.inr (Or.inr (Nat.le_of_not_lt inside))
  · intro known bits taken found
    rw [read_notated notated width build, Except.ok.injEq] at found
    split at found
    · next readable =>
      rcases known with indexed | agrees | large
      · exact readable.2 indexed
      · exact agrees
      · exact absurd readable.1 (Nat.not_lt.mpr large)
    · cases found
  · intro digital agrees
    exact Nat.mod_eq_of_lt (agrees ▸ notated.number_lt digital)

/-- In the indexed form a number beyond the width that is stated is taken modulo 2 to the width. -/
theorem indexed_beyond_width_read :
    Notates (Text.trim "(_ bv300 8)".toList) .indexed 300 8 ∧
      read .checked "(_ bv300 8)" (.bitVec 8) = .ok (.bitVec 44 8) ∧
      read .checked "(_ bv300 8)" (.bitVec 16) = .ok (.raw "(_ bv300 8)") := by
  have notated : Notates (Text.trim "(_ bv300 8)".toList) .indexed 300 8 :=
    @Notates.indexed [' '] "300".toList [' '] "8".toList [] (by decide) (by decide) (by decide)
      (by decide) (by decide) (by decide) (by decide)
  exact ⟨notated, (notated_bitVec_read notated 8 .checked).1,
    (notated_bitVec_read notated 16 .checked).1⟩

/-- Four hexadecimal digits state sixteen bits, and are read at eight with two of them lost. -/
theorem wide_digits_are_cut :
    Notates (Text.trim "#xabcd".toList) .hexadecimal 0xabcd 16 ∧
      read .checked "#xabcd" (.bitVec 8) = .ok (.bitVec 0xcd 8) ∧
      ¬∀ (text : String) (form : BitVecNotation) (number stated : Nat) (width : UInt32),
        Notates (Text.trim text.toList) form number stated →
          (∃ bits, read .checked text (.bitVec width) = .ok (.bitVec bits width)) →
            stated = width.toNat := by
  have notated : Notates (Text.trim "#xabcd".toList) .hexadecimal 0xabcd 16 :=
    @Notates.hexadecimal "abcd".toList (by decide)
  have found : read .checked "#xabcd" (.bitVec 8) = .ok (.bitVec 0xcd 8) := by decide +kernel
  refine ⟨notated, found, ?_⟩
  intro trusted
  have agrees := trusted _ _ _ _ 8 notated ⟨_, found⟩
  exact absurd agrees (by decide)

/-- The digits after the sign of the least integer are out of range before they are negated. -/
theorem readInt?_intChars_eq (build : Build) (value : Int128) :
    readInt? build (Term.intChars value) =
      .ok (if value.val = -0x80000000000000000000000000000000 then none else some value) := by
  split
  · next least =>
    have beyond : Int128.ofInt? (value.val.natAbs : Int) = none := by
      rw [least]
      decide
    rw [Term.intChars_eq, if_pos (by omega)]
    simp only [List.cons_append, List.nil_append]
    rw [readInt?_negation, beyond, Option.map_none]
  · next literal => exact readInt?_intChars build literal

/-- An integer is printed in the same way as a term and as a value, its text is one tree that prints
it again, and what is printed is read as the integer, unless that is the least one: its text stays
as it is. -/
theorem printed_int_read (build : Build) (n : Int128) :
    (Value.int n).text = (Term.intLit n).text ∧
    ∃ tree, Sexp.read (Term.intLit n).text = .ok tree ∧
      ∀ printed ∈ [(Term.intLit n).text, (Value.int n).text, tree.text],
        read build printed .int =
          .ok (if n.val = -0x80000000000000000000000000000000 then .raw printed else .int n) := by
  have same : (Value.int n).text = (Term.intLit n).text := rfl
  have again : (Value.int n).tree.text = (Value.int n).text := text_tree (.int n)
  have whole : Sexp.read (Value.int n).text = .ok (Value.int n).tree := by
    have atoms : Sexp.EveryAtom Sexp.IsAtom [(Value.int n).tree] :=
      Term.everyAtom_intTree (fun _ formed => formed.isAtom) n
    rw [Sexp.read_eq_ok_iff, ← again, Sexp.readAll, Sexp.text, String.toList_ofList]
    exact Sexp.readAllChars_chars atoms
  have found : read build (Value.int n).text .int =
      .ok (if n.val = -0x80000000000000000000000000000000 then .raw (Value.int n).text
        else .int n) := by
    have ofSort : (Value.int n).sort? = some .int := rfl
    have trimmed := Text.trim_eq_self (isTrimmed_chars ofSort)
    rw [read, text, String.toList_ofList, trimmed, readTrimmed?, chars, readInt?_intChars_eq]
    split <;> rfl
  refine ⟨same, (Value.int n).tree, whole, ?_⟩
  intro printed member
  have one : printed = (Value.int n).text := by
    simpa [again, ← same] using member
  rw [one, found]

/-- The least integer is not read back from its text. -/
theorem least_int_not_read :
    (Term.intLit (.wrap (-0x80000000000000000000000000000000))).text =
        "(- 170141183460469231731687303715884105728)" ∧
      read .checked "(- 170141183460469231731687303715884105728)" .int =
        .ok (.raw "(- 170141183460469231731687303715884105728)") ∧
      ¬∀ n : Int128, read .checked (Term.intLit n).text .int = .ok (.int n) := by
  have printed : (Term.intLit (.wrap (-0x80000000000000000000000000000000))).text =
      "(- 170141183460469231731687303715884105728)" := by decide +kernel
  have kept : read .checked "(- 170141183460469231731687303715884105728)" .int =
      .ok (.raw "(- 170141183460469231731687303715884105728)") := by decide +kernel
  refine ⟨printed, kept, ?_⟩
  intro every
  have found := every (.wrap (-0x80000000000000000000000000000000))
  rw [printed, kept] at found
  cases found

end Value

end SmtSession

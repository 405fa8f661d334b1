import Mathlib.Data.List.TakeDrop
import SmtSession.Json.Reader
import SmtSession.Proofs.Literals

namespace SmtSession

namespace Json

/-! ### The grammar of numbers -/

def IsDigits (cs : List Char) : Prop := cs ≠ [] ∧ ∀ c ∈ cs, c.isDigit = true

theorem isDigits_singleton {c : Char} (digit : c.isDigit = true) : IsDigits [c] :=
  ⟨List.cons_ne_nil c [], List.forall_mem_singleton.mpr digit⟩

/-- An integer part: zero, or digits that do not start with a zero. -/
inductive IsWhole : List Char → Prop
  | zero : IsWhole ['0']
  | digits {c : Char} {rest : List Char} : c ≠ '0' → IsDigits (c :: rest) → IsWhole (c :: rest)

/-- A fraction behind its point, or nothing. -/
inductive IsFraction : List Char → Prop
  | none : IsFraction []
  | digits {ds : List Char} : IsDigits ds → IsFraction ('.' :: ds)

/-- An exponent behind its letter and its sign, or nothing. -/
inductive IsExponent : List Char → Prop
  | none : IsExponent []
  | signed {sign : Char} {ds : List Char} : sign = '+' ∨ sign = '-' → IsDigits ds →
      IsExponent ('e' :: sign :: ds)

inductive IsMagnitude : List Char → Prop
  | parts {whole fraction exponent : List Char} : IsWhole whole → IsFraction fraction →
      IsExponent exponent → IsMagnitude (whole ++ fraction ++ exponent)

/-- A number does not go on with the text behind it. -/
def EndsNumber (rest : List Char) : Prop :=
  ∀ c ∈ rest.head?, c.isDigit = false ∧ c ≠ '.' ∧ c ≠ 'e' ∧ c ≠ 'E'

def NoDigit (rest : List Char) : Prop := ∀ c ∈ rest.head?, c.isDigit = false

section Numbers

variable {cs whole fraction exponent rest : List Char}

theorem EndsNumber.noDigit (ends : EndsNumber rest) : NoDigit rest :=
  fun c first => (ends c first).1

theorem endsNumber_nil : EndsNumber [] := nofun

theorem endsNumber_cons {c : Char} (other : c = ',' ∨ c = ']' ∨ c = '}') (rest : List Char) :
    EndsNumber (c :: rest) := by
  intro first same
  cases same
  rcases other with rfl | rfl | rfl <;> decide

theorem IsWhole.isDigits (isWhole : IsWhole whole) : IsDigits whole := by
  cases isWhole with
  | zero => exact isDigits_singleton rfl
  | digits _ digits => exact digits

theorem span_digits (digits : ∀ c ∈ cs, c.isDigit = true) (noDigit : NoDigit rest) :
    (cs ++ rest).span Char.isDigit = (cs, rest) := by
  rw [List.span_eq_takeWhile_dropWhile, List.takeWhile_append_of_pos digits,
    List.dropWhile_append_of_pos digits]
  cases rest with
  | nil => simp
  | cons c rest => simp [noDigit c rfl]

/-! ### The reader follows the grammar -/

theorem integerDigits?_whole (isWhole : IsWhole whole) (noDigit : NoDigit rest) :
    integerDigits? (whole ++ rest) = some (whole, rest) := by
  rw [integerDigits?, span_digits isWhole.isDigits.2 noDigit]
  cases isWhole with
  | zero => rfl
  | digits leading _ => simp [leading]

theorem fractionDigits?_none (noPoint : ∀ c ∈ rest.head?, c ≠ '.') :
    fractionDigits? rest = some ([], rest) := by
  cases rest with
  | nil => rfl
  | cons c rest => simp [fractionDigits?, noPoint c rfl]

theorem exponentPart?_none (ends : EndsNumber rest) : exponentPart? rest = some (none, rest) := by
  cases rest with
  | nil => rfl
  | cons c rest => simp [exponentPart?, (ends c rfl).2.2]

theorem digitValue?_of_isDigit {c : Char} (digit : c.isDigit = true) :
    Numeral.digitValue? 10 c = some (c.toNat - '0'.toNat) := by
  have bounds := Char.isDigit_iff_toNat.mp digit
  have inside : '0' ≤ c ∧ c ≤ '9' := bounds
  have small : c.toNat - '0'.toNat < 10 := by
    have upper : c.toNat ≤ 57 := bounds.2
    change c.toNat - 48 < 10
    omega
  simp only [Numeral.digitValue?, if_pos inside, if_pos small]

theorem exists_digitsFrom? (digits : ∀ c ∈ cs, c.isDigit = true) (start : Nat) :
    ∃ n, Numeral.digitsFrom? 10 start cs = some n := by
  induction cs generalizing start with
  | nil => exact ⟨start, rfl⟩
  | cons c rest ih =>
    obtain ⟨first, later⟩ := List.forall_mem_cons.mp digits
    rw [Numeral.digitsFrom?, digitValue?_of_isDigit first, Option.bind_some]
    exact ih later _

theorem exists_digits? (digits : IsDigits cs) : ∃ n, Numeral.digits? 10 cs = some n := by
  rw [Numeral.digits?, List.isEmpty_eq_false_iff.mpr digits.1]
  exact exists_digitsFrom? digits.2 0

/-- A fraction is read in the same way whatever ends the number. -/
theorem IsFraction.read (isFraction : IsFraction fraction) :
    ∃ digits, ∀ rest, NoDigit rest → (∀ c ∈ rest.head?, c ≠ '.') →
      fractionDigits? (fraction ++ rest) = some (digits, rest) := by
  cases isFraction with
  | none => exact ⟨[], fun rest _ noPoint => fractionDigits?_none noPoint⟩
  | @digits ds digits =>
    refine ⟨ds, fun rest noDigit _ => ?_⟩
    rw [List.cons_append, fractionDigits?, span_digits digits.2 noDigit]
    cases ds with
    | nil => exact absurd rfl digits.1
    | cons => rfl

/-- An exponent is read in the same way whatever ends the number. -/
theorem IsExponent.read (isExponent : IsExponent exponent) :
    ∃ power, ∀ rest, EndsNumber rest → exponentPart? (exponent ++ rest) = some (power, rest) := by
  cases isExponent with
  | none => exact ⟨Option.none, fun rest ends => exponentPart?_none ends⟩
  | @signed sign ds signs digits =>
    obtain ⟨n, value⟩ := exists_digits? digits
    rcases signs with rfl | rfl
    · refine ⟨some n, fun rest ends => ?_⟩
      simp only [List.cons_append, exponentPart?, true_or, ↓reduceIte,
        span_digits digits.2 ends.noDigit, value]
      rfl
    · refine ⟨some (-n), fun rest ends => ?_⟩
      simp only [List.cons_append, exponentPart?, true_or, ↓reduceIte,
        span_digits digits.2 ends.noDigit, value]
      rfl

theorem IsExponent.noDigit (isExponent : IsExponent exponent) (noDigit : NoDigit rest) :
    NoDigit (exponent ++ rest) := by
  cases isExponent with
  | none => exact noDigit
  | signed => exact fun c first => by cases first; decide

theorem IsExponent.noPoint (isExponent : IsExponent exponent) (ends : EndsNumber rest) :
    ∀ c ∈ (exponent ++ rest).head?, c ≠ '.' := by
  cases isExponent with
  | none => exact fun c first => (ends c first).2.1
  | signed => exact fun c first => by cases first; decide

theorem IsFraction.noDigit (isFraction : IsFraction fraction) (noDigit : NoDigit rest) :
    NoDigit (fraction ++ rest) := by
  cases isFraction with
  | none => exact noDigit
  | digits => exact fun c first => by cases first; decide

/-- A number is read in the same way whatever ends it. -/
theorem IsMagnitude.read (isMagnitude : IsMagnitude cs) (negative : Bool) :
    ∃ json, ∀ rest, EndsNumber rest → readMagnitude? negative (cs ++ rest) = some (json, rest) := by
  cases isMagnitude with
  | @parts whole fraction exponent isWhole isFraction isExponent =>
    obtain ⟨digits, readFraction⟩ := isFraction.read
    obtain ⟨power, readExponent⟩ := isExponent.read
    exact ⟨_, fun rest ends => by
      have behind := isExponent.noDigit ends.noDigit
      rw [List.append_assoc, List.append_assoc, readMagnitude?,
        integerDigits?_whole isWhole (isFraction.noDigit behind)]
      simp only [Option.bind_eq_bind, Option.bind_some,
        readFraction _ behind (isExponent.noPoint ends), readExponent rest ends]
      rfl⟩

theorem readMagnitude?_whole (isWhole : IsWhole whole) (ends : EndsNumber rest) (negative : Bool) :
    readMagnitude? negative (whole ++ rest) =
      some ((integerNumber? negative (absorb 0 whole).1 (absorb 0 whole).2.2).elim
        .meaningless .number, rest) := by
  rw [readMagnitude?, integerDigits?_whole isWhole ends.noDigit]
  simp only [Option.bind_eq_bind, Option.bind_some,
    fractionDigits?_none (fun c first => (ends c first).2.1), exponentPart?_none ends]
  rfl

theorem le_of_digitsFrom? {start n : Nat} (value : Numeral.digitsFrom? 10 start cs = some n) :
    start ≤ n := by
  induction cs generalizing start with
  | nil =>
    exact Nat.le_of_eq (Option.some.inj value)
  | cons c rest ih =>
    obtain ⟨d, _, later⟩ := Option.bind_eq_some_iff.mp value
    have := ih later
    omega

theorem absorb_digits (digits : ∀ c ∈ cs, c.isDigit = true) {start n : Nat}
    (value : Numeral.digitsFrom? 10 start cs = some n) (small : n < UInt64.size) :
    absorb start cs = (n, cs.length, 0) := by
  induction cs generalizing start with
  | nil =>
    cases value
    rfl
  | cons c rest ih =>
    obtain ⟨first, later⟩ := List.forall_mem_cons.mp digits
    rw [Numeral.digitsFrom?, digitValue?_of_isDigit first, Option.bind_some] at value
    have inside := Nat.lt_of_le_of_lt (le_of_digitsFrom? value) small
    simp only [absorb, if_pos inside, ih later value, List.length_cons]

/-! ### The texts of numbers -/

theorem isDigits_decimal (n : Nat) : IsDigits (Numeral.decimal n) :=
  ⟨Nat.toDigits_ne_nil, fun _ member =>
    Nat.isDigit_of_mem_toDigits (by decide) (by decide) member⟩

theorem decimal_leading {n : Nat} (positive : 0 < n) :
    ∃ c rest, Numeral.decimal n = c :: rest ∧ c ≠ '0' := by
  induction n using Nat.strongRecOn with
  | _ n ih =>
    rw [Numeral.decimal, Nat.toDigits_eq_if (by decide)]
    by_cases single : n < 10
    · refine ⟨Nat.digitChar n, [], if_pos single, ?_⟩
      have worth := Nat.toNat_digitChar_of_lt_ten single
      intro zero
      rw [zero] at worth
      change 48 = 48 + n at worth
      omega
    · obtain ⟨c, rest, front, leading⟩ := ih (n / 10) (by omega) (by omega)
      rw [if_neg single, ← Numeral.decimal, front]
      exact ⟨c, _, rfl, leading⟩

theorem isWhole_decimal (n : Nat) : IsWhole (Numeral.decimal n) := by
  rcases Nat.eq_zero_or_pos n with rfl | positive
  · exact .zero
  · obtain ⟨c, rest, split, leading⟩ := decimal_leading positive
    have digits := isDigits_decimal n
    rw [split] at digits ⊢
    exact .digits leading digits

theorem absorb_decimal {n : Nat} (small : n < UInt64.size) :
    absorb 0 (Numeral.decimal n) = (n, (Numeral.decimal n).length, 0) :=
  absorb_digits (isDigits_decimal n).2
    (Numeral.digitsFrom?_toDigits (by decide) (by decide) n) small

theorem IsDigits.append (digits : IsDigits cs) {more : List Char}
    (others : ∀ c ∈ more, c.isDigit = true) : IsDigits (cs ++ more) :=
  ⟨by simp [digits.1], fun c member => (List.mem_append.mp member).elim (digits.2 c) (others c)⟩

theorem isDigit_zeros (n : Nat) : ∀ c ∈ List.replicate n '0', c.isDigit = true := by
  intro c member
  rw [List.eq_of_mem_replicate member]
  rfl

end Numbers

end Json

/-- A decimal is written in the grammar of numbers. -/
theorem Decimal.isMagnitude_notation64 (d : Decimal) : Json.IsMagnitude d.notation64 := by
  have zeros : Json.IsFraction ['.', '0'] := .digits (Json.isDigits_singleton rfl)
  by_cases zero : d.digits = 0
  · simp only [notation64, if_pos zero]
    exact .parts .zero zeros .none
  · obtain ⟨c, rest, split, leading⟩ := Json.decimal_leading (Nat.pos_of_ne_zero zero)
    have digits := Json.isDigits_decimal d.digits
    rw [split] at digits
    obtain ⟨first, others⟩ := List.forall_mem_cons.mp digits.2
    have single : Json.IsDigits [c] := Json.isDigits_singleton first
    simp only [notation64, if_neg zero, split, List.length_cons]
    split
    · split
      · -- An integer: its digits, the zeros of the power and a fraction of zero.
        have whole : Json.IsWhole (c :: (rest ++ List.replicate d.power.toNat '0')) :=
          .digits leading (digits.append (Json.isDigit_zeros _))
        simpa using Json.IsMagnitude.parts whole zeros .none
      · split
        · -- The point stands inside the digits.
          rename_i fractional inside
          generalize shown : (d.power + ((rest.length + 1 : Nat) : Int) - 1).toNat = place
          have behind : place < rest.length := by omega
          have whole : Json.IsWhole (c :: rest.take place) :=
            .digits leading ⟨by simp, fun x member => digits.2 x
              (List.mem_cons.mpr ((List.mem_cons.mp member).imp_right List.mem_of_mem_take))⟩
          have fraction : Json.IsFraction ('.' :: rest.drop place) :=
            .digits ⟨by simpa using behind, fun x member => others x (List.mem_of_mem_drop member)⟩
          simpa using Json.IsMagnitude.parts whole fraction .none
        · -- The point stands before the digits.
          have fraction : Json.IsFraction ('.' :: (List.replicate
              (-(d.power + (rest.length + 1 : Nat) - 1) - 1).toNat '0' ++ c :: rest)) :=
            .digits ⟨by simp, fun x member => (List.mem_append.mp member).elim
              (Json.isDigit_zeros _ x) (digits.2 x)⟩
          simpa using Json.IsMagnitude.parts .zero fraction .none
    · -- One digit before the point and the others behind it.
      have exponent (sign : Char) (signs : sign = '+' ∨ sign = '-') (n : Nat) :
          Json.IsExponent ('e' :: sign :: Numeral.decimal n) :=
        .signed signs (Json.isDigits_decimal n)
      have power := exponent
        (if d.power + ((rest.length + 1 : Nat) : Int) - 1 < 0 then '-' else '+') (by split <;> simp)
        (d.power + ((rest.length + 1 : Nat) : Int) - 1).natAbs
      cases rest with
      | nil => simpa using Json.IsMagnitude.parts (.digits leading single) .none power
      | cons next rest =>
        have fraction : Json.IsFraction ('.' :: next :: rest) := .digits ⟨by simp, others⟩
        simpa using Json.IsMagnitude.parts (.digits leading single) fraction power

namespace Json

section Numbers

variable {rest : List Char}

theorem IsMagnitude.first {cs : List Char} (isMagnitude : IsMagnitude cs) :
    ∃ c more, cs = c :: more ∧ c.isDigit = true := by
  cases isMagnitude with
  | parts isWhole _ _ =>
    cases isWhole with
    | zero => exact ⟨'0', _, rfl, rfl⟩
    | @digits c more _ digits => exact ⟨c, _, rfl, digits.2 c List.mem_cons_self⟩

theorem readNumber?_magnitude {cs : List Char} (isMagnitude : IsMagnitude cs) (rest : List Char) :
    readNumber? (cs ++ rest) = readMagnitude? false (cs ++ rest) := by
  obtain ⟨c, more, rfl, digit⟩ := isMagnitude.first
  rw [List.cons_append, readNumber?]
  rintro _ ⟨⟩
  cases digit

theorem isMagnitude_decimal (n : Nat) : IsMagnitude (Numeral.decimal n) := by
  simpa using IsMagnitude.parts (isWhole_decimal n) .none .none

theorem readNumber?_natural (value : UInt64) (ends : EndsNumber rest) :
    readNumber? (Numeral.decimal value.toNat ++ rest) = some (.number (.natural value), rest) := by
  rw [readNumber?_magnitude (isMagnitude_decimal _),
    readMagnitude?_whole (isWhole_decimal _) ends, absorb_decimal value.toNat_lt]
  simp [integerNumber?]

theorem readNumber?_negative (below : Fin 0x8000000000000000) (ends : EndsNumber rest) :
    readNumber? ('-' :: Numeral.decimal (below.val + 1) ++ rest) =
      some (.number (.negative below), rest) := by
  have small : below.val + 1 < UInt64.size := by
    have := below.isLt
    change below.val + 1 < 18446744073709551616
    omega
  have inside : 1 ≤ below.val + 1 ∧ below.val + 1 ≤ 0x8000000000000000 := by omega
  rw [List.cons_append, readNumber?, readMagnitude?_whole (isWhole_decimal _) ends,
    absorb_decimal small]
  simp [integerNumber?, inside]

/-- A number of floating point is read, whatever ends it, as one and the same value. -/
theorem readNumber?_real (x : Binary64) :
    ∃ json, ∀ rest, EndsNumber rest → readNumber? (x.chars ++ rest) = some (json, rest) := by
  have isMagnitude := (Decimal.shortest x).isMagnitude_notation64
  rw [Binary64.chars]
  cases x.negative with
  | true => exact isMagnitude.read true
  | false =>
    obtain ⟨json, read⟩ := isMagnitude.read false
    exact ⟨json, fun rest ends => (readNumber?_magnitude isMagnitude rest).trans (read rest ends)⟩

end Numbers

/-! ### Strings -/

/-- Escapes below the halves of pairs stand for one character each. -/
theorem joinParts?_escape {n : Nat} (small : n < 0x20) (parts : List (Nat ⊕ Char)) :
    joinParts? (.inl n :: parts) = (joinParts? parts).map (Char.ofNat n :: ·) := by
  have valid : n.isValidChar := .inl (by omega)
  cases parts with
  | nil => simp [joinParts?, valid]
  | cons part parts =>
    cases part with
    | inl low =>
      have single : ¬(0xd800 ≤ n ∧ n < 0xdc00 ∧ 0xdc00 ≤ low ∧ low < 0xe000) := by omega
      rw [joinParts?, if_neg single, if_pos valid]
    | inr c => simp [joinParts?, valid]

theorem escapeControl_eq {c : Char} (control : c.toNat < 0x20) :
    ∃ d₁ d₂ d₃ d₄, escapeControl c = ['\\', 'u', d₁, d₂, d₃, d₄] ∧
      Numeral.digits? 16 [d₁, d₂, d₃, d₄] = some c.toNat := by
  have padded : ∀ n < 0x20, ∀ digits,
      digits = List.replicate (4 - (Numeral.hexadecimal n).length) '0' ++ Numeral.hexadecimal n →
      digits.length = 4 ∧ Numeral.digits? 16 digits = some n := by
    simp only [forall_eq]
    decide
  rw [escapeControl]
  generalize shown : List.replicate (4 - (Numeral.hexadecimal c.toNat).length) '0' ++
    Numeral.hexadecimal c.toNat = digits
  obtain ⟨four, value⟩ := padded c.toNat control digits shown.symm
  match digits with
  | [d₁, d₂, d₃, d₄] => exact ⟨d₁, d₂, d₃, d₄, congrArg (['\\', 'u'] ++ ·) shown, value⟩

theorem stringParts?_letter {letter c : Char} (other : letter ≠ 'u')
    (stands : escapedChar? letter = some c) (fuel : Nat) (more : List Char) :
    stringParts? (fuel + 1) ('\\' :: letter :: more) =
      (stringParts? fuel more).map fun (parts, rest) => (.inr c :: parts, rest) := by
  rw [stringParts?, stands]
  · cases stringParts? fuel more <;> rfl
  · exact other

theorem stringParts?_escapeChar (c : Char) (fuel : Nat) (more : List Char) :
    ∃ part, (∀ parts, joinParts? (part :: parts) = (joinParts? parts).map (c :: ·)) ∧
      stringParts? (fuel + 1) (escapeChar c ++ more) =
        (stringParts? fuel more).map fun (parts, rest) => (part :: parts, rest) := by
  have plain (parts : List (Nat ⊕ Char)) :
      joinParts? (.inr c :: parts) = (joinParts? parts).map (c :: ·) := by rw [joinParts?]
  by_cases letters : c ∈ ['"', '\\', '\x08', '\x0c', '\n', '\r', '\t']
  · refine ⟨.inr c, plain, ?_⟩
    simp only [List.mem_cons, List.not_mem_nil, or_false] at letters
    rcases letters with rfl | rfl | rfl | rfl | rfl | rfl | rfl <;>
      exact stringParts?_letter (by decide) rfl fuel more
  · simp only [List.mem_cons, List.not_mem_nil, or_false, not_or] at letters
    obtain ⟨quote, backslash, b, f, n, r, t⟩ := letters
    rw [escapeChar, if_neg quote, if_neg backslash, if_neg b, if_neg f, if_neg n, if_neg r,
      if_neg t]
    by_cases control : c.toNat < 0x20
    · obtain ⟨d₁, d₂, d₃, d₄, written, value⟩ := escapeControl_eq control
      refine ⟨.inl c.toNat, fun parts => ?_, ?_⟩
      · rw [joinParts?_escape control, Char.ofNat_toNat]
      · rw [if_pos control, written]
        simp only [List.cons_append, List.nil_append, stringParts?, escapedUnit?, value,
          Option.map_some, Option.bind_eq_bind, Option.bind_some]
        cases stringParts? fuel more <;> rfl
    · refine ⟨.inr c, plain, ?_⟩
      rw [if_neg control, List.singleton_append, stringParts?,
        if_neg (by simp [control, backslash])]
      · cases stringParts? fuel more <;> rfl
      · exact quote
      · exact fun _ same _ => backslash same
      · exact fun _ _ same _ => backslash same

theorem length_le_escaped (cs : List Char) : cs.length ≤ (cs.flatMap escapeChar).length := by
  induction cs with
  | nil => exact Nat.le_refl 0
  | cons c rest ih =>
    have some : 1 ≤ (escapeChar c).length := by
      unfold escapeChar escapeControl
      repeat' split
      all_goals simp
    rw [List.flatMap_cons, List.length_append, List.length_cons]
    omega

/-- The printed characters of a string are parts that stand for it. -/
theorem stringParts?_escaped (cs rest : List Char) (fuel : Nat) (enough : cs.length < fuel) :
    ∃ parts, stringParts? fuel (cs.flatMap escapeChar ++ '"' :: rest) = some (parts, rest) ∧
      joinParts? parts = some cs := by
  induction cs generalizing fuel with
  | nil =>
    obtain ⟨fuel, rfl⟩ := Nat.exists_eq_succ_of_ne_zero (Nat.ne_zero_of_lt enough)
    exact ⟨[], by simp [stringParts?], rfl⟩
  | cons c later ih =>
    obtain ⟨fuel, rfl⟩ := Nat.exists_eq_succ_of_ne_zero (Nat.ne_zero_of_lt enough)
    obtain ⟨parts, read, joined⟩ := ih fuel (Nat.lt_of_succ_lt_succ enough)
    obtain ⟨part, stands, first⟩ :=
      stringParts?_escapeChar c fuel (later.flatMap escapeChar ++ '"' :: rest)
    refine ⟨part :: parts, ?_, by rw [stands, joined]; rfl⟩
    rw [List.flatMap_cons, List.append_assoc, first, read]
    rfl

/-- A printed string is read back, whatever follows its closing quote. -/
theorem readString?_stringChars (value : String) (rest : List Char) :
    readString? (value.toList.flatMap escapeChar ++ '"' :: rest) = some (some value, rest) := by
  have enough : value.toList.length <
      (value.toList.flatMap escapeChar ++ '"' :: rest).length + 1 := by
    have := length_le_escaped value.toList
    rw [List.length_append]
    omega
  obtain ⟨parts, read, joined⟩ := stringParts?_escaped value.toList rest _ enough
  simp only [readString?, read, Option.map_some, joined, String.ofList_toList]

end Json

end SmtSession

import SmtSession.Proofs.Rendering

namespace SmtSession

namespace Numeral

variable {radix : Nat}

theorem digitValue?_digitChar (small : radix ≤ 16) {d : Nat} (digit : d < radix) :
    digitValue? radix (Nat.digitChar d) = some d := by
  have worth : ∀ radix < 17, ∀ d < radix, digitValue? radix (Nat.digitChar d) = some d := by decide
  exact worth radix (by omega) d digit

theorem digitsFrom?_append (start : Nat) (front back : List Char) :
    digitsFrom? radix start (front ++ back) =
      (digitsFrom? radix start front).bind fun n => digitsFrom? radix n back := by
  induction front generalizing start with
  | nil => rfl
  | cons c rest ih =>
    simp only [List.cons_append, digitsFrom?]
    cases digitValue? radix c with
    | none => rfl
    | some d => exact ih _

theorem digitsFrom?_toDigits (large : 1 < radix) (small : radix ≤ 16) (n : Nat) :
    digitsFrom? radix 0 (Nat.toDigits radix n) = some n := by
  induction n using Nat.strongRecOn with
  | _ n ih =>
    rw [Nat.toDigits_eq_if large]
    by_cases digit : n < radix
    · simp [digit, digitsFrom?, digitValue?_digitChar small digit]
    · have shorter : n / radix < n := Nat.div_lt_self (by omega) large
      have last : n % radix < radix := Nat.mod_lt n (by omega)
      rw [if_neg digit, digitsFrom?_append, ih _ shorter]
      simp [digitsFrom?, digitValue?_digitChar small last, Nat.div_add_mod]

theorem digitValue?_isSome {start n : Nat} {cs : List Char}
    (read : digitsFrom? radix start cs = some n) : ∀ c ∈ cs, (digitValue? radix c).isSome := by
  induction cs generalizing start with
  | nil => nofun
  | cons first rest ih =>
    rw [digitsFrom?] at read
    obtain ⟨d, worth, later⟩ := Option.bind_eq_some_iff.mp read
    intro c member
    rcases List.mem_cons.mp member with rfl | member
    · rw [worth]
      rfl
    · exact ih later c member

theorem not_mem_toDigits (large : 1 < radix) (small : radix ≤ 16) {c : Char}
    (worthless : digitValue? radix c = none) (n : Nat) : c ∉ Nat.toDigits radix n := by
  intro member
  have digit := digitValue?_isSome (digitsFrom?_toDigits large small n) c member
  rw [worthless] at digit
  cases digit

theorem digits?_toDigits (large : 1 < radix) (small : radix ≤ 16) (n : Nat) :
    digits? radix (Nat.toDigits radix n) = some n := by
  have some : (Nat.toDigits radix n).isEmpty = false := by
    simp [Nat.toDigits_ne_nil]
  simp [digits?, some, digitsFrom?_toDigits large small n]

theorem withoutPlus_eq_self {cs : List Char} (noPlus : '+' ∉ cs) : withoutPlus cs = cs := by
  unfold withoutPlus
  split
  · simp at noPlus
  · rfl

theorem below?_toDigits {bound n : Nat} (large : 1 < radix) (small : radix ≤ 16)
    (worthless : digitValue? radix '+' = none) (inside : n < bound) :
    below? radix bound (Nat.toDigits radix n) = some n := by
  rw [below?, withoutPlus_eq_self (not_mem_toDigits large small worthless n),
    digits?_toDigits large small]
  simp [inside]

theorem uint32?_decimal (width : UInt32) : uint32? (decimal width.toNat) = some width := by
  rw [uint32?, decimal, below?_toDigits (by decide) (by decide) rfl width.toNat_lt]
  simp

theorem int128?_decimal (n : Nat) : int128? (decimal n) = Int128.ofInt? n := by
  have noMinus : '-' ∉ decimal n := not_mem_toDigits (by decide) (by decide) rfl n
  have noPlus : '+' ∉ decimal n := not_mem_toDigits (by decide) (by decide) rfl n
  unfold int128?
  split
  · next same => simp [same] at noMinus
  · rw [withoutPlus_eq_self noPlus, decimal, digits?_toDigits (by decide) (by decide),
      Option.bind_some]

end Numeral

namespace StringLiteral

theorem mergeQuotes_doubleQuotes (cs : List Char) : mergeQuotes (doubleQuotes cs) = cs := by
  induction cs with
  | nil => rfl
  | cons c rest ih =>
    have unfolded : doubleQuotes (c :: rest) =
        (if c = '"' then ['"', '"'] else [c]) ++ doubleQuotes rest := rfl
    rw [unfolded]
    by_cases quote : c = '"'
    · subst quote
      exact congrArg ('"' :: ·) ih
    · have next : mergeQuotes (c :: doubleQuotes rest) = c :: mergeQuotes (doubleQuotes rest) := by
        rw [mergeQuotes]
        rintro _ rfl
        exact absurd rfl quote
      rw [if_neg quote]
      exact next.trans (congrArg (c :: ·) ih)

theorem scalar?_hexadecimal (c : Char) : scalar? (Numeral.hexadecimal c.toNat) = some c := by
  have valid : c.toNat.isValidChar := c.valid
  have inside : c.toNat < UInt32.size := c.val.toNat_lt
  rw [scalar?, Numeral.hexadecimal,
    Numeral.below?_toDigits (by decide) (by decide) rfl inside]
  simp [valid]

/-- Inside an open brace the digits are collected up to the brace that closes it. -/
theorem unescape_braced (read : List Char) {digits : List Char} (rest : List Char)
    (inside : '}' ∉ digits) : unescape (some read) (digits ++ '}' :: rest) =
      (scalar? (read.reverse ++ digits)).bind fun d => (unescape none rest).map (d :: ·) := by
  induction digits generalizing read with
  | nil => simp [unescape]
  | cons c more ih =>
    have goesOn : c ≠ '}' := fun same => inside (by simp [same])
    rw [List.cons_append, unescape]
    simp only [goesOn, ↓reduceIte]
    rw [ih (c :: read) (fun member => inside (List.mem_cons_of_mem c member))]
    simp

theorem unescape_escape (c : Char) (rest : List Char) :
    unescape none (escape c ++ rest) = (unescape none rest).map (c :: ·) := by
  have inside : '}' ∉ Numeral.hexadecimal c.toNat :=
    Numeral.not_mem_toDigits (by decide) (by decide) rfl c.toNat
  have begun : unescape none (escape c ++ rest) =
      unescape (some []) (Numeral.hexadecimal c.toNat ++ '}' :: rest) := by
    simp [escape, unescape]
  rw [begun, unescape_braced [] rest inside, List.reverse_nil, List.nil_append,
    scalar?_hexadecimal]
  rfl

theorem unescape_escapeChar (c : Char) (rest : List Char) :
    unescape none (escapeChar c ++ rest) = (unescape none rest).map (c :: ·) := by
  unfold escapeChar
  by_cases backslash : c = '\\'
  · rw [if_pos backslash]
    exact unescape_escape c rest
  · rw [if_neg backslash]
    split
    · rw [List.singleton_append, unescape]
      all_goals intros; contradiction
    · exact unescape_escape c rest

theorem unescape_escapeAll (cs : List Char) : unescape none (escapeAll cs) = some cs := by
  induction cs with
  | nil => rfl
  | cons c rest ih =>
    rw [escapeAll, List.flatMap_cons, unescape_escapeChar, ← escapeAll, ih]
    rfl

/-- A string is read back from its literal. -/
theorem decode?_encode (cs : List Char) : decode? (encode cs) = some cs := by
  have framed := Text.between?_framed ['"'] (doubleQuotes (escapeAll cs)) ['"']
  have split : encode cs = ['"'] ++ (doubleQuotes (escapeAll cs) ++ ['"']) := rfl
  rw [decode?, split, framed, Option.bind_some, mergeQuotes_doubleQuotes, unescape_escapeAll]

end StringLiteral

end SmtSession

import SmtSession.Proofs.JsonLiterals

namespace SmtSession.Json

mutual
/-- What the text of a value is read as: numbers of floating point are rounded as they are read, and
what denotes nothing is written as null. -/
def reread : Json → Json
  | .number (.real x) => (readNumber? x.chars).elim .meaningless Prod.fst
  | .array items => .array (rereadItems items)
  | .object fields => .object (rereadFields fields)
  | .meaningless => .null
  | json => json

def rereadItems : List Json → List Json
  | [] => []
  | item :: rest => item.reread :: rereadItems rest

def rereadFields : List (String × Json) → List (String × Json)
  | [] => []
  | (name, value) :: rest => (name, value.reread) :: rereadFields rest
end

/-! ### How texts begin -/

theorem skipSpaces_cons {c : Char} (dark : isSpace c = false) (rest : List Char) :
    skipSpaces (c :: rest) = c :: rest := by
  rw [skipSpaces, List.dropWhile_cons, dark]
  rfl

theorem isSpace_of_isDigit {c : Char} (digit : c.isDigit = true) : isSpace c = false := by
  simp only [isSpace, Bool.or_eq_false_iff, beq_eq_false_iff_ne]
  refine ⟨⟨⟨?_, ?_⟩, ?_⟩, ?_⟩ <;>
    · rintro rfl
      cases digit

def OpensNumber (c : Char) : Prop := c = '-' ∨ c.isDigit = true

theorem OpensNumber.dark {c : Char} (opens : OpensNumber c) : isSpace c = false := by
  rcases opens with rfl | digit
  · rfl
  · exact isSpace_of_isDigit digit

theorem OpensNumber.other {c : Char} (opens : OpensNumber c) (d : Char) (no : d ≠ '-')
    (digitless : d.isDigit = false) : c ≠ d := by
  rintro rfl
  rcases opens with rfl | digit
  · exact no rfl
  · rw [digit] at digitless
    cases digitless

theorem opensNumber_chars (number : JsonNumber) :
    ∃ c more, number.chars = c :: more ∧ OpensNumber c := by
  cases number with
  | natural value =>
    obtain ⟨c, more, split, digit⟩ := (isMagnitude_decimal value.toNat).first
    exact ⟨c, more, split, .inr digit⟩
  | negative below => exact ⟨'-', _, rfl, .inl rfl⟩
  | real x =>
    rw [JsonNumber.chars, Binary64.chars]
    cases x.negative with
    | true => exact ⟨'-', _, rfl, .inl rfl⟩
    | false =>
      obtain ⟨c, more, split, digit⟩ := (Decimal.shortest x).isMagnitude_notation64.first
      exact ⟨c, more, split, .inr digit⟩

/-- The text of a value begins with no blank and with no closing bracket. -/
theorem chars_first (json : Json) :
    ∃ c more, json.chars = c :: more ∧ isSpace c = false ∧ c ≠ ']' := by
  cases json with
  | number number =>
    obtain ⟨c, more, split, opens⟩ := opensNumber_chars number
    exact ⟨c, more, by rw [chars, split], opens.dark, opens.other ']' (by decide) rfl⟩
  | bool value => cases value <;> exact ⟨_, _, rfl, rfl, by decide⟩
  | null | meaningless => exact ⟨_, _, rfl, rfl, by decide⟩
  | string value => exact ⟨'"', _, rfl, rfl, by decide⟩
  | array items => exact ⟨'[', _, by rw [chars]; rfl, rfl, by decide⟩
  | object fields => exact ⟨'{', _, by rw [chars]; rfl, rfl, by decide⟩

theorem readValue?_number {c : Char} (opens : OpensNumber c) (fuel : Nat) (more : List Char) :
    readValue? (fuel + 1) (c :: more) = readNumber? (c :: more) := by
  rw [readValue?, skipSpaces_cons opens.dark]
  split
  case h_1 same => exact absurd (List.cons.inj same).1 (opens.other '{' (by decide) rfl)
  case h_2 same => exact absurd (List.cons.inj same).1 (opens.other '[' (by decide) rfl)
  case h_3 same => exact absurd (List.cons.inj same).1 (opens.other '"' (by decide) rfl)
  case h_4 same => exact absurd (List.cons.inj same).1 (opens.other 't' (by decide) rfl)
  case h_5 same => exact absurd (List.cons.inj same).1 (opens.other 'f' (by decide) rfl)
  case h_6 same => exact absurd (List.cons.inj same).1 (opens.other 'n' (by decide) rfl)
  case h_7 => rfl

theorem readValue?_numberChars (number : JsonNumber) (fuel : Nat) {rest : List Char}
    (ends : EndsNumber rest) :
    readValue? (fuel + 1) (number.chars ++ rest) = some ((Json.number number).reread, rest) := by
  obtain ⟨c, more, split, opens⟩ := opensNumber_chars number
  have same : readValue? (fuel + 1) (number.chars ++ rest) =
      readNumber? (number.chars ++ rest) := by
    rw [split]
    exact readValue?_number opens fuel _
  rw [same]
  cases number with
  | natural value => exact readNumber?_natural value ends
  | negative below => exact readNumber?_negative below ends
  | real x =>
    obtain ⟨json, read⟩ := readNumber?_real x
    have alone : readNumber? x.chars = some (json, []) := by
      simpa using read [] endsNumber_nil
    rw [reread, alone]
    exact read rest ends

/-! ### Whole values -/

/-- The fields as the reader collects them, every name being one. -/
def named (fields : List (String × Json)) : List (Option String × Json) :=
  fields.map fun (name, value) => (some name, value)

theorem objectOf_named (fields : List (String × Json)) :
    objectOf (named fields) = .object fields := by
  have each : (named fields).all (·.1.isSome) = true := by simp [named]
  rw [objectOf, if_pos each, named, List.map_map]
  exact congrArg Json.object (List.map_id fields)

theorem itemChars_first (item : Json) (items : List Json) :
    ∃ c more, itemChars (item :: items) = c :: more ∧ isSpace c = false ∧ c ≠ ']' := by
  obtain ⟨c, more, split, dark, other⟩ := chars_first item
  cases items with
  | nil => exact ⟨c, more, split, dark, other⟩
  | cons next later => exact ⟨c, _, by rw [itemChars, split]; rfl, dark, other⟩

theorem fieldChars_first (name : String) (value : Json) (fields : List (String × Json)) :
    ∃ more, fieldChars ((name, value) :: fields) = '"' :: more := by
  cases fields with
  | nil => exact ⟨_, rfl⟩
  | cons next later => exact ⟨_, rfl⟩

theorem readValue?_array {c : Char} (dark : isSpace c = false) (other : c ≠ ']') (fuel : Nat)
    (more : List Char) : readValue? (fuel + 1) ('[' :: c :: more) =
      (readItems? fuel (c :: more)).map fun (items, rest) => (.array items, rest) := by
  rw [readValue?, skipSpaces_cons rfl]
  simp only [skipSpaces_cons dark]
  split
  · rename_i same
    exact absurd (List.cons.inj same).1 other
  · rfl

theorem readValue?_object (fuel : Nat) (more : List Char) :
    readValue? (fuel + 1) ('{' :: '"' :: more) =
      (readFields? fuel ('"' :: more)).map fun (fields, rest) => (objectOf fields, rest) := rfl

theorem readFields?_named (name : String) (fuel : Nat) (more : List Char) :
    readFields? (fuel + 1) (stringChars name ++ ':' :: more) =
      (readValue? fuel more).bind fun (value, rest) =>
        match skipSpaces rest with
        | ',' :: rest => (readFields? fuel rest).bind fun (fields, rest) =>
            some ((some name, value) :: fields, rest)
        | '}' :: rest => some ([(some name, value)], rest)
        | _ => none := by
  simp only [stringChars, List.cons_append, List.append_assoc, List.nil_append, readFields?,
    skipSpaces_cons (c := '"') rfl, Option.bind_eq_bind, readString?_stringChars, Option.bind_some,
    skipSpaces_cons (c := ':') rfl]
  rfl

/-- With so much fuel a value is read back from its text, whatever follows it, and so are the items
of a list and the fields of an object with the bracket behind them. -/
structure ReadsWithin (fuel : Nat) : Prop where
  value : ∀ (json : Json) (rest : List Char), 2 * json.chars.length ≤ fuel → EndsNumber rest →
    readValue? fuel (json.chars ++ rest) = some (json.reread, rest)
  items : ∀ (item : Json) (items : List Json) (rest : List Char),
    2 * (itemChars (item :: items)).length < fuel →
    readItems? fuel (itemChars (item :: items) ++ ']' :: rest) =
      some (rereadItems (item :: items), rest)
  fields : ∀ (name : String) (value : Json) (fields : List (String × Json)) (rest : List Char),
    2 * (fieldChars ((name, value) :: fields)).length < fuel →
    readFields? fuel (fieldChars ((name, value) :: fields) ++ '}' :: rest) =
      some (named (rereadFields ((name, value) :: fields)), rest)

section

variable {fuel : Nat} (within : ReadsWithin fuel)

include within

theorem ReadsWithin.nextValue (json : Json) (rest : List Char)
    (enough : 2 * json.chars.length ≤ fuel + 1) (ends : EndsNumber rest) :
    readValue? (fuel + 1) (json.chars ++ rest) = some (json.reread, rest) := by
  cases json with
  | null | meaningless => rfl
  | bool value => cases value <;> rfl
  | number number => exact readValue?_numberChars number fuel ends
  | string value =>
    rw [chars, stringChars, List.cons_append, List.cons_append, List.append_assoc,
      List.singleton_append, readValue?, skipSpaces_cons rfl]
    simp only [readString?_stringChars, Option.map_some]
    rfl
  | array items =>
    cases items with
    | nil => rfl
    | cons item items =>
      rw [chars, List.cons_append, List.length_cons, List.length_append] at enough
      obtain ⟨c, more, split, dark, other⟩ := itemChars_first item items
      have inside := within.items item items rest (by omega)
      rw [chars, List.cons_append, List.cons_append, List.append_assoc, List.singleton_append]
      rw [split] at inside ⊢
      rw [List.cons_append, readValue?_array dark other, ← List.cons_append, inside]
      rfl
  | object fields =>
    cases fields with
    | nil => rfl
    | cons field fields =>
      obtain ⟨name, value⟩ := field
      rw [chars, List.cons_append, List.length_cons, List.length_append] at enough
      obtain ⟨more, split⟩ := fieldChars_first name value fields
      have inside := within.fields name value fields rest (by omega)
      rw [chars, List.cons_append, List.cons_append, List.append_assoc, List.singleton_append]
      rw [split] at inside ⊢
      rw [List.cons_append, readValue?_object, ← List.cons_append, inside, Option.map_some]
      simp only [objectOf_named]
      rfl

theorem ReadsWithin.nextItems (item : Json) (items : List Json) (rest : List Char)
    (enough : 2 * (itemChars (item :: items)).length < fuel + 1) :
    readItems? (fuel + 1) (itemChars (item :: items) ++ ']' :: rest) =
      some (rereadItems (item :: items), rest) := by
  cases items with
  | nil =>
    have first := within.value item (']' :: rest) (Nat.le_of_lt_succ enough)
      (endsNumber_cons (.inr (.inl rfl)) rest)
    rw [itemChars, readItems?, first]
    rfl
  | cons next later =>
    rw [itemChars, List.length_append, List.length_cons] at enough
    have first := within.value item (',' :: (itemChars (next :: later) ++ ']' :: rest))
      (by omega) (endsNumber_cons (.inl rfl) _)
    have others := within.items next later rest (by omega)
    rw [itemChars, List.append_assoc, List.cons_append, readItems?, first]
    simp only [Option.bind_eq_bind, Option.bind_some, skipSpaces_cons (c := ',') rfl, others]
    rfl

theorem ReadsWithin.nextFields (name : String) (value : Json) (fields : List (String × Json))
    (rest : List Char) (enough : 2 * (fieldChars ((name, value) :: fields)).length < fuel + 1) :
    readFields? (fuel + 1) (fieldChars ((name, value) :: fields) ++ '}' :: rest) =
      some (named (rereadFields ((name, value) :: fields)), rest) := by
  cases fields with
  | nil =>
    rw [fieldChars, List.length_append, List.length_cons] at enough
    have first := within.value value ('}' :: rest) (by omega)
      (endsNumber_cons (.inr (.inr rfl)) rest)
    rw [fieldChars, List.append_assoc, List.cons_append, readFields?_named, first]
    rfl
  | cons next later =>
    obtain ⟨other, inner⟩ := next
    rw [fieldChars, List.length_append, List.length_append, List.length_cons,
      List.length_cons] at enough
    have first := within.value value (',' :: (fieldChars ((other, inner) :: later) ++ '}' :: rest))
      (by omega) (endsNumber_cons (.inl rfl) _)
    have others := within.fields other inner later rest (by omega)
    rw [fieldChars, List.append_assoc, List.append_assoc, List.cons_append, List.cons_append,
      readFields?_named, first]
    simp only [Option.bind_some, skipSpaces_cons (c := ',') rfl, others]
    rfl

end

/-- Two units of fuel a character are enough. -/
theorem readsWithin (fuel : Nat) : ReadsWithin fuel := by
  induction fuel with
  | zero =>
    refine ⟨fun json rest enough _ => ?_, fun _ _ _ enough => ?_, fun _ _ _ _ enough => ?_⟩
    · obtain ⟨c, more, split, _⟩ := json.chars_first
      rw [split, List.length_cons] at enough
      omega
    · exact absurd enough (Nat.not_lt_zero _)
    · exact absurd enough (Nat.not_lt_zero _)
  | succ fuel within => exact ⟨within.nextValue, within.nextItems, within.nextFields⟩

/-- The text of every value is read. -/
theorem read?_text (json : Json) : read? json.text = some json.reread := by
  have whole := (readsWithin (2 * json.chars.length + 2)).value json [] (by omega) endsNumber_nil
  rw [List.append_nil] at whole
  simp only [read?, text, String.toList_ofList, whole]
  rfl

theorem rereadItems_eq_map (items : List Json) : rereadItems items = items.map reread := by
  induction items with
  | nil => rfl
  | cons item rest ih => rw [rereadItems, ih, List.map_cons]

theorem rereadFields_eq_map (fields : List (String × Json)) :
    rereadFields fields = fields.map fun field => (field.1, field.2.reread) := by
  induction fields with
  | nil => rfl
  | cons field rest ih => rw [rereadFields, ih, List.map_cons]

theorem rereadFields_eq_self {fields : List (String × Json)}
    (each : ∀ field ∈ fields, field.2.reread = field.2) : rereadFields fields = fields := by
  have same : ∀ field ∈ fields, (field.1, field.2.reread) = field :=
    fun field member => by rw [each field member]
  rw [rereadFields_eq_map, List.map_congr_left same, List.map_id']

/-- Values of strings and of integers, with the fields of every object in the order of their names,
nested at most so many levels deep. -/
inductive Plain : Nat → Json → Prop
  | null {levels : Nat} : Plain levels .null
  | bool {levels : Nat} (value : Bool) : Plain levels (.bool value)
  | natural {levels : Nat} (value : UInt64) : Plain levels (.number (.natural value))
  | negative {levels : Nat} (below : Fin 0x8000000000000000) :
      Plain levels (.number (.negative below))
  | string {levels : Nat} (value : String) : Plain levels (.string value)
  | array {levels : Nat} {items : List Json} : (∀ item ∈ items, Plain levels item) →
      Plain (levels + 1) (.array items)
  | object {levels : Nat} {fields : List (String × Json)} :
      fields.Pairwise (fun first second => first.1 < second.1) →
      (∀ field ∈ fields, Plain levels field.2) → Plain (levels + 1) (.object fields)

/-- Such a value is read back as itself. -/
theorem Plain.reread {levels : Nat} {json : Json} (plain : Plain levels json) :
    json.reread = json := by
  induction plain with
  | null | bool | natural | negative | string => rfl
  | @array levels items _ each =>
    rw [Json.reread, rereadItems_eq_map, List.map_congr_left each, List.map_id']
  | object _ _ each => rw [Json.reread, rereadFields_eq_self each]

end SmtSession.Json

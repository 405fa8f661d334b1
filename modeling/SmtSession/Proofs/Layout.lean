import SmtSession.Proofs.Reading

/-! Layouts: the ways to print a sequence of tokens over lines. Blanks, line ends and comments may
stand before every token, as long as an atom is told apart from what follows it. Every layout spells
the tokens that it prints. -/
namespace SmtSession.Sexp

/-- The three forms of an atom. -/
inductive WellFormed : List Char → Prop where
  | word {cs : List Char} : IsBareWord cs → WellFormed cs
  /-- A string, in which every quote is written twice. -/
  | string (inner : List Char) : WellFormed ('"' :: StringLiteral.doubleQuotes inner ++ ['"'])
  /-- A symbol between bars. -/
  | symbol {inner : List Char} : '|' ∉ inner → WellFormed ('|' :: inner ++ ['|'])

theorem WellFormed.spells {cs : List Char} (formed : WellFormed cs) :
    Spells cs [.atom (String.ofList cs)] := by
  cases formed with
  | word bare => exact bare.spells
  | string inner => exact Spells.string inner
  | symbol closed => exact (Seals.symbol closed).spells

theorem WellFormed.isAtom {name : String} (formed : WellFormed name.toList) : IsAtom name := by
  have spells := formed.spells
  rw [String.ofList_toList] at spells
  exact isAtom_iff_spells.mpr spells

/-- `Layout tokens text` says that the text prints the tokens. -/
inductive Layout : List Token → List Char → Prop where
  | done : Layout [] []
  | blank {c : Char} {tokens : List Token} {text : List Char} : Text.isBlank c = true →
      Layout tokens text → Layout tokens (c :: text)
  /-- A comment goes to the end of its line. -/
  | comment {note : List Char} {tokens : List Token} {text : List Char} : '\n' ∉ note →
      Layout tokens text → Layout tokens (';' :: note ++ '\n' :: text)
  | opening {tokens : List Token} {text : List Char} :
      Layout tokens text → Layout (.opening :: tokens) ('(' :: text)
  | closing {tokens : List Token} {text : List Char} :
      Layout tokens text → Layout (.closing :: tokens) (')' :: text)
  /-- After an atom comes a blank, a parenthesis or a comment. -/
  | atom {name : String} {tokens : List Token} {text : List Char} : WellFormed name.toList →
      (∀ c, text.head? = some c → separates c) → Layout tokens text →
      Layout (.atom name :: tokens) (name.toList ++ text)

namespace Layout

variable {tokens more : List Token} {text rest : List Char}

theorem spells (layout : Layout tokens text) : Spells text tokens := by
  induction layout with
  | done => exact Spells.nil
  | blank white _ ih => exact (Seals.blank white).spells_append ih
  | @comment note tokens text oneLine _ ih =>
    have split : ';' :: note ++ '\n' :: text = (';' :: note ++ ['\n']) ++ text := by simp
    rw [split]
    exact (Seals.comment oneLine).spells_append ih
  | opening _ ih => exact Seals.opening.spells_append ih
  | closing _ ih => exact Seals.closing.spells_append ih
  | @atom name tokens text formed apart _ ih =>
    have single : Spells name.toList [.atom name] := isAtom_iff_spells.mp formed.isAtom
    cases text with
    | nil =>
      have same : tokens = [] := by
        have read := ih.tokenize
        cases read
        rfl
      rw [same, List.append_nil]
      exact single
    | cons c rest => exact single.append ih (apart c rfl)

theorem wellFormed (layout : Layout tokens text) :
    ∀ name, .atom name ∈ tokens → WellFormed name.toList := by
  induction layout with
  | done =>
    intro name member
    cases member
  | blank _ _ ih | comment _ _ ih => exact ih
  | opening _ ih | closing _ ih =>
    intro name member
    rcases List.mem_cons.mp member with same | member
    · cases same
    · exact ih name member
  | atom formed _ _ ih =>
    intro name member
    rcases List.mem_cons.mp member with same | member
    · cases same
      exact formed
    · exact ih name member

theorem append (first : Layout tokens text) (second : Layout more rest)
    (apart : ∀ c, rest.head? = some c → separates c) :
    Layout (tokens ++ more) (text ++ rest) := by
  induction first with
  | done => exact second
  | blank white _ ih => exact .blank white ih
  | @comment note tokens text oneLine _ ih =>
    have split : ';' :: note ++ '\n' :: text ++ rest = ';' :: note ++ '\n' :: (text ++ rest) := by
      simp
    rw [split]
    exact .comment oneLine ih
  | opening _ ih => exact .opening ih
  | closing _ ih => exact .closing ih
  | @atom name tokens text formed apartFirst _ ih =>
    rw [List.append_assoc]
    refine .atom formed ?_ ih
    intro c same
    cases text with
    | nil => exact apart c same
    | cons d text => exact apartFirst c same

end Layout

mutual
/-- The canonical text of a tree with well-formed atoms prints its tokens. -/
theorem layout_chars : (tree : Sexp) → EveryAtom (WellFormed ·.toList) [tree] →
    Layout tree.tokens tree.chars
  | .atom text, formed => by
    have alone : Layout [.atom text] (text.toList ++ []) :=
      .atom ((everyAtom_atom text []).mp formed).1 nofun .done
    rw [List.append_nil] at alone
    rw [chars_atom]
    exact alone
  | .list items, formed => by
    have inside := layout_spaced items ((everyAtom_list items []).mp formed).1
    rw [chars_list, tokens_list]
    exact .opening (inside.append (.closing .done) (by rintro c ⟨⟩; rfl))

theorem layout_spaced : (items : List Sexp) → EveryAtom (WellFormed ·.toList) items →
    Layout (flatten items) (spaced items)
  | [], _ => .done
  | [item], formed => by simpa using layout_chars item formed
  | item :: next :: items, formed => by
    obtain ⟨first, later⟩ := (everyAtom_cons item (next :: items)).mp formed
    have rest := layout_spaced (next :: items) later
    rw [spaced_cons_cons, flatten_cons]
    exact (layout_chars item first).append (.blank (c := ' ') rfl rest) (by rintro c ⟨⟩; rfl)
end

end SmtSession.Sexp

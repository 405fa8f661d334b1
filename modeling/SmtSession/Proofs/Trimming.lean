import Mathlib.Data.List.Infix
import SmtSession.Text.Basic

namespace SmtSession.Text

def IsBlankRun (cs : List Char) : Prop := ∀ c ∈ cs, isBlank c = true

instance (cs : List Char) : Decidable (IsBlankRun cs) := List.decidableBAll _ cs

def IsDark (cs : List Char) : Prop := ∀ c ∈ cs, isBlank c = false

instance (cs : List Char) : Decidable (IsDark cs) := List.decidableBAll _ cs

/-- A text that neither begins nor ends with a blank. -/
structure IsTrimmed (cs : List Char) : Prop where
  first : ∀ c, cs.head? = some c → isBlank c = false
  last : ∀ c, cs.getLast? = some c → isBlank c = false

theorem isBlankRun_nil : IsBlankRun [] := fun _ absent => absurd absent List.not_mem_nil

theorem isDark_nil : IsDark [] := fun _ absent => absurd absent List.not_mem_nil

theorem IsBlankRun.reverse {cs : List Char} (blank : IsBlankRun cs) : IsBlankRun cs.reverse :=
  fun c member => blank c (List.mem_reverse.mp member)

theorem trimStart_append {lead : List Char} (rest : List Char) (blank : IsBlankRun lead) :
    trimStart (lead ++ rest) = trimStart rest := List.dropWhile_append_of_pos blank

theorem trimStart_eq_self {cs : List Char} (first : ∀ c, cs.head? = some c → isBlank c = false) :
    trimStart cs = cs := by
  cases cs with
  | nil => rfl
  | cons c rest =>
    have dark : ¬isBlank c = true := by simp [first c rfl]
    exact List.dropWhile_cons_of_neg dark

theorem trimStart_split (cs : List Char) :
    ∃ lead, IsBlankRun lead ∧ cs = lead ++ trimStart cs := by
  refine ⟨cs.takeWhile isBlank, ?_, List.takeWhile_append_dropWhile.symm⟩
  intro c member
  exact List.all_eq_true.mp List.all_takeWhile c member

theorem trim_split (cs : List Char) :
    ∃ lead trail, IsBlankRun lead ∧ IsBlankRun trail ∧ cs = lead ++ trim cs ++ trail := by
  obtain ⟨lead, blankLead, splitLead⟩ := trimStart_split cs
  obtain ⟨trail, blankTrail, splitTrail⟩ := trimStart_split (trimStart cs).reverse
  refine ⟨lead, trail.reverse, blankLead, blankTrail.reverse, ?_⟩
  have inner : trimStart cs = trim cs ++ trail.reverse := by
    have reversed := congrArg List.reverse splitTrail
    simpa [trim, trimEnd] using reversed
  rw [List.append_assoc, ← inner]
  exact splitLead

theorem trim_framed {lead inner trail : List Char} (trimmed : IsTrimmed inner)
    (blankLead : IsBlankRun lead) (blankTrail : IsBlankRun trail) :
    trim (lead ++ inner ++ trail) = inner := by
  cases inner with
  | nil =>
    have blank : IsBlankRun (lead ++ trail) := by
      intro c member
      exact (List.mem_append.mp member).elim (blankLead c) (blankTrail c)
    have gone : trimStart (lead ++ trail) = [] := by
      have gone := trimStart_append [] blank
      rwa [List.append_nil] at gone
    rw [List.append_nil, trim, gone]
    rfl
  | cons c rest =>
    have start : trimStart (lead ++ (c :: rest) ++ trail) = c :: rest ++ trail := by
      rw [List.append_assoc, trimStart_append _ blankLead]
      exact trimStart_eq_self (fun d same => trimmed.first d same)
    have back : trimStart (c :: rest).reverse = (c :: rest).reverse := by
      refine trimStart_eq_self ?_
      intro d same
      exact trimmed.last d (by rw [← same, List.head?_reverse])
    rw [trim, start, trimEnd, List.reverse_append, trimStart_append _ blankTrail.reverse, back,
      List.reverse_reverse]

theorem head?_trim {lead : List Char} {c : Char} (rest : List Char) (blank : IsBlankRun lead)
    (dark : isBlank c = false) : (trim (lead ++ c :: rest)).head? = some c := by
  have start : trimStart (lead ++ c :: rest) = c :: rest := by
    rw [trimStart_append _ blank]
    exact List.dropWhile_cons_of_neg (by simp [dark])
  have last : trimStart [c] = [c] := List.dropWhile_cons_of_neg (by simp [dark])
  rw [trim, start, trimEnd, List.head?_reverse, List.reverse_cons, trimStart, List.dropWhile_append]
  rw [trimStart] at last
  split <;> simp [last]

theorem trim_eq_self {cs : List Char} (trimmed : IsTrimmed cs) : trim cs = cs := by
  have framed := trim_framed trimmed isBlankRun_nil isBlankRun_nil
  simpa using framed

theorem between?_framed (opening inner closing : List Char) :
    between? opening closing (opening ++ (inner ++ closing)) = some inner := by
  rw [between?, List.isPrefixOf?_eq_some_iff_append_eq.mpr rfl, Option.bind_some,
    List.isSuffixOf?_eq_some_iff_append_eq]

theorem isTrimmed_between {first : Char} (middle : List Char) {last : List Char}
    (darkFirst : isBlank first = false) (darkLast : IsDark last)
    (some : last ≠ []) : IsTrimmed (first :: (middle ++ last)) where
  first := by
    rintro c ⟨⟩
    exact darkFirst
  last := by
    intro c same
    rw [← List.cons_append, List.getLast?_append, List.getLast?_eq_some_getLast some,
      Option.some_or, Option.some.injEq] at same
    exact darkLast c (same ▸ List.getLast_mem some)

theorem isTrimmed_of_dark {cs : List Char} (dark : IsDark cs) : IsTrimmed cs where
  first c same := dark c (List.mem_of_head? same)
  last c same := dark c (List.mem_of_getLast? same)

end SmtSession.Text

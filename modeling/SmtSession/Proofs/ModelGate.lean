import SmtSession.Proofs.Milestones
import SmtSession.Proofs.Replay

namespace SmtSession

namespace Session

variable {β ε : Type}

section Gate

variable [Backend β] [Emitter ε] {session : Session β ε}

/-- A model is asked for once, of the side that answers checks, and nothing of the other side. -/
def AsksForModel (session : Session β ε) : Prop :=
  match session.mode with
  | .native => ∃ answer, session.contacts .model = ⟨[.model answer], []⟩
  | .external => ∃ result, session.contacts .model = ⟨[], [⟨.getModel, result⟩]⟩

/-- A model is asked for when it is due, and refused otherwise. -/
structure Gated (session : Session β ε) (due : Prop) : Prop where
  asks : session.AsksForModel ↔ due
  silent : ¬ due → session.contacts .model = {}
  refused : session.state = .idle → ¬ due → session.model = (.error .noModel, session)

theorem Gated.ofAsked {due : Prop} (asked : session.AsksForModel) (holds : due) :
    session.Gated due :=
  ⟨iff_of_true asked holds, fun undue => absurd holds undue, fun _ undue => absurd holds undue⟩

end Gate

section Shadow

variable [Emitter ε] {session : Session Shadow ε}

/-- A shadow has noted an outcome, and would come to it again. -/
def Noted (outcome : Outcome) (backend : Option Shadow) : Prop :=
  ∀ shadow, backend = some shadow → shadow.lastCheck = some outcome ∧ shadow.outcome = outcome

/-- Two notes of the last check are kept, by a session in the native mode and by its shadow. They
agree about a check that is pending, and about one that was completed as long as nothing has changed
since. -/
structure Concordant (session : Session Shadow ε) : Prop where
  native : session.mode = .native
  past : ∀ generation outcome, session.lastCheck = some (generation, outcome) →
    generation ≤ session.generation
  completed : ∀ outcome, session.lastCheck = some (session.generation, outcome) →
    Noted outcome session.backend
  submitted : ∀ check, session.pending = some check →
    ∃ outcome, check.native = some outcome ∧ Noted outcome session.backend

omit [Emitter ε] in
theorem Concordant.congr {after : Session Shadow ε} (concordant : session.Concordant)
    (mode : after.mode = session.mode) (backend : after.backend = session.backend)
    (standing : after.standing = session.standing) (pending : after.pending = session.pending) :
    after.Concordant := by
  obtain ⟨generation, lastCheck⟩ := Standing.mk.inj standing
  refine ⟨mode.trans concordant.native, ?_, ?_, ?_⟩
  · rw [generation, lastCheck]
    exact concordant.past
  · rw [generation, lastCheck, backend]
    exact concordant.completed
  · rw [pending, backend]
    exact concordant.submitted

omit [Emitter ε] in
theorem Concordant.book (concordant : session.Concordant) (still : session.pending = none)
    (operation : Operation) (declared : List (String × SmtSort)) (backend : Option Shadow) :
    ({ session with backend }.book operation declared).Concordant := by
  -- The new generation is ahead of every check that was completed, so nothing is left to agree on.
  have past : ∀ generation outcome, session.lastCheck = some (generation, outcome) →
      generation ≤ session.generation + 1 :=
    fun generation outcome noted => Nat.le_succ_of_le (concordant.past generation outcome noted)
  have outdated : ∀ outcome, session.lastCheck ≠ some (session.generation + 1, outcome) :=
    fun outcome noted => Nat.not_succ_le_self _ (concordant.past _ outcome noted)
  have fresh : ({ session with
      backend, generation := session.generation + 1 } : Session Shadow ε).Concordant :=
    ⟨concordant.native, past, fun outcome noted => absurd noted (outdated outcome),
      fun check pending => absurd pending (by simp [still])⟩
  cases operation <;> exact fresh.congr rfl rfl rfl rfl

theorem Concordant.emit (concordant : session.Concordant) (command : Command) :
    (session.emit command).2.Concordant := by
  rcases emit_cases (.told command) command session with ⟨_, _, sent, _⟩ | ⟨_, _, sent, _⟩ <;>
    rw [sent] <;> exact concordant.congr rfl rfl rfl rfl

omit [Emitter ε] in
/-- A shadow that is checked notes its outcome, and keeps to what it has noted before. -/
theorem Concordant.check {shadow : Shadow} (concordant : session.Concordant)
    (present : session.backend = some shadow) (still : session.pending = none) :
    Noted shadow.outcome (some shadow.check.2) ∧
      Concordant { session with backend := some shadow.check.2 } := by
  have noted : Noted shadow.outcome (some shadow.check.2) := by
    rintro _ ⟨⟩
    exact ⟨rfl, rfl⟩
  refine ⟨noted, concordant.native, concordant.past, ?_, ?_⟩
  -- The outcome of a shadow depends on its frames alone, so it is the one of the completed check.
  · intro outcome latest
    obtain ⟨_, rfl⟩ := concordant.completed outcome latest shadow present
    exact noted
  · intro check pending
    exact absurd pending (by simp [still])

end Shadow

/-- A session in the native mode whose solver says nothing. -/
def solitary : Session Shadow Transcript where
  config := { quick with mode := .native }
  options := []
  backend := some {}
  context :=
    { emitter := {}
      exchange := { notices := [createdNotice { quick with mode := .native } []] }
      origin := .channel }

end Session

end SmtSession

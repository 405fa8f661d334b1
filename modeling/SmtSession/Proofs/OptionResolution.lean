import SmtSession.Proofs.Milestones

namespace SmtSession

/-- Letters and digits of ASCII, and the other characters of simple symbols. -/
def IsSymbolCharacter (c : Char) : Prop :=
  'a' ≤ c ∧ c ≤ 'z' ∨ 'A' ≤ c ∧ c ≤ 'Z' ∨ '0' ≤ c ∧ c ≤ '9' ∨ c ∈ "~!@$%^&*_-+=<>.?/".toList

/-- Simple symbols of SMT-LIB: not empty, and no digit stands first. -/
inductive IsSimpleSymbol : List Char → Prop where
  | intro {c : Char} {rest : List Char} : ¬('0' ≤ c ∧ c ≤ '9') →
      (∀ d ∈ c :: rest, IsSymbolCharacter d) → IsSimpleSymbol (c :: rest)

section Symbols

variable {c : Char}

theorem isLower_iff : c.isLower = true ↔ 'a' ≤ c ∧ c ≤ 'z' := by
  change (decide ('a' ≤ c) && decide (c ≤ 'z')) = true ↔ _
  rw [Bool.and_eq_true, decide_eq_true_eq, decide_eq_true_eq]

theorem isUpper_iff : c.isUpper = true ↔ 'A' ≤ c ∧ c ≤ 'Z' := by
  change decide ('A' ≤ c ∧ c ≤ 'Z') = true ↔ _
  rw [decide_eq_true_eq]

theorem isDigit_iff : c.isDigit = true ↔ '0' ≤ c ∧ c ≤ '9' := by
  change (decide ('0' ≤ c) && decide (c ≤ '9')) = true ↔ _
  rw [Bool.and_eq_true, decide_eq_true_eq, decide_eq_true_eq]

theorem isAlphanum_iff : c.isAlphanum = true ↔
    ('A' ≤ c ∧ c ≤ 'Z' ∨ 'a' ≤ c ∧ c ≤ 'z') ∨ '0' ≤ c ∧ c ≤ '9' := by
  change (c.isUpper || c.isLower || c.isDigit) = true ↔ _
  rw [Bool.or_eq_true, Bool.or_eq_true, isUpper_iff, isLower_iff, isDigit_iff]

theorem isSymbolChar_iff : isSymbolChar c = true ↔ IsSymbolCharacter c := by
  simp only [isSymbolChar, IsSymbolCharacter, Bool.or_eq_true, isAlphanum_iff,
    List.contains_iff_mem, or_assoc]
  exact or_left_comm

theorem isSymbol_iff {text : String} : isSymbol text = true ↔ IsSimpleSymbol text.toList := by
  rw [isSymbol]
  cases text.toList with
  | nil => exact iff_of_false nofun nofun
  | cons c rest =>
    simp only [Bool.and_eq_true, Bool.not_eq_true', List.all_eq_true, isSymbolChar_iff]
    rw [← Bool.not_eq_true, isDigit_iff]
    constructor
    · rintro ⟨first, all⟩
      exact .intro first all
    · rintro ⟨first, all⟩
      exact ⟨first, all⟩

end Symbols

namespace RawOption

/-- What a raw option states: its name is a simple symbol, and its value is a number of 64 bits
without sign or another simple symbol. -/
inductive States : RawOption → SolverOption → Prop where
  | integer {name : String} (value : UInt64) : IsSimpleSymbol name.toList →
      States ⟨name, .number (.natural value)⟩ ⟨name, .integer value⟩
  | symbol {name value : String} : IsSimpleSymbol name.toList → IsSimpleSymbol value.toList →
      States ⟨name, .string value⟩ ⟨name, .symbol value⟩

variable {raw : RawOption} {option : SolverOption}

theorem States.ofRaw (states : raw.States option) : SolverOption.ofRaw raw = .ok option := by
  cases states with
  | integer value named =>
    simp only [SolverOption.ofRaw, SolverOption.value?, isSymbol_iff.mpr named, ↓reduceIte]
  | symbol named valued =>
    simp only [SolverOption.ofRaw, SolverOption.value?, isSymbol_iff.mpr named,
      isSymbol_iff.mpr valued, ↓reduceIte]

/-- The value of an option in form is printed as one that is read as itself. -/
theorem States.toRaw (states : raw.States option) : option.toRaw.States option := by
  cases states with
  | integer value named => exact .integer value named
  | symbol named valued => exact .symbol named valued

end RawOption

namespace SessionConfig

variable {raws : List RawOption} {options : List SolverOption}

end SessionConfig

namespace Session

section Backends

variable {β ε : Type} {P : β → Prop} {session after : Session β ε}

/-- The backend is as stated, until the session is destroyed. -/
def BackendIs (P : β → Prop) (session : Session β ε) : Prop :=
  ∀ backend, session.backend = some backend → P backend

theorem BackendIs.same (held : session.BackendIs P) (same : after.backend = session.backend) :
    after.BackendIs P := by
  intro backend present
  exact held backend (same ▸ present)

/-- A backend that is asked, or left alone, stays as stated if asking keeps it so. -/
theorem BackendIs.asked {ask : β → β} (kept : ∀ backend, P backend → P (ask backend))
    (held : session.BackendIs P)
    (asked : after.backend = session.backend ∨ ∃ backend,
      session.backend = some backend ∧ after.backend = some (ask backend)) :
    after.BackendIs P := by
  rcases asked with same | ⟨before, present, now⟩
  · exact held.same same
  · intro backend found
    obtain rfl := Option.some.inj (now.symm.trans found)
    exact kept before (held before present)

theorem backend_book (operation : Operation) (declared : List (String × SmtSort))
    (session : Session β ε) : (session.book operation declared).backend = session.backend := by
  cases operation <;> rfl

variable [Emitter ε]

theorem backend_emit (command : Command) (session : Session β ε) :
    (session.emit command).2.backend = session.backend := by
  simp only [emit]
  rcases session.context.send command with ⟨err | ⟨⟩, context⟩ <;> rfl

variable [Backend β]

theorem apply_backend (operation : Operation) (session : Session β ε) :
    (session.apply operation).2.backend = session.backend ∨ ∃ backend,
      session.backend = some backend ∧
        (session.apply operation).2.backend = some (Backend.perform operation backend).2 := by
  rcases session.apply_contacts operation with
    ⟨_, _, called, _⟩ | ⟨_, _, before, _, _, present, made, called, _⟩ |
    ⟨_, before, _, _, present, made, called, _⟩
  · exact .inl (by rw [called])
  · exact .inr ⟨before, present, by rw [called, made]⟩
  · exact .inr ⟨before, present, by rw [called, backend_emit, backend_book, made]⟩

/-- What all questions to its backend keep, a step of a session keeps. -/
theorem BackendIs.step
    (performed : ∀ operation backend, P backend → P (Backend.perform operation backend).2)
    (checked : ∀ backend, P backend → P (Backend.check backend).2)
    (modelled : ∀ backend, P backend → P (Backend.model backend).2)
    (held : session.BackendIs P) (step : Step) : (session.step step).2.BackendIs P := by
  cases step with
  | call call =>
    apply call_preserves (motive := BackendIs P)
    · intro operation _
      exact held.asked (performed operation) (session.apply_backend operation)
    · intro _
      rcases session.destroy_cases with ⟨_, called, _⟩ | ⟨_, _, called, _⟩ <;> rw [called]
      · exact held
      · exact nofun
    · intro session held
      exact held.asked checked session.submitCheck_backend
    · intro session held
      exact held.same session.backend_awaitOutcome
    · intro session held
      exact held.asked modelled session.model_backend
    · exact held
  | signal | expect | settle => exact held

theorem BackendIs.run
    (performed : ∀ operation backend, P backend → P (Backend.perform operation backend).2)
    (checked : ∀ backend, P backend → P (Backend.check backend).2)
    (modelled : ∀ backend, P backend → P (Backend.model backend).2)
    (held : session.BackendIs P) (steps : List Step) : (session.run steps).2.BackendIs P := by
  induction steps generalizing session with
  | nil => exact held
  | cons step rest ih => exact ih (held.step performed checked modelled step)

end Backends

end Session

def BackendCall.isConfigure : BackendCall → Bool
  | .configure .. => true
  | _ => false

namespace RecordedBackend

variable {β : Type} {options : List SolverOption} {recorded : RecordedBackend β}

/-- The first call was the configuration with these options, which the backend has accepted, and no
other call was one. -/
def ConfiguredOnce (options : List SolverOption) (recorded : RecordedBackend β) : Prop :=
  ∃ later, recorded.calls = .configure options (.ok ()) :: later ∧
    ∀ call ∈ later, call.isConfigure = false

/-- Another call than a configuration leaves one configuration, at the front. -/
theorem ConfiguredOnce.record {α : Type} {call : Except SolverError α → BackendCall}
    (once : recorded.ConfiguredOnce options) (other : ∀ answer, (call answer).isConfigure = false)
    (answered : Except SolverError α × β) :
    (RecordedBackend.record call recorded.calls answered).2.ConfiguredOnce options := by
  obtain ⟨later, calls, others⟩ := once
  refine ⟨later ++ [call answered.1], by rw [RecordedBackend.record, calls]; rfl, ?_⟩
  intro one member
  rcases List.mem_append.mp member with earlier | last
  · exact others one earlier
  · rw [List.mem_singleton.mp last]
    exact other _

variable [Backend β] {ε : Type} [Emitter ε] {session : Session (RecordedBackend β) ε}

end RecordedBackend

namespace Session

section Starts

variable {β ε : Type} [Backend β] {config : SessionConfig} {options : List SolverOption}
variable {backend after : β}

end Starts

end Session

end SmtSession

import Mathlib.Data.List.Induction
import SmtSession.Proofs.Recording

/-! Milestones: the changes of a run that take effect and its checks that are completed, in the
order in which this happens. The generation of a session and its note of the last check are a count and a
look at its milestones. -/
namespace SmtSession

inductive Milestone where
  /-- A check is completed. -/
  | completed (outcome : Outcome)
  /-- A change has taken effect. -/
  | changed
  deriving DecidableEq, Inhabited

/-- The generation of a session, and its note of the last check. -/
structure Standing where
  generation : Nat := 0
  lastCheck : Option (Nat × Outcome) := none

namespace Standing

def enter (standing : Standing) : Milestone → Standing
  | .completed outcome => { standing with lastCheck := some (standing.generation, outcome) }
  | .changed => { standing with generation := standing.generation + 1 }

def ofMilestones (milestones : List Milestone) : Standing := milestones.foldl enter {}

theorem ofMilestones_concat (milestones : List Milestone) (milestone : Milestone) :
    ofMilestones (milestones ++ [milestone]) = (ofMilestones milestones).enter milestone := by
  rw [ofMilestones, List.foldl_append]
  rfl

/-- The generation counts the changes. -/
theorem generation_enter (standing : Standing) (milestones : List Milestone) :
    (milestones.foldl enter standing).generation =
      standing.generation + milestones.count .changed := by
  induction milestones generalizing standing with
  | nil => rfl
  | cons milestone rest ih =>
    rw [List.foldl_cons, ih]
    cases milestone <;> simp [enter]
    omega

/-- The last check was completed at an earlier generation, or at this one. -/
theorem lastCheck_le {milestones : List Milestone} {generation : Nat} {outcome : Outcome}
    (noted : (ofMilestones milestones).lastCheck = some (generation, outcome)) :
    generation ≤ (ofMilestones milestones).generation := by
  induction milestones using List.reverseRecOn with
  | nil => cases noted
  | append_singleton earlier milestone ih =>
    rw [ofMilestones_concat] at noted ⊢
    cases milestone with
    | completed outcome =>
      obtain ⟨rfl, _⟩ := Prod.mk.inj (Option.some.inj noted)
      exact Nat.le_refl _
    | changed => exact Nat.le_succ_of_le (ih noted)

end Standing

/-- Whether a call is about checks and models, and neither makes a change nor ends the session. -/
def Call.isInquiry : Call → Bool
  | .apply _ | .destroy => false
  | .submitCheck | .awaitOutcome | .check | .model | .getModel => true

namespace Session

variable {β ε : Type}

def standing (session : Session β ε) : Standing := ⟨session.generation, session.lastCheck⟩

/-- The outcome of the check that a call completes. -/
def completion [Backend β] [Emitter ε] (session : Session β ε) : Call → Option Outcome
  | .awaitOutcome => session.awaitOutcome.1.toOption
  | .check | .getModel => session.check.1.toOption
  | _ => none

/-- Whether the backend makes a change in a call, or is given up in it. -/
def takesEffect [Backend β] [Emitter ε] (session : Session β ε) (call : Call) : Bool :=
  (session.contacts call).calls.any BackendCall.isChange ||
    session.backend.isSome && (session.call call).2.backend.isNone

section

variable [Backend β] [Emitter ε]

def callMilestones (session : Session β ε) (call : Call) : List Milestone :=
  (session.completion call).toList.map .completed ++
    if session.takesEffect call then [.changed] else []

def stepMilestones (session : Session β ε) : Step → List Milestone
  | .call call => session.callMilestones call
  | .signal _ | .expect _ | .settle => []

def milestones (session : Session β ε) : List Step → List Milestone
  | [] => []
  | step :: rest => session.stepMilestones step ++ (session.step step).2.milestones rest

end

section Parts

variable [Backend β] [Emitter ε] {session : Session β ε}

/-- A call makes a change, ends the session, or is made of the parts of a check and of a request for
a model. -/
theorem call_preserves {motive : Session β ε → Prop} {call : Call}
    (applied : ∀ operation, call = .apply operation → motive (session.apply operation).2)
    (destroyed : call = .destroy → motive session.destroy.2)
    (submitted : ∀ session, motive session → motive session.submitCheck.2)
    (awaited : ∀ session, motive session → motive session.awaitOutcome.2)
    (fetched : ∀ session, motive session → motive session.model.2) (held : motive session) :
    motive (session.call call).2 := by
  have checked : motive session.check.2 := by
    have held := submitted session held
    simp only [Session.check]
    rcases called : session.submitCheck with ⟨err | ⟨⟩, after⟩ <;> rw [called] at held
    · exact held
    · exact awaited after held
  cases call with
  | apply operation => exact applied operation rfl
  | submitCheck => exact submitted session held
  | awaitOutcome => exact awaited session held
  | check => exact checked
  | model => exact fetched session held
  | getModel =>
    simp only [call, Session.getModel]
    rcases called : session.check with ⟨err | outcome, after⟩ <;> rw [called] at checked
    · exact checked
    · simp only
      split
      · exact fetched after checked
      · exact checked
  | destroy => exact destroyed rfl

/-- What checks and requests for models keep is kept by the parts of both. -/
theorem inquiry_preserves {motive : Session β ε → Prop} {call : Call}
    (inquiry : call.isInquiry = true)
    (submitted : ∀ session, motive session → motive session.submitCheck.2)
    (awaited : ∀ session, motive session → motive session.awaitOutcome.2)
    (fetched : ∀ session, motive session → motive session.model.2) (held : motive session) :
    motive (session.call call).2 := by
  refine call_preserves ?_ ?_ submitted awaited fetched held
  · rintro operation rfl
    cases inquiry
  · rintro rfl
    cases inquiry

omit [Backend β] in
theorem backend_submit (answer : Option Outcome) :
    (session.submit answer).2.backend = session.backend := by
  rcases sendQuery_cases .checkSat session with ⟨_, _, sent, _⟩ | ⟨_, _, sent, _⟩
  · simp only [submit, sent]
  · simp only [submit, sent]
    rfl

/-- A check that is submitted asks the backend, or leaves it alone. -/
theorem submitCheck_backend :
    session.submitCheck.2.backend = session.backend ∨ ∃ backend,
      session.backend = some backend ∧
        session.submitCheck.2.backend = some (Backend.check backend).2 := by
  rcases session.submitCheck_contacts with
    ⟨err, _, called, _⟩ | ⟨err, before, after, _, _, present, answered, called, _⟩ |
    ⟨calls, answer, backend, _, consulted, called, _⟩
  · exact .inl (by rw [called])
  · exact .inr ⟨before, present, by rw [called, answered]⟩
  · rw [called, backend_submit]
    rcases consulted with _ | ⟨_, present, answered⟩
    · exact .inl rfl
    · exact .inr ⟨_, present, by rw [answered]⟩

theorem model_backend :
    session.model.2.backend = session.backend ∨ ∃ backend,
      session.backend = some backend ∧
        session.model.2.backend = some (Backend.model backend).2 := by
  rcases session.model_contacts with
    ⟨err, _, called, _⟩ | ⟨backend, _, _, _, present, called, _⟩ | ⟨_, _, _, called, _⟩
  · exact .inl (by rw [called])
  · exact .inr ⟨backend, present, by rw [called]⟩
  · left
    rw [called]
    rcases session.fetchExternalModel_cases with
      ⟨_, _, _, _, _, rfl, _, fetched, _⟩ | ⟨_, _, fetched, _⟩
    · rw [fetched]
    · rw [fetched]
      rfl

omit [Backend β] [Emitter ε] in
theorem outcomeOfPending_keeps (check : PendingCheck) (session : Session β ε) :
    ∃ result context, outcomeOfPending check session = (result, { session with context }) := by
  rcases check with ⟨ticket, _ | outcome⟩
  · rcases waited : session.context.wait ticket session.config.checkTimeout
      session.config.heartbeat with ⟨result, after⟩
    simp only [outcomeOfPending, waitForOutcome_of_wait waited]
    split <;> exact ⟨_, _, rfl⟩
  · exact ⟨.ok outcome, session.context, rfl⟩

omit [Backend β] [Emitter ε] in
/-- A pending check is collected, and becomes the last one when it has an outcome. -/
theorem awaitOutcome_settles (session : Session β ε) :
    (∃ err, session.awaitOutcome = (.error err, session)) ∨
    ∃ check result context, session.state ≠ .destroyed ∧ session.pending = some check ∧
      session.awaitOutcome = (result, { session with
        pending := none, state := .idle, context,
        lastCheck := (result.toOption.map (session.generation, ·)).or session.lastCheck }) := by
  by_cases finished : session.state = .destroyed
  · exact .inl ⟨.destroyedSessionUse, by simp only [awaitOutcome, finished, ↓reduceIte]⟩
  rcases waited : session.pending with _ | check
  · exact .inl ⟨.noPendingCheck, by simp only [awaitOutcome, finished, waited, ↓reduceIte]⟩
  obtain ⟨result, context, collected⟩ :=
    outcomeOfPending_keeps check { session with pending := none, state := .idle }
  refine .inr ⟨check, result, context, finished, rfl, ?_⟩
  rcases result with err | outcome
  · simp only [awaitOutcome, finished, waited, collected, ↓reduceIte]
    rfl
  · simp only [awaitOutcome, finished, waited, collected, ↓reduceIte]
    rfl

end Parts

def changes (backend : Option (RecordedBackend β)) : List BackendCall :=
  ((backend.map RecordedBackend.calls).getD []).filter BackendCall.isChange

/-- A session has its backend until it is destroyed, and a pending check while it awaits one. -/
structure Coherent (session : Session β ε) : Prop where
  backend : session.backend = none ↔ session.state = .destroyed
  pending : session.pending.isSome ↔ session.state = .awaitingCheckResult

theorem Coherent.still {session : Session β ε} (coherent : session.Coherent)
    (idle : session.state = .idle) : session.pending = none := by
  rw [← Option.not_isSome_iff_eq_none, coherent.pending, idle]
  exact nofun

variable [Backend β] [Emitter ε] {session : Session β ε}

theorem changes_submitCheck (session : Session (RecordedBackend β) (RecordedEmitter ε)) :
    changes session.submitCheck.2.backend = changes session.backend := by
  rcases session.submitCheck_backend with kept | ⟨backend, present, asked⟩
  · rw [kept]
  · simp [present, asked, changes, Backend.check, RecordedBackend.record, BackendCall.isChange]

theorem changes_model (session : Session (RecordedBackend β) (RecordedEmitter ε)) :
    changes session.model.2.backend = changes session.backend := by
  rcases session.model_backend with kept | ⟨backend, present, asked⟩
  · rw [kept]
  · simp [present, asked, changes, Backend.model, RecordedBackend.record, BackendCall.isChange]

theorem submitCheck_backend_none (session : Session β ε) :
    session.submitCheck.2.backend = none ↔ session.backend = none := by
  rcases session.submitCheck_backend with kept | ⟨backend, present, asked⟩
  · rw [kept]
  · simp [present, asked]

theorem model_backend_none (session : Session β ε) :
    session.model.2.backend = none ↔ session.backend = none := by
  rcases session.model_backend with kept | ⟨backend, present, asked⟩
  · rw [kept]
  · simp [present, asked]

omit [Backend β] [Emitter ε] in
theorem backend_awaitOutcome : session.awaitOutcome.2.backend = session.backend := by
  rcases session.awaitOutcome_settles with ⟨err, called⟩ | ⟨_, _, _, _, _, called⟩ <;> rw [called]

/-- Checks and requests for models make no change, and leave the backend in its place. -/
theorem takesEffect_inquiry {call : Call} (inquiry : call.isInquiry = true) :
    session.takesEffect call = false := by
  -- One invariant for the recorded run of the call, one for the call itself.
  have unchanged : changes (session.recorded.call call).2.backend = [] := by
    apply inquiry_preserves (motive := fun recorded => changes recorded.backend = []) inquiry
    · intro recorded none
      rw [changes_submitCheck, none]
    · intro recorded none
      rw [backend_awaitOutcome, none]
    · intro recorded none
      rw [changes_model, none]
    · simp only [recorded]
      cases session.backend <;> rfl
  have kept : (session.call call).2.backend = none ↔ session.backend = none := by
    apply inquiry_preserves inquiry
      (motive := fun after => after.backend = none ↔ session.backend = none)
    · intro after kept
      rw [submitCheck_backend_none, kept]
    · intro after kept
      rw [backend_awaitOutcome, kept]
    · intro after kept
      rw [model_backend_none, kept]
    · rfl
  have silent : (session.contacts call).calls.any BackendCall.isChange = false := by
    rw [List.any_eq_false]
    exact List.filter_eq_nil_iff.mp unchanged
  rw [takesEffect, silent]
  rcases present : session.backend with _ | backend
  · rfl
  · have kept : (session.call call).2.backend.isSome :=
      Option.isSome_iff_ne_none.mpr (by simp [kept, present])
    simp [kept]

/-- A call affects the backend when it is a change that is permitted and made, or the end of the
session. Whether a command of the call arrives makes no difference. -/
inductive Affects (session : Session β ε) : Call → Prop
  | change {operation : Operation} {declared : List (String × SmtSort)} {before after : β}
    (permitted : session.permit operation = .ok declared)
    (present : session.backend = some before)
    (made : Backend.perform operation before = (.ok (), after)) :
    Affects session (.apply operation)
  | destroy (live : session.state ≠ .destroyed) : Affects session .destroy

/-- A change that takes effect is counted, one that does not leaves the standing as it is. -/
theorem apply_effect (operation : Operation) (session : Session β ε) :
    session.takesEffect (.apply operation) = false ∧ ¬ session.Affects (.apply operation) ∧
        (session.apply operation).2.standing = session.standing ∨
      session.takesEffect (.apply operation) = true ∧ session.Affects (.apply operation) ∧
        (session.apply operation).2.standing = session.standing.enter .changed := by
  rcases session.apply_contacts operation with
    ⟨err, refused, called, contacts⟩ |
    ⟨_, err, before, after, _, present, rejected, called, contacts⟩ |
    ⟨declared, before, after, permitted, present, made, called, contacts⟩
  · refine .inl ⟨by simp [takesEffect, contacts, Session.call, called], ?_, by rw [called]⟩
    rintro ⟨permitted, present, _⟩
    rcases refused with refused | absent
    · simp [permitted] at refused
    · simp [present] at absent
  · refine .inl ⟨?_, ?_, by rw [called]; rfl⟩
    · simp [takesEffect, contacts, Session.call, called, BackendCall.isChange]
    · rintro ⟨_, found, made⟩
      obtain rfl := Option.some.inj (present.symm.trans found)
      simp [made] at rejected
  · refine .inr ⟨by simp [takesEffect, contacts, BackendCall.isChange],
      .change permitted present made, ?_⟩
    rw [called]
    rcases emit_cases (.told operation.command) operation.command
      ({ session with backend := some after }.book operation declared) with
      ⟨_, _, sent, _⟩ | ⟨_, _, sent, _⟩ <;> rw [sent] <;> cases operation <;> rfl

theorem destroy_effect (coherent : session.Coherent) :
    session.takesEffect .destroy = false ∧ ¬ session.Affects .destroy ∧
        session.destroy.2.standing = session.standing ∨
      session.takesEffect .destroy = true ∧ session.Affects .destroy ∧
        session.destroy.2.standing = session.standing.enter .changed := by
  rcases session.destroy_cases with ⟨finished, called, _⟩ | ⟨live, context, called, _⟩
  · have unasked : session.contacts .destroy = {} := by
      have finished : session.recorded.state = .destroyed := finished
      simp only [contacts, Session.call, destroy, finished, ↓reduceIte, record_recorded]
    refine .inl ⟨by simp [takesEffect, unasked, Session.call, called], ?_, by rw [called]⟩
    intro affects
    cases affects with
    | destroy live => exact live finished
  · have present : session.backend.isSome :=
      Option.isSome_iff_ne_none.mpr fun absent => live (coherent.backend.mp absent)
    refine .inr ⟨by simp [takesEffect, Session.call, called, present], .destroy live, ?_⟩
    rw [called]
    rfl

/-- What is seen of an effect is that of changes that are made and of the end. -/
theorem takesEffect_iff (coherent : session.Coherent) {call : Call} :
    session.takesEffect call = true ↔ session.Affects call := by
  cases call with
  | apply operation =>
    rcases session.apply_effect operation with ⟨idle, none, _⟩ | ⟨effective, affects, _⟩
    · simp [idle, none]
    · simp [effective, affects]
  | destroy =>
    rcases destroy_effect coherent with ⟨idle, none, _⟩ | ⟨effective, affects, _⟩
    · simp [idle, none]
    · simp [effective, affects]
  | submitCheck | awaitOutcome | check | model | getModel =>
    exact iff_of_false (ne_true_of_eq_false (takesEffect_inquiry rfl)) nofun

theorem submitCheck_standing (session : Session β ε) :
    session.submitCheck.2.standing = session.standing := by
  rcases session.submitCheck_cases with
    ⟨_, _, called, _⟩ | ⟨_, _, _, _, ⟨_, _, called, _⟩ | ⟨_, _, called, _⟩⟩ <;> rw [called] <;> rfl

theorem model_standing (session : Session β ε) : session.model.2.standing = session.standing := by
  rcases session.model_cases with
    ⟨_, _, _, called⟩ | ⟨_, _, _, _, _, called, _⟩ | ⟨_, called⟩
  · rw [called]
  · rw [called]
    rfl
  · rw [called]
    rcases session.fetchExternalModel_cases with
      ⟨_, _, _, _, _, rfl, _, fetched, _⟩ | ⟨_, _, fetched, _⟩ <;> rw [fetched] <;> rfl

omit [Backend β] [Emitter ε] in
theorem awaitOutcome_standing (session : Session β ε) :
    session.awaitOutcome.2.standing =
      (session.awaitOutcome.1.toOption.toList.map .completed).foldl Standing.enter
        session.standing := by
  rcases session.awaitOutcome_settles with ⟨err, called⟩ | ⟨_, result, _, _, _, called⟩
  · rw [called]
    rfl
  · rw [called]
    cases result <;> rfl

theorem check_standing (session : Session β ε) :
    session.check.2.standing =
      (session.check.1.toOption.toList.map .completed).foldl Standing.enter session.standing := by
  have submitted := session.submitCheck_standing
  simp only [Session.check]
  rcases called : session.submitCheck with ⟨err | ⟨⟩, after⟩ <;> rw [called] at submitted
  · exact submitted
  · rw [← submitted]
    exact after.awaitOutcome_standing

theorem getModel_standing (session : Session β ε) :
    session.getModel.2.standing =
      (session.check.1.toOption.toList.map .completed).foldl Standing.enter session.standing := by
  have checked := session.check_standing
  simp only [Session.getModel]
  rcases called : session.check with ⟨err | outcome, after⟩ <;> rw [called] at checked
  · exact checked
  · simp only
    split
    · exact after.model_standing.trans checked
    · exact checked

/-- The milestone of a check or a request for a model is the check that it completes. -/
theorem callMilestones_inquiry {call : Call} (inquiry : call.isInquiry = true) :
    session.callMilestones call = (session.completion call).toList.map .completed := by
  simp [callMilestones, takesEffect_inquiry inquiry]

theorem call_standing (coherent : session.Coherent) (call : Call) :
    (session.call call).2.standing =
      (session.callMilestones call).foldl Standing.enter session.standing := by
  have completed (inquiry : call.isInquiry = true) :
      session.callMilestones call = (session.completion call).toList.map .completed :=
    callMilestones_inquiry inquiry
  cases call with
  | apply operation =>
    rcases session.apply_effect operation with ⟨idle, _, same⟩ | ⟨effective, _, moved⟩
    · simpa [callMilestones, completion, idle, Session.call] using same
    · simpa [callMilestones, completion, effective, Session.call] using moved
  | destroy =>
    rcases destroy_effect coherent with ⟨idle, _, same⟩ | ⟨effective, _, moved⟩
    · simpa [callMilestones, completion, idle, Session.call] using same
    · simpa [callMilestones, completion, effective, Session.call] using moved
  | submitCheck =>
    rw [completed rfl]
    exact session.submitCheck_standing
  | awaitOutcome =>
    rw [completed rfl]
    exact session.awaitOutcome_standing
  | check =>
    rw [completed rfl]
    exact session.check_standing
  | model =>
    rw [completed rfl]
    exact session.model_standing
  | getModel =>
    rw [completed rfl]
    exact session.getModel_standing

theorem apply_coherent (coherent : session.Coherent) (operation : Operation) :
    (session.apply operation).2.Coherent := by
  rcases session.apply_contacts operation with
    ⟨_, _, called, _⟩ | ⟨_, _, _, after, _, present, _, called, _⟩ |
    ⟨declared, _, after, permitted, present, _, called, _⟩
  · rw [called]
    exact coherent
  · have backend := coherent.backend
    simp only [present, reduceCtorEq, false_iff] at backend
    rw [called]
    exact ⟨by simp [backend], coherent.pending⟩
  · have idle := (permit_ok permitted).1
    have still := coherent.still idle
    rw [called]
    rcases emit_cases (.told operation.command) operation.command
      ({ session with backend := some after }.book operation declared) with
      ⟨_, _, sent, _⟩ | ⟨_, _, sent, _⟩ <;> rw [sent] <;> cases operation <;>
      exact ⟨by simp [book, faulted, idle], by simp [book, faulted, idle, still]⟩

omit [Backend β] in
theorem destroy_coherent (coherent : session.Coherent) : session.destroy.2.Coherent := by
  rcases session.destroy_cases with ⟨_, called, _⟩ | ⟨_, context, called, _⟩
  · rw [called]
    exact coherent
  · rw [called]
    exact ⟨by simp, by simp⟩

theorem submitCheck_coherent (coherent : session.Coherent) : session.submitCheck.2.Coherent := by
  have backend := session.submitCheck_backend_none
  rw [coherent.backend] at backend
  rcases session.submitCheck_cases with
    ⟨_, _, called, _⟩ | ⟨_, _, idle, _, ⟨_, _, called, _⟩ | ⟨_, _, called, _⟩⟩
  · rw [called] at backend ⊢
    exact ⟨backend, coherent.pending⟩
  · rw [called] at backend ⊢
    exact ⟨by simpa [idle] using backend, by simp⟩
  · have still := coherent.still idle
    rw [called] at backend ⊢
    exact ⟨by simpa [idle, faulted] using backend, by simp [faulted, still]⟩

omit [Backend β] [Emitter ε] in
theorem awaitOutcome_coherent (coherent : session.Coherent) :
    session.awaitOutcome.2.Coherent := by
  rcases session.awaitOutcome_settles with ⟨_, called⟩ | ⟨_, _, _, live, _, called⟩
  · rw [called]
    exact coherent
  · rw [called]
    exact ⟨by simp [coherent.backend, live], by simp⟩

theorem model_coherent (coherent : session.Coherent) : session.model.2.Coherent := by
  have backend := session.model_backend_none
  rw [coherent.backend] at backend
  rcases session.model_cases with
    ⟨_, _, _, called⟩ | ⟨_, _, _, _, _, called, _⟩ | ⟨retrieves, called⟩
  · rw [called]
    exact coherent
  · rw [called] at backend ⊢
    exact ⟨backend, coherent.pending⟩
  · have idle := retrieves_idle retrieves
    have still := coherent.still idle
    rw [called] at backend ⊢
    rcases session.fetchExternalModel_cases with
      ⟨_, _, _, _, _, rfl, _, fetched, _⟩ | ⟨_, _, fetched, _⟩
    · rw [fetched] at backend ⊢
      exact ⟨backend, coherent.pending⟩
    · rw [fetched] at backend ⊢
      exact ⟨by simpa [idle, faulted] using backend, by simp [faulted, still]⟩

theorem call_coherent (coherent : session.Coherent) (call : Call) :
    (session.call call).2.Coherent := by
  apply call_preserves (motive := Coherent)
  · intro operation _
    exact apply_coherent coherent operation
  · intro _
    exact destroy_coherent coherent
  · intro _ coherent
    exact submitCheck_coherent coherent
  · intro _ coherent
    exact awaitOutcome_coherent coherent
  · intro _ coherent
    exact model_coherent coherent
  · exact coherent

theorem step_coherent (coherent : session.Coherent) (step : Step) :
    (session.step step).2.Coherent := by
  cases step with
  | call call => exact call_coherent coherent call
  | signal _ | expect _ | settle => exact ⟨coherent.backend, coherent.pending⟩

theorem run_coherent (coherent : session.Coherent) (steps : List Step) :
    (session.run steps).2.Coherent := by
  induction steps generalizing session with
  | nil => exact coherent
  | cons step rest ih => exact ih (step_coherent coherent step)

/-- A run moves the standing of a session by its milestones. -/
theorem run_standing (coherent : session.Coherent) (steps : List Step) :
    (session.run steps).2.standing =
      (session.milestones steps).foldl Standing.enter session.standing := by
  induction steps generalizing session with
  | nil => rfl
  | cons step rest ih =>
    have now : (session.step step).2.standing =
        (session.stepMilestones step).foldl Standing.enter session.standing := by
      cases step with
      | call call => exact call_standing coherent call
      | signal _ | expect _ | settle => rfl
    rw [milestones, List.foldl_append, ← now]
    exact ih (step_coherent coherent step)

omit [Emitter ε] in
theorem startOn_coherent {config : SessionConfig} {backend : β} {context : Context ε}
    (started : startOn config backend context = .ok session) :
    session.Coherent ∧ session.standing = {} := by
  obtain ⟨_, _, _, _, rfl⟩ := startOn_ok started
  exact ⟨⟨by simp, by simp⟩, rfl⟩

/-- The standing of a session at any moment is that of its milestones. -/
theorem standing_of_started {config : SessionConfig} {backend : β} {context : Context ε}
    (started : startOn config backend context = .ok session) (steps : List Step) :
    (session.run steps).2.standing = .ofMilestones (session.milestones steps) := by
  obtain ⟨coherent, fresh⟩ := startOn_coherent started
  rw [run_standing coherent, fresh]
  rfl

end Session

end SmtSession

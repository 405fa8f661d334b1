import SmtSession.Proofs.Atomicity
import SmtSession.Proofs.Staleness
import SmtSession.Proofs.Transitions

namespace SmtSession

/-- What a faulted session answers to a call that does not end it. It has no check pending, and says
only this much when it is asked for an outcome. -/
def faultReply (fault : String) : Call → SolverError
  | .awaitOutcome => .noPendingCheck
  | .apply _ | .submitCheck | .check | .model | .getModel | .destroy => .desynchronized fault

namespace Session

variable {β ε : Type}

section Origin

variable {recorded : Session (RecordedBackend β) (RecordedEmitter ε)}

/-- If the session is faulted, a command on record was lost, and the result says which. -/
def TellsFault {α : Type}
    (called : Except SolverError α × Session (RecordedBackend β) (RecordedEmitter ε)) : Prop :=
  called.2.state = .faulted → ∃ command reason,
    ⟨command, .error reason⟩ ∈ called.2.record.deliveries ∧
      called.2.fault = some (deliveryFault command reason) ∧
      called.1 = .error (.desynchronized (deliveryFault command reason))

theorem TellsFault.of_sound {α : Type} {result : Except SolverError α}
    (sound : recorded.state ≠ .faulted) : TellsFault (result, recorded) :=
  fun faulted => absurd faulted sound

theorem TellsFault.map {α α' : Type} {result : Except SolverError α} (f : α → α')
    (tells : TellsFault (result, recorded)) : TellsFault (result.map f, recorded) := by
  intro faulted
  obtain ⟨command, reason, handed, fault, told⟩ := tells faulted
  exact ⟨command, reason, handed, fault, congrArg (Except.map f) told⟩

theorem TellsFault.error {α α' : Type} {err : SolverError}
    (tells : TellsFault ((.error err : Except SolverError α), recorded)) :
    TellsFault ((.error err : Except SolverError α'), recorded) := by
  intro faulted
  obtain ⟨command, reason, handed, fault, told⟩ := tells faulted
  exact ⟨command, reason, handed, fault, congrArg Except.error (Except.error.inj told)⟩

theorem TellsFault.sound {α : Type} {value : α} (tells : TellsFault (.ok value, recorded)) :
    recorded.state ≠ .faulted := by
  intro faulted
  obtain ⟨_, _, _, _, told⟩ := tells faulted
  cases told

variable [Emitter ε]

theorem emit_tellsFault (sound : recorded.state ≠ .faulted) (command : Command) :
    TellsFault (recorded.emit command) := by
  rcases outcome : (Emitter.delivery command recorded.context.emitter).result with reason | ⟨⟩
  · obtain ⟨context, _, lost⟩ := emit_lost outcome
    have record := record_emit command recorded
    rw [lost] at record ⊢
    intro _
    refine ⟨command, reason, ?_, rfl, rfl⟩
    rw [record]
    have last : ⟨command, .error reason⟩ = Emitter.delivery command recorded.context.emitter :=
      congrArg (Delivery.mk command) outcome.symm
    exact List.mem_append_right _ (List.mem_singleton.mpr last)
  · obtain ⟨context, _, arrived⟩ := emit_arrived outcome
    rw [arrived]
    exact .of_sound sound

theorem sendQuery_tellsFault (sound : recorded.state ≠ .faulted) (query : Command) :
    TellsFault (recorded.sendQuery query) := by
  refine TellsFault.map _ (emit_tellsFault ?_ query)
  exact sound

theorem submit_tellsFault (sound : recorded.state ≠ .faulted) (answer : Option Outcome) :
    TellsFault (recorded.submit answer) := by
  have asked := sendQuery_tellsFault sound .checkSat
  simp only [submit]
  rcases sent : recorded.sendQuery .checkSat with ⟨err | ticket, after⟩ <;> rw [sent] at asked
  · exact asked.error
  · exact .of_sound (by simp)

theorem fetchExternalModel_tellsFault (sound : recorded.state ≠ .faulted) :
    TellsFault recorded.fetchExternalModel := by
  have asked := sendQuery_tellsFault sound .getModel
  simp only [fetchExternalModel]
  rcases sent : recorded.sendQuery .getModel with ⟨err | ticket, after⟩ <;> rw [sent] at asked
  · exact asked.error
  · exact .of_sound asked.sound

omit [Emitter ε] in
theorem awaitOutcome_tellsFault (sound : recorded.state ≠ .faulted) :
    TellsFault recorded.awaitOutcome := by
  rcases recorded.awaitOutcome_settles with ⟨_, called⟩ | ⟨_, _, _, _, _, called⟩ <;> rw [called]
  · exact .of_sound sound
  · exact .of_sound (by simp)

variable [Backend β]

theorem apply_tellsFault (sound : recorded.state ≠ .faulted) (operation : Operation) :
    TellsFault (recorded.apply operation) := by
  rcases recorded.apply_contacts operation with
    ⟨_, _, called, _⟩ | ⟨_, _, _, _, _, _, _, called, _⟩ | ⟨declared, _, after, _, _, _, called, _⟩
  · rw [called]
    exact .of_sound sound
  · rw [called]
    exact .of_sound sound
  · rw [called]
    refine emit_tellsFault ?_ operation.command
    cases operation <;> exact sound

theorem submitCheck_tellsFault (sound : recorded.state ≠ .faulted) :
    TellsFault recorded.submitCheck := by
  rcases recorded.submitCheck_contacts with
    ⟨_, _, called, _⟩ | ⟨_, _, _, _, _, _, _, called, _⟩ | ⟨_, answer, backend, _, _, called, _⟩
  · rw [called]
    exact .of_sound sound
  · rw [called]
    exact .of_sound sound
  · rw [called]
    refine submit_tellsFault ?_ answer
    exact sound

theorem check_tellsFault (sound : recorded.state ≠ .faulted) : TellsFault recorded.check := by
  have submitted := submitCheck_tellsFault sound
  simp only [Session.check]
  rcases called : recorded.submitCheck with ⟨err | ⟨⟩, after⟩ <;> rw [called] at submitted
  · exact submitted.error
  · exact awaitOutcome_tellsFault submitted.sound

theorem model_tellsFault (sound : recorded.state ≠ .faulted) : TellsFault recorded.model := by
  rcases recorded.model_contacts with
    ⟨_, _, called, _⟩ | ⟨_, _, _, _, _, called, _⟩ | ⟨_, _, _, called, _⟩
  · rw [called]
    exact .of_sound sound
  · rw [called]
    exact .of_sound sound
  · rw [called]
    exact (fetchExternalModel_tellsFault sound).map _

theorem getModel_tellsFault (sound : recorded.state ≠ .faulted) :
    TellsFault recorded.getModel := by
  have checked := check_tellsFault sound
  simp only [Session.getModel]
  rcases called : recorded.check with ⟨err | outcome, after⟩ <;> rw [called] at checked
  · exact checked.error
  · simp only
    split
    · exact (model_tellsFault checked.sound).map _
    · exact .of_sound checked.sound

theorem call_tellsFault (sound : recorded.state ≠ .faulted) (call : Call) :
    TellsFault (recorded.call call) := by
  cases call with
  | apply operation => exact (apply_tellsFault sound operation).map _
  | submitCheck => exact (submitCheck_tellsFault sound).map _
  | awaitOutcome => exact (awaitOutcome_tellsFault sound).map _
  | check => exact (check_tellsFault sound).map _
  | model => exact (model_tellsFault sound).map _
  | getModel => exact (getModel_tellsFault sound).map _
  | destroy =>
    rcases recorded.destroy_cases with ⟨_, called, _⟩ | ⟨_, _, called, _⟩
    · simp only [Session.call, called]
      exact .of_sound sound
    · simp only [Session.call, called]
      exact .of_sound (by simp)

end Origin

variable [Backend β] [Emitter ε] {session : Session β ε}

/-- A call that faults the session has handed over a command that was lost, and says which. -/
theorem call_faults {call : Call} (sound : session.state ≠ .faulted)
    (faulted : (session.call call).2.state = .faulted) :
    ∃ command reason, ⟨command, .error reason⟩ ∈ (session.contacts call).deliveries ∧
      (session.call call).2.fault = some (deliveryFault command reason) ∧
      (session.call call).1 = .error (.desynchronized (deliveryFault command reason)) := by
  obtain ⟨result, same⟩ := session.call_recorded call
  rw [← result, ← same]
  rw [← same] at faulted
  have tells : TellsFault (session.recorded.call call) := call_tellsFault sound call
  exact tells faulted

/-- The fault of a session that a run has faulted: a call that found the session idle has lost a
command, and has told the fault. -/
inductive FaultedBy (session : Session β ε) : List Step → String → Prop
  | lost {earlier later : List Step} {call : Call} {command : Command} {reason : SolverError}
    (sound : (session.run earlier).2.state = .idle)
    (handed : ⟨command, .error reason⟩ ∈ ((session.run earlier).2.contacts call).deliveries)
    (told : ((session.run earlier).2.call call).1 =
      .error (.desynchronized (deliveryFault command reason))) :
    FaultedBy session (earlier ++ .call call :: later) (deliveryFault command reason)

theorem FaultedBy.snoc {steps : List Step} {fault : String} (origin : session.FaultedBy steps fault)
    (step : Step) : session.FaultedBy (steps ++ [step]) fault := by
  obtain ⟨sound, handed, told⟩ := origin
  rw [List.append_assoc, List.cons_append]
  exact .lost sound handed told

/-- A faulted session refuses everything but its end, and nothing comes of it. -/
theorem call_faulted (coherent : session.Coherent) (faulted : session.state = .faulted)
    {call : Call} (goesOn : call ≠ .destroy) :
    session.call call = (.error (faultReply (session.fault.getD "") call), session) ∧
      session.contacts call = {} := by
  have busy : session.ensureIdle = .error (.desynchronized (session.fault.getD "")) := by
    simp [ensureIdle, faulted]
  cases call with
  | awaitOutcome =>
    have still : session.pending = none := by
      rw [← Option.not_isSome_iff_eq_none, coherent.pending, faulted]
      simp
    refine ⟨?_, contacts_awaitOutcome⟩
    simp only [Session.call, awaitOutcome_still still, faulted, reduceCtorEq, ↓reduceIte]
    rfl
  | destroy => exact absurd rfl goesOn
  | apply _ | submitCheck | check | model | getModel =>
    exact ⟨call_busy busy rfl, contacts_busy busy rfl⟩

theorem step_faulted (coherent : session.Coherent) (faulted : session.state = .faulted)
    {step : Step} (goesOn : step ≠ .call .destroy) :
    (session.step step).2.state = .faulted ∧ (session.step step).2.fault = session.fault := by
  cases step with
  | call call =>
    have refused := (call_faulted coherent faulted (fun last => goesOn (congrArg _ last))).1
    simp only [Session.step, refused]
    exact ⟨faulted, trivial⟩
  | signal _ | expect _ | settle => exact ⟨faulted, rfl⟩

theorem run_faulted (coherent : session.Coherent) (faulted : session.state = .faulted)
    {steps : List Step} (goesOn : .destroy ∉ Step.calls steps) :
    (session.run steps).2.state = .faulted ∧ (session.run steps).2.fault = session.fault := by
  induction steps generalizing session with
  | nil => exact ⟨faulted, rfl⟩
  | cons step rest ih =>
    have here : step ≠ .call .destroy := by
      rintro rfl
      exact goesOn (List.mem_cons_self ..)
    have later : .destroy ∉ Step.calls rest :=
      fun last => goesOn ((List.sublist_cons_self step rest).filterMap _ |>.mem last)
    obtain ⟨stays, same⟩ := step_faulted coherent faulted here
    obtain ⟨state, fault⟩ := ih (step_coherent coherent step) stays later
    exact ⟨state, fault.trans same⟩

/-- Every fault has its origin in the run. -/
theorem faultedBy_of_faulted (coherent : session.Coherent) (sound : session.state ≠ .faulted)
    (steps : List Step) (faulted : (session.run steps).2.state = .faulted) :
    ∃ fault, session.FaultedBy steps fault ∧ (session.run steps).2.fault = some fault := by
  induction steps using List.reverseRecOn with
  | nil => exact absurd faulted sound
  | append_singleton earlier step ih =>
    have reached : (session.run earlier).2.Coherent := run_coherent coherent earlier
    have last : (session.run (earlier ++ [step])).2 = ((session.run earlier).2.step step).2 := by
      rw [run_append]
      rfl
    rw [last] at faulted ⊢
    by_cases before : (session.run earlier).2.state = .faulted
    · obtain ⟨fault, origin, same⟩ := ih before
      have goesOn : step ≠ .call .destroy := by
        rintro rfl
        have ended := step_busy reached (by simp [before]) (.call .destroy)
        rw [faulted] at ended
        cases ended
      exact ⟨fault, origin.snoc step, by rw [(step_faulted reached before goesOn).2, same]⟩
    · cases step with
      | call call =>
        have idle : (session.run earlier).2.state = .idle := by
          by_contra busy
          have moved := step_busy reached busy (.call call)
          rw [faulted] at moved
          exact before (SessionState.of_after_faulted moved.symm)
        obtain ⟨command, reason, handed, fault, told⟩ := call_faults before faulted
        exact ⟨deliveryFault command reason, .lost idle handed told, fault⟩
      | signal _ | expect _ | settle => exact absurd faulted before

/-- A session that a run has faulted stays as it is until its end, whatever is called meanwhile, and
reaches neither side. It answers with the original fault, unless it is asked for an outcome. -/
theorem faulted_answers {config : SessionConfig} {backend : β} {context : Context ε}
    (started : startOn config backend context = .ok session) {before : List Step}
    (faulted : (session.run before).2.state = .faulted) :
    ∃ fault, session.FaultedBy before fault ∧
      ∀ after, .destroy ∉ Step.calls after →
        let now := (session.run (before ++ after)).2
        now.state = .faulted ∧ ∀ call ≠ .destroy,
          now.call call = (.error (faultReply fault call), now) ∧ now.contacts call = {} := by
  have coherent := (startOn_coherent started).1
  have sound : session.state ≠ .faulted := by
    obtain ⟨_, _, _, _, rfl⟩ := startOn_ok started
    nofun
  obtain ⟨fault, origin, kept⟩ := faultedBy_of_faulted coherent sound before faulted
  refine ⟨fault, origin, fun after goesOn => ?_⟩
  intro now
  have later : now = ((session.run before).2.run after).2 := by
    simp only [now, run_append]
  obtain ⟨stays, same⟩ := run_faulted (run_coherent coherent before) faulted goesOn
  rw [← later] at stays same
  refine ⟨stays, fun call goesOn => ?_⟩
  have answered := call_faulted (run_coherent coherent (before ++ after)) stays goesOn
  rwa [same, kept] at answered

/-- The frame that is opened after the check is lost. The fault is that of its command, also after
an outcome was asked for, and a later check is refused for it. -/
theorem cramped_answers :
    let lost := deliveryFault (.push 1) (Stream.writeError "")
    let faulted := [.call .check, .call (.apply .push)]
    let now := (cramped.run (faulted ++ [.call .awaitOutcome, .settle])).2
    startOn { quick with mode := .native } ({} : Shadow)
        ⟨({ room := some 12 } : Stream), {}, .channel⟩ = .ok cramped ∧
      cramped.FaultedBy faulted lost ∧ now.state = .faulted ∧
      now.call .check = (.error (.desynchronized lost), now) ∧ now.contacts .check = {} := by
  intro lost faulted now
  have started : startOn { quick with mode := .native } ({} : Shadow)
      ⟨({ room := some 12 } : Stream), {}, .channel⟩ = .ok cramped := rfl
  have state : (cramped.run faulted).2.state = .faulted := by decide +kernel
  obtain ⟨fault, origin, answers⟩ := faulted_answers started state
  obtain ⟨stays, refused⟩ := answers [.call .awaitOutcome, .settle] (by decide)
  obtain ⟨told, silent⟩ := refused .check nofun
  have same : fault = lost := by
    have result : (now.call .check).1 = .error (.desynchronized lost) := rfl
    rw [told] at result
    exact SolverError.desynchronized.inj (Except.error.inj result)
  subst same
  exact ⟨started, origin, stays, told, silent⟩

/-- The same session does not say that it is faulted when it is asked for an outcome. -/
theorem fault_unsaid :
    let now := (cramped.run [.call .check, .call (.apply .push)]).2
    startOn { quick with mode := .native } ({} : Shadow)
        ⟨({ room := some 12 } : Stream), {}, .channel⟩ = .ok cramped ∧
      now.state = .faulted ∧ (now.call .awaitOutcome).1 = .error .noPendingCheck ∧
      ¬ ∀ call ≠ .destroy, ∃ fault, (now.call call).1 = .error (.desynchronized fault) := by
  intro now
  have answered : (now.call .awaitOutcome).1 = .error .noPendingCheck := rfl
  refine ⟨rfl, by decide +kernel, answered, fun named => ?_⟩
  obtain ⟨fault, told⟩ := named .awaitOutcome nofun
  rw [answered] at told
  cases told

end Session

end SmtSession

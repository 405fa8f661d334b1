import SmtSession.Proofs.ExchangeLedger
import SmtSession.Proofs.Staleness
import SmtSession.Proofs.Transitions

namespace SmtSession.Session

variable {β ε : Type} [Backend β] [Emitter ε] {session : Session β ε}

/-- The ticket of the check that is submitted, if it is. -/
def submits (session : Session β ε) : Option Nat :=
  match session.submitCheck with
  | (.ok (), submitted) => submitted.pending.map PendingCheck.ticket
  | (.error _, _) => none

omit [Backend β] [Emitter ε] in
/-- The ticket of the check that is collected: it is pending, and is not pending any more. -/
def collects (session : Session β ε) : Option Nat :=
  if session.awaitOutcome.2.pending.isNone then session.pending.map PendingCheck.ticket else none

def submitted (session : Session β ε) : Call → List Nat
  | .submitCheck | .check | .getModel => session.submits.toList
  | .apply _ | .awaitOutcome | .model | .destroy => []

def collected (session : Session β ε) : Call → List Nat
  | .awaitOutcome => session.collects.toList
  | .check | .getModel =>
    match session.submitCheck with
    | (.ok (), submitted) => submitted.collects.toList
    | (.error _, _) => []
  | .apply _ | .submitCheck | .model | .destroy => []

/-- Of the checks that were submitted all were collected but one at most: the one that is pending,
or was pending when the session ended. -/
structure Checked (session : Session β ε) (submitted collected : List Nat) : Prop where
  left : ∃ left, submitted = collected ++ left ∧ left.length ≤ 1 ∧
    (session.state ≠ .destroyed → left = session.pending.toList.map PendingCheck.ticket)
  ordered : submitted.Pairwise (· < ·)
  issued : ∀ ticket ∈ submitted, ticket < session.context.exchange.issued

variable {earlier done : List Nat}

omit [Backend β] [Emitter ε] in
theorem Checked.keep {after : Session β ε} (checked : session.Checked earlier done)
    (pending : after.state ≠ .destroyed →
      session.state ≠ .destroyed ∧ after.pending = session.pending)
    (issued : session.context.exchange.issued ≤ after.context.exchange.issued) :
    after.Checked earlier done := by
  obtain ⟨⟨left, all, few, open'⟩, ordered, taken⟩ := checked
  refine ⟨⟨left, all, few, ?_⟩, ordered, fun ticket member => ?_⟩
  · intro live
    obtain ⟨live, same⟩ := pending live
    rw [same, open' live]
  · exact Nat.lt_of_lt_of_le (taken ticket member) issued

omit [Backend β] in
theorem issued_emit (command : Command) (session : Session β ε) :
    (session.emit command).2.context.exchange.issued = session.context.exchange.issued := by
  have sent := session.context.issued_send command
  simp only [emit]
  rcases called : session.context.send command with ⟨err | ⟨⟩, after⟩ <;> rw [called] at sent
  · exact sent
  · exact sent

omit [Backend β] in
theorem issued_sendQuery (query : Command) (session : Session β ε) :
    (session.sendQuery query).2.context.exchange.issued = session.context.exchange.issued + 1 :=
  issued_emit query { session with context := session.context.issueTicket }

omit [Backend β] [Emitter ε] in
theorem issued_awaitOutcome (session : Session β ε) :
    session.awaitOutcome.2.context.exchange.issued = session.context.exchange.issued := by
  rcases session.awaitOutcome_cases with
    ⟨_, _, called, _⟩ | ⟨_, _, _, called, _⟩ | ⟨ticket, result, after, _, _, _, waited, called, _⟩
  · rw [called]
  · rw [called]
  · have kept := Exchange.issued_wait ticket session.config.checkTimeout session.config.heartbeat
      session.context.exchange
    rw [Context.wait_exchange waited] at kept
    rw [called]
    exact kept

omit [Backend β] in
theorem issued_submit (answer : Option Outcome) (session : Session β ε) :
    (session.submit answer).2.context.exchange.issued = session.context.exchange.issued + 1 := by
  have taken := session.issued_sendQuery .checkSat
  simp only [submit]
  rcases sent : session.sendQuery .checkSat with ⟨err | ticket, after⟩ <;> rw [sent] at taken
  · exact taken
  · exact taken

omit [Backend β] in
theorem issued_fetchExternalModel (session : Session β ε) :
    session.fetchExternalModel.2.context.exchange.issued =
      session.context.exchange.issued + 1 := by
  have taken := session.issued_sendQuery .getModel
  simp only [fetchExternalModel]
  rcases sent : session.sendQuery .getModel with ⟨err | ticket, after⟩ <;> rw [sent] at taken
  · exact taken
  · exact (Exchange.issued_wait ..).trans taken

theorem issued_submitCheck_le (session : Session β ε) :
    session.context.exchange.issued ≤ session.submitCheck.2.context.exchange.issued := by
  rcases session.submitCheck_contacts with
    ⟨_, _, called, _⟩ | ⟨_, _, _, _, _, _, _, called, _⟩ | ⟨_, answer, backend, _, _, called, _⟩
  · simp only [called, Nat.le_refl]
  · simp only [called, Nat.le_refl]
  · rw [called, issued_submit]
    exact Nat.le_succ _

theorem issued_model_le (session : Session β ε) :
    session.context.exchange.issued ≤ session.model.2.context.exchange.issued := by
  rcases session.model_contacts with
    ⟨_, _, called, _⟩ | ⟨_, _, _, _, _, called, _⟩ | ⟨_, _, _, called, _⟩
  · simp only [called, Nat.le_refl]
  · simp only [called, Nat.le_refl]
  · rw [called, issued_fetchExternalModel]
    exact Nat.le_succ _

/-- The check that is submitted takes a ticket that no check has taken before. -/
theorem Checked.submit (coherent : session.Coherent) (checked : session.Checked earlier done) :
    session.submitCheck.2.Checked (earlier ++ session.submits.toList) done := by
  rcases session.submitCheck_cases with
    ⟨_, _, called, _⟩ | ⟨_, _, idle, _, ⟨signals, _, called, _⟩ | ⟨_, _, called, _⟩⟩
  · simp only [submits, called, Option.toList_none, List.append_nil]
    exact checked.keep (fun live => ⟨live, rfl⟩) (Nat.le_refl _)
  · have still := coherent.still idle
    obtain ⟨⟨left, all, _, open'⟩, ordered, taken⟩ := checked
    obtain rfl : left = [] := by simpa [still] using open' (by simp [idle])
    simp only [submits, called, Option.map_some, Option.toList_some]
    refine ⟨⟨[_], by rw [all, List.append_nil], Nat.le_refl 1, fun _ => rfl⟩, ?_, ?_⟩
    · rw [List.pairwise_append]
      exact ⟨ordered, List.pairwise_singleton .., by simpa using taken⟩
    · intro ticket member
      simp only [Exchange.issued_receiveAll, Exchange.issueTicket]
      rcases List.mem_append.mp member with before | same
      · exact Nat.lt_succ_of_lt (taken ticket before)
      · rw [List.mem_singleton.mp same]
        exact Nat.lt_succ_self _
  · have grown := session.issued_submitCheck_le
    simp only [submits, called, Option.toList_none, List.append_nil] at grown ⊢
    exact checked.keep (fun _ => ⟨by simp [idle], rfl⟩) grown

omit [Backend β] [Emitter ε] in
/-- The check that is collected is the one that was pending, and none is pending afterwards. -/
theorem Checked.collect (coherent : session.Coherent) (checked : session.Checked earlier done) :
    session.awaitOutcome.2.Checked earlier (done ++ session.collects.toList) := by
  rcases pending : session.pending with _ | check
  · simp only [collects, awaitOutcome_still pending, pending, Option.map_none, ite_self,
      Option.toList_none, List.append_nil]
    exact checked
  · have waiting : session.state = .awaitingCheckResult :=
      coherent.pending.mp (by rw [pending]; rfl)
    have live : session.state ≠ .destroyed := by simp [waiting]
    have kept := session.issued_awaitOutcome
    obtain ⟨_, _, _, collected⟩ := awaitOutcome_pending live pending
    obtain ⟨⟨left, all, few, open'⟩, ordered, taken⟩ := checked
    obtain rfl : left = [check.ticket] := by simpa [pending] using open' live
    simp only [collects, collected, pending, Option.isNone_none, Option.map_some, ↓reduceIte,
      Option.toList_some] at kept ⊢
    refine ⟨⟨[], by rw [all, List.append_nil], Nat.zero_le 1, fun _ => rfl⟩, ordered, ?_⟩
    intro ticket member
    exact Nat.lt_of_lt_of_eq (taken ticket member) kept.symm

omit [Backend β] [Emitter ε] in
/-- The outcome that is given out is that of the check that is collected. -/
theorem collects_of_outcome {outcome : Outcome} (given : session.awaitOutcome.1 = .ok outcome) :
    ∃ ticket, session.collects = some ticket := by
  by_cases ended : session.state = .destroyed
  · simp [awaitOutcome, ended] at given
  · rcases pending : session.pending with _ | check
    · simp [awaitOutcome_still pending] at given
    · obtain ⟨_, _, _, collected⟩ := awaitOutcome_pending ended pending
      exact ⟨check.ticket, by simp [collects, collected, pending]⟩

theorem Checked.check (coherent : session.Coherent) (checked : session.Checked earlier done) :
    session.check.2.Checked (earlier ++ session.submits.toList)
      (done ++ session.collected .check) := by
  have submitted := checked.submit coherent
  have coherent := submitCheck_coherent coherent
  simp only [Session.check, collected]
  rcases called : session.submitCheck with ⟨err | ⟨⟩, after⟩ <;> rw [called] at submitted coherent
  · rw [List.append_nil]
    exact submitted
  · exact submitted.collect coherent

theorem Checked.model (checked : session.Checked earlier done) :
    session.model.2.Checked earlier done := by
  refine checked.keep ?_ session.issued_model_le
  rcases session.model_cases with
    ⟨_, _, _, called⟩ | ⟨_, _, _, _, _, called, _⟩ | ⟨retrieves, called⟩
  · rw [called]
    exact fun live => ⟨live, rfl⟩
  · rw [called]
    exact fun live => ⟨live, rfl⟩
  · have idle := retrieves_idle retrieves
    rw [called]
    rcases session.fetchExternalModel_cases with
      ⟨_, _, _, _, _, rfl, _, fetched, _⟩ | ⟨_, _, fetched, _⟩ <;> rw [fetched] <;>
      exact fun _ => ⟨by simp [idle], rfl⟩

theorem Checked.apply (checked : session.Checked earlier done) (operation : Operation) :
    (session.apply operation).2.Checked earlier done := by
  rcases session.apply_cases operation with
    ⟨_, _, called, _⟩ | ⟨declared, _, after, permitted, _, _, called, _⟩
  · rw [called]
    exact checked.keep (fun live => ⟨live, rfl⟩) (Nat.le_refl _)
  · have idle := (permit_ok permitted).1
    have issued := issued_emit operation.command
      ({ session with backend := some after }.book operation declared)
    rw [book_context] at issued
    rw [called]
    refine checked.keep (fun _ => ⟨by simp [idle], ?_⟩) (Nat.le_of_eq issued.symm)
    rcases emit_cases (.told operation.command) operation.command
      ({ session with backend := some after }.book operation declared) with
      ⟨_, _, sent, _⟩ | ⟨_, _, sent, _⟩ <;> rw [sent] <;> cases operation <;> rfl

omit [Backend β] in
theorem Checked.destroy (checked : session.Checked earlier done) :
    session.destroy.2.Checked earlier done := by
  have issued : (sendExit session.context).exchange.issued = session.context.exchange.issued := by
    have sent := session.context.issued_send .exit
    simp only [sendExit]
    rcases called : session.context.send .exit with ⟨err | ⟨⟩, after⟩ <;> rw [called] at sent
    · exact sent
    · exact sent
  simp only [Session.destroy]
  split
  · exact checked
  · exact checked.keep (fun live => absurd rfl live) (Nat.le_of_eq issued.symm)

theorem Checked.call (coherent : session.Coherent) (checked : session.Checked earlier done)
    (call : Call) : (session.call call).2.Checked (earlier ++ session.submitted call)
      (done ++ session.collected call) := by
  have same : earlier ++ [] = earlier ∧ done ++ [] = done := ⟨List.append_nil _, List.append_nil _⟩
  cases call with
  | apply operation =>
    simp only [submitted, collected, same]
    exact checked.apply operation
  | submitCheck =>
    simp only [collected, same]
    exact checked.submit coherent
  | awaitOutcome =>
    simp only [submitted, same]
    exact checked.collect coherent
  | check => exact checked.check coherent
  | model =>
    simp only [submitted, collected, same]
    exact checked.model
  | getModel =>
    have checked := checked.check coherent
    simp only [Session.call, Session.getModel]
    rcases called : session.check with ⟨err | outcome, after⟩ <;> rw [called] at checked
    · exact checked
    · simp only
      split
      · exact checked.model
      · exact checked
  | destroy =>
    simp only [submitted, collected, same]
    exact checked.destroy

theorem collected_of_outcome {call : Call} {outcome : Outcome}
    (given : (session.call call).1 = .ok (.outcome outcome)) :
    ∃ ticket, session.collected call = [ticket] := by
  cases call with
  | awaitOutcome =>
    obtain ⟨inner, awaited, _⟩ := exists_of_map_ok given
    obtain ⟨ticket, collects⟩ := collects_of_outcome awaited
    exact ⟨ticket, by simp [collected, collects]⟩
  | check =>
    obtain ⟨inner, checked, _⟩ := exists_of_map_ok given
    replace checked : session.check.1 = .ok inner := checked
    simp only [Session.check] at checked
    rcases submitted : session.submitCheck with ⟨err | ⟨⟩, after⟩ <;>
      simp only [submitted, reduceCtorEq] at checked
    obtain ⟨ticket, collects⟩ := collects_of_outcome checked
    exact ⟨ticket, by simp [collected, submitted, collects]⟩
  | apply _ | submitCheck | model | getModel | destroy =>
    obtain ⟨_, _, other⟩ := exists_of_map_ok given
    cases other

end SmtSession.Session

import SmtSession.Proofs.ModelGate
import SmtSession.Proofs.Scoping
import SmtSession.Proofs.Simulation

/-! Renewal: a session in the native mode that has been reset goes on as one that is started afresh.
What it still has from before are counts of changes and tickets, which only differ by what they were
at the reset, and the note of a check that was completed at an earlier generation, which lets no
model through. -/
namespace SmtSession

/-- The model that is given out when this many more changes have been made before. -/
def ResultModel.later (generations : Nat) (model : ResultModel) : ResultModel :=
  { model with producedAt := model.producedAt + generations }

/-- A text stops the reading of its values whatever was made before. -/
theorem ResultModel.ofModel_later (build : Build) (producedAt generations : Nat)
    (sorts : List (String × SmtSort)) (raw : Model) :
    ofModel build (producedAt + generations) sorts raw =
      (ofModel build producedAt sorts raw).map (later generations) := by
  simp only [ofModel]
  rcases typedValues build sorts raw.assignments with op | values <;> rfl

def Answer.later (generations : Nat) : Answer → Answer
  | .model given => .model (given.map (Except.map (ResultModel.later generations)))
  | .done => .done
  | .outcome found => .outcome found

/-- A session that has been reset and one that is started afresh: the contexts with which they go
on, and the changes that the first has behind it. -/
structure Renewal (ε ζ : Type) [Emitter ε] [Emitter ζ] where
  log : Log ε
  newLog : Log ζ
  context : Context ε
  newContext : Context ζ
  generations : Nat

theorem Agree.both {α σ τ : Type} {related : σ → τ → Prop} {first : α × σ} {second : α × τ}
    (agree : Agree related first second) : first.1 = second.1 ∧ related first.2 second.2 := by
  obtain ⟨alike⟩ := agree
  exact ⟨rfl, alike⟩

namespace Renewal

variable {ε ζ : Type} [Emitter ε] [Emitter ζ]

/-- Both contexts have sent the same, and issued as many tickets, since. -/
structure Contexts (renewal : Renewal ε ζ) (context : Context ε) (newContext : Context ζ) :
    Prop where
  issued : context.exchange.issued + renewal.newContext.exchange.issued =
    newContext.exchange.issued + renewal.context.exchange.issued
  sent : ∃ sent,
    renewal.log.entries context.emitter = renewal.log.entries renewal.context.emitter ++ sent ∧
    renewal.newLog.entries newContext.emitter =
      renewal.newLog.entries renewal.newContext.emitter ++ sent

/-- Both have counted as many changes since, and a note of a check is shared only when the check
was completed since. -/
structure Standings (renewal : Renewal ε ζ) (standing newStanding : Standing) : Prop where
  counted : standing.generation = newStanding.generation + renewal.generations
  noted : ∀ moment outcome, standing.lastCheck = some (moment + renewal.generations, outcome) ↔
    newStanding.lastCheck = some (moment, outcome)

/-- A check that both have submitted since, answered by the backend. -/
structure Checks (renewal : Renewal ε ζ) (check newCheck : PendingCheck) : Prop where
  native : check.native = newCheck.native
  answered : newCheck.native ≠ none
  ticket : check.ticket + renewal.newContext.exchange.issued =
    newCheck.ticket + renewal.context.exchange.issued

variable {renewal : Renewal ε ζ} {context : Context ε} {newContext : Context ζ}

theorem Contexts.kept {after : Context ε} {newAfter : Context ζ}
    (contexts : renewal.Contexts context newContext) (emitter : after.emitter = context.emitter)
    (newEmitter : newAfter.emitter = newContext.emitter)
    (issued : after.exchange.issued = context.exchange.issued)
    (newIssued : newAfter.exchange.issued = newContext.exchange.issued) :
    renewal.Contexts after newAfter := by
  refine ⟨?_, ?_⟩
  · rw [issued, newIssued]
    exact contexts.issued
  · rw [emitter, newEmitter]
    exact contexts.sent

theorem Contexts.note (contexts : renewal.Contexts context newContext) (notice : Notice) :
    renewal.Contexts (context.note notice) (newContext.note notice) :=
  contexts.kept rfl rfl rfl rfl

theorem Contexts.issueTicket (contexts : renewal.Contexts context newContext) :
    renewal.Contexts context.issueTicket newContext.issueTicket := by
  refine ⟨?_, contexts.sent⟩
  have issued := contexts.issued
  simp only [Context.issueTicket, Exchange.issueTicket]
  omega

theorem Contexts.send (contexts : renewal.Contexts context newContext) (command : Command) :
    Agree renewal.Contexts (context.send command) (newContext.send command) := by
  obtain ⟨issued, sent, before, newBefore⟩ := contexts
  obtain ⟨signals, emitter, told, logged⟩ := renewal.log.sent command context.emitter
  obtain ⟨newSignals, newEmitter, newTold, newLogged⟩ :=
    renewal.newLog.sent command newContext.emitter
  simp only [Context.send, told, newTold]
  refine .intro ⟨?_, sent ++ [command], ?_, ?_⟩
  · simp only [Exchange.issued_receiveAll]
    exact issued
  · rw [logged, before, List.append_assoc]
  · rw [newLogged, newBefore, List.append_assoc]

theorem Standings.enter {standing newStanding : Standing}
    (standings : renewal.Standings standing newStanding) (milestone : Milestone) :
    renewal.Standings (standing.enter milestone) (newStanding.enter milestone) := by
  obtain ⟨counted, noted⟩ := standings
  cases milestone with
  | completed outcome =>
    refine ⟨counted, ?_⟩
    intro moment found
    simp only [Standing.enter, counted, Option.some.injEq, Prod.mk.injEq,
      Nat.add_right_cancel_iff]
  | changed => exact ⟨(congrArg (· + 1) counted).trans (Nat.add_right_comm ..), noted⟩

end Renewal

namespace Session

variable {ε ζ : Type} [Emitter ε] [Emitter ζ]

/-- A session that is started afresh, next to one that has been reset. -/
inductive Renewed (renewal : Renewal ε ζ) : Session Shadow ζ → Session Shadow ε → Prop
  | intro {session : Session Shadow ζ} {context : Context ε} {generation : Nat}
      {pending : Option PendingCheck} {lastCheck : Option (Nat × Outcome)}
    (native : session.config.mode = .native)
    (contexts : renewal.Contexts context session.context)
    (standings : renewal.Standings ⟨generation, lastCheck⟩ session.standing)
    (checks : Option.Rel renewal.Checks pending session.pending) :
    Renewed renewal session { session with context, generation, pending, lastCheck }

variable {renewal : Renewal ε ζ} {fresh : Session Shadow ζ} {session : Session Shadow ε}

theorem Renewed.emit (renewed : Renewed renewal fresh session) (command : Command) :
    Agree (Renewed renewal) (fresh.emit command) (session.emit command) := by
  obtain ⟨native, contexts, standings, checks⟩ := renewed
  simp only [Session.emit]
  refine (contexts.send command).elim fun result _ _ contexts => ?_
  rcases result with err | ⟨⟩
  · exact .intro (.intro native (contexts.note _) standings checks)
  · exact .intro (.intro native contexts standings checks)

theorem Renewed.apply (renewed : Renewed renewal fresh session) (operation : Operation) :
    Agree (Renewed renewal) (fresh.apply operation) (session.apply operation) := by
  have permitted : session.permit operation = fresh.permit operation := by
    obtain ⟨_⟩ := renewed
    rfl
  have backends : session.backend = fresh.backend := by
    obtain ⟨_⟩ := renewed
    rfl
  simp only [Session.apply, permitted, backends]
  rcases fresh.permit operation with err | declared
  · exact .intro renewed
  · rcases fresh.backend with _ | shadow
    · exact .intro renewed
    · obtain ⟨native, contexts, standings, checks⟩ := renewed
      simp only
      rcases Backend.perform operation shadow with ⟨err | ⟨⟩, after⟩
      · exact .intro (.intro native contexts standings checks)
      · refine Renewed.emit ?_ _
        cases operation <;> exact .intro native contexts (standings.enter .changed) checks

theorem askBackend_native {ε : Type} {session : Session Shadow ε}
    (native : session.config.mode = .native) :
    session.askBackend = match session.backend with
      | none => (.error .destroyedSessionUse, session)
      | some shadow =>
        (.ok (some shadow.outcome), { session with backend := some shadow.check.2 }) := by
  simp only [askBackend, mode, native]
  cases session.backend <;> rfl

theorem Renewed.submitCheck (renewed : Renewed renewal fresh session) :
    Agree (Renewed renewal) fresh.submitCheck session.submitCheck := by
  have ready : session.ensureIdle = fresh.ensureIdle := by
    obtain ⟨_⟩ := renewed
    rfl
  have backends : session.backend = fresh.backend := by
    obtain ⟨_⟩ := renewed
    rfl
  have native : fresh.config.mode = .native ∧ session.config.mode = .native := by
    obtain ⟨native, _⟩ := renewed
    exact ⟨native, native⟩
  simp only [Session.submitCheck, ready, askBackend_native native.1, askBackend_native native.2,
    backends]
  rcases fresh.ensureIdle with err | ⟨⟩
  · exact .intro renewed
  · rcases fresh.backend with _ | shadow
    · exact .intro renewed
    · obtain ⟨_, contexts, standings, checks⟩ := renewed
      have asked : Renewed renewal { fresh with
          backend := some shadow.check.2, context := fresh.context.issueTicket } _ :=
        .intro native.1 contexts.issueTicket standings checks
      simp only [Session.sendQuery]
      refine (asked.emit .checkSat).elim fun result _ _ submitted => ?_
      rcases result with err | ⟨⟩
      · exact .intro submitted
      · obtain ⟨native, later, standings, _⟩ := submitted
        refine .intro (.intro native later standings (.some ⟨rfl, ?_, contexts.issued⟩))
        exact Option.some_ne_none _

/-- A check that is collected has been completed since the reset. -/
theorem Renewed.awaitOutcome (renewed : Renewed renewal fresh session) :
    Agree (Renewed renewal) fresh.awaitOutcome session.awaitOutcome := by
  obtain ⟨native, contexts, standings, checks⟩ := renewed
  simp only [Session.awaitOutcome]
  split
  · exact .intro (.intro native contexts standings checks)
  · rcases waited : fresh.pending with _ | ⟨ticket, _ | outcome⟩ <;> rw [waited] at checks
    · obtain _ | _ := checks
      exact .intro (.intro native contexts standings (by rw [waited]; exact .none))
    · obtain unanswered | _ := checks
      exact absurd rfl unanswered.answered
    · obtain @⟨⟨_, answer⟩, _, same⟩ | _ := checks
      obtain rfl : answer = some outcome := same.native
      exact .intro (.intro native contexts (standings.enter (.completed outcome)) .none)

theorem Renewed.check (renewed : Renewed renewal fresh session) :
    Agree (Renewed renewal) fresh.check session.check := by
  simp only [Session.check]
  refine renewed.submitCheck.elim fun result _ _ renewed => ?_
  rcases result with err | ⟨⟩
  · exact .intro renewed
  · exact renewed.awaitOutcome

theorem Renewed.fetchModel (renewed : Renewed renewal fresh session) :
    Agree (Renewed renewal) fresh.fetchModel session.fetchModel := by
  obtain ⟨native, contexts, standings, checks⟩ := renewed
  simp only [Session.fetchModel, mode, native]
  rcases present : fresh.backend with _ | shadow
  · exact .intro (present ▸ .intro native contexts standings checks)
  · exact .intro (.intro native contexts standings checks)

/-- A note of a check from before the reset lets no model through. -/
theorem Renewed.hasFreshSat (renewed : Renewed renewal fresh session) :
    session.hasFreshSat = fresh.hasFreshSat := by
  obtain ⟨_, _, ⟨rfl, noted⟩, _⟩ := renewed
  rw [Bool.eq_iff_iff]
  simp only [Session.hasFreshSat, beq_iff_eq]
  exact noted _ _

theorem Renewed.model (renewed : Renewed renewal fresh session) :
    Agree (Renewed renewal)
      (Prod.map (Except.map (Except.map (ResultModel.later renewal.generations))) id fresh.model)
      session.model := by
  have ready : session.ensureIdle = fresh.ensureIdle := by
    obtain ⟨_⟩ := renewed
    rfl
  have sorts : session.visibleSorts = fresh.visibleSorts := by
    obtain ⟨_⟩ := renewed
    rfl
  have counted : session.generation = fresh.generation + renewal.generations := by
    obtain ⟨_, _, ⟨counted, _⟩, _⟩ := renewed
    exact counted
  simp only [Session.model, ready, renewed.hasFreshSat, sorts, counted]
  rcases fresh.ensureIdle with err | ⟨⟩
  · exact .intro renewed
  · simp only
    split
    · refine renewed.fetchModel.elim fun result _ _ renewed => ?_
      rcases result with err | raw
      · exact .intro renewed
      · exact .of_eq (congrArg Except.ok (ResultModel.ofModel_later ..).symm) renewed
    · exact .intro renewed

theorem Renewed.getModel (renewed : Renewed renewal fresh session) :
    Agree (Renewed renewal)
      (Prod.map (Except.map (Option.map (Except.map (ResultModel.later renewal.generations)))) id
        fresh.getModel)
      session.getModel := by
  simp only [Session.getModel]
  refine renewed.check.elim fun result fresh session renewed => ?_
  rcases result with err | outcome
  · exact .intro renewed
  · simp only
    split
    · obtain ⟨results, renewed⟩ := renewed.model.both
      refine .of_eq ?_ renewed
      rw [← results]
      rcases fresh.model with ⟨err | model, _⟩ <;> rfl
    · exact .intro renewed

theorem Renewed.destroy (renewed : Renewed renewal fresh session) :
    Agree (Renewed renewal) fresh.destroy session.destroy := by
  obtain ⟨native, contexts, standings, checks⟩ := renewed
  simp only [Session.destroy]
  split
  · exact .intro (.intro native contexts standings checks)
  · refine .intro (.intro native (.note ?_ _) (standings.enter .changed) .none)
    simp only [sendExit]
    refine (contexts.send .exit).elim fun result _ _ contexts => ?_
    rcases result with err | ⟨⟩
    · exact contexts.note _
    · exact contexts

theorem Renewed.call (renewed : Renewed renewal fresh session) (call : Call) :
    Agree (Renewed renewal)
      (Prod.map (Except.map (Answer.later renewal.generations)) id (fresh.call call))
      (session.call call) := by
  cases call <;> simp only [Session.call]
  case apply operation =>
    refine (renewed.apply operation).elim fun result _ _ renewed => ?_
    rcases result with err | ⟨⟩ <;> exact .intro renewed
  case submitCheck =>
    refine renewed.submitCheck.elim fun result _ _ renewed => ?_
    rcases result with err | ⟨⟩ <;> exact .intro renewed
  case awaitOutcome =>
    refine renewed.awaitOutcome.elim fun result _ _ renewed => ?_
    rcases result with err | outcome <;> exact .intro renewed
  case check =>
    refine renewed.check.elim fun result _ _ renewed => ?_
    rcases result with err | outcome <;> exact .intro renewed
  case model =>
    obtain ⟨results, renewed⟩ := renewed.model.both
    refine .of_eq ?_ renewed
    rw [← results]
    rcases fresh.model with ⟨err | model, _⟩ <;> rfl
  case getModel =>
    obtain ⟨results, renewed⟩ := renewed.getModel.both
    refine .of_eq ?_ renewed
    rw [← results]
    rcases fresh.getModel with ⟨err | model, _⟩ <;> rfl
  case destroy =>
    refine renewed.destroy.elim fun result _ _ renewed => ?_
    rcases result with err | ⟨⟩ <;> exact .intro renewed

theorem Renewed.step (renewed : Renewed renewal fresh session) (step : Step) :
    Agree (Renewed renewal)
      (Prod.map (Option.map (Except.map (Answer.later renewal.generations))) id (fresh.step step))
      (session.step step) := by
  cases step <;> simp only [Session.step]
  case call call =>
    obtain ⟨results, renewed⟩ := (renewed.call call).both
    exact .of_eq (congrArg some results) renewed
  case signal signal =>
    obtain ⟨native, contexts, standings, checks⟩ := renewed
    exact .intro (.intro native (contexts.kept rfl rfl (Exchange.issued_receive ..)
      (Exchange.issued_receive ..)) standings checks)
  case expect arrivals =>
    obtain ⟨native, contexts, standings, checks⟩ := renewed
    exact .intro (.intro native (contexts.kept rfl rfl rfl rfl) standings checks)
  case settle =>
    obtain ⟨native, contexts, standings, checks⟩ := renewed
    exact .intro (.intro native (contexts.kept rfl rfl (Exchange.issued_receiveAll ..)
      (Exchange.issued_receiveAll ..)) standings checks)

/-- All calls of a run give both the same results, but for the generations of models. -/
theorem Renewed.run (renewed : Renewed renewal fresh session) (steps : List Step) :
    Agree (Renewed renewal)
      (Prod.map (List.map (Except.map (Answer.later renewal.generations))) id (fresh.run steps))
      (session.run steps) := by
  induction steps generalizing fresh session with
  | nil => exact .intro renewed
  | cons step rest ih =>
    obtain ⟨result, renewed⟩ := (renewed.step step).both
    obtain ⟨results, renewed⟩ := (ih renewed).both
    refine .of_eq ?_ renewed
    simp only [Session.run, ← result, ← results, Prod.map_fst, List.map_append, Option.toList_map]
    rfl

/-- All that differs is counts, and the note of a check. -/
theorem Renewed.same (renewed : Renewed renewal fresh session) :
    session = { fresh with
        context := session.context, generation := fresh.generation + renewal.generations,
        pending := session.pending, lastCheck := session.lastCheck } ∧
      renewal.Contexts session.context fresh.context ∧
      Option.Rel (fun check newCheck => check.native = newCheck.native ∧
        check.ticket + renewal.newContext.exchange.issued =
          newCheck.ticket + renewal.context.exchange.issued) session.pending fresh.pending := by
  obtain ⟨_, contexts, ⟨rfl, _⟩, checks⟩ := renewed
  refine ⟨rfl, contexts, ?_⟩
  generalize fresh.pending = newPending at checks ⊢
  cases checks with
  | none => exact .none
  | some check => exact .some ⟨check.native, check.ticket⟩

/-- What a run in the native mode leaves as it was: the settings, and the options of the session and
of the shadow. There is no fault as long as every command arrives. -/
structure Configured (config : SessionConfig) (options provided : List SolverOption)
    (session : Session Shadow ε) : Prop where
  config : session.config = config
  options : session.options = options
  provided : ∀ shadow, session.backend = some shadow → shadow.options = provided
  fault : session.fault = none

variable {config : SessionConfig} {options provided : List SolverOption}

omit [Emitter ε] in
theorem Configured.kept {after : Session Shadow ε}
    (configured : Configured config options provided session)
    (settings : after.config = session.config) (same : after.options = session.options)
    (backend : after.backend.map Shadow.unchecked = session.backend.map Shadow.unchecked)
    (fault : after.fault = session.fault) : Configured config options provided after := by
  refine ⟨settings ▸ configured.config, same ▸ configured.options, ?_, fault ▸ configured.fault⟩
  intro shadow found
  rw [found] at backend
  obtain ⟨before, present, same⟩ := Option.map_eq_some_iff.mp backend.symm
  exact (congrArg Shadow.options same).symm.trans (configured.provided before present)

theorem Configured.apply (configured : Configured config options provided session) (log : Log ε)
    (operation : Operation) : Configured config options provided (session.apply operation).2 := by
  rcases apply_shadow operation session with
    ⟨err, refused⟩ | ⟨declared, before, shadow, _, present, made, applied⟩
  · rw [refused]
    exact configured
  · obtain ⟨_, _, sent, _⟩ := emit_logged log operation.command
      ({ session with backend := some shadow }.book operation declared)
    have same : shadow.options = provided :=
      (Shadow.perform_keeps made).1.trans (configured.provided before present)
    rw [applied, sent]
    cases operation <;>
      exact ⟨configured.config, configured.options, fun _ found => Option.some.inj found ▸ same,
        configured.fault⟩

theorem Configured.submitCheck (configured : Configured config options provided session)
    (log : Log ε) : Configured config options provided session.submitCheck.2 := by
  have same := session.unchecked_submitCheck
  obtain ⟨answer, backend, asked⟩ := session.askBackend_keeps
  obtain ⟨_, _, sent, _⟩ := sendQuery_logged log .checkSat { session with backend }
  rcases ready : session.ensureIdle with err | ⟨⟩
  · simp only [Session.submitCheck, ready]
    exact configured
  · rcases answer with err | native <;>
      simp only [Session.submitCheck, ready, asked, sent] at same ⊢ <;>
      exact configured.kept rfl rfl same rfl

theorem Configured.model (configured : Configured config options provided session)
    (native : config.mode = .native) : Configured config options provided session.model.2 := by
  have same := session.unchecked_model
  rcases session.model_cases with
    ⟨_, _, _, called⟩ | ⟨_, _, _, _, _, called, _⟩ | ⟨retrieves, _⟩
  · rw [called]
    exact configured
  · rw [called] at same ⊢
    exact configured.kept rfl rfl same rfl
  · simp [Session.retrieves, mode, configured.config, native] at retrieves

omit [Emitter ε] in
theorem Configured.awaitOutcome (configured : Configured config options provided session) :
    Configured config options provided session.awaitOutcome.2 := by
  rcases session.awaitOutcome_settles with ⟨_, called⟩ | ⟨_, _, _, _, _, called⟩
  · rw [called]
    exact configured
  · rw [called]
    exact configured.kept rfl rfl rfl rfl

theorem Configured.destroy (configured : Configured config options provided session) :
    Configured config options provided session.destroy.2 := by
  rcases session.destroy_cases with ⟨_, called, _⟩ | ⟨_, _, called, _⟩
  · rw [called]
    exact configured
  · rw [called]
    exact ⟨configured.config, configured.options, nofun, configured.fault⟩

theorem Configured.step (configured : Configured config options provided session) (log : Log ε)
    (native : config.mode = .native) (step : Step) :
    Configured config options provided (session.step step).2 := by
  cases step with
  | call call =>
    apply call_preserves (motive := Configured config options provided)
    · intro operation _
      exact configured.apply log operation
    · intro _
      exact configured.destroy
    · intro _ configured
      exact configured.submitCheck log
    · intro _ configured
      exact configured.awaitOutcome
    · intro _ configured
      exact configured.model native
    · exact configured
  | signal _ | expect _ | settle => exact configured.kept rfl rfl rfl rfl

theorem Configured.run (configured : Configured config options provided session) (log : Log ε)
    (native : config.mode = .native) (steps : List Step) :
    Configured config options provided (session.run steps).2 := by
  induction steps generalizing session with
  | nil => exact configured
  | cons step rest ih => exact ih (configured.step log native step)

omit [Emitter ε] [Emitter ζ] in
/-- The settings alone decide which options a session is started with, and whether it is. -/
theorem startOn_shadow {shadow : Shadow} {context : Context ε} (another : Shadow)
    (newContext : Context ζ) (started : startOn config shadow context = .ok session) :
    Configured config session.options (shadow.options ++ session.options) session ∧
      ∃ notices, startOn config another newContext = .ok
        { config, options := session.options,
          backend := some (another.configure session.options),
          context := { newContext with exchange := { newContext.exchange with notices } } } := by
  simp only [startOn] at started ⊢
  rcases resolved : config.resolveOptions with ⟨err | options, noted⟩
  · simp only [resolved, reduceCtorEq] at started
  · simp only [resolved] at started
    obtain rfl := Except.ok.inj started
    refine ⟨⟨rfl, rfl, ?_, rfl⟩, ?_⟩
    · rintro _ ⟨⟩
      rfl
    · obtain ⟨notices, told⟩ := newContext.foldl_note noted
      refine ⟨notices ++ [createdNotice config options], ?_⟩
      simp only [told]
      rfl

/-- An accepted reset leaves an idle session, with no frame open and one change more. -/
theorem reset_ok (log : Log ε) {after : Session Shadow ε}
    (reset : session.apply .reset = (.ok (), after)) :
    session.state = .idle ∧ ∃ shadow context, session.backend = some shadow ∧
      after = { session with
        backend := some { shadow with frames := {}, lastCheck := none }, context,
        generation := session.generation + 1, depth := 0, frames := {} } := by
  rcases apply_shadow .reset session with
    ⟨_, refused⟩ | ⟨declared, before, shadow, permitted, present, made, applied⟩
  · rw [refused] at reset
    cases reset
  · obtain ⟨_, _, sent, _⟩ := emit_logged log Operation.reset.command
      ({ session with backend := some shadow }.book .reset declared)
    obtain ⟨_, rfl⟩ := Prod.mk.inj made
    rw [applied, sent] at reset
    exact ⟨(permit_ok permitted).1, before, _, present, (Prod.mk.inj reset).2.symm⟩

/-- At the reset no check is pending, and the note of the last one is of an earlier generation. -/
theorem Renewed.of_reset (log : Log ε) (newLog : Log ζ) (newContext : Context ζ)
    (notices : List Notice) {after : Session Shadow ε}
    (configured : Configured config options provided session) (native : config.mode = .native)
    (still : session.state = .idle → session.pending = none)
    (behind : ∀ moment outcome, session.lastCheck = some (moment, outcome) →
      moment ≤ session.generation)
    (reset : session.apply .reset = (.ok (), after)) :
    Renewed ⟨log, newLog, after.context, newContext, after.generation⟩
      { config, options, backend := some { options := provided },
        context := { newContext with exchange := { newContext.exchange with notices } } }
      after := by
  obtain ⟨idle, shadow, context, present, rfl⟩ := reset_ok log reset
  have still := still idle
  obtain ⟨rfl, rfl, shared, fault⟩ := configured
  obtain rfl := shared shadow present
  obtain ⟨⟩ := session
  obtain rfl := idle
  obtain rfl := still
  obtain rfl := fault
  refine .intro native ⟨Nat.add_comm .., [], ?_, ?_⟩ ⟨(Nat.zero_add _).symm, ?_⟩ .none
  · simp
  · simp
  · intro moment outcome
    refine ⟨fun noted => ?_, nofun⟩
    have earlier := behind _ _ noted
    simp only at earlier
    omega

/-- A session in the native mode that has been reset goes on as one that is started afresh with the
same settings and the options that the shadow had: all calls have the same results, and send the
same; state, depth, frames, shadow and what they show are the same. Generations and tickets are
those of the fresh session, counted on from the reset. -/
theorem reset_renews {shadow : Shadow} {context : Context ε} {renewed : Session Shadow ε}
    {before : List Step} (log : Log ε) (newLog : Log ζ) (newContext : Context ζ)
    (native : config.mode = .native) (started : startOn config shadow context = .ok session)
    (reset : (session.run before).2.apply .reset = (.ok (), renewed)) :
    ∃ fresh, startOn config ({ options := shadow.options } : Shadow) newContext = .ok fresh ∧
      ∀ steps, ∃ sent,
        let last := (renewed.run steps).2
        let newLast := (fresh.run steps).2
        (renewed.run steps).1 =
          (fresh.run steps).1.map (Except.map (Answer.later renewed.generation)) ∧
        log.entries last.context.emitter = log.entries renewed.context.emitter ++ sent ∧
        newLog.entries newLast.context.emitter = newLog.entries newContext.emitter ++ sent ∧
        last.state = newLast.state ∧ last.depth = newLast.depth ∧
        last.frames = newLast.frames ∧ last.visibleSorts = newLast.visibleSorts ∧
        last.backend = newLast.backend ∧ last.display = newLast.display ∧
        last.fault = newLast.fault ∧
        last.generation = newLast.generation + renewed.generation ∧
        last.context.exchange.issued + newContext.exchange.issued =
          newLast.context.exchange.issued + renewed.context.exchange.issued ∧
        Option.Rel (fun check newCheck => check.native = newCheck.native ∧
          check.ticket + newContext.exchange.issued =
            newCheck.ticket + renewed.context.exchange.issued) last.pending newLast.pending := by
  obtain ⟨configured, notices, restarted⟩ :=
    startOn_shadow { options := shadow.options } newContext started
  have coherent := run_coherent (startOn_coherent started).1 before
  have standing := standing_of_started started before
  have behind (moment : Nat) (outcome : Outcome)
      (noted : (session.run before).2.lastCheck = some (moment, outcome)) :
      moment ≤ (session.run before).2.generation := by
    have noted : (session.run before).2.standing.lastCheck = some (moment, outcome) := noted
    change moment ≤ (session.run before).2.standing.generation
    rw [standing] at noted ⊢
    exact Standing.lastCheck_le noted
  have alike := Renewed.of_reset log newLog newContext notices
    (configured.run log native before) native coherent.still behind reset
  refine ⟨_, restarted, ?_⟩
  intro steps
  obtain ⟨results, alike⟩ := (Renewed.run alike steps).both
  obtain ⟨same, ⟨issued, sent, told, newTold⟩, checks⟩ := alike.same
  refine ⟨sent, results.symm, told, newTold, congrArg Session.state same,
    congrArg Session.depth same, congrArg Session.frames same, congrArg Session.visibleSorts same,
    congrArg Session.backend same, congrArg Session.display same, congrArg Session.fault same,
    congrArg Session.generation same, issued, checks⟩

/-- A check is satisfied in a frame, just before the reset. -/
def settling : List Step := [.call (.apply .push), .call .check]

/-- A model is asked for before and after the next check. -/
def inquiring : List Step := [.call .model, .call .check, .call .model]

theorem settling_renewed :
    let settled := (solitary.run settling).2
    let renewed := (settled.apply .reset).2
    settled.lastCheck = some (1, .sat) ∧ renewed.lastCheck = some (1, .sat) ∧
      (renewed.run inquiring).1 =
        [.error .noModel, .ok (.outcome .sat), .ok (.model (some (.ok ⟨2, {}, {}⟩)))] := by
  intro settled renewed
  have started : startOn { quick with mode := .native } ({} : Shadow)
      ⟨({} : Transcript), {}, .channel⟩ = .ok solitary := rfl
  have reset : settled.apply .reset = (.ok (), renewed) := rfl
  obtain ⟨fresh, restarted, same⟩ :=
    reset_renews Transcript.log Transcript.log ⟨{}, {}, .channel⟩ rfl started reset
  obtain rfl : solitary = fresh := Except.ok.inj (started.symm.trans restarted)
  obtain ⟨_, results, _⟩ := same inquiring
  exact ⟨rfl, rfl, results⟩

end Session

end SmtSession

import SmtSession.Proofs.Recording
import SmtSession.Rehearsal.ScriptedBackend

/-! Authority: only the side that the mode selects has a say in what a session does. Two runs are
compared by what they show, call by call, while the other side differs as it likes. -/
namespace SmtSession

namespace Backend

variable {β γ : Type} [Backend β] [Backend γ]

def performs : List Operation → β → List (Except SolverError Unit)
  | [], _ => []
  | operation :: rest, backend =>
    let (result, backend) := Backend.perform operation backend
    result :: performs rest backend

/-- Two backends accept and refuse the same changes. -/
def SameChanges (first : β) (second : γ) : Prop :=
  ∀ operations, performs operations first = performs operations second

/-- Two backends accept and refuse the same options, and the same changes then. They may answer
checks and give models as they like. -/
def SameSetup (first : β) (second : γ) : Prop :=
  ∀ options, (Backend.configure options first).1 = (Backend.configure options second).1 ∧
    SameChanges (Backend.configure options first).2 (Backend.configure options second).2

theorem SameChanges.perform {first : β} {second : γ} (same : SameChanges first second)
    (operation : Operation) :
    Agree SameChanges (Backend.perform operation first) (Backend.perform operation second) := by
  have results : (Backend.perform operation first).1 = (Backend.perform operation second).1 := by
    simpa [performs] using same [operation]
  have rest : SameChanges (Backend.perform operation first).2
      (Backend.perform operation second).2 := by
    intro operations
    simpa [performs, results] using same (operation :: operations)
  exact .of_eq results rest

theorem SameSetup.configure {first : β} {second : γ} (same : SameSetup first second)
    (options : List SolverOption) :
    Agree SameChanges (Backend.configure options first) (Backend.configure options second) := by
  obtain ⟨results, rest⟩ := same options
  exact .of_eq results rest

end Backend

namespace Emitter

variable {ε ζ : Type} [Emitter ε] [Emitter ζ]

/-- What comes of handing over commands, one after the other. -/
def handOver : List Command → ε → List Delivery
  | [], _ => []
  | command :: rest, emitter =>
    Emitter.delivery command emitter :: handOver rest (Emitter.send command emitter).2

/-- Two emitters deliver and lose the same commands. What is said in return may differ. -/
def SameDeliveries (one : ε) (other : ζ) : Prop :=
  ∀ commands, handOver commands one = handOver commands other

theorem SameDeliveries.delivery {one : ε} {other : ζ} (same : SameDeliveries one other)
    (command : Command) : Emitter.delivery command one = Emitter.delivery command other := by
  simpa [handOver] using same [command]

theorem SameDeliveries.send {one : ε} {other : ζ} (same : SameDeliveries one other)
    (command : Command) :
    SameDeliveries (Emitter.send command one).2 (Emitter.send command other).2 := by
  intro commands
  simpa [handOver, same.delivery] using same (command :: commands)

end Emitter

namespace ScriptedBackend

theorem sameChanges_rescripted (backend : ScriptedBackend) (outcomes : List Outcome)
    (models : List Model) : Backend.SameChanges backend { backend with outcomes, models } := by
  intro operations
  induction operations generalizing backend with
  | nil => rfl
  | cons operation rest ih =>
    simp only [Backend.performs, Backend.perform, perform, begin]
    rcases backend.failures.head? with _ | err
    · exact congrArg _ (ih _)
    · exact congrArg _ (ih _)

theorem sameSetup_rescripted (backend : ScriptedBackend) (outcomes : List Outcome)
    (models : List Model) : Backend.SameSetup backend { backend with outcomes, models } := by
  intro options
  simp only [Backend.configure, configure, begin]
  rcases backend.failures.head? with _ | err
  · simp only
    rcases backend.configureError with _ | err
    · exact ⟨rfl, sameChanges_rescripted _ _ _⟩
    · exact ⟨rfl, sameChanges_rescripted _ _ _⟩
  · exact ⟨rfl, sameChanges_rescripted _ _ _⟩

end ScriptedBackend

/-- In the external mode, contexts are the same and backends agree on changes. -/
def Likeness.external (β γ ε : Type) [Backend β] [Backend γ] [Emitter ε] : Likeness β γ ε ε where
  backends := Backend.SameChanges
  contexts := Eq
  asks := False
  waits := True
  perform alike operation := alike.perform operation
  check _ asked := asked.elim
  model _ asked := asked.elim
  note := by
    rintro _ context rfl notice
    rfl
  issued := by
    rintro _ context rfl
    rfl
  issueTicket := by
    rintro _ context rfl
    rfl
  send := by
    rintro _ context rfl command
    exact .of_eq rfl rfl
  wait := by
    rintro _ context rfl _ ticket timeout heartbeat
    exact .intro rfl

/-- Two contexts have taken as many tickets and handed over the same commands, and will deliver and
lose the same commands. -/
structure Context.SameSending {ε ζ : Type} [Emitter ε] [Emitter ζ]
    (one : Context (RecordedEmitter ε)) (other : Context (RecordedEmitter ζ)) : Prop where
  issued : one.exchange.issued = other.exchange.issued
  deliveries : one.emitter.deliveries = other.emitter.deliveries
  emitters : Emitter.SameDeliveries one.emitter.emitter other.emitter.emitter

theorem Context.SameSending.send {ε ζ : Type} [Emitter ε] [Emitter ζ]
    {one : Context (RecordedEmitter ε)} {other : Context (RecordedEmitter ζ)}
    (same : SameSending one other) (command : Command) :
    Agree SameSending (one.send command) (other.send command) := by
  have delivery := same.emitters.delivery command
  refine .of_eq ?_ ⟨?_, ?_, ?_⟩
  · rw [result_send, result_send]
    exact congrArg Delivery.result delivery
  · rw [issued_send, issued_send, same.issued]
  · rw [deliveries_send, deliveries_send, same.deliveries, delivery]
  · rw [emitter_send, emitter_send]
    exact same.emitters.send command

/-- In the native mode, backends are the same and contexts agree on what is sent. -/
def Likeness.native (β ε ζ : Type) [Backend β] [Emitter ε] [Emitter ζ] :
    Likeness β β (RecordedEmitter ε) (RecordedEmitter ζ) where
  backends := Eq
  contexts := Context.SameSending
  asks := True
  waits := False
  perform := by
    rintro _ backend rfl operation
    exact .of_eq rfl rfl
  check := by
    rintro _ backend rfl _
    exact .of_eq rfl rfl
  model := by
    rintro _ backend rfl _
    exact .of_eq rfl rfl
  note same notice := ⟨same.issued, same.deliveries, same.emitters⟩
  issued same := same.issued
  issueTicket same := ⟨congrArg (· + 1) same.issued, same.deliveries, same.emitters⟩
  send same command := same.send command
  wait _ waited := waited.elim

namespace Session

/-- What a call shows: its result, what the session keeps about itself afterwards, and the commands
handed over so far. -/
structure Sight where
  result : Except SolverError Answer
  books : Books
  deliveries : List Delivery

variable {β γ ε ζ : Type} [Backend β] [Backend γ] [Emitter ε] [Emitter ζ]

def sights (session : Session β (RecordedEmitter ε)) : List Step → List Sight
  | [] => []
  | step :: rest =>
    let (result, after) := session.step step
    (result.map (⟨·, after.books, after.context.emitter.deliveries⟩)).toList ++ after.sights rest

/-- Start a session and watch what its calls show. -/
def watch (config : SessionConfig) (backend : β) (context : Context ε) (steps : List Step) :
    Except SolverError (List Sight) :=
  match startOn config backend context.recorded with
  | .error refusal => .error refusal.error
  | .ok session => .ok (session.sights steps)

theorem Alike.sights_external {first : Session β (RecordedEmitter ε)}
    {second : Session γ (RecordedEmitter ε)} (alike : Alike (.external β γ _) first second)
    (steps : List Step) : first.sights steps = second.sights steps := by
  induction steps generalizing first second with
  | nil => rfl
  | cons step rest ih =>
    simp only [sights]
    cases step with
    | call call =>
      simp only [Session.step]
      refine (alike.call call).elim fun result one other alike => ?_
      have contexts : one.context = other.context := alike.sameContexts
      rw [alike.books, contexts, ih alike]
    | signal signal | expect arrivals | settle =>
      obtain ⟨backends, rfl, asks, waits, pending⟩ := alike
      exact ih (.intro backends rfl asks waits pending)

/-- In the native mode, what happens between two calls leaves no trace. -/
theorem Alike.sights_native {one : Session β (RecordedEmitter ε)}
    {other : Session β (RecordedEmitter ζ)} (alike : Alike (.native β ε ζ) one other)
    (steps : List Step) : one.sights steps = other.sights ((Step.calls steps).map .call) := by
  induction steps generalizing one other with
  | nil => rfl
  | cons step rest ih =>
    simp only [sights]
    cases step with
    | call call =>
      simp only [Session.step, Step.calls, List.filterMap_cons, Step.call?, List.map_cons, sights]
      refine (alike.call call).elim fun result one other alike => ?_
      have sending : Context.SameSending one.context other.context := alike.sameContexts
      rw [alike.books, sending.deliveries, ih alike]
      rfl
    | signal signal =>
      obtain ⟨backends, contexts, asks, waits, pending⟩ := alike
      refine ih (.intro backends ⟨?_, contexts.deliveries, contexts.emitters⟩ asks waits pending)
      exact (Exchange.issued_receive ..).trans contexts.issued
    | expect arrivals =>
      obtain ⟨backends, contexts, asks, waits, pending⟩ := alike
      refine ih (.intro backends ⟨?_, contexts.deliveries, contexts.emitters⟩ asks waits pending)
      exact contexts.issued
    | settle =>
      obtain ⟨backends, contexts, asks, waits, pending⟩ := alike
      refine ih (.intro backends ⟨?_, contexts.deliveries, contexts.emitters⟩ asks waits pending)
      exact (Exchange.issued_receiveAll ..).trans contexts.issued

theorem Alike.native_self {one : Session β (RecordedEmitter ε)}
    {other : Session β (RecordedEmitter ζ)} (alike : Alike (.native β ε ζ) one other) :
    Alike (.native β ζ ζ) other other := by
  obtain @⟨backend, context, _, _, asks, waits, pending⟩ := alike
  have backends : Option.Rel (Likeness.native β ζ ζ).backends backend backend := by
    rcases backend with _ | backend
    · exact .none
    · exact .some rfl
  exact .intro backends ⟨rfl, rfl, fun _ => rfl⟩ asks waits pending

/-- Runs show the same when they start alike and show the same from there. -/
theorem watch_eq {like : Likeness β γ (RecordedEmitter ε) (RecordedEmitter ζ)}
    {config : SessionConfig} {first : β} {second : γ} {one : Context ε} {other : Context ζ}
    {steps steps' : List Step}
    (started : StartAlike like (startOn config first one.recorded)
      (startOn config second other.recorded))
    (shown : ∀ {first second}, Alike like first second →
      first.sights steps = second.sights steps') :
    watch config first one steps = watch config second other steps' := by
  simp only [watch]
  generalize startOn config first one.recorded = start at started ⊢
  generalize startOn config second other.recorded = start' at started ⊢
  cases started with
  | refused err => rfl
  | started alike => exact congrArg Except.ok (shown alike)

/-- A run in which the solver replies one thing where a backend may say another. -/
def contradicted : List Step :=
  [.call (.apply (.assert (.boolLit false))), .expect [⟨0, .reply (.outcome .unsat)⟩],
    .call .getModel, .signal .cancel, .signal .hangUp, .call .check]

/-- In the external mode only the results of changes matter of the backend, in the native mode only
the delivery of commands matters of the other side: whatever else the two do, the calls of a run
show the same. -/
theorem selected_side_answers (config : SessionConfig) :
    (config.mode = .external → ∀ {β γ ε : Type} [Backend β] [Backend γ] [Emitter ε]
      (first : β) (second : γ) (context : Context ε), Backend.SameSetup first second →
      ∀ steps, watch config first context steps = watch config second context steps) ∧
    (config.mode = .native → ∀ {β ε ζ : Type} [Backend β] [Emitter ε] [Emitter ζ] (backend : β)
      (one : Context ε) (other : Context ζ), one.exchange.issued = other.exchange.issued →
      Emitter.SameDeliveries one.emitter other.emitter →
      ∀ steps steps', Step.calls steps = Step.calls steps' →
        watch config backend one steps = watch config backend other steps') := by
  constructor
  · intro external β γ ε _ _ _ first second context same steps
    have started : StartAlike (.external β γ _) (startOn config first context.recorded)
        (startOn config second context.recorded) :=
      startOn_alike same.configure rfl (fun native => nomatch external ▸ native)
        fun _ => trivial
    exact watch_eq started fun alike => alike.sights_external steps
  · intro native β ε ζ _ _ _ backend one other issued deliveries steps steps' same
    have started : StartAlike (.native β ε ζ) (startOn config backend one.recorded)
        (startOn config backend other.recorded) :=
      startOn_alike (fun _ => .of_eq rfl rfl) ⟨issued, rfl, deliveries⟩ (fun _ => trivial)
        fun external => nomatch native ▸ external
    refine watch_eq started fun {first second} alike => ?_
    -- Both runs are compared with the bare calls, made of one of the two sessions.
    calc first.sights steps
        = second.sights ((Step.calls steps).map .call) := alike.sights_native steps
      _ = second.sights ((Step.calls steps').map .call) := by rw [same]
      _ = second.sights steps' := (alike.native_self.sights_native steps').symm

/-- Backends that would answer differently do not matter in the external mode, replies that would
do not matter in the native mode. -/
theorem contradictions_unseen :
    quick.mode = .external ∧
      Backend.SameSetup ({} : ScriptedBackend)
        ({ outcomes := [.sat], models := [{}] } : ScriptedBackend) ∧
      watch quick ({} : ScriptedBackend) ⟨({} : Transcript), {}, .channel⟩ contradicted =
        watch quick ({ outcomes := [.sat], models := [{}] } : ScriptedBackend)
          ⟨({} : Transcript), {}, .channel⟩ contradicted ∧
      watch { quick with mode := .native } ({} : Shadow)
          ⟨({} : Transcript), {}, .channel⟩ contradicted =
        watch { quick with mode := .native } ({} : Shadow)
          ⟨({} : Transcript), .unattended, .channel⟩ ((Step.calls contradicted).map .call) := by
  have same := ScriptedBackend.sameSetup_rescripted {} [.sat] [{}]
  refine ⟨rfl, same, ?_, ?_⟩
  · exact (selected_side_answers quick).1 rfl _ _ _ same contradicted
  · exact (selected_side_answers { quick with mode := .native }).2 rfl _ _ _ rfl (fun _ => rfl)
      contradicted _ rfl

end Session

end SmtSession

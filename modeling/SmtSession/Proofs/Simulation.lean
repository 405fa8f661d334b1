import SmtSession.Session.Run

/-! Simulation: two sessions that keep the same books give the same results as long as their
backends and their contexts answer alike. How much of these has to answer alike depends on what the
sessions turn to: a session in the external mode never asks its backend for an answer, one in the
native mode never waits. -/
namespace SmtSession

/-- Two computations have the same result and leave related states. -/
inductive Agree {α σ τ : Type} (related : σ → τ → Prop) : α × σ → α × τ → Prop
  | intro {result : α} {first : σ} {second : τ} (alike : related first second) :
    Agree related (result, first) (result, second)

@[elab_as_elim]
theorem Agree.elim {α σ τ : Type} {related : σ → τ → Prop} {first : α × σ} {second : α × τ}
    {motive : α × σ → α × τ → Prop} (agree : Agree related first second)
    (step : ∀ result first second, related first second →
      motive (result, first) (result, second)) : motive first second := by
  obtain ⟨alike⟩ := agree
  exact step _ _ _ alike

theorem Agree.of_eq {α σ τ : Type} {related : σ → τ → Prop} {first : α × σ} {second : α × τ}
    (results : first.1 = second.1) (alike : related first.2 second.2) :
    Agree related first second := by
  obtain ⟨result, after⟩ := first
  obtain ⟨_, after'⟩ := second
  obtain rfl : result = _ := results
  exact .intro alike

/-- Backends and contexts that answer alike, as far as sessions turn to them. -/
structure Likeness (β γ ε ζ : Type) [Backend β] [Backend γ] [Emitter ε] [Emitter ζ] where
  backends : β → γ → Prop
  contexts : Context ε → Context ζ → Prop
  /-- Whether backends are asked for answers, and not only told of changes. -/
  asks : Prop
  /-- Whether replies are waited for. -/
  waits : Prop
  perform {first : β} {second : γ} (alike : backends first second) (operation : Operation) :
    Agree backends (Backend.perform operation first) (Backend.perform operation second)
  check {first : β} {second : γ} (alike : backends first second) (asked : asks) :
    Agree backends (Backend.check first) (Backend.check second)
  model {first : β} {second : γ} (alike : backends first second) (asked : asks) :
    Agree backends (Backend.model first) (Backend.model second)
  note {first : Context ε} {second : Context ζ} (alike : contexts first second) (notice : Notice) :
    contexts (first.note notice) (second.note notice)
  issued {first : Context ε} {second : Context ζ} (alike : contexts first second) :
    first.exchange.issued = second.exchange.issued
  issueTicket {first : Context ε} {second : Context ζ} (alike : contexts first second) :
    contexts first.issueTicket second.issueTicket
  send {first : Context ε} {second : Context ζ} (alike : contexts first second)
    (command : Command) : Agree contexts (first.send command) (second.send command)
  wait {first : Context ε} {second : Context ζ} (alike : contexts first second) (waited : waits)
    (ticket : Nat) (timeout heartbeat : Duration) :
    Agree contexts (first.wait ticket timeout heartbeat) (second.wait ticket timeout heartbeat)

/-- What a session keeps about itself. -/
structure Books where
  state : SessionState
  depth : Nat
  frames : Frames (String × SmtSort)
  generation : Nat
  pending : Option PendingCheck
  lastCheck : Option (Nat × Outcome)
  fault : Option String
  deriving DecidableEq

namespace Session

def books {β ε : Type} (session : Session β ε) : Books where
  state := session.state
  depth := session.depth
  frames := session.frames
  generation := session.generation
  pending := session.pending
  lastCheck := session.lastCheck
  fault := session.fault

variable {β γ ε ζ : Type} [Backend β] [Backend γ] [Emitter ε] [Emitter ζ]

/-- Two sessions with the same books, over backends and contexts that answer alike to whatever
the sessions turn to them for. -/
inductive Alike (like : Likeness β γ ε ζ) : Session β ε → Session γ ζ → Prop
  | intro {session : Session β ε} {backend : Option γ} {context : Context ζ}
    (backends : Option.Rel like.backends session.backend backend)
    (contexts : like.contexts session.context context)
    (asks : session.config.mode = .native → like.asks)
    (waits : session.config.mode = .external → like.waits)
    (pending : ∀ check, session.pending = some check → check.native = none → like.waits) :
    Alike like session { session with backend, context }

variable {like : Likeness β γ ε ζ} {first : Session β ε} {second : Session γ ζ}

theorem Alike.books (alike : Alike like first second) : first.books = second.books := by
  obtain ⟨_⟩ := alike
  rfl

theorem Alike.sameContexts (alike : Alike like first second) :
    like.contexts first.context second.context := by
  obtain ⟨_, contexts, _⟩ := alike
  exact contexts

theorem Alike.emit (alike : Alike like first second) (command : Command) :
    Agree (Alike like) (first.emit command) (second.emit command) := by
  obtain ⟨backends, contexts, asks, waits, pending⟩ := alike
  simp only [Session.emit]
  refine (like.send contexts command).elim fun result _ _ contexts => ?_
  rcases result with err | ⟨⟩
  · exact .intro (.intro backends (like.note contexts _) asks waits pending)
  · exact .intro (.intro backends contexts asks waits pending)

theorem Alike.sendQuery (alike : Alike like first second) (query : Command) :
    Agree (Alike like) (first.sendQuery query) (second.sendQuery query) := by
  obtain ⟨backends, contexts, asks, waits, pending⟩ := alike
  have asked : Alike like { first with context := first.context.issueTicket } _ :=
    .intro backends (like.issueTicket contexts) asks waits pending
  simp only [Session.sendQuery, like.issued contexts]
  exact (asked.emit query).elim fun _ _ _ alike => .intro alike

theorem Alike.apply (alike : Alike like first second) (operation : Operation) :
    Agree (Alike like) (first.apply operation) (second.apply operation) := by
  obtain ⟨backends, contexts, asks, waits, pending⟩ := alike
  have permitted (backend : Option γ) (context : Context ζ) :
      ({ first with backend, context } : Session γ ζ).permit operation =
        first.permit operation := rfl
  simp only [Session.apply, permitted]
  rcases first.permit operation with err | declared
  · exact .intro (.intro backends contexts asks waits pending)
  · rcases present : first.backend with _ | one <;> rw [present] at backends <;>
      obtain related | _ := backends
    · exact .intro (.intro (present ▸ .none) contexts asks waits pending)
    · simp only
      refine (like.perform related operation).elim fun result _ _ related => ?_
      rcases result with err | ⟨⟩
      · exact .intro (.intro (.some related) contexts asks waits pending)
      · refine Alike.emit ?_ _
        cases operation <;> exact .intro (.some related) contexts asks waits pending

theorem Alike.askBackend (alike : Alike like first second) :
    Agree (Alike like) first.askBackend second.askBackend := by
  obtain ⟨backends, contexts, asks, waits, pending⟩ := alike
  rcases native : first.config.mode with _ | _
  · simp only [Session.askBackend, mode, native]
    rcases present : first.backend with _ | one <;> rw [present] at backends <;>
      obtain related | _ := backends
    · exact .intro (.intro (present ▸ .none) contexts asks waits pending)
    · simp only
      refine (like.check related (asks native)).elim fun _ _ _ related => ?_
      exact .intro (.intro (.some related) contexts asks waits pending)
  · simp only [Session.askBackend, mode, native]
    exact .intro (.intro backends contexts asks waits pending)

omit [Emitter ε] in
/-- Only the external mode leaves the answer of a check to a wait. -/
theorem external_of_unanswered {session after : Session β ε}
    (asked : session.askBackend = (.ok none, after)) : session.config.mode = .external := by
  rcases native : session.config.mode with _ | _
  · simp only [Session.askBackend, mode, native] at asked
    split at asked
    · cases asked
    · rename_i backend _
      rcases answered : Backend.check backend with ⟨err | outcome, next⟩ <;>
        simp only [answered] at asked <;> cases asked
  · rfl

theorem Alike.submitCheck (alike : Alike like first second) :
    Agree (Alike like) first.submitCheck second.submitCheck := by
  -- A check without an answer is only ever pending in the external mode, where waiting is allowed.
  have waiting : ∀ after, first.askBackend = (.ok none, after) → like.waits := by
    obtain ⟨_, _, _, waits, _⟩ := alike
    exact fun _ asked => waits (external_of_unanswered asked)
  have ready : second.ensureIdle = first.ensureIdle := by
    obtain ⟨_⟩ := alike
    rfl
  simp only [Session.submitCheck, ready]
  rcases first.ensureIdle with err | ⟨⟩
  · exact .intro alike
  · revert waiting
    simp only
    refine alike.askBackend.elim fun answer _ _ alike waiting => ?_
    rcases answer with err | native
    · exact .intro alike
    · simp only
      refine (alike.sendQuery .checkSat).elim fun result _ _ alike => ?_
      rcases result with err | ticket
      · exact .intro alike
      · obtain ⟨backends, contexts, asks, waits, _⟩ := alike
        refine .intro (.intro backends contexts asks waits ?_)
        intro check pending unanswered
        obtain rfl := Option.some.inj pending
        obtain rfl : native = none := unanswered
        exact waiting _ rfl

omit [Backend β] [Emitter ε] in
theorem waitForOutcome_of_wait {session : Session β ε} {ticket : Nat} {result : WaitResult}
    {after : Context ε}
    (waited : session.context.wait ticket session.config.checkTimeout session.config.heartbeat =
      (result, after)) :
    session.waitForOutcome ticket = (outcomeOf result,
      match checkNotice? ticket session.config.checkTimeout result with
      | some notice => { session with context := after.note notice }
      | none => { session with context := after }) := by
  simp only [waitForOutcome, waited]
  rfl

theorem Alike.waitForOutcome (alike : Alike like first second) (waiting : like.waits)
    (ticket : Nat) : Agree (Alike like) (first.waitForOutcome ticket)
      (second.waitForOutcome ticket) := by
  obtain @⟨backend, context, backends, contexts, asks, waits, pending⟩ := alike
  -- The two waits are named before they are compared: nothing here depends on how a wait goes on.
  have agree := like.wait contexts waiting ticket first.config.checkTimeout first.config.heartbeat
  rcases waited : first.context.wait ticket first.config.checkTimeout first.config.heartbeat with
    ⟨result, one⟩
  rcases waited' : context.wait ticket first.config.checkTimeout first.config.heartbeat with
    ⟨result', other⟩
  rw [waited, waited'] at agree
  obtain ⟨contexts⟩ := agree
  have second : ({ first with backend, context } : Session γ ζ).waitForOutcome ticket = _ :=
    waitForOutcome_of_wait waited'
  rw [waitForOutcome_of_wait waited, second]
  refine .intro ?_
  simp only
  rcases checkNotice? ticket first.config.checkTimeout result with _ | notice
  · exact .intro backends contexts asks waits pending
  · exact .intro backends (like.note contexts notice) asks waits pending

theorem Alike.awaitOutcome (alike : Alike like first second) :
    Agree (Alike like) first.awaitOutcome second.awaitOutcome := by
  have same : second.state = first.state ∧ second.pending = first.pending := by
    obtain ⟨_⟩ := alike
    exact ⟨rfl, rfl⟩
  simp only [Session.awaitOutcome, same]
  split
  · exact .intro alike
  · rcases waited : first.pending with _ | check
    · exact .intro alike
    · have collected : Agree (Alike like)
          (outcomeOfPending check { first with pending := none, state := .idle })
          (outcomeOfPending check { second with pending := none, state := .idle }) := by
        obtain ⟨backends, contexts, asks, waits, pending⟩ := alike
        have resting : Alike like { first with pending := none, state := .idle } _ :=
          .intro backends contexts asks waits nofun
        rcases check with ⟨ticket, _ | outcome⟩
        · exact resting.waitForOutcome (pending _ waited rfl) ticket
        · exact .intro resting
      simp only
      refine collected.elim fun result _ _ alike => ?_
      rcases result with err | outcome
      · exact .intro alike
      · obtain ⟨backends, contexts, asks, waits, pending⟩ := alike
        exact .intro (.intro backends contexts asks waits pending)

theorem Alike.check (alike : Alike like first second) :
    Agree (Alike like) first.check second.check := by
  simp only [Session.check]
  refine alike.submitCheck.elim fun result _ _ alike => ?_
  rcases result with err | ⟨⟩
  · exact .intro alike
  · exact alike.awaitOutcome

theorem Alike.fetchExternalModel (alike : Alike like first second) (waiting : like.waits) :
    Agree (Alike like) first.fetchExternalModel second.fetchExternalModel := by
  simp only [Session.fetchExternalModel]
  refine (alike.sendQuery .getModel).elim fun result asked _ alike => ?_
  rcases result with err | ticket
  · exact .intro alike
  · obtain ⟨backends, contexts, asks, waits, pending⟩ := alike
    simp only
    exact (like.wait contexts waiting ticket asked.config.checkTimeout
      asked.config.heartbeat).elim fun _ _ _ contexts =>
        .intro (.intro backends contexts asks waits pending)

theorem Alike.fetchModel (alike : Alike like first second) :
    Agree (Alike like) first.fetchModel second.fetchModel := by
  have same : second.mode = first.mode := by
    obtain ⟨_⟩ := alike
    rfl
  simp only [Session.fetchModel, same]
  rcases mode : first.mode with _ | _
  · obtain ⟨backends, contexts, asks, waits, pending⟩ := alike
    rcases present : first.backend with _ | one <;> rw [present] at backends <;>
      obtain related | _ := backends
    · exact .intro (.intro (present ▸ .none) contexts asks waits pending)
    · simp only
      exact (like.model related (asks mode)).elim fun _ _ _ related =>
        .intro (.intro (.some related) contexts asks waits pending)
  · have waiting : like.waits := by
      obtain ⟨_, _, _, waits, _⟩ := alike
      exact waits mode
    exact alike.fetchExternalModel waiting

theorem Alike.model (alike : Alike like first second) :
    Agree (Alike like) first.model second.model := by
  have same : second.ensureIdle = first.ensureIdle ∧ second.hasFreshSat = first.hasFreshSat ∧
      second.generation = first.generation ∧ second.visibleSorts = first.visibleSorts := by
    obtain ⟨_⟩ := alike
    exact ⟨rfl, rfl, rfl, rfl⟩
  simp only [Session.model, same]
  rcases first.ensureIdle with err | ⟨⟩
  · exact .intro alike
  · simp only
    split
    · exact alike.fetchModel.elim fun _ _ _ alike => .intro alike
    · exact .intro alike

theorem Alike.getModel (alike : Alike like first second) :
    Agree (Alike like) first.getModel second.getModel := by
  simp only [Session.getModel]
  refine alike.check.elim fun result _ _ alike => ?_
  rcases result with err | outcome
  · exact .intro alike
  · simp only
    split
    · exact alike.model.elim fun _ _ _ alike => .intro alike
    · exact .intro alike

theorem Alike.destroy (alike : Alike like first second) :
    Agree (Alike like) first.destroy second.destroy := by
  obtain ⟨backends, contexts, asks, waits, pending⟩ := alike
  simp only [Session.destroy]
  split
  · exact .intro (.intro backends contexts asks waits pending)
  · refine .intro (.intro .none (like.note ?_ _) asks waits nofun)
    simp only [sendExit]
    refine (like.send contexts .exit).elim fun result _ _ contexts => ?_
    rcases result with err | ⟨⟩
    · exact like.note contexts _
    · exact contexts

theorem Alike.call (alike : Alike like first second) (call : Call) :
    Agree (Alike like) (first.call call) (second.call call) := by
  cases call <;> simp only [Session.call]
  case apply operation => exact (alike.apply operation).elim fun _ _ _ alike => .intro alike
  case submitCheck => exact alike.submitCheck.elim fun _ _ _ alike => .intro alike
  case awaitOutcome => exact alike.awaitOutcome.elim fun _ _ _ alike => .intro alike
  case check => exact alike.check.elim fun _ _ _ alike => .intro alike
  case model => exact alike.model.elim fun _ _ _ alike => .intro alike
  case getModel => exact alike.getModel.elim fun _ _ _ alike => .intro alike
  case destroy => exact alike.destroy.elim fun _ _ _ alike => .intro alike

/-- Two sessions are both refused at their start, for the same reason, or they start alike. -/
inductive StartAlike (like : Likeness β γ ε ζ) :
    Except (Refusal ε) (Session β ε) → Except (Refusal ζ) (Session γ ζ) → Prop
  | refused {first : Context ε} {second : Context ζ} (err : SolverError) :
    StartAlike like (.error ⟨err, first⟩) (.error ⟨err, second⟩)
  | started {first : Session β ε} {second : Session γ ζ} (alike : Alike like first second) :
    StartAlike like (.ok first) (.ok second)

theorem startOn_alike {config : SessionConfig} {one : β} {other : γ} {context : Context ε}
    {context' : Context ζ}
    (configured : ∀ options, Agree like.backends (Backend.configure options one)
      (Backend.configure options other))
    (contexts : like.contexts context context') (asks : config.mode = .native → like.asks)
    (waits : config.mode = .external → like.waits) :
    StartAlike like (startOn config one context) (startOn config other context') := by
  have told (noted : List Notice) : like.contexts
      (noted.foldl (fun context notice => context.note notice) context)
      (noted.foldl (fun context notice => context.note notice) context') := by
    induction noted generalizing context context' with
    | nil => exact contexts
    | cons notice rest ih => exact ih (like.note contexts notice)
  simp only [startOn]
  rcases config.resolveOptions with ⟨err | options, noted⟩
  · exact .refused err
  · simp only
    refine (configured options).elim fun result _ _ backends => ?_
    rcases result with err | ⟨⟩
    · exact .refused err
    · exact .started (.intro (.some backends) (like.note (told noted) _) asks waits nofun)

end Session

end SmtSession

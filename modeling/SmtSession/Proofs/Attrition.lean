import SmtSession.Proofs.Faults

/-! Attrition: two sessions that differ in their emitters do the same until a command is lost to the
first of them. That command faults the first session, or ends it if it was the last command, while
the second goes on. -/
namespace SmtSession

variable {β ε ζ : Type}

theorem Operation.command_ne_exit (operation : Operation) : operation.command ≠ .exit := by
  cases operation <;> simp [command]

/-- Two emitters of which the first may lose commands that reach the second. -/
structure Attrition (ε ζ : Type) [Emitter ε] [Emitter ζ] where
  /-- Nothing has been lost. -/
  level : ε → ζ → Prop
  /-- A command was the first to be lost, for a reason. -/
  behind : Command → SolverError → ε → ζ → Prop
  send {one : ε} {other : ζ} (alike : level one other) (command : Command) :
    (∃ signals one' other', Emitter.send command one = (.ok signals, one') ∧
      Emitter.send command other = (.ok signals, other') ∧ level one' other') ∨
    ∃ reason one' signals other', Emitter.send command one = (.error reason, one') ∧
      Emitter.send command other = (.ok signals, other') ∧ behind command reason one' other'
  sendOne {command : Command} {reason : SolverError} {one : ε} {other : ζ}
    (apart : behind command reason one other) (next : Command) :
    behind command reason (Emitter.send next one).2 other
  sendOther {command : Command} {reason : SolverError} {one : ε} {other : ζ}
    (apart : behind command reason one other) (next : Command) :
    behind command reason one (Emitter.send next other).2

def Context.through (emitter : ζ) (context : Context ε) : Context ζ := { context with emitter }

theorem Context.wait_through (ticket : Nat) (timeout heartbeat : Duration) (emitter : ζ)
    (context : Context ε) : ∃ result after, after.emitter = context.emitter ∧
      context.wait ticket timeout heartbeat = (result, after) ∧
      (context.through emitter).wait ticket timeout heartbeat =
        (result, after.through emitter) := by
  have same : (context.through emitter).exchange = context.exchange := rfl
  simp only [wait, same]
  rcases context.exchange.wait ticket timeout heartbeat with ⟨result, exchange⟩
  exact ⟨result, { context with exchange }, rfl, rfl, rfl⟩

namespace Session

def through (emitter : ζ) (session : Session β ε) : Session β ζ :=
  { session with context := session.context.through emitter }

section Emitters

variable [Backend β] [Emitter ε]

omit [Backend β] in
theorem emitter_emit (command : Command) (session : Session β ε) :
    (session.emit command).2.context.emitter =
      (Emitter.send command session.context.emitter).2 := by
  have sent := session.context.emitter_send command
  rw [← sent, emit]
  rcases session.context.send command with ⟨err | ⟨⟩, context⟩ <;> rfl

omit [Backend β] in
theorem emitter_sendQuery (query : Command) (session : Session β ε) :
    (session.sendQuery query).2.context.emitter =
      (Emitter.send query session.context.emitter).2 := by
  rw [sendQuery, emitter_emit]
  rfl

theorem emitter_submitCheck (session : Session β ε) :
    session.submitCheck.2.context.emitter = session.context.emitter ∨
      session.submitCheck.2.context.emitter =
        (Emitter.send .checkSat session.context.emitter).2 := by
  rcases session.submitCheck_contacts with
    ⟨_, _, called, _⟩ | ⟨_, _, _, _, _, _, _, called, _⟩ | ⟨_, answer, backend, _, _, called, _⟩
  · exact .inl (by rw [called])
  · exact .inl (by rw [called])
  · right
    rw [called, ← emitter_sendQuery .checkSat { session with backend }, submit]
    rcases Session.sendQuery .checkSat { session with backend } with ⟨err | ticket, after⟩ <;> rfl

theorem emitter_model (session : Session β ε) :
    session.model.2.context.emitter = session.context.emitter ∨
      session.model.2.context.emitter = (Emitter.send .getModel session.context.emitter).2 := by
  rcases session.model_contacts with
    ⟨_, _, called, _⟩ | ⟨_, _, _, _, _, called, _⟩ | ⟨_, _, _, called, _⟩
  · exact .inl (by rw [called])
  · exact .inl (by rw [called])
  · right
    rw [called, ← emitter_sendQuery .getModel session, fetchExternalModel]
    rcases session.sendQuery .getModel with ⟨err | ticket, after⟩ <;> rfl

omit [Backend β] [Emitter ε] in
theorem emitter_awaitOutcome (session : Session β ε) :
    session.awaitOutcome.2.context.emitter = session.context.emitter := by
  rcases session.awaitOutcome_cases with
    ⟨_, _, called, _⟩ | ⟨_, _, _, called, _⟩ | ⟨_, _, _, _, _, _, waited, called, _⟩
  · rw [called]
  · rw [called]
  · have same := Context.wait_emitter waited
    rw [called]
    exact same

theorem emitter_apply (operation : Operation) (session : Session β ε) :
    (session.apply operation).2.context.emitter = session.context.emitter ∨
      (session.apply operation).2.context.emitter =
        (Emitter.send operation.command session.context.emitter).2 := by
  rcases session.apply_contacts operation with
    ⟨_, _, called, _⟩ | ⟨_, _, _, _, _, _, _, called, _⟩ | ⟨declared, _, after, _, _, _, called, _⟩
  · exact .inl (by rw [called])
  · exact .inl (by rw [called])
  · right
    rw [called, emitter_emit, book_context]

theorem call_keeps_emitter {P : ε → Prop} {session : Session β ε}
    (kept : ∀ command emitter, P emitter → P (Emitter.send command emitter).2)
    (held : P session.context.emitter) (call : Call) :
    P (session.call call).2.context.emitter := by
  apply call_preserves (motive := fun session => P session.context.emitter)
  · intro operation _
    rcases session.emitter_apply operation with same | sent
    · rwa [same]
    · rw [sent]
      exact kept _ _ held
  · intro _
    rcases session.destroy_cases with ⟨_, called, _⟩ | ⟨_, _, called, same, _⟩ <;> rw [called]
    · exact held
    · rw [same, Context.emitter_send]
      exact kept _ _ held
  · intro session held
    rcases session.emitter_submitCheck with same | sent
    · rwa [same]
    · rw [sent]
      exact kept _ _ held
  · intro session held
    rwa [emitter_awaitOutcome]
  · intro session held
    rcases session.emitter_model with same | sent
    · rwa [same]
    · rw [sent]
      exact kept _ _ held
  · exact held

end Emitters

variable [Emitter ε] [Emitter ζ] {wear : Attrition ε ζ}

/-- The same session twice, and nothing has been lost to either. -/
inductive Level (wear : Attrition ε ζ) : Session β ε → Session β ζ → Prop
  | intro {session : Session β ε} {emitter : ζ}
    (emitters : wear.level session.context.emitter emitter) (sound : session.state ≠ .faulted)
    (unhurt : session.fault = none) : Level wear session (session.through emitter)

/-- The first session is faulted by a command that was lost to it. -/
structure Apart (wear : Attrition ε ζ) (command : Command) (reason : SolverError)
    (one : Session β ε) (other : Session β ζ) : Prop where
  emitters : wear.behind command reason one.context.emitter other.context.emitter
  goesOn : command ≠ .exit
  faulted : one.state = .faulted
  fault : one.fault = some (deliveryFault command reason)

/-- Two calls give the same and leave the sessions level, or the first one tells of a loss. -/
inductive Trails {α : Type} (wear : Attrition ε ζ) :
    Except SolverError α × Session β ε → Except SolverError α × Session β ζ → Prop
  | level {result : Except SolverError α} {one : Session β ε} {other : Session β ζ}
    (level : Level wear one other) : Trails wear (result, one) (result, other)
  | apart {command : Command} {reason : SolverError} {result : Except SolverError α}
    {one : Session β ε} {other : Session β ζ} (apart : Apart wear command reason one other) :
    Trails wear (.error (.desynchronized (deliveryFault command reason)), one) (result, other)

@[elab_as_elim]
theorem Trails.elim {α : Type} {first : Except SolverError α × Session β ε}
    {second : Except SolverError α × Session β ζ}
    {motive : Except SolverError α × Session β ε → Except SolverError α × Session β ζ → Prop}
    (trails : Trails wear first second)
    (level : ∀ result one other, Level wear one other → motive (result, one) (result, other))
    (apart : ∀ command reason result one other, Apart wear command reason one other →
      motive (.error (.desynchronized (deliveryFault command reason)), one) (result, other)) :
    motive first second := by
  cases trails with
  | level same => exact level _ _ _ same
  | apart lost => exact apart _ _ _ _ _ lost

theorem Trails.of_agree {α : Type} {first : Except SolverError α × Session β ε}
    {second : Except SolverError α × Session β ζ} (agree : Agree (Level wear) first second) :
    Trails wear first second := by
  obtain ⟨same⟩ := agree
  exact .level same

theorem Apart.trails {α : Type} {command : Command} {reason : SolverError} {one : Session β ε}
    {other : Session β ζ} {second : Except SolverError α × Session β ζ}
    (apart : Apart wear command reason one other)
    (emitters : wear.behind command reason one.context.emitter second.2.context.emitter) :
    Trails wear (.error (.desynchronized (deliveryFault command reason)), one) second := by
  rcases second with ⟨result, after⟩
  exact .apart { apart with emitters }

theorem Trails.map {α α' : Type} {result result' : Except SolverError α} {one : Session β ε}
    {other : Session β ζ} (f : α → α')
    (trails : Trails wear (result, one) (result', other)) :
    Trails wear (result.map f, one) (result'.map f, other) := by
  cases trails with
  | level same => exact .level same
  | apart lost => exact .apart lost

variable {one : Session β ε} {other : Session β ζ}

theorem Level.emit (level : Level wear one other) {command : Command} (goesOn : command ≠ .exit) :
    Trails wear (one.emit command) (other.emit command) := by
  obtain ⟨emitters, sound, unhurt⟩ := level
  rcases wear.send emitters command with
    ⟨signals, emitter, emitter', sent, sent', emitters⟩ |
    ⟨reason, emitter, signals, emitter', sent, sent', emitters⟩
  · simp only [Session.emit, Context.send, through, Context.through, sent, sent']
    exact .level (.intro emitters sound unhurt)
  · simp only [Session.emit, Context.send, through, Context.through, sent, sent']
    exact .apart ⟨emitters, goesOn, rfl, rfl⟩

theorem Level.sendQuery (level : Level wear one other) (query : Command)
    (goesOn : query ≠ .exit) : Trails wear (one.sendQuery query) (other.sendQuery query) := by
  obtain @⟨emitter, emitters, sound, unhurt⟩ := level
  have asked : Level wear { one with context := one.context.issueTicket } _ :=
    .intro emitters sound unhurt
  have sent := asked.emit goesOn
  exact sent.map _

variable [Backend β]

theorem Level.apply (level : Level wear one other) (operation : Operation) :
    Trails wear (one.apply operation) (other.apply operation) := by
  obtain @⟨emitter, emitters, sound, unhurt⟩ := level
  have permitted : (one.through emitter).permit operation = one.permit operation := rfl
  have present : (one.through emitter).backend = one.backend := rfl
  simp only [Session.apply, permitted, present]
  rcases one.permit operation with err | declared
  · exact .level (.intro emitters sound unhurt)
  · rcases one.backend with _ | backend
    · exact .level (.intro emitters sound unhurt)
    · simp only
      rcases Backend.perform operation backend with ⟨err | ⟨⟩, backend⟩
      · exact .level (.intro emitters sound unhurt)
      · refine Level.emit ?_ operation.command_ne_exit
        cases operation <;> exact .intro emitters sound unhurt

theorem Level.askBackend (level : Level wear one other) :
    Agree (Level wear) one.askBackend other.askBackend := by
  obtain @⟨emitter, emitters, sound, unhurt⟩ := level
  have same : (one.through emitter).mode = one.mode ∧
    (one.through emitter).backend = one.backend := ⟨rfl, rfl⟩
  simp only [Session.askBackend, same]
  rcases one.mode with _ | _
  · rcases one.backend with _ | backend
    · exact .intro (.intro emitters sound unhurt)
    · exact .intro (.intro emitters sound unhurt)
  · exact .intro (.intro emitters sound unhurt)

theorem Level.submitCheck (level : Level wear one other) :
    Trails wear one.submitCheck other.submitCheck := by
  have ready : other.ensureIdle = one.ensureIdle := by
    obtain ⟨_⟩ := level
    rfl
  simp only [Session.submitCheck, ready]
  rcases one.ensureIdle with err | ⟨⟩
  · exact .level level
  · simp only
    refine level.askBackend.elim fun answer _ _ level => ?_
    rcases answer with err | native
    · exact .level level
    · simp only
      refine (level.sendQuery .checkSat (by simp)).elim ?_ ?_
      · intro result _ _ level
        rcases result with err | ticket
        · exact .level level
        · obtain ⟨emitters, _, unhurt⟩ := level
          exact .level (.intro emitters (by simp) unhurt)
      · intro _ _ result _ _ apart
        rcases result with err | ticket <;> exact apart.trails apart.emitters

omit [Emitter ε] [Emitter ζ] [Backend β] in
theorem waitForOutcome_through (ticket : Nat) (emitter : ζ) (session : Session β ε) :
    ∃ result context, context.emitter = session.context.emitter ∧
      session.waitForOutcome ticket = (result, { session with context }) ∧
      (session.through emitter).waitForOutcome ticket =
        (result, Session.through emitter { session with context }) := by
  obtain ⟨result, after, same, waited, waited'⟩ := session.context.wait_through ticket
    session.config.checkTimeout session.config.heartbeat emitter
  have second : (session.through emitter).waitForOutcome ticket = _ :=
    waitForOutcome_of_wait waited'
  rw [waitForOutcome_of_wait waited, second]
  simp only [through]
  rcases checkNotice? ticket session.config.checkTimeout result with _ | notice
  · exact ⟨_, after, same, rfl, rfl⟩
  · exact ⟨_, after.note notice, same, rfl, rfl⟩

omit [Backend β] in
theorem Level.awaitOutcome (level : Level wear one other) :
    Agree (Level wear) one.awaitOutcome other.awaitOutcome := by
  obtain @⟨emitter, emitters, sound, unhurt⟩ := level
  have same : (one.through emitter).state = one.state ∧
    (one.through emitter).pending = one.pending := ⟨rfl, rfl⟩
  simp only [Session.awaitOutcome, same]
  split
  · exact .intro (.intro emitters sound unhurt)
  · rcases one.pending with _ | ⟨ticket, _ | outcome⟩
    · exact .intro (.intro emitters sound unhurt)
    · obtain ⟨result, context, kept, waited, waited'⟩ :=
        waitForOutcome_through ticket emitter { one with pending := none, state := .idle }
      have level : wear.level context.emitter emitter := kept ▸ emitters
      have collected : outcomeOfPending ⟨ticket, none⟩
        { one with pending := none, state := .idle } = _ := waited
      have collected' : outcomeOfPending ⟨ticket, none⟩
        (Session.through emitter { one with pending := none, state := .idle }) = _ := waited'
      have resting : ({ one.through emitter with pending := none, state := .idle } : Session β ζ) =
          Session.through emitter { one with pending := none, state := .idle } := rfl
      simp only [resting, collected, collected']
      rcases result with err | outcome
      · exact .intro (.intro level (by simp) unhurt)
      · exact .intro (.intro level (by simp) unhurt)
    · exact .intro (.intro emitters (by simp) unhurt)

theorem Level.check (level : Level wear one other) : Trails wear one.check other.check := by
  simp only [Session.check]
  refine level.submitCheck.elim ?_ ?_
  · intro result _ _ level
    rcases result with err | ⟨⟩
    · exact .level level
    · exact .of_agree level.awaitOutcome
  · intro _ _ result _ other apart
    rcases result with err | ⟨⟩
    · exact .apart apart
    · exact apart.trails (other.emitter_awaitOutcome ▸ apart.emitters)

omit [Backend β] in
theorem Level.fetchExternalModel (level : Level wear one other) :
    Trails wear one.fetchExternalModel other.fetchExternalModel := by
  simp only [Session.fetchExternalModel]
  refine (level.sendQuery .getModel (by simp)).elim ?_ ?_
  · intro result asked _ level
    rcases result with err | ticket
    · exact .level level
    · obtain @⟨emitter, emitters, sound, unhurt⟩ := level
      -- The wait is named on both sides: nothing here depends on how it goes on.
      obtain ⟨result, after, same, waited, waited'⟩ := asked.context.wait_through ticket
        asked.config.checkTimeout asked.config.heartbeat emitter
      have second : (asked.through emitter).context.wait ticket
          (asked.through emitter).config.checkTimeout (asked.through emitter).config.heartbeat =
        (result, after.through emitter) := waited'
      simp only [waited, second]
      exact .level (.intro (same ▸ emitters) sound unhurt)
  · intro _ _ result _ _ apart
    rcases result with err | ticket <;> exact apart.trails apart.emitters

theorem Level.fetchModel (level : Level wear one other) :
    Trails wear one.fetchModel other.fetchModel := by
  have same : other.mode = one.mode ∧ other.backend = one.backend := by
    obtain ⟨_⟩ := level
    exact ⟨rfl, rfl⟩
  simp only [Session.fetchModel, same]
  rcases one.mode with _ | _
  · obtain ⟨emitters, sound, unhurt⟩ := level
    rcases one.backend with _ | backend <;> exact .level (.intro emitters sound unhurt)
  · exact level.fetchExternalModel

theorem Level.model (level : Level wear one other) : Trails wear one.model other.model := by
  have same : other.ensureIdle = one.ensureIdle ∧ other.hasFreshSat = one.hasFreshSat ∧
      other.generation = one.generation ∧ other.visibleSorts = one.visibleSorts := by
    obtain ⟨_⟩ := level
    exact ⟨rfl, rfl, rfl, rfl⟩
  simp only [Session.model, same]
  rcases one.ensureIdle with err | ⟨⟩
  · exact .level level
  · simp only
    split
    · exact level.fetchModel.map _
    · exact .level level

theorem Level.getModel (level : Level wear one other) :
    Trails wear one.getModel other.getModel := by
  simp only [Session.getModel]
  refine level.check.elim ?_ ?_
  · intro result _ _ level
    rcases result with err | outcome
    · exact .level level
    · simp only
      split
      · exact level.model.map _
      · exact .level level
  · intro _ _ result _ other apart
    rcases result with err | outcome
    · exact .apart apart
    · simp only
      split
      · refine apart.trails ?_
        rcases other.emitter_model with same | sent
        · exact same ▸ apart.emitters
        · exact sent ▸ wear.sendOther apart.emitters .getModel
      · exact .apart apart

/-- The first session is past the loss of a command: it is faulted by it, or has ended. -/
structure Past (wear : Attrition ε ζ) (command : Command) (reason : SolverError)
    (one : Session β ε) (other : Session β ζ) : Prop where
  emitters : wear.behind command reason one.context.emitter other.context.emitter
  state : one.state = .faulted ∧ command ≠ .exit ∨ one.state = .destroyed
  fault : one.fault = if command = .exit then none else some (deliveryFault command reason)

variable {command : Command} {reason : SolverError}

omit [Backend β] in
theorem Apart.past (apart : Apart wear command reason one other) :
    Past wear command reason one other where
  emitters := apart.emitters
  state := .inl ⟨apart.faulted, apart.goesOn⟩
  fault := by rw [apart.fault, if_neg apart.goesOn]

/-- What two computations have come to: the same on both sides, or a loss on the first. -/
def Keeps {α : Type} (wear : Attrition ε ζ) (first : α × Session β ε) (second : α × Session β ζ) :
    Prop :=
  Agree (Level wear) first second ∨ ∃ command reason, Past wear command reason first.2 second.2

omit [Backend β] in
theorem Trails.keeps {α : Type} {first : Except SolverError α × Session β ε}
    {second : Except SolverError α × Session β ζ} (trails : Trails wear first second) :
    Keeps wear first second := by
  cases trails with
  | level same => exact .inl (.intro same)
  | apart lost => exact .inr ⟨_, _, lost.past⟩

omit [Backend β] in
/-- The last command ends both sessions, lost or not. -/
theorem Level.destroy (level : Level wear one other) :
    Keeps wear one.destroy other.destroy := by
  obtain @⟨emitter, emitters, sound, unhurt⟩ := level
  have same : (one.through emitter).state = one.state := rfl
  simp only [Session.destroy, same]
  split
  · exact .inl (.intro (.intro emitters sound unhurt))
  · rcases wear.send emitters .exit with
      ⟨signals, next, next', sent, sent', emitters⟩ |
      ⟨reason, next, signals, next', sent, sent', emitters⟩
    · simp only [sendExit, Context.send, through, Context.through, sent, sent']
      exact .inl (.intro (.intro emitters (by simp) unhurt))
    · simp only [sendExit, Context.send, through, Context.through, sent, sent']
      exact .inr ⟨.exit, reason, emitters, .inr rfl, unhurt⟩

theorem Level.call (level : Level wear one other) (call : Call) :
    Keeps wear (one.call call) (other.call call) := by
  cases call with
  | apply operation => exact ((level.apply operation).map _).keeps
  | submitCheck => exact (level.submitCheck.map _).keeps
  | awaitOutcome => exact ((Trails.of_agree level.awaitOutcome).map _).keeps
  | check => exact (level.check.map _).keeps
  | model => exact (level.model.map _).keeps
  | getModel => exact (level.getModel.map _).keeps
  | destroy =>
    simp only [Session.call]
    rcases level.destroy with agree | past
    · exact agree.elim fun result _ _ level => .inl (.intro level)
    · exact .inr past

theorem Level.step (level : Level wear one other) (step : Step) :
    Keeps wear (one.step step) (other.step step) := by
  cases step with
  | call call =>
    simp only [Session.step]
    rcases level.call call with agree | past
    · exact agree.elim fun result _ _ level => .inl (.intro level)
    · exact .inr past
  | signal _ | expect _ | settle =>
    obtain ⟨emitters, sound, unhurt⟩ := level
    exact .inl (.intro (.intro emitters sound unhurt))

omit [Emitter ζ] in
theorem call_destroyed (ended : one.state = .destroyed) (call : Call) :
    (one.call call).2 = one := by
  have busy : one.ensureIdle = .error .destroyedSessionUse := by simp only [ensureIdle, ended]
  cases call with
  | awaitOutcome => simp only [Session.call, Session.awaitOutcome, ended, ↓reduceIte]
  | destroy => simp only [Session.call, Session.destroy, ended, ↓reduceIte]
  | apply _ | submitCheck | check | model | getModel => rw [call_busy busy rfl]

theorem Past.call (past : Past wear command reason one other) (coherent : one.Coherent)
    (call : Call) : Past wear command reason (one.call call).2 (other.call call).2 := by
  -- The second session may do anything, the first one only send its last command.
  have goesOn : wear.behind command reason one.context.emitter
      (other.call call).2.context.emitter :=
    call_keeps_emitter (P := wear.behind command reason one.context.emitter)
      (fun next _ apart => wear.sendOther apart next) past.emitters call
  rcases past.state with ⟨faulted, notLast⟩ | ended
  · by_cases last : call = .destroy
    · subst last
      rcases one.destroy_cases with ⟨ended, _⟩ | ⟨_, context, called, sent, _⟩
      · rw [faulted] at ended
        cases ended
      · have emitter : context.emitter = (Emitter.send .exit one.context.emitter).2 :=
          sent.trans (one.context.emitter_send .exit)
        simp only [Session.call, called] at goesOn ⊢
        exact ⟨emitter ▸ wear.sendOne goesOn .exit, .inr rfl, past.fault⟩
    · rw [(call_faulted coherent faulted last).1]
      exact { past with emitters := goesOn }
  · rw [call_destroyed ended]
    exact { past with emitters := goesOn }

theorem Past.step (past : Past wear command reason one other) (coherent : one.Coherent)
    (step : Step) : Past wear command reason (one.step step).2 (other.step step).2 := by
  cases step with
  | call call => exact past.call coherent call
  | signal _ | expect _ | settle => exact ⟨past.emitters, past.state, past.fault⟩

theorem Past.run (past : Past wear command reason one other) (coherent : one.Coherent)
    (steps : List Step) : Past wear command reason (one.run steps).2 (other.run steps).2 := by
  induction steps generalizing one other with
  | nil => exact past
  | cons step rest ih => exact ih (past.step coherent step) (step_coherent coherent step)

/-- Two runs do the same until a command is lost to the first one, which is past it from then on. -/
theorem Level.run (level : Level wear one other) (coherent : one.Coherent) (steps : List Step) :
    Keeps wear (one.run steps) (other.run steps) := by
  -- `Level` carries the induction up to the step in which a command is lost, `Past` the rest.
  induction steps generalizing one other with
  | nil => exact .inl (.intro level)
  | cons step rest ih =>
    have next : (one.step step).2.Coherent := step_coherent coherent step
    simp only [Session.run]
    rcases level.step step with agree | ⟨command, reason, past⟩
    · revert next
      refine agree.elim fun result one other level coherent => ?_
      rcases ih level coherent with agree | past
      · exact agree.elim fun _ _ _ level => .inl (.intro level)
      · exact .inr past
    · exact .inr ⟨command, reason, past.run next rest⟩

omit [Emitter ε] [Emitter ζ] in
theorem startOn_through {config : SessionConfig} {backend : β} {context : Context ε}
    (started : startOn config backend context = .ok one) (emitter : ζ) :
    startOn config backend (context.through emitter) = .ok (one.through emitter) := by
  have noted (notices : List Notice) (context : Context ε) :
      notices.foldl (fun context notice => context.note notice) (context.through emitter) =
        (notices.foldl (fun context notice => context.note notice) context).through emitter := by
    induction notices generalizing context with
    | nil => rfl
    | cons notice rest ih => exact ih (context.note notice)
  rcases resolved : config.resolveOptions with ⟨err | options, notices⟩
  · simp only [startOn, resolved, reduceCtorEq] at started
  · rcases applied : Backend.configure options backend with ⟨err | ⟨⟩, configured⟩
    · simp only [startOn, resolved, applied, reduceCtorEq] at started
    · simp only [startOn, resolved, applied, noted, Except.ok.injEq] at started ⊢
      rw [← started]
      rfl

end Session

end SmtSession

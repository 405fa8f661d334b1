import SmtSession.Proofs.Collection

namespace SmtSession.Session

variable {β ε : Type} [Backend β] [Emitter ε] {session : Session β ε}

def shownBy {α : Type} (shown : Session β ε → Call → List α) (session : Session β ε) :
    Step → List α
  | .call call => shown session call
  | .signal _ | .expect _ | .settle => []

def gather {α : Type} (shown : Session β ε → Call → List α) (session : Session β ε) :
    List Step → List α
  | [] => []
  | step :: rest => session.shownBy shown step ++ (session.step step).2.gather shown rest

theorem WellKept.step (kept : session.WellKept) (step : Step) :
    (session.step step).2.WellKept := by
  refine ⟨step_coherent kept.toCoherent step, ?_⟩
  cases step with
  | call call =>
    have level : session.frames.depth = session.depth := by simpa using kept.frames
    rw [Frames.length_toList]
    exact congrArg (· + 1) (call_frames level call)
  | signal _ | expect _ | settle => exact kept.frames

theorem WellKept.run (kept : session.WellKept) (steps : List Step) :
    (session.run steps).2.WellKept := by
  induction steps generalizing session with
  | nil => exact kept
  | cons step rest ih => exact ih (kept.step step)

theorem EndsWith.run {before : List Command} (coherent : session.Coherent)
    (ends : session.EndsWith before) (steps : List Step) :
    (session.run steps).2.EndsWith (before ++ session.gather handed steps) := by
  induction steps generalizing session before with
  | nil => rwa [gather, List.append_nil]
  | cons step rest ih =>
    have now : (session.step step).2.EndsWith (before ++ session.shownBy handed step) := by
      cases step with
      | call call => exact ends.call coherent call
      | signal _ | expect _ | settle =>
        rw [shownBy, List.append_nil]
        exact ends
    rw [gather, ← List.append_assoc]
    exact ih (step_coherent coherent step) now

theorem Checked.run {earlier done : List Nat} (coherent : session.Coherent)
    (checked : session.Checked earlier done) (steps : List Step) :
    (session.run steps).2.Checked (earlier ++ session.gather submitted steps)
      (done ++ session.gather collected steps) := by
  induction steps generalizing session earlier done with
  | nil =>
    rw [gather, gather, List.append_nil, List.append_nil]
    exact checked
  | cons step rest ih =>
    have now : (session.step step).2.Checked (earlier ++ session.shownBy submitted step)
        (done ++ session.shownBy collected step) := by
      have around {after : Session β ε} (state : after.state = session.state)
          (pending : after.pending = session.pending)
          (issued : after.context.exchange.issued = session.context.exchange.issued) :
          after.Checked (earlier ++ []) (done ++ []) := by
        rw [List.append_nil, List.append_nil]
        exact checked.keep (fun live => ⟨state ▸ live, pending⟩) (Nat.le_of_eq issued.symm)
      cases step with
      | call call => exact checked.call coherent call
      | signal signal => exact around rfl rfl (Exchange.issued_receive ..)
      | expect _ => exact around rfl rfl rfl
      | settle => exact around rfl rfl (Exchange.issued_receiveAll ..)
    simp only [gather, ← List.append_assoc]
    exact ih (step_coherent coherent step) now

/-- From a fault on, all that is handed over is the last command, at the end of the session. -/
theorem gather_faulted (coherent : session.Coherent)
    (broken : session.state = .faulted ∨ session.state = .destroyed) (steps : List Step) :
    ∀ command ∈ session.gather handed steps, command = .exit := by
  induction steps generalizing session with
  | nil => nofun
  | cons step rest ih =>
    have stays : (session.step step).2.state = .faulted ∨
        (session.step step).2.state = .destroyed := by
      have moved := step_busy coherent (by rcases broken with state | state <;> simp [state]) step
      rw [moved]
      rcases broken with state | state <;> rw [state, SessionState.after.eq_def] <;> split <;> simp
    intro command member
    rcases List.mem_append.mp member with now | later
    · cases step with
      | call call =>
        rcases broken with faulted | ended
        · simp only [shownBy, handed_faulted faulted] at now
          split at now
          · exact List.mem_singleton.mp now
          · cases now
        · simp only [shownBy, handed_destroyed ended] at now
          cases now
      | signal _ | expect _ | settle => cases now
    · exact ih (step_coherent coherent step) stays command later

/-- The life of a session, after any steps. -/
structure Lifecycle (session : Session β ε) (steps : List Step) : Prop where
  /-- A check is pending just while its outcome is awaited, the backend is there until the session
  is destroyed, and there is a frame for each level. -/
  kept : (session.run steps).2.WellKept
  /-- What is awaited can be collected; everything else that is not idle waits for its end. -/
  moves : (session.run steps).2.state ≠ .idle → ∀ step,
    ((session.run steps).2.step step).2.state = (session.run steps).2.state.after step
  /-- The last command is handed over by the transition that ends the session. -/
  exits : ∀ call, .exit ∈ (session.run steps).2.handed call ↔
    (session.run steps).2.state ≠ .destroyed ∧
      ((session.run steps).2.call call).2.state = .destroyed
  /-- It is handed over once, and nothing after it. -/
  last : (session.run steps).2.EndsWith (session.gather handed steps)
  /-- A session that is dropped has been destroyed in the end. -/
  dropped : (session.run (steps ++ [.call .destroy])).2 = (session.run steps).2.drop ∧
    ∃ others, .exit ∉ others ∧
      session.gather handed (steps ++ [.call .destroy]) = others ++ [.exit]
  /-- From a fault on nothing else is handed over. -/
  faulted : ∀ before after, steps = before ++ after →
    (session.run before).2.state = .faulted →
    (session.run before).2.gather handed after =
      if (session.run steps).2.state = .destroyed then [.exit] else []
  /-- An outcome is given out only by collecting a check. -/
  outcomes : ∀ call outcome, ((session.run steps).2.call call).1 = .ok (.outcome outcome) →
    ∃ ticket, (session.run steps).2.collected call = [ticket]
  /-- Each check is collected once at most, in the order of submission. -/
  checks : (session.run steps).2.Checked (session.gather submitted steps)
    (session.gather collected steps)

omit [Emitter ε] in
theorem startOn_wellKept {config : SessionConfig} {backend : β} {context : Context ε}
    (started : startOn config backend context = .ok session) :
    session.WellKept ∧ session.EndsWith [] ∧ session.Checked [] [] := by
  have coherent := (startOn_coherent started).1
  obtain ⟨_, _, _, _, rfl⟩ := startOn_ok started
  refine ⟨⟨coherent, rfl⟩, ⟨[], List.not_mem_nil, rfl⟩, ⟨⟨[], rfl, Nat.zero_le 1, ?_⟩, .nil, nofun⟩⟩
  intro _
  rfl

/-- Whatever the backend, the replies and the emitter do, a session keeps its records in line with
its state, leaves a state only as the state allows, says goodbye exactly once and as the last thing,
and gives out the outcome of a check once at most. -/
theorem lifecycle {config : SessionConfig} {backend : β} {context : Context ε}
    (started : startOn config backend context = .ok session) (steps : List Step) :
    session.Lifecycle steps := by
  obtain ⟨kept, silent, unchecked⟩ := startOn_wellKept started
  have reached (steps : List Step) : (session.run steps).2.Coherent :=
    run_coherent kept.toCoherent steps
  have last (steps : List Step) : (session.run steps).2.EndsWith (session.gather handed steps) :=
    silent.run kept.toCoherent steps
  have dropped : (session.run (steps ++ [.call .destroy])).2 = (session.run steps).2.drop := by
    rw [run_append]
    rfl
  constructor
  case kept => exact kept.run steps
  case moves => exact fun busy step => step_busy (reached steps) busy step
  case exits => exact exit_mem_handed
  case last => exact last steps
  case dropped =>
    have ended : (session.run (steps ++ [.call .destroy])).2.state = .destroyed := by
      rw [dropped, drop, destroy]
      split
      · assumption
      · rfl
    exact ⟨dropped, (last _).of_destroyed ended⟩
  case faulted =>
    rintro before after rfl faulted
    have here : (session.run before).2.EndsWith [] :=
      ⟨[], List.not_mem_nil, by simp [faulted]⟩
    have ends := here.run (reached before) after
    rw [List.nil_append] at ends
    rw [run_append]
    exact ends.of_only (gather_faulted (reached before) (.inl faulted) after)
  case outcomes => exact fun _ _ given => collected_of_outcome given
  case checks => exact unchecked.run kept.toCoherent steps

/-- A session whose emitter has room for one check: the frame that is opened after it faults the
session, and the last command is lost as well. -/
theorem cramped_lifecycle :
    startOn { quick with mode := .native } ({} : Shadow)
        ⟨({ room := some 12 } : Stream), {}, .channel⟩ = .ok cramped ∧
      cramped.Lifecycle [.call .check, .call (.apply .push), .call .awaitOutcome, .call .destroy] ∧
      cramped.gather handed
          [.call .check, .call (.apply .push), .call .awaitOutcome, .call .destroy] =
        [.checkSat, .push 1, .exit] ∧
      cramped.gather collected [.call .check, .call (.apply .push)] = [0] := by
  have started : startOn { quick with mode := .native } ({} : Shadow)
      ⟨({ room := some 12 } : Stream), {}, .channel⟩ = .ok cramped := rfl
  exact ⟨started, lifecycle started _, by decide +kernel, by decide +kernel⟩

end SmtSession.Session

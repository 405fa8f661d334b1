import SmtSession.Proofs.Attrition
import SmtSession.Proofs.StreamBudget

namespace SmtSession

namespace Stream

variable {limit : Nat} {message : String} {commands : List Command} {command : Command}

/-- A command is the first of some commands that there is no room for. -/
def FirstUnfit (limit : Nat) (commands : List Command) (command : Command) : Prop :=
  ∃ before after, commands = before ++ command :: after ∧ byteCount (lines before) ≤ limit ∧
    limit < byteCount (lines (before ++ [command]))

theorem FirstUnfit.append (unfit : FirstUnfit limit commands command) (more : List Command) :
    FirstUnfit limit (commands ++ more) command := by
  obtain ⟨before, after, rfl, fits, full⟩ := unfit
  exact ⟨before, after ++ more, by rw [List.append_assoc, List.cons_append], fits, full⟩

theorem FirstUnfit.full (unfit : FirstUnfit limit commands command) :
    limit < byteCount (lines commands) := by
  obtain ⟨before, after, rfl, _, full⟩ := unfit
  rw [List.append_cons, lines, List.flatMap_append, byteCount_append]
  exact Nat.lt_add_right _ full

/-- The stream has lost a command for which there was no room, and holds what it can of the commands
of the transcript. -/
structure Behind (limit : Nat) (message : String) (command : Command) (reason : SolverError)
    (stream : Stream) (transcript : Transcript) : Prop where
  reason : reason = writeError message
  unfit : FirstUnfit limit transcript.commands command
  holds : Holds limit (lines transcript.commands) stream

/-- A stream with a limit beside a transcript of the same commands. -/
def attrition (limit : Nat) (message : String) : Attrition Stream Transcript where
  level stream transcript := Carries limit message transcript.commands stream ∧
    byteCount (lines transcript.commands) ≤ limit
  behind := Behind limit message
  send := by
    rintro stream transcript ⟨carries, before⟩ command
    obtain ⟨next, result⟩ := carries.send command
    by_cases fits : byteCount (lines (transcript.commands ++ [command])) ≤ limit
    · rw [arrival, if_pos fits] at result
      exact .inl ⟨[], _, transcript.record command, Prod.ext result rfl, rfl, next, fits⟩
    · rw [arrival, if_neg fits] at result
      exact .inr ⟨writeError message, _, [], transcript.record command, Prod.ext result rfl, rfl,
        rfl, ⟨transcript.commands, [], rfl, before, Nat.not_le.mp fits⟩, next.toHolds⟩
  sendOne := by
    rintro command reason stream transcript ⟨reason, unfit, holds⟩ next
    have written : Holds limit (lines transcript.commands ++ line next)
      (Emitter.send next stream).2 := (holds.write (line next)).1
    exact ⟨reason, unfit, (holds_append_iff unfit.full (line next)).mp written⟩
  sendOther := by
    rintro command reason stream transcript ⟨reason, unfit, holds⟩ next
    have more : Holds limit (lines (transcript.commands ++ [next])) stream :=
      lines_concat transcript.commands next ▸ (holds_append_iff unfit.full (line next)).mpr holds
    exact ⟨reason, unfit.append [next], more⟩

end Stream

namespace Session

variable {β ε : Type} [Backend β] [Emitter ε] {session : Session β ε}

theorem run_destroyed_iff (coherent : session.Coherent) (steps : List Step) :
    (session.run steps).2.state = .destroyed ↔
      session.state = .destroyed ∨ .destroy ∈ Step.calls steps := by
  induction steps generalizing session with
  | nil => simp [Session.run, Step.calls]
  | cons step rest ih =>
    have later : (session.run (step :: rest)).2 = ((session.step step).2.run rest).2 := rfl
    rw [later, ih (step_coherent coherent step)]
    cases step with
    | signal _ | expect _ | settle => rfl
    | call call =>
      have ended : (session.call call).2.state = .destroyed ↔
          session.state = .destroyed ∨ .destroy = call := by
        by_cases last : call = .destroy
        · subst last
          rcases session.destroy_cases with ⟨ended, called, _⟩ | ⟨_, _, called, _⟩ <;>
            simp [Session.call, called]
          exact ended
        · by_cases ended : session.state = .destroyed
          · simp [call_destroyed ended, ended]
          · simp [call_live last ended, ended, Ne.symm last]
      simp only [Session.step, Step.calls, List.filterMap_cons, Step.call?, List.mem_cons]
      rw [ended, or_assoc]

/-- A run over a stream with a limit, measured by the run over a transcript. -/
structure Contained (limit : Nat) (message : String) (steps : List Step)
    (run : List (Except SolverError Answer) × Session β Stream)
    (recorded : List (Except SolverError Answer) × Session β Transcript) : Prop where
  /-- Whatever happens, the stream holds the first bytes of the lines of the transcript. -/
  bytes : run.2.context.emitter.bytes =
    (Stream.encode (Stream.lines recorded.2.context.emitter.commands)).take limit
  /-- As long as these fit, nothing tells the two runs apart, and the stream holds all of them. -/
  within : Stream.byteCount (Stream.lines recorded.2.context.emitter.commands) ≤ limit →
    run.1 = recorded.1 ∧ recorded.2 = run.2.through recorded.2.context.emitter ∧
      run.2.fault = none ∧
      run.2.context.emitter.written = Stream.lines recorded.2.context.emitter.commands
  /-- Otherwise the fault is that of the first command that does not fit, which is none if that is
  the last command of the session. -/
  beyond : limit < Stream.byteCount (Stream.lines recorded.2.context.emitter.commands) →
    ∃ command, Stream.FirstUnfit limit recorded.2.context.emitter.commands command ∧
      run.2.fault = if command = .exit then none
        else some (deliveryFault command (Stream.writeError message))
  /-- From that command on the session is faulted, until it ends. -/
  faulted : run.2.state = .faulted ↔
    limit < Stream.byteCount (Stream.lines recorded.2.context.emitter.commands) ∧
      .destroy ∉ Step.calls steps
  /-- It ends as any session does. -/
  destroyed : run.2.state = .destroyed ↔ .destroy ∈ Step.calls steps

/-- What is written to a stream with a limit is held up to the limit, in whatever pieces the lines
are written, and a command arrives exactly if all lines up to its own fit. A session over such a
stream does what it does over a transcript until a command does not fit. That command faults it,
unless it is the last one. -/
theorem faults_contained (limit : Nat) (message : String) :
    let start : Stream := { room := some limit, fault := message }
    (∀ commands,
      (start.sendAll commands).bytes =
        (Stream.encode (Stream.lines commands)).take limit ∧
      Emitter.handOver commands start = commands.mapIdx fun moment command =>
        ⟨command,
          if Stream.byteCount (Stream.lines (commands.take (moment + 1))) ≤ limit then .ok ()
          else .error (Stream.writeError message)⟩) ∧
    (∀ command pieces (stream : Stream), pieces.flatten = Stream.line command →
      stream.writePieces pieces = stream.write (Stream.line command)) ∧
    ∀ {β : Type} [Backend β] {config : SessionConfig} {backend : β} {exchange : Exchange}
      {origin : Origin} {session : Session β Stream},
      startOn config backend ⟨start, exchange, origin⟩ = .ok session →
      ∃ recorded, startOn config backend ⟨({} : Transcript), exchange, origin⟩ = .ok recorded ∧
        ∀ steps, Contained limit message steps (session.run steps) (recorded.run steps) := by
  intro start
  have empty : Stream.Carries limit message [] start := Stream.carries_empty limit message
  refine ⟨fun commands => ⟨?_, ?_⟩, ?_, ?_⟩
  · exact (empty.sendAll commands).bytes
  · exact empty.handOver commands
  · intro command pieces stream whole
    rw [Stream.writePieces_eq, whole]
  · intro β _ config backend exchange origin session started
    have level : Level (Stream.attrition limit message) session
        (session.through ({} : Transcript)) := by
      obtain ⟨_, _, _, _, rfl⟩ := startOn_ok started
      exact .intro ⟨empty, Nat.zero_le limit⟩ nofun rfl
    have coherent := (startOn_coherent started).1
    have alive : session.state ≠ .destroyed := by
      obtain ⟨_, _, _, _, rfl⟩ := startOn_ok started
      nofun
    refine ⟨session.through ({} : Transcript), startOn_through started ({} : Transcript),
      fun steps => ?_⟩
    have destroyed : (session.run steps).2.state = .destroyed ↔ .destroy ∈ Step.calls steps := by
      rw [run_destroyed_iff coherent, or_iff_right alive]
    rcases level.run coherent steps with agree | ⟨command, reason, past⟩
    · revert destroyed
      refine agree.elim fun results run recorded level destroyed => ?_
      obtain @⟨transcript, ⟨carries, fits⟩, sound, unhurt⟩ := level
      have notFull : ¬ limit < Stream.byteCount (Stream.lines transcript.commands) :=
        Nat.not_lt.mpr fits
      exact {
        bytes := carries.bytes
        within _ := ⟨rfl, rfl, unhurt, (carries.whole fits).1⟩
        beyond full := absurd full notFull
        faulted := iff_of_false sound fun ⟨full, _⟩ => notFull full
        destroyed }
    · obtain ⟨rfl, unfit, holds⟩ := past.emitters
      have full := unfit.full
      refine ⟨holds.bytes, fun fits => absurd fits (Nat.not_le.mpr full),
        fun _ => ⟨command, unfit, past.fault⟩, ?_, destroyed⟩
      rw [← destroyed, and_iff_right full]
      rcases past.state with ⟨faulted, _⟩ | ended
      · simp [faulted]
      · simp [ended]

/-- The stream has room for the check and for three bytes of the next line, which is written in
pieces. That line is cut, and faults the session. -/
theorem cramped_contained :
    let start : Stream := { room := some 15 }
    let native : SessionConfig := { quick with mode := .native }
    let steps : List Step := [.call .check, .call (.apply .push)]
    let pieces : List (List Char) := ["(push ".toList, "1".toList, ")".toList, ['\n']]
    ∃ session, startOn native ({} : Shadow) ⟨start, {}, .channel⟩ = .ok session ∧
      pieces.flatten = Stream.line (.push 1) ∧
      start.writePieces pieces = start.write (Stream.line (.push 1)) ∧
      (∃ recorded, startOn native ({} : Shadow) ⟨({} : Transcript), {}, .channel⟩ = .ok recorded ∧
        Contained 15 "" steps (session.run steps) (recorded.run steps)) ∧
      (session.run steps).2.state = .faulted ∧
      (session.run steps).2.context.emitter.bytes = "(check-sat)\n(pu".toList.map Char.toUInt8 := by
  intro start native steps pieces
  have whole : pieces.flatten = Stream.line (.push 1) := by decide +kernel
  obtain ⟨_, inPieces, sessions⟩ := faults_contained 15 ""
  rcases started : startOn native ({} : Shadow) ⟨start, {}, .channel⟩ with _ | session
  · cases started
  · obtain ⟨recorded, started', contained⟩ := sessions started
    refine ⟨session, rfl, whole, inPieces _ _ start whole,
      ⟨recorded, started', contained steps⟩, ?_⟩
    obtain rfl := Except.ok.inj started
    exact ⟨by decide +kernel, by decide +kernel⟩

end Session

end SmtSession

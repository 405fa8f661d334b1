import SmtSession.Proofs.Waiting

/-! Stamping: in a run of uses that waits for ever later tickets, a ticket names the reply with that
many replies before it. The invariant is that the exchange follows the ledger of what happened to it,
with all replies below the last ticket waited for gone from the queue at most. -/
namespace SmtSession

namespace Exchange

/-- The ticket that a use waits for. -/
def Use.awaited? : Use → Option Nat
  | .await ticket _ _ _ => some ticket
  | .ask _ | .hear _ | .expect _ | .settle => none

/-- What happens in a use. -/
def storyOf (x : Exchange) : Use → List Event
  | .ask query => [.asked x.issued query]
  | .hear signal => [.heard signal]
  | .expect _ => []
  | .settle => (x.coming.map Arrival.signal).map .heard
  | .await ticket query timeout heartbeat =>
    let (result, after) := x.wait ticket timeout heartbeat
    (x.heardSince after).map .heard ++ [.ended ticket query result]

def story (x : Exchange) : List Use → List Event
  | [] => []
  | next :: rest => x.storyOf next ++ (x.use next).story rest

theorem story_append (x : Exchange) (first second : List Use) :
    x.story (first ++ second) = x.story first ++ (x.useAll first).story second := by
  induction first generalizing x with
  | nil => rfl
  | cons next rest ih =>
    rw [List.cons_append, story, ih, story, List.append_assoc]
    rfl

theorem story_single (x : Exchange) (next : Use) : x.story [next] = x.storyOf next :=
  List.append_nil _

namespace Follows

variable {ledger : Ledger} {floor : Nat} {x : Exchange}

theorem fresh : ({} : Exchange).Follows {} 0 :=
  ⟨rfl, rfl, rfl, nofun, 0, Nat.le_refl _, Nat.le_refl _, rfl⟩

theorem wait_entered {ticket : Nat} (follows : x.Follows ledger ticket) (query : Command)
    (timeout heartbeat : Duration) :
    (x.use (.await ticket query timeout heartbeat)).Follows
      (ledger.enterAll (x.storyOf (.await ticket query timeout heartbeat))) (ticket + 1) := by
  obtain ⟨settled, _⟩ := follows.wait (Prod.eta (x.wait ticket timeout heartbeat)).symm
  simp only [storyOf, Ledger.enterAll_append]
  exact settled.ended (Nat.le_refl _) query (x.wait ticket timeout heartbeat).1

/-- A use keeps the exchange in step with the ledger, for every ticket that may be waited for next. -/
theorem use {later : Nat} (follows : x.Follows ledger floor) (next : Use)
    (ordered : ∀ ticket ∈ next.awaited?, floor ≤ ticket ∧ ticket < later) (bound : floor ≤ later) :
    (x.use next).Follows (ledger.enterAll (x.storyOf next)) later := by
  cases next with
  | ask query => exact (follows.issueTicket x.issued query).mono bound
  | hear signal => exact (follows.receive signal).mono bound
  | expect arrivals =>
    have same : (x.expect arrivals).Follows ledger floor := follows.transfer rfl rfl rfl rfl
    exact same.mono bound
  | settle =>
    have emptied : Exchange.Follows ledger floor { x with coming := [] } :=
      follows.transfer rfl rfl rfl rfl
    exact (emptied.receiveAll (x.coming.map Arrival.signal)).mono bound
  | await ticket query timeout heartbeat =>
    obtain ⟨early, earlier⟩ := ordered ticket rfl
    exact ((follows.mono early).wait_entered query timeout heartbeat).mono earlier

theorem useAll {uses : List Use} {later : Nat} (follows : x.Follows ledger floor)
    (increasing : (uses.filterMap Use.awaited?).Pairwise (· < ·))
    (ordered : ∀ ticket ∈ uses.filterMap Use.awaited?, floor ≤ ticket ∧ ticket < later)
    (bound : floor ≤ later) :
    (x.useAll uses).Follows (ledger.enterAll (x.story uses)) later := by
  induction uses generalizing x ledger floor with
  | nil => exact follows.mono bound
  | cons next rest ih =>
    rw [story, Ledger.enterAll_append]
    cases waited : next.awaited? with
    | none =>
      rw [List.filterMap_cons_none waited] at increasing ordered
      have step : (x.use next).Follows (ledger.enterAll (x.storyOf next)) floor :=
        follows.use next (by simp [waited]) (Nat.le_refl _)
      exact ih step increasing ordered bound
    | some ticket =>
      rw [List.filterMap_cons_some waited] at increasing ordered
      obtain ⟨lowest, others⟩ := List.pairwise_cons.mp increasing
      obtain ⟨⟨early, inside⟩, rest⟩ := List.forall_mem_cons.mp ordered
      have step : (x.use next).Follows (ledger.enterAll (x.storyOf next)) (ticket + 1) :=
        follows.use next (by simp [waited, early]) (Nat.le_succ_of_le early)
      exact ih step others (fun other member => ⟨lowest other member, (rest other member).2⟩) inside

/-- An envelope that ends a wait is the reply to its own query, or no reply, and gives no reason to
warn. -/
theorem decisive_seen {ticket : Nat} {discarded rest : List Envelope} {decisive : Option Envelope}
    (follows : x.Follows ledger ticket) (queue : x.queue = discarded ++ decisive.toList ++ rest)
    (foreign : ∀ envelope ∈ discarded, envelope.decides ticket = false)
    (decides : ∀ envelope ∈ decisive, envelope.decides ticket = true) :
    (∀ got reply, .reply got reply ∈ decisive → got = ticket) ∧
      decisive.elim [] (Envelope.warnings ticket) = [] := by
  have others : ∀ envelope ∈ discarded, envelope.isForeign ticket = true := by
    intro envelope member
    rw [Envelope.isForeign_eq, foreign envelope member]
    rfl
  cases decisive with
  | none => exact ⟨by simp, rfl⟩
  | some envelope =>
    have last := decides envelope rfl
    cases envelope with
    | reply got reply =>
      have own : got = ticket :=
        follows.decisive_own (by simpa using queue) others (of_decide_eq_true last)
      refine ⟨?_, if_pos own⟩
      intro other answer same
      cases same
      exact own
    | cancel got | closed => exact ⟨by simp, rfl⟩

/-- No reply that a wait takes from the queue has a ticket above the one waited for. -/
theorem wait_seen {ticket : Nat} (follows : x.Follows ledger ticket)
    (timeout heartbeat : Duration) :
    let after := (x.wait ticket timeout heartbeat).2
    let received := x.received ticket (x.heardSince after)
    (∃ taken, received.queue = taken ++ after.queue ∧
      ∀ got reply, .reply got reply ∈ taken → got ≤ ticket) ∧
    after.notices = received.notices := by
  intro after received
  cases gone : x.closed with
  | true =>
    have same : after = x := by simp only [after, Exchange.wait, gone, ↓reduceIte]
    have silent : x.heardSince after = [] := same ▸ heardSince_of_split rfl
    have still : received = { x with awaited := some ticket } := by
      simp only [received, silent]
      rfl
    refine ⟨⟨[], ?_, by simp⟩, ?_⟩
    · rw [still, same]
      rfl
    · rw [still, same]
  | false =>
    obtain ⟨discarded, decisive, queue, foreign, decides, _, notices⟩ :=
      wait_split gone ticket timeout heartbeat
    have ready : ({ x with awaited := some ticket } : Exchange).Follows ledger ticket :=
      follows.transfer rfl rfl rfl rfl
    have heard := ready.receiveAll (x.heardSince after)
    obtain ⟨own, silent⟩ := heard.decisive_seen queue foreign decides
    refine ⟨⟨discarded ++ decisive.toList, queue, ?_⟩, by rw [notices, silent, List.append_nil]⟩
    intro got reply member
    rcases List.mem_append.mp member with thrown | last
    · have below : decide (ticket ≤ got) = false := foreign _ thrown
      exact Nat.le_of_lt (Nat.lt_of_not_le (of_decide_eq_false below))
    · exact Nat.le_of_eq (own got reply (Option.mem_toList.mp last))

end Follows

/-- What a wait for a ticket sees and gives that comes after other uses of a fresh exchange. -/
structure WaitsInTurn (ticket : Nat) (query : Command) (timeout heartbeat : Duration)
    (before : List Use) : Prop where
  /-- Of all that was received, no reply that was taken from the queue has a higher ticket. -/
  seen :
    let x := ({} : Exchange).useAll before
    let after := (x.wait ticket timeout heartbeat).2
    ∃ taken, (x.received ticket (x.heardSince after)).queue = taken ++ after.queue ∧
      ∀ got reply, .reply got reply ∈ taken → got ≤ ticket
  /-- The wait has nothing to warn of. -/
  silent :
    let x := ({} : Exchange).useAll before
    let after := (x.wait ticket timeout heartbeat).2
    after.notices = (x.received ticket (x.heardSince after)).notices
  /-- A reply that the wait gives is the one with as many replies before it as the ticket says. -/
  own :
    let events := ({} : Exchange).story (before ++ [.await ticket query timeout heartbeat])
    ∀ reply, ((({} : Exchange).useAll before).wait ticket timeout heartbeat).1 = .reply reply →
      (Ledger.ofEvents events).replies[ticket]?.map Saying.reply = some reply

/-- In a run of uses that waits for ever later tickets, each wait is in turn, whatever arrives and
however the waits before it have ended. -/
theorem waits_in_turn {before after : List Use} {ticket : Nat} {query : Command}
    {timeout heartbeat : Duration}
    (increasing : ((before ++ .await ticket query timeout heartbeat :: after).filterMap
      Use.awaited?).Pairwise (· < ·)) :
    WaitsInTurn ticket query timeout heartbeat before := by
  rw [List.filterMap_append, List.pairwise_append] at increasing
  obtain ⟨sorted, _, ordered⟩ := increasing
  have follows : (({} : Exchange).useAll before).Follows
      (Ledger.ofEvents (({} : Exchange).story before)) ticket := by
    refine Follows.fresh.useAll sorted ?_ (Nat.zero_le _)
    intro earlier member
    exact ⟨Nat.zero_le _, ordered earlier member ticket (List.mem_cons_self ..)⟩
  obtain ⟨seen, silent⟩ := follows.wait_seen timeout heartbeat
  refine ⟨seen, silent, ?_⟩
  intro events reply given
  obtain ⟨_, own⟩ := follows.wait (Prod.eta (wait ticket timeout heartbeat _)).symm
  have ends : Ledger.ofEvents events = (Ledger.ofEvents (({} : Exchange).story before)).enterAll
      (storyOf (({} : Exchange).useAll before) (.await ticket query timeout heartbeat)) := by
    rw [← Ledger.ofEvents_append, ← story_single, ← story_append]
  rw [ends]
  simp only [storyOf, Ledger.enterAll_append]
  exact own reply given

/-- Uses before the wait for the third query: an error and a reply that nobody has asked for, a wait
that takes that reply, a wait that is cancelled, and an error and a reply that are still to come. -/
def unruly : List Use :=
  [.hear (.error "early"), .hear (.reply (.outcome .sat)), .ask .checkSat, .ask .checkSat,
    .expect [⟨2, .cancel⟩, ⟨9, .error "lost"⟩, ⟨1, .reply (.outcome .unsat)⟩, ⟨1, .hangUp⟩],
    .await 0 .checkSat ⟨0⟩ ⟨1⟩, .await 1 .checkSat ⟨5⟩ ⟨1⟩, .ask .checkSat]

/-- The third query gets the third reply that was given a ticket; the error behind the first is none
of them. -/
theorem unruly_in_turn :
    ((unruly ++ [Use.await 2 .checkSat ⟨10⟩ ⟨3⟩]).filterMap Use.awaited?).Pairwise (· < ·) ∧
      WaitsInTurn 2 .checkSat ⟨10⟩ ⟨3⟩ unruly ∧
      ((({} : Exchange).useAll unruly).wait 2 ⟨10⟩ ⟨3⟩).1 = .reply (.outcome .unsat) := by
  have increasing :
      ((unruly ++ [Use.await 2 .checkSat ⟨10⟩ ⟨3⟩]).filterMap Use.awaited?).Pairwise (· < ·) := by
    decide
  exact ⟨increasing, waits_in_turn increasing, by decide +kernel⟩

end Exchange

end SmtSession

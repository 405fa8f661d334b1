import SmtSession.Proofs.Results

/-! Alignment: when the responder answers each query at most once, in turn and after it was asked,
and says nothing else, every wait that ends with a reply ends with the reply to its own query. Waits
may be given up or cancelled at any time, and the responder may go away. -/
namespace SmtSession

/-- Whether replies are of the kinds that the first of the queries ask for, one by one. -/
def inTurn : List Command → List Reply → Bool
  | _, [] => true
  | [], _ :: _ => false
  | query :: queries, reply :: replies => reply.answers query && inTurn queries replies

/-- At every moment the replies so far answer the first of the queries so far, in turn. -/
def Faithful (history : List Event) : Prop :=
  ∀ moment,
    inTurn (Event.queries (history.take moment)) (Event.replies (history.take moment)) = true

instance (history : List Event) : Decidable (Faithful history) :=
  decidable_of_iff' (∀ moment < history.length + 1,
    inTurn (Event.queries (history.take moment)) (Event.replies (history.take moment)) = true)
    (forall_take_iff (fun now => inTurn (Event.queries now) (Event.replies now) = true) history)

theorem length_inTurn {queries : List Command} {replies : List Reply}
    (answered : inTurn queries replies = true) : replies.length ≤ queries.length := by
  fun_induction inTurn queries replies with
  | case1 => exact Nat.zero_le _
  | case2 => cases answered
  | case3 query queries reply replies ih =>
    exact Nat.succ_le_succ (ih (Bool.and_eq_true_iff.mp answered).2)

theorem answers_of_inTurn {queries : List Command} {replies : List Reply} {place : Nat}
    {query : Command} {reply : Reply} (answered : inTurn queries replies = true)
    (asked : queries[place]? = some query) (given : replies[place]? = some reply) :
    reply.answers query = true := by
  fun_induction inTurn queries replies generalizing place with
  | case1 => cases given
  | case2 => cases answered
  | case3 first queries other replies ih =>
    obtain ⟨fits, later⟩ := Bool.and_eq_true_iff.mp answered
    cases place with
    | zero =>
      obtain ⟨rfl, rfl⟩ := And.intro (Option.some.inj asked) (Option.some.inj given)
      exact fits
    | succ place => exact ih later asked given

theorem Faithful.before {before after : List Event} (faithful : Faithful (before ++ after)) :
    Faithful before := by
  intro moment
  have held := faithful (min moment before.length)
  rw [List.take_append_of_le_length (Nat.min_le_right ..)] at held
  rwa [← List.take_eq_take_min] at held

namespace Ledger

private theorem all_numbered (ledger : Ledger) (events : List Event)
    (all : ∀ saying ∈ ledger.sayings, saying.numbered = true)
    (enough : ∀ moment, (ledger.enterAll (events.take moment)).sayings.length ≤
      (ledger.enterAll (events.take moment)).queries.length) :
    ∀ saying ∈ (ledger.enterAll events).sayings, saying.numbered = true := by
  induction events generalizing ledger with
  | nil => exact all
  | cons event rest ih =>
    refine ih _ ?_ fun moment => enough (moment + 1)
    have counted : ledger.replies = ledger.sayings := List.filter_eq_self.mpr all
    have room := enough 1
    simp only [List.take_succ_cons, List.take_zero, enterAll_cons, enterAll_nil] at room
    cases event with
    | told command | asked ticket query | ended ticket query result => exact all
    | heard signal =>
      cases signal with
      | cancel | lateCancel ticket | hangUp => exact all
      | reply reply =>
        cases present : ledger.attended with
        | false => simpa [enter, say, numbers, present] using all
        | true => simpa [enter, say, numbers, present, or_imp, forall_and] using all
      | error message =>
        cases present : ledger.attended with
        | false => simpa [enter, say, numbers, present] using all
        | true =>
          have outstanding : ledger.sayings.length < ledger.queries.length := by
            simp only [enter, say, numbers, present, ↓reduceIte, List.length_append] at room
            exact Nat.lt_of_succ_le room
          simpa [enter, say, numbers, present, or_imp, forall_and, counted, outstanding] using all

/-- Of a faithful responder everything that it says gets a ticket. -/
theorem replies_ofEvents {history : List Event} (faithful : Faithful history) :
    (ofEvents history).replies.map Saying.reply = Event.replies history := by
  have counts (events : List Event) :
      (ofEvents events).sayings.length = (Event.replies events).length ∧
        (ofEvents events).queries.length = (Event.queries events).length := by
    constructor
    · rw [← sayings_replies, List.length_map]
    · rw [ofEvents, queries_enterAll]
      rfl
  have numbered : ∀ saying ∈ (ofEvents history).sayings, saying.numbered = true :=
    all_numbered {} history nofun fun moment => by
      obtain ⟨said, asked⟩ := counts (history.take moment)
      exact said ▸ asked ▸ length_inTurn (faithful moment)
  rw [replies, ← sayings_replies, List.filter_eq_self.mpr numbered]

variable {ledger : Ledger} {events : List Event}

theorem Accords.tickets (accords : ledger.Accords events) :
    events.filterMap Event.ticket? =
      List.range' ledger.queries.length (Event.queries events).length := by
  induction events generalizing ledger with
  | nil => rfl
  | cons event rest ih =>
    obtain ⟨first, later⟩ := accords
    rw [List.filterMap_cons, ih later, queries_enter, Event.queries_cons]
    cases event with
    | asked ticket query =>
      obtain rfl : ticket = ledger.queries.length := first.2
      simp [Event.ticket?, Event.query?, List.range'_succ]
    | told command | heard signal | ended ticket query result =>
      simp [Event.ticket?, Event.query?]

/-- Each query is waited for once, and none after a later one. -/
theorem Accords.waited (accords : ledger.Accords events)
    (before : ledger.waited.Pairwise (· < ·)) :
    (ledger.enterAll events).waited.Pairwise (· < ·) := by
  induction events generalizing ledger with
  | nil => exact before
  | cons event rest ih =>
    obtain ⟨first, later⟩ := accords
    refine ih later ?_
    rw [waited_enter]
    cases event with
    | ended ticket query result =>
      refine List.pairwise_append.mpr ⟨before, List.pairwise_singleton .., ?_⟩
      intro earlier member last same
      exact List.mem_singleton.mp same ▸ first.1 earlier member
    | told command | asked ticket query | heard signal => simpa [Event.waited?] using before

end Ledger

/-- Queries and replies are aligned along a history. -/
structure Aligned (history : List Event) : Prop where
  /-- The ticket of a query is its place among the queries. -/
  tickets : history.filterMap Event.ticket? = List.range (Event.queries history).length
  /-- A wait that ends with a reply ends with the reply that has the place of its query. -/
  own : ∀ before ticket query reply after,
    history = before ++ .ended ticket query (.reply reply) :: after →
      (Event.queries before)[ticket]? = some query ∧ (Event.replies before)[ticket]? = some reply
  /-- Each query is waited for once, and none after a later one. -/
  once : (history.filterMap Event.waited?).Pairwise (· < ·)

theorem Ledger.Accords.aligned {history : List Event} (accords : Ledger.Accords {} history)
    (faithful : Faithful history) : Aligned history := by
  refine ⟨?_, ?_, ?_⟩
  · rw [accords.tickets, List.range_eq_range']
    rfl
  · intro before ticket query reply after split
    obtain ⟨_, asked, answered⟩ := accords.event split
    have now : Faithful before := (split ▸ faithful).before
    rw [Ledger.ofEvents, Ledger.queries_enterAll] at asked
    rw [← List.getElem?_map, Ledger.replies_ofEvents now] at answered
    exact ⟨asked, answered reply rfl⟩
  · have once := accords.waited .nil
    rwa [Ledger.waited_enterAll] at once

theorem Aligned.not_mismatch {history : List Event} (aligned : Aligned history)
    (faithful : Faithful history) : ∀ event ∈ history, event.isMismatch = false := by
  intro event member
  obtain ⟨before, after, split⟩ := List.append_of_mem member
  match event with
  | .ended ticket query (.reply reply) =>
    obtain ⟨asked, given⟩ := aligned.own before ticket query reply after split
    have now : Faithful before := (split ▸ faithful).before
    have whole := now before.length
    rw [List.take_length] at whole
    simp [Event.isMismatch, answers_of_inTurn whole asked given]
  | .ended _ _ .timedOut | .ended _ _ .cancelled | .ended _ _ .disconnected => rfl
  | .told _ | .asked .. | .heard _ => rfl

namespace Session

variable {β ε : Type} [Backend β] [Emitter ε] {session : Session β ε}

/-- With a faithful responder every run keeps queries and replies aligned, and what a call gives
comes from the wait for its own query, never from a reply of the wrong kind. -/
theorem aligned_of_faithful {config : SessionConfig} {backend : β} {context : Context ε}
    (started : startOn config backend context = .ok session) (external : config.mode = .external)
    (unused : context.exchange = {}) (steps : List Step)
    (faithful : Faithful (session.history steps)) :
    Aligned (session.history steps) ∧
      ∀ before call after, steps = before ++ .call call :: after →
        (∀ operation, call ≠ .apply operation) →
        let earlier := (session.run before).2
        Event.Explain (earlier.callEvents call) (earlier.call call).1 ∧
          ∀ message, (earlier.call call).1 ≠ .error (.parse message) := by
  have aligned := (history_accords started external unused steps).aligned faithful
  refine ⟨aligned, ?_⟩
  intro before call after split asks earlier
  have explain := (started_tracks started external unused |>.run before).tracks.explain asks
  refine ⟨explain, ?_⟩
  intro message read
  rw [read] at explain
  obtain ⟨event, member, mismatch⟩ := explain
  have inside : event ∈ session.history steps := by
    rw [split, history_append]
    exact List.mem_append_right _ (List.mem_append_left _ member)
  rw [aligned.not_mismatch faithful event inside] at mismatch
  cases mismatch

/-- The reply to a check that was given up arrives after the next one was asked. -/
def lateReply : List Step :=
  [.call .submitCheck, .call .awaitOutcome, .call .submitCheck,
    .signal (.reply (.outcome .sat)), .signal (.lateCancel 0),
    .signal (.reply (.outcome .unsat)), .call .awaitOutcome]

theorem impatient_aligned :
    startOn quick ({} : Shadow) ⟨({} : Transcript), {}, .channel⟩ = .ok impatient ∧
      Faithful (impatient.history lateReply) ∧ Aligned (impatient.history lateReply) ∧
      impatient.history lateReply =
        [.asked 0 .checkSat, .ended 0 .checkSat .timedOut, .asked 1 .checkSat,
          .heard (.reply (.outcome .sat)), .heard (.lateCancel 0),
          .heard (.reply (.outcome .unsat)), .ended 1 .checkSat (.reply (.outcome .unsat))] := by
  have started : startOn quick ({} : Shadow) ⟨({} : Transcript), {}, .channel⟩ =
      .ok impatient := rfl
  have faithful : Faithful (impatient.history lateReply) := by decide +kernel
  have aligned := (aligned_of_faithful started rfl rfl lateReply faithful).1
  exact ⟨started, faithful, aligned, by decide +kernel⟩

end Session

end SmtSession

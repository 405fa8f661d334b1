import SmtSession.Proofs.SessionLedger

/-! Causality: when the reply that a wait ends with was said, as seen from the moment when its query
was asked. A reply takes the next ticket also when no query is unanswered; from then on the
responder is ahead, and the queries asked while it is ahead get replies that were said before. -/
namespace SmtSession

namespace Ledger

/-- The ticket of a reply is the number of replies when it was said. -/
theorem replies_split {history : List Event} {ticket : Nat} {reply : Reply}
    (given : (ofEvents history).replies[ticket]?.map Saying.reply = some reply) :
    ∃ before signal after, history = before ++ .heard signal :: after ∧
      signal.reply? = some reply ∧ (ofEvents before).replies.length = ticket ∧
      (ofEvents (before ++ [.heard signal])).replies.length = ticket + 1 := by
  obtain ⟨saying, placed, rfl⟩ := Option.map_eq_some_iff.mp given
  obtain ⟨turn, found, numbered, count⟩ := replies_turn placed
  obtain ⟨before, signal, after, split, said, _, taken, added⟩ := saying_ofEvents found
  have now : (ofEvents before).replies.length = ticket := by rw [replies, taken, count]
  refine ⟨before, signal, after, split, said, now, ?_⟩
  rw [replies, added, List.filter_append, List.length_append]
  simp [← now, replies, numbered]

theorem length_replies_le {before history : List Event} (earlier : before <+: history) :
    (ofEvents before).replies.length ≤ (ofEvents history).replies.length := by
  obtain ⟨rest, rfl⟩ := earlier
  rw [ofEvents_append]
  exact ((sayings_extend rest (ofEvents before)).filter Saying.numbered).length_le

/-- More replies have got a ticket than queries. -/
def Ahead (ledger : Ledger) : Prop := ledger.queries.length < ledger.replies.length

instance (ledger : Ledger) : Decidable ledger.Ahead := inferInstanceAs (Decidable (_ < _))

theorem asked_split {history : List Event} {ticket : Nat} {query : Command}
    (accords : Accords {} history) (asked : (ofEvents history).queries[ticket]? = some query) :
    ∃ before after, history = before ++ .asked ticket query :: after := by
  rw [ofEvents, queries_enterAll] at asked
  obtain ⟨before, event, after, split, same, count⟩ := split_of_getElem?_filterMap asked
  cases event with
  | asked other command =>
    obtain rfl := Option.some.inj same
    have place := accords.event split
    rw [Event.Accords, ofEvents, queries_enterAll] at place
    obtain rfl : other = ticket := place.2.trans count
    exact ⟨before, after, split⟩
  | told command | heard signal | ended ticket query result => cases same

/-- What got a ticket was said after the query of the ticket was asked exactly when no more replies
than queries had got a ticket when it was asked. -/
theorem said_after_iff {history earlier later quiet rest : List Event} {ticket : Nat}
    {query : Command} {signal : Signal} (accords : Accords {} history)
    (asking : history = earlier ++ .asked ticket query :: later)
    (hearing : history = quiet ++ .heard signal :: rest)
    (now : (ofEvents quiet).replies.length = ticket)
    (next : (ofEvents (quiet ++ [.heard signal])).replies.length = ticket + 1) :
    earlier.length < quiet.length ↔ ¬ (ofEvents earlier).Ahead := by
  have count : (ofEvents earlier).queries.length = ticket := (accords.event asking).2.symm
  have first : earlier <+: history := asking ▸ List.prefix_append ..
  have second : quiet <+: history := hearing ▸ List.prefix_append ..
  have third : quiet ++ [.heard signal] <+: history :=
    ⟨rest, (List.append_cons ..).symm.trans hearing.symm⟩
  rw [Ahead, count, Nat.not_lt]
  constructor
  · intro before
    have inside : earlier <+: quiet :=
      List.prefix_of_prefix_length_le first second (Nat.le_of_lt before)
    exact now ▸ length_replies_le inside
  · intro behind
    refine Nat.lt_of_not_le ?_
    intro ahead
    have apart : quiet.length ≠ earlier.length := by
      intro same
      obtain ⟨_, last⟩ := List.append_inj (hearing.symm.trans asking) same
      cases last
    have inside : quiet ++ [.heard signal] <+: earlier := by
      refine List.prefix_of_prefix_length_le third first ?_
      rw [List.length_append, List.length_singleton]
      omega
    have more := length_replies_le inside
    omega

end Ledger

namespace Session

variable {β ε : Type} [Backend β] [Emitter ε] {session : Session β ε}

/-- The reply that a wait ends with was said after its query was asked exactly when the responder
was not ahead then. -/
theorem causal_iff_not_ahead {config : SessionConfig} {backend : β} {context : Context ε}
    (started : startOn config backend context = .ok session) (external : config.mode = .external)
    (unused : context.exchange = {}) (steps : List Step) :
    ∀ before ticket query reply after,
      session.history steps = before ++ .ended ticket query (.reply reply) :: after →
      ∃ asked said signal, before[asked]? = some (.asked ticket query) ∧
        before[said]? = some (.heard signal) ∧ signal.reply? = some reply ∧
        (Ledger.ofEvents (before.take said)).replies.length = ticket ∧
        (Ledger.ofEvents (before.take (said + 1))).replies.length = ticket + 1 ∧
        (asked < said ↔ ¬ (Ledger.ofEvents (before.take asked)).Ahead) := by
  intro before ticket query reply after split
  have accords := history_accords started external unused steps
  obtain ⟨_, placed, given⟩ := accords.event split
  rw [split, Ledger.accords_append] at accords
  obtain ⟨earlier, later, asking⟩ := Ledger.asked_split accords.1 placed
  obtain ⟨quiet, signal, rest, hearing, said, now, next⟩ := Ledger.replies_split (given reply rfl)
  have first : before.take earlier.length = earlier := by rw [asking, List.take_left]
  have second : before.take quiet.length = quiet := by rw [hearing, List.take_left]
  have third : before.take (quiet.length + 1) = quiet ++ [.heard signal] := by
    rw [hearing, List.take_length_add_append]
    rfl
  have causal := Ledger.said_after_iff accords.1 asking hearing now next
  refine ⟨earlier.length, quiet.length, signal, ?_, ?_, said, ?_, ?_, ?_⟩
  · simp [asking]
  · simp [hearing]
  · rwa [second]
  · rwa [third]
  · rwa [first]

/-- The first check is answered twice; then the assertions change, and another check is
answered. -/
def answeredTwice : List Step :=
  [.call .submitCheck, .signal (.reply (.outcome .sat)), .signal (.reply (.outcome .sat)),
    .call .awaitOutcome, .call (.apply (.assert (.boolLit false))), .call .submitCheck,
    .signal (.reply (.outcome .unsat)), .call .awaitOutcome]

def answeredTwiceEvents : List Event :=
  [.asked 0 .checkSat, .heard (.reply (.outcome .sat)), .heard (.reply (.outcome .sat)),
    .ended 0 .checkSat (.reply (.outcome .sat)), .told (.assert (.boolLit false)),
    .asked 1 .checkSat, .heard (.reply (.outcome .unsat))]

/-- The last wait ends with what was said before its query was asked, with the responder ahead. -/
theorem answeredTwice_ahead :
    startOn quick ({} : Shadow) ⟨({} : Transcript), {}, .channel⟩ = .ok impatient ∧
      impatient.history answeredTwice =
        answeredTwiceEvents ++ .ended 1 .checkSat (.reply (.outcome .sat)) :: [] ∧
      ∃ asked said, answeredTwiceEvents[asked]? = some (.asked 1 .checkSat) ∧
        (Ledger.ofEvents (answeredTwiceEvents.take asked)).Ahead ∧ ¬ asked < said := by
  have started : startOn quick ({} : Shadow) ⟨({} : Transcript), {}, .channel⟩ =
      .ok impatient := rfl
  have split : impatient.history answeredTwice =
      answeredTwiceEvents ++ .ended 1 .checkSat (.reply (.outcome .sat)) :: [] := by
    decide +kernel
  obtain ⟨asked, said, _, asking, _, _, _, _, causal⟩ :=
    causal_iff_not_ahead started rfl rfl answeredTwice _ _ _ _ _ split
  have place : asked = 5 :=
    (by decide +kernel : ∀ place < 7,
      answeredTwiceEvents[place]? = some (.asked 1 .checkSat) → place = 5)
      asked (List.getElem?_eq_some_iff.mp asking).1 asking
  have ahead : (Ledger.ofEvents (answeredTwiceEvents.take asked)).Ahead := by
    rw [place]
    decide +kernel
  exact ⟨started, split, asked, said, asking, ahead, fun later => causal.mp later ahead⟩

/-- A check is told that the assertions are satisfiable although nobody has said so since it was
asked. -/
theorem reply_said_before_asking :
    startOn quick ({} : Shadow) ⟨({} : Transcript), {}, .channel⟩ = .ok impatient ∧
      ∃ earlier later, impatient.history answeredTwice =
          earlier ++ .asked 1 .checkSat :: later ++ [.ended 1 .checkSat (.reply (.outcome .sat))] ∧
        .heard (.reply (.outcome .sat)) ∉ later :=
  ⟨rfl, answeredTwiceEvents.take 5, answeredTwiceEvents.drop 6, by decide +kernel,
    by decide +kernel⟩

end Session

end SmtSession

import SmtSession.Proofs.Ledger

/-! An exchange follows the ledger of its history: the counters agree, and the queue holds the
replies of the ledger from some ticket on, in order and under their own tickets. A wait for a ticket
that is not below the first one queued takes the reply of that very ticket, or none. -/
namespace SmtSession

def Envelope.reply? : Envelope → Option (Reply × Nat)
  | .reply ticket answer => some (answer, ticket)
  | .cancel _ | .closed => none

namespace Ledger

def numbered (ledger : Ledger) : List (Reply × Nat) := (ledger.replies.map Saying.reply).zipIdx

theorem length_numbered (ledger : Ledger) : ledger.numbered.length = ledger.replies.length := by
  simp [numbered]

theorem getElem?_numbered (ledger : Ledger) (ticket : Nat) :
    ledger.numbered[ticket]? =
      ledger.replies[ticket]?.map fun saying => (saying.reply, ticket) := by
  simp [numbered, List.getElem?_zipIdx, Function.comp_def]

end Ledger

/-- The counters of the exchange are those of the ledger, and of the replies only some with tickets
below `floor` have left the queue. -/
structure Exchange.Follows (ledger : Ledger) (floor : Nat) (x : Exchange) : Prop where
  issued : x.issued = ledger.queries.length
  delivered : x.delivered = ledger.replies.length
  attended : x.attended = ledger.attended
  waited : ∀ ticket ∈ ledger.waited, ticket < floor
  queued : ∃ first ≤ floor, first ≤ ledger.replies.length ∧
    x.queue.filterMap Envelope.reply? = ledger.numbered.drop first

namespace Exchange.Follows

variable {ledger : Ledger} {floor : Nat} {x : Exchange}

theorem mono {higher : Nat} (follows : x.Follows ledger floor) (bound : floor ≤ higher) :
    x.Follows ledger higher := by
  obtain ⟨first, below, within, queue⟩ := follows.queued
  exact ⟨follows.issued, follows.delivered, follows.attended,
    fun ticket member => Nat.lt_of_lt_of_le (follows.waited ticket member) bound,
    first, Nat.le_trans below bound, within, queue⟩

theorem deliver {signal : Signal} (follows : x.Follows ledger floor)
    (present : ledger.attended = true) (numbered : ledger.numbers signal = true) (reply : Reply) :
    (x.deliver reply).Follows (ledger.say signal reply) floor := by
  obtain ⟨first, below, within, queue⟩ := follows.queued
  have said : (ledger.say signal reply).replies = ledger.replies ++ [⟨reply, true⟩] := by
    simp [Ledger.replies, Ledger.say, present, numbered]
  refine ⟨?_, ?_, ?_, ?_, first, below, ?_, ?_⟩
  · simpa [Exchange.deliver, enqueue] using follows.issued
  · simp [Exchange.deliver, enqueue, said, follows.delivered]
  · simpa [Exchange.deliver, enqueue, Ledger.say, present] using follows.attended
  · simpa using follows.waited
  · rw [said]
    simp only [List.length_append]
    omega
  · have bound : first ≤ ledger.numbered.length := by rwa [Ledger.length_numbered]
    have number : (ledger.say signal reply).numbered =
        ledger.numbered ++ [(reply, ledger.replies.length)] := by
      simp [Ledger.numbered, said, List.zipIdx_append]
    rw [number, List.drop_append_of_le_length bound, ← queue]
    simp [Exchange.deliver, enqueue, Envelope.reply?, follows.delivered]

/-- Only the replies, the queries and the tickets waited for matter, not the rest of the ledger. -/
theorem congr {other : Ledger} (follows : x.Follows ledger floor)
    (queries : other.queries = ledger.queries) (replies : other.replies = ledger.replies)
    (attended : other.attended = ledger.attended) (waited : other.waited = ledger.waited) :
    x.Follows other floor := by
  obtain ⟨first, below, within, queue⟩ := follows.queued
  have number : other.numbered = ledger.numbered := by
    rw [Ledger.numbered, replies, Ledger.numbered]
  exact ⟨queries ▸ follows.issued, replies ▸ follows.delivered, attended ▸ follows.attended,
    waited ▸ follows.waited, first, below, replies ▸ within, number ▸ queue⟩

/-- An exchange that differs only in what waits look at follows the same ledger. -/
theorem transfer {y : Exchange} (follows : x.Follows ledger floor) (issued : y.issued = x.issued)
    (delivered : y.delivered = x.delivered) (attended : y.attended = x.attended)
    (queue : y.queue = x.queue) : y.Follows ledger floor :=
  ⟨issued ▸ follows.issued, delivered ▸ follows.delivered, attended ▸ follows.attended,
    follows.waited, queue ▸ follows.queued⟩

/-- Envelopes that hold no reply may be queued at any time. -/
theorem enqueue {envelope : Envelope} (follows : x.Follows ledger floor)
    (foreign : envelope.reply? = none) : (x.enqueue envelope).Follows ledger floor := by
  obtain ⟨first, below, within, queue⟩ := follows.queued
  exact ⟨follows.issued, follows.delivered, follows.attended, follows.waited, first, below, within,
    by simp [Exchange.enqueue, foreign, queue]⟩

/-- The ledger enters a signal as the exchange receives it. -/
theorem receive (follows : x.Follows ledger floor) (signal : Signal) :
    (x.receive signal).2.Follows (ledger.enter (.heard signal)) floor := by
  have present := follows.attended
  cases signal with
  | reply reply =>
    cases known : ledger.attended with
    | true =>
      simpa [Exchange.receive, present, known, Ledger.enter] using follows.deliver known rfl reply
    | false => simpa [Exchange.receive, present, known, Ledger.enter, Ledger.say] using follows
  | error message =>
    cases known : ledger.attended with
    | false => simpa [Exchange.receive, present, known, Ledger.enter, Ledger.say] using follows
    | true =>
      by_cases outstanding : ledger.replies.length < ledger.queries.length
      · have numbered : ledger.numbers (.error message) = true := decide_eq_true outstanding
        have delivered := follows.deliver known numbered (.error message)
        simpa [Exchange.receive, present, known, deliverError, hasOutstanding, follows.issued,
          follows.delivered, outstanding, Ledger.enter] using delivered
      · have numbered : ledger.numbers (.error message) = false := decide_eq_false outstanding
        have same : (ledger.say (.error message) (.error message)).replies = ledger.replies := by
          simp [Ledger.replies, Ledger.say, numbered, known]
        have noted : (x.note (strayErrorNotice message)).Follows ledger floor :=
          follows.transfer rfl rfl rfl rfl
        have entered : (x.note (strayErrorNotice message)).Follows
            (ledger.enter (.heard (.error message))) floor :=
          noted.congr (Ledger.queries_say ..) same (by simp [Ledger.enter, Ledger.say, known])
            (Ledger.waited_say ..)
        simpa [Exchange.receive, present, known, deliverError, hasOutstanding, follows.issued,
          follows.delivered, outstanding] using entered
  | cancel =>
    cases awaited : x.awaited with
    | none => simpa [Exchange.receive, awaited, Ledger.enter] using follows
    | some ticket =>
      have queued : (x.enqueue (.cancel ticket)).Follows ledger floor := follows.enqueue rfl
      simpa [Exchange.receive, awaited, Ledger.enter] using queued
  | lateCancel ticket =>
    have queued : (x.enqueue (.cancel ticket)).Follows ledger floor := follows.enqueue rfl
    exact queued
  | hangUp =>
    cases known : ledger.attended with
    | false =>
      have gone : x.Follows { ledger with attended := false } floor :=
        follows.congr rfl rfl known.symm rfl
      simpa [Exchange.receive, present, known, Ledger.enter] using gone
    | true =>
      have closing : (x.enqueue .closed).Follows ledger floor := follows.enqueue rfl
      obtain ⟨issued, delivered, _, waited, queued⟩ := closing
      have gone : Exchange.Follows { ledger with attended := false } floor
          { x.enqueue .closed with attended := false } := ⟨issued, delivered, rfl, waited, queued⟩
      simpa [Exchange.receive, present, known, Ledger.enter] using gone

theorem receiveAll (follows : x.Follows ledger floor) (signals : List Signal) :
    (x.receiveAll signals).Follows (ledger.enterAll (signals.map .heard)) floor := by
  induction signals generalizing x ledger with
  | nil => exact follows
  | cons signal rest ih => exact ih (follows.receive signal)

/-- The ticket of a query is the number of queries before it. -/
theorem issueTicket (follows : x.Follows ledger floor) (ticket : Nat) (query : Command) :
    x.issueTicket.Follows (ledger.enter (.asked ticket query)) floor := by
  obtain ⟨issued, delivered, attended, waited, queued⟩ := follows
  exact ⟨by simp [Exchange.issueTicket, issued, Ledger.enter], delivered, attended,
    waited, queued⟩

/-- Once a ticket has been waited for, the replies up to its own may have left the queue. -/
theorem ended {ticket : Nat} (follows : x.Follows ledger floor) (bound : floor ≤ ticket + 1)
    (query : Command) (result : WaitResult) :
    x.Follows (ledger.enter (.ended ticket query result)) (ticket + 1) := by
  obtain ⟨issued, delivered, attended, waited, queued⟩ := follows.mono bound
  refine ⟨issued, delivered, attended, ?_, queued⟩
  intro earlier member
  rcases List.mem_append.mp member with before | last
  · exact waited earlier before
  · rw [List.mem_singleton.mp last]
    exact Nat.lt_succ_self _

private theorem replies_of_foreign {ticket : Nat} {skipped : List Envelope}
    (foreign : ∀ envelope ∈ skipped, envelope.isForeign ticket = true) :
    ∀ entry ∈ skipped.filterMap Envelope.reply?, entry.2 < ticket := by
  intro entry member
  obtain ⟨envelope, present, held⟩ := List.mem_filterMap.mp member
  have lower := foreign envelope present
  cases envelope with
  | reply got reply =>
    obtain rfl := Option.some.inj held
    simpa [Envelope.isForeign] using lower
  | cancel _ | closed => cases held

/-- What precedes the first envelope that ends a wait holds only replies with lower tickets. -/
private theorem skip_foreign {first ticket : Nat} {skipped rest : List (Reply × Nat)}
    (split : skipped ++ rest = ledger.numbered.drop first) (below : first ≤ ticket)
    (foreign : ∀ entry ∈ skipped, entry.2 < ticket) :
    first + skipped.length ≤ ticket ∧ rest = ledger.numbered.drop (first + skipped.length) := by
  constructor
  · refine Nat.le_of_not_lt ?_
    intro beyond
    have inside : ticket - first < skipped.length := by omega
    have entry : skipped[ticket - first]? = ledger.numbered[ticket]? := by
      rw [← List.getElem?_append_left inside, split, List.getElem?_drop]
      congr 1
      omega
    rw [List.getElem?_eq_getElem inside, Ledger.getElem?_numbered] at entry
    obtain ⟨saying, _, same⟩ := Option.map_eq_some_iff.mp entry.symm
    have lower := foreign _ (List.getElem_mem inside)
    rw [← same] at lower
    exact Nat.lt_irrefl _ lower
  · rw [← List.drop_drop, ← split, List.drop_left]

private theorem next_reply {first got : Nat} {reply : Reply} {rest : List (Reply × Nat)}
    (queue : (reply, got) :: rest = ledger.numbered.drop first) :
    first = got ∧ ledger.replies[got]?.map Saying.reply = some reply ∧
      got + 1 ≤ ledger.replies.length ∧ rest = ledger.numbered.drop (got + 1) := by
  have entry : ledger.numbered[first]? = some (reply, got) := by
    have head := congrArg List.head? queue
    simpa [List.head?_drop] using head.symm
  rw [Ledger.getElem?_numbered] at entry
  obtain ⟨saying, present, same⟩ := Option.map_eq_some_iff.mp entry
  obtain ⟨rfl, rfl⟩ := Prod.mk.inj same
  have inside : first < ledger.replies.length := (List.getElem?_eq_some_iff.mp present).1
  refine ⟨rfl, by simp [present], inside, ?_⟩
  rw [← List.drop_drop, ← queue, List.drop_one, List.tail_cons]

/-- The first reply queued whose ticket is not below the one waited for has that very ticket. -/
theorem decisive_own {ticket got : Nat} {reply : Reply} {discarded rest : List Envelope}
    (follows : x.Follows ledger ticket) (queue : x.queue = discarded ++ .reply got reply :: rest)
    (foreign : ∀ envelope ∈ discarded, envelope.isForeign ticket = true) (own : ticket ≤ got) :
    got = ticket := by
  obtain ⟨first, below, _, kept⟩ := follows.queued
  rw [queue, List.filterMap_append] at kept
  obtain ⟨bound, left⟩ := skip_foreign kept below (replies_of_foreign foreign)
  obtain ⟨start, _⟩ := next_reply left
  omega

/-- What a look at the queue leaves of it starts with the first envelope that is not foreign. -/
private theorem dropForeign {ticket : Nat} (follows : x.Follows ledger ticket) :
    ∃ first ≤ ticket, first ≤ ledger.replies.length ∧
      (x.queue.dropWhile (Envelope.isForeign ticket)).filterMap Envelope.reply? =
        ledger.numbered.drop first := by
  obtain ⟨first, below, within, queue⟩ := follows.queued
  rw [← List.takeWhile_append_dropWhile (p := Envelope.isForeign ticket) (l := x.queue),
    List.filterMap_append] at queue
  obtain ⟨bound, left⟩ :=
    skip_foreign queue below (replies_of_foreign (List.all_eq_true.mp List.all_takeWhile))
  refine ⟨_, bound, ?_, left⟩
  have lengths := congrArg List.length queue
  simp only [List.length_append, List.length_drop, Ledger.length_numbered] at lengths
  omega

private theorem dequeue {y : Exchange} {higher first : Nat} (follows : x.Follows ledger floor)
    (bound : floor ≤ higher) (issued : y.issued = x.issued) (delivered : y.delivered = x.delivered)
    (attended : y.attended = x.attended) (below : first ≤ higher)
    (within : first ≤ ledger.replies.length)
    (queue : y.queue.filterMap Envelope.reply? = ledger.numbered.drop first) :
    y.Follows ledger higher :=
  ⟨issued ▸ follows.issued, delivered ▸ follows.delivered, attended ▸ follows.attended,
    fun ticket member => Nat.lt_of_lt_of_le (follows.waited ticket member) bound,
    first, below, within, queue⟩

theorem takeFirst_none {ticket : Nat} {y : Exchange} (follows : x.Follows ledger ticket)
    (found : x.takeFirst ticket = (none, y)) : y.Follows ledger ticket := by
  obtain ⟨first, below, within, queue⟩ := follows.dropForeign
  cases left : x.queue.dropWhile (Envelope.isForeign ticket) with
  | nil =>
    simp only [Exchange.takeFirst, left, Prod.mk.injEq, true_and] at found
    subst found
    exact follows.dequeue (Nat.le_refl _) rfl rfl rfl below within (left ▸ queue)
  | cons envelope rest => simp [Exchange.takeFirst, left] at found

/-- A wait is ended by the reply of its own ticket, or by something that is no reply. -/
theorem takeFirst_some {ticket : Nat} {y : Exchange} {result : WaitResult}
    (follows : x.Follows ledger ticket) (found : x.takeFirst ticket = (some result, y)) :
    y.Follows ledger (ticket + 1) ∧
      ∀ reply, result = .reply reply → ledger.replies[ticket]?.map Saying.reply = some reply := by
  obtain ⟨first, below, within, queue⟩ := follows.dropForeign
  have higher : first ≤ ticket + 1 := Nat.le_succ_of_le below
  cases left : x.queue.dropWhile (Envelope.isForeign ticket) with
  | nil => simp [Exchange.takeFirst, left] at found
  | cons envelope rest =>
    have kept : ¬ envelope.isForeign ticket = true := by
      have head := List.head?_dropWhile_not (Envelope.isForeign ticket) x.queue
      simpa [left] using head
    simp only [Exchange.takeFirst, left, Prod.mk.injEq, Option.some.injEq] at found
    obtain ⟨rfl, rfl⟩ := found
    rw [left, List.filterMap_cons] at queue
    cases envelope with
    | reply got reply =>
      obtain ⟨start, own, inside, later⟩ := next_reply queue
      obtain rfl : got = ticket := by
        have high : ¬ got < ticket := by simpa [Envelope.isForeign] using kept
        omega
      refine ⟨follows.dequeue (Nat.le_succ _) ?_ ?_ ?_ (Nat.le_refl _) inside ?_, ?_⟩
      all_goals simp only [accept, ↓reduceIte]
      · exact later.symm ▸ rfl
      · intro other same
        exact WaitResult.reply.inj same ▸ own
    | cancel got =>
      exact ⟨follows.dequeue (Nat.le_succ _) rfl rfl rfl higher within queue, by simp [accept]⟩
    | closed =>
      exact ⟨follows.dequeue (Nat.le_succ _) rfl rfl rfl higher within queue, by simp [accept]⟩

end Exchange.Follows

/-- What is left to come after a wait, and what has come, are together what was to come before. The
exchange then follows the ledger in which that is entered. -/
theorem Exchange.Follows.waitThrough {ledger : Ledger} {x : Exchange}
    (ticket heartbeat remaining : Nat) (coming : List Arrival) (follows : x.Follows ledger ticket) :
    ∃ heard, coming.map Arrival.signal = heard ++
        (x.waitThrough ticket heartbeat remaining coming).2.coming.map Arrival.signal ∧
      (x.waitThrough ticket heartbeat remaining coming).2.Follows
        (ledger.enterAll (heard.map .heard)) (ticket + 1) ∧
      ∀ reply, (x.waitThrough ticket heartbeat remaining coming).1 = .reply reply →
        (ledger.enterAll (heard.map .heard)).replies[ticket]?.map Saying.reply = some reply := by
  fun_induction Exchange.waitThrough ticket heartbeat remaining coming x generalizing ledger with
  | case1 remaining coming x result y found =>
    obtain ⟨after, own⟩ := follows.takeFirst_some found
    exact ⟨[], rfl, after.transfer rfl rfl rfl rfl, own⟩
  | case2 remaining coming x y found pause next rest arrived shorter =>
    rename_i ih
    obtain ⟨heard, split, after, own⟩ := ih ((follows.takeFirst_none found).receive next.signal)
    exact ⟨next.signal :: heard, by rw [signals_of_nextWithin arrived, split, List.cons_append],
      after, own⟩
  | case3 coming x y found =>
    have after := (follows.takeFirst_none found).mono (Nat.le_succ ticket)
    exact ⟨[], rfl, after.transfer rfl rfl rfl rfl, nofun⟩
  | case4 remaining coming x y found pause arrived more =>
    rename_i ih
    simpa only [signals_afterPause] using ih (follows.takeFirst_none found)

theorem Exchange.heardSince_of_split {before after : Exchange} {heard : List Signal}
    (split : before.coming.map Arrival.signal = heard ++ after.coming.map Arrival.signal) :
    before.heardSince after = heard := by
  have lengths := congrArg List.length split
  simp only [List.length_map, List.length_append] at lengths
  have count : before.coming.length - after.coming.length = heard.length := by omega
  rw [heardSince, List.map_take, split, count, List.take_left]

/-- A wait for a ticket with a reply gives the reply of that ticket. -/
theorem Exchange.Follows.wait {ledger : Ledger} {x after : Exchange} {ticket : Nat}
    {timeout heartbeat : Duration} {result : WaitResult} (follows : x.Follows ledger ticket)
    (waited : x.wait ticket timeout heartbeat = (result, after)) :
    after.Follows (ledger.enterAll ((x.heardSince after).map .heard)) (ticket + 1) ∧
      ∀ reply, result = .reply reply →
        (ledger.enterAll ((x.heardSince after).map .heard)).replies[ticket]?.map Saying.reply =
          some reply := by
  simp only [Exchange.wait] at waited
  split at waited
  · obtain ⟨rfl, rfl⟩ := Prod.mk.inj waited
    have silent : x.heardSince x = [] := heardSince_of_split rfl
    simpa [silent] using follows.mono (Nat.le_succ ticket)
  · have ready : ({ x with awaited := some ticket } : Exchange).Follows ledger ticket :=
      follows.transfer rfl rfl rfl rfl
    obtain ⟨heard, split, settled, own⟩ :=
      ready.waitThrough ticket heartbeat.nanoseconds timeout.nanoseconds x.coming
    generalize Exchange.waitThrough ticket _ _ x.coming _ = through at waited split settled own
    obtain ⟨ending, y⟩ := through
    obtain ⟨rfl, rfl⟩ := Prod.mk.inj waited
    have spoken : x.heardSince { y with awaited := none } = heard := heardSince_of_split split
    rw [spoken]
    exact ⟨settled.transfer rfl rfl rfl rfl, own⟩

namespace Exchange

theorem issued_takeFirst (ticket : Nat) (x : Exchange) :
    (x.takeFirst ticket).2.issued = x.issued := by
  simp only [takeFirst]
  split
  · rfl
  · rename_i envelope rest _
    cases envelope <;> simp only [accept]
    split <;> rfl

theorem issued_waitThrough (ticket heartbeat remaining : Nat) (coming : List Arrival)
    (x : Exchange) : (x.waitThrough ticket heartbeat remaining coming).2.issued = x.issued := by
  fun_induction waitThrough ticket heartbeat remaining coming x with
  | case1 remaining coming x result after taken =>
    rw [← issued_takeFirst ticket x, taken]
  | case2 remaining coming x after taken pause next rest found _ ih =>
    rw [ih, issued_receive, ← issued_takeFirst ticket x, taken]
  | case3 coming x after taken =>
    rw [← issued_takeFirst ticket x, taken]
  | case4 remaining coming x after taken pause _ _ ih =>
    rw [ih, ← issued_takeFirst ticket x, taken]

theorem issued_wait (ticket : Nat) (timeout heartbeat : Duration) (x : Exchange) :
    (x.wait ticket timeout heartbeat).2.issued = x.issued := by
  simp only [wait]
  split
  · rfl
  · exact issued_waitThrough ..

end Exchange

end SmtSession

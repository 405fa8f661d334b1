import SmtSession.Proofs.ExchangeLedger

/-! Waiting: a wait is decided by the first envelope that ends it, of those that are queued when it
begins and those that arrive before its time is over. How often it shows a sign of life has no
influence on that, and after a wait that found the responder gone no other finds it again. -/
namespace SmtSession

namespace Envelope

/-- Whether an envelope ends the wait for a ticket: the reply to its query or to a later one does,
and so do the cancellation of this very wait and the end of the responder. -/
def decides (ticket : Nat) : Envelope → Bool
  | .reply got _ => ticket ≤ got
  | .cancel got => got == ticket
  | .closed => true

/-- What a wait gives that an envelope ends. -/
def result : Envelope → WaitResult
  | .reply _ answer => .reply answer
  | .cancel _ => .cancelled
  | .closed => .disconnected

/-- What a wait has to say about the envelope that ends it: that a reply answers no query yet. -/
def warnings (ticket : Nat) : Envelope → List Notice
  | .reply got _ => if got = ticket then [] else [Exchange.aheadNotice got ticket]
  | .cancel _ | .closed => []

theorem eq_cancel_of_result {ticket : Nat} {envelope : Envelope}
    (decisive : envelope.decides ticket = true) (cancelled : envelope.result = .cancelled) :
    envelope = .cancel ticket := by
  cases envelope with
  | reply got answer => cases cancelled
  | cancel got => rw [beq_iff_eq.mp decisive]
  | closed => cases cancelled

theorem eq_closed_of_result {envelope : Envelope} (gone : envelope.result = .disconnected) :
    envelope = .closed := by
  cases envelope with
  | reply got answer | cancel got => cases gone
  | closed => rfl

theorem result_ne_timedOut (envelope : Envelope) : envelope.result ≠ .timedOut := by
  cases envelope <;> nofun

/-- What a wait leaves of the envelopes that it receives: those after the first that ends it. -/
def leftBehind (ticket : Nat) : List Envelope → List Envelope
  | [] => []
  | envelope :: rest => if envelope.decides ticket then rest else leftBehind ticket rest

theorem isForeign_eq (ticket : Nat) (envelope : Envelope) :
    envelope.isForeign ticket = !envelope.decides ticket := by
  cases envelope with
  | reply got answer =>
    simp only [isForeign, decides, ← decide_not]
    exact decide_eq_decide.mpr (Nat.not_le).symm
  | cancel got => rfl
  | closed => rfl

section

variable {ticket : Nat} {first : List Envelope}

theorem leftBehind_append_of_none (none : first.find? (decides ticket) = none)
    (second : List Envelope) : leftBehind ticket (first ++ second) = leftBehind ticket second := by
  induction first with
  | nil => rfl
  | cons envelope rest ih =>
    obtain ⟨foreign, others⟩ := List.forall_mem_cons.mp (List.find?_eq_none.mp none)
    rw [List.cons_append, leftBehind, if_neg foreign]
    exact ih (List.find?_eq_none.mpr others)

/-- What the envelopes before, the envelope that decides and those left behind make up. -/
theorem split_of_find? {envelope : Envelope} (found : first.find? (decides ticket) = some envelope) :
    ∃ discarded, first = discarded ++ envelope :: leftBehind ticket first ∧
      ∀ other ∈ discarded, other.decides ticket = false := by
  induction first with
  | nil => cases found
  | cons head rest ih =>
    by_cases decisive : head.decides ticket = true
    · rw [List.find?_cons_of_pos decisive] at found
      obtain rfl := Option.some.inj found
      exact ⟨[], by rw [leftBehind, if_pos decisive, List.nil_append], nofun⟩
    · rw [List.find?_cons_of_neg decisive] at found
      obtain ⟨discarded, split, foreign⟩ := ih found
      refine ⟨head :: discarded, ?_, ?_⟩
      · rw [leftBehind, if_neg decisive, List.cons_append, ← split]
      · exact List.forall_mem_cons.mpr ⟨by simpa using decisive, foreign⟩

/-- The queue without the foreign envelopes at its head. -/
theorem dropForeign_eq (ticket : Nat) (queue : List Envelope) :
    queue.dropWhile (isForeign ticket) =
      match queue.find? (decides ticket) with
      | some envelope => envelope :: leftBehind ticket queue
      | none => [] := by
  induction queue with
  | nil => rfl
  | cons head rest ih =>
    by_cases decisive : head.decides ticket = true
    · rw [List.dropWhile_cons_of_neg (by simp [isForeign_eq, decisive]),
        List.find?_cons_of_pos decisive, leftBehind, if_pos decisive]
    · rw [List.dropWhile_cons_of_pos (by simp [isForeign_eq, decisive]),
        List.find?_cons_of_neg decisive, leftBehind, if_neg decisive, ih]

end

end Envelope

def WaitResult.ofDecisive (decisive : Option Envelope) : WaitResult :=
  decisive.elim .timedOut Envelope.result

namespace Arrival

/-- The signals that arrive within a time, in order. -/
def inTime (limit : Nat) : List Arrival → List Signal
  | [] => []
  | next :: rest =>
    if next.delay ≤ limit then next.signal :: inTime (limit - next.delay) rest else []

/-- What is still to come after a time. -/
def late (limit : Nat) : List Arrival → List Arrival
  | [] => []
  | next :: rest =>
    if next.delay ≤ limit then late (limit - next.delay) rest
    else { next with delay := next.delay - limit } :: rest

theorem signals_split (limit : Nat) (coming : List Arrival) :
    coming.map Arrival.signal = inTime limit coming ++ (late limit coming).map Arrival.signal := by
  induction coming generalizing limit with
  | nil => rfl
  | cons next rest ih =>
    by_cases soon : next.delay ≤ limit
    · simp [inTime, late, soon, ih (limit - next.delay)]
    · simp [inTime, late, soon]

theorem signals_drop {limit : Nat} {coming : List Arrival} {heard : List Signal}
    (early : heard <+: inTime limit coming) :
    coming.map Arrival.signal = heard ++ (coming.drop heard.length).map Arrival.signal := by
  obtain ⟨others, whole⟩ := early
  have split := signals_split limit coming
  rw [← whole, List.append_assoc] at split
  rw [List.map_drop, split, List.drop_left]

end Arrival

namespace Exchange

/-! ### What signals do to the queue -/

/-- What a signal puts into the queue does not depend on what is queued already. -/
theorem receive_queue (signal : Signal) (x : Exchange) :
    ∃ posted, ∀ queue, (({ x with queue } : Exchange).receive signal).2 =
      { (x.receive signal).2 with queue := queue ++ posted } := by
  cases signal with
  | reply reply =>
    by_cases present : x.attended
    · exact ⟨[.reply x.delivered reply], fun queue => by simp [receive, present, deliver, enqueue]⟩
    · exact ⟨[], fun queue => by simp [receive, present]⟩
  | error message =>
    by_cases present : x.attended
    · by_cases outstanding : x.delivered < x.issued
      · exact ⟨[.reply x.delivered (.error message)], fun queue => by
          simp [receive, present, deliverError, hasOutstanding, outstanding, deliver, enqueue]⟩
      · exact ⟨[], fun queue => by
          simp [receive, present, deliverError, hasOutstanding, outstanding, note]⟩
    · exact ⟨[], fun queue => by simp [receive, present]⟩
  | cancel =>
    cases waiting : x.awaited with
    | some ticket => exact ⟨[.cancel ticket], fun queue => by simp [receive, waiting, enqueue]⟩
    | none => exact ⟨[], fun queue => by simp [receive, waiting]⟩
  | lateCancel ticket => exact ⟨[.cancel ticket], fun queue => rfl⟩
  | hangUp =>
    by_cases present : x.attended
    · exact ⟨[.closed], fun queue => by simp [receive, present, enqueue]⟩
    · exact ⟨[], fun queue => by simp [receive, present]⟩

theorem receiveAll_queue (signals : List Signal) (x : Exchange) :
    ∃ posted, ∀ queue, ({ x with queue } : Exchange).receiveAll signals =
      { x.receiveAll signals with queue := queue ++ posted } := by
  induction signals generalizing x with
  | nil => exact ⟨[], fun queue => by simp [receiveAll]⟩
  | cons signal rest ih =>
    obtain ⟨first, now⟩ := receive_queue signal x
    obtain ⟨more, later⟩ := ih (x.receive signal).2
    refine ⟨first ++ more, fun queue => ?_⟩
    show (({ x with queue } : Exchange).receive signal).2.receiveAll rest = _
    rw [now, later, List.append_assoc]
    rfl

theorem receiveAll_append (first second : List Signal) (x : Exchange) :
    x.receiveAll (first ++ second) = (x.receiveAll first).receiveAll second := List.foldl_append

theorem receiveAll_behind (signals : List Signal) (x : Exchange) :
    x.receiveAll signals =
      { ({ x with queue := [] } : Exchange).receiveAll signals with
        queue := x.queue ++ (({ x with queue := [] } : Exchange).receiveAll signals).queue } := by
  obtain ⟨posted, all⟩ := receiveAll_queue signals x
  rw [all [], List.nil_append]
  exact all x.queue

theorem closed_receive (signal : Signal) (x : Exchange) :
    (x.receive signal).2.closed = x.closed := by
  cases signal <;> simp only [receive]
  case error message =>
    split
    · simp only [deliverError]
      split <;> rfl
    · rfl
  case cancel => split <;> rfl
  case lateCancel => rfl
  all_goals split <;> rfl

theorem closed_receiveAll (signals : List Signal) (x : Exchange) :
    (x.receiveAll signals).closed = x.closed := by
  induction signals generalizing x with
  | nil => rfl
  | cons signal rest ih => exact (ih _).trans (closed_receive signal x)

/-! ### The end of a wait -/

/-- A look at the queue ends the wait with the first envelope that decides, or empties the queue. -/
theorem takeFirst_eq (ticket : Nat) (x : Exchange) :
    x.takeFirst ticket =
      match x.queue.find? (Envelope.decides ticket) with
      | some envelope =>
        (some envelope.result,
          (({ x with queue := Envelope.leftBehind ticket x.queue } : Exchange).accept ticket
            envelope).2)
      | none => (none, { x with queue := [] }) := by
  rw [takeFirst, Envelope.dropForeign_eq]
  cases x.queue.find? (Envelope.decides ticket) with
  | none => rfl
  | some envelope => cases envelope <;> rfl

/-- A wait without signs of life: each turn it takes what is queued, and goes on with what arrives
next, if that is in time. -/
def waitUntil (ticket : Nat) : Nat → List Arrival → Exchange → WaitResult × Exchange
  | _, [], x =>
    match x.takeFirst ticket with
    | (some result, x) => (result, { x with coming := [] })
    | (none, x) => (.timedOut, { x with coming := [] })
  | remaining, next :: rest, x =>
    match x.takeFirst ticket with
    | (some result, x) => (result, { x with coming := next :: rest })
    | (none, x) =>
      if next.delay ≤ remaining then
        waitUntil ticket (remaining - next.delay) rest (x.receive next.signal).2
      else (.timedOut, { x with coming := Arrival.late remaining (next :: rest) })

theorem waitUntil_of_some {ticket : Nat} {x y : Exchange} {result : WaitResult} (remaining : Nat)
    (coming : List Arrival) (found : x.takeFirst ticket = (some result, y)) :
    waitUntil ticket remaining coming x = (result, { y with coming }) := by
  cases coming <;> simp only [waitUntil, found]

/-- A pause in which nothing arrives only takes its time. -/
theorem waitUntil_afterPause {ticket pause remaining : Nat} {coming : List Arrival} {x y : Exchange}
    (found : x.takeFirst ticket = (none, y)) (silent : nextWithin pause coming = none)
    (within : pause ≤ remaining) :
    waitUntil ticket (remaining - pause) (afterPause pause coming) y =
      waitUntil ticket remaining coming x := by
  have emptied : y.takeFirst ticket = (none, y) := by
    rw [takeFirst_eq] at found
    split at found
    · cases found
    · cases found
      rw [takeFirst_eq]
      rfl
  cases coming with
  | nil => simp only [afterPause, waitUntil, found, emptied]
  | cons next rest =>
    simp only [nextWithin, ite_eq_right_iff, reduceCtorEq, imp_false, Nat.not_le] at silent
    simp only [afterPause, waitUntil, found, emptied, Arrival.late]
    by_cases soon : next.delay ≤ remaining
    · have still : next.delay - pause ≤ remaining - pause := by omega
      have same : remaining - pause - (next.delay - pause) = remaining - next.delay := by omega
      rw [if_pos soon, if_pos still, same]
    · have still : ¬next.delay - pause ≤ remaining - pause := by omega
      have same : next.delay - pause - (remaining - pause) = next.delay - remaining := by omega
      rw [if_neg soon, if_neg still, if_neg soon, if_neg still, same]

/-- Signs of life make no difference. -/
theorem waitThrough_eq (ticket heartbeat remaining : Nat) (coming : List Arrival) (x : Exchange) :
    x.waitThrough ticket heartbeat remaining coming = waitUntil ticket remaining coming x := by
  fun_induction waitThrough ticket heartbeat remaining coming x with
  | case1 remaining coming x result y found => exact (waitUntil_of_some remaining coming found).symm
  | case2 remaining coming x y found pause next rest arrived shorter ih =>
    cases coming with
    | nil => cases arrived
    | cons first others =>
      simp only [nextWithin] at arrived
      split at arrived
      · rename_i soon
        cases arrived
        have inTime : next.delay ≤ remaining := Nat.le_trans soon (Nat.min_le_left ..)
        rw [ih, waitUntil]
        simp only [found, inTime, ↓reduceIte]
      · cases arrived
  | case3 coming x y found pause silent =>
    cases coming with
    | nil => simp only [waitUntil, found]
    | cons first others =>
      have early : ¬first.delay ≤ 0 := by
        simpa [nextWithin, pause, pauseOf] using silent
      simp only [waitUntil, found, early, ↓reduceIte, Arrival.late, Nat.sub_zero]
  | case4 remaining coming x y found pause silent more ih =>
    rw [ih]
    exact waitUntil_afterPause found silent (Nat.min_le_left ..)

theorem queue_accept (ticket : Nat) (envelope : Envelope) (x : Exchange) :
    (x.accept ticket envelope).2.queue = x.queue := by
  cases envelope with
  | reply got answer =>
    simp only [accept]
    split <;> rfl
  | cancel got | closed => rfl

theorem notices_accept (ticket : Nat) (envelope : Envelope) (x : Exchange) :
    (x.accept ticket envelope).2.notices = x.notices ++ envelope.warnings ticket := by
  cases envelope with
  | reply got answer =>
    simp only [accept, Envelope.warnings]
    split
    · rw [List.append_nil]
    · rfl
  | cancel got | closed => exact (List.append_nil _).symm

/-- How a wait may end, by what it has heard until then. -/
inductive Ends (ticket remaining : Nat) (coming : List Arrival) (x : Exchange)
    (ending : WaitResult × Exchange) : Prop where
  /-- An envelope decides. What is queued behind it stays there. -/
  | decided {heard : List Signal} {envelope : Envelope}
      (early : heard <+: Arrival.inTime remaining coming)
      (found : (x.receiveAll heard).queue.find? (Envelope.decides ticket) = some envelope)
      (result : ending.1 = envelope.result)
      (left : ending.2.queue = Envelope.leftBehind ticket (x.receiveAll heard).queue)
      (later : ending.2.coming = coming.drop heard.length)
      (told : ending.2.notices = (x.receiveAll heard).notices ++ envelope.warnings ticket)
      (gone : envelope = .closed → ending.2.closed = true)
  /-- The time is over, and nothing that has arrived by then decides. -/
  | timedOut
      (nothing : (x.receiveAll (Arrival.inTime remaining coming)).queue.find?
        (Envelope.decides ticket) = none)
      (result : ending.1 = .timedOut)
      (left : ending.2.queue = [])
      (later : ending.2.coming = Arrival.late remaining coming)
      (told : ending.2.notices = (x.receiveAll (Arrival.inTime remaining coming)).notices)

section

variable {ticket remaining : Nat} {x : Exchange}

theorem Ends.atOnce {envelope : Envelope}
    (found : x.queue.find? (Envelope.decides ticket) = some envelope) (coming : List Arrival) :
    Ends ticket remaining coming x (waitUntil ticket remaining coming x) := by
  have taken : x.takeFirst ticket = _ := takeFirst_eq ticket x
  rw [found] at taken
  rw [waitUntil_of_some remaining coming taken]
  have silent : [] <+: Arrival.inTime remaining coming := List.nil_prefix
  exact .decided silent found rfl (queue_accept ..) rfl (notices_accept ..)
    (fun closed => by rw [closed]; rfl)

/-- A wait that finds nothing goes on with an empty queue and the next signal. -/
theorem Ends.later {next : Arrival} {rest : List Arrival} {ending : WaitResult × Exchange}
    (nothing : x.queue.find? (Envelope.decides ticket) = none) (soon : next.delay ≤ remaining)
    (ends : Ends ticket (remaining - next.delay) rest
      (({ x with queue := [] } : Exchange).receive next.signal).2 ending) :
    Ends ticket remaining (next :: rest) x ending := by
  have inTime : Arrival.inTime remaining (next :: rest) =
      next.signal :: Arrival.inTime (remaining - next.delay) rest := if_pos soon
  have late : Arrival.late remaining (next :: rest) = Arrival.late (remaining - next.delay) rest :=
    if_pos soon
  have behind (heard : List Signal) := receiveAll_behind (next.signal :: heard) x
  have split (heard : List Signal) : (x.receiveAll (next.signal :: heard)).queue = x.queue ++
      ((({ x with queue := [] } : Exchange).receive next.signal).2.receiveAll heard).queue :=
    congrArg queue (behind heard)
  have same (heard : List Signal) : (x.receiveAll (next.signal :: heard)).notices =
      ((({ x with queue := [] } : Exchange).receive next.signal).2.receiveAll heard).notices := by
    rw [behind]
    rfl
  have searched (others : List Envelope) :
      (x.queue ++ others).find? (Envelope.decides ticket) =
        others.find? (Envelope.decides ticket) := by
    rw [List.find?_append, nothing, Option.none_or]
  cases ends with
  | @decided heard envelope early found result left later told gone =>
    have whole : next.signal :: heard <+: Arrival.inTime remaining (next :: rest) :=
      inTime ▸ List.cons_prefix_cons.mpr ⟨rfl, early⟩
    refine .decided whole ?_ result ?_ later ?_ gone
    · rw [split, searched, found]
    · rw [split, Envelope.leftBehind_append_of_none nothing, left]
    · rw [same, told]
  | timedOut none result left later told =>
    refine .timedOut ?_ result left (late ▸ later) ?_
    · rw [inTime, split, searched, none]
    · rw [inTime, same, told]

theorem waitUntil_ends (coming : List Arrival) :
    Ends ticket remaining coming x (waitUntil ticket remaining coming x) := by
  induction coming generalizing remaining x with
  | nil =>
    cases found : x.queue.find? (Envelope.decides ticket) with
    | some envelope => exact .atOnce found []
    | none =>
      have taken : x.takeFirst ticket = _ := takeFirst_eq ticket x
      rw [found] at taken
      simp only [waitUntil, taken]
      exact .timedOut found rfl rfl rfl rfl
  | cons next rest ih =>
    cases found : x.queue.find? (Envelope.decides ticket) with
    | some envelope => exact .atOnce found (next :: rest)
    | none =>
      have taken : x.takeFirst ticket = _ := takeFirst_eq ticket x
      rw [found] at taken
      simp only [waitUntil, taken]
      split
      · rename_i soon
        exact .later found soon ih
      · rename_i far
        have inTime : Arrival.inTime remaining (next :: rest) = [] := if_neg far
        refine .timedOut ?_ rfl rfl rfl ?_
        · rw [inTime]
          exact found
        · rw [inTime]
          rfl

/-- The exchange in which a wait for a ticket has heard signals: everything that it could take is
in the queue. -/
def received (ticket : Nat) (heard : List Signal) (x : Exchange) : Exchange :=
  ({ x with awaited := some ticket } : Exchange).receiveAll heard

theorem find?_receiveAll {envelope : Envelope}
    (found : x.queue.find? (Envelope.decides ticket) = some envelope) (signals : List Signal) :
    (x.receiveAll signals).queue.find? (Envelope.decides ticket) = some envelope := by
  rw [receiveAll_behind, List.find?_append, found, Option.some_or]

/-- While a responder may be found, a wait depends on signs of life in nothing. -/
theorem wait_eq (receptive : x.closed = false) (timeout heartbeat : Duration) :
    x.wait ticket timeout heartbeat =
      ((waitUntil ticket timeout.nanoseconds x.coming { x with awaited := some ticket }).1,
        { (waitUntil ticket timeout.nanoseconds x.coming { x with awaited := some ticket }).2 with
          awaited := none }) := by
  simp only [wait, receptive, waitThrough_eq, Bool.false_eq_true, ↓reduceIte]

end

theorem wait_ends {x : Exchange} (receptive : x.closed = false) (ticket : Nat)
    (timeout heartbeat : Duration) :
    Ends ticket timeout.nanoseconds x.coming { x with awaited := some ticket }
      (x.wait ticket timeout heartbeat) := by
  rw [wait_eq receptive]
  cases waitUntil_ends (x := { x with awaited := some ticket }) x.coming with
  | decided early found result left later told gone =>
    exact .decided early found result left later told gone
  | timedOut nothing result left later told => exact .timedOut nothing result left later told

/-- What was to come before a wait and is not any more was heard in it. -/
theorem heardSince_of_early {x after : Exchange} {limit : Nat} {heard : List Signal}
    (early : heard <+: Arrival.inTime limit x.coming)
    (later : after.coming = x.coming.drop heard.length) : x.heardSince after = heard :=
  heardSince_of_split (later ▸ Arrival.signals_drop early)

theorem heardSince_of_late {x after : Exchange} {limit : Nat}
    (later : after.coming = Arrival.late limit x.coming) :
    x.heardSince after = Arrival.inTime limit x.coming :=
  heardSince_of_split (later ▸ Arrival.signals_split limit x.coming)

/-- A wait takes what it has received apart: what it throws away, the envelope that ends it, if one
does, and what it leaves in the queue. -/
theorem wait_split {x : Exchange} (receptive : x.closed = false) (ticket : Nat)
    (timeout heartbeat : Duration) :
    let ending := x.wait ticket timeout heartbeat
    let received := x.received ticket (x.heardSince ending.2)
    ∃ discarded decisive, received.queue = discarded ++ decisive.toList ++ ending.2.queue ∧
      (∀ envelope ∈ discarded, envelope.decides ticket = false) ∧
      (∀ envelope ∈ decisive, envelope.decides ticket = true) ∧
      ending.1 = .ofDecisive decisive ∧
      ending.2.notices = received.notices ++ decisive.elim [] (Envelope.warnings ticket) := by
  intro ending received
  cases wait_ends receptive ticket timeout heartbeat with
  | @decided heard envelope early found result left later told =>
    have spoken : x.heardSince ending.2 = heard := heardSince_of_early early later
    obtain ⟨discarded, whole, foreign⟩ := Envelope.split_of_find? found
    refine ⟨discarded, some envelope, ?_, foreign, ?_, result, ?_⟩
    · rw [left, Option.toList_some, List.append_assoc, List.singleton_append, ← whole]
      simp only [received, spoken]
      rfl
    · intro other same
      exact Option.some.inj same ▸ List.find?_some found
    · rw [told]
      simp only [received, spoken]
      rfl
  | timedOut nothing result left later told =>
    have spoken : x.heardSince ending.2 = Arrival.inTime timeout.nanoseconds x.coming :=
      heardSince_of_late later
    refine ⟨received.queue, none, ?_, ?_, by simp, result, ?_⟩
    · rw [left, Option.toList_none, List.append_nil, List.append_nil]
    · intro envelope member
      simp only [received, spoken] at member
      simpa using List.find?_eq_none.mp nothing envelope member
    · rw [told, Option.elim_none, List.append_nil]
      simp only [received, spoken]
      rfl

/-- A wait takes an envelope that is queued already without hearing anything. -/
theorem wait_of_queued {ticket : Nat} {envelope : Envelope} {x : Exchange}
    (receptive : x.closed = false)
    (found : x.queue.find? (Envelope.decides ticket) = some envelope)
    (timeout heartbeat : Duration) :
    (x.wait ticket timeout heartbeat).1 = envelope.result ∧
      x.heardSince (x.wait ticket timeout heartbeat).2 = [] := by
  have taken := takeFirst_eq ticket { x with awaited := some ticket }
  simp only [found] at taken
  rw [wait_eq receptive, waitUntil_of_some timeout.nanoseconds x.coming taken]
  exact ⟨rfl, heardSince_of_split rfl⟩

/-! ### Uses of an exchange -/

/-- What a session and the parties around it do with an exchange. -/
inductive Use where
  /-- A query takes a ticket. -/
  | ask (query : Command)
  | hear (signal : Signal)
  | expect (arrivals : List Arrival)
  | settle
  /-- A query that has the ticket is waited for. -/
  | await (ticket : Nat) (query : Command) (timeout heartbeat : Duration)
  deriving Inhabited

def use (x : Exchange) : Use → Exchange
  | .ask _ => x.issueTicket
  | .hear signal => (x.receive signal).2
  | .expect arrivals => x.expect arrivals
  | .settle => x.settle
  | .await ticket _ timeout heartbeat => (x.wait ticket timeout heartbeat).2

def useAll (x : Exchange) (uses : List Use) : Exchange := uses.foldl use x

theorem closed_use {x : Exchange} (gone : x.closed = true) (next : Use) :
    (x.use next).closed = true := by
  cases next with
  | ask query => exact gone
  | hear signal => exact (closed_receive signal x).trans gone
  | expect arrivals => exact gone
  | settle => exact (closed_receiveAll _ _).trans gone
  | await ticket query timeout heartbeat => simp only [use, wait, gone, ↓reduceIte]

theorem closed_useAll {x : Exchange} (gone : x.closed = true) (uses : List Use) :
    (x.useAll uses).closed = true := by
  induction uses generalizing x with
  | nil => exact gone
  | cons next rest ih => exact ih (closed_use gone next)

end Exchange

/-- How the wait for a ticket ends that an exchange begins with a time limit: its result, and the
exchange after it. -/
structure Exchange.WaitEnding (ticket : Nat) (timeout : Duration) (before : Exchange)
    (ending : WaitResult × Exchange) : Prop where
  /-- The first envelope decides that ends the wait, of all that are queued or arrive in time. -/
  first : ending.1 = .ofDecisive
    ((before.received ticket (Arrival.inTime timeout.nanoseconds before.coming)).queue.find?
      (Envelope.decides ticket))
  /-- Nothing is heard that arrives later than the decisive envelope, or later than the deadline. -/
  inTime : before.heardSince ending.2 <+: Arrival.inTime timeout.nanoseconds before.coming
  /-- Of all that was received, what precedes the decisive envelope is thrown away, and what follows
  it stays in the queue. -/
  split :
    let received := before.received ticket (before.heardSince ending.2)
    ∃ discarded decisive, received.queue = discarded ++ decisive.toList ++ ending.2.queue ∧
      (∀ envelope ∈ discarded, envelope.decides ticket = false) ∧
      (∀ envelope ∈ decisive, envelope.decides ticket = true) ∧
      ending.1 = .ofDecisive decisive ∧
      ending.2.notices = received.notices ++ decisive.elim [] (Envelope.warnings ticket)
  /-- Time is over only when all that comes until the deadline has come, and the queue is empty. -/
  timedOut : ending.1 = .timedOut →
    before.heardSince ending.2 = Arrival.inTime timeout.nanoseconds before.coming ∧
      ending.2.coming = Arrival.late timeout.nanoseconds before.coming ∧ ending.2.queue = []
  /-- A decisive envelope that is queued already is taken at once, also when there is no time, and
  also when the responder has gone away since it was queued. -/
  queued : ∀ envelope, before.queue.find? (Envelope.decides ticket) = some envelope →
    ending.1 = envelope.result ∧ before.heardSince ending.2 = [] ∧
      ∀ limit heartbeat,
        ((before.receive .hangUp).2.wait ticket limit heartbeat).1 = envelope.result
  /-- Only a cancellation of this very wait cancels it. -/
  cancelled : ending.1 = .cancelled →
    .cancel ticket ∈ (before.received ticket (before.heardSince ending.2)).queue
  /-- The signs of life make no difference. -/
  steady : ∀ heartbeat, before.wait ticket timeout heartbeat = ending
  /-- After the end of the responder was found, all later waits find it. -/
  disconnected : ending.1 = .disconnected → ∀ uses later limit heartbeat,
    ((ending.2.useAll uses).wait later limit heartbeat).1 = .disconnected

/-- Every wait of an exchange that has not found its responder gone has such an end, however many
signals come, and in what order. -/
theorem Exchange.wait_ending {x : Exchange} (receptive : x.closed = false) (ticket : Nat)
    (timeout heartbeat : Duration) :
    x.WaitEnding ticket timeout (x.wait ticket timeout heartbeat) := by
  have steady (other : Duration) :
      x.wait ticket timeout other = x.wait ticket timeout heartbeat := by
    rw [wait_eq receptive, wait_eq receptive]
  have queued {envelope : Envelope}
      (found : x.queue.find? (Envelope.decides ticket) = some envelope) :
      (x.wait ticket timeout heartbeat).1 = envelope.result ∧
        x.heardSince (x.wait ticket timeout heartbeat).2 = [] ∧
          ∀ limit heartbeat,
            ((x.receive .hangUp).2.wait ticket limit heartbeat).1 = envelope.result := by
    obtain ⟨result, silent⟩ := wait_of_queued receptive found timeout heartbeat
    have still := find?_receiveAll found [.hangUp]
    exact ⟨result, silent, fun limit heartbeat =>
      (wait_of_queued ((closed_receive .hangUp x).trans receptive) still limit heartbeat).1⟩
  have parts := wait_split receptive ticket timeout heartbeat
  have ends := wait_ends receptive ticket timeout heartbeat
  generalize x.wait ticket timeout heartbeat = ending at *
  cases ends with
  | @decided heard envelope early found result left later told gone =>
    have spoken : x.heardSince ending.2 = heard := heardSince_of_early early later
    refine ⟨?deciding, spoken.symm ▸ early, parts, ?expiring, fun _ => queued, ?aborting, steady,
      ?losing⟩
    case deciding =>
      obtain ⟨others, all⟩ := early
      have sooner := find?_receiveAll found others
      rw [← receiveAll_append, all] at sooner
      rw [result, received, sooner]
      rfl
    case expiring => exact fun ended => absurd (result ▸ ended) envelope.result_ne_timedOut
    case aborting =>
      intro aborted
      have own := Envelope.eq_cancel_of_result (List.find?_some found) (result ▸ aborted)
      rw [spoken]
      exact own ▸ List.mem_of_find?_eq_some found
    case losing =>
      intro lost uses later limit heartbeat
      have closed := gone (Envelope.eq_closed_of_result (result ▸ lost))
      simp only [wait, closed_useAll closed uses, ↓reduceIte]
  | timedOut nothing result left later =>
    have spoken := heardSince_of_late later
    refine ⟨?deciding, spoken.symm ▸ List.prefix_rfl, parts, fun _ => ⟨spoken, later, left⟩,
      fun _ => queued, ?aborting, steady, ?losing⟩
    case deciding =>
      rw [result, received, nothing]
      rfl
    case aborting =>
      intro aborted
      cases result.symm.trans aborted
    case losing =>
      intro lost
      cases result.symm.trans lost

/-- An exchange with what is left over from two earlier queries, to which a cancellation for one of
them, a reply, the end of the responder and another reply are still to come. -/
def Exchange.crowded : Exchange where
  queue := [.reply 0 (.outcome .unsat), .cancel 1]
  issued := 3
  delivered := 2
  coming := [⟨3, .lateCancel 1⟩, ⟨4, .reply (.outcome .sat)⟩, ⟨0, .hangUp⟩, ⟨9, .cancel⟩]

/-- The reply comes at the very end of the time, is taken all the same, and the end of the responder
is left to the next wait. -/
theorem Exchange.crowded_ending :
    crowded.closed = false ∧ crowded.WaitEnding 2 ⟨7⟩ (crowded.wait 2 ⟨7⟩ ⟨2⟩) ∧
      (crowded.wait 2 ⟨7⟩ ⟨2⟩).1 = .reply (.outcome .sat) :=
  ⟨rfl, wait_ending rfl 2 ⟨7⟩ ⟨2⟩, (wait_ending rfl 2 ⟨7⟩ ⟨2⟩).first⟩

end SmtSession

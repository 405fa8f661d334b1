import SmtSession.Exchange.Basic

/-! Waiting for the reply to one query. A wait takes from the queue what belongs to its ticket and
throws away what belongs to earlier ones. It looks at the queue before it looks at the time, so a
reply that is there already is taken whatever the time limit. -/
namespace SmtSession

inductive WaitResult where
  | reply (reply : Reply)
  | timedOut
  | cancelled
  | disconnected
  deriving DecidableEq, Repr, Inhabited

/-- Whether an envelope belongs to another wait: replies to earlier queries, and cancellations of
any other query. -/
def Envelope.isForeign (ticket : Nat) : Envelope → Bool
  | .reply got _ => got < ticket
  | .cancel got => got != ticket
  | .closed => false

namespace Exchange

def aheadNotice (got ticket : Nat) : Notice where
  level := .warning
  message := "Reply ticket ahead of the awaited query"
  fields := [("got", toString got), ("ticket", toString ticket)]

/-- End a wait with the first envelope that is not foreign to it. -/
def accept (ticket : Nat) (envelope : Envelope) (x : Exchange) : WaitResult × Exchange :=
  match envelope with
  | .reply got reply =>
    (.reply reply, if got = ticket then x else x.note (aheadNotice got ticket))
  | .cancel _ => (.cancelled, x)
  | .closed => (.disconnected, { x with closed := true })

/-- Take from the queue up to the first envelope that ends the wait, if there is one. -/
def takeFirst (ticket : Nat) (x : Exchange) : Option WaitResult × Exchange :=
  match x.queue.dropWhile (Envelope.isForeign ticket) with
  | [] => (none, { x with queue := [] })
  | envelope :: rest =>
    let (result, x) := { x with queue := rest }.accept ticket envelope
    (some result, x)

/-- Arrivals after a pause in which none of them has come. -/
def afterPause (pause : Nat) : List Arrival → List Arrival
  | [] => []
  | next :: rest => { next with delay := next.delay - pause } :: rest

/-- The pause before a wait shows a sign of life or ends, at least a nanosecond of what remains. -/
def pauseOf (heartbeat remaining : Nat) : Nat := min remaining (max heartbeat 1)

/-- The first arrival, when it comes within a pause, and the arrivals after it. -/
def nextWithin (pause : Nat) : List Arrival → Option (Arrival × List Arrival)
  | [] => none
  | next :: rest => if next.delay ≤ pause then some (next, rest) else none

theorem length_afterPause (pause : Nat) (coming : List Arrival) :
    (afterPause pause coming).length = coming.length := by
  cases coming <;> rfl

theorem length_of_nextWithin {pause : Nat} {coming rest : List Arrival} {next : Arrival}
    (found : nextWithin pause coming = some (next, rest)) : coming.length = rest.length + 1 := by
  cases coming with
  | nil => cases found
  | cons first others =>
    simp only [nextWithin] at found
    split at found
    · cases found; rfl
    · cases found

@[simp] theorem signals_afterPause (pause : Nat) (coming : List Arrival) :
    (afterPause pause coming).map Arrival.signal = coming.map Arrival.signal := by
  cases coming <;> rfl

theorem signals_of_nextWithin {pause : Nat} {coming rest : List Arrival} {next : Arrival}
    (found : nextWithin pause coming = some (next, rest)) :
    coming.map Arrival.signal = next.signal :: rest.map Arrival.signal := by
  cases coming with
  | nil => cases found
  | cons first others =>
    simp only [nextWithin] at found
    split at found
    · cases found; rfl
    · cases found

/-- Wait for `remaining` nanoseconds while signals come in. Those that come later stay planned. -/
def waitThrough (ticket heartbeat remaining : Nat) (coming : List Arrival) (x : Exchange) :
    WaitResult × Exchange :=
  match x.takeFirst ticket with
  | (some result, x) => (result, { x with coming })
  | (none, x) =>
    let pause := pauseOf heartbeat remaining
    match found : nextWithin pause coming with
    | some (next, rest) =>
      have := length_of_nextWithin found
      waitThrough ticket heartbeat (remaining - next.delay) rest (x.receive next.signal).2
    | none =>
      if remaining = 0 then (.timedOut, { x with coming })
      else waitThrough ticket heartbeat (remaining - pause) (afterPause pause coming) x
  termination_by coming.length + remaining
  decreasing_by
  · omega
  · rw [length_afterPause]
    simp only [pauseOf]
    omega

/-- Wait for the reply to the query of a ticket, with a sign of life after each heartbeat. -/
def wait (ticket : Nat) (timeout heartbeat : Duration) (x : Exchange) : WaitResult × Exchange :=
  if x.closed then (.disconnected, x)
  else
    let (result, x) :=
      waitThrough ticket heartbeat.nanoseconds timeout.nanoseconds x.coming
        { x with awaited := some ticket }
    (result, { x with awaited := none })

end Exchange

end SmtSession

import SmtSession.Proofs.History

/-! Ledgers: what can be known of the tickets of an exchange from the outside. A ledger is kept
along a history; the rule by which it numbers replies is stated once, apart from the exchange. -/
namespace SmtSession

/-- What a signal says to the side that waits, if it comes from the responder. -/
def Signal.reply? : Signal → Option Reply
  | .reply answer => some answer
  | .error message => some (.error message)
  | .cancel | .lateCancel _ | .hangUp => none

/-- The signals by which the responder says something until it goes away, in order. -/
def Event.spoken : List Event → List Signal
  | [] => []
  | .heard .hangUp :: _ => []
  | .heard signal :: rest => if signal.reply?.isSome then signal :: spoken rest else spoken rest
  | .told _ :: rest | .asked .. :: rest | .ended .. :: rest => spoken rest

def Event.replies (events : List Event) : List Reply := (spoken events).filterMap Signal.reply?

/-- Something that the responder has said before it went away. -/
structure Saying where
  reply : Reply
  /-- Whether a ticket was given to it. -/
  numbered : Bool
  deriving DecidableEq, Inhabited

structure Ledger where
  /-- The queries sent; the ticket of each is its place. -/
  queries : List Command := []
  sayings : List Saying := []
  /-- The tickets that were waited for. -/
  waited : List Nat := []
  /-- Whether there still is a responder. -/
  attended : Bool := true
  deriving Inhabited

/-- What is found at a place among the images of some items comes from one of these items, with that
many images before it. -/
theorem split_of_getElem?_filterMap {α γ : Type} {image : α → Option γ} {items : List α}
    {place : Nat} {value : γ} (found : (items.filterMap image)[place]? = some value) :
    ∃ before item after, items = before ++ item :: after ∧ image item = some value ∧
      (before.filterMap image).length = place := by
  induction items generalizing place with
  | nil => cases found
  | cons head rest ih =>
    rw [List.filterMap_cons] at found
    cases known : image head with
    | none =>
      rw [known] at found
      obtain ⟨before, item, after, split, same, count⟩ := ih found
      exact ⟨head :: before, item, after, by rw [split, List.cons_append], same,
        by rw [List.filterMap_cons, known]; exact count⟩
    | some first =>
      rw [known] at found
      cases place with
      | zero => exact ⟨[], head, rest, rfl, known.trans found, rfl⟩
      | succ place =>
        obtain ⟨before, item, after, split, same, count⟩ := ih found
        exact ⟨head :: before, item, after, by rw [split, List.cons_append], same,
          by rw [List.filterMap_cons, known]; exact congrArg (· + 1) count⟩

namespace Ledger

/-- The sayings with a ticket; the ticket of each is its place. -/
def replies (ledger : Ledger) : List Saying := ledger.sayings.filter Saying.numbered

/-- Whether a ticket is given to what a signal says: always to a reply, to an error only while there
are fewer replies than queries. -/
def numbers (signal : Signal) (ledger : Ledger) : Bool :=
  match signal with
  | .error _ => ledger.replies.length < ledger.queries.length
  | _ => true

def say (signal : Signal) (reply : Reply) (ledger : Ledger) : Ledger :=
  if ledger.attended then
    { ledger with sayings := ledger.sayings ++ [⟨reply, ledger.numbers signal⟩] }
  else ledger

@[simp] theorem queries_say (signal : Signal) (reply : Reply) (ledger : Ledger) :
    (ledger.say signal reply).queries = ledger.queries := by
  unfold say
  split <;> rfl

@[simp] theorem waited_say (signal : Signal) (reply : Reply) (ledger : Ledger) :
    (ledger.say signal reply).waited = ledger.waited := by
  unfold say
  split <;> rfl

def enter (ledger : Ledger) : Event → Ledger
  | .told _ => ledger
  | .asked _ query => { ledger with queries := ledger.queries ++ [query] }
  | .heard (.reply reply) => ledger.say (.reply reply) reply
  | .heard (.error message) => ledger.say (.error message) (.error message)
  | .heard .hangUp => { ledger with attended := false }
  | .heard .cancel | .heard (.lateCancel _) => ledger
  | .ended ticket _ _ => { ledger with waited := ledger.waited ++ [ticket] }

def enterAll (events : List Event) (ledger : Ledger) : Ledger := events.foldl enter ledger

def ofEvents (events : List Event) : Ledger := enterAll events {}

@[simp] theorem enterAll_nil (ledger : Ledger) : ledger.enterAll [] = ledger := rfl

@[simp] theorem enterAll_cons (event : Event) (events : List Event) (ledger : Ledger) :
    ledger.enterAll (event :: events) = (ledger.enter event).enterAll events := rfl

theorem enterAll_append (first second : List Event) (ledger : Ledger) :
    ledger.enterAll (first ++ second) = (ledger.enterAll first).enterAll second :=
  List.foldl_append

theorem queries_enter (event : Event) (ledger : Ledger) :
    (ledger.enter event).queries = ledger.queries ++ event.query?.toList := by
  cases event with
  | heard signal => cases signal <;> simp [enter, Event.query?]
  | told command | asked ticket query | ended ticket query result =>
    simp [enter, Event.query?]

theorem waited_enter (event : Event) (ledger : Ledger) :
    (ledger.enter event).waited = ledger.waited ++ event.waited?.toList := by
  cases event with
  | heard signal => cases signal <;> simp [enter, Event.waited?]
  | told command | asked ticket query | ended ticket query result =>
    simp [enter, Event.waited?]

/-- What a signal says while there is a responder is the last saying; no other event says
anything. -/
theorem sayings_enter (event : Event) (ledger : Ledger) :
    (ledger.enter event).sayings = ledger.sayings ∨
      ∃ signal reply, event = .heard signal ∧ signal.reply? = some reply ∧
        (ledger.enter event).sayings =
          ledger.sayings ++ [⟨reply, ledger.numbers signal⟩] := by
  cases event with
  | told command | asked ticket query | ended ticket query result => exact .inl rfl
  | heard signal =>
    cases signal with
    | cancel | lateCancel ticket | hangUp => exact .inl rfl
    | reply reply | error message =>
      cases present : ledger.attended with
      | false => exact .inl (by simp [enter, say, present])
      | true => exact .inr ⟨_, _, rfl, rfl, by simp [enter, say, present]⟩

theorem sayings_extend (events : List Event) (ledger : Ledger) :
    ledger.sayings <+: (ledger.enterAll events).sayings := by
  induction events generalizing ledger with
  | nil => exact List.prefix_rfl
  | cons event rest ih =>
    refine List.IsPrefix.trans ?_ (ih (ledger.enter event))
    rcases ledger.sayings_enter event with same | ⟨signal, reply, _, _, added⟩
    · exact same ▸ List.prefix_rfl
    · exact added ▸ List.prefix_append ..

/-- A saying that is entered comes from a signal, which finds the sayings before it entered. -/
theorem saying_enterAll {events : List Event} {ledger : Ledger} {place : Nat} {saying : Saying}
    (found : (ledger.enterAll events).sayings[place]? = some saying) :
    ledger.sayings[place]? = some saying ∨
      ∃ before signal after, events = before ++ .heard signal :: after ∧
        signal.reply? = some saying.reply ∧
        saying.numbered = (ledger.enterAll before).numbers signal ∧
        (ledger.enterAll before).sayings = (ledger.enterAll events).sayings.take place ∧
        (ledger.enterAll (before ++ [.heard signal])).sayings =
          (ledger.enterAll before).sayings ++ [saying] := by
  induction events generalizing ledger with
  | nil => exact .inl found
  | cons event rest ih =>
    rcases ih found with early | ⟨before, signal, after, split, said, numbered, taken, added⟩
    · rcases ledger.sayings_enter event with same | ⟨signal, reply, rfl, said, added⟩
      · exact .inl (same ▸ early)
      · by_cases last : place < ledger.sayings.length
        · rw [added, List.getElem?_append_left last] at early
          exact .inl early
        · obtain rfl : place = ledger.sayings.length := by
            have inside := (List.getElem?_eq_some_iff.mp early).1
            rw [added, List.length_append, List.length_singleton] at inside
            omega
          rw [added, List.getElem?_concat_length] at early
          obtain rfl := Option.some.inj early
          exact .inr ⟨[], signal, rest, rfl, said, rfl,
            List.prefix_iff_eq_take.mp (ledger.sayings_extend _), added⟩
    · exact .inr ⟨event :: before, signal, after, by rw [split, List.cons_append], said, numbered,
        taken, added⟩

theorem saying_ofEvents {events : List Event} {place : Nat} {saying : Saying}
    (found : (ofEvents events).sayings[place]? = some saying) :
    ∃ before signal after, events = before ++ .heard signal :: after ∧
      signal.reply? = some saying.reply ∧ saying.numbered = (ofEvents before).numbers signal ∧
      (ofEvents before).sayings = (ofEvents events).sayings.take place ∧
      (ofEvents (before ++ [.heard signal])).sayings = (ofEvents before).sayings ++ [saying] := by
  rcases saying_enterAll found with none | entered
  · cases none
  · exact entered

/-- A reply has its turn among the sayings, and its ticket counts those before it that got one. -/
theorem replies_turn {ledger : Ledger} {ticket : Nat} {saying : Saying}
    (given : ledger.replies[ticket]? = some saying) :
    ∃ turn, ledger.sayings[turn]? = some saying ∧ saying.numbered = true ∧
      ((ledger.sayings.take turn).filter Saying.numbered).length = ticket := by
  rw [replies, ← List.filterMap_eq_filter] at given
  obtain ⟨before, same, after, split, kept, count⟩ := split_of_getElem?_filterMap given
  obtain ⟨rfl, numbered⟩ := Option.guard_eq_some_iff.mp kept
  rw [List.filterMap_eq_filter] at count
  refine ⟨before.length, ?_, numbered, ?_⟩
  · rw [split, List.getElem?_append_right (Nat.le_refl _), Nat.sub_self, List.getElem?_cons_zero]
  · rw [split, List.take_left, count]

theorem queries_enterAll (events : List Event) (ledger : Ledger) :
    (ledger.enterAll events).queries = ledger.queries ++ Event.queries events := by
  induction events generalizing ledger with
  | nil => simp [Event.queries]
  | cons event rest ih =>
    rw [enterAll_cons, ih, queries_enter, Event.queries_cons, List.append_assoc]

theorem waited_enterAll (events : List Event) (ledger : Ledger) :
    (ledger.enterAll events).waited = ledger.waited ++ events.filterMap Event.waited? := by
  induction events generalizing ledger with
  | nil => simp
  | cons event rest ih =>
    rw [enterAll_cons, ih, waited_enter, List.filterMap_cons]
    cases event.waited? <;> simp

theorem sayings_spoken (events : List Event) (ledger : Ledger) :
    (ledger.enterAll events).sayings.map (fun saying => some saying.reply) =
      ledger.sayings.map (fun saying => some saying.reply) ++
        if ledger.attended then (Event.spoken events).map Signal.reply? else [] := by
  induction events generalizing ledger with
  | nil => simp [Event.spoken]
  | cons event rest ih =>
    rw [enterAll_cons, ih]
    cases present : ledger.attended <;> cases event with
    | heard signal => cases signal <;> simp [enter, say, present, Event.spoken, Signal.reply?]
    | told command | asked ticket query | ended ticket query result =>
      simp [enter, present, Event.spoken]

/-- What the responder has said are its replies, in order. -/
theorem sayings_replies (events : List Event) :
    (ofEvents events).sayings.map Saying.reply = Event.replies events := by
  have spoken : (ofEvents events).sayings.map (fun saying => some saying.reply) =
      (Event.spoken events).map Signal.reply? := sayings_spoken events {}
  have kept := congrArg (List.filterMap id) spoken
  simpa [List.filterMap_map, Function.comp_def, Event.replies] using kept

theorem ofEvents_append (first second : List Event) :
    ofEvents (first ++ second) = (ofEvents first).enterAll second := enterAll_append ..

end Ledger

end SmtSession

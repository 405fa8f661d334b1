import SmtSession.Proofs.Causality
import SmtSession.Proofs.Printing

/-! Charging: an error about a command that takes no ticket may arrive while a query is unanswered,
and is then charged to that query. From then on every reply is one ticket late, until an answer that
is an error comes when no query is unanswered and is dropped. A wait ends with the answer to its own
query exactly when as many answers were dropped before as errors were charged. -/
namespace SmtSession

/-- Whether the command at a place is a query. -/
def asks (commands : List Command) (place : Nat) : Bool := commands[place]?.any Command.isQuery

/-- What has been said about the first of the commands, with the place of each. -/
def attributed (script : Nat → Option Printout) (count : Nat) (sayings : List Saying) :
    List (Nat × Saying) :=
  (voices script count).zip sayings

/-- How many sayings about other commands have got the ticket of a query. -/
def charged (commands : List Command) (entries : List (Nat × Saying)) : Nat :=
  entries.countP fun entry => !asks commands entry.1 && entry.2.numbered

/-- How many answers to queries have got no ticket. -/
def dropped (commands : List Command) (entries : List (Nat × Saying)) : Nat :=
  entries.countP fun entry => asks commands entry.1 && !entry.2.numbered

variable {commands : List Command} {script : Nat → Option Printout}

/-- Tickets are given to the answers that are not dropped and to the errors that are charged. -/
theorem count_balance (commands : List Command) (entries : List (Nat × Saying)) :
    (entries.countP fun entry => entry.2.numbered) + dropped commands entries =
      (entries.countP fun entry => asks commands entry.1) + charged commands entries := by
  induction entries with
  | nil => rfl
  | cons entry rest ih =>
    simp only [dropped, charged, List.countP_cons] at ih ⊢
    cases asks commands entry.1 <;> cases entry.2.numbered <;> simp <;> omega

/-- If an answer is dropped only where errors were charged and not made up for, no more answers are
dropped than errors are charged. -/
theorem dropped_le_charged {entries : List (Nat × Saying)}
    (owed : ∀ turn place saying, entries[turn]? = some (place, saying) →
      asks commands place = true → saying.numbered = false →
        ((entries.take turn).countP fun entry => asks commands entry.1) <
          (entries.take turn).countP fun entry => entry.2.numbered) :
    dropped commands entries ≤ charged commands entries := by
  suffices held : ∀ turn,
      dropped commands (entries.take turn) ≤ charged commands (entries.take turn) by
    have whole := held entries.length
    rwa [List.take_length] at whole
  intro turn
  induction turn with
  | zero => exact Nat.le_refl 0
  | succ turn ih =>
    cases found : entries[turn]? with
    | none =>
      have short := List.getElem?_eq_none_iff.mp found
      rwa [List.take_of_length_le (by omega), ← List.take_of_length_le short]
    | some entry =>
      have balance := count_balance commands (entries.take turn)
      have due := owed turn entry.1 entry.2 found
      rw [List.take_add_one, found]
      simp only [dropped, charged, List.countP_append, Option.toList_some,
        List.countP_singleton] at ih balance ⊢
      cases asked : asks commands entry.1 <;> cases got : entry.2.numbered <;>
        simp [asked, got] at due ⊢ <;> omega

theorem countP_zip_places {γ : Type} (keep : Nat → Bool) (places : List Nat) (values : List γ) :
    ((places.zip values).countP fun entry => keep entry.1) =
      (places.take values.length).countP keep := by
  induction places generalizing values with
  | nil => simp
  | cons place rest ih => cases values <;> simp [List.countP_cons, ih]

theorem countP_zip_values {γ : Type} (keep : γ → Bool) (places : List Nat) (values : List γ) :
    ((places.zip values).countP fun entry => keep entry.2) =
      (values.take places.length).countP keep := by
  induction places generalizing values with
  | nil => simp
  | cons place rest ih => cases values <;> simp [List.countP_cons, ih]

theorem take_zip {γ : Type} (places : List Nat) (values : List γ) (count : Nat) :
    (places.zip values).take count = (places.take count).zip (values.take count) := by
  simp [List.zip, List.take_zipWith]

theorem countP_take_zip_places {γ : Type} (keep : Nat → Bool) {places : List Nat}
    {values : List γ} {count : Nat} (within : count ≤ values.length) :
    (((places.zip values).take count).countP fun entry => keep entry.1) =
      (places.take count).countP keep := by
  rw [take_zip, countP_zip_places, List.length_take_of_le within, List.take_take, Nat.min_self]

theorem countP_take_zip_values {γ : Type} (keep : γ → Bool) {places : List Nat}
    {values : List γ} {count : Nat} (within : count ≤ places.length) :
    (((places.zip values).take count).countP fun entry => keep entry.2) =
      (values.take count).countP keep := by
  rw [take_zip, countP_zip_values, List.length_take_of_le within, List.take_take, Nat.min_self]

theorem countP_take_lt {γ : Type} {keep : γ → Bool} {values : List γ} {place later : Nat}
    {value : γ} (found : values[place]? = some value) (kept : keep value = true)
    (before : place < later) :
    (values.take place).countP keep < (values.take later).countP keep := by
  have more : (values.take (place + 1)).countP keep ≤ (values.take later).countP keep :=
    (List.take_sublist_take_left before).countP_le
  rw [List.take_add_one, found, List.countP_append] at more
  simp only [Option.toList_some, List.countP_singleton, kept, ↓reduceIte] at more
  omega

/-- Among what was said about the first of the commands, the tickets given and the answers dropped
are as many as the queries and the errors charged. -/
theorem attributed_balance (commands : List Command) (script : Nat → Option Printout) (count : Nat)
    (sayings : List Saying) :
    (sayings.take (voices script count).length).countP Saying.numbered +
        dropped commands (attributed script count sayings) =
      ((voices script count).take sayings.length).countP (asks commands) +
        charged commands (attributed script count sayings) := by
  rw [← countP_zip_values, ← countP_zip_places]
  exact count_balance commands (attributed script count sayings)

theorem getElem?_filter_of_kept {γ : Type} (keep : γ → Bool) {values : List γ} {place : Nat}
    {value : γ} (found : values[place]? = some value) (kept : keep value = true) :
    (values.filter keep)[(values.take place).countP keep]? = some value := by
  induction values generalizing place with
  | nil => cases found
  | cons first rest ih =>
    cases place with
    | zero =>
      obtain rfl := Option.some.inj found
      simp [kept]
    | succ place =>
      have later := ih found
      cases known : keep first <;> simpa [known] using later

theorem countP_asks_range (count : Nat) :
    (List.range count).countP (asks commands) = (commands.take count).countP Command.isQuery := by
  induction count with
  | zero => rfl
  | succ count ih =>
    rw [List.range_succ, List.countP_append, ih, List.take_add_one, List.countP_append]
    cases found : commands[count]? <;> simp [asks, found]

/-- Of the voices no more belong to queries than there are queries. -/
theorem countP_asks_voices_le (count : Nat) :
    (voices script count).countP (asks commands) ≤
      (commands.take count).countP Command.isQuery := by
  rw [← countP_asks_range]
  exact List.filter_sublist.countP_le

/-- Of the first voices, as far as they belong to the commands sent so far, no more belong to
queries than there are queries so far. -/
theorem countP_take_voices_le {earlier : List Command} {count : Nat}
    (sent : earlier <+: commands) (heard : count ≤ (voices script earlier.length).length) :
    ((voices script commands.length).take count).countP (asks commands) ≤
      earlier.countP Command.isQuery := by
  obtain ⟨rest, same⟩ := voices_extend script sent.length_le
  rw [← same, List.take_append_of_le_length heard]
  refine Nat.le_trans (List.take_sublist ..).countP_le ?_
  refine Nat.le_trans (countP_asks_voices_le _) (Nat.le_of_eq ?_)
  rw [← List.prefix_iff_eq_take.mp sent]

theorem countP_asks_voices (count : Nat)
    (answers : ∀ place, asks commands place = true → (script place).isSome = true) :
    (voices script count).countP (asks commands) =
      (commands.take count).countP Command.isQuery := by
  rw [← countP_asks_range, voices, List.countP_filter]
  refine List.countP_congr ?_
  intro place _
  simpa using answers place

theorem Ledger.Accords.queries_commands {ledger : Ledger} {events : List Event}
    (accords : ledger.Accords events) :
    (Event.queries events).length = (Event.commands events).countP Command.isQuery := by
  induction events generalizing ledger with
  | nil => rfl
  | cons event rest ih =>
    obtain ⟨first, later⟩ := accords
    rw [Event.queries_cons, List.length_append, ih later, Event.commands, Event.commands,
      List.filterMap_cons]
    cases event with
    | told command =>
      have tells : command.isQuery = false := first
      simp [Event.query?, Event.command?, tells]
    | asked ticket query => simp [Event.query?, Event.command?, first.1, Nat.add_comm]
    | heard signal | ended ticket query result => simp [Event.query?, Event.command?]

/-- A query stands among the commands behind as many queries as its ticket says. -/
theorem Ledger.Accords.own_place {history earlier later : List Event} {ticket : Nat}
    {query : Command} (accords : Ledger.Accords {} history)
    (asking : history = earlier ++ .asked ticket query :: later) :
    (Event.commands history)[(Event.commands earlier).length]? = some query ∧
      asks (Event.commands history) (Event.commands earlier).length = true ∧
      ((Event.commands history).take (Event.commands earlier).length).countP Command.isQuery =
        ticket := by
  obtain ⟨kind, place⟩ := accords.event asking
  have sent : Event.commands history =
      Event.commands earlier ++ query :: Event.commands later :=
    (congrArg Event.commands asking).trans (Event.commands_append ..)
  have own : (Event.commands history)[(Event.commands earlier).length]? = some query := by
    rw [sent, List.getElem?_append_right (Nat.le_refl _), Nat.sub_self]
    rfl
  refine ⟨own, ?_, ?_⟩
  · rw [asks, own]
    exact kind
  · rw [asking, Ledger.accords_append] at accords
    rw [sent, List.take_left, ← accords.1.queries_commands, place, Ledger.ofEvents,
      Ledger.queries_enterAll]
    rfl

namespace InOrder

variable {history : List Event}

theorem turn_lt {before after : List Event} {signal : Signal} {saying : Saying}
    (inOrder : InOrder script (before ++ .heard signal :: after))
    (added : (Ledger.ofEvents (before ++ [.heard signal])).sayings =
      (Ledger.ofEvents before).sayings ++ [saying]) :
    (Ledger.ofEvents before).sayings.length <
      (voices script (Event.commands before).length).length := by
  rw [List.append_cons] at inOrder
  have last : (Ledger.ofEvents (before ++ [.heard signal])).sayings[
      (Ledger.ofEvents before).sayings.length]? = some saying := by
    rw [added, List.getElem?_concat_length]
  obtain ⟨_, _, voiced, _⟩ := inOrder.earlier.saying_voice last
  have silent : Event.commands [.heard signal] = [] := rfl
  rw [Event.commands_append, silent, List.append_nil] at voiced
  exact (List.getElem?_eq_some_iff.mp voiced).1

/-- The answer to a query gets a ticket if no more were given before than there were queries. -/
theorem numbered_of_few (inOrder : InOrder script history) (accords : Ledger.Accords {} history)
    {turn place : Nat} {saying : Saying}
    (voice : (voices script (Event.commands history).length)[turn]? = some place)
    (query : asks (Event.commands history) place = true)
    (found : (Ledger.ofEvents history).sayings[turn]? = some saying)
    (few : ((Ledger.ofEvents history).sayings.take turn).countP Saying.numbered ≤
      ((voices script (Event.commands history).length).take turn).countP
        (asks (Event.commands history))) :
    saying.numbered = true := by
  obtain ⟨before, signal, after, split, said, numbered, taken, added⟩ :=
    Ledger.saying_ofEvents found
  rw [numbered]
  cases signal with
  | reply reply => rfl
  | cancel | lateCancel ticket | hangUp => cases said
  | error message =>
    refine decide_eq_true ?_
    have commands : Event.commands history = Event.commands before ++ Event.commands after := by
      rw [split, Event.commands_append]
      rfl
    have place_said : (Ledger.ofEvents before).sayings.length = turn := by
      rw [taken, List.length_take_of_le (Nat.le_of_lt (List.getElem?_eq_some_iff.mp found).1)]
    have heard := (split ▸ inOrder).turn_lt added
    rw [place_said] at heard
    have sent : Event.commands before <+: Event.commands history :=
      commands ▸ List.prefix_append ..
    -- the query of this answer has been sent, so there is one more than those answered
    have more := countP_take_voices_le sent (Nat.succ_le_of_lt heard)
    rw [List.take_add_one, voice, List.countP_append] at more
    simp only [Option.toList_some, List.countP_singleton, query, ↓reduceIte] at more
    have replies : (Ledger.ofEvents before).replies.length =
        ((Ledger.ofEvents history).sayings.take turn).countP Saying.numbered := by
      rw [Ledger.replies, taken, List.countP_eq_length_filter]
    have queries : (Ledger.ofEvents before).queries.length =
        (Event.commands before).countP Command.isQuery := by
      rw [split, Ledger.accords_append] at accords
      rw [Ledger.ofEvents, Ledger.queries_enterAll, ← accords.1.queries_commands]
      rfl
    omega

theorem asks_voice (inOrder : InOrder script history) (place : Nat)
    (query : asks (Event.commands history) place = true) : (script place).isSome = true := by
  cases found : (Event.commands history)[place]? with
  | none => simp [asks, found] at query
  | some command =>
    refine inOrder.answers place command found ?_
    simpa [asks, found] using query

/-- Of the answers to the queries before a command no more are dropped than errors are charged. -/
theorem dropped_le (inOrder : InOrder script history) (accords : Ledger.Accords {} history)
    {own : Nat} (inside : own ≤ (Event.commands history).length) :
    dropped (Event.commands history) (attributed script own (Ledger.ofEvents history).sayings) ≤
      charged (Event.commands history)
        (attributed script own (Ledger.ofEvents history).sayings) := by
  refine dropped_le_charged ?_
  intro turn place saying found query lost
  obtain ⟨voice, said⟩ := List.getElem?_zip_eq_some.mp found
  have first := (List.getElem?_eq_some_iff.mp voice).1
  have second := (List.getElem?_eq_some_iff.mp said).1
  obtain ⟨rest, same⟩ := voices_extend script inside
  have placed : (voices script (Event.commands history).length)[turn]? = some place := by
    rw [← same, List.getElem?_append_left first, voice]
  refine Nat.lt_of_not_le ?_
  intro few
  rw [attributed, countP_take_zip_places _ (Nat.le_of_lt second),
    countP_take_zip_values Saying.numbered (Nat.le_of_lt first)] at few
  have kept := inOrder.numbered_of_few accords placed query said
    (by rwa [← same, List.take_append_of_le_length (Nat.le_of_lt first)])
  rw [lost] at kept
  cases kept

/-- The turn of the voice of a query is the one in which its ticket is given exactly when the errors
charged and the answers dropped before it are balanced. -/
theorem turn_eq_iff (inOrder : InOrder script history) (accords : Ledger.Accords {} history)
    {own turn ticket : Nat} {saying : Saying} (inside : own < (Event.commands history).length)
    (query : asks (Event.commands history) own = true)
    (count : ((Event.commands history).take own).countP Command.isQuery = ticket)
    (found : (Ledger.ofEvents history).sayings[turn]? = some saying)
    (numbered : saying.numbered = true)
    (before : ((Ledger.ofEvents history).sayings.take turn).countP Saying.numbered = ticket) :
    turn = (voices script own).length ↔
      charged (Event.commands history) (attributed script own (Ledger.ofEvents history).sayings) =
        dropped (Event.commands history)
          (attributed script own (Ledger.ofEvents history).sayings) := by
  obtain ⟨later, split⟩ := voices_split inside (inOrder.asks_voice own query)
  have balance := attributed_balance (Event.commands history) script own
    (Ledger.ofEvents history).sayings
  have all : (voices script own).countP (asks (Event.commands history)) = ticket :=
    (countP_asks_voices own inOrder.asks_voice).trans count
  have most := (List.take_sublist (Ledger.ofEvents history).sayings.length
    (voices script own)).countP_le (p := asks (Event.commands history))
  have early := (List.getElem?_eq_some_iff.mp found).1
  constructor
  · intro same
    have whole : (voices script own).take (Ledger.ofEvents history).sayings.length =
        voices script own := List.take_of_length_le (by omega)
    rw [whole, all, ← same, before] at balance
    omega
  · intro equal
    rcases Nat.lt_trichotomy turn (voices script own).length with less | same | more
    · -- more tickets than queries before the own one: something was charged and not made up for
      have lower := countP_take_lt found numbered less
      omega
    · exact same
    · -- the own answer got a ticket before, which leaves none of this number for a later one
      have own_said := List.getElem?_eq_getElem (Nat.lt_trans more early)
      have whole : (voices script own).take (Ledger.ofEvents history).sayings.length =
          voices script own := List.take_of_length_le (by omega)
      rw [whole, all] at balance
      have voice := getElem?_voices inside (inOrder.asks_voice own query)
      have kept := inOrder.numbered_of_few accords voice query own_said (by
        rw [split, List.take_left, all]
        omega)
      have higher := countP_take_lt own_said kept more
      omega

theorem place_eq_iff {own turn place : Nat} (inOrder : InOrder script history)
    (inside : own < (Event.commands history).length)
    (query : asks (Event.commands history) own = true)
    (voice : (voices script (Event.commands history).length)[turn]? = some place) :
    place = own ↔ turn = (voices script own).length := by
  have voiced := getElem?_voices inside (inOrder.asks_voice own query)
  constructor
  · rintro rfl
    have apart : (voices script (Event.commands history).length).Nodup :=
      List.nodup_range.sublist List.filter_sublist
    exact (List.getElem?_inj (List.getElem?_eq_some_iff.mp voice).1 apart).mp
      (voice.trans voiced.symm)
  · rintro rfl
    exact Option.some.inj (voice.symm.trans voiced)

end InOrder

namespace Session

variable {β ε : Type} [Backend β] [Emitter ε] {session : Session β ε}

/-- A wait that ends with a reply ends with what was printed about the command whose printout has
got the ticket. That is its own query exactly when, among what was said about the commands before
the query, as many errors were charged as answers were dropped; there are never less. -/
theorem reply_is_own_iff_balanced {config : SessionConfig} {backend : β} {context : Context ε}
    (started : startOn config backend context = .ok session) (external : config.mode = .external)
    (unused : context.exchange = {}) (steps : List Step)
    (inOrder : InOrder script (session.history steps)) :
    ∀ before ticket query reply after,
      session.history steps = before ++ .ended ticket query (.reply reply) :: after →
      let commands := Event.commands before
      let sayings := (Ledger.ofEvents before).sayings
      ∃ own place printout,
        commands[own]? = some query ∧ (commands.take own).countP Command.isQuery = ticket ∧
        script place = some printout ∧ printout.signal.reply? = some reply ∧
        ((attributed script commands.length sayings).filter
          fun entry => entry.2.numbered)[ticket]? = some (place, ⟨reply, true⟩) ∧
        dropped commands (attributed script own sayings) ≤
          charged commands (attributed script own sayings) ∧
        (place = own ↔ charged commands (attributed script own sayings) =
          dropped commands (attributed script own sayings)) := by
  intro before ticket query reply after split commands sayings
  have accords := history_accords started external unused steps
  obtain ⟨_, asked, given⟩ := accords.event split
  rw [split, Ledger.accords_append] at accords
  replace inOrder : InOrder script before := (split ▸ inOrder).earlier
  obtain ⟨earlier, later, asking⟩ := Ledger.asked_split accords.1 asked
  obtain ⟨own, asks_own, count⟩ := accords.1.own_place asking
  obtain ⟨⟨_, _⟩, placed, rfl⟩ := Option.map_eq_some_iff.mp (given reply rfl)
  obtain ⟨turn, found, rfl, before_it⟩ := Ledger.replies_turn placed
  rw [← List.countP_eq_length_filter] at before_it
  obtain ⟨place, printout, voice, prints, said⟩ := inOrder.saying_voice found
  have inside := (List.getElem?_eq_some_iff.mp own).1
  refine ⟨_, place, printout, own, count, prints, said, ?_,
    inOrder.dropped_le accords.1 (Nat.le_of_lt inside),
    (inOrder.place_eq_iff inside asks_own voice).trans
      (inOrder.turn_eq_iff accords.1 inside asks_own count found rfl before_it)⟩
  have entry : (attributed script commands.length sayings)[turn]? = some (place, ⟨_, true⟩) :=
    List.getElem?_zip_eq_some.mpr ⟨voice, found⟩
  have kept := getElem?_filter_of_kept (fun entry => entry.2.numbered) entry rfl
  rwa [attributed, countP_take_zip_values Saying.numbered
    (Nat.le_of_lt (List.getElem?_eq_some_iff.mp voice).1), before_it] at kept

/-- A solver that complains about the first command, and then answers a check. -/
def complaining : Nat → Option Printout
  | 0 => some ⟨["(error \"unknown constant p\")"], .error "unknown constant p", by decide +kernel⟩
  | 1 => some ⟨["sat"], .reply (.outcome .sat), by decide +kernel⟩
  | _ => none

/-- The complaint arrives before the check is submitted. -/
def inTime : List Step :=
  [.call (.apply (.assert (.const "p"))), .signal (.error "unknown constant p"),
    .call .submitCheck, .signal (.reply (.outcome .sat)), .call .awaitOutcome]

/-- The complaint arrives after the check was submitted. -/
def tooLate : List Step :=
  [.call (.apply (.assert (.const "p"))), .call .submitCheck,
    .signal (.error "unknown constant p"), .signal (.reply (.outcome .sat)), .call .awaitOutcome]

/-- Two commands are sent, and what the solver prints about them arrives in order. -/
theorem complaining_inOrder {history : List Event}
    (commands : Event.commands history = [.assert (.const "p"), .checkSat])
    (arrives : ∀ moment < history.length + 1, ∃ count < 3,
      Event.spoken (history.take moment) = (ReplyReader.signals {}
        (((printed complaining (Event.commands (history.take moment)).length).flatMap
          Printout.lines).take count)).1) :
    InOrder complaining history := by
  refine ⟨?_, ?_, ?_⟩
  · intro place command found query
    rw [commands] at found
    match place with
    | 0 | 1 => rfl
    | _ + 2 => cases found
  · intro place command printout found tells prints
    rw [commands] at found
    match place with
    | 0 =>
      obtain rfl := Option.some.inj prints
      exact ⟨_, rfl⟩
    | 1 =>
      obtain rfl := Option.some.inj found
      cases tells
    | _ + 2 => cases found
  · refine (forall_take_iff (fun now => ∃ lines,
      lines <+: (printed complaining (Event.commands now).length).flatMap Printout.lines ∧
        Event.spoken now = (ReplyReader.signals {} lines).1) history).mpr fun moment inside => ?_
    obtain ⟨count, _, heard⟩ := arrives moment inside
    exact ⟨_, List.take_prefix .., heard⟩

def inTimeEvents : List Event :=
  [.told (.assert (.const "p")), .heard (.error "unknown constant p"), .asked 0 .checkSat,
    .heard (.reply (.outcome .sat))]

/-- A complaint that arrives in time is charged to no query. -/
theorem inTime_balanced :
    startOn quick ({} : Shadow) ⟨({} : Transcript), {}, .channel⟩ = .ok impatient ∧
      InOrder complaining (impatient.history inTime) ∧
      impatient.history inTime =
        inTimeEvents ++ .ended 0 .checkSat (.reply (.outcome .sat)) :: [] ∧
      ∃ own place printout, (Event.commands inTimeEvents)[own]? = some .checkSat ∧
        complaining place = some printout ∧
        printout.signal.reply? = some (.outcome .sat) ∧ place = own := by
  have started : startOn quick ({} : Shadow) ⟨({} : Transcript), {}, .channel⟩ =
      .ok impatient := rfl
  have inOrder : InOrder complaining (impatient.history inTime) :=
    complaining_inOrder (by decide +kernel) (by decide +kernel)
  have split : impatient.history inTime =
      inTimeEvents ++ .ended 0 .checkSat (.reply (.outcome .sat)) :: [] := by decide +kernel
  obtain ⟨own, place, printout, asked, _, prints, said, _, _, balanced⟩ :=
    reply_is_own_iff_balanced started rfl rfl inTime inOrder _ _ _ _ _ split
  have own_place : own = 1 :=
    (by decide +kernel : ∀ place < 2,
      (Event.commands inTimeEvents)[place]? = some .checkSat → place = 1)
      own (List.getElem?_eq_some_iff.mp asked).1 asked
  have none_charged : charged (Event.commands inTimeEvents)
        (attributed complaining own (Ledger.ofEvents inTimeEvents).sayings) =
      dropped (Event.commands inTimeEvents)
        (attributed complaining own (Ledger.ofEvents inTimeEvents).sayings) := by
    rw [own_place]
    decide +kernel
  exact ⟨started, inOrder, split, own, place, printout, asked, prints, said,
    balanced.mpr none_charged⟩

/-- A complaint that is late is taken for the answer to the check, which is another. -/
theorem complaint_taken_for_answer :
    startOn quick ({} : Shadow) ⟨({} : Transcript), {}, .channel⟩ = .ok impatient ∧
      InOrder complaining (impatient.history tooLate) ∧
      impatient.history tooLate =
        [.told (.assert (.const "p")), .asked 0 .checkSat, .heard (.error "unknown constant p"),
          .heard (.reply (.outcome .sat)),
          .ended 0 .checkSat (.reply (.error "unknown constant p"))] ∧
      (complaining 1).map Printout.signal = some (.reply (.outcome .sat)) :=
  ⟨rfl, complaining_inOrder (by decide +kernel) (by decide +kernel), by decide +kernel, rfl⟩

end Session

end SmtSession

import SmtSession.Proofs.SessionLedger
import SmtSession.Reply

/-! Responders that print: a solver treats the commands in their order, prints something about some
of them, and the lines arrive in the order in which they are printed, at any later time. What has
been said so far is then about the first of the commands that something is printed about. -/
namespace SmtSession

/-- What a solver prints about one command: lines that are read to one signal. -/
structure Printout where
  lines : List String
  signal : Signal
  reads : ReplyReader.signals {} lines = ([signal], {})

/-- The places of the commands that something is printed about, among the first of the commands. -/
def voices (script : Nat → Option Printout) (count : Nat) : List Nat :=
  (List.range count).filter fun place => (script place).isSome

def printed (script : Nat → Option Printout) (count : Nat) : List Printout :=
  (List.range count).filterMap script

/-- A solver answers each query, prints nothing but errors about other commands, and is heard in
order: at every moment the lines that have arrived are the first of those printed about the commands
sent until then. -/
structure InOrder (script : Nat → Option Printout) (history : List Event) : Prop where
  answers : ∀ place command, (Event.commands history)[place]? = some command →
    command.isQuery = true → (script place).isSome = true
  complains : ∀ place command printout, (Event.commands history)[place]? = some command →
    command.isQuery = false → script place = some printout →
      ∃ message, printout.signal = .error message
  arrives : ∀ moment, ∃ lines,
    lines <+: (printed script (Event.commands (history.take moment)).length).flatMap
      Printout.lines ∧
    Event.spoken (history.take moment) = (ReplyReader.signals {} lines).1

variable {script : Nat → Option Printout}

theorem signals_printouts (printouts : List Printout) :
    ReplyReader.signals {} (printouts.flatMap Printout.lines) =
      (printouts.map Printout.signal, {}) := by
  induction printouts with
  | nil => rfl
  | cons printout rest ih =>
    rw [List.flatMap_cons, ReplyReader.signals_append, printout.reads]
    simp [ih]

theorem voices_extend (script : Nat → Option Printout) {fewer more : Nat} (within : fewer ≤ more) :
    voices script fewer <+: voices script more := by
  obtain ⟨rest, rfl⟩ := Nat.exists_eq_add_of_le within
  rw [voices, voices, List.range_add, List.filter_append]
  exact List.prefix_append ..

theorem voices_split {own count : Nat} (inside : own < count)
    (prints : (script own).isSome = true) :
    ∃ later, voices script count = voices script own ++ own :: later := by
  obtain ⟨later, same⟩ := voices_extend script (Nat.succ_le_of_lt inside)
  refine ⟨later, ?_⟩
  rw [← same, voices, List.range_succ, List.filter_append, List.append_assoc]
  simp [voices, prints]

theorem getElem?_voices {own count : Nat} (inside : own < count)
    (prints : (script own).isSome = true) :
    (voices script count)[(voices script own).length]? = some own := by
  obtain ⟨later, split⟩ := voices_split inside prints
  rw [split, List.getElem?_append_right (Nat.le_refl _), Nat.sub_self]
  rfl

theorem map_printed (script : Nat → Option Printout) (count : Nat) :
    (printed script count).map some = (voices script count).map script := by
  rw [printed, voices]
  induction List.range count with
  | nil => rfl
  | cons place rest ih => cases known : script place <;> simp [known, ih]

namespace InOrder

variable {history : List Event}

theorem earlier {first second : List Event} (inOrder : InOrder script (first ++ second)) :
    InOrder script first := by
  have same (place : Nat) (command : Command)
      (found : (Event.commands first)[place]? = some command) :
      (Event.commands (first ++ second))[place]? = some command := by
    rw [Event.commands_append, List.getElem?_append_left (List.getElem?_eq_some_iff.mp found).1]
    exact found
  refine ⟨?_, ?_, ?_⟩
  · intro place command found
    exact inOrder.answers place command (same place command found)
  · intro place command printout found
    exact inOrder.complains place command printout (same place command found)
  · intro moment
    have held := inOrder.arrives (min moment first.length)
    rw [List.take_append_of_le_length (Nat.min_le_right ..)] at held
    rwa [← List.take_eq_take_min] at held

/-- What has been spoken so far is about the first of the voices. -/
theorem spoken_voices (inOrder : InOrder script history) :
    (Event.spoken history).map some <+:
      (voices script (Event.commands history).length).map
        fun place => (script place).map Printout.signal := by
  obtain ⟨lines, ⟨rest, split⟩, heard⟩ := inOrder.arrives history.length
  rw [List.take_length] at split heard
  have read := signals_printouts (printed script (Event.commands history).length)
  rw [← split, ReplyReader.signals_append] at read
  have whole := congrArg (List.map some) (congrArg Prod.fst read)
  have about := congrArg (List.map (Option.map Printout.signal))
    (map_printed script (Event.commands history).length)
  rw [List.map_map, List.map_map] at about
  rw [heard]
  refine ⟨((ReplyReader.signals {} lines).2.signals rest).1.map some, ?_⟩
  rw [← List.map_append, whole, List.map_map]
  exact about

/-- A saying is what is printed about the command whose voice has the same turn. -/
theorem saying_voice (inOrder : InOrder script history) {turn : Nat} {saying : Saying}
    (found : (Ledger.ofEvents history).sayings[turn]? = some saying) :
    ∃ place printout, (voices script (Event.commands history).length)[turn]? = some place ∧
      script place = some printout ∧ printout.signal.reply? = some saying.reply := by
  have spoken : (Ledger.ofEvents history).sayings.map (fun saying => some saying.reply) =
      (Event.spoken history).map Signal.reply? := Ledger.sayings_spoken history {}
  have heard := congrArg (·[turn]?) spoken
  simp only [List.getElem?_map, found, Option.map_some] at heard
  obtain ⟨signal, placed, said⟩ := Option.map_eq_some_iff.mp heard.symm
  obtain ⟨inside, rfl⟩ := List.getElem?_eq_some_iff.mp placed
  have voiced := List.prefix_iff_getElem?.mp inOrder.spoken_voices turn (by simpa using inside)
  rw [List.getElem?_map, List.getElem_map] at voiced
  obtain ⟨place, known, about⟩ := Option.map_eq_some_iff.mp voiced
  obtain ⟨printout, prints, same⟩ := Option.map_eq_some_iff.mp about
  exact ⟨place, printout, known, prints, same ▸ said⟩

end InOrder

end SmtSession

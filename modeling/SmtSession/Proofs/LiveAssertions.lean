import SmtSession.Proofs.Replay

namespace SmtSession

namespace Command

/-- A command asserts something, itself or with a command of its text. -/
def Asserts : Command → Prop
  | .assert _ => True
  | .verbatim text => ∃ items, Sexp.readAll text = .ok items ∧
      ∃ item ∈ items, item.head? = some "assert"
  | _ => False

def IsText : Command → Prop
  | .verbatim _ => True
  | _ => False

end Command

namespace Shadow

/-- What a shadow is asked for: a change, or the outcome of a check. -/
inductive Request where
  | change (operation : Operation)
  | check

namespace Request

def serve (shadow : Shadow) : Request → Shadow
  | change operation => (Backend.perform operation shadow).2
  | check => (Backend.check shadow).2

def commands : Request → List Command
  | change operation => [operation.command]
  | check => []

/-- A request stays within the depth of the frames, and its text is one that may be asserted. -/
def Permitted (frames : List (List Command)) : Request → Prop
  | change (.pop n) => n < frames.length
  | change (.assertText text) => ∃ declared, Declarations.ofText text = .ok declared
  | _ => True

end Request

def serve (shadow : Shadow) (requests : List Request) : Shadow :=
  requests.foldl Request.serve shadow

def commands (requests : List Request) : List Command := requests.flatMap Request.commands

/-- Every request is permitted in the frames that those before it leave. -/
def Permitted : List (List Command) → List Request → Prop
  | _, [] => True
  | frames, request :: rest =>
    request.Permitted frames ∧ Permitted (request.commands.foldl Replay.act frames) rest

variable {shadow : Shadow}

/-- A shadow serves a permitted request as the replay of its command does. -/
theorem Request.stack_serve {request : Request}
    (permitted : request.Permitted shadow.frames.stack) :
    (request.serve shadow).frames.stack =
      request.commands.foldl Replay.act shadow.frames.stack := by
  cases request with
  | check => rfl
  | change operation =>
    have made : shadow.perform operation = (.ok (), (shadow.perform operation).2) := by
      cases operation with
      | pop n =>
        have enough : n ≤ shadow.depth := Nat.le_of_lt_succ permitted
        simp only [perform, enough, ↓reduceIte]
      | _ => rfl
    exact stack_perform made

theorem stack_serve {requests : List Request}
    (permitted : Permitted shadow.frames.stack requests) :
    (shadow.serve requests).frames.stack =
      (commands requests).foldl Replay.act shadow.frames.stack := by
  induction requests generalizing shadow with
  | nil => rfl
  | cons request rest ih =>
    have step := Request.stack_serve permitted.1
    obtain ⟨-, later⟩ := permitted
    rw [← step] at later
    rw [commands, List.flatMap_cons, List.foldl_append, ← step]
    exact ih later

theorem mem_entries {command : Command} :
    command ∈ shadow.frames.entries ↔ command ∈ shadow.frames.stack.flatten := by
  simp only [Frames.entries, ← Frames.reverse_stack, List.mem_flatten, List.mem_reverse]

theorem mem_assertions {term : Term} :
    term ∈ shadow.assertions ↔ .assert term ∈ shadow.frames.entries := by
  simp only [assertions, List.mem_filterMap]
  constructor
  · rintro ⟨command, member, same⟩
    cases command <;> cases same
    exact member
  · intro member
    exact ⟨_, member, rfl⟩

theorem mem_texts {text : String} :
    text ∈ shadow.texts ↔ .verbatim text ∈ shadow.frames.entries := by
  simp only [texts, List.mem_filterMap]
  constructor
  · rintro ⟨command, member, same⟩
    cases command <;> cases same
    exact member
  · intro member
    exact ⟨_, member, rfl⟩

/-- Terms that were asserted count as assertions, and all texts do. -/
theorem hasAssertion_iff : shadow.hasAssertion = true ↔
    ∃ command ∈ shadow.frames.entries, command.Asserts ∨ command.IsText := by
  rw [hasAssertion, Bool.not_eq_true', Bool.and_eq_false_iff, List.isEmpty_eq_false_iff_exists_mem,
    List.isEmpty_eq_false_iff_exists_mem]
  simp only [mem_assertions, mem_texts]
  constructor
  · rintro (⟨term, member⟩ | ⟨text, member⟩)
    · exact ⟨_, member, .inl trivial⟩
    · exact ⟨_, member, .inr trivial⟩
  · rintro ⟨command, member, counted⟩
    cases command with
    | assert term => exact .inl ⟨term, member⟩
    | verbatim text => exact .inr ⟨text, member⟩
    | _ => exact (counted.elim id id).elim

theorem check_eq_sat_iff : (Backend.check shadow).1 = .ok .sat ↔
    ∀ command ∈ shadow.frames.stack.flatten, ¬command.Asserts ∧ ¬command.IsText := by
  have answer : (Backend.check shadow).1 = .ok shadow.outcome := rfl
  have counted : shadow.outcome = .sat ↔ ¬shadow.hasAssertion = true := by
    simp only [outcome]
    split <;> simp [*]
  rw [answer, Except.ok.injEq, counted, hasAssertion_iff]
  simp only [mem_entries, not_exists, not_and, not_or]

theorem check_of_ne_sat (other : (Backend.check shadow).1 ≠ .ok .sat) :
    (Backend.check shadow).1 = .ok (.unknown "shadow backend does not solve") := by
  have answer : (Backend.check shadow).1 = .ok shadow.outcome := rfl
  rw [answer, outcome] at other ⊢
  split
  · rfl
  · rename_i none
    exact absurd (by rw [if_neg none]) other

/-- Counting the texts too makes no difference exactly where something is asserted, or where there
is no text. -/
theorem counting_texts_iff {live : List Command} :
    ((∀ command ∈ live, ¬command.Asserts ∧ ¬command.IsText) ↔
        ∀ command ∈ live, ¬command.Asserts) ↔
      (∃ command ∈ live, command.Asserts) ∨ ∀ command ∈ live, ¬command.IsText := by
  constructor
  · intro same
    by_cases some : ∃ command ∈ live, command.Asserts
    · exact .inl some
    · have none : ∀ command ∈ live, ¬command.Asserts := by simpa using some
      exact .inr fun command member => (same.mpr none command member).2
  · rintro (⟨command, member, asserts⟩ | noText)
    · exact iff_of_false (fun none => (none command member).1 asserts)
        (fun none => none command member asserts)
    · exact forall₂_congr fun command member => and_iff_left (noText command member)

/-- The check of a shadow that has served requests of all kinds is satisfied when no command is live
that asserts something or is a text, and is unknown otherwise. So it is satisfied exactly when no
assertion is live as soon as one is live, or no text is. -/
theorem check_after_requests (options : List SolverOption) {requests : List Request}
    (permitted : Permitted [[]] requests) :
    let answer := (Backend.check ((configure options {}).serve requests)).1
    let live := (Replay.stack (commands requests)).flatten
    (answer = .ok .sat ↔ ∀ command ∈ live, ¬command.Asserts ∧ ¬command.IsText) ∧
      (answer ≠ .ok .sat → answer = .ok (.unknown "shadow backend does not solve")) ∧
      ((answer = .ok .sat ↔ ∀ command ∈ live, ¬command.Asserts) ↔
        (∃ command ∈ live, command.Asserts) ∨ ∀ command ∈ live, ¬command.IsText) := by
  intro answer live
  have stack : ((configure options {}).serve requests).frames.stack =
      Replay.stack (commands requests) := stack_serve permitted
  have satisfied : answer = .ok .sat ↔ ∀ command ∈ live, ¬command.Asserts ∧ ¬command.IsText := by
    simp only [live, ← stack]
    exact check_eq_sat_iff
  refine ⟨satisfied, check_of_ne_sat, ?_⟩
  rw [satisfied]
  exact counting_texts_iff

/-- Assertions as terms and as text in frames that are left again, with a check between. -/
def scopedRequests : List Request :=
  [.change (.declare "p" .bool), .change .push, .change (.assert (.const "p")), .change .push,
    .check, .change (.assertText "(declare-const q Bool) (assert q)"), .change (.pop 2), .check]

theorem scopedRequests_satisfied :
    Permitted [[]] scopedRequests ∧
      (Replay.stack (commands scopedRequests)).flatten = [.declareConst "p" .bool] ∧
      (Backend.check ((configure [] {}).serve scopedRequests)).1 = .ok .sat ∧
      (Backend.check ((configure [] {}).serve (scopedRequests.take 4))).1 =
        .ok (.unknown "shadow backend does not solve") := by
  have permitted : Permitted [[]] scopedRequests :=
    ⟨trivial, trivial, trivial, trivial, trivial, ⟨[("q", .bool)], rfl⟩,
      show 2 < 3 by decide, trivial, trivial⟩
  have before : Permitted [[]] (scopedRequests.take 4) :=
    ⟨trivial, trivial, trivial, trivial, trivial⟩
  have live : (Replay.stack (commands scopedRequests)).flatten = [.declareConst "p" .bool] := rfl
  obtain ⟨satisfied, _⟩ := check_after_requests [] permitted
  obtain ⟨dissatisfied, unknown, _⟩ := check_after_requests [] before
  refine ⟨permitted, live, satisfied.mpr ?_, unknown fun sat => ?_⟩
  · rw [live]
    simp [Command.Asserts, Command.IsText]
  · have asserted : Command.assert (.const "p") ∈
        (Replay.stack (commands (scopedRequests.take 4))).flatten := by decide
    exact (dissatisfied.mp sat _ asserted).1 trivial

/-- A text that only declares makes the check unknown, and so does the empty text. The same
constant, declared as such, does not. -/
theorem declaring_text_unknown :
    (Backend.check (({} : Shadow).serve [.change (.declare "p" .bool)])).1 = .ok .sat ∧
      (Backend.check (({} : Shadow).serve [.change (.assertText "")])).1 =
        .ok (.unknown "shadow backend does not solve") ∧
      ¬∀ requests : List Request, Permitted [[]] requests →
        ((Backend.check (({} : Shadow).serve requests)).1 = .ok .sat ↔
          ∀ command ∈ (Replay.stack (commands requests)).flatten, ¬command.Asserts) := by
  refine ⟨rfl, rfl, fun rule => ?_⟩
  let declaring : Request := .change (.assertText "(declare-const p Bool)")
  have permitted : Permitted [[]] [declaring] := ⟨⟨[("p", .bool)], rfl⟩, trivial⟩
  have unknown : (Backend.check (({} : Shadow).serve [declaring])).1 =
      .ok (.unknown "shadow backend does not solve") := rfl
  have sat := (rule [declaring] permitted).mpr ?_
  · rw [unknown] at sat
    cases sat
  · intro command member
    obtain rfl := List.mem_singleton.mp member
    rintro ⟨items, read, item, listed, headed⟩
    have items_eq : items = [.list [.atom "declare-const", .atom "p", .atom "Bool"]] :=
      Except.ok.inj (read.symm.trans rfl)
    rw [items_eq, List.mem_singleton] at listed
    rw [listed] at headed
    revert headed
    decide

end Shadow

end SmtSession

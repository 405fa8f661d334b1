import SmtSession.Backend
import SmtSession.Session.Change

/-! The reference replay of a script: what a solver that is sent the commands holds in each frame.
It knows nothing of sessions and backends; both are compared with it. -/
namespace SmtSession

def Command.declares : Command → List (String × SmtSort)
  | .declareConst name sort => [(name, sort)]
  | .verbatim text =>
    match Declarations.ofText text with
    | .ok declared => declared
    | .error _ => []
  | _ => []

namespace Replay

/-- Append a command to the innermost frame, which stands first. -/
def keep (command : Command) : List (List Command) → List (List Command)
  | [] => []
  | top :: below => (top ++ [command]) :: below

def act (frames : List (List Command)) : Command → List (List Command)
  | .declareConst name sort => keep (.declareConst name sort) frames
  | .assert term => keep (.assert term) frames
  | .verbatim text => keep (.verbatim text) frames
  | .push n => List.replicate n [] ++ frames
  | .pop n => frames.drop n
  | .reset => [[]]
  | .checkSat | .getModel | .exit => frames

def stack (commands : List Command) : List (List Command) := commands.foldl act [[]]

theorem stack_concat (commands : List Command) (command : Command) :
    stack (commands ++ [command]) = act (stack commands) command := by
  simp [stack]

end Replay

/-- The constants that the commands of each frame declare. -/
def Replay.declarations (frames : List (List Command)) : List (List (String × SmtSort)) :=
  frames.map (List.flatMap Command.declares)

/-- The frames after all commands, from the outermost inwards. -/
def replay (commands : List Command) : List (List Command) := (Replay.stack commands).reverse

namespace Frames

variable {α : Type} {frames : Frames α}

def stack (frames : Frames α) : List (List α) := frames.top :: frames.below

theorem length_stack : frames.stack.length = frames.depth + 1 := rfl

theorem reverse_stack : frames.stack.reverse = frames.toList := rfl

theorem stack_pop {n : Nat} (enough : n ≤ frames.depth) :
    (frames.pop n).stack = frames.stack.drop n := by
  fun_induction pop n frames with
  | case1 => rfl
  | case2 => simp [depth] at enough
  | case3 n top next below ih =>
    simp only [depth, List.length_cons] at enough ih
    rw [ih (Nat.le_of_succ_le_succ enough)]
    rfl

end Frames

namespace Script

theorem finalDepth?_concat {commands : List Command} {command : Command} {depth : Nat}
    (before : (Script.mk commands).finalDepth? = some depth) :
    (Script.mk (commands ++ [command])).finalDepth? = depthAfter? depth command := by
  simp only [finalDepth?] at before ⊢
  rw [List.foldlM_append, before]
  simp

end Script

namespace Shadow

variable {shadow after : Shadow} {operation : Operation}

/-- A change that the shadow refuses leaves it as it is. -/
theorem perform_error {err : SolverError}
    (refused : shadow.perform operation = (.error err, after)) : after = shadow := by
  cases operation <;> simp only [perform, Prod.mk.injEq, reduceCtorEq, false_and] at refused
  split at refused
  · cases refused
  · exact (Prod.mk.inj refused).2.symm

/-- The shadow makes a change as the replay of its command does. -/
theorem stack_perform (made : shadow.perform operation = (.ok (), after)) :
    after.frames.stack = Replay.act shadow.frames.stack operation.command := by
  cases operation with
  | pop n =>
    simp only [perform] at made
    split at made
    · rename_i enough
      obtain ⟨_, rfl⟩ := Prod.mk.inj made
      exact Frames.stack_pop enough
    · cases made
  | declare name sort | assert term | assertText text | push | reset =>
    obtain ⟨_, rfl⟩ := Prod.mk.inj made
    rfl

end Shadow

namespace Session

variable {β ε : Type} {operation : Operation} {declared : List (String × SmtSort)}

/-- What a session keeps of a change is what its command declares. -/
theorem declares_command (accepted : declarationsOf operation = .ok declared) :
    operation.command.declares = declared := by
  cases operation with
  | assertText text =>
    simp only [declarationsOf] at accepted
    simp only [Operation.command, Command.declares]
    cases known : Declarations.ofText text with
    | ok found =>
      rw [known] at accepted
      exact Except.ok.inj accepted
    | error err =>
      rw [known] at accepted
      cases accepted
  | declare name sort | assert term | push | pop n | reset => exact Except.ok.inj accepted

theorem stack_book (session : Session β ε) {frames : Frames Command}
    (accepted : declarationsOf operation = .ok declared)
    (poppable : session.ensurePoppable operation = .ok ()) (level : session.depth = frames.depth)
    (same : session.frames.stack = Replay.declarations frames.stack) :
    (session.book operation declared).frames.stack =
      Replay.declarations (Replay.act frames.stack operation.command) := by
  obtain ⟨top, below⟩ := List.cons.inj same
  have kept : session.frames.top ++ declared =
      (frames.top ++ [operation.command]).flatMap Command.declares := by
    simp [top, declares_command accepted]
  cases operation with
  | pop n =>
    simp only [ensurePoppable] at poppable
    split at poppable
    · cases poppable
    · rename_i enough
      have lengths := congrArg List.length same
      simp only [Replay.declarations, List.length_map, Frames.length_stack] at lengths
      have bound : n ≤ session.frames.depth := by omega
      exact (Frames.stack_pop bound).trans (same ▸ (List.map_drop ..).symm)
  | push => exact congrArg ([] :: ·) same
  | reset => rfl
  | declare name sort | assert term | assertText text =>
    exact List.cons_eq_cons.mpr ⟨kept, below⟩

theorem depth_book (session : Session β ε)
    (poppable : session.ensurePoppable operation = .ok ())
    (within : (session.book operation declared).depth < UInt32.size) :
    Script.depthAfter? session.depth operation.command =
      some (session.book operation declared).depth := by
  cases operation with
  | pop n =>
    simp only [ensurePoppable] at poppable
    split at poppable
    · cases poppable
    · rename_i enough
      have bound : n ≤ session.depth := by omega
      simp [Operation.command, Script.depthAfter?, book, bound]
  | push => exact if_pos within
  | declare name sort | assert term | assertText text | reset => rfl

/-- The records of a session and the shadow count frames alike. -/
theorem depth_perform (session : Session β ε) {shadow after : Shadow}
    (level : session.depth = shadow.depth)
    (made : shadow.perform operation = (.ok (), after)) :
    (session.book operation declared).depth = after.depth := by
  cases operation with
  | pop n =>
    simp only [Shadow.perform] at made
    split at made
    · obtain ⟨_, rfl⟩ := Prod.mk.inj made
      simp [book, Shadow.depth, level]
    · cases made
  | push =>
    obtain ⟨_, rfl⟩ := Prod.mk.inj made
    exact congrArg (· + 1) level
  | reset =>
    obtain ⟨_, rfl⟩ := Prod.mk.inj made
    rfl
  | declare name sort | assert term | assertText text =>
    obtain ⟨_, rfl⟩ := Prod.mk.inj made
    exact level

end Session

end SmtSession

/-! Stacks of frames. A stack has one frame or more, each a list of entries in the order in which
they were added; opening and closing act on the innermost frame. -/
namespace SmtSession

structure Frames (α : Type) where
  /-- The innermost frame. -/
  top : List α := []
  /-- The frames around it, from the inside outwards. -/
  below : List (List α) := []
  deriving DecidableEq, Repr, Inhabited

namespace Frames

variable {α : Type}

def depth (frames : Frames α) : Nat := frames.below.length

/-- The frames from the outermost inwards. -/
def toList (frames : Frames α) : List (List α) := (frames.top :: frames.below).reverse

def entries (frames : Frames α) : List α := frames.toList.flatten

def add (entries : List α) (frames : Frames α) : Frames α :=
  { frames with top := frames.top ++ entries }

def push (frames : Frames α) : Frames α := { top := [], below := frames.top :: frames.below }

/-- Close the `n` innermost frames; the outermost always stays. -/
def pop : Nat → Frames α → Frames α
  | 0, frames => frames
  | _ + 1, ⟨top, []⟩ => ⟨top, []⟩
  | n + 1, ⟨_, next :: below⟩ => pop n ⟨next, below⟩

@[simp] theorem length_toList (frames : Frames α) : frames.toList.length = frames.depth + 1 := by
  simp [toList, depth]

@[simp] theorem depth_add (entries : List α) (frames : Frames α) :
    (frames.add entries).depth = frames.depth := rfl

@[simp] theorem depth_push (frames : Frames α) : frames.push.depth = frames.depth + 1 := rfl

@[simp] theorem depth_pop (n : Nat) (frames : Frames α) :
    (frames.pop n).depth = frames.depth - n := by
  fun_induction pop n frames with
  | case1 => rfl
  | case2 => simp [depth]
  | case3 n top next below ih =>
    rw [ih]
    simp [depth]

end Frames

end SmtSession

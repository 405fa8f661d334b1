namespace SmtSession

/-- The number of the integers of 128 bits, 2¹²⁸. -/
abbrev Int128.size : Nat := 0x100000000000000000000000000000000

/-- An integer from −2¹²⁷ to 2¹²⁷ − 1. -/
structure Int128 where
  val : Int
  lower : -0x80000000000000000000000000000000 ≤ val
  upper : val < 0x80000000000000000000000000000000
  deriving DecidableEq

namespace Int128

@[ext] theorem ext {a b : Int128} (same : a.val = b.val) : a = b := by
  cases a; cases b; cases same; rfl

def InRange (n : Int) : Prop :=
  -0x80000000000000000000000000000000 ≤ n ∧ n < 0x80000000000000000000000000000000

instance (n : Int) : Decidable (InRange n) := inferInstanceAs (Decidable (_ ∧ _))

/-- The integer itself, when it is in range. -/
def ofInt? (n : Int) : Option Int128 :=
  if range : -0x80000000000000000000000000000000 ≤ n ∧ n < 0x80000000000000000000000000000000 then
    some ⟨n, range.1, range.2⟩
  else none

theorem ofInt?_eq_some_iff {n : Int} {a : Int128} : ofInt? n = some a ↔ a.val = n := by
  unfold ofInt?
  split
  · next range =>
    constructor
    · rintro ⟨⟩; rfl
    · intro same; exact congrArg some (ext same.symm)
  · next outside =>
    constructor
    · intro impossible; cases impossible
    · intro same; exact absurd (same ▸ ⟨a.lower, a.upper⟩) outside

@[simp] theorem ofInt?_val (a : Int128) : ofInt? a.val = some a := ofInt?_eq_some_iff.mpr rfl

/-- The integer in range that differs by a multiple of 2¹²⁸. -/
def wrap (n : Int) : Int128 where
  val := n.bmod size
  lower := by
    have := Int.le_bmod (x := n) (m := size) (by decide)
    simp only [size] at this ⊢
    omega
  upper := by
    have := Int.bmod_lt (x := n) (m := size) (by decide)
    simp only [size] at this ⊢
    omega

/-- Negation, modulo 2¹²⁸ at the lower end of the range. -/
def neg (a : Int128) : Int128 := wrap (-a.val)

def bits (a : Int128) : BitVec 128 := BitVec.ofInt 128 a.val

def ofBits (bits : BitVec 128) : Int128 := wrap bits.toInt

instance : Inhabited Int128 := ⟨wrap 0⟩

end Int128

end SmtSession

namespace SmtSession.Numeral

def decimal (n : Nat) : List Char := Nat.toDigits 10 n

def hexadecimal (n : Nat) : List Char := Nat.toDigits 16 n

/-- Base ten with a minus sign in front of a negative number. -/
def signed (n : Int) : List Char :=
  if n < 0 then '-' :: decimal n.natAbs else decimal n.natAbs

/-- What an ASCII digit, or an ASCII letter from ten on, is worth. -/
def digitValue? (radix : Nat) (c : Char) : Option Nat :=
  let worth :=
    if '0' ≤ c ∧ c ≤ '9' then c.toNat - '0'.toNat
    else if 'a' ≤ c ∧ c ≤ 'z' then c.toNat - 'a'.toNat + 10
    else if 'A' ≤ c ∧ c ≤ 'Z' then c.toNat - 'A'.toNat + 10
    else radix
  if worth < radix then some worth else none

/-- The number that a run of digits continues, begun with `start`. -/
def digitsFrom? (radix start : Nat) : List Char → Option Nat
  | [] => some start
  | c :: rest => (digitValue? radix c).bind fun d => digitsFrom? radix (radix * start + d) rest

/-- One digit or more and nothing else. -/
def digits? (radix : Nat) (cs : List Char) : Option Nat :=
  if cs.isEmpty then none else digitsFrom? radix 0 cs

/-- A leading plus sign says nothing. -/
def withoutPlus : List Char → List Char
  | '+' :: rest => rest
  | cs => cs

/-- A numeral below `bound`, after at most one plus sign. -/
def below? (radix bound : Nat) (cs : List Char) : Option Nat :=
  (digits? radix (withoutPlus cs)).filter (· < bound)

def uint32? (cs : List Char) : Option UInt32 := (below? 10 UInt32.size cs).map UInt32.ofNat

/-- Decimal digits after at most one sign, in the range of 128 bits. -/
def int128? : List Char → Option Int128
  | '-' :: rest => (digits? 10 rest).bind fun n => Int128.ofInt? (-n)
  | cs => (digits? 10 (withoutPlus cs)).bind fun n => Int128.ofInt? n

end SmtSession.Numeral

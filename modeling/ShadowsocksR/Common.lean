import ShadowsocksR.Lib.Chunks
import Mathlib.Algebra.Order.Ring.Rat
import Mathlib.Tactic.Linarith

/-!
# Common definitions

Times as `time.time()` gives them, exceptions, `common.int32` and the numbers
that Python reads.
-/

namespace ShadowsocksR

/-- Seconds, as `time.time()` gives them. -/
abbrev Time := ℚ

/-- `int(time.time()) & 0xFFFFFFFF` -/
def Time.uint32 (t : Time) : ℤ := t.floor % 2 ^ 32

theorem Time.uint32_lt (t : Time) : t.uint32.toNat < 2 ^ 32 := by
  have h₁ := Int.emod_nonneg t.floor (show (2 : ℤ) ^ 32 ≠ 0 by norm_num)
  have h₂ := Int.emod_lt_of_pos t.floor (show (0 : ℤ) < 2 ^ 32 by norm_num)
  rw [Time.uint32]
  omega

/-- `common.int32`: the signed 32-bit integer with the low bits of `x`. -/
def int32 (x : ℤ) : ℤ :=
  let x := if x > 0xFFFFFFFF ∨ x < 0 then x % 2 ^ 32 else x
  if x > 0x7FFFFFFF then
    let x := 0x100000000 - x
    if x < 0x80000000 then -x else -2147483648
  else x

/-- The exceptions that the code raises, or that Python raises in it. -/
inductive PyExc
  | exception
  | osError
  | attributeError
  | indexError
  | keyError
  | nameError
  | recursionError
  | structError
  | typeError
  | valueError
  | zeroDivisionError
  deriving DecidableEq, Repr

/-- `max_time_dif`: 24 hours. -/
def maxTimeDif : ℤ := 60 * 60 * 24

/-- `time_dif`: how far the timestamp of a handshake is from the clock. -/
def timeDif (now : Time) (utcTime : ℕ) : ℤ := int32 (utcTime - now.uint32)

/-- The timestamp of a handshake is inside the accepted window. -/
def InWindow (now : Time) (utcTime : ℕ) : Prop :=
  ¬(timeDif now utcTime < -maxTimeDif ∨ timeDif now utcTime > maxTimeDif)

instance (now : Time) (utcTime : ℕ) : Decidable (InWindow now utcTime) :=
  inferInstanceAs (Decidable (¬_))

/-! ## Numbers in texts -/

/-- The spaces that `int` strips. -/
def isSpace (b : UInt8) : Bool := b == 32 || (9 ≤ b && b ≤ 13)

/-- The digits of a number, with single underscores between them; `sep` says that a digit must
    follow. -/
def pyDigits (n : ℕ) (sep : Bool) : Bytes → Option ℕ
  | [] => if sep then none else some n
  | b :: bs =>
    if 48 ≤ b ∧ b ≤ 57 then pyDigits (10 * n + (b.toNat - 48)) false bs
    else if b = 95 ∧ sep = false then pyDigits n true bs
    else none

/-- `int(text)` -/
def pyInt (text : Bytes) : Option ℤ :=
  let text := ((text.dropWhile isSpace).reverse.dropWhile isSpace).reverse
  match text with
  | 45 :: bs => (pyDigits 0 true bs).map fun n => -(n : ℤ)
  | 43 :: bs => (pyDigits 0 true bs).map Nat.cast
  | bs => (pyDigits 0 true bs).map Nat.cast

end ShadowsocksR

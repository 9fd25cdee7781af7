import Mathlib.Algebra.Order.Field.Power
import Mathlib.Algebra.Order.Floor.Ring
import Mathlib.Algebra.Order.Ring.Rat
import Mathlib.Data.Int.Log
import Mathlib.Data.Rat.Floor
import Mathlib.Tactic.FieldSimp
import Mathlib.Tactic.Linarith
import Mathlib.Tactic.Positivity
import Mathlib.Tactic.Ring

/-!
# Numbers of the format binary64

A number of the format has a significand of at most 53 bits and an exponent of at least -1074.
Operations give the number nearest to the exact result, and of two nearest ones the even one.

* `roundHalfEven`: the nearest integer;
* `toBinary64`: the nearest number of the format, unless it is too large;
* `toBinary64_of_significand`: the numbers of the format are not changed;
* `trueDiv`: the division of two integers.
-/

namespace ShadowsocksR

/-- The nearest integer, or the even one of two. -/
def roundHalfEven (q : ℚ) : ℤ :=
  let n := ⌊q⌋
  if q - n < 1 / 2 then n
  else if 1 / 2 < q - n then n + 1
  else if n % 2 = 0 then n else n + 1

@[simp] theorem roundHalfEven_intCast (n : ℤ) : roundHalfEven n = n := by
  rw [roundHalfEven, Int.floor_intCast, sub_self, if_pos (by norm_num)]

/-- The exponent of the last bit of the significand. -/
def ulpExponent (q : ℚ) : ℤ := max (Int.log 2 |q| - 52) (-1074)

/-- The nearest number of the format. -/
def toBinary64 (q : ℚ) : Option ℚ :=
  let r : ℚ := roundHalfEven (q / 2 ^ ulpExponent q) * 2 ^ ulpExponent q
  if |r| < 2 ^ 1024 then some r else none

/-- A significand of 53 bits has no bits behind the last one. -/
theorem ulpExponent_le {m e : ℤ} (hm : |m| < 2 ^ 53) (hm0 : m ≠ 0) (he : -1074 ≤ e) :
    ulpExponent ((m : ℚ) * 2 ^ e) ≤ e := by
  have hpos : (0 : ℚ) < |(m : ℚ) * 2 ^ e| := abs_pos.2 (mul_ne_zero (by exact_mod_cast hm0)
    (zpow_ne_zero _ (by norm_num)))
  have hlt : |(m : ℚ) * 2 ^ e| < ((2 : ℕ) : ℚ) ^ (53 + e) := by
    rw [abs_mul, abs_of_pos (show (0 : ℚ) < 2 ^ e by positivity), zpow_add₀ (by norm_num)]
    have hm' : |(m : ℚ)| < 2 ^ 53 := by exact_mod_cast hm
    exact mul_lt_mul_of_pos_right (by exact_mod_cast hm') (by positivity)
  have hlog := (Int.lt_zpow_iff_log_lt (by norm_num) hpos).1 hlt
  rw [ulpExponent]
  omega

/-- A number with such a significand is one of the format. -/
theorem toBinary64_of_significand {m e : ℤ} (hm : |m| < 2 ^ 53) (he : -1074 ≤ e) (he' : e ≤ 971) :
    toBinary64 ((m : ℚ) * 2 ^ e) = some ((m : ℚ) * 2 ^ e) := by
  have hround : (roundHalfEven ((m : ℚ) * 2 ^ e / 2 ^ ulpExponent ((m : ℚ) * 2 ^ e)) : ℚ) *
      2 ^ ulpExponent ((m : ℚ) * 2 ^ e) = m * 2 ^ e := by
    rcases eq_or_ne m 0 with rfl | hm0
    · have hzero : roundHalfEven 0 = 0 := roundHalfEven_intCast 0
      simp [hzero]
    · obtain ⟨k, hk⟩ := Int.eq_ofNat_of_zero_le (sub_nonneg.2 (ulpExponent_le hm hm0 he))
      have hdiv : (m : ℚ) * 2 ^ e / 2 ^ ulpExponent ((m : ℚ) * 2 ^ e) =
          ((m * 2 ^ k : ℤ) : ℚ) := by
        rw [mul_div_assoc, ← zpow_sub₀ (by norm_num), hk]
        push_cast
        rw [zpow_natCast]
      rw [hdiv, roundHalfEven_intCast, ← hdiv, div_mul_cancel₀ _ (zpow_ne_zero _ (by norm_num))]
  have hsmall : |(m : ℚ) * 2 ^ e| < 2 ^ 1024 := by
    have hm' : |(m : ℚ)| < 2 ^ 53 := by exact_mod_cast hm
    have hpow : (2 : ℚ) ^ e ≤ 2 ^ (971 : ℤ) := zpow_le_zpow_right₀ (by norm_num) he'
    rw [abs_mul, abs_of_pos (show (0 : ℚ) < 2 ^ e by positivity)]
    calc |(m : ℚ)| * 2 ^ e < 2 ^ 53 * 2 ^ (971 : ℤ) :=
          mul_lt_mul hm' hpow (by positivity) (by positivity)
      _ = 2 ^ 1024 := by rw [zpow_ofNat, ← pow_add]
  rw [toBinary64, hround, if_pos hsmall]

/-- The quotient of two integers as a number of the format; `none` is an exception. -/
def trueDiv (a b : ℤ) : Option ℚ := if b = 0 then none else toBinary64 ((a : ℚ) / b)

/-- A division by a power of two is exact, when the integer is. -/
theorem trueDiv_two_pow {a : ℤ} {k : ℕ} (ha : |a| < 2 ^ 53) (hk : k ≤ 1074) :
    trueDiv a (2 ^ k) = some ((a : ℚ) / 2 ^ k) := by
  have hdiv : (a : ℚ) / ((2 ^ k : ℤ) : ℚ) = a * 2 ^ (-(k : ℤ)) := by
    push_cast
    rw [div_eq_mul_inv, zpow_neg, zpow_natCast]
  rw [trueDiv, if_neg (by positivity), hdiv, toBinary64_of_significand ha (by omega) (by omega),
    ← hdiv, Int.cast_pow, Int.cast_ofNat]

end ShadowsocksR

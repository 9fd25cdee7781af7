import Mathlib.Algebra.Order.Field.Basic
import Mathlib.Tactic.Linarith

/-!
# Leaky buckets

A bucket that leaks at a rate, and into which amounts are poured. It leaks when
it is looked at, by the time since it was last looked at, and never below
empty: time is accounted piece by piece.

* `add_level_le`: what a pour adds to the level, and what has leaked at most;
* `Within`: a sequence of pours that never leaves more than a bound in it;
* `poured_le`: of such a sequence, no interval of time holds more than has
  leaked in it and the bound.
-/

namespace ShadowsocksR

/-- What is in a bucket, and when it was last looked at. -/
structure LeakyBucket (K : Type) where
  level : K
  last : K

namespace LeakyBucket

variable {K : Type} [Field K] [LinearOrder K]

/-- The bucket after it has leaked. -/
def drain (rate : K) (b : LeakyBucket K) (now : K) : LeakyBucket K where
  level := max 0 (b.level - (now - b.last) * rate)
  last := now

/-- An amount is poured into the bucket; looking at it is pouring nothing. -/
def pour (rate : K) (b : LeakyBucket K) (now amount : K) : LeakyBucket K where
  level := (b.drain rate now).level + amount
  last := now

/-- A sequence of pours, each with its time, in the order of time, after none of which there is
    more than a bound in the bucket. -/
def Within (rate bound : K) : LeakyBucket K → List (K × K) → Prop
  | b, [] => b.level ≤ bound
  | b, (now, amount) :: pours =>
    b.level ≤ bound ∧ b.last ≤ now ∧ 0 ≤ amount ∧ Within rate bound (b.pour rate now amount) pours

/-- What is poured from the time `s` to the time `t`. -/
def poured (s t : K) (pours : List (K × K)) : K :=
  ((pours.filter fun p => s ≤ p.1 ∧ p.1 ≤ t).map Prod.snd).sum

@[simp] theorem last_pour (rate : K) (b : LeakyBucket K) (now amount : K) :
    (b.pour rate now amount).last = now := rfl

@[simp] theorem poured_nil (s t : K) : poured s t [] = 0 := rfl

theorem poured_cons (s t now amount : K) (pours : List (K × K)) :
    poured s t ((now, amount) :: pours) =
      (if s ≤ now ∧ now ≤ t then amount else 0) + poured s t pours := by
  rw [poured, List.filter_cons]
  by_cases h : s ≤ now ∧ now ≤ t
  · simp [h, poured]
  · simp [h, poured]

theorem level_drain_nonneg (rate : K) (b : LeakyBucket K) (now : K) :
    0 ≤ (b.drain rate now).level := le_max_left _ _

section

variable {rate bound : K} {b : LeakyBucket K} {pours : List (K × K)}

theorem Within.level_le (h : Within rate bound b pours) : b.level ≤ bound := by
  cases pours with
  | nil => exact h
  | cons p pours => exact h.1

/-- Nothing is poured before the bucket was last looked at. -/
theorem Within.poured_eq_zero (h : Within rate bound b pours) (s : K) {t : K} (ht : t < b.last) :
    poured s t pours = 0 := by
  induction pours generalizing b with
  | nil => rfl
  | cons p pours ih =>
    obtain ⟨now, amount⟩ := p
    obtain ⟨-, hnow, -, hrest⟩ := h
    have hlate : t < now := lt_of_lt_of_le ht hnow
    rw [poured_cons, if_neg (fun hin => absurd hin.2 (not_le.2 hlate)), zero_add]
    exact ih hrest hlate

end

variable [IsStrictOrderedRing K] {rate bound : K} {b : LeakyBucket K} {pours : List (K × K)}

/-- A bucket that has leaked holds no more than before. -/
theorem level_drain_le {now : K} (hrate : 0 ≤ rate) (hb : 0 ≤ b.level) (hnow : b.last ≤ now) :
    (b.drain rate now).level ≤ b.level := by
  have hleak : 0 ≤ (now - b.last) * rate := mul_nonneg (sub_nonneg.2 hnow) hrate
  exact max_le hb (by linarith)

/-- At most so much has leaked when an amount is poured. -/
theorem add_level_le (rate : K) (b : LeakyBucket K) (now amount : K) :
    b.level + amount ≤ (b.pour rate now amount).level + (now - b.last) * rate := by
  have hdrain : b.level - (now - b.last) * rate ≤ (b.drain rate now).level := le_max_right _ _
  rw [pour]
  linarith

/-- From now on, what is poured has leaked or is still there. -/
theorem Within.poured_from_le (h : Within rate bound b pours) (hrate : 0 ≤ rate) (s : K) {t : K}
    (hs : s ≤ b.last) (ht : b.last ≤ t) :
    poured s t pours ≤ rate * (t - b.last) + bound - b.level := by
  -- The induction is on the pours: what one of them adds is in the level that the next one finds, but
  -- for what has leaked in between.
  induction pours generalizing b with
  | nil =>
    have hleak : 0 ≤ rate * (t - b.last) := mul_nonneg hrate (sub_nonneg.2 ht)
    have hlevel : b.level ≤ bound := h
    rw [poured_nil]
    linarith
  | cons p pours ih =>
    obtain ⟨now, amount⟩ := p
    obtain ⟨hlevel, hnow, -, hrest⟩ := h
    by_cases hlate : now ≤ t
    · rw [poured_cons, if_pos ⟨hs.trans hnow, hlate⟩]
      have hle := ih hrest (hs.trans hnow) hlate
      have hstep := add_level_le rate b now amount
      rw [last_pour] at hle
      linarith
    · -- Time goes on, so nothing else is poured before `t`.
      rw [poured_cons, if_neg (fun hin => hlate hin.2),
        hrest.poured_eq_zero s (not_le.1 hlate), add_zero]
      have hleak : 0 ≤ rate * (t - b.last) := mul_nonneg hrate (sub_nonneg.2 ht)
      linarith

/-- No interval of time holds more than what leaks in it and the bound. -/
theorem Within.poured_le (h : Within rate bound b pours) (hrate : 0 ≤ rate) (hb : 0 ≤ b.level)
    {s t : K} (hst : s ≤ t) : poured s t pours ≤ rate * (t - s) + bound := by
  have hleak : 0 ≤ rate * (t - s) := mul_nonneg hrate (sub_nonneg.2 hst)
  have hbound : 0 ≤ bound := hb.trans h.level_le
  induction pours generalizing b with
  | nil =>
    rw [poured_nil]
    linarith
  | cons p pours ih =>
    obtain ⟨now, amount⟩ := p
    obtain ⟨-, hnow, hamount, hrest⟩ := h
    have hdrain := level_drain_nonneg rate b now
    have hlevel : (b.pour rate now amount).level = (b.drain rate now).level + amount := rfl
    rw [poured_cons]
    by_cases hearly : now < s
    · rw [if_neg (fun hin => absurd hin.1 (not_le.2 hearly)), zero_add]
      exact ih hrest (by linarith)
    · by_cases hlate : now ≤ t
      · -- The first pour of the interval: what is there before it is not in the way of the bound.
        rw [if_pos ⟨not_lt.1 hearly, hlate⟩]
        have hle := hrest.poured_from_le hrate s (not_lt.1 hearly) hlate
        have hshort : rate * (t - now) ≤ rate * (t - s) :=
          mul_le_mul_of_nonneg_left (sub_le_sub_left (not_lt.1 hearly) t) hrate
        rw [last_pour] at hle
        linarith
      · rw [if_neg (fun hin => hlate hin.2), hrest.poured_eq_zero s (not_le.1 hlate)]
        linarith

end LeakyBucket

end ShadowsocksR

import ShadowsocksR.Lib.LeakyBucket
import ShadowsocksR.TcpRelay.SpeedLimit

/-!
# The bound of a speed limit

`handle_event` asks a limiter with `isExceed`, and when the answer is no, the
connection reads, and says how much with `add`. Any number of connections share
a limiter; each of them does both before another one does anything.

* `step`: the calls of the connections, in the order of the clock;
* `within_exec`: the limiter is a leaky bucket (`LeakyBucket`), which never
  holds more than the bytes of a second and of one read;
* `bounded_exec`: what is read in any interval of time.
-/

namespace ShadowsocksR

namespace SpeedTester

/-- The limiter as a bucket that leaks at its speed. -/
def bucket (s : SpeedTester) : LeakyBucket ℚ where
  level := s.sumLen
  last := s.lastTime

/-- A call of one of the two methods. -/
inductive Call
  | isExceed (now : Time)
  | add (now : Time) (dataLen : ℕ)

namespace Call

def now : Call → Time
  | isExceed now => now
  | add now _ => now

/-- How many bytes the call adds. -/
def dataLen : Call → ℕ
  | isExceed _ => 0
  | add _ dataLen => dataLen

end Call

/-- A limiter that connections share. -/
structure Shared where
  tester : SpeedTester
  /-- The call just before was of `isExceed`, and has returned `False`. -/
  mayAdd : Bool := false

/-- A call, at a time when `handle_event` makes it. -/
def step (s : Shared) : Call → Option Shared
  | .isExceed now =>
    let (exceed, tester) := s.tester.isExceed now
    some { tester, mayAdd := !exceed }
  | .add now dataLen => if s.mayAdd then some { tester := s.tester.add now dataLen } else none

/-- What is added from the time `s` to the time `t`. -/
def addedBetween (s t : Time) (calls : List Call) : ℕ :=
  ((calls.filter fun c => s ≤ c.now ∧ c.now ≤ t).map Call.dataLen).sum

/-! ## The limiter is a leaky bucket -/

section

variable {s : SpeedTester}

theorem bucket_drain (s : SpeedTester) (now : Time) :
    (s.drain now).bucket = s.bucket.drain s.maxSpeed now := by
  rw [bucket, LeakyBucket.drain, drain, LeakyBucket.mk.injEq]
  refine ⟨?_, rfl⟩
  change (if s.sumLen - _ < 0 then 0 else s.sumLen - _) = max 0 (s.sumLen - _)
  split_ifs with hneg
  · exact (max_eq_left hneg.le).symm
  · exact (max_eq_right (not_lt.1 hneg)).symm

theorem bucket_add (hs : 0 < s.maxSpeed) (now : Time) (dataLen : ℕ) :
    (s.add now dataLen).bucket = s.bucket.pour s.maxSpeed now dataLen := by
  rw [add, if_pos hs, LeakyBucket.pour, ← bucket_drain]
  rfl

theorem bucket_isExceed (hs : 0 < s.maxSpeed) (now : Time) :
    (s.isExceed now).2.bucket = s.bucket.pour s.maxSpeed now 0 := by
  rw [isExceed, if_pos hs, LeakyBucket.pour, ← bucket_drain, add_zero]
  rfl

/-- The answer is no when there is less than the bytes of a second. -/
theorem isExceed_eq_false_iff (hs : 0 < s.maxSpeed) (now : Time) :
    (s.isExceed now).1 = false ↔ (s.isExceed now).2.sumLen < s.maxSpeed := by
  rw [isExceed, if_pos hs]
  exact (decide_eq_false_iff_not).trans not_le

end

/-! ## Runs -/

/-- What holds of a limiter between calls: at most the bytes of a second and of one read are in it,
    and when it has just said no, less than those of a second. -/
structure Shared.Valid (R : ℚ) (B : ℕ) (s : Shared) : Prop where
  maxSpeed_eq : s.tester.maxSpeed = R
  nonneg : 0 ≤ s.tester.sumLen
  le : s.tester.sumLen ≤ R + B
  lt_of_mayAdd : s.mayAdd = true → s.tester.sumLen < R

section

variable {R : ℚ} {B : ℕ} {s s' : Shared}

theorem step_isExceed (s : Shared) (now : Time) : step s (.isExceed now) =
    some { tester := (s.tester.isExceed now).2, mayAdd := !(s.tester.isExceed now).1 } := rfl

theorem Shared.Valid.isExceed (h : s.Valid R B) (hR : 0 < R) {now : Time}
    (hnow : s.tester.lastTime ≤ now) (hstep : step s (.isExceed now) = some s') :
    s'.Valid R B ∧ s'.tester.bucket = s.tester.bucket.pour R now 0 := by
  have hspeed : 0 < s.tester.maxSpeed := by rw [h.maxSpeed_eq]; exact hR
  rw [step_isExceed, Option.some.injEq] at hstep
  subst hstep
  have hbucket := bucket_isExceed hspeed now
  rw [h.maxSpeed_eq] at hbucket
  have hlevel : (s.tester.isExceed now).2.sumLen = (s.tester.bucket.drain R now).level := by
    rw [← add_zero (LeakyBucket.level _)]
    exact congrArg LeakyBucket.level hbucket
  have hle : (s.tester.bucket.drain R now).level ≤ s.tester.sumLen :=
    LeakyBucket.level_drain_le hR.le h.nonneg hnow
  refine ⟨⟨?_, ?_, ?_, fun hmay => ?_⟩, hbucket⟩
  · rw [maxSpeed_isExceed]
    exact h.maxSpeed_eq
  · rw [hlevel]
    exact LeakyBucket.level_drain_nonneg R _ now
  · rw [hlevel]
    exact hle.trans h.le
  · rw [← h.maxSpeed_eq]
    refine (isExceed_eq_false_iff hspeed now).1 ?_
    exact (Bool.not_eq_true' _).mp hmay

theorem Shared.Valid.add (h : s.Valid R B) (hR : 0 < R) {now : Time} {dataLen : ℕ}
    (hnow : s.tester.lastTime ≤ now) (hle : dataLen ≤ B)
    (hstep : step s (.add now dataLen) = some s') :
    s'.Valid R B ∧ s'.tester.bucket = s.tester.bucket.pour R now dataLen := by
  have hspeed : 0 < s.tester.maxSpeed := by rw [h.maxSpeed_eq]; exact hR
  rw [step] at hstep
  split_ifs at hstep with hmay
  cases hstep
  have hbucket := bucket_add hspeed now dataLen
  rw [h.maxSpeed_eq] at hbucket
  have hlevel : (s.tester.add now dataLen).sumLen =
      (s.tester.bucket.drain R now).level + dataLen := congrArg LeakyBucket.level hbucket
  have hdrain : (s.tester.bucket.drain R now).level ≤ s.tester.sumLen :=
    LeakyBucket.level_drain_le hR.le h.nonneg hnow
  have hlt := h.lt_of_mayAdd hmay
  have hB : (dataLen : ℚ) ≤ B := Nat.cast_le.2 hle
  refine ⟨⟨?_, ?_, ?_, fun hno => nomatch hno⟩, hbucket⟩
  · rw [maxSpeed_add]
    exact h.maxSpeed_eq
  · rw [hlevel]
    exact add_nonneg (LeakyBucket.level_drain_nonneg R _ now) (Nat.cast_nonneg _)
  · rw [hlevel]
    linarith

/-- Every call pours what it adds. -/
theorem Shared.Valid.step (h : s.Valid R B) (hR : 0 < R) {c : Call}
    (hnow : s.tester.lastTime ≤ c.now) (hle : c.dataLen ≤ B) (hstep : step s c = some s') :
    s'.Valid R B ∧ s'.tester.bucket = s.tester.bucket.pour R c.now c.dataLen := by
  cases c with
  | isExceed now =>
    rw [Call.dataLen, Nat.cast_zero]
    exact h.isExceed hR hnow hstep
  | add now dataLen => exact h.add hR hnow hle hstep

/-- A run of calls in the order of time is a sequence of pours into the bucket. -/
theorem within_exec (h : s.Valid R B) (hR : 0 < R) {calls : List Call}
    (hclock : (s.tester.lastTime :: calls.map Call.now).Pairwise (· ≤ ·))
    (hle : ∀ c ∈ calls, c.dataLen ≤ B) (hrun : Run.exec step s calls = some s') :
    s'.Valid R B ∧
      s.tester.bucket.Within R (R + B) (calls.map fun c => (c.now, (c.dataLen : ℚ))) := by
  induction calls generalizing s with
  | nil =>
    cases hrun
    exact ⟨h, h.le⟩
  | cons c calls ih =>
    obtain ⟨s₁, hstep, hrest⟩ := Run.exec_cons_eq_some.1 hrun
    rw [List.map_cons, List.pairwise_cons] at hclock
    have hnow : s.tester.lastTime ≤ c.now := hclock.1 _ List.mem_cons_self
    obtain ⟨h₁, hbucket⟩ := h.step hR hnow (hle c List.mem_cons_self) hstep
    have hlast : s₁.tester.lastTime = c.now := congrArg LeakyBucket.last hbucket
    obtain ⟨h', hwithin⟩ := ih h₁ (by rw [hlast]; exact hclock.2)
      (fun c' hc' => hle c' (List.mem_cons_of_mem _ hc')) hrest
    rw [hbucket] at hwithin
    exact ⟨h', h.le, hnow, Nat.cast_nonneg _, hwithin⟩

end

theorem poured_map (s t : Time) (calls : List Call) :
    LeakyBucket.poured s t (calls.map fun c => (c.now, (c.dataLen : ℚ))) =
      addedBetween s t calls := by
  induction calls with
  | nil => rfl
  | cons c calls ih =>
    rw [List.map_cons, LeakyBucket.poured_cons, ih, addedBetween, addedBetween, List.filter_cons]
    by_cases hin : s ≤ c.now ∧ c.now ≤ t
    · simp [hin]
    · simp [hin]

/-- Over every interval of time, no more is added than the speed allows, with the bytes of a second
    and of one read besides; and there are never less than no bytes in the limiter. -/
theorem bounded_exec {maxSpeed : ℚ} (hspeed : 0 < maxSpeed) (now : Time) (B : ℕ)
    {calls : List Call} (hclock : (now :: calls.map Call.now).Pairwise (· ≤ ·))
    (hle : ∀ c ∈ calls, c.dataLen ≤ B) {s' : Shared}
    (hrun : Run.exec step { tester := new maxSpeed now } calls = some s') :
    0 ≤ s'.tester.sumLen ∧ ∀ s t, s ≤ t →
      (addedBetween s t calls : ℚ) ≤ maxSpeed * 1024 * (t - s) + maxSpeed * 1024 + B := by
  have hR : 0 < maxSpeed * 1024 := by linarith
  have hB : (0 : ℚ) ≤ B := Nat.cast_nonneg _
  have hvalid : Shared.Valid (maxSpeed * 1024) B { tester := new maxSpeed now } :=
    ⟨rfl, le_rfl, add_nonneg hR.le hB, fun hno => nomatch hno⟩
  obtain ⟨hvalid', hwithin⟩ := within_exec hvalid hR hclock hle hrun
  -- The bound of the bucket, from an empty one: the bytes of a second and those of a read.
  refine ⟨hvalid'.nonneg, fun s t hst => ?_⟩
  rw [← poured_map, add_assoc]
  exact hwithin.poured_le hR.le le_rfl hst

/-- Two connections read, one after the other. -/
def twoReads : List Call := [.isExceed 0, .add 0 1000, .isExceed 1, .add 1 1000]

theorem bounded_exec_twoReads : (addedBetween 0 1 twoReads : ℚ) ≤
    1 * 1024 * (1 - 0) + 1 * 1024 + (1000 : ℕ) := by
  have hrun : (Run.exec step { tester := new 1 0 } twoReads).isSome = true := by decide +kernel
  obtain ⟨s', hs'⟩ := Option.isSome_iff_exists.1 hrun
  exact (bounded_exec (by norm_num) 0 1000 (by simp [twoReads, Call.now])
    (by simp [twoReads, Call.dataLen]) hs').2 0 1 (by norm_num)

end SpeedTester

end ShadowsocksR

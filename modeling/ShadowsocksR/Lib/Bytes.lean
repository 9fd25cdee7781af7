import Mathlib.Data.List.Basic
import Mathlib.Tactic.NormNum
import Mathlib.Data.Nat.Bitwise

/-!
# Byte strings

Byte strings as lists of bytes, numbers in them, and slices with
bounds that may be negative, counting from the end.

* `packLE`, `unpackLE`: a number as little-endian bytes, and back, and `packBE`,
  `unpackBE` with the highest byte first;
* `takeTo`, `dropTo`: the slices `l[:i]` and `l[i:]`;
* `xor_xor_cancel`, `xor_lt`: masking a number with another one.
-/

namespace ShadowsocksR

/-- A byte string. -/
abbrev Bytes := List UInt8

/-! ## Numbers -/

/-- The `n` low bytes of a number, the lowest first. -/
def packLE : ℕ → ℕ → Bytes
  | 0, _ => []
  | n + 1, x => UInt8.ofNat x :: packLE n (x / 256)

/-- The number with these bytes, the lowest first. -/
def unpackLE : Bytes → ℕ
  | [] => 0
  | b :: bs => b.toNat + 256 * unpackLE bs

/-- The `n` low bytes of a number, the highest first. -/
def packBE (n x : ℕ) : Bytes := (packLE n x).reverse

/-- The number with these bytes, the highest first. -/
def unpackBE (bs : Bytes) : ℕ := unpackLE bs.reverse

@[simp] theorem length_packLE (n x : ℕ) : (packLE n x).length = n := by
  induction n generalizing x with
  | zero => rfl
  | succ n ih => rw [packLE, List.length_cons, ih]

theorem packLE_append_ne_nil (n x : ℕ) (bs : Bytes) : packLE (n + 1) x ++ bs ≠ [] :=
  List.cons_ne_nil _ _

theorem unpackLE_lt (bs : Bytes) : unpackLE bs < 256 ^ bs.length := by
  induction bs with
  | nil => simp [unpackLE]
  | cons b bs ih =>
    have hb := b.toNat_lt
    rw [unpackLE, List.length_cons, pow_succ]
    omega

theorem unpackLE_packLE {n x : ℕ} (h : x < 256 ^ n) : unpackLE (packLE n x) = x := by
  induction n generalizing x with
  | zero => simp at h; simp [packLE, unpackLE, h]
  | succ n ih =>
    have hx : x / 256 < 256 ^ n := by
      rw [pow_succ] at h
      exact Nat.div_lt_of_lt_mul (by omega)
    rw [packLE, unpackLE, ih hx, UInt8.toNat_ofNat']
    omega

@[simp] theorem length_packBE (n x : ℕ) : (packBE n x).length = n := by
  rw [packBE, List.length_reverse, length_packLE]

theorem unpackBE_packBE {n x : ℕ} (h : x < 256 ^ n) : unpackBE (packBE n x) = x := by
  rw [unpackBE, packBE, List.reverse_reverse, unpackLE_packLE h]

theorem unpackBE_lt (bs : Bytes) : unpackBE bs < 256 ^ bs.length := by
  rw [← List.length_reverse]
  exact unpackLE_lt bs.reverse

theorem unpackLE_append (bs bs' : Bytes) :
    unpackLE (bs ++ bs') = unpackLE bs + 256 ^ bs.length * unpackLE bs' := by
  induction bs with
  | nil => simp [unpackLE]
  | cons b bs ih =>
    rw [List.cons_append, unpackLE, unpackLE, ih, List.length_cons, pow_succ', Nat.mul_add,
      Nat.add_assoc, Nat.mul_assoc]

theorem unpackBE_append (bs bs' : Bytes) :
    unpackBE (bs ++ bs') = 256 ^ bs'.length * unpackBE bs + unpackBE bs' := by
  rw [unpackBE, List.reverse_append, unpackLE_append, List.length_reverse]
  exact Nat.add_comm _ _

theorem packLE_unpackLE (bs : Bytes) : packLE bs.length (unpackLE bs) = bs := by
  induction bs with
  | nil => rfl
  | cons b bs ih =>
    have hb := b.toNat_lt
    have hlow : UInt8.ofNat (unpackLE (b :: bs)) = b := by
      rw [unpackLE]
      apply UInt8.toNat_inj.1
      rw [UInt8.toNat_ofNat']
      omega
    have hhigh : unpackLE (b :: bs) / 256 = unpackLE bs := by
      rw [unpackLE]
      omega
    rw [List.length_cons, packLE, hlow, hhigh, ih]

theorem packLE_unpackLE_of_length {n : ℕ} {bs : Bytes} (h : bs.length = n) :
    packLE n (unpackLE bs) = bs := h ▸ packLE_unpackLE bs

theorem packBE_unpackBE_of_length {n : ℕ} {bs : Bytes} (h : bs.length = n) :
    packBE n (unpackBE bs) = bs := by
  rw [packBE, unpackBE, packLE_unpackLE_of_length (by rw [List.length_reverse, h]),
    List.reverse_reverse]

/-! ## Masks -/

theorem xor_xor_cancel (a b : ℕ) : (a ^^^ b) ^^^ b = a := by
  rw [Nat.xor_assoc, Nat.xor_self, Nat.xor_zero]

/-- Masking keeps a number within its bytes. -/
theorem xor_lt {a b n : ℕ} (ha : a < 256 ^ n) (hb : b < 256 ^ n) : a ^^^ b < 256 ^ n := by
  have hpow : (256 : ℕ) ^ n = 2 ^ (8 * n) := by rw [pow_mul]; norm_num
  rw [hpow] at ha hb ⊢
  exact Nat.xor_lt_two_pow ha hb

/-- Masking the bytes with the same mask again gives them back. -/
theorem unmask {n : ℕ} {bs mask : Bytes} (h : bs.length = n) (hm : mask.length ≤ n) :
    packLE n (unpackLE (packLE n (unpackLE bs ^^^ unpackLE mask)) ^^^ unpackLE mask) = bs := by
  have hlt : unpackLE bs ^^^ unpackLE mask < 256 ^ n :=
    xor_lt (h ▸ unpackLE_lt bs)
      ((unpackLE_lt mask).trans_le (Nat.pow_le_pow_right (by norm_num) hm))
  rw [unpackLE_packLE hlt, xor_xor_cancel, packLE_unpackLE_of_length h]

/-! ## Slices -/

/-- The position in a list of length `n` that the bound `i` of a slice means. -/
def sliceIndex (n : ℕ) (i : ℤ) : ℕ := if i < 0 then (n + i).toNat else i.toNat

theorem sliceIndex_natCast (n i : ℕ) : sliceIndex n (i : ℤ) = i := by
  rw [sliceIndex, if_neg (by omega), Int.toNat_natCast]

/-- `l[:i]` -/
def takeTo {α : Type} (i : ℤ) (l : List α) : List α := l.take (sliceIndex l.length i)

/-- `l[i:]` -/
def dropTo {α : Type} (i : ℤ) (l : List α) : List α := l.drop (sliceIndex l.length i)

/-- `l[i:j]` -/
def slice {α : Type} (i j : ℤ) (l : List α) : List α :=
  (l.take (sliceIndex l.length j)).drop (sliceIndex l.length i)

variable {α : Type}

theorem takeTo_append_dropTo (i : ℤ) (l : List α) : takeTo i l ++ dropTo i l = l :=
  List.take_append_drop _ _

@[simp] theorem takeTo_natCast (n : ℕ) (l : List α) : takeTo (n : ℤ) l = l.take n := by
  rw [takeTo, sliceIndex_natCast]

@[simp] theorem dropTo_natCast (n : ℕ) (l : List α) : dropTo (n : ℤ) l = l.drop n := by
  rw [dropTo, sliceIndex_natCast]

@[simp] theorem slice_natCast (i j : ℕ) (l : List α) : slice (i : ℤ) (j : ℤ) l = l.extract i j := by
  rw [slice, sliceIndex_natCast, sliceIndex_natCast, List.extract_eq_take_drop, List.drop_take]

/-- The position that a number of elements from the end means. -/
theorem sliceIndex_neg {n i : ℕ} (hi : 0 < i) : sliceIndex n (-(i : ℤ)) = n - i := by
  rw [sliceIndex, if_pos (by omega)]
  omega

/-- The first one of two parts. -/
theorem takeTo_neg {l r : List α} {i : ℕ} (hi : 0 < i) (hr : r.length = i) :
    takeTo (-(i : ℤ)) (l ++ r) = l := by
  rw [takeTo, sliceIndex_neg hi, List.length_append, hr, Nat.add_sub_cancel, List.take_left]

/-- The first one of two parts, the length of the second one being given as a sum. -/
theorem takeTo_neg_sub {l r : List α} {i n : ℕ} (hi : 0 < i) (hr : r.length = i + n) :
    takeTo (-(i : ℤ) - n) (l ++ r) = l := by
  have hsum : -(i : ℤ) - n = -((i + n : ℕ) : ℤ) := by omega
  rw [hsum]
  exact takeTo_neg (by omega) hr

/-- The second one of two parts. -/
theorem dropTo_neg {l r : List α} {i : ℕ} (hi : 0 < i) (hr : r.length = i) :
    dropTo (-(i : ℤ)) (l ++ r) = r := by
  rw [dropTo, sliceIndex_neg hi, List.length_append, hr, Nat.add_sub_cancel, List.drop_left]

/-- The middle one of three parts, with both bounds from the end. -/
theorem slice_neg {a b c : List α} {i j : ℕ} (hj : 0 < j) (hb : b.length + c.length = i)
    (hc : c.length = j) : slice (-(i : ℤ)) (-(j : ℤ)) (a ++ b ++ c) = b := by
  have hlen : (a ++ b ++ c).length = a.length + i := by simp only [List.length_append]; omega
  rw [slice, sliceIndex_neg hj, sliceIndex_neg (by omega), hlen, Nat.add_sub_cancel,
    List.take_left' (by rw [List.length_append]; omega), List.drop_left]

/-- The middle one of three parts. -/
theorem extract_append_append {a b c : List α} {i j : ℕ} (ha : a.length = i)
    (hb : i + b.length = j) : (a ++ b ++ c).extract i j = b := by
  rw [List.extract_eq_take_drop, List.append_assoc, List.drop_left' ha]
  exact List.take_left' (by omega)

/-- A slice that ends inside the first part. -/
theorem extract_append_left {l r : List α} {i j : ℕ} (h : j ≤ l.length) :
    (l ++ r).extract i j = l.extract i j := by
  rw [List.extract_eq_take_drop, List.extract_eq_take_drop, ← List.drop_take, ← List.drop_take,
    List.take_append_of_le_length h]

end ShadowsocksR

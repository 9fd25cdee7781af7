import ShadowsocksR.Common
import Mathlib.Data.List.Sort
import Mathlib.Data.List.TakeWhile

/-!
# The padding of the auth_chain protocols

How many random bytes go with a buffer of some length, and where the buffer
stands among them: numbers that both ends compute, from the generator
`xorshift128plus` seeded with the hash of the frame before. The classes
`auth_chain_a` to `auth_chain_e` compute the length in different ways
(`rndDataLen`), most of them from lists of lengths made from the shared key
(`initDataSize`). The class `auth_chain_f` computes it as `auth_chain_e`, from
lists made when a handshake is received.

* `rndDataLen_spec`: the number of random bytes is not negative, the frame is
  not too long for the receiver, and nothing depends on the state that the
  generator is in.
-/

namespace ShadowsocksR

/-! ## The generator -/

/-- `xorshift128plus` -/
structure Xorshift128plus where
  v0 : ℕ := 0
  v1 : ℕ := 0
  deriving DecidableEq, Repr

namespace Xorshift128plus

def maxInt : ℕ := (1 <<< 64) - 1

def movMask : ℕ := (1 <<< (64 - 23)) - 1

/-- `next`: the number, and the generator after. -/
def next (r : Xorshift128plus) : ℕ × Xorshift128plus :=
  let x := r.v0
  let y := r.v1
  let x := x ^^^ ((x &&& movMask) <<< 23)
  let x := x ^^^ (y ^^^ (x >>> 17) ^^^ (y >>> 26))
  ((x + y) &&& maxInt, ⟨y, x⟩)

def initFromBin (bin : Bytes) : Xorshift128plus :=
  let bin := if bin.length < 16 then bin ++ List.replicate 16 0 else bin
  ⟨unpackLE (bin.take 8), unpackLE ((bin.drop 8).take 8)⟩

/-- `init_from_bin_len`; `struct.pack` raises when the length does not fit. -/
def initFromBinLen (bin : Bytes) (length : ℕ) : Except PyExc Xorshift128plus :=
  let bin := if bin.length < 16 then bin ++ List.replicate 16 0 else bin
  if length < 2 ^ 16 then
    let r : Xorshift128plus :=
      ⟨unpackLE (packLE 2 length ++ (bin.drop 2).take 6), unpackLE ((bin.drop 8).take 8)⟩
    .ok r.next.2.next.2.next.2.next.2
  else .error .structError

end Xorshift128plus

namespace AuthChain

open Xorshift128plus

/-! ## The lists of lengths -/

/-- The classes `auth_chain_a` to `auth_chain_f`. -/
inductive Method
  | a
  | b
  | c
  | d
  | e
  | f
  deriving DecidableEq, Repr

/-- The lists `data_size_list`, `data_size_list2` and `data_size_list0`. -/
structure DataSizeLists where
  list : List ℕ := []
  list2 : List ℕ := []
  list0 : List ℕ := []
  deriving DecidableEq

/-- `list.sort()` -/
def sort (l : List ℕ) : List ℕ := l.insertionSort (· ≤ ·)

/-- The loop appending `n` lengths. -/
def drawSizes : ℕ → Xorshift128plus → List ℕ × Xorshift128plus
  | 0, r => ([], r)
  | n + 1, r =>
    let (x, r) := r.next
    let (xs, r) := drawSizes n r
    (x % 2340 % 2040 % 1440 :: xs, r)

/-- `auth_chain_b.init_data_size` -/
def initDataSizeB (key : Bytes) : DataSizeLists :=
  let (x, r) := (initFromBin key).next
  let (list, r) := drawSizes (x % 8 + 4) r
  let (x, r) := r.next
  let (list2, _) := drawSizes (x % 16 + 8) r
  { list := sort list, list2 := sort list2 }

/-- `auth_chain_c.init_data_size` -/
def initDataSizeC (key : Bytes) : DataSizeLists :=
  let (x, r) := (initFromBin key).next
  let (list0, _) := drawSizes (x % (8 + 16) + (4 + 8)) r
  { list0 := sort list0 }

/-- `auth_chain_d.check_and_patch_data_size`, for a list with room for `fuel` lengths. -/
def checkAndPatchDataSize : ℕ → List ℕ → Xorshift128plus → List ℕ
  | 0, l, _ => l
  | fuel + 1, l, r =>
    if l.getLast?.getD 0 < 1300 ∧ l.length < 64 then
      let (x, r) := r.next
      checkAndPatchDataSize fuel (l ++ [x % 2340 % 2040 % 1440]) r
    else l

/-- `auth_chain_d.init_data_size` -/
def initDataSizeD (key : Bytes) : DataSizeLists :=
  let (x, r) := (initFromBin key).next
  let (list0, r) := drawSizes (x % (8 + 16) + (4 + 8)) r
  let list0 := sort list0
  let patched := checkAndPatchDataSize 64 list0 r
  { list0 := if list0.length ≠ patched.length then sort patched else patched }

/-- The lists after `set_server_info`. (`auth_chain_f` makes none there.) -/
def initDataSize (m : Method) (key : Bytes) : DataSizeLists :=
  match m with
  | .a => {}
  | .b => initDataSizeB key
  | .c => initDataSizeC key
  | .d | .e => initDataSizeD key
  | .f => {}

/-! ## The number of random bytes -/

/-- The choice made by length that several classes end with. -/
def rndBySize (size : ℕ) (random : Xorshift128plus) : ℤ × Xorshift128plus :=
  let (x, random) := random.next
  (if size > 1300 then x % 31 else if size > 900 then x % 127 else if size > 400 then x % 521
    else x % 1021, random)

/-- `bisect.bisect_left`, on a sorted list. -/
def bisectLeft (l : List ℕ) (x : ℕ) : ℕ := (l.takeWhile (· < x)).length

/-- `x % n` -/
def pyMod (x n : ℕ) : Except PyExc ℕ :=
  if n = 0 then .error .zeroDivisionError else .ok (x % n)

/-- `l[i]` -/
def pyGet (l : List ℕ) (i : ℕ) : Except PyExc ℕ :=
  match l[i]? with
  | some x => .ok x
  | none => .error .indexError

/-- `l[-1]` -/
def pyLast (l : List ℕ) : Except PyExc ℕ :=
  match l.getLast? with
  | some x => .ok x
  | none => .error .indexError

/-- `auth_chain_a.rnd_data_len` -/
def rndDataLenA (bufSize : ℕ) (lastHash : Bytes) (random : Xorshift128plus) :
    Except PyExc (ℤ × Xorshift128plus) :=
  if bufSize > 1440 then .ok (0, random)
  else do
    let random ← initFromBinLen lastHash bufSize
    .ok (rndBySize bufSize random)

/-- `auth_chain_b.rnd_data_len` -/
def rndDataLenB (lists : DataSizeLists) (overhead bufSize : ℕ) (lastHash : Bytes)
    (random : Xorshift128plus) : Except PyExc (ℤ × Xorshift128plus) :=
  if bufSize ≥ 1440 then .ok (0, random)
  else do
    let random ← initFromBinLen lastHash bufSize
    let pos := bisectLeft lists.list (bufSize + overhead)
    let (x, random) := random.next
    let finalPos := pos + (← pyMod x lists.list.length)
    if finalPos < lists.list.length then
      .ok ((← pyGet lists.list finalPos) - bufSize - overhead, random)
    else
      let pos := bisectLeft lists.list2 (bufSize + overhead)
      let (x, random) := random.next
      let finalPos := pos + (← pyMod x lists.list2.length)
      if finalPos < lists.list2.length then
        .ok ((← pyGet lists.list2 finalPos) - bufSize - overhead, random)
      else if finalPos + 1 < pos + lists.list2.length then .ok (0, random)
      else .ok (rndBySize bufSize random)

/-- `auth_chain_c.rnd_data_len` -/
def rndDataLenC (lists : DataSizeLists) (overhead bufSize : ℕ) (lastHash : Bytes)
    (_random : Xorshift128plus) : Except PyExc (ℤ × Xorshift128plus) := do
  let otherDataSize := bufSize + overhead
  let random ← initFromBinLen lastHash bufSize
  if otherDataSize ≥ (← pyLast lists.list0) then
    if otherDataSize ≥ 1440 then .ok (0, random) else .ok (rndBySize otherDataSize random)
  else
    let pos := bisectLeft lists.list0 otherDataSize
    let (x, random) := random.next
    let finalPos := pos + (← pyMod x (lists.list0.length - pos))
    .ok ((← pyGet lists.list0 finalPos) - otherDataSize, random)

/-- `auth_chain_d.rnd_data_len` -/
def rndDataLenD (lists : DataSizeLists) (overhead bufSize : ℕ) (lastHash : Bytes)
    (random : Xorshift128plus) : Except PyExc (ℤ × Xorshift128plus) := do
  let otherDataSize := bufSize + overhead
  if otherDataSize ≥ (← pyLast lists.list0) then .ok (0, random)
  else
    let random ← initFromBinLen lastHash bufSize
    let pos := bisectLeft lists.list0 otherDataSize
    let (x, random) := random.next
    let finalPos := pos + (← pyMod x (lists.list0.length - pos))
    .ok ((← pyGet lists.list0 finalPos) - otherDataSize, random)

/-- `auth_chain_e.rnd_data_len` -/
def rndDataLenE (lists : DataSizeLists) (overhead bufSize : ℕ) (lastHash : Bytes)
    (_random : Xorshift128plus) : Except PyExc (ℤ × Xorshift128plus) := do
  let random ← initFromBinLen lastHash bufSize
  let otherDataSize := bufSize + overhead
  if otherDataSize ≥ (← pyLast lists.list0) then .ok (0, random)
  else
    let pos := bisectLeft lists.list0 otherDataSize
    .ok ((← pyGet lists.list0 pos) - otherDataSize, random)

/-- `rnd_data_len` -/
def rndDataLen (m : Method) (lists : DataSizeLists) (overhead bufSize : ℕ) (lastHash : Bytes)
    (random : Xorshift128plus) : Except PyExc (ℤ × Xorshift128plus) :=
  match m with
  | .a => rndDataLenA bufSize lastHash random
  | .b => rndDataLenB lists overhead bufSize lastHash random
  | .c => rndDataLenC lists overhead bufSize lastHash random
  | .d => rndDataLenD lists overhead bufSize lastHash random
  | .e | .f => rndDataLenE lists overhead bufSize lastHash random

/-- `rnd_start_pos` -/
def rndStartPos (randLen : ℕ) (random : Xorshift128plus) : ℕ × Xorshift128plus :=
  if randLen > 0 then
    let (x, random) := random.next
    (x % 8589934609 % randLen, random)
  else (0, random)

/-! ## The lists are usable -/

/-- A sorted list of some lengths below 1440. -/
structure SizeList (l : List ℕ) : Prop where
  ne_nil : l ≠ []
  sorted : l.Pairwise (· ≤ ·)
  lt : ∀ x ∈ l, x < 1440

theorem length_drawSizes (n : ℕ) (r : Xorshift128plus) : (drawSizes n r).1.length = n := by
  induction n generalizing r with
  | zero => rfl
  | succ n ih => simp [drawSizes, ih]

theorem drawSizes_lt (n : ℕ) (r : Xorshift128plus) : ∀ x ∈ (drawSizes n r).1, x < 1440 := by
  induction n generalizing r with
  | zero => simp [drawSizes]
  | succ n ih =>
    simp only [drawSizes, List.mem_cons, forall_eq_or_imp]
    exact ⟨Nat.mod_lt _ (by norm_num), ih _⟩

theorem sizeList_sort {l : List ℕ} (hne : l ≠ []) (hlt : ∀ x ∈ l, x < 1440) :
    SizeList (sort l) where
  ne_nil h := hne (List.length_eq_zero_iff.1 (by
    rw [← List.length_insertionSort (· ≤ ·) l]; exact List.length_eq_zero_iff.2 h))
  sorted := List.pairwise_insertionSort _ l
  lt x hx := hlt x ((List.mem_insertionSort _).1 hx)

theorem sizeList_sort_drawSizes {n : ℕ} (hn : 0 < n) (r : Xorshift128plus) :
    SizeList (sort (drawSizes n r).1) :=
  sizeList_sort (List.ne_nil_of_length_pos (by rw [length_drawSizes]; exact hn)) (drawSizes_lt n r)

/-- Patching only appends lengths. -/
theorem checkAndPatchDataSize_spec (fuel : ℕ) (l : List ℕ) (r : Xorshift128plus)
    (hlt : ∀ x ∈ l, x < 1440) :
    l <+: checkAndPatchDataSize fuel l r ∧ ∀ x ∈ checkAndPatchDataSize fuel l r, x < 1440 := by
  induction fuel generalizing l r with
  | zero => exact ⟨List.prefix_rfl, hlt⟩
  | succ fuel ih =>
    rw [checkAndPatchDataSize]
    split
    · obtain ⟨hp, hlt'⟩ := ih (l ++ [r.next.1 % 2340 % 2040 % 1440]) r.next.2 (by
        intro x hx
        rcases List.mem_append.1 hx with hx | hx
        · exact hlt x hx
        · rw [List.mem_singleton.1 hx]
          exact Nat.mod_lt _ (by norm_num))
      exact ⟨(List.prefix_append _ _).trans hp, hlt'⟩
    · exact ⟨List.prefix_rfl, hlt⟩

theorem sizeList_initDataSizeD (key : Bytes) : SizeList (initDataSizeD key).list0 := by
  have hsort := sizeList_sort_drawSizes
    (n := (initFromBin key).next.1 % (8 + 16) + (4 + 8)) (by omega) (initFromBin key).next.2
  obtain ⟨hp, hlt⟩ := checkAndPatchDataSize_spec 64 _
    (drawSizes ((initFromBin key).next.1 % (8 + 16) + (4 + 8)) (initFromBin key).next.2).2 hsort.lt
  simp only [initDataSizeD]
  split
  · exact sizeList_sort (fun h => hsort.ne_nil (List.prefix_nil.1 (h ▸ hp))) hlt
  · next hlen => exact hp.eq_of_length (not_not.1 hlen) ▸ hsort

theorem sizeList_initDataSizeC (key : Bytes) : SizeList (initDataSizeC key).list0 := by
  simp only [initDataSizeC]
  exact sizeList_sort_drawSizes (by omega) _

theorem sizeList_initDataSizeB (key : Bytes) :
    SizeList (initDataSizeB key).list ∧ SizeList (initDataSizeB key).list2 := by
  simp only [initDataSizeB]
  exact ⟨sizeList_sort_drawSizes (by omega) _, sizeList_sort_drawSizes (by omega) _⟩

variable {l : List ℕ} {x i : ℕ}

/-- From the position of `x` on, a sorted list has no smaller elements. -/
theorem le_of_bisectLeft_le (hs : l.Pairwise (· ≤ ·)) (hi : bisectLeft l x ≤ i)
    (hlt : i < l.length) : x ≤ l[i] := by
  induction l generalizing i with
  | nil => simp at hlt
  | cons y l ih =>
    rw [List.pairwise_cons] at hs
    by_cases hy : y < x
    · have hb : bisectLeft (y :: l) x = bisectLeft l x + 1 := by
        simp [bisectLeft, hy]
      cases i with
      | zero => omega
      | succ i => exact ih hs.2 (by omega) _
    · cases i with
      | zero => exact not_lt.1 hy
      | succ i => exact (not_lt.1 hy).trans (hs.1 _ (List.getElem_mem _))

/-- When the last element is not smaller than `x`, the position of `x` is inside the list. -/
theorem bisectLeft_lt (hne : l ≠ []) (h : x ≤ l.getLast hne) : bisectLeft l x < l.length := by
  by_contra hge
  have hle : bisectLeft l x ≤ l.length := (List.takeWhile_sublist _).length_le
  have heq : l.takeWhile (· < x) = l :=
    (List.takeWhile_sublist _).eq_of_length (by rw [bisectLeft] at hge hle; omega)
  have := List.takeWhile_eq_self_iff.1 heq _ (List.getLast_mem hne)
  simp only [decide_eq_true_eq] at this
  omega

theorem pyGet_of_lt (h : i < l.length) : pyGet l i = .ok l[i] := by
  rw [pyGet, List.getElem?_eq_getElem h]

theorem pyLast_of_ne_nil (h : l ≠ []) : pyLast l = .ok (l.getLast h) := by
  rw [pyLast, List.getLast?_eq_some_getLast h]

theorem pyMod_of_pos {n : ℕ} (h : 0 < n) : pyMod x n = .ok (x % n) := if_neg (by omega)

/-! ## The number of random bytes -/

/-- The number does not depend on the state of the generator: it is zero, or the generator has
    been seeded again. -/
def Determined (len : Xorshift128plus → Except PyExc (ℤ × Xorshift128plus)) (n : ℕ) : Prop :=
  (n = 0 ∧ ∀ random, ∃ random', len random = .ok (0, random')) ∨
    ∃ random', ∀ random, len random = .ok ((n : ℤ), random')

/-- The length of the padding of a buffer of this size is valid, and both ends agree on it. -/
def Padded (bufSize : ℕ) (len : Xorshift128plus → Except PyExc (ℤ × Xorshift128plus)) : Prop :=
  ∃ n, bufSize + n < 4096 ∧ Determined len n

variable {bufSize overhead : ℕ} {lastHash : Bytes}

theorem initFromBinLen_of_lt (lastHash : Bytes) (h : bufSize ≤ 2800) :
    ∃ r, initFromBinLen lastHash bufSize = .ok r :=
  ⟨_, if_pos (by omega)⟩

theorem rndBySize_spec (size : ℕ) (r : Xorshift128plus) :
    ∃ (n : ℕ) (r' : Xorshift128plus), n < 1021 ∧ rndBySize size r = ((n : ℤ), r') := by
  simp only [rndBySize]
  split
  · exact ⟨r.next.1 % 31, r.next.2, by omega, by simp⟩
  · split
    · exact ⟨r.next.1 % 127, r.next.2, by omega, by simp⟩
    · split
      · exact ⟨r.next.1 % 521, r.next.2, by omega, by simp⟩
      · exact ⟨r.next.1 % 1021, r.next.2, by omega, by simp⟩

/-- The choice made by length, for a buffer of at most 1440 bytes. -/
theorem padded_rndBySize (hb : bufSize ≤ 1440) (size : ℕ) (r : Xorshift128plus) :
    Padded bufSize fun _ => .ok (rndBySize size r) := by
  obtain ⟨n, r', hn, h⟩ := rndBySize_spec size r
  exact ⟨n, by omega, .inr ⟨r', fun _ => by rw [h]⟩⟩

theorem padded_zero (hb : bufSize ≤ 2800) : Padded bufSize fun random => .ok (0, random) :=
  ⟨0, by omega, .inl ⟨rfl, fun random => ⟨random, rfl⟩⟩⟩

theorem padded_zero_of_seeded (hb : bufSize ≤ 2800) (r : Xorshift128plus) :
    Padded bufSize fun _ => .ok (0, r) :=
  ⟨0, by omega, .inl ⟨rfl, fun _ => ⟨r, rfl⟩⟩⟩

/-- Filling up to a length of a list, from the position of the buffer on. -/
theorem padded_fill (hl : SizeList l) {size : ℕ} (hs : bufSize ≤ size) (hi : bisectLeft l size ≤ i)
    (hlt : i < l.length) (r : Xorshift128plus) :
    Padded bufSize fun _ => .ok ((l[i] : ℤ) - size, r) := by
  have hle := le_of_bisectLeft_le hl.sorted hi hlt
  have := hl.lt _ (List.getElem_mem hlt)
  exact ⟨l[i] - size, by omega, .inr ⟨r, fun _ => by rw [Nat.cast_sub hle]⟩⟩

theorem Padded.congr {f g : Xorshift128plus → Except PyExc (ℤ × Xorshift128plus)}
    (h : Padded bufSize g) (hfg : ∀ random, f random = g random) : Padded bufSize f :=
  funext hfg ▸ h

theorem padded_rndDataLenA (hb : bufSize ≤ 2800) :
    Padded bufSize (rndDataLenA bufSize lastHash) := by
  obtain ⟨r, hr⟩ := initFromBinLen_of_lt lastHash hb
  by_cases h : bufSize > 1440
  · exact (padded_zero hb).congr fun random => by rw [rndDataLenA, if_pos h]
  · exact (padded_rndBySize (not_lt.1 h) bufSize r).congr fun random => by
      rw [rndDataLenA, if_neg h, hr]; rfl

theorem padded_rndDataLenB (key : Bytes) (hb : bufSize ≤ 2800) :
    Padded bufSize (rndDataLenB (initDataSizeB key) overhead bufSize lastHash) := by
  obtain ⟨hl, hl2⟩ := sizeList_initDataSizeB key
  generalize initDataSizeB key = lists at *
  obtain ⟨r, hr⟩ := initFromBinLen_of_lt lastHash hb
  have hpos := List.length_pos_iff.2 hl.ne_nil
  have hpos2 := List.length_pos_iff.2 hl2.ne_nil
  by_cases h : bufSize ≥ 1440
  · exact (padded_zero hb).congr fun random => by rw [rndDataLenB, if_pos h]
  · have hfill : ∀ {l : List ℕ} (_ : SizeList l) (i : ℕ) (hlt : i < l.length) (r : Xorshift128plus),
        bisectLeft l (bufSize + overhead) ≤ i →
        Padded bufSize fun _ => .ok ((l[i] : ℤ) - bufSize - overhead, r) := fun hl i hlt r hi =>
      (padded_fill hl (Nat.le_add_right _ _) hi hlt r).congr fun _ => by rw [Nat.cast_add, sub_sub]
    by_cases h₁ : bisectLeft lists.list (bufSize + overhead) + r.next.1 % lists.list.length <
        lists.list.length
    · refine (hfill hl _ h₁ r.next.2 (Nat.le_add_right _ _)).congr fun random => ?_
      simp [rndDataLenB, h, hr, bind, Except.bind, pyMod_of_pos hpos, h₁, pyGet_of_lt h₁]
    · by_cases h₂ : bisectLeft lists.list2 (bufSize + overhead) +
          r.next.2.next.1 % lists.list2.length < lists.list2.length
      · refine (hfill hl2 _ h₂ r.next.2.next.2 (Nat.le_add_right _ _)).congr fun random => ?_
        simp [rndDataLenB, h, hr, bind, Except.bind, pyMod_of_pos hpos, pyMod_of_pos hpos2, h₁, h₂,
          pyGet_of_lt h₂]
      · by_cases h₃ : bisectLeft lists.list2 (bufSize + overhead) +
            r.next.2.next.1 % lists.list2.length + 1 <
            bisectLeft lists.list2 (bufSize + overhead) + lists.list2.length
        · refine (padded_zero_of_seeded hb r.next.2.next.2).congr fun random => ?_
          simp [rndDataLenB, h, hr, bind, Except.bind, pyMod_of_pos hpos, pyMod_of_pos hpos2, h₁,
            h₂, h₃]
        · refine (padded_rndBySize (by omega) bufSize r.next.2.next.2).congr fun random => ?_
          simp [rndDataLenB, h, hr, bind, Except.bind, pyMod_of_pos hpos, pyMod_of_pos hpos2, h₁,
            h₂, h₃]

theorem padded_rndDataLenC (key : Bytes) (hb : bufSize ≤ 2800) :
    Padded bufSize (rndDataLenC (initDataSizeC key) overhead bufSize lastHash) := by
  have hl := sizeList_initDataSizeC key
  generalize initDataSizeC key = lists at *
  obtain ⟨r, hr⟩ := initFromBinLen_of_lt lastHash hb
  by_cases h₁ : bufSize + overhead ≥ lists.list0.getLast hl.ne_nil
  · by_cases h₂ : bufSize + overhead ≥ 1440
    · refine (padded_zero_of_seeded hb r).congr fun random => ?_
      simp [rndDataLenC, hr, bind, Except.bind, pyLast_of_ne_nil hl.ne_nil, h₁, h₂]
    · refine (padded_rndBySize (by omega) (bufSize + overhead) r).congr fun random => ?_
      simp [rndDataLenC, hr, bind, Except.bind, pyLast_of_ne_nil hl.ne_nil, h₁, h₂]
  · have hlt := bisectLeft_lt hl.ne_nil (not_le.1 h₁).le
    have hmod : 0 < lists.list0.length - bisectLeft lists.list0 (bufSize + overhead) := by omega
    have hi : bisectLeft lists.list0 (bufSize + overhead) + r.next.1 %
        (lists.list0.length - bisectLeft lists.list0 (bufSize + overhead)) <
        lists.list0.length := by
      have := Nat.mod_lt r.next.1 hmod
      omega
    refine (padded_fill hl (Nat.le_add_right _ overhead) (Nat.le_add_right _ _) hi
      r.next.2).congr fun random => ?_
    simp [rndDataLenC, hr, bind, Except.bind, pyLast_of_ne_nil hl.ne_nil, h₁, pyMod_of_pos hmod,
      pyGet_of_lt hi]

theorem padded_rndDataLenD (key : Bytes) (hb : bufSize ≤ 2800) :
    Padded bufSize (rndDataLenD (initDataSizeD key) overhead bufSize lastHash) := by
  have hl := sizeList_initDataSizeD key
  generalize initDataSizeD key = lists at *
  obtain ⟨r, hr⟩ := initFromBinLen_of_lt lastHash hb
  by_cases h₁ : bufSize + overhead ≥ lists.list0.getLast hl.ne_nil
  · refine (padded_zero hb).congr fun random => ?_
    simp [rndDataLenD, bind, Except.bind, pyLast_of_ne_nil hl.ne_nil, h₁]
  · have hlt := bisectLeft_lt hl.ne_nil (not_le.1 h₁).le
    have hmod : 0 < lists.list0.length - bisectLeft lists.list0 (bufSize + overhead) := by omega
    have hi : bisectLeft lists.list0 (bufSize + overhead) + r.next.1 %
        (lists.list0.length - bisectLeft lists.list0 (bufSize + overhead)) <
        lists.list0.length := by
      have := Nat.mod_lt r.next.1 hmod
      omega
    refine (padded_fill hl (Nat.le_add_right _ overhead) (Nat.le_add_right _ _) hi
      r.next.2).congr fun random => ?_
    simp [rndDataLenD, hr, bind, Except.bind, pyLast_of_ne_nil hl.ne_nil, h₁, pyMod_of_pos hmod,
      pyGet_of_lt hi]

theorem padded_rndDataLenE (key : Bytes) (hb : bufSize ≤ 2800) :
    Padded bufSize (rndDataLenE (initDataSizeD key) overhead bufSize lastHash) := by
  have hl := sizeList_initDataSizeD key
  generalize initDataSizeD key = lists at *
  obtain ⟨r, hr⟩ := initFromBinLen_of_lt lastHash hb
  by_cases h₁ : bufSize + overhead ≥ lists.list0.getLast hl.ne_nil
  · refine (padded_zero_of_seeded hb r).congr fun random => ?_
    simp [rndDataLenE, hr, bind, Except.bind, pyLast_of_ne_nil hl.ne_nil, h₁]
  · have hlt := bisectLeft_lt hl.ne_nil (not_le.1 h₁).le
    refine (padded_fill hl (Nat.le_add_right _ overhead) le_rfl hlt r).congr fun random => ?_
    simp [rndDataLenE, hr, bind, Except.bind, pyLast_of_ne_nil hl.ne_nil, h₁, pyGet_of_lt hlt]

/-- The padding of the classes `auth_chain_a` to `auth_chain_e`. -/
theorem rndDataLen_spec {m : Method} (hm : m ≠ .f) (key : Bytes) (overhead : ℕ) (lastHash : Bytes)
    (hb : bufSize ≤ 2800) :
    Padded bufSize (rndDataLen m (initDataSize m key) overhead bufSize lastHash) := by
  cases m with
  | a => exact padded_rndDataLenA hb
  | b => exact padded_rndDataLenB key hb
  | c => exact padded_rndDataLenC key hb
  | d => exact padded_rndDataLenD key hb
  | e => exact padded_rndDataLenE key hb
  | f => exact absurd rfl hm

end AuthChain

end ShadowsocksR

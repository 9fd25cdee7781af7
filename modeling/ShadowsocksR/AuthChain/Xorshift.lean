import ShadowsocksR.AuthUdp.Object

/-!
# The generator on 64-bit words

Other implementations of the protocols compute the numbers of `xorshift128plus` on words of 64 bits,
which wrap around. The numbers of Python do not; the code masks what it shifts to the left, and the
sum, and nothing else.

* `Shift128plus`: the generator on words, and the padding that a peer makes with it;
* `next_toNat`: one number, from any two words;
* `pads_toNat`: the lengths and the positions of the padding of some frames;
* `agrees_shift128plus`: from every seed, both generators give the same numbers, and the words of
  Python stay words.
-/

namespace ShadowsocksR

/-! ## Words -/

/-- The generator on words. -/
structure Shift128plus where
  v0 : UInt64 := 0
  v1 : UInt64 := 0
  deriving DecidableEq

namespace Shift128plus

def next (r : Shift128plus) : UInt64 × Shift128plus :=
  let x := r.v0
  let y := r.v1
  let x := x ^^^ (x <<< 23)
  let s1 := x ^^^ y ^^^ (x >>> 17) ^^^ (y >>> 26)
  (s1 + y, ⟨y, s1⟩)

/-- The next `n` numbers, and the generator after. -/
def numbers : ℕ → Shift128plus → List UInt64 × Shift128plus
  | 0, r => ([], r)
  | n + 1, r =>
    let (x, r) := r.next
    let (xs, r) := numbers n r
    (x :: xs, r)

/-- The first 16 bytes of a seed, the missing ones being zeros. -/
def fillBin (bin : Bytes) : Bytes := (bin ++ List.replicate 16 0).take 16

/-- The two words in 16 bytes. -/
def load (fill : Bytes) : Shift128plus :=
  ⟨UInt64.ofNat (unpackLE (fill.take 8)), UInt64.ofNat (unpackLE (fill.drop 8))⟩

def initFromBin (bin : Bytes) : Shift128plus := load (fillBin bin)

/-- A length takes the place of the first two bytes, and four numbers are not used. -/
def initFromBinLen (bin : Bytes) (length : UInt16) : Shift128plus :=
  (numbers 4 (load (packLE 2 length.toNat ++ (fillBin bin).drop 2))).2

/-! ## Padding -/

def rndDataLen (bufSize : ℕ) (lastHash : Bytes) (random : Shift128plus) : UInt64 × Shift128plus :=
  if bufSize > 1440 then (0, random)
  else
    let (x, random) := (initFromBinLen lastHash (UInt16.ofNat bufSize)).next
    (if bufSize > 1300 then x % 31 else if bufSize > 900 then x % 127
      else if bufSize > 400 then x % 521 else x % 1021, random)

def udpRndDataLen (lastHash : Bytes) : UInt64 × Shift128plus :=
  let (x, random) := (initFromBin lastHash).next
  (x % 127, random)

def rndStartPos (randLen : UInt64) (random : Shift128plus) : UInt64 × Shift128plus :=
  if randLen > 0 then
    let (x, random) := random.next
    (x % 8589934609 % randLen, random)
  else (0, random)

/-- The length and the position of the padding of a frame, for the size of its buffer and the hash of
    the frame before; no position is drawn for an empty buffer. -/
def pad (bufSize : ℕ) (lastHash : Bytes) (random : Shift128plus) :
    (UInt64 × UInt64) × Shift128plus :=
  let (randLen, random) := rndDataLen bufSize lastHash random
  let (startPos, random) := if bufSize = 0 then (0, random) else rndStartPos randLen random
  ((randLen, startPos), random)

/-- The padding of some frames. -/
def pads : List (ℕ × Bytes) → Shift128plus → List (UInt64 × UInt64) × Shift128plus
  | [], random => ([], random)
  | (bufSize, lastHash) :: frames, random =>
    let (p, random) := pad bufSize lastHash random
    let (ps, random) := pads frames random
    (p :: ps, random)

/-- The words as numbers. -/
def toNat (r : Shift128plus) : Xorshift128plus := ⟨r.v0.toNat, r.v1.toNat⟩

end Shift128plus

/-! ## Numbers -/

namespace Xorshift128plus

/-- Both numbers are words. -/
structure InRange (r : Xorshift128plus) : Prop where
  v0 : r.v0 < 2 ^ 64
  v1 : r.v1 < 2 ^ 64

/-- The next `n` numbers, and the generator after. -/
def numbers : ℕ → Xorshift128plus → List ℕ × Xorshift128plus
  | 0, r => ([], r)
  | n + 1, r =>
    let (x, r) := r.next
    let (xs, r) := numbers n r
    (x :: xs, r)

/-- A generator gives the numbers of one on words, and stays in range. -/
def Agrees (r : Xorshift128plus) (c : Shift128plus) : Prop :=
  ∀ n, (numbers n r).1 = (c.numbers n).1.map UInt64.toNat ∧ (numbers n r).2.InRange

theorem inRange_toNat (c : Shift128plus) : c.toNat.InRange := ⟨c.v0.toNat_lt, c.v1.toNat_lt⟩

/-- The generators in range are those of words. -/
theorem InRange.exists_toNat {r : Xorshift128plus} (h : r.InRange) :
    ∃ c : Shift128plus, c.toNat = r :=
  ⟨⟨UInt64.ofNat r.v0, UInt64.ofNat r.v1⟩, by
    rw [Shift128plus.toNat, UInt64.toNat_ofNat_of_lt' h.v0, UInt64.toNat_ofNat_of_lt' h.v1]⟩

/-- The mask leaves what a word keeps of the shift. -/
theorem and_movMask_shiftLeft (x : ℕ) : (x &&& movMask) <<< 23 = (x <<< 23) % 2 ^ 64 := by
  have hmask : movMask = 2 ^ 41 - 1 := rfl
  rw [hmask, Nat.and_two_pow_sub_one_eq_mod, Nat.shiftLeft_eq, Nat.shiftLeft_eq,
    show (2 : ℕ) ^ 64 = 2 ^ 41 * 2 ^ 23 by norm_num, Nat.mul_mod_mul_right]

/-- One number. -/
theorem next_toNat (c : Shift128plus) : c.toNat.next = (c.next.1.toNat, c.next.2.toNat) := by
  have hleft : (c.v0 <<< 23).toNat = (c.v0.toNat &&& movMask) <<< 23 := by
    rw [and_movMask_shiftLeft]
    exact UInt64.toNat_shiftLeft c.v0 23
  have hright₁ (x : UInt64) : (x >>> 17).toNat = x.toNat >>> 17 := UInt64.toNat_shiftRight x 17
  have hright₂ (x : UInt64) : (x >>> 26).toNat = x.toNat >>> 26 := UInt64.toNat_shiftRight x 26
  have hmax (x : ℕ) : x &&& maxInt = x % 2 ^ 64 := by
    rw [show maxInt = 2 ^ 64 - 1 from rfl, Nat.and_two_pow_sub_one_eq_mod]
  simp only [next, Shift128plus.next, Shift128plus.toNat, UInt64.toNat_add, UInt64.toNat_xor,
    hleft, hright₁, hright₂, hmax, Nat.xor_assoc]

theorem InRange.next {r : Xorshift128plus} (h : r.InRange) : r.next.2.InRange := by
  obtain ⟨c, rfl⟩ := h.exists_toNat
  rw [next_toNat]
  exact inRange_toNat _

theorem numbers_toNat (n : ℕ) (c : Shift128plus) :
    numbers n c.toNat = ((c.numbers n).1.map UInt64.toNat, (c.numbers n).2.toNat) := by
  induction n generalizing c with
  | zero => rfl
  | succ n ih =>
    rw [numbers, next_toNat]
    dsimp only
    rw [ih, Shift128plus.numbers, List.map_cons]

theorem agrees_toNat (c : Shift128plus) : Agrees c.toNat c := by
  intro n
  rw [numbers_toNat]
  exact ⟨rfl, inRange_toNat _⟩

/-! ## Seeds -/

open Shift128plus (fillBin)

/-- The numbers in the bytes of a seed, which is as long as 16 bytes after the zeros. -/
theorem load_toNat (v0 v1 : Bytes) (h0 : v0.length = 8) (h1 : v1.length = 8) :
    (Shift128plus.load (v0 ++ v1)).toNat = ⟨unpackLE v0, unpackLE v1⟩ := by
  have hlt {bs : Bytes} (h : bs.length = 8) : unpackLE bs < 2 ^ 64 := by
    have := unpackLE_lt bs
    rwa [h, show (256 : ℕ) ^ 8 = 2 ^ 64 by norm_num] at this
  rw [Shift128plus.load, Shift128plus.toNat, List.take_left' h0, List.drop_left' h0,
    UInt64.toNat_ofNat_of_lt' (hlt h0), UInt64.toNat_ofNat_of_lt' (hlt h1)]

/-- The seed with the zeros that Python appends begins with the 16 bytes of the other peers. -/
theorem take_fill (bin : Bytes) :
    (if bin.length < 16 then bin ++ List.replicate 16 0 else bin).take 16 = fillBin bin := by
  rw [fillBin]
  split_ifs with h
  · rfl
  · rw [List.take_append_of_le_length (not_lt.1 h)]

theorem length_fillBin (bin : Bytes) : (fillBin bin).length = 16 := by
  simp [fillBin]

/-- A part of the seed is one of its first 16 bytes. -/
theorem drop_take_fill (bin : Bytes) {i n : ℕ} (h : i + n ≤ 16) :
    ((if bin.length < 16 then bin ++ List.replicate 16 0 else bin).drop i).take n =
      ((fillBin bin).drop i).take n := by
  rw [← take_fill, List.drop_take, List.take_take, Nat.min_eq_left (by omega)]

theorem initFromBin_toNat (bin : Bytes) :
    initFromBin bin = (Shift128plus.initFromBin bin).toNat := by
  have hlow := drop_take_fill bin (i := 0) (n := 8) (by omega)
  rw [List.drop_zero, List.drop_zero] at hlow
  have hlength := length_fillBin bin
  have hhigh : ((fillBin bin).drop 8).take 8 = (fillBin bin).drop 8 :=
    List.take_of_length_le (by rw [List.length_drop, hlength])
  have hload := load_toNat ((fillBin bin).take 8) ((fillBin bin).drop 8)
    (by rw [List.length_take, hlength]; rfl) (by rw [List.length_drop, hlength])
  rw [List.take_append_drop] at hload
  rw [initFromBin, Shift128plus.initFromBin, hload, hlow, drop_take_fill bin (by omega), hhigh]

theorem initFromBinLen_toNat (bin : Bytes) (length : UInt16) :
    initFromBinLen bin length.toNat = .ok (Shift128plus.initFromBinLen bin length).toNat := by
  have hlength := length_fillBin bin
  have hhigh : ((fillBin bin).drop 8).take 8 = (fillBin bin).drop 8 :=
    List.take_of_length_le (by rw [List.length_drop, hlength])
  have hsplit := List.take_append_drop 6 ((fillBin bin).drop 2)
  rw [List.drop_drop] at hsplit
  have hload := load_toNat (packLE 2 length.toNat ++ ((fillBin bin).drop 2).take 6)
    ((fillBin bin).drop 8)
    (by rw [List.length_append, length_packLE, List.length_take, List.length_drop, hlength]; rfl)
    (by rw [List.length_drop, hlength])
  rw [List.append_assoc, hsplit] at hload
  have hnumbers : (numbers 4 _).2 = (Shift128plus.numbers 4 _).2.toNat := congrArg Prod.snd
    (numbers_toNat 4 (Shift128plus.load (packLE 2 length.toNat ++ (fillBin bin).drop 2)))
  rw [hload] at hnumbers
  rw [initFromBinLen, Shift128plus.initFromBinLen]
  dsimp only
  rw [if_pos (show length.toNat < 2 ^ 16 from length.toNat_lt), drop_take_fill bin (by omega),
    drop_take_fill bin (by omega), hhigh, ← hnumbers]
  rfl

end Xorshift128plus

/-! ## The padding of frames -/

namespace AuthChain

open Xorshift128plus

variable {s : AuthChain} {buf lastHash : Bytes} {random : Xorshift128plus} {c : Shift128plus}

theorem rndDataLenA_toNat (bufSize : ℕ) (lastHash : Bytes) (c : Shift128plus) :
    rndDataLenA bufSize lastHash c.toNat =
      .ok ((c.rndDataLen bufSize lastHash).1.toNat, (c.rndDataLen bufSize lastHash).2.toNat) := by
  by_cases hsize : bufSize > 1440
  · rw [rndDataLenA, if_pos hsize, Shift128plus.rndDataLen, if_pos hsize]
    rfl
  · have hlen : (UInt16.ofNat bufSize).toNat = bufSize :=
      UInt16.toNat_ofNat_of_lt' (show bufSize < 2 ^ 16 by omega)
    have hinit := initFromBinLen_toNat lastHash (UInt16.ofNat bufSize)
    rw [hlen] at hinit
    rw [rndDataLenA, if_neg hsize, hinit, Shift128plus.rndDataLen, if_neg hsize]
    show Except.ok (rndBySize bufSize _) = _
    rw [rndBySize, next_toNat]
    dsimp only
    congr 2
    split_ifs <;> rw [UInt64.toNat_mod] <;> rfl

theorem rndStartPos_toNat (randLen : UInt64) (c : Shift128plus) :
    rndStartPos randLen.toNat c.toNat =
      ((c.rndStartPos randLen).1.toNat, (c.rndStartPos randLen).2.toNat) := by
  have hpos : randLen > 0 ↔ randLen.toNat > 0 := UInt64.lt_iff_toNat_lt
  by_cases h : randLen > 0
  · rw [rndStartPos, if_pos (hpos.1 h), next_toNat, Shift128plus.rndStartPos, if_pos h]
    dsimp only
    rw [UInt64.toNat_mod, UInt64.toNat_mod]
    rfl
  · rw [rndStartPos, if_neg (mt hpos.2 h), Shift128plus.rndStartPos, if_neg h]
    rfl

theorem udpRndDataLen_toNat (lastHash : Bytes) :
    udpRndDataLen lastHash =
      ((Shift128plus.udpRndDataLen lastHash).1.toNat,
        (Shift128plus.udpRndDataLen lastHash).2.toNat) := by
  rw [udpRndDataLen, initFromBin_toNat, next_toNat, Shift128plus.udpRndDataLen]
  dsimp only
  rw [UInt64.toNat_mod]
  rfl

/-- The length and the position of the padding of a frame, as `rnd_data` of `auth_chain_a` draws
    them. -/
def pad (bufSize : ℕ) (lastHash : Bytes) (random : Xorshift128plus) :
    Except PyExc ((ℤ × ℕ) × Xorshift128plus) := do
  let (randLen, random) ← rndDataLenA bufSize lastHash random
  let (startPos, random) := if bufSize = 0 then (0, random) else rndStartPos randLen.toNat random
  .ok ((randLen, startPos), random)

/-- The padding of some frames. -/
def pads : List (ℕ × Bytes) → Xorshift128plus → Except PyExc (List (ℤ × ℕ) × Xorshift128plus)
  | [], random => .ok ([], random)
  | (bufSize, lastHash) :: frames, random => do
    let (p, random) ← pad bufSize lastHash random
    let (ps, random) ← pads frames random
    .ok (p :: ps, random)

/-- A length and a position of words as numbers. -/
def padToNat (p : UInt64 × UInt64) : ℤ × ℕ := (p.1.toNat, p.2.toNat)

theorem pad_toNat (bufSize : ℕ) (lastHash : Bytes) (c : Shift128plus) :
    pad bufSize lastHash c.toNat =
      .ok (padToNat (c.pad bufSize lastHash).1, (c.pad bufSize lastHash).2.toNat) := by
  rw [pad, rndDataLenA_toNat, Shift128plus.pad]
  simp only [bind, Except.bind]
  rw [Int.toNat_natCast, rndStartPos_toNat]
  split_ifs <;> rfl

theorem pads_toNat (frames : List (ℕ × Bytes)) (c : Shift128plus) :
    pads frames c.toNat = .ok ((c.pads frames).1.map padToNat, (c.pads frames).2.toNat) := by
  induction frames generalizing c with
  | nil => rfl
  | cons frame frames ih =>
    obtain ⟨bufSize, lastHash⟩ := frame
    rw [pads, pad_toNat]
    change (pads frames _ >>= _) = _
    rw [ih]
    rfl

/-- `rnd_data` puts the padding of a frame around its buffer. -/
theorem rndData_toNat (hs : s.method = .a) {p : (UInt64 × UInt64) × Shift128plus}
    (hp : c.pad buf.length lastHash = p) :
    s.rndData buf lastHash c.toNat =
      .ok ((randBytes p.1.1.toNat s.rng).1.take p.1.2.toNat ++ buf ++
        (randBytes p.1.1.toNat s.rng).1.drop p.1.2.toNat, p.2.toNat,
        (randBytes p.1.1.toNat s.rng).2) := by
  have hlength := length_randBytes (c.rndDataLen buf.length lastHash).1.toNat s.rng
  subst hp
  rw [rndData, hs, rndDataLen, rndDataLenA_toNat, Shift128plus.pad]
  simp only [bind, Except.bind]
  rw [randBytesInt_natCast, Int.toNat_natCast, rndStartPos_toNat]
  dsimp only
  by_cases hbuf : buf.length = 0
  · rw [if_pos hbuf, if_pos hbuf, List.length_eq_zero_iff.1 hbuf, List.append_nil,
      List.take_append_drop]
  rw [if_neg hbuf, if_neg hbuf]
  by_cases hlen : ((c.rndDataLen buf.length lastHash).1.toNat : ℤ) > 0
  · rw [if_pos hlen]
  · -- without padding, no position is drawn
    have hzero : (c.rndDataLen buf.length lastHash).1.toNat = 0 := by omega
    have hpos : ¬(c.rndDataLen buf.length lastHash).1 > 0 := by
      rw [gt_iff_lt, UInt64.lt_iff_toNat_lt, hzero]
      exact lt_irrefl _
    rw [if_neg hlen, Shift128plus.rndStartPos, if_neg hpos]
    dsimp only
    rw [hzero] at hlength ⊢
    rw [List.length_eq_zero_iff.1 hlength]
    simp

end AuthChain

open Xorshift128plus AuthChain

/-- For every seed, the generator of the code gives the numbers of the one on words, with both of its
    numbers in range, and all frames are padded alike. -/
theorem agrees_shift128plus (bin : Bytes) (length : UInt16) (frames : List (ℕ × Bytes)) :
    Agrees (initFromBin bin) (Shift128plus.initFromBin bin) ∧
      (∃ r, initFromBinLen bin length.toNat = .ok r ∧
        Agrees r (Shift128plus.initFromBinLen bin length)) ∧
      (∃ random, pads frames {} = .ok ((Shift128plus.pads frames {}).1.map padToNat, random) ∧
        random.InRange) ∧
      (udpRndDataLen bin).1 = (Shift128plus.udpRndDataLen bin).1.toNat := by
  refine ⟨?_, ⟨_, initFromBinLen_toNat bin length, agrees_toNat _⟩,
    ⟨_, pads_toNat frames {}, inRange_toNat _⟩, ?_⟩
  · rw [initFromBin_toNat]
    exact agrees_toNat _
  · rw [udpRndDataLen_toNat]

end ShadowsocksR

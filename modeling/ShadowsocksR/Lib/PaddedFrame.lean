import ShadowsocksR.Lib.Framing

/-!
# Padded frames

Frames that begin with their length and a check of it, and end with a sum of
all that comes before. What they carry stands after a padding that says how
long it is, in one byte or, after the byte 255, in two more.

* `FrameFormat`: how a frame is written;
* `Padding`: the paddings;
* `length_take`, `check_take`: a receiver that has the beginning of a frame reads
  its length, and finds the check in its place;
* `sum_take`, `extract_dataPos`: when it has all of the frame, it finds the sum
  in its place, and what the frame carries.
-/

namespace ShadowsocksR

/-- How a frame is written. -/
structure FrameFormat where
  packLen : ℕ → Bytes
  unpackLen : Bytes → ℕ
  checkSize : ℕ
  check : Bytes → Bytes
  sumSize : ℕ
  sum : Bytes → Bytes
  length_packLen : ∀ n, (packLen n).length = 2
  unpackLen_packLen : ∀ {n}, n < 2 ^ 16 → unpackLen (packLen n) = n
  length_check : ∀ bs, (check bs).length = checkSize
  length_sum : ∀ bs, (sum bs).length = sumSize

namespace FrameFormat

variable (F : FrameFormat)

/-- The length of a frame with a content of `n` bytes. -/
def size (n : ℕ) : ℕ := 2 + F.checkSize + n + F.sumSize

/-- A frame without its sum. -/
def body (content : Bytes) : Bytes :=
  F.packLen (F.size content.length) ++ F.check (F.packLen (F.size content.length)) ++ content

/-- A frame. -/
def frame (content : Bytes) : Bytes := F.body content ++ F.sum (F.body content)

/-- A padding, which begins with its length. -/
inductive Padding : Bytes → Prop
  | short {random : Bytes} : random.length < 254 →
      Padding (UInt8.ofNat (random.length + 1) :: random)
  | long {random : Bytes} : random.length + 3 < 2 ^ 16 →
      Padding (255 :: (F.packLen (random.length + 3) ++ random))

/-- Where the data of the frame at the front of a buffer begins. -/
def dataPos (buf : Bytes) : ℕ :=
  let pos := unpackLE (buf.extract (2 + F.checkSize) (2 + F.checkSize + 1))
  if pos < 255 then pos + (2 + F.checkSize)
  else F.unpackLen (buf.extract (2 + F.checkSize + 1) (2 + F.checkSize + 3)) + (2 + F.checkSize)

variable {F} {content pad data p rest : Bytes}

theorem length_body (F : FrameFormat) (content : Bytes) :
    (F.body content).length + F.sumSize = F.size content.length := by
  rw [body, List.length_append, List.length_append, F.length_packLen, F.length_check, size]

theorem length_frame : (F.frame content).length = F.size content.length := by
  rw [frame, List.length_append, F.length_sum, length_body]

theorem frame_ne_nil : F.frame content ≠ [] := by
  apply List.ne_nil_of_length_pos
  rw [length_frame, size]
  omega

theorem Padding.ne_nil (h : F.Padding pad) : pad ≠ [] := by
  cases h <;> exact List.cons_ne_nil _ _

/-- The beginning of a frame, of which `p` is a part. -/
theorem take_frame (hp : p <+: F.frame content ++ rest) (hlen : 2 ≤ p.length) :
    p.take 2 = F.packLen (F.size content.length) := by
  obtain ⟨fut, hp⟩ := hp
  have htake : p.take 2 = (p ++ fut).take 2 := (List.take_append_of_le_length hlen).symm
  rw [htake, hp, frame, body, List.append_assoc, List.append_assoc, List.append_assoc]
  exact List.take_left' (F.length_packLen _)

/-- The length of a frame. -/
theorem length_take (hp : p <+: F.frame content ++ rest) (hlen : 2 ≤ p.length)
    (hlt : F.size content.length < 2 ^ 16) :
    F.unpackLen (p.take 2) = F.size content.length := by
  rw [take_frame hp hlen, F.unpackLen_packLen hlt]

/-- The check of the length. -/
theorem check_take (hp : p <+: F.frame content ++ rest) (hlen : 2 + F.checkSize ≤ p.length) :
    F.check (p.take 2) = p.extract 2 (2 + F.checkSize) := by
  rw [take_frame hp (by omega)]
  obtain ⟨fut, hp⟩ := hp
  have hext : p.extract 2 (2 + F.checkSize) = (p ++ fut).extract 2 (2 + F.checkSize) :=
    (extract_append_left hlen).symm
  rw [hext, hp, frame, body, List.append_assoc, List.append_assoc]
  exact (extract_append_append (F.length_packLen _) (by rw [F.length_check])).symm

theorem frame_append : F.frame content ++ rest = F.body content ++ (F.sum (F.body content) ++ rest) :=
  List.append_assoc _ _ _

/-- The sum at the end of a frame. -/
theorem sum_take (F : FrameFormat) (content rest : Bytes) :
    F.sum ((F.frame content ++ rest).take (F.size content.length - F.sumSize)) =
    (F.frame content ++ rest).extract (F.size content.length - F.sumSize)
      (F.size content.length) := by
  have hlen : (F.body content).length = F.size content.length - F.sumSize := by
    have := F.length_body content
    omega
  have hbody := F.length_body content
  rw [frame_append, List.take_left' hlen, ← List.append_assoc]
  exact (extract_append_append hlen (by rw [F.length_sum]; omega)).symm

theorem drop_frame : (F.frame content ++ rest).drop (F.size content.length) = rest :=
  List.drop_left' length_frame

/-- The data of a frame begins after the padding. -/
theorem dataPos_frame (hpad : F.Padding pad) :
    F.dataPos (F.frame (pad ++ data) ++ rest) = 2 + F.checkSize + pad.length := by
  have hhead : (F.packLen (F.size (pad ++ data).length) ++
      F.check (F.packLen (F.size (pad ++ data).length))).length = 2 + F.checkSize := by
    rw [List.length_append, F.length_packLen, F.length_check]
  have hsplit : F.frame (pad ++ data) ++ rest = F.packLen (F.size (pad ++ data).length) ++
      F.check (F.packLen (F.size (pad ++ data).length)) ++
        (pad ++ (data ++ (F.sum (F.body (pad ++ data)) ++ rest))) := by
    rw [frame_append, body]
    simp only [List.append_assoc]
  rw [dataPos, hsplit]
  generalize F.packLen (F.size (pad ++ data).length) ++
    F.check (F.packLen (F.size (pad ++ data).length)) = head at *
  generalize data ++ (F.sum (F.body (pad ++ data)) ++ rest) = tail
  cases hpad with
  | @short random h =>
    have hbyte : (head ++ (UInt8.ofNat (random.length + 1) :: random ++ tail)).extract
        (2 + F.checkSize) (2 + F.checkSize + 1) = [UInt8.ofNat (random.length + 1)] := by
      have := extract_append_append (a := head) (b := [UInt8.ofNat (random.length + 1)])
        (c := random ++ tail) hhead rfl
      simpa using this
    have hnum : unpackLE [UInt8.ofNat (random.length + 1)] = random.length + 1 := by
      rw [unpackLE, unpackLE, UInt8.toNat_ofNat']
      omega
    rw [hbyte, hnum]
    rw [if_pos (by omega), List.length_cons, Nat.add_comm]
  | @long random h =>
    have hbyte : (head ++ (255 :: (F.packLen (random.length + 3) ++ random) ++ tail)).extract
        (2 + F.checkSize) (2 + F.checkSize + 1) = [255] := by
      have := extract_append_append (a := head) (b := [(255 : UInt8)])
        (c := F.packLen (random.length + 3) ++ (random ++ tail)) hhead rfl
      simpa using this
    have hnum : (head ++ (255 :: (F.packLen (random.length + 3) ++ random) ++ tail)).extract
        (2 + F.checkSize + 1) (2 + F.checkSize + 3) = F.packLen (random.length + 3) := by
      have := extract_append_append (a := head ++ [255]) (b := F.packLen (random.length + 3))
        (c := random ++ tail) (i := 2 + F.checkSize + 1) (j := 2 + F.checkSize + 3)
        (by rw [List.length_append, hhead]; rfl) (by rw [F.length_packLen])
      simpa using this
    have h255 : unpackLE [255] = 255 := rfl
    rw [hbyte, hnum, h255]
    rw [if_neg (by omega), F.unpackLen_packLen h, List.length_cons, List.length_append,
      F.length_packLen]
    omega

/-- What a frame carries. -/
theorem extract_dataPos (hpad : F.Padding pad) (data rest : Bytes) :
    (F.frame (pad ++ data) ++ rest).extract (F.dataPos (F.frame (pad ++ data) ++ rest))
      (F.size (pad ++ data).length - F.sumSize) = data := by
  have hlen := F.length_body (pad ++ data)
  rw [dataPos_frame hpad, frame_append, body, ← List.append_assoc _ pad]
  refine extract_append_append ?_ ?_
  · rw [List.length_append, List.length_append, F.length_packLen, F.length_check]
  · rw [size, List.length_append]
    omega

end FrameFormat

end ShadowsocksR

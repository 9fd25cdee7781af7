import ShadowsocksR.AuthAes128.Sender
import ShadowsocksR.Lib.Chunks
import ShadowsocksR.Lib.PaddedFrame

/-!
# The frames of auth_aes128

A frame is a padded frame whose check and sum are made with the key of the user
and the number of the frame.

* `packData_spec`: a sender makes the frame with its number, of 7 to 8191 bytes;
* `packAll_spec`: it packs a buffer into frames;
* `lockstep_client`, `lockstep_server`: the loops of the receivers take frames off
  their buffers, one number after the other.
-/

namespace ShadowsocksR

namespace AuthAes128

variable (C : Crypto) (hashfunc : HashFunc)

/-- The format of a frame. -/
def frameFormat (macKey : Bytes) : FrameFormat where
  packLen := packLE 2
  unpackLen := unpackLE
  checkSize := 2
  check bs := (C.hmac hashfunc macKey bs).take 2
  sumSize := 4
  sum bs := (C.hmac hashfunc macKey bs).take 4
  length_packLen := length_packLE 2
  unpackLen_packLen h := unpackLE_packLE h
  length_check _ := by
    rw [List.length_take, C.length_hmac]
    cases hashfunc <;> rfl
  length_sum _ := by
    rw [List.length_take, C.length_hmac]
    cases hashfunc <;> rfl

/-- The frame with the number `n` of a user. -/
def IsFrame (userKey : Bytes) (n : ℕ) (f : Frame) : Prop :=
  ∃ pad, (frameFormat C hashfunc (userKey ++ packLE 4 n)).Padding pad ∧
    f.bytes = (frameFormat C hashfunc (userKey ++ packLE 4 n)).frame (pad ++ f.output) ∧
    f.bytes.length < 8192

/-- The frame with the number `n`, after which comes the one with the number `n'`. -/
def NextFrame (userKey : Bytes) (n : ℕ) (f : Frame) (n' : ℕ) : Prop :=
  IsFrame C hashfunc userKey n f ∧ n' = (n + 1) % 2 ^ 32

variable {C hashfunc} {userKey : Bytes} {n : ℕ}

theorem IsFrame.seven_le {f : Frame} (h : IsFrame C hashfunc userKey n f) : 7 ≤ f.bytes.length := by
  obtain ⟨pad, -, hbytes, -⟩ := h
  rw [hbytes, FrameFormat.length_frame]
  change 7 ≤ 2 + 2 + _ + 4
  omega

/-! ## Sending -/

theorem trapezoidRandomInt_lt {maxVal : ℤ} (h : 0 < maxVal) (rng : Rng) :
    ((trapezoidRandomInt maxVal rng).1 : ℤ) < maxVal := by
  have := Nat.mod_lt (rng 0) (show 0 < maxVal.toNat by omega)
  rw [trapezoidRandomInt]
  omega

namespace Sender

variable {s : Sender}

/-- How long the padding of a frame is. -/
theorem rndDataLen_le (hmss : s.serverInfo.tcpMss ≤ 1500) {bufSize : ℕ} (hbuf : bufSize ≤ unitLen)
    (fullBufSize : ℕ) (rng : Rng) :
    (s.rndDataLen bufSize fullBufSize rng).1 < 1500 ∧
      (s.rndDataLen bufSize fullBufSize rng).1 + bufSize ≤ 8131 := by
  rw [unitLen] at hbuf
  rw [rndDataLen]
  dsimp only
  split_ifs with h₁ h₂ h₃ h₄ h₅
  · dsimp only
    omega
  · dsimp only
    omega
  · have := trapezoidRandomInt_lt
      (show 0 < (s.serverInfo.tcpMss : ℤ) - bufSize - 9 + s.serverInfo.tcpMss by omega) rng
    omega
  · have := Nat.mod_lt (unpackLE (randBytes 1 rng).1) (show 0 < 32 by decide)
    dsimp only
    omega
  · have := Nat.mod_lt (unpackBE (randBytes 2 rng).1)
      (show 0 < ((s.serverInfo.tcpMss : ℤ) - bufSize - 9).toNat by omega)
    dsimp only
    omega
  · have := trapezoidRandomInt_lt (show 0 < (s.serverInfo.tcpMss : ℤ) - bufSize - 9 by omega) rng
    omega

/-- The padding of a frame. -/
theorem rndData_spec (C : Crypto) (hashfunc : HashFunc) (hmss : s.serverInfo.tcpMss ≤ 1500)
    {bufSize : ℕ} (hbuf : bufSize ≤ unitLen) (fullBufSize : ℕ) (macKey : Bytes) :
    ∃ pad rng, s.rndData bufSize fullBufSize = .ok (pad, rng) ∧
      (frameFormat C hashfunc macKey).Padding pad ∧ pad.length + bufSize ≤ 8132 := by
  obtain ⟨hlt, hle⟩ := rndDataLen_le hmss hbuf fullBufSize s.rng
  rw [rndData]
  obtain ⟨⟨n, rng⟩, hn⟩ : ∃ r, s.rndDataLen bufSize fullBufSize s.rng = r := ⟨_, rfl⟩
  rw [hn] at hlt hle ⊢
  dsimp only at hlt hle ⊢
  split_ifs with hshort
  · have hlen := length_randBytes n rng
    refine ⟨_, _, rfl, ?_, by simp; omega⟩
    have := @FrameFormat.Padding.short (frameFormat C hashfunc macKey) (randBytes n rng).1
      (by omega)
    rw [hlen] at this
    exact this
  · have hlen := length_randBytes (n - 2) rng
    have hpack : pack 2 (n + 1) = .ok (packLE 2 (n + 1)) := pack_of_lt (by omega)
    rw [hpack]
    refine ⟨_, _, rfl, ?_, by simp; omega⟩
    have := @FrameFormat.Padding.long (frameFormat C hashfunc macKey) (randBytes (n - 2) rng).1
      (by omega)
    rw [hlen, show n - 2 + 3 = n + 1 by omega] at this
    exact this

/-- A sender makes the frame with its number. -/
theorem packData_spec (hkey : s.userKey = some userKey) (hmss : s.serverInfo.tcpMss ≤ 1500)
    {buf : Bytes} (hbuf : buf.length ≤ unitLen) (fullBufSize : ℕ) :
    ∃ f rng, packData C fullBufSize s buf =
        .ok (f.bytes, { s with rng, packId := (s.packId + 1) % 2 ^ 32 }) ∧ f.output = buf ∧
      IsFrame C s.hashfunc userKey s.packId f := by
  obtain ⟨pad, rng, hrnd, hpad, hlen⟩ := rndData_spec C s.hashfunc hmss hbuf
    fullBufSize (userKey ++ packLE 4 s.packId)
  have hlt : (pad ++ buf).length + 8 < 8192 := by
    rw [List.length_append]
    omega
  have hsize : (frameFormat C s.hashfunc (userKey ++ packLE 4 s.packId)).size (pad ++ buf).length =
      (pad ++ buf).length + 8 := by
    change 2 + 2 + _ + 4 = _
    omega
  have hpack : pack 2 ((pad ++ buf).length + 8) = .ok (packLE 2 ((pad ++ buf).length + 8)) :=
    pack_of_lt (by omega)
  refine ⟨⟨(frameFormat C s.hashfunc (userKey ++ packLE 4 s.packId)).frame (pad ++ buf), buf⟩, rng,
    ?_, rfl, pad, hpad, rfl, ?_⟩
  · rw [packData, hrnd, hkey]
    change (pack 2 ((pad ++ buf).length + 8) >>= _) = _
    rw [hpack, FrameFormat.frame, FrameFormat.body, hsize]
    rfl
  · dsimp only
    rw [FrameFormat.length_frame, hsize]
    exact hlt

/-- What packing a buffer keeps. -/
def Kept (s s' : Sender) : Prop := ∃ rng packId, s' = { s with rng, packId }

/-- A buffer is sent as frames. -/
theorem packAll_spec (fullBufSize : ℕ) (t : Cut Sender) (hkey : t.obj.userKey = some userKey)
    (hmss : t.obj.serverInfo.tcpMss ≤ 1500) :
    ∃ fs s', packAll C fullBufSize t = .ok (t.ret ++ wire fs, s') ∧ carried fs = t.buf ∧ fs ≠ [] ∧
      Sends (NextFrame C t.obj.hashfunc userKey) t.obj.packId fs s'.packId ∧ Kept t.obj s' := by
  obtain ⟨fs, t', ht', hret, hcar, hne, hsends, hP⟩ := cut_frames
    (R := fun s f s' => NextFrame C t.obj.hashfunc userKey s.packId f s'.packId)
    (P := Kept t.obj) (show 0 < unitLen by decide)
    (fun s p hs hp => by
      obtain ⟨rng, packId, rfl⟩ := hs
      obtain ⟨f, rng', hf, hout, hframe⟩ :=
        packData_spec (C := C) (s := { t.obj with rng, packId }) hkey hmss hp fullBufSize
      exact ⟨f, _, hf, hout, ⟨hframe, rfl⟩, rng', _, rfl⟩)
    (t.buf.length + 1) ⟨t.obj.rng, t.obj.packId, rfl⟩ (Nat.lt_succ_self _)
  refine ⟨fs, t'.obj, ?_, hcar, hne, hsends.map Sender.packId id, hP⟩
  rw [packAll, ht']
  dsimp only
  rw [hret]

end Sender

/-! ## Receiving -/

/-- The first checks of a receiver, for the beginning of a frame. -/
theorem IsFrame.checks {f : Frame} (h : IsFrame C hashfunc userKey n f) {p rest : Bytes}
    (hp : p <+: f.bytes ++ rest) (hlen : 4 < p.length) :
    (C.hmac hashfunc (userKey ++ packLE 4 n) (p.take 2)).take 2 = p.extract 2 4 ∧
      unpackLE (p.take 2) = f.bytes.length := by
  obtain ⟨pad, hpad, hbytes, hlt⟩ := h
  rw [hbytes] at hp hlt ⊢
  rw [FrameFormat.length_frame] at hlt ⊢
  exact ⟨FrameFormat.check_take (F := frameFormat C hashfunc (userKey ++ packLE 4 n)) hp
      (show 4 ≤ p.length by omega),
    FrameFormat.length_take hp (by omega) (by omega)⟩

/-- A whole frame: the sum, and what it carries. -/
theorem IsFrame.complete {f : Frame} (h : IsFrame C hashfunc userKey n f) (rest : Bytes) :
    (C.hmac hashfunc (userKey ++ packLE 4 n) ((f.bytes ++ rest).take (f.bytes.length - 4))).take 4 =
        (f.bytes ++ rest).extract (f.bytes.length - 4) f.bytes.length ∧
      (f.bytes ++ rest).extract (dataPos (f.bytes ++ rest)) (f.bytes.length - 4) = f.output := by
  obtain ⟨pad, hpad, hbytes, -⟩ := h
  have hsize : (frameFormat C hashfunc (userKey ++ packLE 4 n)).size (pad ++ f.output).length =
      f.bytes.length := by
    rw [hbytes, FrameFormat.length_frame]
  have hsum := (frameFormat C hashfunc (userKey ++ packLE 4 n)).sum_take (pad ++ f.output) rest
  have hout := FrameFormat.extract_dataPos hpad f.output rest
  rw [hsize, ← hbytes] at hsum hout
  exact ⟨hsum, hout⟩

/-- The frames `fs` come next, to an object that has not given up. -/
def Expects (C : Crypto) (hashfunc : HashFunc) (userKey : Bytes) (fs : List Frame) (t : Recv) :
    Prop :=
  (∃ n, Sends (NextFrame C hashfunc userKey) t.obj.recvId fs n) ∧ t.obj.rawTrans = false ∧
    t.obj.hashfunc = hashfunc ∧ t.obj.userKey = some userKey

theorem Expects.bytes_ne_nil {fs : List Frame} {t : Recv} (h : Expects C hashfunc userKey fs t) :
    ∀ f ∈ fs, f.bytes ≠ [] := by
  obtain ⟨⟨n, hfs⟩, -⟩ := h
  refine hfs.forall_mem fun hf => List.ne_nil_of_length_pos ?_
  have := hf.1.seven_le
  omega

/-- The first one of the frames that come next. -/
theorem Expects.head {f : Frame} {fs : List Frame} {t : Recv}
    (h : Expects C hashfunc userKey (f :: fs) t) :
    IsFrame C hashfunc userKey t.obj.recvId f := by
  obtain ⟨⟨n, hfs⟩, -⟩ := h
  cases hfs with
  | cons hf _ => exact hf.1

/-- The object after it has taken off the first one of the frames. -/
theorem Expects.tail {f : Frame} {fs : List Frame} {t : Recv}
    (h : Expects C hashfunc userKey (f :: fs) t) (outBuf recvBuf : Bytes) (sendback : Bool) :
    Expects C hashfunc userKey fs
      { obj := { t.obj with recvId := (t.obj.recvId + 1) % 2 ^ 32, recvBuf }, outBuf, sendback } := by
  obtain ⟨⟨n, hfs⟩, hobj⟩ := h
  cases hfs with
  | cons hf hfs =>
    rw [hf.2] at hfs
    exact ⟨⟨n, hfs⟩, hobj⟩

theorem lockstep_client : Lockstep (clientRecvBody C) (fun t => t.obj.recvBuf) Recv.outBuf
    (Expects C hashfunc userKey) where
  bytes_ne_nil := Expects.bytes_ne_nil
  incomplete {f fs t} h hp hne := by
    have hframe := h.head
    obtain ⟨-, -, rfl, hkey⟩ := id h
    refine ⟨t, ?_, rfl, rfl, h⟩
    rw [clientRecvBody]
    by_cases hlen : t.obj.recvBuf.length > 4
    · obtain ⟨hmac, hlength⟩ := hframe.checks
        (by rw [List.append_nil]; exact hp) hlen
      have hseven := hframe.seven_le
      have hlt : t.obj.recvBuf.length < f.bytes.length :=
        hp.length_le.lt_of_ne fun heq => hne (hp.eq_of_length heq)
      obtain ⟨-, -, -, hmax⟩ := hframe
      dsimp only
      rw [if_pos hlen, hkey]
      dsimp only
      rw [if_neg (not_not.2 hmac), hlength, if_neg (by omega), if_pos hlt]
    · dsimp only
      rw [if_neg hlen]
  complete {f fs t rest} h hbuf := by
    have hframe := h.head
    obtain ⟨-, -, rfl, hkey⟩ := id h
    have hseven := hframe.seven_le
    have hlen : t.obj.recvBuf.length > 4 := by
      rw [hbuf, List.length_append]
      omega
    obtain ⟨hmac, hlength⟩ := hframe.checks (p := t.obj.recvBuf) (by rw [hbuf]) hlen
    obtain ⟨hsum, hout⟩ := hframe.complete rest
    obtain ⟨-, -, -, hmax⟩ := hframe
    refine .inl ⟨_, ?_, ?_, ?_, h.tail (t.outBuf ++ f.output) rest t.sendback⟩
    · rw [clientRecvBody]
      dsimp only
      rw [if_pos hlen, hkey]
      dsimp only
      rw [if_neg (not_not.2 hmac), hlength, if_neg (by omega), hbuf,
        if_neg (by rw [List.length_append]; omega), if_neg (not_not.2 hsum), hout,
        List.drop_left]
    · rfl
    · rfl
  empty {t} h hbuf := by
    refine ⟨t, ?_, hbuf, rfl, h⟩
    rw [clientRecvBody]
    dsimp only
    rw [if_neg (by rw [hbuf]; decide)]

theorem lockstep_server : Lockstep (serverRecvBody C) (fun t => t.obj.recvBuf) Recv.outBuf
    (fun fs t => Expects C hashfunc userKey fs t ∧ t.obj.hasRecvHeader = true) where
  bytes_ne_nil h := h.1.bytes_ne_nil
  incomplete {f fs t} h hp hne := by
    have hframe := h.1.head
    obtain ⟨-, -, rfl, hkey⟩ := id h.1
    refine ⟨t, ?_, rfl, rfl, h⟩
    rw [serverRecvBody]
    by_cases hlen : t.obj.recvBuf.length > 4
    · obtain ⟨hmac, hlength⟩ := hframe.checks
        (by rw [List.append_nil]; exact hp) hlen
      have hseven := hframe.seven_le
      have hlt : t.obj.recvBuf.length < f.bytes.length :=
        hp.length_le.lt_of_ne fun heq => hne (hp.eq_of_length heq)
      obtain ⟨-, -, -, hmax⟩ := hframe
      dsimp only
      rw [if_pos hlen, hkey]
      dsimp only
      rw [if_neg (not_not.2 hmac), hlength, if_neg (by omega), if_pos hlt]
    · dsimp only
      rw [if_neg hlen]
  complete {f fs t rest} h hbuf := by
    have hframe := h.1.head
    obtain ⟨-, -, rfl, hkey⟩ := id h.1
    have hseven := hframe.seven_le
    have hlen : t.obj.recvBuf.length > 4 := by
      rw [hbuf, List.length_append]
      omega
    obtain ⟨hmac, hlength⟩ := hframe.checks (p := t.obj.recvBuf) (by rw [hbuf]) hlen
    obtain ⟨hsum, hout⟩ := hframe.complete rest
    obtain ⟨-, -, -, hmax⟩ := hframe
    refine .inl ⟨_, ?_, ?_, ?_, h.1.tail (t.outBuf ++ f.output) rest
      (t.sendback || dataPos (f.bytes ++ rest) == f.bytes.length - 4), h.2⟩
    · rw [serverRecvBody]
      dsimp only
      rw [if_pos hlen, hkey]
      dsimp only
      rw [if_neg (not_not.2 hmac), hlength, if_neg (by omega), hbuf,
        if_neg (by rw [List.length_append]; omega), if_neg (not_not.2 hsum), hout,
        List.drop_left]
    · rfl
    · rfl
  empty {t} h hbuf := by
    refine ⟨t, ?_, hbuf, rfl, h⟩
    rw [serverRecvBody]
    dsimp only
    rw [if_neg (by rw [hbuf]; decide)]

end AuthAes128

end ShadowsocksR

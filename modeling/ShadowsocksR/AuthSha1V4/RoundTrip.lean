import ShadowsocksR.AuthSha1V4.Object
import ShadowsocksR.Lib.Chunks
import ShadowsocksR.Lib.PaddedFrame

/-!
# The round trip of auth_sha1_v4

The header and the frames of `auth_sha1_v4` are padded frames, of two formats.

* `packData_spec`, `packAuthData_spec`: a sender makes a frame, and a header;
* `lockstep_client`, `lockstep_server`: the loops of the receivers take the
  frames off their buffers;
* `sha1V4_round_trip`: whatever the chunks in which the stream of one end comes to the
  other one, what comes out is what has gone in.
-/

namespace ShadowsocksR

namespace AuthSha1V4

open AuthBase (Result getHeadSize)

variable (K : Sums) (C : Crypto)

/-! ## Formats -/

/-- The format of the frames. -/
def dataFormat : FrameFormat where
  packLen := packBE 2
  unpackLen := unpackBE
  checkSize := 2
  check := crc K
  sumSize := 4
  sum := adler K
  length_packLen := length_packBE 2
  unpackLen_packLen h := unpackBE_packBE h
  length_check _ := length_packLE _ _
  length_sum _ := length_packLE _ _

/-- The format of a header. -/
def headFormat (key macKey : Bytes) : FrameFormat where
  packLen := packBE 2
  unpackLen := unpackBE
  checkSize := 4
  check := headCrc K key
  sumSize := 10
  sum := headHmac C macKey
  length_packLen := length_packBE 2
  unpackLen_packLen h := unpackBE_packBE h
  length_check _ := length_packLE _ _
  length_sum _ := by
    rw [headHmac, List.length_take, C.length_hmac]
    rfl

/-- A frame that an end sends. -/
def IsFrame (f : Frame) : Prop :=
  ∃ pad, (dataFormat K).Padding pad ∧ f.bytes = (dataFormat K).frame (pad ++ f.output) ∧
    f.bytes.length < 8192

variable {K C}

theorem length_rndLen (bufSize : ℕ) (rng : Rng) : (rndLen bufSize rng).1 < 512 := by
  rw [rndLen]
  split_ifs <;> dsimp only <;> omega

/-- The padding of a buffer, in a format with big-endian lengths. -/
theorem rndData_spec {F : FrameFormat} (hF : F.packLen = packBE 2) (bufSize : ℕ) (rng : Rng) :
    F.Padding (rndData bufSize rng).1 ∧
      (rndData bufSize rng).1.length ≤ if bufSize > 1200 then 1 else 514 := by
  rw [rndData]
  by_cases hlong : bufSize > 1200
  · rw [if_pos hlong, if_pos hlong]
    exact ⟨@FrameFormat.Padding.short F [] (by decide), le_rfl⟩
  · rw [if_neg hlong, if_neg hlong]
    have hlt := length_rndLen bufSize rng
    obtain ⟨⟨n, rng'⟩, hn⟩ : ∃ r, rndLen bufSize rng = r := ⟨_, rfl⟩
    rw [hn] at hlt ⊢
    obtain ⟨random, hrandom⟩ : ∃ random, (randBytes n rng').1 = random := ⟨_, rfl⟩
    have hlen : random.length = n := by rw [← hrandom, length_randBytes]
    dsimp only at hlt ⊢
    rw [hrandom]
    split_ifs with hshort
    · refine ⟨?_, by simp [hlen]; omega⟩
      rw [← hlen]
      exact .short (by omega)
    · refine ⟨?_, by simp [hlen]; omega⟩
      have := @FrameFormat.Padding.long F random (by omega)
      rw [hF, hlen] at this
      exact this

/-- A frame of a sender. -/
theorem packData_spec (s : AuthSha1V4) {buf : Bytes} (hbuf : buf.length ≤ unitLen) :
    ∃ f rng, packData K s buf = .ok (f.bytes, { s with rng }) ∧ f.output = buf ∧
      IsFrame K f := by
  obtain ⟨hpad, hlen⟩ := rndData_spec (F := dataFormat K) rfl buf.length s.rng
  obtain ⟨⟨pad, rng⟩, hr⟩ : ∃ r, rndData buf.length s.rng = r := ⟨_, rfl⟩
  rw [hr] at hpad hlen
  dsimp only at hpad hlen
  rw [unitLen] at hbuf
  have hlt : (pad ++ buf).length + 8 < 8192 := by
    rw [List.length_append]
    split_ifs at hlen <;> omega
  have hsize : (dataFormat K).size (pad ++ buf).length = (pad ++ buf).length + 8 := by
    change 2 + 2 + _ + 4 = _
    omega
  refine ⟨⟨(dataFormat K).frame (pad ++ buf), buf⟩, rng, ?_, rfl, pad, hpad, rfl, ?_⟩
  · rw [packData, hr]
    dsimp only
    rw [packHigh_of_lt (by omega), FrameFormat.frame, FrameFormat.body, hsize, List.append_assoc]
    rfl
  · dsimp only
    rw [FrameFormat.length_frame, hsize]
    exact hlt

/-- The header of a sender. -/
theorem packAuthData_spec (s : AuthSha1V4) {buf : Bytes} (hne : buf ≠ []) (hbuf : buf.length ≤ 400) :
    ∃ pad rng, packAuthData K C s buf = .ok
        ((headFormat K C s.serverInfo.key (s.serverInfo.iv ++ s.serverInfo.key)).frame (pad ++ buf),
          { s with rng }) ∧
      (headFormat K C s.serverInfo.key (s.serverInfo.iv ++ s.serverInfo.key)).Padding pad ∧
      pad.length ≤ 514 := by
  obtain ⟨hpad, hlen⟩ := rndData_spec
    (F := headFormat K C s.serverInfo.key (s.serverInfo.iv ++ s.serverInfo.key)) rfl buf.length s.rng
  obtain ⟨⟨pad, rng⟩, hr⟩ : ∃ r, rndData buf.length s.rng = r := ⟨_, rfl⟩
  rw [hr] at hpad hlen
  dsimp only at hpad hlen
  rw [if_neg (by omega)] at hlen
  have hsize : (headFormat K C s.serverInfo.key (s.serverInfo.iv ++ s.serverInfo.key)).size
      (pad ++ buf).length = (pad ++ buf).length + 16 := by
    change 2 + 4 + _ + 10 = _
    omega
  refine ⟨pad, rng, ?_, hpad, hlen⟩
  have hlt : (pad ++ buf).length + 16 < 256 ^ 2 := by
    rw [List.length_append]
    omega
  rw [packAuthData, if_neg (by rw [List.length_eq_zero_iff]; exact hne), hr]
  dsimp only
  rw [packHigh_of_lt hlt, FrameFormat.frame, FrameFormat.body, hsize, List.append_assoc]
  rfl

/-! ## Sending -/

/-- What packing a buffer keeps. -/
def Kept (s s' : AuthSha1V4) : Prop := ∃ rng, s' = { s with rng }

/-- A buffer is sent as frames. -/
theorem packAll_spec (t : Cut AuthSha1V4) :
    ∃ fs s', packAll K t = .ok (t.ret ++ wire fs, s') ∧ carried fs = t.buf ∧ fs ≠ [] ∧
      (∀ f ∈ fs, IsFrame K f) ∧ Kept t.obj s' := by
  obtain ⟨fs, t', ht', hret, hcar, hne, hsends, hP⟩ := cut_frames
    (R := fun _ f _ => IsFrame K f) (P := Kept t.obj) (show 0 < unitLen by decide)
    (fun s p hs hp => by
      obtain ⟨rng, rfl⟩ := hs
      obtain ⟨f, rng', hf, hout, hframe⟩ := packData_spec (K := K) { t.obj with rng } hp
      exact ⟨f, _, hf, hout, hframe, rng', rfl⟩)
    (t.buf.length + 1) ⟨t.obj.rng, rfl⟩ (Nat.lt_succ_self _)
  refine ⟨fs, t'.obj, ?_, hcar, hne, hsends.forall_mem id, hP⟩
  rw [packAll, ht']
  dsimp only
  rw [hret]

/-! ## Receiving frames -/

theorem IsFrame.length_pos {f : Frame} (h : IsFrame K f) : 7 ≤ f.bytes.length := by
  obtain ⟨pad, hpad, hbytes, -⟩ := h
  have hsize : (dataFormat K).size (pad ++ f.output).length = 2 + 2 + (pad ++ f.output).length + 4 :=
    rfl
  rw [hbytes, FrameFormat.length_frame, hsize]
  omega

/-- The first checks, for the beginning of a frame. -/
theorem IsFrame.checks {f : Frame} (h : IsFrame K f) {p rest : Bytes} (hp : p <+: f.bytes ++ rest)
    (hlen : 4 < p.length) :
    crc K (p.take 2) = p.extract 2 4 ∧ unpackBE (p.take 2) = f.bytes.length := by
  have hpos := h.length_pos
  obtain ⟨pad, hpad, hbytes, hlt⟩ := h
  rw [hbytes] at hp hlt ⊢
  rw [FrameFormat.length_frame] at hlt ⊢
  exact ⟨FrameFormat.check_take (F := dataFormat K) hp (show 4 ≤ p.length by omega),
    FrameFormat.length_take (F := dataFormat K) hp (by omega) (by omega)⟩

/-- The beginning of a frame. -/
theorem takeFrame_incomplete {f : Frame} (h : IsFrame K f) {p : Bytes} (hp : p <+: f.bytes)
    (hne : p ≠ f.bytes) (hlen : 4 < p.length) : takeFrame K p = .incomplete := by
  obtain ⟨hcrc, hlength⟩ := h.checks (by rw [List.append_nil]; exact hp) hlen
  have hpos := h.length_pos
  have hlt : p.length < f.bytes.length :=
    hp.length_le.lt_of_ne fun heq => hne (hp.eq_of_length heq)
  obtain ⟨-, -, -, hmax⟩ := h
  rw [takeFrame, if_neg (not_not.2 hcrc)]
  dsimp only
  rw [hlength, if_neg (by omega), if_pos hlt]

/-- A whole frame, with more bytes after it. -/
theorem takeFrame_complete {f : Frame} (h : IsFrame K f) (rest : Bytes) :
    ∃ pos, takeFrame K (f.bytes ++ rest) = .frame f.output rest pos f.bytes.length := by
  obtain ⟨hcrc, hlength⟩ := h.checks (p := f.bytes ++ rest) List.prefix_rfl (by
    have := h.length_pos
    rw [List.length_append]
    omega)
  have hpos := h.length_pos
  obtain ⟨pad, hpad, hbytes, hmax⟩ := h
  have hsize : (dataFormat K).size (pad ++ f.output).length = f.bytes.length := by
    rw [hbytes, FrameFormat.length_frame]
  have hsum : adler K ((f.bytes ++ rest).take (f.bytes.length - 4)) =
      (f.bytes ++ rest).extract (f.bytes.length - 4) f.bytes.length := by
    have := (dataFormat K).sum_take (pad ++ f.output) rest
    rw [hsize, ← hbytes] at this
    exact this
  have hout : (f.bytes ++ rest).extract (dataPos (f.bytes ++ rest)) (f.bytes.length - 4) =
      f.output := by
    have := FrameFormat.extract_dataPos hpad f.output rest
    rw [hsize, ← hbytes] at this
    exact this
  refine ⟨dataPos (f.bytes ++ rest), ?_⟩
  rw [takeFrame, if_neg (not_not.2 hcrc)]
  dsimp only
  rw [hlength, if_neg (by omega), if_neg (by rw [List.length_append]; omega),
    if_neg (not_not.2 hsum), hout, List.drop_left]

/-- The frames `fs` come next, to an object that has not given up. -/
def Expects (K : Sums) (fs : List Frame) (t : Recv) : Prop :=
  (∀ f ∈ fs, IsFrame K f) ∧ t.obj.rawTrans = false

theorem Expects.bytes_ne_nil {fs : List Frame} {t : Recv} (h : Expects K fs t) :
    ∀ f ∈ fs, f.bytes ≠ [] := fun f hf =>
  List.ne_nil_of_length_pos (by have := (h.1 f hf).length_pos; omega)

theorem lockstep_client : Lockstep (clientRecvBody K) (fun t => t.obj.recvBuf) Recv.outBuf
    (Expects K) where
  bytes_ne_nil := Expects.bytes_ne_nil
  incomplete {f fs t} h hp hne := by
    refine ⟨t, ?_, rfl, rfl, h⟩
    rw [clientRecvBody]
    split_ifs with hlen
    · rw [takeFrame_incomplete (h.1 f List.mem_cons_self) hp hne hlen]
    · rfl
  complete {f fs t rest} h hbuf := by
    have hframe := h.1 f List.mem_cons_self
    obtain ⟨pos, htake⟩ := takeFrame_complete hframe rest
    refine .inl ⟨{ t with
        obj := { t.obj with recvBuf := rest }
        outBuf := t.outBuf ++ f.output }, ?_, rfl, rfl,
      fun g hg => h.1 g (List.mem_cons_of_mem _ hg), h.2⟩
    have := hframe.length_pos
    rw [clientRecvBody]
    rw [if_pos (by rw [hbuf, List.length_append]; omega), hbuf, htake]
  empty {t} h hbuf := by
    refine ⟨t, ?_, hbuf, rfl, h⟩
    rw [clientRecvBody]
    rw [if_neg (by rw [hbuf]; decide)]

theorem lockstep_server : Lockstep (serverRecvBody K) (fun t => t.obj.recvBuf) Recv.outBuf
    (fun fs t => Expects K fs t ∧ t.obj.hasRecvHeader = true) where
  bytes_ne_nil h := h.1.bytes_ne_nil
  incomplete {f fs t} h hp hne := by
    refine ⟨t, ?_, rfl, rfl, h⟩
    rw [serverRecvBody]
    split_ifs with hlen
    · rw [takeFrame_incomplete (h.1.1 f List.mem_cons_self) hp hne hlen]
    · rfl
  complete {f fs t rest} h hbuf := by
    have hframe := h.1.1 f List.mem_cons_self
    obtain ⟨pos, htake⟩ := takeFrame_complete hframe rest
    refine .inl ⟨
      { obj := { t.obj with recvBuf := rest }
        outBuf := t.outBuf ++ f.output
        sendback := t.sendback || pos == f.bytes.length - 4 }, ?_, rfl, rfl,
      ⟨fun g hg => h.1.1 g (List.mem_cons_of_mem _ hg), h.1.2⟩, h.2⟩
    have := hframe.length_pos
    rw [serverRecvBody]
    rw [if_pos (by rw [hbuf, List.length_append]; omega), hbuf, htake]
  empty {t} h hbuf := by
    refine ⟨t, ?_, hbuf, rfl, h⟩
    rw [serverRecvBody]
    rw [if_neg (by rw [hbuf]; decide)]

/-! ## The header -/

/-- The header of a client whose clock shows `clock`, with the first bytes of its stream. -/
def IsHeader (K : Sums) (C : Crypto) (key macKey : Bytes) (clock : Time) (localData : LocalData)
    (first header : Bytes) : Prop :=
  localData.localClientId.length = 4 ∧ localData.connectionId < 2 ^ 32 ∧
  ∃ pad, (headFormat K C key macKey).Padding pad ∧ header.length < 2 ^ 16 ∧
    header = (headFormat K C key macKey).frame (pad ++ (packLE 4 clock.uint32.toNat ++
      localData.localClientId ++ packLE 4 localData.connectionId ++ first))

/-- The server accepts a header now: its timestamp is in the window, and the shared data accepts
    its ids. -/
def Accepts (now : Time) (data : ObfsAuthV2Data) (clock : Time) (localData : LocalData) : Prop :=
  InWindow now clock.uint32.toNat ∧ ∃ data', data.insert now () (unpackLE localData.localClientId)
    localData.connectionId = some (true, data')

/-- A server that has not received the header. -/
structure Waits (key iv p : Bytes) (s : AuthSha1V4) : Prop where
  rawTrans : s.rawTrans = false
  hasRecvHeader : s.hasRecvHeader = false
  key : s.serverInfo.key = key
  recvIv : s.serverInfo.recvIv = iv
  recvBuf : s.recvBuf = p

variable {key iv header first : Bytes} {clock : Time} {localData : LocalData}

theorem authData_eq (now : Time) (s : AuthSha1V4) : ∃ (localData : LocalData) (rng : Rng),
    s.authData now = (packLE 4 now.uint32.toNat ++ localData.localClientId ++
      packLE 4 localData.connectionId, { s with localData, rng }) ∧
    localData.localClientId.length = 4 ∧ localData.connectionId < 2 ^ 32 :=
  ⟨_, _, rfl, s.localData.renew_spec s.rng⟩

/-- The first buffer of a client. -/
theorem clientPreEncrypt_hello {c : AuthSha1V4} (hc : c.hasSentHeader = false) (now : Time)
    (buf : Bytes) : ∃ header first fs c', clientPreEncrypt K C now c buf =
        .ok (header ++ wire fs, c') ∧
      IsHeader K C c.serverInfo.key (c.serverInfo.iv ++ c.serverInfo.key) now c'.localData first
        header ∧
      first ++ carried fs = buf ∧ (∀ f ∈ fs, IsFrame K f) ∧ c'.hasSentHeader = true := by
  obtain ⟨loc, rng, hauth, hid, hconn⟩ := authData_eq now { c with rng := (randint 0 31 c.rng).2 }
  obtain ⟨n, hn⟩ : ∃ n, min buf.length ((randint 0 31 c.rng).1 + getHeadSize buf 30) = n :=
    ⟨_, rfl⟩
  have hfirst : (buf.take n).length ≤ 290 := by
    have h₁ := AuthBase.getHeadSize_le buf (show 30 ≤ 259 by norm_num)
    have h₂ : (randint 0 31 c.rng).1 ≤ 31 := by
      rw [randint]
      omega
    rw [List.length_take]
    omega
  obtain ⟨plain, hplain⟩ : ∃ plain, plain = packLE 4 now.uint32.toNat ++ loc.localClientId ++
    packLE 4 loc.connectionId ++ buf.take n := ⟨_, rfl⟩
  have hlen : plain.length = 12 + (buf.take n).length := by
    simp only [hplain, List.length_append, length_packLE, hid]
  obtain ⟨pad, rng', hpack, hpad, hpadlen⟩ := packAuthData_spec (K := K) (C := C)
    { c with localData := loc, rng := rng } 
    (show plain ≠ [] from List.ne_nil_of_length_pos (by omega)) (by omega)
  obtain ⟨fs, c', hall, hcar, -, hfs, rng'', hc'⟩ := packAll_spec (K := K)
    { obj := { c with localData := loc, rng := rng', hasSentHeader := true }
      buf := buf.drop n
      ret := (headFormat K C c.serverInfo.key (c.serverInfo.iv ++ c.serverInfo.key)).frame
        (pad ++ plain) }
  have hloc : c'.localData = loc := by rw [hc']
  refine ⟨_, buf.take n, fs, c', ?_, ⟨by rw [hloc]; exact hid, by rw [hloc]; exact hconn, pad, hpad,
    ?_, by rw [hloc, ← hplain]⟩, ?_, hfs, by rw [hc']⟩
  · rw [clientPreEncrypt, if_neg (by rw [hc]; decide)]
    dsimp only
    rw [hn, hauth]
    dsimp only
    rw [← hplain, hpack]
    exact hall
  · rw [FrameFormat.length_frame]
    change 2 + 4 + (pad ++ plain).length + 10 < 2 ^ 16
    rw [List.length_append]
    omega
  · rw [hcar]
    exact List.take_append_drop n buf

/-- The first checks of a server, for the beginning of a header. -/
theorem IsHeader.checks {macKey : Bytes}
    (h : IsHeader K C key macKey clock localData first header) {p rest : Bytes}
    (hp : p <+: header ++ rest) (hlen : 6 < p.length) :
    headCrc K key (p.take 2) = p.extract 2 6 ∧ unpackBE (p.take 2) = header.length := by
  obtain ⟨-, -, pad, hpad, hlt, hheader⟩ := h
  rw [hheader] at hp hlt ⊢
  rw [FrameFormat.length_frame] at hlt ⊢
  exact ⟨FrameFormat.check_take (F := headFormat K C key macKey) hp (show 6 ≤ p.length by omega),
    FrameFormat.length_take hp (by omega) hlt⟩

/-- A server waits for the rest of a header. -/
theorem recvHeader_incomplete (now : Time) (data : ObfsAuthV2Data) {macKey p : Bytes}
    (h : IsHeader K C key macKey clock localData first header) {s : AuthSha1V4}
    (hs : Waits key iv p s) (hp : p <+: header) (hne : p ≠ header) :
    recvHeader K C now data s = (.error (.ok ([], false)), s, data) := by
  rw [recvHeader]
  dsimp only
  rw [hs.recvBuf, hs.key]
  by_cases hlen : p.length ≤ 6
  · rw [if_pos hlen]
  · obtain ⟨hcrc, hlength⟩ := h.checks (by rw [List.append_nil]; exact hp)
      (show 6 < p.length by omega)
    have hlt : p.length < header.length :=
      hp.length_le.lt_of_ne fun heq => hne (hp.eq_of_length heq)
    rw [if_neg hlen, if_neg (not_not.2 hcrc), hlength, if_pos (by omega)]

/-- A server accepts a whole header, with more bytes after it. -/
theorem recvHeader_complete {now : Time} {data : ObfsAuthV2Data} {rest : Bytes}
    (h : IsHeader K C key (iv ++ key) clock localData first header) {s : AuthSha1V4}
    (hs : Waits key iv (header ++ rest) s) (hacc : Accepts now data clock localData) :
    ∃ s' data', recvHeader K C now data s = (.ok first, s', data') ∧ s'.recvBuf = rest ∧
      s'.hasRecvHeader = true ∧ s'.rawTrans = false := by
  have hchecks := h.checks (p := header ++ rest) List.prefix_rfl
  obtain ⟨hid, hconn, pad, hpad, hlt, hheader⟩ := h
  obtain ⟨hwin, data', hins⟩ := hacc
  obtain ⟨plain, hplain⟩ : ∃ plain, plain = packLE 4 clock.uint32.toNat ++
    localData.localClientId ++ packLE 4 localData.connectionId ++ first := ⟨_, rfl⟩
  rw [← hplain] at hheader
  have hlen : plain.length = 12 + first.length := by
    simp only [hplain, List.length_append, length_packLE, hid]
  have hsize : (headFormat K C key (iv ++ key)).size (pad ++ plain).length = header.length := by
    rw [hheader, FrameFormat.length_frame]
  have hpadpos := List.length_pos_iff.2 hpad.ne_nil
  have hlength : header.length = 16 + pad.length + plain.length := by
    rw [← hsize]
    change 2 + 4 + (pad ++ plain).length + 10 = _
    rw [List.length_append]
    omega
  obtain ⟨hcrc, hlen'⟩ := hchecks (by rw [List.length_append]; omega)
  obtain ⟨hp₁, hp₂, hp₃⟩ := AuthBase.plain_head clock.uint32_lt hid hconn hplain
  have hsub : ((header.length : ℤ) - 10) = ((header.length - 10 : ℕ) : ℤ) := by omega
  have hsum : headHmac C (iv ++ key) ((header ++ rest).take (header.length - 10)) =
      (header ++ rest).extract (header.length - 10) header.length := by
    have := (headFormat K C key (iv ++ key)).sum_take (pad ++ plain) rest
    rw [hsize, ← hheader] at this
    exact this
  have hdata : headData (header ++ rest) = .ok plain := by
    have := FrameFormat.extract_dataPos hpad plain rest
    rw [hsize, ← hheader] at this
    rw [headData, hlen', hsub]
    rw [show (headFormat K C key (iv ++ key)).dataPos (header ++ rest) =
      if unpackLE ((header ++ rest).extract 6 7) < 255 then
        unpackLE ((header ++ rest).extract 6 7) + 6
      else unpackBE ((header ++ rest).extract 7 9) + 6 from rfl] at this
    split_ifs at this ⊢ with hshort hbuf
    · rw [← this]
      exact congrArg Except.ok (slice_natCast _ _ _)
    · rw [List.length_append] at hbuf
      omega
    · rw [← this]
      exact congrArg Except.ok (slice_natCast _ _ _)
  refine ⟨{ s with
    hasRecvHeader := true
    clientId := unpackLE localData.localClientId
    connectionId := localData.connectionId
    recvBuf := rest }, data', ?_, rfl, rfl, hs.rawTrans⟩
  rw [recvHeader]
  dsimp only
  rw [hs.recvBuf, hs.key, hs.recvIv, if_neg (by rw [List.length_append]; omega),
    if_neg (not_not.2 hcrc), hlen', if_neg (by rw [List.length_append]; omega), hsub,
    takeTo_natCast, slice_natCast, if_neg (not_not.2 hsum), hdata]
  dsimp only
  rw [hp₁, hp₂, hp₃, if_neg (by omega), if_pos hwin, hins]
  dsimp only
  rw [dropTo_natCast, List.drop_left, hplain, List.drop_left' (by simp [hid])]

/-! ## Streams -/

/-- A buffer that a client sends, and the time when it does. -/
structure ClientSend where
  now : Time
  buf : Bytes

/-- A chunk that a server receives, with the shared data of that time. -/
structure ServerRecv where
  now : Time
  data : ObfsAuthV2Data
  buf : Bytes

variable (K C) in
def clientSend (c : AuthSha1V4) (a : ClientSend) : Except PyExc (Bytes × AuthSha1V4) :=
  clientPreEncrypt K C a.now c a.buf

variable (K C) in
def serverRecv (s : AuthSha1V4) (a : ServerRecv) : Except PyExc (Bytes × AuthSha1V4) :=
  match serverPostDecrypt K C a.now a.data s a.buf with
  | (.ok (out, _), s, _) => .ok (out, s)
  | (.error e, _, _) => .error e

variable (K) in
def clientRecv (c : AuthSha1V4) (buf : Bytes) : Except PyExc (Bytes × AuthSha1V4) :=
  match clientPostDecrypt K c buf with
  | (.ok out, c) => .ok (out, c)
  | (.error e, _) => .error e

/-- The bytes `fut` complete frames that carry `data`. -/
def Frames (K : Sums) (recvBuf fut data : Bytes) : Prop :=
  ∃ fs, (∀ f ∈ fs, IsFrame K f) ∧ recvBuf ++ fut = wire fs ∧ carried fs = data ∧
    (fut = [] → data = [])

/-- A client that has sent its header goes on with frames. -/
theorem feed_clientSend (sends : List ClientSend) {c : AuthSha1V4} (hc : c.hasSentHeader = true) :
    ∃ fs c', feed (clientSend K C) c sends = .ok (wire fs, c') ∧ (∀ f ∈ fs, IsFrame K f) ∧
      carried fs = sends.flatMap ClientSend.buf ∧ c'.localData = c.localData := by
  induction sends generalizing c with
  | nil => exact ⟨[], c, rfl, fun f hf => absurd hf List.not_mem_nil, rfl, rfl⟩
  | cons a sends ih =>
    obtain ⟨fs, c₁, hall, hcar, -, hfs, rng, hc₁⟩ := packAll_spec (K := K)
      { obj := c, buf := a.buf }
    have hsend : clientSend K C c a = .ok (wire fs, c₁) := by
      rw [clientSend, clientPreEncrypt, if_pos hc, hall]
      rfl
    obtain ⟨fs', c', hfeed, hfs', hcar', hloc⟩ := ih (c := c₁) (by rw [hc₁]; exact hc)
    refine ⟨fs ++ fs', c', ?_, List.forall_mem_append.2 ⟨hfs, hfs'⟩, ?_, ?_⟩
    · rw [wire_append]
      exact feed_cons hsend hfeed
    · rw [carried_append, hcar, hcar', List.flatMap_cons]
    · rw [hloc, hc₁]

/-- A server sends frames. -/
theorem feed_serverSend (sends : List Bytes) {s : AuthSha1V4} (hs : s.rawTrans = false) :
    ∃ fs s', feed (serverPreEncrypt K) s sends = .ok (wire fs, s') ∧ (∀ f ∈ fs, IsFrame K f) ∧
      carried fs = sends.flatten := by
  induction sends generalizing s with
  | nil => exact ⟨[], s, rfl, fun f hf => absurd hf List.not_mem_nil, rfl⟩
  | cons buf sends ih =>
    obtain ⟨fs, s₁, hall, hcar, -, hfs, rng, hs₁⟩ := packAll_spec (K := K) { obj := s, buf }
    have hsend : serverPreEncrypt K s buf = .ok (wire fs, s₁) := by
      rw [serverPreEncrypt, if_neg (by rw [hs]; decide), hall]
      rfl
    obtain ⟨fs', s', hfeed, hfs', hcar'⟩ := ih (s := s₁) (by rw [hs₁]; exact hs)
    refine ⟨fs ++ fs', s', ?_, List.forall_mem_append.2 ⟨hfs, hfs'⟩, ?_⟩
    · rw [wire_append]
      exact feed_cons hsend hfeed
    · rw [carried_append, hcar, hcar', List.flatten_cons]

/-- A server takes the complete frames off its buffer, and puts them out after `outBuf`. -/
theorem recvFrames_spec (now : Time) (data : ObfsAuthV2Data) {t : Recv} {fs : List Frame}
    {fut : Bytes} (hfs : ∀ f ∈ fs, IsFrame K f) (hw : t.obj.recvBuf ++ fut = wire fs)
    (hraw : t.obj.rawTrans = false) (hhas : t.obj.hasRecvHeader = true) :
    ∃ out sendback rest s' data', recvFrames K now data t =
        (.ok (t.outBuf ++ out, sendback), s', data') ∧ carried fs = out ++ rest ∧
      s'.rawTrans = false ∧ s'.hasRecvHeader = true ∧ Frames K s'.recvBuf fut rest := by
  obtain ⟨done, todo, t', rfl, hloop, hbuf, hout, ⟨⟨htodo, hraw'⟩, hhas'⟩, hfin⟩ :=
    lockstep_server.loop_spec (t.obj.recvBuf.length + 1) ⟨⟨hfs, hraw⟩, hhas⟩ hw
      (Nat.lt_succ_self _)
  rw [recvFrames, hloop, carried_append]
  dsimp only
  rw [finishRecv, hout]
  split_ifs with hne
  · obtain ⟨table, -, hupdate⟩ := data.update_isSome now () t'.obj.clientId
    rw [hupdate]
    exact ⟨carried done, _, carried todo, _, _, rfl, rfl, hraw', hhas', todo, htodo, hbuf, rfl,
      hfin⟩
  · exact ⟨carried done, _, carried todo, _, _, rfl, rfl, hraw', hhas', todo, htodo, hbuf, rfl,
      hfin⟩

/-- One call of a server that has received the header. -/
theorem serverRecv_spec {s : AuthSha1V4} {a : ServerRecv} {fut data : Bytes}
    (h : s.rawTrans = false ∧ s.hasRecvHeader = true ∧ Frames K s.recvBuf (a.buf ++ fut) data) :
    ∃ out data' s', serverRecv K C s a = .ok (out, s') ∧ data = out ++ data' ∧
      s'.rawTrans = false ∧ s'.hasRecvHeader = true ∧ Frames K s'.recvBuf fut data' := by
  obtain ⟨hraw, hhas, fs, hfs, hw, rfl, -⟩ := h
  rw [← List.append_assoc] at hw
  obtain ⟨out, sendback, rest, s', data', hrecv, hcar, hs'⟩ := recvFrames_spec a.now a.data
    (t := { obj := { s with recvBuf := s.recvBuf ++ a.buf } }) hfs hw hraw hhas
  refine ⟨out, rest, s', ?_, hcar, hs'⟩
  rw [serverRecv, serverPostDecrypt, if_neg (by rw [hraw]; decide)]
  dsimp only
  rw [if_pos hhas, hrecv]
  rfl

/-- The call in which a server receives the end of the header. -/
theorem serverRecv_header {s : AuthSha1V4} {a : ServerRecv} {p rest fut : Bytes} {fs : List Frame}
    (hheader : IsHeader K C key (iv ++ key) clock localData first header) (hs : Waits key iv p s)
    (hacc : Accepts a.now a.data clock localData) (hp : p ++ a.buf = header ++ rest)
    (hw : rest ++ fut = wire fs) (hfs : ∀ f ∈ fs, IsFrame K f) :
    ∃ out data' s', serverRecv K C s a = .ok (out, s') ∧ first ++ carried fs = out ++ data' ∧
      s'.rawTrans = false ∧ s'.hasRecvHeader = true ∧ Frames K s'.recvBuf fut data' := by
  obtain ⟨s₁, data₁, hhead, rfl, hhas, hraw⟩ := recvHeader_complete hheader
    (s := { s with recvBuf := s.recvBuf ++ a.buf })
    ⟨hs.rawTrans, hs.hasRecvHeader, hs.key, hs.recvIv, by rw [hs.recvBuf]; exact hp⟩ hacc
  obtain ⟨out, sendback, todo, s', data', hrecv, hcar, hs'⟩ := recvFrames_spec a.now data₁
    (t := { obj := s₁, outBuf := first, sendback := true }) hfs hw hraw hhas
  refine ⟨first ++ out, todo, s', ?_, by rw [hcar, List.append_assoc], hs'⟩
  rw [serverRecv, serverPostDecrypt, if_neg (by rw [hs.rawTrans]; decide)]
  dsimp only
  rw [if_neg (by rw [hs.hasRecvHeader]; decide), hhead]
  dsimp only
  rw [hrecv]

/-- A call of a server in which the header is still incomplete. -/
theorem serverRecv_wait {s : AuthSha1V4} {a : ServerRecv} {p : Bytes}
    (hheader : IsHeader K C key (iv ++ key) clock localData first header) (hs : Waits key iv p s)
    (hp : p ++ a.buf <+: header) (hne : p ++ a.buf ≠ header) :
    ∃ s', serverRecv K C s a = .ok ([], s') ∧ Waits key iv (p ++ a.buf) s' := by
  have hs' : Waits key iv (p ++ a.buf) { s with recvBuf := s.recvBuf ++ a.buf } :=
    ⟨hs.rawTrans, hs.hasRecvHeader, hs.key, hs.recvIv, by rw [hs.recvBuf]⟩
  refine ⟨_, ?_, hs'⟩
  rw [serverRecv, serverPostDecrypt, if_neg (by rw [hs.rawTrans]; decide)]
  dsimp only
  rw [if_neg (by rw [hs.hasRecvHeader]; decide),
    recvHeader_incomplete a.now a.data hheader hs' hp hne]

/-- One call of `client_post_decrypt`. -/
theorem clientRecv_spec {c : AuthSha1V4} {buf fut data : Bytes}
    (h : c.rawTrans = false ∧ Frames K c.recvBuf (buf ++ fut) data) :
    ∃ out data' c', clientRecv K c buf = .ok (out, c') ∧ data = out ++ data' ∧
      c'.rawTrans = false ∧ Frames K c'.recvBuf fut data' := by
  obtain ⟨hraw, fs, hfs, hw, rfl, -⟩ := h
  rw [← List.append_assoc] at hw
  obtain ⟨done, todo, t', rfl, hloop, hbuf, hout, ⟨htodo, hraw'⟩, hfin⟩ :=
    lockstep_client.loop_spec ((c.recvBuf ++ buf).length + 1)
      (t := { obj := { c with recvBuf := c.recvBuf ++ buf } }) ⟨hfs, hraw⟩ hw
      (Nat.lt_succ_self _)
  rw [clientRecv, clientPostDecrypt, if_neg (by rw [hraw]; decide)]
  dsimp only
  rw [hloop]
  dsimp only
  rw [hout, carried_append]
  refine ⟨carried done, carried todo, _, rfl, rfl, ?_, todo, htodo, ?_, rfl, hfin⟩
  · split_ifs <;> exact hraw'
  · split_ifs <;> exact hbuf

/-- Frames on their way to an empty buffer. -/
theorem frames_wire {fs : List Frame} (hfs : ∀ f ∈ fs, IsFrame K f) :
    Frames K [] (wire fs) (carried fs) := by
  refine ⟨fs, hfs, rfl, rfl, fun hw => ?_⟩
  have hlen := length_le_wire fun f hf =>
    List.ne_nil_of_length_pos (by have := (hfs f hf).length_pos; omega)
  rw [hw, List.length_nil, Nat.le_zero, List.length_eq_zero_iff] at hlen
  rw [hlen]
  rfl

/-- A server that receives nothing waits. -/
theorem serverRecv_nil {s : AuthSha1V4} (hs : Waits key iv [] s) {a : ServerRecv}
    (ha : a.buf = []) : ∃ s', serverRecv K C s a = .ok ([], s') ∧ Waits key iv [] s' := by
  refine ⟨{ s with recvBuf := s.recvBuf ++ a.buf }, ?_,
    ⟨hs.rawTrans, hs.hasRecvHeader, hs.key, hs.recvIv, by rw [hs.recvBuf, ha]; rfl⟩⟩
  rw [serverRecv, serverPostDecrypt, if_neg (by rw [hs.rawTrans]; decide)]
  dsimp only
  rw [if_neg (by rw [hs.hasRecvHeader]; decide), recvHeader, hs.recvBuf, ha]
  rfl

theorem feed_serverRecv_nil {s : AuthSha1V4} (hs : Waits key iv [] s) {chunks : List ServerRecv}
    (h : chunks.flatMap ServerRecv.buf = []) :
    ∃ s', feed (serverRecv K C) s chunks = .ok ([], s') ∧ s'.rawTrans = false := by
  induction chunks generalizing s with
  | nil => exact ⟨s, rfl, hs.rawTrans⟩
  | cons a chunks ih =>
    rw [List.flatMap_cons, List.append_eq_nil_iff] at h
    obtain ⟨s₁, hrecv, hs₁⟩ := serverRecv_nil (K := K) (C := C) hs h.1
    obtain ⟨s', hfeed, hraw⟩ := ih hs₁ h.2
    exact ⟨s', feed_cons hrecv hfeed, hraw⟩

/-- The first bytes of a client come with the header, whatever the chunks. -/
theorem feed_serverRecv {s : AuthSha1V4} {chunks : List ServerRecv} {fs : List Frame}
    (hheader : IsHeader K C key (iv ++ key) clock localData first header) (hs : Waits key iv [] s)
    (hfs : ∀ f ∈ fs, IsFrame K f) (hchunks : chunks.flatMap ServerRecv.buf = header ++ wire fs)
    (hacc : AtByte ServerRecv.buf (fun a => Accepts a.now a.data clock localData) header.length
      chunks) :
    ∃ s', feed (serverRecv K C) s chunks = .ok (first ++ carried fs, s') ∧ s'.rawTrans = false := by
  have hpos : 0 < header.length := by
    obtain ⟨-, -, pad, -, -, rfl⟩ := hheader
    exact List.length_pos_iff.2 FrameFormat.frame_ne_nil
  obtain ⟨outs, data', s', hfeed, hdata, hraw, -, gs, hgs, -, rfl, hfin⟩ :=
    feed_header ServerRecv.buf
      (I := fun fut data s => s.rawTrans = false ∧ s.hasRecvHeader = true ∧
        Frames K s.recvBuf fut data)
      (fun hs hp hne => serverRecv_wait hheader hs hp hne)
      (fun hs hgood hp hrest => serverRecv_header hheader hs hgood hp hrest hfs)
      serverRecv_spec hs (by rw [List.nil_append]; exact hchunks) hpos hacc
  rw [hfin rfl, List.append_nil] at hdata
  exact ⟨s', by rw [hdata]; exact hfeed, hraw⟩

/-- Whatever the chunks in which the stream of one end comes to the other one, what comes out is
    what has gone in, and no end gives up, when the server accepts the header in the call in which
    it receives the last byte of it. -/
theorem sha1V4_round_trip {c s : AuthSha1V4} (hc : c.hasSentHeader = false)
    (hs : Waits c.serverInfo.key c.serverInfo.iv [] s) :
    (∀ sends : List ClientSend, ∃ stream c', feed (clientSend K C) c sends = .ok (stream, c') ∧
      ∀ chunks : List ServerRecv, chunks.flatMap ServerRecv.buf = stream →
        (∀ first ∈ sends.head?, AtByte ServerRecv.buf
          (fun a => Accepts a.now a.data first.now c'.localData) (unpackBE (stream.take 2))
          chunks) →
        ∃ s', feed (serverRecv K C) s chunks = .ok (sends.flatMap ClientSend.buf, s') ∧
          s'.rawTrans = false) ∧
    ∀ server client : AuthSha1V4, server.rawTrans = false → client.rawTrans = false →
      client.recvBuf = [] →
      ∀ sends : List Bytes, ∃ stream server',
        feed (serverPreEncrypt K) server sends = .ok (stream, server') ∧
        ∀ chunks : List Bytes, chunks.flatten = stream →
          ∃ client', feed (clientRecv K) client chunks = .ok (sends.flatten, client') ∧
            client'.rawTrans = false := by
  refine ⟨fun sends => ?_, fun server client hserver hclient hbuf sends => ?_⟩
  · cases sends with
    | nil => exact ⟨[], c, rfl, fun chunks hchunks _ => feed_serverRecv_nil hs hchunks⟩
    | cons a sends =>
      obtain ⟨header, first, fs, c₁, hsend, hheader, hfirst, hfs, hsent⟩ :=
        clientPreEncrypt_hello (K := K) (C := C) hc a.now a.buf
      obtain ⟨fs', c', hfeed, hfs', hcar, hloc⟩ :=
        feed_clientSend (K := K) (C := C) sends hsent
      refine ⟨header ++ wire fs ++ wire fs', c', feed_cons hsend hfeed,
        fun chunks hchunks hacc => ?_⟩
      have hlen : unpackBE ((header ++ wire fs ++ wire fs').take 2) = header.length :=
        (hheader.checks (by rw [List.append_assoc]) (by
          obtain ⟨-, -, pad, -, -, rfl⟩ := hheader
          rw [List.length_append, List.length_append, FrameFormat.length_frame]
          change 6 < 2 + 4 + _ + 10 + _ + _
          omega)).2
      have hacc' := hacc a rfl
      rw [hlen, hloc] at hacc'
      obtain ⟨s', hrecv, hraw⟩ := feed_serverRecv hheader hs
        (List.forall_mem_append.2 ⟨hfs, hfs'⟩)
        (by rw [hchunks, wire_append, List.append_assoc]) hacc'
      refine ⟨s', ?_, hraw⟩
      rw [hrecv, carried_append, ← List.append_assoc, hfirst, hcar, List.flatMap_cons]
  · obtain ⟨fs, server', hfeed, hfs, hcar⟩ := feed_serverSend (K := K) sends hserver
    refine ⟨wire fs, server', hfeed, fun chunks hchunks => ?_⟩
    obtain ⟨outs, data', client', hrecv, hdata, hraw, gs, -, -, rfl, hfin⟩ :=
      feed_spec (clientRecv K) id
        (I := fun fut data c => c.rawTrans = false ∧ Frames K c.recvBuf fut data)
        clientRecv_spec
        ⟨hclient, by rw [hbuf, List.flatMap_id, hchunks]; exact frames_wire hfs⟩
    rw [hfin rfl, List.append_nil, hcar] at hdata
    exact ⟨client', by rw [hdata]; exact hrecv, hraw⟩

/-- Two buffers of a client, which come in two chunks: of the first one, the header is not
    complete. -/
theorem sha1V4_round_trip_two : ∃ stream c', feed
      (clientSend ⟨List.length, List.length⟩ plainCrypto)
      { serverInfo := ⟨[1], [2], [3], [], 7, 1460⟩, rng := fun n => n } [⟨9, [3, 4, 5]⟩, ⟨20, []⟩] =
        .ok (stream, c') ∧
    ∃ s', feed (serverRecv ⟨List.length, List.length⟩ plainCrypto)
      { serverInfo := ⟨[1], [3], [2], [], 7, 1460⟩, rng := fun n => n }
      [⟨30, {}, stream.take 20⟩, ⟨40, {}, stream.drop 20⟩] = .ok ([3, 4, 5], s') ∧
        s'.rawTrans = false := by
  obtain ⟨stream, c', hsend, hrecv⟩ :=
    (sha1V4_round_trip (K := ⟨List.length, List.length⟩) (C := plainCrypto)
      (c := { serverInfo := ⟨[1], [2], [3], [], 7, 1460⟩, rng := fun n => n })
      (s := { serverInfo := ⟨[1], [3], [2], [], 7, 1460⟩, rng := fun n => n })
      rfl ⟨rfl, rfl, rfl, rfl, rfl⟩).1 [⟨9, [3, 4, 5]⟩, ⟨20, []⟩]
  refine ⟨stream, c', hsend, hrecv [⟨30, {}, stream.take 20⟩, ⟨40, {}, stream.drop 20⟩] ?_ ?_⟩
  · exact (congrArg _ (List.append_nil _)).trans (List.take_append_drop 20 stream)
  · rintro first ⟨rfl⟩
    refine atByte_of_forall (fun a ha => ?_) _
    rw [List.mem_cons, List.mem_singleton] at ha
    rcases ha with rfl | rfl
    · exact ⟨show InWindow 30 (Time.uint32 9).toNat by decide +kernel,
        AuthData.accepted_new _ _ _ _⟩
    · exact ⟨show InWindow 40 (Time.uint32 9).toNat by decide +kernel,
        AuthData.accepted_new _ _ _ _⟩

end AuthSha1V4

end ShadowsocksR

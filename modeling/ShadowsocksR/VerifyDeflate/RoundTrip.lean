import ShadowsocksR.Lib.Chunks
import ShadowsocksR.VerifyDeflate.Object

/-!
# The round trip of verify_deflate

* `packData_spec`: a piece of a buffer is sent as a frame, an empty one as nothing;
* `lockstep_recv`: the loop of a receiver takes the frames off its buffer;
* `verifyDeflate_round_trip`: whatever the chunks in which the stream of one end comes to the other
  one, what comes out is what has gone in.
-/

namespace ShadowsocksR

namespace VerifyDeflate

variable {Z : Zlib}

/-! ## Frames -/

/-- A frame: the output of zlib, with the length in the place of its first bytes. -/
def IsFrame (Z : Zlib) (f : Frame) : Prop :=
  f.output.length ≤ unitLen ∧
    f.bytes = packBE 2 (Z.compress f.output).length ++ (Z.compress f.output).drop 2

variable {f : Frame}

/-- The length in a frame is its length, and within the limits. -/
theorem IsFrame.length_spec (h : IsFrame Z f) :
    f.bytes.length = (Z.compress f.output).length ∧ 8 ≤ f.bytes.length ∧ f.bytes.length < 32768 := by
  obtain ⟨hlen, hbytes⟩ := h
  have hmin := Z.le_length_compress hlen
  have hmax := Z.length_compress_le hlen
  have hlength : f.bytes.length = (Z.compress f.output).length := by
    rw [hbytes, List.length_append, length_packBE, List.length_drop]
    omega
  rw [unitLen] at hlen
  omega

theorem IsFrame.bytes_ne_nil (h : IsFrame Z f) : f.bytes ≠ [] :=
  List.ne_nil_of_length_pos (by have := h.length_spec; omega)

/-- The length is at the front of a frame. -/
theorem IsFrame.length_take (h : IsFrame Z f) {p rest : Bytes} (hp : p <+: f.bytes ++ rest)
    (hlen : 2 < p.length) : unpackBE (p.take 2) = f.bytes.length := by
  obtain ⟨hlength, -, hmax⟩ := h.length_spec
  obtain ⟨l, hl⟩ := hp
  have htake : p.take 2 = packBE 2 (Z.compress f.output).length := by
    have happend : (p ++ l).take 2 = p.take 2 := List.take_append_of_le_length (by omega)
    rw [← happend, hl, h.2, List.append_assoc]
    exact List.take_left' (length_packBE _ _)
  rw [htake, unpackBE_packBE (by omega), hlength]

/-- The bytes of a frame, behind the first bytes of zlib, are what zlib has put out. -/
theorem IsFrame.decompress (h : IsFrame Z f) (rest : Bytes) :
    Z.decompress ([0x78, 0x9c] ++ (f.bytes ++ rest).extract 2 f.bytes.length) =
      .ok f.output := by
  have hcut : (f.bytes ++ rest).extract 2 f.bytes.length = (Z.compress f.output).drop 2 := by
    rw [h.2]
    refine extract_append_append (length_packBE _ _) ?_
    rw [List.length_append, length_packBE]
  rw [hcut, ← Z.take_compress h.1, List.take_append_drop, Z.decompress_compress h.1]

/-! ## Sending -/

/-- A piece of a buffer is sent as a frame; nothing is sent of nothing. -/
theorem packData_spec (s : VerifyDeflate) {buf : Bytes} (hbuf : buf.length ≤ unitLen) :
    ∃ fs, packData Z s buf = .ok (wire fs, s) ∧ carried fs = buf ∧ ∀ f ∈ fs, IsFrame Z f := by
  rw [packData]
  split_ifs with hnil
  · rw [List.length_eq_zero_iff] at hnil
    exact ⟨[], rfl, hnil.symm, fun f hf => absurd hf List.not_mem_nil⟩
  · have hmax := Z.length_compress_le hbuf
    have hlt : (Z.compress buf).length < 256 ^ 2 := by
      rw [unitLen] at hbuf
      omega
    refine ⟨[⟨packBE 2 (Z.compress buf).length ++ (Z.compress buf).drop 2, buf⟩], ?_, ?_, ?_⟩
    · dsimp only
      rw [packHigh_of_lt hlt, wire_cons, wire_nil, List.append_nil]
      rfl
    · rw [carried_cons, carried_nil, List.append_nil]
    · exact List.forall_mem_singleton.2 ⟨hbuf, rfl⟩

/-- All pieces of a buffer are. -/
theorem frames_of_packs {s s' : VerifyDeflate} {ps : List Bytes} {datas : Bytes}
    (h : Packs (packData Z) s ps datas s') (hps : ∀ p ∈ ps, p.length ≤ unitLen) :
    ∃ fs, wire fs = datas ∧ carried fs = ps.flatten ∧ ∀ f ∈ fs, IsFrame Z f := by
  induction h with
  | nil s => exact ⟨[], rfl, rfl, fun f hf => absurd hf List.not_mem_nil⟩
  | cons hp _ ih =>
    obtain ⟨hlen, hps⟩ := List.forall_mem_cons.1 hps
    obtain ⟨fs₁, hpack, hcar₁, hfs₁⟩ := packData_spec (Z := Z) _ hlen
    obtain ⟨fs₂, rfl, hcar₂, hfs₂⟩ := ih hps
    cases hp.symm.trans hpack
    exact ⟨fs₁ ++ fs₂, wire_append _ _, by rw [carried_append, hcar₁, hcar₂, List.flatten_cons],
      List.forall_mem_append.2 ⟨hfs₁, hfs₂⟩⟩

theorem packAll_spec (s : VerifyDeflate) (buf : Bytes) :
    ∃ fs, packAll Z s buf = .ok (wire fs, s) ∧ carried fs = buf ∧ ∀ f ∈ fs, IsFrame Z f := by
  obtain ⟨ps, datas, t, hcut, hret, -, rfl, hpacks, hcutting⟩ :=
    cut_spec (show 0 < unitLen by decide) (P := (· = s)) (fun s' p hs' hp => by
      obtain ⟨fs, hpack, -⟩ := packData_spec (Z := Z) s' hp
      exact ⟨wire fs, s', hpack, hs'⟩) (buf.length + 1) (t := { obj := s, buf }) rfl
      (Nat.lt_succ_self _)
  obtain ⟨fs, rfl, hcar, hfs⟩ := frames_of_packs hpacks hcutting.length_le
  refine ⟨fs, ?_, hcar.trans hcutting.flatten, hfs⟩
  rw [packAll, hcut]
  dsimp only
  rw [hret, List.nil_append]

/-- The buffers of a sender. -/
theorem feed_packAll (s : VerifyDeflate) (sends : List Bytes) :
    ∃ fs, feed (packAll Z) s sends = .ok (wire fs, s) ∧ carried fs = sends.flatten ∧
      ∀ f ∈ fs, IsFrame Z f := by
  induction sends with
  | nil => exact ⟨[], rfl, rfl, fun f hf => absurd hf List.not_mem_nil⟩
  | cons buf sends ih =>
    obtain ⟨fs₁, hpack, hcar₁, hfs₁⟩ := packAll_spec (Z := Z) s buf
    obtain ⟨fs₂, hfeed, hcar₂, hfs₂⟩ := ih
    refine ⟨fs₁ ++ fs₂, ?_, ?_, List.forall_mem_append.2 ⟨hfs₁, hfs₂⟩⟩
    · rw [wire_append]
      exact feed_cons hpack hfeed
    · rw [carried_append, hcar₁, hcar₂, List.flatten_cons]

/-! ## Receiving -/

/-- The frames `fs` come next, to an object that has not given up. -/
def Expects (Z : Zlib) (fs : List Frame) (t : Recv) : Prop :=
  (∀ f ∈ fs, IsFrame Z f) ∧ t.obj.rawTrans = false

theorem lockstep_recv {ε : Type} (raise : PyExc → ε) (bad : VerifyDeflate → ε) :
    Lockstep (recvBody Z raise bad) (fun t => t.obj.recvBuf) Recv.outBuf (Expects Z) where
  bytes_ne_nil h f hf := (h.1 f hf).bytes_ne_nil
  incomplete {f fs t} h hp hne := by
    have hframe := h.1 f List.mem_cons_self
    obtain ⟨-, hmin, hmax⟩ := hframe.length_spec
    have hlt : t.obj.recvBuf.length < f.bytes.length :=
      hp.length_le.lt_of_ne fun heq => hne (hp.eq_of_length heq)
    refine ⟨t, ?_, rfl, rfl, h⟩
    rw [recvBody]
    split_ifs with hlen
    · have hpre : t.obj.recvBuf <+: f.bytes ++ [] := by rw [List.append_nil]; exact hp
      have htake := hframe.length_take hpre hlen
      dsimp only
      rw [htake, if_neg (by omega), if_pos hlt]
    · rfl
  complete {f fs t rest} h hbuf := by
    have hframe := h.1 f List.mem_cons_self
    obtain ⟨-, hmin, hmax⟩ := hframe.length_spec
    refine .inl ⟨{ obj := { t.obj with recvBuf := rest }, outBuf := t.outBuf ++ f.output }, ?_, rfl,
      rfl, fun g hg => h.1 g (List.mem_cons_of_mem _ hg), h.2⟩
    have hlen : 2 < (f.bytes ++ rest).length := by
      rw [List.length_append]
      omega
    rw [recvBody]
    dsimp only
    rw [hbuf, if_pos hlen, hframe.length_take List.prefix_rfl hlen, if_neg (by omega),
      if_neg (by rw [List.length_append]; omega), hframe.decompress, List.drop_left]
  empty {t} h hbuf := by
    refine ⟨t, ?_, hbuf, rfl, h⟩
    rw [recvBody]
    dsimp only
    rw [if_neg (by rw [hbuf]; decide)]

/-- The bytes `fut` complete frames that carry `data`. -/
def Frames (Z : Zlib) (fut data : Bytes) (s : VerifyDeflate) : Prop :=
  s.rawTrans = false ∧ ∃ fs, (∀ f ∈ fs, IsFrame Z f) ∧ s.recvBuf ++ fut = wire fs ∧
    carried fs = data ∧ (fut = [] → data = [])

/-- The loop of a receiver. -/
theorem loop_recv_spec {ε : Type} (raise : PyExc → ε) (bad : VerifyDeflate → ε)
    {s : VerifyDeflate} {buf fut data : Bytes} (h : Frames Z (buf ++ fut) data s) :
    ∃ t data', loop (recvBody Z raise bad) ((s.recvBuf ++ buf).length + 1)
        { obj := { s with recvBuf := s.recvBuf ++ buf } } = .done t ∧
      data = t.outBuf ++ data' ∧ Frames Z fut data' (finishRecv t) := by
  obtain ⟨hraw, fs, hfs, hw, rfl, -⟩ := h
  rw [← List.append_assoc] at hw
  obtain ⟨done, todo, t, rfl, hloop, hbuf, hout, ⟨htodo, hraw'⟩, hfin⟩ :=
    (lockstep_recv raise bad).loop_spec ((s.recvBuf ++ buf).length + 1)
      (t := { obj := { s with recvBuf := s.recvBuf ++ buf } }) ⟨hfs, hraw⟩ hw (Nat.lt_succ_self _)
  refine ⟨t, carried todo, hloop, ?_, ?_⟩
  · rw [hout, carried_append, List.nil_append]
  · rw [finishRecv]
    split_ifs <;> exact ⟨hraw', todo, htodo, hbuf, rfl, hfin⟩

variable (Z) in
/-- A call of `client_post_decrypt` that does not raise. -/
def clientRecv (c : VerifyDeflate) (buf : Bytes) : Except PyExc (Bytes × VerifyDeflate) :=
  match clientPostDecrypt Z c buf with
  | (.ok out, c) => .ok (out, c)
  | (.error e, _) => .error e

variable (Z) in
/-- A call of `server_post_decrypt` that does not raise. -/
def serverRecv (s : VerifyDeflate) (buf : Bytes) : Except PyExc (Bytes × VerifyDeflate) :=
  match serverPostDecrypt Z s buf with
  | (.ok (out, _), s) => .ok (out, s)
  | (.error e, _) => .error e

theorem clientRecv_spec {c : VerifyDeflate} {buf fut data : Bytes}
    (h : Frames Z (buf ++ fut) data c) :
    ∃ out data' c', clientRecv Z c buf = .ok (out, c') ∧ data = out ++ data' ∧
      Frames Z fut data' c' := by
  obtain ⟨t, data', hloop, hdata, hframes⟩ := loop_recv_spec id (fun _ => .exception) h
  refine ⟨t.outBuf, data', finishRecv t, ?_, hdata, hframes⟩
  rw [clientRecv, clientPostDecrypt, if_neg (by rw [h.1]; decide)]
  dsimp only
  rw [hloop]

theorem serverRecv_spec {s : VerifyDeflate} {buf fut data : Bytes}
    (h : Frames Z (buf ++ fut) data s) :
    ∃ out data' s', serverRecv Z s buf = .ok (out, s') ∧ data = out ++ data' ∧
      Frames Z fut data' s' := by
  obtain ⟨t, data', hloop, hdata, hframes⟩ := loop_recv_spec .error badLength h
  refine ⟨t.outBuf, data', finishRecv t, ?_, hdata, hframes⟩
  rw [serverRecv, serverPostDecrypt, if_neg (by rw [h.1]; decide)]
  dsimp only
  rw [hloop]

/-- Frames on their way to a new object. -/
theorem frames_wire {fs : List Frame} (hfs : ∀ f ∈ fs, IsFrame Z f) :
    Frames Z (wire fs) (carried fs) {} := by
  refine ⟨rfl, fs, hfs, rfl, rfl, fun hw => ?_⟩
  have hlen := length_le_wire fun f hf => (hfs f hf).bytes_ne_nil
  rw [hw, List.length_nil, Nat.le_zero, List.length_eq_zero_iff] at hlen
  rw [hlen]
  rfl

/-- A receiver puts out what the frames carry, whatever the chunks. -/
theorem feed_recv {recv : VerifyDeflate → Bytes → Except PyExc (Bytes × VerifyDeflate)}
    (hrecv : ∀ {s buf fut data}, Frames Z (buf ++ fut) data s →
      ∃ out data' s', recv s buf = .ok (out, s') ∧ data = out ++ data' ∧ Frames Z fut data' s')
    {fs : List Frame} (hfs : ∀ f ∈ fs, IsFrame Z f) {chunks : List Bytes}
    (hchunks : chunks.flatten = wire fs) :
    ∃ s', feed recv {} chunks = .ok (carried fs, s') ∧ s'.rawTrans = false := by
  have hframes : Frames Z (chunks.flatMap id) (carried fs) {} := by
    rw [List.flatMap_id, hchunks]
    exact frames_wire hfs
  obtain ⟨outs, data', s', hfeed, hdata, hraw, gs, -, -, rfl, hfin⟩ :=
    feed_spec recv id (I := Frames Z) hrecv hframes
  rw [hfin rfl, List.append_nil] at hdata
  exact ⟨s', by rw [hdata]; exact hfeed, hraw⟩

/-- Whatever the buffers that one end sends, and whatever the chunks in which they come to the other
    one, what comes out is what has gone in, and no end raises or gives up. -/
theorem verifyDeflate_round_trip (Z : Zlib) (sends : List Bytes) :
    (∃ stream c', feed (clientPreEncrypt Z) {} sends = .ok (stream, c') ∧ c'.rawTrans = false ∧
      ∀ chunks : List Bytes, chunks.flatten = stream →
        ∃ s', feed (serverRecv Z) {} chunks = .ok (sends.flatten, s') ∧ s'.rawTrans = false) ∧
    ∃ stream s', feed (serverPreEncrypt Z) {} sends = .ok (stream, s') ∧ s'.rawTrans = false ∧
      ∀ chunks : List Bytes, chunks.flatten = stream →
        ∃ c', feed (clientRecv Z) {} chunks = .ok (sends.flatten, c') ∧ c'.rawTrans = false := by
  obtain ⟨fs, hfeed, hcar, hfs⟩ := feed_packAll (Z := Z) {} sends
  refine ⟨⟨wire fs, {}, hfeed, rfl, fun chunks hchunks => ?_⟩,
    wire fs, {}, hfeed, rfl, fun chunks hchunks => ?_⟩
  · rw [← hcar]
    exact feed_recv serverRecv_spec hfs hchunks
  · rw [← hcar]
    exact feed_recv clientRecv_spec hfs hchunks

/-- Fifteen bytes that zlib stores as they are. -/
def fifteenBytes : Bytes := (List.range 15).map fun i => UInt8.ofNat (144 + i)

/-- They come in two chunks. -/
theorem verifyDeflate_round_trip_fifteenBytes : ∃ stream c',
    feed (clientPreEncrypt .stored) {} [fifteenBytes] = .ok (stream, c') ∧
      stream = [0, 26, 1, 15, 0, 240, 255] ++ fifteenBytes ++ [0x45, 0xbf, 0x08, 0xda] ∧
      ∃ s', feed (serverRecv .stored) {} [stream.take 1, stream.drop 1] = .ok (fifteenBytes, s') ∧
        s'.rawTrans = false := by
  obtain ⟨⟨stream, c', hfeed, -, hrecv⟩, -⟩ :=
    verifyDeflate_round_trip .stored [fifteenBytes]
  refine ⟨stream, c', hfeed, ?_, hrecv [stream.take 1, stream.drop 1] ?_⟩
  · have hstream : feed (clientPreEncrypt .stored) {} [fifteenBytes] =
        .ok ([0, 26, 1, 15, 0, 240, 255] ++ fifteenBytes ++ [0x45, 0xbf, 0x08, 0xda], {}) := rfl
    rw [hstream] at hfeed
    exact (congrArg Prod.fst (Except.ok.inj hfeed)).symm
  · rw [List.flatten_cons, List.flatten_cons, List.flatten_nil, List.append_nil,
      List.take_append_drop]

end VerifyDeflate

end ShadowsocksR

import ShadowsocksR.ObfsTls.Client
import ShadowsocksR.ObfsTls.Replay
import ShadowsocksR.Lib.Chunks

/-!
# The data of a TLS connection

After the handshake both ends cut what they send into records, of random
lengths, and take the records off what they receive.

* `Records`: the records of some data, none of which is empty;
* `encodeAppData_spec`: an end sends records of its buffer;
* `lockstep_record`: an end that expects records takes them off its buffer;
* `appData_round_trip`: whatever the chunks in which the stream of one end comes
  to the other one, what comes out is what has gone in.
-/

namespace ShadowsocksR

namespace TlsTicketAuth

/-! ## Records -/

/-- A record of data. -/
def appRecord (data : Bytes) : Bytes := [0x17] ++ tlsVersion ++ packBE 2 data.length ++ data

/-- A frame is a record that carries data. -/
structure IsRecord (f : Frame) : Prop where
  output_ne : f.output ≠ []
  length_lt : f.output.length < 2 ^ 16
  bytes_eq : f.bytes = appRecord f.output

theorem record_eq {data : Bytes} (h : data.length < 2 ^ 16) :
    record 0x17 data = .ok (appRecord data) := by
  rw [record, packHigh_of_lt (by omega)]
  rfl

/-- A stream of records of some data. -/
def Records (stream data : Bytes) : Prop :=
  ∃ fs, (∀ f ∈ fs, IsRecord f) ∧ wire fs = stream ∧ carried fs = data

theorem records_nil : Records [] [] := ⟨[], fun _ h => absurd h List.not_mem_nil, rfl, rfl⟩

theorem Records.append {stream stream' data data' : Bytes} (h : Records stream data)
    (h' : Records stream' data') : Records (stream ++ stream') (data ++ data') := by
  obtain ⟨fs, hfs, rfl, rfl⟩ := h
  obtain ⟨gs, hgs, rfl, rfl⟩ := h'
  exact ⟨fs ++ gs, fun f hf => (List.mem_append.1 hf).elim (hfs f) (hgs f), wire_append fs gs,
    carried_append fs gs⟩

theorem records_appRecord {data : Bytes} (hne : data ≠ []) (hlt : data.length < 2 ^ 16) :
    Records (appRecord data) data := by
  refine ⟨[⟨appRecord data, data⟩], fun f hf => ?_, by simp, by simp⟩
  rw [List.mem_singleton] at hf
  rw [hf]
  exact ⟨hne, hlt, rfl⟩

/-! ## Encoding -/

/-- The loop makes records of what is left of the buffer. -/
theorem splitLoop_spec (fuel : ℕ) {t : Splitting} (hfuel : t.buf.length < fuel) :
    ∃ t' stream, loop splitBody fuel t = .done t' ∧ t'.ret = t.ret ++ stream ∧
      Records stream t.buf := by
  induction fuel generalizing t with
  | zero => omega
  | succ fuel ih =>
    by_cases hlong : t.buf.length > 2048
    · -- the length of the record that is drawn: not zero, and small enough for its header
      obtain ⟨size, hsize, hpos, hle, hlt⟩ : ∃ size,
          size = min (unpackBE (randBytes 2 t.rng).1 % 4096 + 100) t.buf.length ∧ 0 < size ∧
            size ≤ t.buf.length ∧ size < 2 ^ 16 := ⟨_, rfl, by omega, by omega, by omega⟩
      have hlen : (t.buf.take size).length = size := List.length_take_of_le hle
      have hbody : splitBody t = .more
          { rng := (randBytes 2 t.rng).2
            buf := t.buf.drop size
            ret := t.ret ++ appRecord (t.buf.take size) } := by
        have hrecord := record_eq (by rw [hlen]; exact hlt)
        rw [splitBody, if_pos hlong, ← hsize]
        dsimp only
        rw [hrecord]
      obtain ⟨t', stream, ht', hret, hrec⟩ := ih (t :=
        { rng := (randBytes 2 t.rng).2
          buf := t.buf.drop size
          ret := t.ret ++ appRecord (t.buf.take size) }) (by simp only [List.length_drop]; omega)
      refine ⟨t', appRecord (t.buf.take size) ++ stream, ?_, ?_, ?_⟩
      · rw [loop_succ_of_more hbody, ht']
      · rw [hret, List.append_assoc]
      · have h := (records_appRecord (List.ne_nil_of_length_pos (by rw [hlen]; exact hpos))
          (by rw [hlen]; exact hlt)).append hrec
        rwa [List.take_append_drop] at h
    · by_cases hnil : t.buf.length > 0
      · have hlt : t.buf.length < 2 ^ 16 := by omega
        have hbody : splitBody t = .done { t with ret := t.ret ++ appRecord t.buf } := by
          rw [splitBody, if_neg hlong, if_pos hnil, record_eq hlt]
        exact ⟨_, _, loop_succ_of_done hbody, rfl,
          records_appRecord (List.ne_nil_of_length_pos hnil) hlt⟩
      · have hbody : splitBody t = .done t := by rw [splitBody, if_neg hlong, if_neg hnil]
        rw [List.eq_nil_of_length_eq_zero (by omega : t.buf.length = 0)]
        exact ⟨t, [], loop_succ_of_done hbody, by simp, records_nil⟩

/-- A buffer is sent as records. -/
theorem encodeAppData_spec (rng : Rng) (buf : Bytes) :
    ∃ stream rng', encodeAppData rng buf = .ok (stream, rng') ∧ Records stream buf := by
  obtain ⟨t', stream, ht', hret, hrec⟩ := splitLoop_spec _ (t := { rng, buf }) (Nat.lt_succ_self _)
  rw [encodeAppData, ht']
  exact ⟨t'.ret, t'.rng, rfl, by rw [hret]; exact hrec⟩

/-! ## Decoding -/

/-- The header of a record and what comes after it. -/
theorem unpackBE_appRecord {data : Bytes} (h : data.length < 2 ^ 16) (rest : Bytes) :
    unpackBE ((appRecord data ++ rest).extract 3 5) = data.length := by
  have hsplit : appRecord data ++ rest =
      ([0x17] ++ tlsVersion) ++ packBE 2 data.length ++ (data ++ rest) := by
    rw [appRecord, List.append_assoc]
  rw [hsplit, extract_append_append (i := 3) rfl (by rw [length_packBE]),
    unpackBE_packBE (by omega)]

theorem length_appRecord (data : Bytes) : (appRecord data).length = data.length + 5 := by
  rw [appRecord, List.length_append, List.length_append, length_packBE, Nat.add_comm]
  rfl

/-- A receiver that expects records takes them off its buffer. -/
theorem lockstep_record {head : Bytes → Bool}
    (hhead : ∀ rest, head ([0x17] ++ tlsVersion ++ rest) = true) :
    Lockstep (recordBody head) Prod.fst Prod.snd fun fs _ => ∀ f ∈ fs, IsRecord f where
  bytes_ne_nil h f hf := by
    rw [(h f hf).bytes_eq]
    exact List.cons_ne_nil _ _
  incomplete := by
    rintro f fs ⟨recvBuffer, ret⟩ h hpre hne
    refine ⟨(recvBuffer, ret), ?_, rfl, rfl, h⟩
    have hf := h f List.mem_cons_self
    rw [hf.bytes_eq] at hpre hne
    dsimp only at hpre hne
    have hlt : recvBuffer.length < f.output.length + 5 := by
      rw [← length_appRecord]
      exact lt_of_le_of_ne hpre.length_le fun hlen => hne (hpre.eq_of_length hlen)
    by_cases hlen : recvBuffer.length > 5
    · obtain ⟨rest, hrest⟩ := hpre
      -- the header is there, so that the loop knows the length of the record
      have hhd : [0x17] ++ tlsVersion <+: recvBuffer := by
        refine List.prefix_of_prefix_length_le ⟨packBE 2 f.output.length ++ f.output, ?_⟩
          ⟨rest, hrest⟩ (by simp [tlsVersion]; omega)
        rw [appRecord, List.append_assoc, List.append_assoc, List.append_assoc]
      obtain ⟨tail, rfl⟩ := hhd
      have hsize : unpackBE ((([0x17] ++ tlsVersion ++ tail)).extract 3 5) = f.output.length := by
        have := unpackBE_appRecord hf.length_lt []
        rw [List.append_nil, ← hrest, extract_append_left (by omega)] at this
        exact this
      rw [recordBody, if_pos hlen, if_neg (by rw [hhead]; decide), hsize, if_pos hlt]
    · rw [recordBody, if_neg hlen]
  complete := by
    rintro f fs ⟨recvBuffer, ret⟩ rest h hbuf
    dsimp only at hbuf
    have hf := h f List.mem_cons_self
    have hpos := List.length_pos_iff.2 hf.output_ne
    rw [hf.bytes_eq] at hbuf
    have hlen : recvBuffer.length = f.output.length + 5 + rest.length := by
      rw [hbuf, List.length_append, length_appRecord]
    have hbody : recordBody head (recvBuffer, ret) = .more (rest, ret ++ f.output) := by
      have hh : head recvBuffer = true := by
        rw [hbuf, appRecord, List.append_assoc, List.append_assoc]
        exact hhead _
      have hdrop : recvBuffer.drop (f.output.length + 5) = rest := by
        rw [hbuf]
        exact List.drop_left' (length_appRecord _)
      have hext : recvBuffer.extract 5 (f.output.length + 5) = f.output := by
        rw [hbuf, appRecord]
        exact extract_append_append (by simp [tlsVersion]) (by omega)
      rw [recordBody, if_pos (by omega), if_neg (by rw [hh]; decide), hbuf,
        unpackBE_appRecord hf.length_lt, ← hbuf, if_neg (by omega), hdrop, hext]
    exact .inl ⟨_, hbody, rfl, rfl, fun g hg => h g (List.mem_cons_of_mem _ hg)⟩
  empty := by
    rintro ⟨recvBuffer, ret⟩ h hbuf
    refine ⟨(recvBuffer, ret), ?_, hbuf, rfl, h⟩
    dsimp only at hbuf
    rw [recordBody, hbuf]
    rfl

/-- The buffer and the chunks still to come are records of what is still to come out. -/
theorem recordLoop_spec (head : Bytes → Bool)
    (hhead : ∀ rest, head ([0x17] ++ tlsVersion ++ rest) = true) {recvBuffer fut data : Bytes}
    (h : Records (recvBuffer ++ fut) data) :
    ∃ recvBuffer' out data', loop (recordBody head) (recvBuffer.length + 1) (recvBuffer, []) =
      .done (recvBuffer', out) ∧ data = out ++ data' ∧ Records (recvBuffer' ++ fut) data' ∧
        (fut = [] → recvBuffer' = [] ∧ data' = []) := by
  obtain ⟨fs, hfs, hw, rfl⟩ := h
  obtain ⟨done, todo, t', rfl, hloop, hw', hout, hexp, hfin⟩ :=
    (lockstep_record hhead).loop_spec (recvBuffer.length + 1) (t := (recvBuffer, []))
      hfs hw.symm (Nat.lt_succ_self _)
  refine ⟨t'.1, t'.2, carried todo, hloop, ?_, ⟨todo, hexp, hw'.symm, rfl⟩, fun hfut => ?_⟩
  · rw [carried_append, hout, List.nil_append]
  · have hnil := hfin hfut
    refine ⟨?_, hnil⟩
    -- no record is empty, so that there is none left
    cases todo with
    | nil =>
      rw [hfut, List.append_nil] at hw'
      exact hw'
    | cons f fs =>
      rw [carried_cons, List.append_eq_nil_iff] at hnil
      exact absurd hnil.1 (hexp f List.mem_cons_self).output_ne

/-! ## The two ends -/

/-- A call of `client_encode`. -/
structure ClientSend where
  now : Time
  host : Bytes
  ticket : Bytes
  buf : Bytes

/-- `client_encode`, called with some buffer. -/
def Client.send (C : Crypto) (s : Client) (a : ClientSend) : Except PyExc (Bytes × Client) :=
  clientEncode C a.now a.host a.ticket s a.buf

/-- `client_decode`, called with some chunk: the data. -/
def Client.recv (C : Crypto) (s : Client) (buf : Bytes) : Except PyExc (Bytes × Client) :=
  match clientDecode C s buf with
  | (.ok (out, _), s) => .ok (out, s)
  | (.error e, _) => .error e

/-- A call of `server_encode`. -/
structure ServerSend where
  now : Time
  buf : Bytes

/-- `server_encode`, called with some buffer, for an object and its random numbers. -/
def send (C : Crypto) (s : TlsTicketAuth × Rng) (a : ServerSend) :
    Except PyExc (Bytes × TlsTicketAuth × Rng) :=
  match serverEncoded C a.now s.2 s.1 a.buf with
  | .ok (ret, rng) => .ok (ret, s.1.serverEncode, rng)
  | .error e => .error e

/-- A call of `server_decode`, with the shared data of that time. -/
structure ServerRecv where
  now : Time
  data : ObfsAuthData
  buf : Bytes

/-- `server_decode`, called with some chunk: the data. -/
def recv (C : Crypto) (s : TlsTicketAuth) (a : ServerRecv) : Except PyExc (Bytes × TlsTicketAuth) :=
  match s.serverDecode C a.now a.data a.buf with
  | (.ok (out, _), _, s, _) => .ok (out, s)
  | (.error e, _, _, _) => .error e

/-- A server in the phase of the data. -/
structure Ready (s : TlsTicketAuth) : Prop where
  decodes : s.hasStatus 4 = true
  encodes : s.hasStatus 8 = true

variable {C : Crypto}

theorem handshakeStatus_ne {s : TlsTicketAuth} {bit : ℕ} (hbit : bit ≠ 0)
    (h : s.hasStatus bit = true) : s.handshakeStatus ≠ -1 := by
  intro hs
  rw [hasStatus, hs, beq_iff_eq] at h
  exact hbit (by rw [← h]; exact Nat.zero_and _)

/-- A client sends records of its buffers. -/
theorem feed_clientSend (sends : List ClientSend) {c : Client} (hc : c.handshakeStatus = 8) :
    ∃ stream c', feed (Client.send C) c sends = .ok (stream, c') ∧
      Records stream (sends.flatMap ClientSend.buf) ∧
      c'.handshakeStatus = 8 ∧ c'.recvBuffer = c.recvBuffer := by
  induction sends generalizing c with
  | nil => exact ⟨[], c, rfl, records_nil, hc, rfl⟩
  | cons a sends ih =>
    obtain ⟨stream, rng, hstream, hrec⟩ := encodeAppData_spec c.rng a.buf
    have hsend : Client.send C c a = .ok (stream, { c with rng }) := by
      rw [Client.send, clientEncode, if_neg (by rw [hc]; decide), if_pos hc, hstream]
      rfl
    obtain ⟨streams, c', hfeed, hrecs, hc'⟩ := ih (c := { c with rng }) hc
    exact ⟨_, c', feed_cons hsend hfeed, hrec.append hrecs, hc'⟩

/-- A server sends records of its buffers. -/
theorem feed_serverSend (sends : List ServerSend) {s : TlsTicketAuth} (hs : s.Ready) (rng : Rng) :
    ∃ stream s', feed (send C) (s, rng) sends = .ok (stream, s') ∧
      Records stream (sends.flatMap ServerSend.buf) := by
  induction sends generalizing rng with
  | nil => exact ⟨[], _, rfl, records_nil⟩
  | cons a sends ih =>
    obtain ⟨stream, rng', hstream, hrec⟩ := encodeAppData_spec rng a.buf
    have hsend : send C (s, rng) a = .ok (stream, s, rng') := by
      rw [send, serverEncoded, if_neg (handshakeStatus_ne (by decide) hs.encodes),
        if_pos hs.encodes, hstream]
      dsimp only
      rw [serverEncode, if_pos (.inr hs.encodes)]
    obtain ⟨streams, s', hfeed, hrecs⟩ := ih rng'
    exact ⟨_, s', feed_cons hsend hfeed, hrec.append hrecs⟩

/-- The stream that an end is to be given, after what is in its buffer, consists of records. -/
def Awaits (recvBuffer fut data : Bytes) : Prop :=
  Records (recvBuffer ++ fut) data ∧ (fut = [] → recvBuffer = [] ∧ data = [])

/-- An end with an empty buffer. -/
theorem awaits_of_records {fut data : Bytes} (h : Records fut data) : Awaits [] fut data := by
  refine ⟨h, fun hfut => ⟨rfl, ?_⟩⟩
  obtain ⟨fs, hfs, hw, rfl⟩ := h
  have hlen := length_le_wire fun f hf => by
    rw [(hfs f hf).bytes_eq]
    exact List.cons_ne_nil _ _
  rw [hw, hfut, List.length_nil, Nat.le_zero, List.length_eq_zero_iff] at hlen
  rw [hlen]
  rfl

/-- A server takes the complete records off its buffer. -/
theorem decodeAppData_spec {s : TlsTicketAuth} {buf fut data : Bytes}
    (h : Records (s.recvBuffer ++ buf ++ fut) data) :
    ∃ out data' recvBuffer, s.decodeAppData buf =
        (.ok (out, true, false), { s with recvBuffer }) ∧ data = out ++ data' ∧
      Awaits recvBuffer fut data' := by
  obtain ⟨recvBuffer, out, data', hloop, hdata, hrec, hfin⟩ :=
    recordLoop_spec (matchBegin · [0x17, 3, 3])
      (fun rest => by simp [matchBegin, tlsVersion]) h
  refine ⟨out, data', recvBuffer, ?_, hdata, hrec, hfin⟩
  have hsame : appDataBody = recordBody (matchBegin · [0x17, 3, 3]) := rfl
  rw [decodeAppData, hsame, hloop]

theorem serverDecode_ready {s : TlsTicketAuth} (hs : s.Ready) (now : Time) (data : ObfsAuthData)
    (buf : Bytes) : s.serverDecode C now data buf =
      ((s.decodeAppData buf).1, none, (s.decodeAppData buf).2, data) := by
  rw [serverDecode, if_neg (handshakeStatus_ne (by decide) hs.decodes), if_pos hs.decodes]

/-- One call of `server_decode` takes records off the stream. -/
theorem recv_spec {s : TlsTicketAuth} {a : ServerRecv} {fut data : Bytes}
    (h : s.Ready ∧ Awaits s.recvBuffer (a.buf ++ fut) data) :
    ∃ out data' s', recv C s a = .ok (out, s') ∧ data = out ++ data' ∧
      s'.Ready ∧ Awaits s'.recvBuffer fut data' := by
  obtain ⟨hs, hrec, -⟩ := h
  rw [← List.append_assoc] at hrec
  obtain ⟨out, data', recvBuffer, hdecode, hdata, hawaits⟩ := decodeAppData_spec hrec
  refine ⟨out, data', { s with recvBuffer }, ?_, hdata, ⟨hs.decodes, hs.encodes⟩, hawaits⟩
  rw [recv, serverDecode_ready hs, hdecode]

/-- One call of `client_decode` takes records off the stream. -/
theorem clientRecv_spec {c : Client} {buf fut data : Bytes}
    (h : c.handshakeStatus = 8 ∧ Awaits c.recvBuffer (buf ++ fut) data) :
    ∃ out data' c', Client.recv C c buf = .ok (out, c') ∧ data = out ++ data' ∧
      c'.handshakeStatus = 8 ∧ Awaits c'.recvBuffer fut data' := by
  obtain ⟨hc, hrec, -⟩ := h
  rw [← List.append_assoc] at hrec
  obtain ⟨recvBuffer, out, data', hloop, hdata, hrec', hfin⟩ :=
    recordLoop_spec (fun recvBuffer => recvBuffer.head? == some 0x17)
      (fun rest => rfl) hrec
  refine ⟨out, data', { c with recvBuffer }, ?_, hdata, hc, hrec', hfin⟩
  rw [Client.recv, clientDecode, if_neg (by rw [hc]; decide), if_pos hc]
  dsimp only
  rw [clientAppDataBody, hloop]

/-- Whatever the chunks in which records come, a server takes all that they carry off them. -/
theorem feed_serverRecv {s : TlsTicketAuth} (hs : s.Ready) {chunks : List ServerRecv} {data : Bytes}
    (h : Awaits s.recvBuffer (chunks.flatMap ServerRecv.buf) data) :
    ∃ s', feed (recv C) s chunks = .ok (data, s') ∧ s'.recvBuffer = [] := by
  obtain ⟨outs, data', s', hfeed, rfl, -, -, hfin⟩ :=
    feed_spec (recv C) ServerRecv.buf
      (I := fun fut data s => s.Ready ∧ Awaits s.recvBuffer fut data) recv_spec ⟨hs, h⟩
  obtain ⟨hbuf, rfl⟩ := hfin rfl
  exact ⟨s', by rw [List.append_nil]; exact hfeed, hbuf⟩

/-- So does a client. -/
theorem feed_clientRecv {c : Client} (hc : c.handshakeStatus = 8) {chunks : List Bytes}
    {data : Bytes} (h : Awaits c.recvBuffer chunks.flatten data) :
    ∃ c', feed (Client.recv C) c chunks = .ok (data, c') ∧ c'.recvBuffer = [] := by
  obtain ⟨outs, data', c', hfeed, rfl, -, -, hfin⟩ :=
    feed_spec (Client.recv C) id
      (I := fun fut data c => c.handshakeStatus = 8 ∧ Awaits c.recvBuffer fut data)
      clientRecv_spec ⟨hc, by rw [List.flatMap_id]; exact h⟩
  obtain ⟨hbuf, rfl⟩ := hfin rfl
  exact ⟨c', by rw [List.append_nil]; exact hfeed, hbuf⟩

/-- In the phase of the data, whatever the chunks in which the stream of one end comes to the other
    one, what comes out is what has gone in, and nothing is left. -/
theorem appData_round_trip {c : Client} {s : TlsTicketAuth} (hc : c.handshakeStatus = 8)
    (hs : s.Ready) (hcbuf : c.recvBuffer = []) (hsbuf : s.recvBuffer = []) (rng : Rng) :
    (∀ sends : List ClientSend, ∃ stream c', feed (Client.send C) c sends = .ok (stream, c') ∧
      ∀ chunks : List ServerRecv, chunks.flatMap ServerRecv.buf = stream →
        ∃ s', feed (recv C) s chunks = .ok (sends.flatMap ClientSend.buf, s') ∧
          s'.recvBuffer = []) ∧
    ∀ sends : List ServerSend, ∃ stream s', feed (send C) (s, rng) sends = .ok (stream, s') ∧
      ∀ chunks : List Bytes, chunks.flatten = stream →
        ∃ c', feed (Client.recv C) c chunks = .ok (sends.flatMap ServerSend.buf, c') ∧
          c'.recvBuffer = [] := by
  refine ⟨fun sends => ?_, fun sends => ?_⟩
  · obtain ⟨stream, c', hfeed, hrec, -⟩ := feed_clientSend (C := C) sends hc
    refine ⟨stream, c', hfeed, fun chunks hchunks => feed_serverRecv hs ?_⟩
    rw [hsbuf, hchunks]
    exact awaits_of_records hrec
  · obtain ⟨stream, s', hfeed, hrec⟩ := feed_serverSend (C := C) sends hs rng
    refine ⟨stream, s', hfeed, fun chunks hchunks => feed_clientRecv hc ?_⟩
    rw [hcbuf, hchunks]
    exact awaits_of_records hrec

/-- A client and a server whose handshake is over. -/
theorem appData_round_trip_ready :
    ∃ stream c', feed (Client.send plainCrypto)
        { key := [], clientId := [], rng := fun _ => 7, handshakeStatus := 8 }
        [⟨0, [], [], List.replicate 3000 1⟩, ⟨0, [], [], []⟩] = .ok (stream, c') ∧
      ∀ chunks : List ServerRecv, chunks.flatMap ServerRecv.buf = stream →
        ∃ s', feed (recv plainCrypto)
          { new ⟨.ticketAuth, [], [], 0⟩ with handshakeStatus := 13 } chunks =
            .ok (List.replicate 3000 1 ++ ([] ++ []), s') ∧ s'.recvBuffer = [] :=
  (appData_round_trip
    (c := { key := [], clientId := [], rng := fun _ => 7, handshakeStatus := 8 })
    (s := { new ⟨.ticketAuth, [], [], 0⟩ with handshakeStatus := 13 })
    rfl ⟨by decide, by decide⟩ rfl rfl fun _ => 0).1 _

end TlsTicketAuth

end ShadowsocksR

import ShadowsocksR.AuthAes128.Message

/-!
# The round trip of auth_aes128

* `clientPreEncrypt_hello`, `feed_clientSend`, `feed_serverSend`: what the ends
  send is the message of the client, and frames;
* `recv_spec`: a server takes complete frames off its buffer;
* `aes128_round_trip`: whatever the chunks in which the stream of one end comes to
  the other one, what comes out is what has gone in.
-/

namespace ShadowsocksR

namespace AuthAes128

open AuthBase (getHeadSize paramUserId Registered)

/-- A buffer that a client sends, and the time when it does. -/
structure ClientSend where
  now : Time
  buf : Bytes

/-- A chunk that a server receives, with the shared data of that time. -/
structure ServerRecv where
  now : Time
  data : ObfsAuthMuData
  buf : Bytes

variable (C : Crypto) (users : Dict Bytes Bytes)

def clientSend (c : Sender) (a : ClientSend) : Except PyExc (Bytes × Sender) :=
  c.clientPreEncrypt C a.now a.buf

def serverRecv (s : AuthAes128) (a : ServerRecv) : Except PyExc (Bytes × AuthAes128) :=
  match serverPostDecrypt C a.now users a.data s a.buf with
  | (.ok (out, _), s, _) => .ok (out, s)
  | (.error e, _, _) => .error e

def clientRecv (c : AuthAes128) (buf : Bytes) : Except PyExc (Bytes × AuthAes128) :=
  match clientPostDecrypt C c buf with
  | (.ok out, c) => .ok (out, c)
  | (.error e, _) => .error e

variable {C users} {hashfunc : HashFunc} {key iv userKey : Bytes} {userId : Option Bytes}

/-! ## Sending -/

/-- A client that has not sent anything. -/
structure Fresh (c : Sender) : Prop where
  hasSentHeader : c.hasSentHeader = false
  userKey : c.userKey = none
  packId : c.packId = 1

theorem authData_eq (now : Time) (s : Sender) : ∃ (localData : LocalData) (rng : Rng),
    s.authData now = (packLE 4 now.uint32.toNat ++ localData.localClientId ++
      packLE 4 localData.connectionId, { s with localData, rng }) ∧
    localData.localClientId.length = 4 ∧ localData.connectionId < 2 ^ 32 :=
  ⟨_, _, rfl, s.localData.renew_spec s.rng⟩

/-- The first buffer of a client. -/
theorem clientPreEncrypt_hello {c : Sender} (hc : Fresh c) (hreg : Registered users c.serverInfo)
    (hmss : c.serverInfo.tcpMss ≤ 1500) (now : Time) {buf : Bytes} (hbuf : buf ≠ []) :
    ∃ (m : Message) (fs : List Frame) (c' : Sender), c.clientPreEncrypt C now buf =
        .ok (m.bytes C c.hashfunc (c.serverInfo.iv ++ c.serverInfo.key) ++ wire fs, c') ∧
      m.authData = packLE 4 now.uint32.toNat ++ c'.localData.localClientId ++
        packLE 4 c'.localData.connectionId ∧
      c'.localData.localClientId.length = 4 ∧ c'.localData.connectionId < 2 ^ 32 ∧
      Knows C c.hashfunc users c.serverInfo.key m.uid m.userKey
        (paramUserId c.serverInfo.protocolParam) ∧
      m.first ++ carried fs = buf ∧ Sends (NextFrame C c.hashfunc m.userKey) 1 fs c'.packId ∧
      c'.hasSentHeader = true ∧ c'.userKey = some m.userKey ∧ c'.hashfunc = c.hashfunc ∧
      c'.serverInfo = c.serverInfo := by
  obtain ⟨loc, rng, hauth, hid, hconn⟩ := authData_eq now { c with rng := (randint 0 31 c.rng).2 }
  obtain ⟨n, hn⟩ : ∃ n, min buf.length ((randint 0 31 c.rng).1 + getHeadSize buf 30) = n :=
    ⟨_, rfl⟩
  have hpos := List.length_pos_iff.2 hbuf
  have hhead := AuthBase.getHeadSize_le buf (show 30 ≤ 259 by norm_num)
  have hhead' := AuthBase.getHeadSize_pos buf (show 0 < 30 by norm_num)
  have hrand : (randint 0 31 c.rng).1 ≤ 31 := by
    rw [randint]
    omega
  have hfirst : (buf.take n).length ≤ 400 := by
    rw [List.length_take]
    omega
  have hne : buf.take n ≠ [] := List.ne_nil_of_length_pos (by rw [List.length_take]; omega)
  obtain ⟨m, rng', hpack, hmauth, hmfirst, hknows⟩ := Sender.packAuthData_spec (C := C)
    (s := { c with localData := loc, rng := rng }) hreg hc.userKey
    (show (packLE 4 now.uint32.toNat ++ loc.localClientId ++ packLE 4 loc.connectionId).length = 12
      by simp [hid]) hne hfirst
  obtain ⟨fs, c', hall, hcar, -, hsends, rng'', packId, hc'⟩ := Sender.packAll_spec (C := C)
    buf.length
    { obj := { c with localData := loc, rng := rng', userKey := some m.userKey, hasSentHeader := true }
      buf := buf.drop n
      ret := m.bytes C c.hashfunc (c.serverInfo.iv ++ c.serverInfo.key) } rfl hmss
  have hloc : c'.localData = loc := by rw [hc']
  have hpackId : c.packId = 1 := hc.packId
  refine ⟨m, fs, c', ?_, by rw [hloc]; exact hmauth, by rw [hloc]; exact hid,
    by rw [hloc]; exact hconn, hknows, ?_, ?_, by rw [hc'], by rw [hc'], by rw [hc'], by rw [hc']⟩
  · rw [Sender.clientPreEncrypt, if_neg (by rw [hc.hasSentHeader]; decide)]
    dsimp only
    rw [hn, hauth]
    dsimp only
    rw [hpack]
    exact hall
  · rw [hmfirst, hcar]
    exact List.take_append_drop n buf
  · rw [← hpackId]
    exact hsends

/-- A client that has sent its message goes on with frames. -/
theorem feed_clientSend (sends : List ClientSend) {c : Sender} (hc : c.hasSentHeader = true)
    (hkey : c.userKey = some userKey) (hmss : c.serverInfo.tcpMss ≤ 1500) :
    ∃ fs c', feed (clientSend C) c sends = .ok (wire fs, c') ∧
      Sends (NextFrame C c.hashfunc userKey) c.packId fs c'.packId ∧
      carried fs = sends.flatMap ClientSend.buf ∧ c'.localData = c.localData ∧
      c'.userKey = some userKey := by
  induction sends generalizing c with
  | nil => exact ⟨[], c, rfl, .nil _, rfl, rfl, hkey⟩
  | cons a sends ih =>
    obtain ⟨fs, c₁, hall, hcar, -, hsends, rng, packId, hc₁⟩ := Sender.packAll_spec (C := C)
      a.buf.length { obj := c, buf := a.buf } hkey hmss
    have hsend : clientSend C c a = .ok (wire fs, c₁) := by
      rw [clientSend, Sender.clientPreEncrypt, if_pos hc, hall]
      rfl
    obtain ⟨fs', c', hfeed, hsends', hcar', hloc, hkey'⟩ := ih (c := c₁) (by rw [hc₁]; exact hc)
      (by rw [hc₁]; exact hkey) (by rw [hc₁]; exact hmss)
    have hhash : c₁.hashfunc = c.hashfunc := by rw [hc₁]
    rw [hhash] at hsends'
    refine ⟨fs ++ fs', c', ?_, hsends.append hsends', ?_, by rw [hloc, hc₁], hkey'⟩
    · rw [wire_append]
      exact feed_cons hsend hfeed
    · rw [carried_append, hcar, hcar', List.flatMap_cons]

/-- A server sends frames. -/
theorem feed_serverSend (sends : List Bytes) {s : Sender} (hs : s.rawTrans = false)
    (hkey : s.userKey = some userKey) (hmss : s.serverInfo.tcpMss ≤ 1500) :
    ∃ fs s', feed (Sender.serverPreEncrypt C) s sends = .ok (wire fs, s') ∧
      Sends (NextFrame C s.hashfunc userKey) s.packId fs s'.packId ∧
      carried fs = sends.flatten := by
  induction sends generalizing s with
  | nil => exact ⟨[], s, rfl, .nil _, rfl⟩
  | cons buf sends ih =>
    obtain ⟨fs, s₁, hall, hcar, -, hsends, rng, packId, hs₁⟩ := Sender.packAll_spec (C := C)
      buf.length { obj := s, buf } hkey hmss
    have hsend : s.serverPreEncrypt C buf = .ok (wire fs, s₁) := by
      rw [Sender.serverPreEncrypt, if_neg (by rw [hs]; decide), hall]
      rfl
    obtain ⟨fs', s', hfeed, hsends', hcar'⟩ := ih (s := s₁) (by rw [hs₁]; exact hs)
      (by rw [hs₁]; exact hkey) (by rw [hs₁]; exact hmss)
    have hhash : s₁.hashfunc = s.hashfunc := by rw [hs₁]
    rw [hhash] at hsends'
    refine ⟨fs ++ fs', s', ?_, hsends.append hsends', ?_⟩
    · rw [wire_append]
      exact feed_cons hsend hfeed
    · rw [carried_append, hcar, hcar', List.flatten_cons]

/-! ## Receiving -/

/-- After the bytes in the buffer, the bytes `fut` complete frames that carry `data`. -/
def Frames (C : Crypto) (hashfunc : HashFunc) (userKey : Bytes) (s : AuthAes128)
    (fut data : Bytes) : Prop :=
  ∃ fs, Expects C hashfunc userKey fs { obj := s } ∧ s.recvBuf ++ fut = wire fs ∧
    carried fs = data ∧ (fut = [] → data = [])

/-- A call of a server, from the loop on: it takes the complete frames off the buffer, and puts them
    out after what the message has carried. -/
theorem serverPostDecrypt_spec {now : Time} {data data₁ : ObfsAuthMuData} {s s₁ : AuthAes128}
    {buf outBuf fut : Bytes} {sendback : Bool} {fs : List Frame} (hraw : s.rawTrans = false)
    (hmessage : (if s.hasRecvHeader then
        (.ok ([], false), { s with recvBuf := s.recvBuf ++ buf }, data)
      else recvMessage C now users data { s with recvBuf := s.recvBuf ++ buf }) =
        (.ok (outBuf, sendback), s₁, data₁))
    (hfs : Expects C hashfunc userKey fs { obj := s₁ }) (hhas : s₁.hasRecvHeader = true)
    (hw : s₁.recvBuf ++ fut = wire fs) :
    ∃ out rest sendback s' data', serverPostDecrypt C now users data s buf =
        (.ok (outBuf ++ out, sendback), s', data') ∧ carried fs = out ++ rest ∧
      s'.hasRecvHeader = true ∧ Frames C hashfunc userKey s' fut rest := by
  obtain ⟨done, todo, t', rfl, hloop, hbuf, hout, ⟨htodo, hhas'⟩, hfin⟩ :=
    lockstep_server.loop_spec (s₁.recvBuf.length + 1) (t := { obj := s₁, outBuf, sendback })
      ⟨hfs, hhas⟩ hw (Nat.lt_succ_self _)
  rw [serverPostDecrypt, if_neg (by rw [hraw]; decide)]
  dsimp only
  rw [hmessage]
  dsimp only
  rw [hloop, carried_append]
  dsimp only
  rw [finishRecv, hout]
  split_ifs with hne
  · obtain ⟨table, -, hupdate⟩ := data₁.update_isSome now t'.obj.userId t'.obj.clientId
    rw [hupdate]
    exact ⟨carried done, carried todo, _, _, _, rfl, rfl, hhas', todo, htodo, hbuf, rfl, hfin⟩
  · exact ⟨carried done, carried todo, _, _, _, rfl, rfl, hhas', todo, htodo, hbuf, rfl, hfin⟩

/-- One call of a server that has received the message. -/
theorem recv_spec {s : AuthAes128} {a : ServerRecv} {fut data : Bytes}
    (h : s.hasRecvHeader = true ∧ Frames C hashfunc userKey s (a.buf ++ fut) data) :
    ∃ out data' s', serverRecv C users s a = .ok (out, s') ∧ data = out ++ data' ∧
      s'.hasRecvHeader = true ∧ Frames C hashfunc userKey s' fut data' := by
  obtain ⟨hhas, fs, hfs, hw, rfl, -⟩ := h
  rw [← List.append_assoc] at hw
  obtain ⟨out, rest, sendback, s', data', hpost, hcar, hs'⟩ :=
    serverPostDecrypt_spec (C := C)
      hfs.2.1 (if_pos hhas) hfs hhas hw
  refine ⟨out, rest, s', ?_, hcar, hs'⟩
  rw [serverRecv, hpost]
  rfl

/-- The call in which a server receives the end of the message. -/
theorem serverRecv_message {m : Message} {clock : Time} {localData : LocalData} {s : AuthAes128}
    {a : ServerRecv} {p rest fut : Bytes} {fs : List Frame} {n : ℕ}
    (hknows : Knows C hashfunc users key m.uid m.userKey userId)
    (hauth : m.authData = packLE 4 clock.uint32.toNat ++ localData.localClientId ++
      packLE 4 localData.connectionId)
    (hid : localData.localClientId.length = 4) (hconn : localData.connectionId < 2 ^ 32)
    (hs : Waits hashfunc key iv userId p s) (hacc : Accepts a.now a.data userId clock localData)
    (hp : p ++ a.buf = m.bytes C hashfunc (iv ++ key) ++ rest) (hw : rest ++ fut = wire fs)
    (hfs : Sends (NextFrame C hashfunc m.userKey) 1 fs n) :
    ∃ out data' s', serverRecv C users s a = .ok (out, s') ∧ m.first ++ carried fs = out ++ data' ∧
      s'.hasRecvHeader = true ∧ Frames C hashfunc m.userKey s' fut data' := by
  obtain ⟨s₁, data₁, hmessage, hbuf, hhas, hraw, hrecvId, hhash, hkey⟩ := recvMessage_complete
    (s := { s with recvBuf := s.recvBuf ++ a.buf }) hknows
    ⟨hs.rawTrans, hs.hasRecvHeader, hs.hashfunc_eq, hs.key_eq, hs.recvIv,
      by rw [hs.recvBuf]; exact hp, hs.recvId, hs.userId⟩ hauth hid hconn hacc
  obtain ⟨out, todo, sendback, s', data', hpost, hcar, hs'⟩ :=
    serverPostDecrypt_spec (C := C) hs.rawTrans
      ((if_neg (by rw [hs.hasRecvHeader]; decide)).trans hmessage)
      ⟨⟨n, by rw [hrecvId]; exact hfs⟩, hraw, hhash, hkey⟩ hhas (by rw [hbuf]; exact hw)
  refine ⟨m.first ++ out, todo, s', ?_, by rw [hcar, List.append_assoc], hs'⟩
  rw [serverRecv, hpost]

/-- A call of a server in which the message is still incomplete. -/
theorem serverRecv_wait {m : Message} {s : AuthAes128} {a : ServerRecv} {p : Bytes}
    (hknows : Knows C hashfunc users key m.uid m.userKey userId)
    (hs : Waits hashfunc key iv userId p s) (hp : p ++ a.buf <+: m.bytes C hashfunc (iv ++ key))
    (hne : p ++ a.buf ≠ m.bytes C hashfunc (iv ++ key)) :
    ∃ s', serverRecv C users s a = .ok ([], s') ∧
      Waits hashfunc key iv userId (p ++ a.buf) s' := by
  obtain ⟨s', hmessage, hs'⟩ := recvMessage_incomplete a.now a.data hknows
    (s := { s with recvBuf := s.recvBuf ++ a.buf })
    ⟨hs.rawTrans, hs.hasRecvHeader, hs.hashfunc_eq, hs.key_eq, hs.recvIv, by rw [hs.recvBuf],
      hs.recvId, hs.userId⟩ hp hne
  refine ⟨s', ?_, hs'⟩
  rw [serverRecv, serverPostDecrypt, if_neg (by rw [hs.rawTrans]; decide)]
  dsimp only
  rw [if_neg (by rw [hs.hasRecvHeader]; decide), hmessage]

/-- One call of `client_post_decrypt`. -/
theorem clientRecv_spec {c : AuthAes128} {buf fut data : Bytes}
    (h : Frames C hashfunc userKey c (buf ++ fut) data) :
    ∃ out data' c', clientRecv C c buf = .ok (out, c') ∧ data = out ++ data' ∧
      Frames C hashfunc userKey c' fut data' := by
  obtain ⟨fs, hfs, hw, rfl, -⟩ := h
  rw [← List.append_assoc] at hw
  obtain ⟨done, todo, t', rfl, hloop, hbuf, hout, htodo, hfin⟩ :=
    lockstep_client.loop_spec ((c.recvBuf ++ buf).length + 1)
      (t := { obj := { c with recvBuf := c.recvBuf ++ buf } }) hfs hw (Nat.lt_succ_self _)
  refine ⟨carried done, carried todo, t'.obj, ?_, carried_append _ _, todo, htodo, hbuf, rfl, hfin⟩
  rw [clientRecv, clientPostDecrypt, if_neg (by rw [hfs.2.1]; decide)]
  dsimp only
  rw [hloop]
  dsimp only
  rw [hout]
  rfl

/-! ## The round trip -/

/-- The bytes of a client come with its message and its frames, whatever the chunks. -/
theorem feed_serverRecv {m : Message} {clock : Time} {localData : LocalData} {s : AuthAes128}
    {chunks : List ServerRecv} {fs : List Frame} {n : ℕ}
    (hknows : Knows C hashfunc users key m.uid m.userKey userId)
    (hauth : m.authData = packLE 4 clock.uint32.toNat ++ localData.localClientId ++
      packLE 4 localData.connectionId)
    (hid : localData.localClientId.length = 4) (hconn : localData.connectionId < 2 ^ 32)
    (hs : Waits hashfunc key iv userId [] s)
    (hfs : Sends (NextFrame C hashfunc m.userKey) 1 fs n)
    (hchunks : chunks.flatMap ServerRecv.buf = m.bytes C hashfunc (iv ++ key) ++ wire fs)
    (hacc : AtByte ServerRecv.buf (fun a => Accepts a.now a.data userId clock localData) m.size
      chunks) :
    ∃ s', feed (serverRecv C users) s chunks = .ok (m.first ++ carried fs, s') ∧
      s'.rawTrans = false ∧ s'.userKey = some m.userKey := by
  have hlen := Message.length_bytes C hashfunc (iv ++ key) m
  obtain ⟨outs, data', s', hfeed, hdata, -, gs, ⟨-, hraw, -, hkey⟩, -, rfl, hfin⟩ :=
    feed_header ServerRecv.buf
      (I := fun fut data s => s.hasRecvHeader = true ∧ Frames C hashfunc m.userKey s fut data)
      (fun hs hp hne => serverRecv_wait hknows hs hp hne)
      (fun hs hgood hp hrest => serverRecv_message hknows hauth hid hconn hs hgood hp hrest hfs)
      recv_spec hs (by rw [List.nil_append]; exact hchunks)
      (by rw [hlen, Message.size, List.length_nil]; omega) (by rw [hlen]; exact hacc)
  rw [hfin rfl, List.append_nil] at hdata
  exact ⟨s', by rw [hdata]; exact hfeed, hraw, hkey⟩

/-- Whatever the chunks in which the stream of one end comes to the other one, what comes out is
    what has gone in: from the client, when the server knows it and accepts its message in the call
    in which it receives the last byte of it; from the server, when both have the same key and the
    same number of the next frame. Every frame has 7 to 8191 bytes. -/
theorem aes128_round_trip {c : Sender} {s : AuthAes128} (hc : Fresh c)
    (hreg : Registered users c.serverInfo) (hmss : c.serverInfo.tcpMss ≤ 1500)
    (hs : Waits c.hashfunc c.serverInfo.key c.serverInfo.iv
      (paramUserId c.serverInfo.protocolParam) [] s) :
    (∀ (first : ClientSend) (sends : List ClientSend), first.buf ≠ [] →
      ∃ (m : Message) (fs : List Frame) (c' : Sender), feed (clientSend C) c (first :: sends) =
          .ok (m.bytes C c.hashfunc (c.serverInfo.iv ++ c.serverInfo.key) ++ wire fs, c') ∧
        ∀ chunks : List ServerRecv, chunks.flatMap ServerRecv.buf =
            m.bytes C c.hashfunc (c.serverInfo.iv ++ c.serverInfo.key) ++ wire fs →
          AtByte ServerRecv.buf (fun a => Accepts a.now a.data
            (paramUserId c.serverInfo.protocolParam) first.now c'.localData) m.size chunks →
          ∃ s', feed (serverRecv C users) s chunks =
              .ok ((first :: sends).flatMap ClientSend.buf, s') ∧
            s'.rawTrans = false ∧ s'.userKey = c'.userKey ∧ c'.userKey ≠ none) ∧
    (∀ (server : Sender) (client : AuthAes128) (userKey : Bytes), server.rawTrans = false →
      client.rawTrans = false → client.recvBuf = [] → server.hashfunc = client.hashfunc →
      server.userKey = some userKey → client.userKey = some userKey →
      server.packId = client.recvId → server.serverInfo.tcpMss ≤ 1500 →
      ∀ sends : List Bytes, ∃ stream server',
        feed (Sender.serverPreEncrypt C) server sends = .ok (stream, server') ∧
        ∀ chunks : List Bytes, chunks.flatten = stream →
          ∃ client', feed (clientRecv C) client chunks = .ok (sends.flatten, client') ∧
            client'.rawTrans = false) ∧
    ∀ (sender sender' : Sender) (fullBufSize : ℕ) (buf frame : Bytes),
      sender.serverInfo.tcpMss ≤ 1500 → buf.length ≤ unitLen →
      sender.packData C fullBufSize buf = .ok (frame, sender') →
      7 ≤ frame.length ∧ frame.length ≤ 8191 := by
  refine ⟨fun first sends hfirst => ?_, ?_, ?_⟩
  · obtain ⟨m, fs, c₁, hsend, hauth, hid, hconn, hknows, hout, hfs, hsent, hkey, hhash, hinfo⟩ :=
      clientPreEncrypt_hello (C := C) hc hreg hmss first.now hfirst
    obtain ⟨fs', c', hfeed, hfs', hcar, hloc, hkey'⟩ := feed_clientSend (C := C) sends hsent hkey
      (by rw [hinfo]; exact hmss)
    rw [hhash] at hfs'
    refine ⟨m, fs ++ fs', c', ?_, fun chunks hchunks hacc => ?_⟩
    · rw [wire_append, ← List.append_assoc]
      exact feed_cons hsend hfeed
    · rw [hloc] at hacc
      obtain ⟨s', hrecv, hraw, hkey''⟩ := feed_serverRecv hknows hauth hid hconn hs
        (hfs.append hfs') hchunks hacc
      refine ⟨s', ?_, hraw, hkey''.trans hkey'.symm, by rw [hkey']; exact Option.some_ne_none _⟩
      rw [hrecv, carried_append, ← List.append_assoc, hout, hcar, List.flatMap_cons]
  · intro server client userKey hserver hclient hbuf hhash hskey hckey hid hsmss sends
    obtain ⟨fs, server', hfeed, hfs, hcar⟩ := feed_serverSend (C := C) sends hserver hskey hsmss
    refine ⟨wire fs, server', hfeed, fun chunks hchunks => ?_⟩
    rw [hhash, hid] at hfs
    have hexpects : Expects C client.hashfunc userKey fs { obj := client } :=
      ⟨⟨_, hfs⟩, hclient, rfl, hckey⟩
    have hframes : Frames C client.hashfunc userKey client (chunks.flatMap id) (carried fs) := by
      refine ⟨fs, hexpects, by rw [hbuf, List.flatMap_id, hchunks]; rfl, rfl, fun hw => ?_⟩
      rw [List.flatMap_id, hchunks] at hw
      have hlen := length_le_wire hexpects.bytes_ne_nil
      rw [hw, List.length_nil, Nat.le_zero, List.length_eq_zero_iff] at hlen
      rw [hlen]
      rfl
    obtain ⟨outs, data', client', hrecv, hdata, gs, hgs, -, rfl, hfin⟩ :=
      feed_spec (clientRecv C) id
        (I := fun fut data c => Frames C client.hashfunc userKey c fut data) clientRecv_spec hframes
    rw [hfin rfl, List.append_nil, hcar] at hdata
    exact ⟨client', by rw [hdata]; exact hrecv, hgs.2.1⟩
  · intro sender sender' fullBufSize buf frame hsmss hbuf hpack
    cases hkey : sender.userKey with
    | none =>
      obtain ⟨pad, rng, hrnd, -⟩ := Sender.rndData_spec C sender.hashfunc hsmss hbuf
        fullBufSize []
      rw [Sender.packData, hrnd, hkey] at hpack
      cases hpack
    | some userKey =>
      obtain ⟨f, rng, hf, -, hframe⟩ :=
        Sender.packData_spec (C := C) hkey hsmss hbuf fullBufSize
      rw [hpack] at hf
      obtain ⟨rfl, -⟩ := Prod.mk.inj (Except.ok.inj hf)
      have hseven := hframe.seven_le
      obtain ⟨-, -, -, hmax⟩ := hframe
      omega

/-- A user with the password `9` sends two buffers, which come in two chunks: of the first one,
    the message is not complete. -/
theorem aes128_round_trip_two : ∃ (m : Message) (fs : List Frame) (c' : Sender),
    feed (clientSend plainCrypto)
      { hashfunc := .md5, serverInfo := ⟨[1], [2], [3], [55, 58, 57], 9, 1460⟩, rng := fun n => n
        extraWaitSize := 0, bufferSize := 32768 } [⟨9, [3, 4, 5]⟩, ⟨20, []⟩] =
        .ok (m.bytes plainCrypto .md5 [2, 1] ++ wire fs, c') ∧
    ∃ s', feed (serverRecv plainCrypto (Dict.empty.set [7, 0, 0, 0] [57]))
      { hashfunc := .md5, serverInfo := ⟨[1], [3], [2], [], 9, 1460⟩, rng := fun n => n
        extraWaitSize := 5 }
      [⟨30, {}, (m.bytes plainCrypto .md5 [2, 1] ++ wire fs).take 33⟩,
        ⟨40, {}, (m.bytes plainCrypto .md5 [2, 1] ++ wire fs).drop 33⟩] = .ok ([3, 4, 5], s') ∧
      s'.rawTrans = false := by
  obtain ⟨m, fs, c', hsend, hrecv⟩ := (@aes128_round_trip
    plainCrypto (Dict.empty.set [7, 0, 0, 0] [57])
    { hashfunc := .md5, serverInfo := ⟨[1], [2], [3], [55, 58, 57], 9, 1460⟩, rng := fun n => n
      extraWaitSize := 0, bufferSize := 32768 }
    { hashfunc := .md5, serverInfo := ⟨[1], [3], [2], [], 9, 1460⟩, rng := fun n => n
      extraWaitSize := 5 }
    ⟨rfl, rfl, rfl⟩ (.inl ⟨by decide, [7, 0, 0, 0], by decide +kernel, by decide +kernel⟩)
    (by decide) ⟨rfl, rfl, rfl, rfl, rfl, rfl, rfl, .inl rfl⟩).1 ⟨9, [3, 4, 5]⟩ [⟨20, []⟩]
    (List.cons_ne_nil _ _)
  refine ⟨m, fs, c', hsend, ?_⟩
  obtain ⟨s', hs', hraw, -⟩ := hrecv
    [⟨30, {}, (m.bytes plainCrypto .md5 [2, 1] ++ wire fs).take 33⟩,
      ⟨40, {}, (m.bytes plainCrypto .md5 [2, 1] ++ wire fs).drop 33⟩]
    ((congrArg _ (List.append_nil _)).trans (List.take_append_drop 33 _))
    (atByte_of_forall (fun a ha => by
      rw [List.mem_cons, List.mem_singleton] at ha
      rcases ha with rfl | rfl
      · exact ⟨show InWindow 30 (Time.uint32 9).toNat by decide +kernel,
          AuthData.accepted_new _ _ _ _⟩
      · exact ⟨show InWindow 40 (Time.uint32 9).toNat by decide +kernel,
          AuthData.accepted_new _ _ _ _⟩) _)
  exact ⟨s', hs', hraw⟩

end AuthAes128

end ShadowsocksR

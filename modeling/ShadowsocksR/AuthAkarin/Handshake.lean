import ShadowsocksR.AuthAkarin.Ends

/-!
# The handshake of an auth_akarin connection

The header is that of auth_chain, with the `tcp_mss` of the client in it
(`Hello`), from which also the ivs of both streams come.

* `clientPreEncrypt_hello`: the first buffer of a client;
* `recvHeader_hello`: the server receives its header.
-/

namespace ShadowsocksR

namespace AuthAkarin

open AuthBase Encryptor
open AuthChain (Lane Accepts)

/-- The configuration of a client and of a server, with the same key, iv and overhead, and with
    the user of the client in the table of the server. -/
structure Setup where
  method : Method
  noCompatible : Bool
  key : Bytes
  iv : Bytes
  overhead : ℕ
  users : Dict Bytes Bytes
  client : ServerInfo
  server : ServerInfo
  client_eq : client.key = key ∧ client.iv = iv ∧ client.overhead = overhead
  server_eq : server.key = key ∧ server.recvIv = iv ∧ server.overhead = overhead
  registered : Registered users client
  tcpMss_mem : 501 ≤ server.tcpMss ∧ server.tcpMss ≤ 1500

/-- The header of a client, and the `tcp_mss` in it. -/
structure Hello where
  header : Header
  mss : ℕ
  mss_le : mss ≤ 1423

variable {C : Crypto}

section Session

variable (C : Crypto) (S : Setup) (g : Hello)

/-- The key of the hashes in the header. -/
def Setup.macKey : Bytes := S.iv ++ S.key

/-- The bytes of the header. -/
def Setup.helloBytes : Bytes := g.header.bytes C S.macKey S.method.salt

/-- The session that a header opens. -/
def Setup.session : Session where
  method := S.method
  key := S.key
  overhead := S.overhead
  userKey := g.header.userKey
  streamKey := b64encode g.header.userKey ++ b64encode (g.header.clientHash C S.macKey)
  clientIv := (g.header.clientHash C S.macKey).take 8
  serverIv := (g.header.serverHash C S.macKey S.method.salt).take 8
  clientMss := g.mss
  serverMss := S.server.tcpMss
  clientMss_le := g.mss_le
  serverMss_le := S.tcpMss_mem.2

/-- The lane of the client after a header. -/
def Setup.startUp : Lane :=
  .start (g.header.clientHash C S.macKey) (g.header.length_clientHash C S.macKey)

/-- The lane of the server after a header. -/
def Setup.startDown : Lane :=
  .start (g.header.serverHash C S.macKey S.method.salt)
    (g.header.length_serverHash C S.macKey S.method.salt)

end Session

/-- The numbers in the header of a client: its clock, its ids, its overhead and its `tcp_mss`. -/
structure Greets (g : Hello) (clock : Time) (localData : LocalData) (overhead : ℕ) : Prop where
  plain_eq : g.header.plain = packLE 4 clock.uint32.toNat ++ localData.localClientId ++
    packLE 4 localData.connectionId ++ (packLE 2 overhead ++ packLE 2 g.mss)
  length_localClientId : localData.localClientId.length = 4
  connectionId_lt : localData.connectionId < 2 ^ 32

/-- An object before the handshake. -/
structure Fresh (m : Method) (info : ServerInfo) (s : AuthAkarin) : Prop where
  method_eq : s.method = m
  lists_eq : s.lists = initDataSize m info.key
  serverInfo_eq : s.serverInfo = info
  userKey_eq : s.userKey = none
  userId_eq : s.userId = none
  packId_eq : s.packId = 1
  recvId_eq : s.recvId = 1
  unitLen_eq : s.unitLen = 2800
  rawTrans_eq : s.rawTrans = false
  hasSentHeader_eq : s.hasSentHeader = false
  hasRecvHeader_eq : s.hasRecvHeader = false
  sendBackCmd_eq : s.sendBackCmd = []

theorem fresh_create (m : Method) (noCompatible : Bool) (info : ServerInfo) (localData : LocalData)
    (rng : Rng) : Fresh m info (create m noCompatible info localData rng) :=
  ⟨rfl, rfl, rfl, rfl, rfl, rfl, rfl, rfl, rfl, rfl, rfl, rfl⟩

/-! ## The client -/

/-- The object that packs the frames of the first buffer, after the header. -/
def greeting (C : Crypto) (now : Time) (s : AuthAkarin) : Except PyExc (Bytes × AuthAkarin) :=
  let (authData, base) := { s.toAuthBase with rng := (randint 0 31 s.rng).2 }.authData now
  packAuthHeader C { s with toAuthBase := base } authData

/-- What a client knows of the frames of its first buffer. -/
def helloLog (C : Crypto) (s : AuthAkarin) : List Bytes → List Sent
  | [] => []
  | p :: ps => clientSent s p :: match packClientData C s p with
    | .ok (_, s) => sentAll (packClientData C) clientSent { s with hasSentHeader := true } ps
    | .error _ => []

/-- What a client knows of the frames of a buffer, from the pieces of it. -/
def clientLog (C : Crypto) (now : Time) (s : AuthAkarin) (pieces : List Bytes) : List Sent :=
  if s.hasSentHeader then sentAll (packClientData C) clientSent s pieces
  else
    match greeting C now s with
    | .ok (_, s) => helloLog C s pieces
    | .error _ => []

/-- The header of a client. -/
theorem packAuthHeader_spec (S : Setup) (hover : S.overhead < 2 ^ 16) {s : AuthAkarin}
    (hs : Fresh S.method S.client s) {authData : Bytes} (hlen : authData.length = 12) :
    ∃ (g : Hello) (s' : AuthAkarin),
      packAuthHeader C s authData = .ok (S.helloBytes C g, s') ∧
      ClientSends C (S.session C g) [] [] (S.startUp C g) s' ∧
      s'.lastServerHash = g.header.serverHash C S.macKey S.method.salt ∧
      g.header.plain = authData ++ (packLE 2 S.overhead ++ packLE 2 g.mss) ∧
      Knows S.users S.key g.header.uid g.header.userKey (paramUserId S.client.protocolParam) ∧
      s'.recvId = s.recvId ∧ s'.unitLen = s.unitLen ∧ s'.rawTrans = s.rawTrans ∧
      s'.recvBuf = s.recvBuf ∧ s'.localData = s.localData ∧ s'.sendBackCmd = s.sendBackCmd := by
  obtain ⟨hk, hi, ho⟩ := S.client_eq
  have hinfo := hs.serverInfo_eq
  obtain ⟨mss, hmss⟩ : ∃ mss, unpackBE (randBytes 2 s.rng).1 % 1024 + 400 = mss := ⟨_, rfl⟩
  have hmss_le : mss ≤ 1423 := by omega
  obtain ⟨h, rng, hhead, hplain, hknows⟩ := packAuthHead_eq S.method.salt (C := C)
    (s := { s.toAuthBase with rng := (randBytes 2 s.rng).2 }) hlen
    (by rw [hinfo, ho]; exact hover) (show mss < 2 ^ 16 by omega)
    (by rw [hinfo]; exact S.registered) hs.userKey_eq
  dsimp only at hhead hplain hknows
  have hmac : s.serverInfo.iv ++ s.serverInfo.key = S.macKey := by
    rw [hinfo, hk, hi]
    rfl
  rw [hmac] at hhead
  rw [hinfo, ho] at hplain
  rw [hinfo, hk] at hknows
  obtain ⟨e, hnew, hst⟩ := ivStream_new (C := C)
    (b64encode h.userKey ++ b64encode (h.clientHash C S.macKey))
    (show ((h.clientHash C S.macKey).take 8).length = 8 by simp)
    (show ((h.serverHash C S.macKey S.method.salt).take 8).length = 8 by simp) rng
  -- The object that the first frame is packed with.
  obtain ⟨o, ho'⟩ : ∃ o : AuthAkarin, o = { s with
    rng := rng
    lastClientHash := h.clientHash C S.macKey
    userKey := some h.userKey
    lastServerHash := h.serverHash C S.macKey S.method.salt
    encryptor := some ((e.encrypt C []).2.decrypt C
      ((h.serverHash C S.macKey S.method.salt).take 8)).2
    sendTcpMss := mss } := ⟨_, rfl⟩
  refine ⟨⟨h, mss, hmss_le⟩, o, ?_, ?_, by rw [ho'], hplain, hknows, ?_⟩
  · simp only [packAuthHeader, hmss, hs.method_eq, hhead, bind, Except.bind, Option.getD_some,
      hnew, ho']
    rfl
  · subst ho'
    have hlists : s.lists = initDataSize S.method S.key := by rw [hs.lists_eq, hk]
    have hoverhead : s.serverInfo.overhead = S.overhead := by rw [hinfo, ho]
    exact ⟨⟨hs.method_eq, hlists, hoverhead, rfl, hs.packId_eq, rfl, _, rfl, hst⟩,
      hs.sendBackCmd_eq, fun _ => rfl, fun h => absurd rfl h⟩
  · rw [ho']
    exact ⟨rfl, rfl, rfl, rfl, rfl, rfl⟩

/-- The first buffer of a client. -/
theorem clientPreEncrypt_hello (S : Setup) (hover : S.overhead < 2 ^ 16) {s : AuthAkarin}
    (hs : Fresh S.method S.client s) (now : Time) (buf : Bytes) :
    ∃ g t' fs up, clientPreEncrypt C (buf.length + 1) now s buf = .done t' ∧
      t'.ret = S.helloBytes C g ++ wire fs ∧
      Chain C (S.session C g) (S.session C g).clientIv (CarriesUp (S.session C g)) (S.startUp C g)
        fs (clientLog C now s t'.packed) up ∧
      carried fs = buf ∧ (∀ f ∈ clientLog C now s t'.packed, f.command = false) ∧
      ClientOpen C (S.session C g) up (S.startDown C g) t'.obj ∧
      Knows S.users S.key g.header.uid g.header.userKey (paramUserId S.client.protocolParam) ∧
      Greets g now t'.obj.localData S.overhead ∧
      t'.obj.hasSentHeader = true ∧ t'.obj.unitLen = 2800 ∧ t'.obj.rawTrans = false ∧
      t'.obj.recvBuf = s.recvBuf := by
  obtain ⟨loc, rng, hauth, hid, hconn⟩ := AuthBase.authData_eq now
    { s.toAuthBase with rng := (randint 0 31 s.rng).2 }
  obtain ⟨n, hn⟩ : ∃ n, min buf.length ((randint 0 31 s.rng).1 + getHeadSize buf 30) = n :=
    ⟨_, rfl⟩
  have hn' : n ≤ 2800 := by
    have h₁ := getHeadSize_le buf (show 30 ≤ 259 by norm_num)
    have h₂ : (randint 0 31 s.rng).1 ≤ 31 := by
      rw [randint]
      omega
    omega
  obtain ⟨g, s₁, hhead, hsends, hserver, hplain, hknows, hrid, hunit, hraw, hbuf, hloc, hcmd⟩ :=
    packAuthHeader_spec (C := C) S hover (s := { s with localData := loc, rng := rng })
      ⟨hs.method_eq, hs.lists_eq, hs.serverInfo_eq, hs.userKey_eq, hs.userId_eq, hs.packId_eq,
        hs.recvId_eq, hs.unitLen_eq, hs.rawTrans_eq, hs.hasSentHeader_eq, hs.hasRecvHeader_eq,
        hs.sendBackCmd_eq⟩
      (show (packLE 4 now.uint32.toNat ++ loc.localClientId ++ packLE 4 loc.connectionId).length
        = 12 by simp [hid])
  have hgreet : greeting C now s = .ok (S.helloBytes C g, s₁) := by
    rw [greeting, hauth]
    exact hhead
  have hp := clientPacker C (S.session C g) [] []
  obtain ⟨data, s₂, hash, hf, hpack, hsends₂, hgood, hk₁⟩ :=
    hp.spec hsends ((List.length_take_le n buf).trans hn')
  obtain ⟨t', ps, fs, up, hcut, hpacked, hret, hch, hc, -, hsends', hall, hk⟩ :=
    hp.cut_chain (CarriesUp (S.session C g)) (show 0 < 2800 by norm_num) le_rfl (buf.length + 1)
      (t := { obj := { s₂ with hasSentHeader := true }
              buf := buf.drop n
              ret := S.helloBytes C g ++ data
              packed := [buf.take n] })
      (l := (S.startUp C g).next (buf.take n) hash hf.length_hash)
      ⟨⟨hsends₂.method_eq, hsends₂.lists_eq, hsends₂.overhead_eq, hsends₂.userKey_eq,
        hsends₂.packId_eq, hsends₂.hash_eq, hsends₂.stream⟩, hsends₂.sendBackCmd_eq,
        hsends₂.sendTcpMss_eq, hsends₂.recvTcpMss_eq⟩
      (by simp only [List.length_drop]; omega) fun n f p _ hf => hf.carriesUp n p
  have hlog : clientLog C now s t'.packed = clientSent s₁ (buf.take n) ::
      sentAll (packClientData C) clientSent { s₂ with hasSentHeader := true } ps := by
    rw [clientLog, if_neg (by rw [hs.hasSentHeader_eq]; decide), hgreet, hpacked]
    simp only [List.cons_append, List.nil_append, helloLog, hpack]
  rw [ClientKept] at hk hk₁
  refine ⟨g, t', ⟨data, buf.take n⟩ :: fs, up, ?_, ?_, ?_, ?_, ?_, ?_, hknows, ?_, ?_, ?_, ?_, ?_⟩
  · have hfirst : packAuthData C { s with localData := loc, rng := rng }
        (packLE 4 now.uint32.toNat ++ loc.localClientId ++ packLE 4 loc.connectionId)
        (buf.take n) = .ok (S.helloBytes C g ++ data, s₂) := by
      simp only [packAuthData, hhead, hpack, bind, Except.bind]
    rw [clientPreEncrypt, if_neg (by rw [hs.hasSentHeader_eq]; decide)]
    dsimp only
    rw [hn, hauth]
    dsimp only
    rw [hfirst]
    have hunit₂ : s₂.unitLen = ((2800 : ℕ) : ℤ) := by
      rw [hk₁]
      exact hunit.trans hs.unitLen_eq
    rw [← hunit₂] at hcut
    exact hcut
  · rw [hret, List.append_assoc, wire_cons]
  · rw [hlog]
    exact .cons hf (hgood.carriesUp _ _) hch
  · rw [carried_cons, hc]
    exact List.take_append_drop n buf
  · rw [hlog, List.forall_mem_cons]
    exact ⟨hgood.command_eq_false, fun f hf => (hall f hf).command_eq_false⟩
  · refine hsends'.open (by rw [hk, hk₁]; exact hrid.trans hs.recvId_eq)
      (by rw [hk, hk₁]; exact hserver) ⟨?_, fun h => absurd h (lt_irrefl 0),
        fun h => absurd h (lt_irrefl 0)⟩
    exact iff_of_false (not_not.2 hsends'.sendBackCmd_eq) (lt_irrefl 0)
  · rw [hk, hk₁]
    exact ⟨by rw [hplain, hloc], by rw [hloc]; exact hid, by rw [hloc]; exact hconn⟩
  · rw [hk]
  · rw [hk, hk₁]; exact hunit.trans hs.unitLen_eq
  · rw [hk, hk₁]; exact hraw.trans hs.rawTrans_eq
  · rw [hk, hk₁]; exact hbuf

/-! ## The server -/

/-- The server receives the header of the client. -/
theorem recvHeader_hello (S : Setup) (hover : S.overhead < 2 ^ 16) {s : AuthAkarin}
    (hs : Fresh S.method S.server s) {g : Hello} {rest : Bytes}
    (hbuf : s.recvBuf = S.helloBytes C g ++ rest) {userId : Option Bytes}
    (hknows : Knows S.users S.key g.header.uid g.header.userKey userId) {clock : Time}
    {localData : LocalData} (hg : Greets g clock localData S.overhead) {now : Time}
    {data : ObfsAuthChainData} (hacc : Accepts now data userId clock localData) :
    ∃ s' data', recvHeader C now S.users data s = (.ok true, s', data') ∧
      ServerOpen C (S.session C g) (S.startDown C g) (S.startUp C g) s' ∧
      (s'.recvTcpMss = g.mss ∧ s'.sendTcpMss = g.mss) ∧
      s'.recvBuf = rest ∧ s'.hasRecvHeader = true ∧ s'.rawTrans = false ∧
      s'.serverInfo = S.server ∧ s'.clientOverHead = S.overhead := by
  obtain ⟨hk, hi, ho⟩ := S.server_eq
  have hinfo := hs.serverInfo_eq
  obtain ⟨hwin, data', hins⟩ := hacc
  obtain ⟨hp₁, hp₂, hp₃, hp₄⟩ := plain_eq clock.uint32_lt hg.length_localClientId
    hg.connectionId_lt hover hg.plain_eq
  have hmss_le := g.mss_le
  have hp₅ : unpackLE (g.header.plain.extract 14 16) = g.mss := by
    rw [hg.plain_eq, ← List.append_assoc, ← List.append_nil (packLE 2 g.mss), ← List.append_assoc,
      extract_append_append (by simp [hg.length_localClientId]) (by simp),
      unpackLE_packLE (by norm_num; omega)]
  have hmac : s.serverInfo.recvIv ++ s.serverInfo.key = S.macKey := by
    rw [hinfo, hk, hi]
    rfl
  obtain ⟨userIdNum, calls, rng, hopen⟩ := openHeader_complete (C := C) (s := s.toAuthBase) hmac
    hbuf (by rw [hinfo, hk]; exact hknows) hs.userId_eq
  obtain ⟨e, hnew, hst⟩ := ivStream_new (C := C)
    (b64encode g.header.userKey ++ b64encode (g.header.clientHash C S.macKey))
    (show ((g.header.serverHash C S.macKey S.method.salt).take 8).length = 8 by simp)
    (show ((g.header.clientHash C S.macKey).take 8).length = 8 by simp) rng
  have hlists : s.lists = initDataSize S.method S.key := by rw [hs.lists_eq, hk]
  have hoverhead : s.serverInfo.overhead = S.overhead := by rw [hinfo, ho]
  refine ⟨{ s with
    lastClientHash := g.header.clientHash C S.macKey
    lastServerHash := g.header.serverHash C S.macKey S.method.salt
    userId := userId
    userKey := some g.header.userKey
    clientOverHead := unpackLE (g.header.plain.extract 12 14)
    userIdNum := userIdNum
    updateUserCalls := calls
    clientId := unpackLE localData.localClientId
    connectionId := localData.connectionId
    encryptor := some ((e.encrypt C []).2.decrypt C
      ((g.header.clientHash C S.macKey).take 8)).2
    rng := rng
    recvBuf := s.recvBuf.drop 36
    hasRecvHeader := true
    recvTcpMss := g.mss
    sendTcpMss := g.mss }, data', ?_,
    ⟨⟨⟨hs.method_eq, hlists, hoverhead, rfl⟩, hs.packId_eq, hs.recvId_eq, rfl, rfl, _, rfl, hst⟩,
      by dsimp only; omega, fun h => absurd h (lt_irrefl 0), fun h => absurd h (lt_irrefl 0)⟩,
    ⟨rfl, rfl⟩, ?_, rfl, hs.rawTrans_eq, hinfo, hp₄⟩
  · rw [recvHeader, hs.method_eq, hopen]
    simp only [acceptHeader, hp₁, hp₂, hp₃, hp₅, if_pos hwin, hins, Option.getD_some, hnew]
  · exact (congrArg (List.drop 36) hbuf).trans (List.drop_left' (by simp [Setup.helloBytes]))

end AuthAkarin

end ShadowsocksR

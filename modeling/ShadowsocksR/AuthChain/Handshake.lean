import ShadowsocksR.AuthChain.Ends

/-!
# The handshake of an auth_chain connection

A client that the server knows sends a header before its first frame; the
server, when it accepts the header, is in the same states of the two lanes.

* `clientPreEncrypt_hello`: the first buffer of a client;
* `recvHeader_hello`: the server receives its header.
-/

namespace ShadowsocksR

namespace AuthChain

open AuthBase Encryptor

variable {C : Crypto}

/-- The session that a header opens. -/
def sessionOf (C : Crypto) (m : Method) (key : Bytes) (overhead : ℕ) (macKey : Bytes)
    (h : Header) : Session where
  method := m
  key := key
  overhead := overhead
  userKey := h.userKey
  streamKey := b64encode h.userKey ++ b64encode (h.clientHash C macKey)

/-- The state of a lane at its beginning. -/
def Lane.start (hash : Bytes) (h : hash.length = 16) : Lane where
  hash := hash
  length_hash := h

/-- The lane of the client after a header. -/
def startUp (C : Crypto) (macKey : Bytes) (h : Header) : Lane :=
  .start (h.clientHash C macKey) (h.length_clientHash C macKey)

/-- The lane of the server after a header. -/
def startDown (C : Crypto) (macKey salt : Bytes) (h : Header) : Lane :=
  .start (h.serverHash C macKey salt) (h.length_serverHash C macKey salt)

/-- The numbers in the header of a client: its clock, its ids and its overhead. -/
structure Greets (h : Header) (clock : Time) (localData : LocalData) (overhead : ℕ) : Prop where
  plain_eq : h.plain = packLE 4 clock.uint32.toNat ++ localData.localClientId ++
    packLE 4 localData.connectionId ++ (packLE 2 overhead ++ packLE 2 0)
  length_localClientId : localData.localClientId.length = 4
  connectionId_lt : localData.connectionId < 2 ^ 32

/-- An object before the handshake. -/
structure Fresh (m : Method) (info : ServerInfo) (s : AuthChain) : Prop where
  method_eq : s.method = m
  lists_eq : s.lists = initDataSize m info.key
  serverInfo_eq : s.serverInfo = info
  userKey_eq : s.userKey = none
  userId_eq : s.userId = none
  packId_eq : s.packId = 1
  recvId_eq : s.recvId = 1
  unitLen_eq : s.unitLen = 2800
  rawTrans_eq : s.rawTrans = false
  hasSentHeader_eq : s.hasSentHeader = false
  hasRecvHeader_eq : s.hasRecvHeader = false

theorem fresh_new (m : Method) (noCompatible : Bool) (info : ServerInfo) (localData : LocalData)
    (rng : Rng) : Fresh m info (new m noCompatible info localData rng) :=
  ⟨rfl, rfl, rfl, rfl, rfl, rfl, rfl, rfl, rfl, rfl, rfl⟩

/-- The header of a client, and the frame that follows it. -/
theorem packAuthData_spec {m : Method} (hm : m ≠ .f) {users : Dict Bytes Bytes}
    {info : ServerInfo} (hreg : Registered users info) (hover : info.overhead < 2 ^ 16)
    {s : AuthChain} (hs : Fresh m info s) {authData buf : Bytes} (hlen : authData.length = 12)
    (hbuf : buf.length ≤ 2800) :
    ∃ (h : Header) (data : Bytes) (s' : AuthChain) (hash : Bytes)
      (hf : Framed C (sessionOf C m info.key info.overhead (info.iv ++ info.key) h)
        (startUp C (info.iv ++ info.key) h) buf data hash),
      packAuthData C s authData buf =
        .ok (h.bytes C (info.iv ++ info.key) m.salt ++ data, s') ∧
      Sends C (sessionOf C m info.key info.overhead (info.iv ++ info.key) h) []
        ((startUp C (info.iv ++ info.key) h).next buf hash hf.length_hash) s'.lastClientHash s' ∧
      s'.lastServerHash = h.serverHash C (info.iv ++ info.key) m.salt ∧
      h.plain = authData ++ (packLE 2 info.overhead ++ packLE 2 0) ∧
      Knows users info.key h.uid h.userKey (paramUserId info.protocolParam) ∧
      s'.recvId = s.recvId ∧ s'.unitLen = s.unitLen ∧ s'.rawTrans = s.rawTrans ∧
      s'.recvBuf = s.recvBuf ∧ s'.localData = s.localData := by
  obtain ⟨rfl, hlists, rfl, hkey, -, hpackId, -⟩ := hs
  obtain ⟨h, rng, hhead, hplain, hknows⟩ := packAuthHead_eq s.method.salt (C := C)
    (s := s.toAuthBase) hlen hover (show 0 < 2 ^ 16 by norm_num) hreg hkey
  have hstream := stream_new (C := C)
    (b64encode h.userKey ++ b64encode (h.clientHash C (s.serverInfo.iv ++ s.serverInfo.key))) rng
  generalize hnew : Encryptor.new C
    (b64encode h.userKey ++ b64encode (h.clientHash C (s.serverInfo.iv ++ s.serverInfo.key))) .rc4
    none rng =
      r at hstream
  obtain ⟨e, rng'⟩ := r
  -- The object that the first frame is packed with.
  obtain ⟨o, ho⟩ : ∃ o : AuthChain, o = { s with
    rng := rng'
    lastClientHash := h.clientHash C (s.serverInfo.iv ++ s.serverInfo.key)
    userKey := some h.userKey
    lastServerHash := h.serverHash C (s.serverInfo.iv ++ s.serverInfo.key) s.method.salt
    encryptor := some e } := ⟨_, rfl⟩
  have hsends : Sends C (sessionOf C s.method s.serverInfo.key s.serverInfo.overhead
        (s.serverInfo.iv ++ s.serverInfo.key) h) []
      (startUp C (s.serverInfo.iv ++ s.serverInfo.key) h) o.lastClientHash o := by
    subst ho
    exact ⟨rfl, hlists, rfl, rfl, hpackId, rfl, e, rfl, hstream⟩
  obtain ⟨data, s', hash, hf, hpack, hsends', hk⟩ := (clientPacker hm).spec hsends hbuf
  refine ⟨h, data, s', hash, hf, ?_, hsends', ?_, hplain, hknows, ?_⟩
  · simp only [packAuthData, hhead, bind, Except.bind, Option.getD_some, hnew]
    rw [ho] at hpack
    rw [hpack]
  · rw [ClientKept, ho] at hk
    rw [hk]
  · rw [ClientKept, ho] at hk
    rw [hk]
    exact ⟨rfl, rfl, rfl, rfl, rfl⟩

/-- The first buffer of a client. -/
theorem clientPreEncrypt_hello {m : Method} (hm : m ≠ .f) {users : Dict Bytes Bytes}
    {info : ServerInfo} (hreg : Registered users info) (hover : info.overhead < 2 ^ 16)
    {s : AuthChain} (hs : Fresh m info s) (now : Time) (buf : Bytes) :
    ∃ h t' fs up,
      clientPreEncrypt C (buf.length + 1) now s buf = .done t' ∧
      t'.ret = h.bytes C (info.iv ++ info.key) m.salt ++ wire fs ∧
      Chain C (sessionOf C m info.key info.overhead (info.iv ++ info.key) h) CarriesUp
        (startUp C (info.iv ++ info.key) h) fs up ∧
      carried fs = buf ∧
      ClientOpen C (sessionOf C m info.key info.overhead (info.iv ++ info.key) h) up
        (startDown C (info.iv ++ info.key) m.salt h) t'.obj ∧
      Knows users info.key h.uid h.userKey (paramUserId info.protocolParam) ∧
      Greets h now t'.obj.localData info.overhead ∧
      t'.obj.hasSentHeader = true ∧ t'.obj.unitLen = 2800 ∧ t'.obj.rawTrans = false ∧
      t'.obj.recvBuf = s.recvBuf := by
  obtain ⟨loc, rng, hauth, hid, hconn⟩ := AuthBase.authData_eq now
    { s.toAuthBase with rng := (randint 0 31 s.rng).2 }
  obtain ⟨n, hn⟩ : ∃ n, min buf.length ((randint 0 31 s.rng).1 + getHeadSize buf 30) = n :=
    ⟨_, rfl⟩
  have hn' : n ≤ 2800 := by
    have h₁ := getHeadSize_le buf (show 30 ≤ 259 by norm_num)
    have h₂ : (randint 0 31 s.rng).1 ≤ 31 := by
      rw [randint]
      omega
    omega
  obtain ⟨h, data, s', hash, hf, hpack, hsends, hserver, hplain, hknows, hrid, hunit, hraw, hbuf,
    hloc⟩ := packAuthData_spec (C := C) hm hreg hover
      (s := { s with localData := loc, rng := rng })
      ⟨hs.method_eq, hs.lists_eq, hs.serverInfo_eq, hs.userKey_eq, hs.userId_eq, hs.packId_eq,
        hs.recvId_eq, hs.unitLen_eq, hs.rawTrans_eq, hs.hasSentHeader_eq, hs.hasRecvHeader_eq⟩
      (show (packLE 4 now.uint32.toNat ++ loc.localClientId ++ packLE 4 loc.connectionId).length
        = 12 by simp [hid]) ((List.length_take_le n buf).trans hn')
  obtain ⟨t', fs, up, hcut, hret, hch, hc, -, hsends', hk⟩ :=
    (clientPacker hm).cut_chain CarriesUp (show 0 < 2800 by norm_num) le_rfl (buf.length + 1)
      (t := { obj := { s' with hasSentHeader := true }
              buf := buf.drop n
              ret := h.bytes C (info.iv ++ info.key) m.salt ++ data
              packed := [buf.take n] })
      (l := (startUp C (info.iv ++ info.key) h).next (buf.take n) hash hf.length_hash)
      ⟨hsends.method_eq, hsends.lists_eq, hsends.overhead_eq, hsends.userKey_eq, hsends.packId_eq,
        hsends.hash_eq, hsends.stream⟩
      (by simp only [List.length_drop]; omega) fun _ _ _ => rfl
  rw [ClientKept] at hk
  refine ⟨h, t', ⟨data, buf.take n⟩ :: fs, up, ?_, ?_, .cons hf rfl hch, ?_, ?_, hknows, ?_, ?_, ?_,
    ?_, ?_⟩
  · rw [clientPreEncrypt, if_neg (by rw [hs.hasSentHeader_eq]; decide)]
    dsimp only
    rw [hn, hauth]
    dsimp only
    rw [hpack]
    rw [show ((2800 : ℕ) : ℤ) = s'.unitLen from (hunit.trans hs.unitLen_eq).symm] at hcut
    exact hcut
  · rw [hret, List.append_assoc, wire_cons]
  · rw [carried_cons, hc]
    exact List.take_append_drop n buf
  · exact hsends'.open (by rw [hk]; exact hrid.trans hs.recvId_eq) (by rw [hk]; exact hserver)
  · rw [hk]
    exact ⟨by rw [hplain, hloc], by rw [hloc]; exact hid, by rw [hloc]; exact hconn⟩
  · rw [hk]
  · rw [hk]; exact hunit.trans hs.unitLen_eq
  · rw [hk]; exact hraw.trans hs.rawTrans_eq
  · rw [hk]; exact hbuf

/-- The server accepts a handshake now: its timestamp is in the window, and the shared data accepts
    its connection id. -/
def Accepts (now : Time) (data : ObfsAuthChainData) (userId : Option Bytes) (clock : Time)
    (localData : LocalData) : Prop :=
  InWindow now clock.uint32.toNat ∧ ∃ data', data.insert now userId
    (unpackLE localData.localClientId) localData.connectionId = some (true, data')

/-- The server receives the header of the client. -/
theorem recvHeader_hello (users : Dict Bytes Bytes) (rest : Bytes) {m : Method} (hm : m ≠ .f)
    {info : ServerInfo} {s : AuthChain} (hs : Fresh m info s) {h : Header}
    (hbuf : s.recvBuf = h.bytes C (info.recvIv ++ info.key) m.salt ++ rest)
    {userId : Option Bytes} (hknows : Knows users info.key h.uid h.userKey userId) {clock : Time}
    {localData : LocalData} (hg : Greets h clock localData info.overhead)
    (hover : info.overhead < 2 ^ 16) {now : Time} {data : ObfsAuthChainData}
    (hacc : Accepts now data userId clock localData) :
    ∃ s' data', recvHeader C now users data s = (.ok true, s', data') ∧
      ServerOpen C (sessionOf C m info.key info.overhead (info.recvIv ++ info.key) h)
        (startDown C (info.recvIv ++ info.key) m.salt h)
          (startUp C (info.recvIv ++ info.key) h) s' ∧
      s'.recvBuf = rest ∧ s'.hasRecvHeader = true ∧ s'.rawTrans = false ∧ s'.serverInfo = info ∧
      s'.clientOverHead = info.overhead := by
  obtain ⟨rfl, hlists, rfl, -, huserId, hpackId, hrecvId, -, hraw, -, -⟩ := hs
  obtain ⟨hwin, data', hins⟩ := hacc
  obtain ⟨hp₁, hp₂, hp₃, hp₄⟩ := plain_eq clock.uint32_lt hg.length_localClientId
    hg.connectionId_lt hover hg.plain_eq
  obtain ⟨userIdNum, calls, rng, hopen⟩ := openHeader_complete (C := C)
    (s := s.toAuthBase) rfl hbuf hknows huserId
  have hstream := stream_new (C := C) (b64encode h.userKey ++
    b64encode (h.clientHash C (s.serverInfo.recvIv ++ s.serverInfo.key))) rng
  generalize hnew : Encryptor.new C (b64encode h.userKey ++
    b64encode (h.clientHash C (s.serverInfo.recvIv ++ s.serverInfo.key))) .rc4 none rng =
      r at hstream
  obtain ⟨e, rng'⟩ := r
  refine ⟨{ s with
    lastClientHash := h.clientHash C (s.serverInfo.recvIv ++ s.serverInfo.key)
    lastServerHash := h.serverHash C (s.serverInfo.recvIv ++ s.serverInfo.key) s.method.salt
    userId := userId
    userKey := some h.userKey
    clientOverHead := unpackLE (h.plain.extract 12 14)
    userIdNum := userIdNum
    updateUserCalls := calls
    clientId := unpackLE localData.localClientId
    connectionId := localData.connectionId
    encryptor := some e
    rng := rng'
    recvBuf := s.recvBuf.drop 36
    hasRecvHeader := true }, data', ?_,
    ⟨⟨rfl, hlists, rfl, rfl⟩, hpackId, hrecvId, rfl, rfl, e, rfl, hstream⟩, ?_, rfl, hraw, rfl, hp₄⟩
  · rw [recvHeader, hopen]
    simp only [acceptHeader, hp₁, hp₂, hp₃, if_pos hwin, hins, onRecvAuthData, ne_eq, hm,
      not_false_eq_true, if_true, Option.getD_some, hnew]
  · exact (congrArg (List.drop 36) hbuf).trans (List.drop_left' (by simp))

end AuthChain

end ShadowsocksR

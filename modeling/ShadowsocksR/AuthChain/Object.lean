import ShadowsocksR.AuthBase
import ShadowsocksR.Lib.Cutting

/-!
# The auth_chain protocols

The TCP functions of the classes `auth_chain_a` to `auth_chain_f`. A function
returns the object after the call beside its result.

* `packData`: one frame, for both directions;
* `takeFrame`: one frame off the front of a buffer, for both directions;
* `clientPreEncrypt`, `serverPreEncrypt`: packing a buffer, given a number of
  turns for the loop;
* `serverPostDecrypt`, `clientPostDecrypt`: receiving a chunk of the stream.
-/

namespace ShadowsocksR

open AuthChain

/-- The state of the classes `auth_chain_a` to `auth_chain_f`. -/
structure AuthChain extends AuthBase where
  method : Method
  lists : DataSizeLists := {}
  /-- Only `auth_chain_f` has it. -/
  keyChangeInterval : ℤ := 60 * 60 * 24

namespace AuthChain

open AuthBase

/-- `salt` -/
def Method.salt (m : Method) : Bytes :=
  let letter : UInt8 := match m with
    | .a => 97
    | .b => 98
    | .c => 99
    | .d => 100
    | .e => 101
    | .f => 102
  [97, 117, 116, 104, 95, 99, 104, 97, 105, 110, 95, letter]

/-- A new object, after `set_server_info`. -/
def new (method : Method) (noCompatible : Bool) (serverInfo : ServerInfo) (localData : LocalData)
    (rng : Rng) : AuthChain where
  method := method
  noCompatible := noCompatible
  serverInfo := serverInfo
  localData := localData
  rng := rng
  lists := initDataSize method serverInfo.key

/-! ## Frames -/

/-- `rnd_data` -/
def rndData (s : AuthChain) (buf lastHash : Bytes) (random : Xorshift128plus) :
    Except PyExc (Bytes × Xorshift128plus × Rng) := do
  let (randLen, random) ←
    rndDataLen s.method s.lists s.serverInfo.overhead buf.length lastHash random
  let (rndDataBuf, rng) ← randBytesInt randLen s.rng
  if buf.length = 0 then .ok (rndDataBuf, random, rng)
  else if randLen > 0 then
    let (startPos, random) := rndStartPos randLen.toNat random
    .ok (rndDataBuf.take startPos ++ buf ++ rndDataBuf.drop startPos, random, rng)
  else .ok (buf, random, rng)

/-- A frame, and what packing it changes. -/
structure Packed where
  data : Bytes
  lastHash : Bytes
  random : Xorshift128plus
  encryptor : Encryptor
  rng : Rng

/-- The common body of `pack_client_data` and `pack_server_data`. (There are 16 bytes in the hash
    when there is an encryptor.) -/
def packData (C : Crypto) (s : AuthChain) (buf lastHash : Bytes) (random : Xorshift128plus) :
    Except PyExc Packed :=
  match s.encryptor, s.userKey with
  | none, _ => .error .attributeError
  | some encryptor, userKey => do
    let (buf, encryptor) := encryptor.encrypt C buf
    let (data, random, rng) ← s.rndData buf lastHash random
    match userKey with
    | none => .error .typeError
    | some userKey =>
      let macKey := userKey ++ packLE 4 s.packId
      let data := (← pack 2 (buf.length ^^^ unpackLE (lastHash.drop 14))) ++ data
      let lastHash := C.hmac .md5 macKey data
      .ok { data := data ++ lastHash.take 2, lastHash, random, encryptor, rng }

def packClientData (C : Crypto) (s : AuthChain) (buf : Bytes) :
    Except PyExc (Bytes × AuthChain) := do
  let p ← s.packData C buf s.lastClientHash s.randomClient
  .ok (p.data,
    { s with
      encryptor := some p.encryptor
      lastClientHash := p.lastHash
      randomClient := p.random
      rng := p.rng
      packId := (s.packId + 1) % 2 ^ 32 })

def packServerData (C : Crypto) (s : AuthChain) (buf : Bytes) :
    Except PyExc (Bytes × AuthChain) := do
  let p ← s.packData C buf s.lastServerHash s.randomServer
  .ok (p.data,
    { s with
      encryptor := some p.encryptor
      lastServerHash := p.lastHash
      randomServer := p.random
      rng := p.rng
      packId := (s.packId + 1) % 2 ^ 32 })

/-- What the loops over `recv_buf` find at its front. -/
inductive Taken
  | overSize (random : Xorshift128plus)
  | incomplete (random : Xorshift128plus)
  | badChecksum (random : Xorshift128plus)
  | frame (data hash rest : Bytes) (dataLen : ℕ) (random : Xorshift128plus)

/-- The frame at the front of `recv_buf`, its lengths being known. -/
def takeData (C : Crypto) (s : AuthChain) (userKey : Bytes) (dataLen randLen : ℕ)
    (random : Xorshift128plus) : Taken :=
  let length := dataLen + randLen
  if length ≥ 4096 then .overSize random
  else if length + 4 > s.recvBuf.length then .incomplete random
  else
    let hash := C.hmac .md5 (userKey ++ packLE 4 s.recvId) (s.recvBuf.take (length + 2))
    if hash.take 2 ≠ s.recvBuf.extract (length + 2) (length + 4) then .badChecksum random
    else
      let (pos, random) :=
        if dataLen > 0 ∧ randLen > 0 then rndStartPos randLen random else (0, random)
      .frame (s.recvBuf.extract (2 + pos) (dataLen + (2 + pos))) hash
        (s.recvBuf.drop (length + 4)) dataLen random

/-- The common part of the loops over `recv_buf`. (There are no negative lengths of padding.) -/
def takeFrame (C : Crypto) (s : AuthChain) (userKey lastHash : Bytes) (random : Xorshift128plus) :
    Except PyExc Taken := do
  let dataLen := unpackLE (s.recvBuf.take 2) ^^^ unpackLE (lastHash.extract 14 16)
  let (randLen, random) ←
    rndDataLen s.method s.lists s.serverInfo.overhead dataLen lastHash random
  .ok (s.takeData C userKey dataLen randLen.toNat random)

/-- A frame is taken off the front of the buffer. -/
theorem takeFrame_frame {C : Crypto} {s : AuthChain} {userKey lastHash data hash rest : Bytes}
    {random random' : Xorshift128plus} {dataLen : ℕ}
    (h : s.takeFrame C userKey lastHash random = .ok (.frame data hash rest dataLen random')) :
    hash.length = 16 ∧ ∃ length, length + 4 ≤ s.recvBuf.length ∧
      rest = s.recvBuf.drop (length + 4) := by
  obtain ⟨r, -, hr⟩ := bind_eq_ok.1 h
  simp only [Except.ok.injEq, takeData] at hr
  split_ifs at hr with h₁ h₂ h₃ <;> cases hr <;>
    exact ⟨C.length_hmac _ _ _, _, not_lt.1 h₂, rfl⟩

/-! ## The client -/

def packAuthData (C : Crypto) (s : AuthChain) (authData buf : Bytes) :
    Except PyExc (Bytes × AuthChain) := do
  let (data, base) ← s.packAuthHead C s.method.salt 0 authData
  let (encryptor, rng) := Encryptor.new C
    (b64encode (base.userKey.getD []) ++ b64encode base.lastClientHash) .rc4 none base.rng
  let (frame, s) ← packClientData C
    { s with toAuthBase := { base with encryptor := some encryptor, rng } } buf
  .ok (data ++ frame, s)

/-- `client_pre_encrypt`, with at most `fuel` turns of its loop. -/
def clientPreEncrypt (C : Crypto) (fuel : ℕ) (now : Time) (s : AuthChain) (buf : Bytes) :
    Next (Cut AuthChain) PyExc :=
  if s.hasSentHeader then cut s.unitLen (packClientData C) fuel { obj := s, buf }
  else
    let headSize := getHeadSize buf 30
    let (r, rng) := randint 0 31 s.rng
    let dataLen := min buf.length (r + headSize)
    let (authData, base) := { s.toAuthBase with rng }.authData now
    match packAuthData C { s with toAuthBase := base } authData (buf.take dataLen) with
    | .error e => .fail e { obj := s, buf }
    | .ok (ret, s) =>
      cut s.unitLen (packClientData C) fuel
        { obj := { s with hasSentHeader := true }
          buf := buf.drop dataLen
          ret
          packed := [buf.take dataLen] }

/-- The state of the loops over `recv_buf`. -/
structure Recv where
  obj : AuthChain
  outBuf : Bytes := []
  sendback : Bool := false

/-- One turn of the loop in `client_post_decrypt`. -/
def clientRecvBody (C : Crypto) (t : Recv) : Next Recv PyExc :=
  let s := t.obj
  if s.recvBuf.length > 4 then
    match s.userKey with
    | none => .fail .typeError t
    | some userKey =>
      match s.takeFrame C userKey s.lastServerHash s.randomServer with
      | .error e => .fail e t
      | .ok (.overSize randomServer) | .ok (.badChecksum randomServer) =>
        .fail .exception { t with obj := { s with randomServer, rawTrans := true, recvBuf := [] } }
      | .ok (.incomplete randomServer) => .done { t with obj := { s with randomServer } }
      | .ok (.frame data serverHash rest _ randomServer) =>
        match s.encryptor with
        | none => .fail .attributeError { t with obj := { s with randomServer } }
        | some encryptor =>
          let (out, encryptor) := encryptor.decrypt C data
          let outBuf := t.outBuf ++ out
          let s := { s with
            randomServer, encryptor := some encryptor, lastServerHash := serverHash }
          if s.recvId = 1 then
            if outBuf.length < 2 then .fail .structError { t with obj := s, outBuf }
            else .more { t with
              obj := { s with
                serverInfo := { s.serverInfo with tcpMss := unpackLE (outBuf.take 2) }
                recvId := (s.recvId + 1) % 2 ^ 32
                recvBuf := rest }
              outBuf := outBuf.drop 2 }
          else .more { t with
            obj := { s with recvId := (s.recvId + 1) % 2 ^ 32, recvBuf := rest }
            outBuf }
  else .done t

/-- `client_post_decrypt`; every turn of its loop shortens the buffer. -/
def clientPostDecrypt (C : Crypto) (s : AuthChain) (buf : Bytes) : Except PyExc Bytes × AuthChain :=
  if s.rawTrans then (.ok buf, s)
  else
    let s := { s with recvBuf := s.recvBuf ++ buf }
    match loop (clientRecvBody C) (s.recvBuf.length + 1) { obj := s } with
    | .fail e t => (.error e, t.obj)
    | .done t | .more t => (.ok t.outBuf, t.obj)

theorem clientRecvBody_shortens {C : Crypto} {t t' : Recv} (h : clientRecvBody C t = .more t') :
    t'.obj.recvBuf.length < t.obj.recvBuf.length := by
  rw [clientRecvBody] at h
  split at h
  · split at h
    · cases h
    · split at h
      · cases h
      · cases h
      · cases h
      · cases h
      · next htake =>
        obtain ⟨-, length, hlen, rfl⟩ := takeFrame_frame htake
        split at h
        · cases h
        · dsimp only at h
          split_ifs at h <;> cases h <;> simp only [List.length_drop] <;> omega
  · cases h

/-- The turns that the loop is given are enough. -/
theorem clientRecv_ends (C : Crypto) (t t' : Recv) :
    loop (clientRecvBody C) (t.obj.recvBuf.length + 1) t ≠ .more t' :=
  loop_ne_more (m := fun t : Recv => t.obj.recvBuf.length) clientRecvBody_shortens _
    (Nat.lt_succ_self _) _

/-! ## The server -/

/-- `server_pre_encrypt`, with at most `fuel` turns of its loop. -/
def serverPreEncrypt (C : Crypto) (fuel : ℕ) (s : AuthChain) (buf : Bytes) :
    Next (Cut AuthChain) PyExc :=
  if s.rawTrans then .done { obj := s, buf := [], ret := buf }
  else if s.packId = 1 then
    let tcpMss := if s.serverInfo.tcpMss < 1500 then s.serverInfo.tcpMss else 1500
    let s := { s with
      serverInfo := { s.serverInfo with tcpMss }
      unitLen := (tcpMss : ℤ) - s.clientOverHead }
    cut s.unitLen (packServerData C) fuel { obj := s, buf := packLE 2 tcpMss ++ buf }
  else cut s.unitLen (packServerData C) fuel { obj := s, buf }

/-- `on_recv_auth_data`: `auth_chain_f` makes its lists there, from a `str` which it joins `bytes`
    to. -/
def onRecvAuthData (s : AuthChain) (_utcTime : ℕ) : Except PyExc Unit :=
  if s.method ≠ .f then .ok ()
  else if s.keyChangeInterval = 0 then .error .zeroDivisionError
  else if s.serverInfo.key = [] then .error .indexError
  else .error .typeError

/-- The part of `server_post_decrypt` that receives the header: whether to send back, or what is
    returned. -/
def recvHeader (C : Crypto) (now : Time) (users : Dict Bytes Bytes) (data : ObfsAuthChainData)
    (s : AuthChain) : Except Result Bool × AuthChain × ObfsAuthChainData :=
  match s.openHeader C s.method.salt users with
  | (.error r, base) => (.error r, { s with toAuthBase := base }, data)
  | (.ok head, base) =>
    match base.acceptHeader now data head with
    | (.error r, base, data) => (.error r, { s with toAuthBase := base }, data)
    | (.ok utcTime, base, data) =>
      match s.onRecvAuthData utcTime with
      | .error e => (.error (.error e), { s with toAuthBase := base }, data)
      | .ok () =>
        let (encryptor, rng) := Encryptor.new C
          (b64encode (base.userKey.getD []) ++ b64encode base.lastClientHash) .rc4 none base.rng
        (.ok true,
          { s with toAuthBase :=
            { base with
              encryptor := some encryptor
              rng := rng
              recvBuf := base.recvBuf.drop 36
              hasRecvHeader := true } },
          data)

/-- One turn of the loop in `server_post_decrypt`. -/
def serverRecvBody (C : Crypto) (t : Recv) : Next Recv Result :=
  let s := t.obj
  if s.recvBuf.length > 4 then
    match s.userKey with
    | none => .fail (.error .typeError) t
    | some userKey =>
      match s.takeFrame C userKey s.lastClientHash s.randomClient with
      | .error e => .fail (.error e) t
      | .ok (.overSize randomClient) | .ok (.badChecksum randomClient) =>
        .fail (if s.recvId = 1 then .ok (List.replicate 2048 69, false) else .error .exception)
          { t with obj := { s with randomClient, rawTrans := true, recvBuf := [] } }
      | .ok (.incomplete randomClient) => .done { t with obj := { s with randomClient } }
      | .ok (.frame data clientHash rest dataLen randomClient) =>
        let s := { s with randomClient, recvId := (s.recvId + 1) % 2 ^ 32 }
        match s.encryptor with
        | none => .fail (.error .attributeError) { t with obj := s }
        | some encryptor =>
          let (out, encryptor) := encryptor.decrypt C data
          .more
            { obj := { s with
                encryptor := some encryptor, lastClientHash := clientHash, recvBuf := rest }
              outBuf := t.outBuf ++ out
              sendback := t.sendback || dataLen == 0 }
  else .done t

theorem serverRecvBody_shortens {C : Crypto} {t t' : Recv} (h : serverRecvBody C t = .more t') :
    t'.obj.recvBuf.length < t.obj.recvBuf.length := by
  rw [serverRecvBody] at h
  split at h
  · split at h
    · cases h
    · split at h
      · cases h
      · cases h
      · cases h
      · cases h
      · next htake =>
        obtain ⟨-, length, hlen, rfl⟩ := takeFrame_frame htake
        dsimp only at h
        split at h
        · cases h
        · cases h
          simp only [List.length_drop]
          omega
  · cases h

/-- The turns that the loop is given are enough. -/
theorem serverRecv_ends (C : Crypto) (t t' : Recv) :
    loop (serverRecvBody C) (t.obj.recvBuf.length + 1) t ≠ .more t' :=
  loop_ne_more (m := fun t : Recv => t.obj.recvBuf.length) serverRecvBody_shortens _
    (Nat.lt_succ_self _) _

/-- The end of `server_post_decrypt`, after the loop. -/
def finishRecv (now : Time) (data : ObfsAuthChainData) (t : Recv) :
    Result × AuthChain × ObfsAuthChainData :=
  if t.outBuf ≠ [] then
    match data.update now t.obj.userId t.obj.clientId with
    | none => (.error .keyError, t.obj, data)
    | some data => (.ok (t.outBuf, t.sendback), t.obj, data)
  else (.ok (t.outBuf, t.sendback), t.obj, data)

/-- The end of `server_post_decrypt` does not raise. -/
theorem finishRecv_eq (now : Time) (data : ObfsAuthChainData) (t : Recv) :
    ∃ data', finishRecv now data t = (.ok (t.outBuf, t.sendback), t.obj, data') := by
  rw [finishRecv]
  split
  · obtain ⟨_, -, h⟩ := data.update_isSome now t.obj.userId t.obj.clientId
    rw [h]
    exact ⟨_, rfl⟩
  · exact ⟨data, rfl⟩

/-- `server_post_decrypt`; every turn of its loop shortens the buffer. -/
def serverPostDecrypt (C : Crypto) (now : Time) (users : Dict Bytes Bytes)
    (data : ObfsAuthChainData) (s : AuthChain) (buf : Bytes) :
    Result × AuthChain × ObfsAuthChainData :=
  if s.rawTrans then (.ok (buf, false), s, data)
  else
    let s := { s with recvBuf := s.recvBuf ++ buf }
    match if s.hasRecvHeader then (.ok false, s, data) else s.recvHeader C now users data with
    | (.error r, s, data) => (r, s, data)
    | (.ok sendback, s, data) =>
      match loop (serverRecvBody C) (s.recvBuf.length + 1) { obj := s, sendback } with
      | .fail r t => (r, t.obj, data)
      | .done t | .more t => finishRecv now data t

end AuthChain

end ShadowsocksR

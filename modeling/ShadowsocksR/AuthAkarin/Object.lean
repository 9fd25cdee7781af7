import ShadowsocksR.AuthBase
import ShadowsocksR.AuthAkarin.Padding
import ShadowsocksR.Lib.Cutting

/-!
# The auth_akarin protocols

The TCP functions of the classes `auth_akarin_rand` and `auth_akarin_spec_a`.
They have the handshake of auth_chain, and frames whose padding depends on the
`tcp_mss` of both ends. The client draws the first one, and names it in its
header; the server names its own in its first frame, and takes it after that
frame. The client then takes it, too, and says so at the front of its frames with
a command, at which the server expects it.

* `clientPreEncrypt`, `serverPreEncrypt`: packing a buffer, given a number of
  turns for the loop;
* `serverPostDecrypt`, `clientPostDecrypt`: receiving a chunk of the stream.
-/

namespace ShadowsocksR

/-- The state of the classes `auth_akarin_rand` and `auth_akarin_spec_a`. -/
structure AuthAkarin extends AuthBase where
  method : AuthAkarin.Method := .rand
  lists : AuthChain.DataSizeLists := {}
  newSendTcpMss : ℕ := 2000
  sendTcpMss : ℕ := 2000
  recvTcpMss : ℕ := 2000
  sendBackCmd : List ℕ := []

namespace AuthAkarin

open AuthBase

/-- `salt` of `auth_akarin_rand` -/
def salt : Bytes := [97, 117, 116, 104, 95, 97, 107, 97, 114, 105, 110, 95, 114, 97, 110, 100]

/-- `salt` -/
def Method.salt : Method → Bytes
  | .rand => AuthAkarin.salt
  | .specA => [97, 117, 116, 104, 95, 97, 107, 97, 114, 105, 110, 95, 115, 112, 101, 99, 95, 97]

/-- A new object of `auth_akarin_rand`, after `set_server_info`. -/
def new (noCompatible : Bool) (serverInfo : ServerInfo) (localData : LocalData) (rng : Rng) :
    AuthAkarin where
  noCompatible := noCompatible
  serverInfo := serverInfo
  localData := localData
  rng := rng

/-- A new object of either class, after `set_server_info`. -/
def create (method : Method) (noCompatible : Bool) (serverInfo : ServerInfo)
    (localData : LocalData) (rng : Rng) : AuthAkarin :=
  { new noCompatible serverInfo localData rng with
    method
    lists := initDataSize method serverInfo.key }

/-! ## Padding -/

def sendRndDataLen (s : AuthAkarin) : ℕ → Bytes → Xorshift128plus →
    Except PyExc (ℕ × Xorshift128plus) :=
  rndDataLen s.method s.lists s.sendTcpMss s.sendTcpMss s.serverInfo.overhead

/-- It compares the length with the `tcp_mss` of the other direction. -/
def recvRndDataLen (s : AuthAkarin) : ℕ → Bytes → Xorshift128plus →
    Except PyExc (ℕ × Xorshift128plus) :=
  rndDataLen s.method s.lists s.recvTcpMss s.sendTcpMss s.serverInfo.overhead

/-- `rnd_data` -/
def rndData (s : AuthAkarin) (bufSize : ℕ) (buf lastHash : Bytes) (random : Xorshift128plus) :
    Except PyExc (Bytes × Xorshift128plus × Rng) := do
  let (randLen, random) ← s.sendRndDataLen bufSize lastHash random
  let (rndDataBuf, rng) := randBytes randLen s.rng
  .ok (if bufSize = 0 then rndDataBuf else if randLen > 0 then buf ++ rndDataBuf else buf,
    random, rng)

/-! ## Packing -/

/-- A client that has received the `tcp_mss` of the server takes it, and puts a command in front. -/
def packClientData (C : Crypto) (s : AuthAkarin) (buf : Bytes) :
    Except PyExc (Bytes × AuthAkarin) :=
  match s.encryptor with
  | none => .error .attributeError
  | some encryptor => do
    let (buf, encryptor) := encryptor.encrypt C buf
    let (data, randomClient, rng, sendTcpMss) ←
      if s.sendBackCmd ≠ [] then do
        let cmdLen := 2
        let s := { s with sendTcpMss := s.recvTcpMss }
        let (data, randomClient, rng) ←
          s.rndData (buf.length + cmdLen) buf s.lastClientHash s.randomClient
        let length := buf.length ^^^ unpackLE (s.lastClientHash.extract 12 14)
        let data := (← pack 2 length) ++ data
        let length := 0xff00 ^^^ unpackLE (s.lastClientHash.drop 14)
        let data := (← pack 2 length) ++ data
        .ok (data, randomClient, rng, s.sendTcpMss)
      else do
        let (data, randomClient, rng) ←
          s.rndData buf.length buf s.lastClientHash s.randomClient
        let length := buf.length ^^^ unpackLE (s.lastClientHash.drop 14)
        let data := (← pack 2 length) ++ data
        .ok (data, randomClient, rng, s.sendTcpMss)
    match s.userKey with
    | none => .error .typeError
    | some userKey =>
      let macKey := userKey ++ packLE 4 s.packId
      let lastClientHash := C.hmac .md5 macKey data
      .ok (data ++ lastClientHash.take 2,
        { s with
          encryptor := some encryptor
          randomClient := randomClient
          rng := rng
          sendTcpMss := sendTcpMss
          lastClientHash := lastClientHash
          packId := (s.packId + 1) % 2 ^ 32 })

def packServerData (C : Crypto) (s : AuthAkarin) (buf : Bytes) :
    Except PyExc (Bytes × AuthAkarin) :=
  match s.encryptor with
  | none => .error .attributeError
  | some encryptor => do
    let (buf, encryptor) := encryptor.encrypt C buf
    let (data, randomServer, rng) ← s.rndData buf.length buf s.lastServerHash s.randomServer
    match s.userKey with
    | none => .error .typeError
    | some userKey =>
      let macKey := userKey ++ packLE 4 s.packId
      let data := (← pack 2 (buf.length ^^^ unpackLE (s.lastServerHash.drop 14))) ++ data
      let lastServerHash := C.hmac .md5 macKey data
      .ok (data ++ lastServerHash.take 2,
        { s with
          encryptor := some encryptor
          randomServer := randomServer
          rng := rng
          lastServerHash := lastServerHash
          sendTcpMss := if s.packId = 1 then s.newSendTcpMss else s.sendTcpMss
          packId := (s.packId + 1) % 2 ^ 32 })

/-- The header in `pack_auth_data`, and the object that packs the frame after it. -/
def packAuthHeader (C : Crypto) (s : AuthAkarin) (authData : Bytes) :
    Except PyExc (Bytes × AuthAkarin) := do
  let (mss, rng) := randBytes 2 s.rng
  let sendTcpMss := unpackBE mss % 1024 + 400
  let (data, base) ←
    { s.toAuthBase with rng }.packAuthHead C s.method.salt sendTcpMss authData
  let (encryptor, rng) := Encryptor.new C
    (b64encode (base.userKey.getD []) ++ b64encode base.lastClientHash) .chacha20
    (some (base.lastClientHash.take 8)) base.rng
  let (_, encryptor) := encryptor.encrypt C []
  let (_, encryptor) := encryptor.decrypt C (base.lastServerHash.take 8)
  .ok (data,
    { s with
      toAuthBase := { base with encryptor := some encryptor, rng }
      sendTcpMss })

def packAuthData (C : Crypto) (s : AuthAkarin) (authData buf : Bytes) :
    Except PyExc (Bytes × AuthAkarin) := do
  let (data, s) ← packAuthHeader C s authData
  let (frame, s) ← packClientData C s buf
  .ok (data ++ frame, s)

/-- `client_pre_encrypt`, with at most `fuel` turns of its loop. -/
def clientPreEncrypt (C : Crypto) (fuel : ℕ) (now : Time) (s : AuthAkarin) (buf : Bytes) :
    Next (Cut AuthAkarin) PyExc :=
  if s.hasSentHeader then cut s.unitLen (packClientData C) fuel { obj := s, buf }
  else
    let headSize := getHeadSize buf 30
    let (r, rng) := randint 0 31 s.rng
    let dataLen := min buf.length (r + headSize)
    let (authData, base) := { s.toAuthBase with rng }.authData now
    match packAuthData C { s with toAuthBase := base } authData (buf.take dataLen) with
    | .error e => .fail e { obj := s, buf }
    | .ok (ret, s) =>
      cut s.unitLen (packClientData C) fuel
        { obj := { s with hasSentHeader := true }
          buf := buf.drop dataLen
          ret
          packed := [buf.take dataLen] }

/-- `server_pre_encrypt`, with at most `fuel` turns of its loop. -/
def serverPreEncrypt (C : Crypto) (fuel : ℕ) (s : AuthAkarin) (buf : Bytes) :
    Next (Cut AuthAkarin) PyExc :=
  if s.rawTrans then .done { obj := s, buf := [], ret := buf }
  else if s.packId = 1 then
    let tcpMss := if s.serverInfo.tcpMss < 1500 then s.serverInfo.tcpMss else 1500
    let s := { s with
      serverInfo := { s.serverInfo with tcpMss }
      unitLen := (tcpMss : ℤ) - s.clientOverHead
      newSendTcpMss := tcpMss }
    cut s.unitLen (packServerData C) fuel { obj := s, buf := packLE 2 tcpMss ++ buf }
  else cut s.unitLen (packServerData C) fuel { obj := s, buf }

/-! ## The server -/

/-- The part of `server_post_decrypt` that receives the header: whether to send back, or what is
    returned. -/
def recvHeader (C : Crypto) (now : Time) (users : Dict Bytes Bytes) (data : ObfsAuthChainData)
    (s : AuthAkarin) : Except Result Bool × AuthAkarin × ObfsAuthChainData :=
  match s.openHeader C s.method.salt users with
  | (.error r, base) => (.error r, { s with toAuthBase := base }, data)
  | (.ok head, base) =>
    let recvTcpMss := unpackLE (head.extract 14 16)
    match base.acceptHeader now data head with
    | (.error r, base, data) =>
      (.error r, { s with toAuthBase := base, recvTcpMss, sendTcpMss := recvTcpMss }, data)
    | (.ok _, base, data) =>
      let (encryptor, rng) := Encryptor.new C
        (b64encode (base.userKey.getD []) ++ b64encode base.lastClientHash) .chacha20
        (some (base.lastServerHash.take 8)) base.rng
      let (_, encryptor) := encryptor.encrypt C []
      let (_, encryptor) := encryptor.decrypt C (base.lastClientHash.take 8)
      (.ok true,
        { s with
          toAuthBase := { base with
            encryptor := some encryptor
            rng := rng
            recvBuf := base.recvBuf.drop 36
            hasRecvHeader := true }
          recvTcpMss, sendTcpMss := recvTcpMss },
        data)

/-- What comes of the commands at the front of a frame: its other bytes, with the length of the
    data, or an invalid one, or not enough bytes. -/
inductive Commands
  | data (rest : Bytes) (dataLen cmdLen : ℕ)
  | invalid (cmdLen : ℕ)
  | short (cmdLen : ℕ)

/-- How many bytes of commands there are. -/
def Commands.cmdLen : Commands → ℕ
  | .data _ _ cmdLen | .invalid cmdLen | .short cmdLen => cmdLen

/-- The loop over the commands, where the other lengths are masked with `mask`. -/
def takeCommands (mask : ℕ) : Bytes → ℕ → ℕ → Commands
  | b₀ :: b₁ :: b₂ :: b₃ :: buf, dataLen, cmdLen =>
    if dataLen < 0xff00 then .data (b₀ :: b₁ :: b₂ :: b₃ :: buf) dataLen cmdLen
    else if dataLen = 0xff00 then
      takeCommands mask (b₂ :: b₃ :: buf) (unpackLE [b₂, b₃] ^^^ mask) (cmdLen + 2)
    else .invalid cmdLen
  | buf, dataLen, cmdLen =>
    if dataLen < 0xff00 then .data buf dataLen cmdLen
    else if dataLen = 0xff00 then .short (cmdLen + 2)
    else .invalid cmdLen

/-- The state of the loop over `recv_buf`. -/
structure Recv where
  obj : AuthAkarin
  outBuf : Bytes := []
  sendback : Bool := false

/-- How the loop is left at a bad frame. -/
def badFrame (t : Recv) (s : AuthAkarin) : Next Recv Result :=
  .fail (if s.recvId = 1 then .ok (List.replicate 2048 69, false) else .error .exception)
    { t with obj := { s with rawTrans := true, recvBuf := [] } }

/-- One turn of the loop in `server_post_decrypt`. -/
def serverRecvBody (C : Crypto) (t : Recv) : Next Recv Result :=
  let s := t.obj
  if s.recvBuf.length > 4 then
    match s.userKey with
    | none => .fail (.error .typeError) t
    | some userKey =>
      let macKey := userKey ++ packLE 4 s.recvId
      let dataLen := unpackLE (s.recvBuf.take 2) ^^^ unpackLE (s.lastClientHash.extract 14 16)
      let commands := takeCommands (unpackLE (s.lastClientHash.extract 12 14)) s.recvBuf dataLen 0
      let s := { s with
        recvTcpMss := if commands.cmdLen > 0 then s.sendTcpMss else s.recvTcpMss }
      match commands with
      | .invalid _ => badFrame t s
      | .short _ => .fail (.error .structError) { t with obj := s }
      | .data recvBuf dataLen cmdLen =>
        match s.recvRndDataLen (dataLen + cmdLen) s.lastClientHash s.randomClient with
        | .error e => .fail (.error e) { t with obj := s }
        | .ok (randLen, randomClient) =>
          let s := { s with randomClient }
          let length := dataLen + randLen
          if length ≥ 4096 then badFrame t s
          else if length + 4 > recvBuf.length then .done { t with obj := s }
          else
            let clientHash := C.hmac .md5 macKey (s.recvBuf.take (length + cmdLen + 2))
            if clientHash.take 2 ≠ s.recvBuf.extract (length + cmdLen + 2)
              (length + cmdLen + 4) then
              badFrame t s
            else
              let s := { s with recvId := (s.recvId + 1) % 2 ^ 32 }
              match s.encryptor with
              | none => .fail (.error .attributeError) { t with obj := s }
              | some encryptor =>
                let (out, encryptor) := encryptor.decrypt C (recvBuf.extract 2 (dataLen + 2))
                .more
                  { obj := { s with
                      encryptor := some encryptor
                      lastClientHash := clientHash
                      recvBuf := recvBuf.drop (length + 4) }
                    outBuf := t.outBuf ++ out
                    sendback := t.sendback || dataLen == 0 }
  else .done t

/-- The end of `server_post_decrypt`, after the loop. -/
def finishRecv (now : Time) (data : ObfsAuthChainData) (t : Recv) :
    Result × AuthAkarin × ObfsAuthChainData :=
  if t.outBuf ≠ [] then
    match data.update now t.obj.userId t.obj.clientId with
    | none => (.error .keyError, t.obj, data)
    | some data => (.ok (t.outBuf, t.sendback), t.obj, data)
  else (.ok (t.outBuf, t.sendback), t.obj, data)

theorem finishRecv_eq (now : Time) (data : ObfsAuthChainData) (t : Recv) :
    ∃ data', finishRecv now data t = (.ok (t.outBuf, t.sendback), t.obj, data') := by
  rw [finishRecv]
  split
  · obtain ⟨_, -, h⟩ := data.update_isSome now t.obj.userId t.obj.clientId
    rw [h]
    exact ⟨_, rfl⟩
  · exact ⟨data, rfl⟩

/-- `server_post_decrypt`; every turn of its loop shortens the buffer. -/
def serverPostDecrypt (C : Crypto) (now : Time) (users : Dict Bytes Bytes)
    (data : ObfsAuthChainData) (s : AuthAkarin) (buf : Bytes) :
    Result × AuthAkarin × ObfsAuthChainData :=
  if s.rawTrans then (.ok (buf, false), s, data)
  else
    let s := { s with recvBuf := s.recvBuf ++ buf }
    match if s.hasRecvHeader then (.ok false, s, data) else s.recvHeader C now users data with
    | (.error r, s, data) => (r, s, data)
    | (.ok sendback, s, data) =>
      match loop (serverRecvBody C) (s.recvBuf.length + 1) { obj := s, sendback } with
      | .fail r t => (r, t.obj, data)
      | .done t | .more t => finishRecv now data t

/-! ## The client -/

/-- One turn of the loop in `client_post_decrypt`. -/
def clientRecvBody (C : Crypto) (t : Recv) : Next Recv PyExc :=
  let s := t.obj
  if s.recvBuf.length > 4 then
    match s.userKey with
    | none => .fail .typeError t
    | some userKey =>
      let macKey := userKey ++ packLE 4 s.recvId
      let dataLen := unpackLE (s.recvBuf.take 2) ^^^ unpackLE (s.lastServerHash.extract 14 16)
      match s.recvRndDataLen dataLen s.lastServerHash s.randomServer with
      | .error e => .fail e t
      | .ok (randLen, randomServer) =>
        let s := { s with randomServer }
        let length := dataLen + randLen
        if length ≥ 4096 then
          .fail .exception { t with obj := { s with rawTrans := true, recvBuf := [] } }
        else if length + 4 > s.recvBuf.length then .done { t with obj := s }
        else
          let serverHash := C.hmac .md5 macKey (s.recvBuf.take (length + 2))
          if serverHash.take 2 ≠ s.recvBuf.extract (length + 2) (length + 4) then
            .fail .exception { t with obj := { s with rawTrans := true, recvBuf := [] } }
          else
            match s.encryptor with
            | none => .fail .attributeError { t with obj := s }
            | some encryptor =>
              let (out, encryptor) := encryptor.decrypt C (s.recvBuf.extract 2 (dataLen + 2))
              let outBuf := t.outBuf ++ out
              let s := { s with encryptor := some encryptor, lastServerHash := serverHash }
              if s.recvId = 1 then
                if outBuf.length < 2 then .fail .structError { t with obj := s, outBuf }
                else
                  let tcpMss := unpackLE (outBuf.take 2)
                  .more { t with
                    obj := { s with
                      serverInfo := { s.serverInfo with tcpMss }
                      recvTcpMss := tcpMss
                      sendBackCmd := s.sendBackCmd ++ [0xff00]
                      recvId := (s.recvId + 1) % 2 ^ 32
                      recvBuf := s.recvBuf.drop (length + 4) }
                    outBuf := outBuf.drop 2 }
              else
                .more { t with
                  obj := { s with
                    recvId := (s.recvId + 1) % 2 ^ 32
                    recvBuf := s.recvBuf.drop (length + 4) }
                  outBuf }
  else .done t

/-- `client_post_decrypt`; every turn of its loop shortens the buffer. -/
def clientPostDecrypt (C : Crypto) (s : AuthAkarin) (buf : Bytes) :
    Except PyExc Bytes × AuthAkarin :=
  if s.rawTrans then (.ok buf, s)
  else
    let s := { s with recvBuf := s.recvBuf ++ buf }
    match loop (clientRecvBody C) (s.recvBuf.length + 1) { obj := s } with
    | .fail e t => (.error e, t.obj)
    | .done t | .more t => (.ok t.outBuf, t.obj)

end AuthAkarin

end ShadowsocksR

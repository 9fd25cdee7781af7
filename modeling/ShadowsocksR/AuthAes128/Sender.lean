import ShadowsocksR.AuthAes128.Object
import ShadowsocksR.Lib.Cutting

/-!
# Sending in auth_aes128

The functions of the class `auth_aes128_sha1` for the TCP stream of a client, and
for what a server sends.

* `rndDataLen`, `rndData`: the padding of a frame;
* `packData`, `packAuthData`: a frame, and the message of a client;
* `clientPreEncrypt`, `serverPreEncrypt`: packing a buffer;
* `clientPostDecrypt`: receiving a chunk of the stream of the server.
-/

namespace ShadowsocksR

/-- An object of `auth_aes128_sha1`, with the fields for sending. -/
structure AuthAes128.Sender extends AuthAes128 where
  /-- `self.server_info.buffer_size` -/
  bufferSize : ℕ
  /-- The fields of `server_info.data` that a client uses. -/
  localData : LocalData := .new
  hasSentHeader : Bool := false
  packId : ℕ := 1

namespace AuthAes128

open AuthBase (getHeadSize paramItems paramUid)

variable (C : Crypto)

/-- `self.unit_len` -/
def unitLen : ℕ := 8100

/-- `trapezoid_random_int`: a number below `max_val`. -/
def trapezoidRandomInt (maxVal : ℤ) (rng : Rng) : ℕ × Rng :=
  (rng 0 % maxVal.toNat, fun i => rng (i + 1))

namespace Sender

/-- `rnd_data_len` -/
def rndDataLen (s : Sender) (bufSize fullBufSize : ℕ) (rng : Rng) : ℕ × Rng :=
  if fullBufSize ≥ s.bufferSize then (0, rng)
  else
    let tcpMss : ℤ := s.serverInfo.tcpMss
    let revLen := tcpMss - bufSize - 9
    if revLen = 0 then (0, rng)
    else if revLen < 0 then
      if revLen > -tcpMss then trapezoidRandomInt (revLen + tcpMss) rng
      else
        let (bytes, rng) := randBytes 1 rng
        (unpackLE bytes % 32, rng)
    else if bufSize > 900 then
      let (bytes, rng) := randBytes 2 rng
      (unpackBE bytes % revLen.toNat, rng)
    else trapezoidRandomInt revLen rng

/-- `rnd_data` -/
def rndData (s : Sender) (bufSize fullBufSize : ℕ) : Except PyExc (Bytes × Rng) :=
  let (dataLen, rng) := s.rndDataLen bufSize fullBufSize s.rng
  if dataLen < 128 then
    let (random, rng) := randBytes dataLen rng
    .ok ([UInt8.ofNat (dataLen + 1)] ++ random, rng)
  else do
    let len ← pack 2 (dataLen + 1)
    let (random, rng) := randBytes (dataLen - 2) rng
    return ([255] ++ len ++ random, rng)

/-- `hmac.new(mac_key, data, self.hashfunc).digest()` -/
def mac (s : Sender) (macKey data : Bytes) : Bytes := C.hmac s.hashfunc macKey data

/-- `pack_data` -/
def packData (fullBufSize : ℕ) (s : Sender) (buf : Bytes) : Except PyExc (Bytes × Sender) := do
  let (random, rng) ← s.rndData buf.length fullBufSize
  let data := random ++ buf
  match s.userKey with
  | none => .error .typeError
  | some userKey =>
    let macKey := userKey ++ packLE 4 s.packId
    let dataLen ← pack 2 (data.length + 8)
    let data := dataLen ++ (s.mac C macKey dataLen).take 2 ++ data
    return (data ++ (s.mac C macKey data).take 4,
      { s with rng, packId := (s.packId + 1) % 2 ^ 32 })

/-- The user id and the user key of a client. -/
def credentials (s : Sender) (rng : Rng) : Bytes × Bytes × Rng :=
  let (uid, rng) := randBytes 4 rng
  if 58 ∈ s.serverInfo.protocolParam then
    let (item₀, item₁) := paramItems s.serverInfo.protocolParam
    ((paramUid item₀).getD uid, C.hash s.hashfunc item₁, rng)
  else (uid, s.userKey.getD s.serverInfo.key, rng)

/-- The number of random bytes in a message. -/
def rndLen (bufSize : ℕ) (rng : Rng) : ℕ × Rng :=
  let (bytes, rng) := randBytes 2 rng
  (if bufSize > 400 then unpackLE bytes % 512 else unpackLE bytes % 1024, rng)

/-- `pack_auth_data` -/
def packAuthData (s : Sender) (authData buf : Bytes) : Except PyExc (Bytes × Sender) :=
  if buf.length = 0 then .ok ([], s)
  else do
    let (rndLen, rng) := rndLen buf.length s.rng
    let dataLen ← pack 2 (7 + 4 + 16 + 4 + buf.length + rndLen + 4)
    let rndLenBytes ← pack 2 rndLen
    let data := authData ++ dataLen ++ rndLenBytes
    let macKey := s.serverInfo.iv ++ s.serverInfo.key
    let (uid, userKey, rng) := s.credentials C rng
    let (encryptor, rng) := Encryptor.new C (b64encode userKey ++ salt s.hashfunc) .aes128Cbc
      (some (List.replicate 16 0)) rng
    let data := uid ++ (encryptor.encrypt C data).1.drop 16
    let data := data ++ (s.mac C macKey data).take 4
    let (checkHead, rng) := randBytes 1 rng
    let checkHead := checkHead ++ (s.mac C macKey checkHead).take 6
    let (random, rng) := randBytes rndLen rng
    let data := checkHead ++ data ++ random ++ buf
    return (data ++ (s.mac C userKey data).take 4, { s with rng, userKey := some userKey })

/-- `auth_data` -/
def authData (now : Time) (s : Sender) : Bytes × Sender :=
  let (localData, rng) := s.localData.renew s.rng
  let localData := localData.connect
  (packLE 4 now.uint32.toNat ++ localData.localClientId ++ packLE 4 localData.connectionId,
    { s with localData, rng })

/-- The loop that packs a buffer; every turn of it shortens the buffer. -/
def packAll (fullBufSize : ℕ) (t : Cut Sender) : Except PyExc (Bytes × Sender) :=
  match cut unitLen (packData C fullBufSize) (t.buf.length + 1) t with
  | .done t | .more t => .ok (t.ret, t.obj)
  | .fail e _ => .error e

/-- `client_pre_encrypt` -/
def clientPreEncrypt (now : Time) (s : Sender) (buf : Bytes) : Except PyExc (Bytes × Sender) :=
  if s.hasSentHeader then packAll C buf.length { obj := s, buf }
  else do
    let headSize := getHeadSize buf 30
    let (r, rng) := randint 0 31 s.rng
    let dataLen := min buf.length (r + headSize)
    let (authData, s) := { s with rng }.authData now
    let (ret, s) ← s.packAuthData C authData (buf.take dataLen)
    packAll C buf.length { obj := { s with hasSentHeader := true }, buf := buf.drop dataLen, ret }

/-- `server_pre_encrypt` -/
def serverPreEncrypt (s : Sender) (buf : Bytes) : Except PyExc (Bytes × Sender) :=
  if s.rawTrans then .ok (buf, s) else packAll C buf.length { obj := s, buf }

end Sender

/-! ## Receiving at a client -/

/-- One turn of the loop in `client_post_decrypt`. -/
def clientRecvBody (t : Recv) : Next Recv PyExc :=
  let s := t.obj
  if s.recvBuf.length > 4 then
    match s.userKey with
    | none => .fail .typeError t
    | some userKey =>
      let macKey := userKey ++ packLE 4 s.recvId
      if (C.hmac s.hashfunc macKey (s.recvBuf.take 2)).take 2 ≠ s.recvBuf.extract 2 4 then
        .fail .exception t
      else
        let length := unpackLE (s.recvBuf.take 2)
        if length ≥ 8192 ∨ length < 7 then
          .fail .exception { t with obj := { s with rawTrans := true, recvBuf := [] } }
        else if length > s.recvBuf.length then .done t
        else if (C.hmac s.hashfunc macKey (s.recvBuf.take (length - 4))).take 4 ≠
            s.recvBuf.extract (length - 4) length then
          .fail .exception { t with obj := { s with rawTrans := true, recvBuf := [] } }
        else .more { t with
          obj := { s with
            recvId := (s.recvId + 1) % 2 ^ 32
            recvBuf := s.recvBuf.drop length }
          outBuf := t.outBuf ++ s.recvBuf.extract (dataPos s.recvBuf) (length - 4) }
  else .done t

/-- `client_post_decrypt`; every turn of its loop shortens the buffer. -/
def clientPostDecrypt (s : AuthAes128) (buf : Bytes) : Except PyExc Bytes × AuthAes128 :=
  if s.rawTrans then (.ok buf, s)
  else
    let s := { s with recvBuf := s.recvBuf ++ buf }
    match loop (clientRecvBody C) (s.recvBuf.length + 1) { obj := s } with
    | .fail e t => (.error e, t.obj)
    | .done t | .more t => (.ok t.outBuf, t.obj)

end AuthAes128

end ShadowsocksR

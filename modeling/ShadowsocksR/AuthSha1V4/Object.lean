import ShadowsocksR.AuthBase
import ShadowsocksR.Lib.Cutting

/-!
# The protocol auth_sha1_v4

The TCP functions of the class `auth_sha1_v4`, over the two checksums of zlib
(`Sums`). A connection begins with a header that carries the first bytes of the
client; frames follow in both directions.

* `packAuthData`, `packData`: the header and a frame;
* `takeFrame`: what a receiver finds at the front of its buffer;
* `clientPreEncrypt`, `serverPreEncrypt`: packing a buffer;
* `serverPostDecrypt`, `clientPostDecrypt`: receiving a chunk of the stream.
-/

namespace ShadowsocksR

/-- `binascii.crc32` and `zlib.adler32` -/
structure Sums where
  crc32 : Bytes → ℕ
  adler32 : Bytes → ℕ

/-- The state of `auth_sha1_v4`. -/
structure AuthSha1V4 where
  serverInfo : ServerInfo
  /-- `self.method == self.no_compatible_method` -/
  noCompatible : Bool := true
  rng : Rng
  recvBuf : Bytes := []
  decryptPacketNum : ℕ := 0
  rawTrans : Bool := false
  hasSentHeader : Bool := false
  hasRecvHeader : Bool := false
  clientId : ℕ := 0
  connectionId : ℕ := 0
  overhead : ℕ := 7
  /-- The fields of `server_info.data` that a client uses. -/
  localData : LocalData := .new

namespace AuthSha1V4

open AuthBase (Result getHeadSize)

/-- `self.unit_len` -/
def unitLen : ℕ := 8100

/-- `self.salt` -/
def salt : Bytes := [97, 117, 116, 104, 95, 115, 104, 97, 49, 95, 118, 52]

/-- `not_match_return` -/
def notMatchReturn (s : AuthSha1V4) (buf : Bytes) : Result × AuthSha1V4 :=
  (.ok (if s.noCompatible then List.replicate 2048 69 else buf, false),
    { s with rawTrans := true, overhead := 0 })

variable (K : Sums) (C : Crypto)

/-! ## Sending -/

/-- The number of random bytes in a frame with at most 1200 bytes of data. -/
def rndLen (bufSize : ℕ) (rng : Rng) : ℕ × Rng :=
  if bufSize > 400 then
    let (bytes, rng) := randBytes 1 rng
    (unpackBE bytes % 256, rng)
  else
    let (bytes, rng) := randBytes 2 rng
    (unpackBE bytes % 512, rng)

/-- `rnd_data` -/
def rndData (bufSize : ℕ) (rng : Rng) : Bytes × Rng :=
  if bufSize > 1200 then ([1], rng)
  else
    let (n, rng) := rndLen bufSize rng
    let (rnd, rng) := randBytes n rng
    if n < 128 then ([UInt8.ofNat (n + 1)] ++ rnd, rng)
    else ([255] ++ packBE 2 (n + 3) ++ rnd, rng)

/-- `struct.pack('<H', crc)` of the length of a frame -/
def crc (dataLen : Bytes) : Bytes := packLE 2 (K.crc32 dataLen % 2 ^ 16)

/-- `struct.pack('<I', adler32)` of a frame -/
def adler (data : Bytes) : Bytes := packLE 4 (K.adler32 data % 2 ^ 32)

/-- `pack_data` -/
def packData (s : AuthSha1V4) (buf : Bytes) : Except PyExc (Bytes × AuthSha1V4) := do
  let (rnd, rng) := rndData buf.length s.rng
  let data := rnd ++ buf
  let dataLen ← packHigh 2 (data.length + 8)
  let data := dataLen ++ (crc K dataLen ++ data)
  return (data ++ adler K data, { s with rng })

/-- `struct.pack('<I', crc)` of the length of a header -/
def headCrc (key dataLen : Bytes) : Bytes := packLE 4 (K.crc32 (dataLen ++ salt ++ key) % 2 ^ 32)

/-- The signature of a header. -/
def headHmac (macKey data : Bytes) : Bytes := (C.hmac .sha1 macKey data).take 10

/-- `pack_auth_data` -/
def packAuthData (s : AuthSha1V4) (buf : Bytes) : Except PyExc (Bytes × AuthSha1V4) :=
  if buf.length = 0 then .ok ([], s)
  else do
    let (rnd, rng) := rndData buf.length s.rng
    let data := rnd ++ buf
    let dataLen ← packHigh 2 (data.length + 16)
    let data := dataLen ++ (headCrc K s.serverInfo.key dataLen ++ data)
    return (data ++ headHmac C (s.serverInfo.iv ++ s.serverInfo.key) data, { s with rng })

/-- `auth_data` -/
def authData (now : Time) (s : AuthSha1V4) : Bytes × AuthSha1V4 :=
  let (localData, rng) := s.localData.renew s.rng
  let localData := localData.connect
  (packLE 4 now.uint32.toNat ++ localData.localClientId ++ packLE 4 localData.connectionId,
    { s with localData, rng })

/-- The loop that packs a buffer; every turn of it shortens the buffer. -/
def packAll (t : Cut AuthSha1V4) : Except PyExc (Bytes × AuthSha1V4) :=
  match cut unitLen (packData K) (t.buf.length + 1) t with
  | .done t | .more t => .ok (t.ret, t.obj)
  | .fail e _ => .error e

/-- `client_pre_encrypt` -/
def clientPreEncrypt (now : Time) (s : AuthSha1V4) (buf : Bytes) :
    Except PyExc (Bytes × AuthSha1V4) :=
  if s.hasSentHeader then packAll K { obj := s, buf }
  else do
    let headSize := getHeadSize buf 30
    let (r, rng) := randint 0 31 s.rng
    let dataLen := min buf.length (r + headSize)
    let (authData, s) := { s with rng }.authData now
    let (ret, s) ← packAuthData K C s (authData ++ buf.take dataLen)
    packAll K { obj := { s with hasSentHeader := true }, buf := buf.drop dataLen, ret }

/-- `server_pre_encrypt` -/
def serverPreEncrypt (s : AuthSha1V4) (buf : Bytes) : Except PyExc (Bytes × AuthSha1V4) :=
  if s.rawTrans then .ok (buf, s) else packAll K { obj := s, buf }

/-! ## Receiving -/

/-- What is at the front of a buffer. -/
inductive Taken
  | badCrc
  | badSize
  | incomplete
  | badSum
  /-- A frame that carries some data, and what comes after it. -/
  | frame (data rest : Bytes) (pos length : ℕ)

/-- Where the data of the frame at the front of a buffer begins. -/
def dataPos (buf : Bytes) : ℕ :=
  let pos := unpackLE (buf.extract 4 5)
  if pos < 255 then pos + 4 else unpackBE (buf.extract 5 7) + 4

/-- The checks that both ends make in the loops over `recv_buf`. -/
def takeFrame (recvBuf : Bytes) : Taken :=
  if crc K (recvBuf.take 2) ≠ recvBuf.extract 2 4 then .badCrc
  else
    let length := unpackBE (recvBuf.take 2)
    if length ≥ 8192 ∨ length < 7 then .badSize
    else if length > recvBuf.length then .incomplete
    else if adler K (recvBuf.take (length - 4)) ≠ recvBuf.extract (length - 4) length then .badSum
    else
      let pos := dataPos recvBuf
      .frame (recvBuf.extract pos (length - 4)) (recvBuf.drop length) pos length

/-- The state of the loops over `recv_buf`. -/
structure Recv where
  obj : AuthSha1V4
  outBuf : Bytes := []
  sendback : Bool := false

/-- One turn of the loop in `client_post_decrypt`. -/
def clientRecvBody (t : Recv) : Next Recv PyExc :=
  let s := t.obj
  if s.recvBuf.length > 4 then
    match takeFrame K s.recvBuf with
    | .badCrc => .fail .exception t
    | .badSize | .badSum =>
      .fail .exception { t with obj := { s with rawTrans := true, recvBuf := [] } }
    | .incomplete => .done t
    | .frame data rest _ _ => .more { t with
        obj := { s with recvBuf := rest }
        outBuf := t.outBuf ++ data }
  else .done t

/-- `client_post_decrypt`; every turn of its loop shortens the buffer. -/
def clientPostDecrypt (s : AuthSha1V4) (buf : Bytes) : Except PyExc Bytes × AuthSha1V4 :=
  if s.rawTrans then (.ok buf, s)
  else
    let s := { s with recvBuf := s.recvBuf ++ buf }
    match loop (clientRecvBody K) (s.recvBuf.length + 1) { obj := s } with
    | .fail e t => (.error e, t.obj)
    | .done t | .more t =>
      (.ok t.outBuf, if t.outBuf ≠ [] then
          { t.obj with decryptPacketNum := t.obj.decryptPacketNum + 1 }
        else t.obj)

/-- How the loop of a server is left at a bad frame. -/
def badFrame (t : Recv) (s : AuthSha1V4) : Next Recv Result :=
  .fail (if s.decryptPacketNum = 0 then .ok (List.replicate 2048 69, false) else .error .exception)
    { t with obj := { s with rawTrans := true } }

/-- One turn of the loop in `server_post_decrypt`. -/
def serverRecvBody (t : Recv) : Next Recv Result :=
  let s := t.obj
  if s.recvBuf.length > 4 then
    match takeFrame K s.recvBuf with
    | .badCrc => badFrame t s
    | .badSize | .badSum => badFrame t { s with recvBuf := [] }
    | .incomplete => .done t
    | .frame data rest pos length => .more
        { obj := { s with recvBuf := rest }
          outBuf := t.outBuf ++ data
          sendback := t.sendback || pos == length - 4 }
  else .done t

/-- The data of the header at the front of a buffer that has seven bytes. -/
def headData (recvBuf : Bytes) : Except PyExc Bytes :=
  let length : ℤ := unpackBE (recvBuf.take 2)
  let pos := unpackLE (recvBuf.extract 6 7)
  if pos < 255 then .ok (slice (pos + 6) (length - 10) recvBuf)
  else if recvBuf.length < 9 then .error .structError
  else .ok (slice (unpackBE (recvBuf.extract 7 9) + 6) (length - 10) recvBuf)

/-- The part of `server_post_decrypt` that receives the header: what it carries, or what is
    returned. -/
def recvHeader (now : Time) (data : ObfsAuthV2Data) (s : AuthSha1V4) :
    Except Result Bytes × AuthSha1V4 × ObfsAuthV2Data :=
  let fallBack :=
    let (r, s) := s.notMatchReturn s.recvBuf
    (.error r, s, data)
  let length : ℤ := unpackBE (s.recvBuf.take 2)
  if s.recvBuf.length ≤ 6 then (.error (.ok ([], false)), s, data)
  else if headCrc K s.serverInfo.key (s.recvBuf.take 2) ≠ s.recvBuf.extract 2 6 then fallBack
  else if length > s.recvBuf.length then (.error (.ok ([], false)), s, data)
  else if headHmac C (s.serverInfo.recvIv ++ s.serverInfo.key) (takeTo (length - 10) s.recvBuf) ≠
      slice (length - 10) length s.recvBuf then fallBack
  else
    match headData s.recvBuf with
    | .error e => (.error (.error e), s, data)
    | .ok outBuf =>
      let clientId := unpackLE (outBuf.extract 4 8)
      let connectionId := unpackLE (outBuf.extract 8 12)
      if outBuf.length < 12 then fallBack
      else if InWindow now (unpackLE (outBuf.take 4)) then
        match data.insert now () clientId connectionId with
        | none => (.error (.error .keyError), s, data)
        | some (false, data) =>
          let (r, s) := s.notMatchReturn s.recvBuf
          (.error r, s, data)
        | some (true, data) =>
          (.ok (outBuf.drop 12),
            { s with
              hasRecvHeader := true
              clientId := clientId
              connectionId := connectionId
              recvBuf := dropTo length s.recvBuf },
            data)
      else fallBack

/-- The end of `server_post_decrypt`, after the loop. -/
def finishRecv (now : Time) (data : ObfsAuthV2Data) (t : Recv) :
    Result × AuthSha1V4 × ObfsAuthV2Data :=
  if t.outBuf ≠ [] then
    match data.update now () t.obj.clientId with
    | none => (.error .keyError, t.obj, data)
    | some data =>
      (.ok (t.outBuf, t.sendback),
        { t.obj with decryptPacketNum := t.obj.decryptPacketNum + 1 }, data)
  else (.ok (t.outBuf, t.sendback), t.obj, data)

/-- The part of `server_post_decrypt` that receives frames; every turn of its loop shortens the
    buffer. -/
def recvFrames (now : Time) (data : ObfsAuthV2Data) (t : Recv) :
    Result × AuthSha1V4 × ObfsAuthV2Data :=
  match loop (serverRecvBody K) (t.obj.recvBuf.length + 1) t with
  | .fail r t => (r, t.obj, data)
  | .done t | .more t => finishRecv now data t

/-- `server_post_decrypt` -/
def serverPostDecrypt (now : Time) (data : ObfsAuthV2Data) (s : AuthSha1V4) (buf : Bytes) :
    Result × AuthSha1V4 × ObfsAuthV2Data :=
  if s.rawTrans then (.ok (buf, false), s, data)
  else
    let s := { s with recvBuf := s.recvBuf ++ buf }
    if s.hasRecvHeader then recvFrames K now data { obj := s }
    else
      match s.recvHeader K C now data with
      | (.error r, s, data) => (r, s, data)
      | (.ok outBuf, s, data) => recvFrames K now data { obj := s, outBuf, sendback := true }

end AuthSha1V4

end ShadowsocksR

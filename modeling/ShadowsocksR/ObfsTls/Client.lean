import ShadowsocksR.ObfsTls.Object

/-!
# The two ends of the TLS obfuscation

The client's side of `tls_ticket_auth`, and what a server sends: the hello and
the flights that follow it, and the records that carry the data after them.

* `encodeAppData`: the records of a buffer, in both directions;
* `clientEncode`, `clientDecode`: the methods of a client;
* `serverEncoded`: what `server_encode` returns.
-/

namespace ShadowsocksR

namespace TlsTicketAuth

/-! ## Records -/

/-- A record of some type. -/
def record (type : UInt8) (data : Bytes) : Except PyExc Bytes := do
  return [type] ++ tlsVersion ++ (← packHigh 2 data.length) ++ data

/-- The loop over a buffer: what is left of it, and the records. -/
structure Splitting where
  rng : Rng
  buf : Bytes
  ret : Bytes := []

/-- One turn of the loop, or what comes after it. -/
def splitBody (t : Splitting) : Next Splitting PyExc :=
  if t.buf.length > 2048 then
    let size := min (unpackBE (randBytes 2 t.rng).1 % 4096 + 100) t.buf.length
    match record 0x17 (t.buf.take size) with
    | .ok data => .more
        { rng := (randBytes 2 t.rng).2, buf := t.buf.drop size, ret := t.ret ++ data }
    | .error e => .fail e t
  else if t.buf.length > 0 then
    match record 0x17 t.buf with
    | .ok data => .done { t with ret := t.ret ++ data }
    | .error e => .fail e t
  else .done t

/-- The records of a buffer, in the phase of the data; every turn of the loop shortens the
    buffer. -/
def encodeAppData (rng : Rng) (buf : Bytes) : Except PyExc (Bytes × Rng) :=
  match loop splitBody (buf.length + 1) { rng, buf } with
  | .done t | .more t => .ok (t.ret, t.rng)
  | .fail e _ => .error e

/-- One turn of the loop that takes records off `recv_buffer`; `head` is the check of the
    header. -/
def recordBody (head : Bytes → Bool) (t : Bytes × Bytes) : Next (Bytes × Bytes) PyExc :=
  let (recvBuffer, ret) := t
  if recvBuffer.length > 5 then
    if ¬head recvBuffer then .fail .exception t
    else
      let size := unpackBE (recvBuffer.extract 3 5)
      if recvBuffer.length < size + 5 then .done t
      else .more (recvBuffer.drop (size + 5), ret ++ recvBuffer.extract 5 (size + 5))
  else .done t

/-- A client checks the type of a record only. -/
def clientAppDataBody : Bytes × Bytes → Next (Bytes × Bytes) PyExc :=
  recordBody fun recvBuffer => recvBuffer.head? == some 0x17

/-! ## The hello -/

/-- `pack_auth_data` -/
def packAuthData (C : Crypto) (now : Time) (key clientId : Bytes) (rng : Rng) : Bytes × Rng :=
  let data := packBE 4 now.uint32.toNat ++ (randBytes 18 rng).1
  (data ++ (C.hmac .sha1 (key ++ clientId) data).take 10, (randBytes 18 rng).2)

/-- `sni` -/
def sni (url : Bytes) : Except PyExc Bytes := do
  let data := [0] ++ (← packHigh 2 url.length) ++ url
  return [0, 0] ++ (← packHigh 2 (data.length + 2)) ++ (← packHigh 2 data.length) ++ data

/-- The extensions of a hello, for a host and with the ticket for it. -/
def extensions (host ticket : Bytes) : Except PyExc Bytes := do
  return [0xff, 0x01, 0x00, 0x01, 0x00] ++ (← sni host) ++ [0x00, 0x17, 0x00, 0x00] ++
    ([0x00, 0x23] ++ (← packHigh 2 ticket.length) ++ ticket) ++
    [0x00, 0x0d, 0x00, 0x16, 0x00, 0x14, 0x06, 0x01, 0x06, 0x03, 0x05, 0x01, 0x05, 0x03, 0x04, 0x01,
      0x04, 0x03, 0x03, 0x01, 0x03, 0x03, 0x02, 0x01, 0x02, 0x03] ++
    [0x00, 0x05, 0x00, 0x05, 0x01, 0x00, 0x00, 0x00, 0x00] ++ [0x00, 0x12, 0x00, 0x00] ++
    [0x75, 0x50, 0x00, 0x00] ++ [0x00, 0x0b, 0x00, 0x02, 0x01, 0x00] ++
    [0x00, 0x0a, 0x00, 0x06, 0x00, 0x04, 0x00, 0x17, 0x00, 0x18]

/-- The cipher suites and the compression method of a hello. -/
def cipherSuites : Bytes :=
  [0x00, 0x1c, 0xc0, 0x2b, 0xc0, 0x2f, 0xcc, 0xa9, 0xcc, 0xa8, 0xcc, 0x14, 0xcc, 0x13, 0xc0, 0x0a,
    0xc0, 0x14, 0xc0, 0x09, 0xc0, 0x13, 0x00, 0x9c, 0x00, 0x35, 0x00, 0x2f, 0x00, 0x0a, 0x01, 0x00]

/-! ## The client -/

/-- The state of `tls_ticket_auth` that a client uses. -/
structure Client where
  /-- `server_info.key` -/
  key : Bytes
  /-- `server_info.data.client_id` -/
  clientId : Bytes
  rng : Rng
  handshakeStatus : ℤ := 0
  sendBuffer : Bytes := []
  recvBuffer : Bytes := []

variable (C : Crypto)

/-- The hello of a client. -/
def clientHello (now : Time) (host ticket : Bytes) (s : Client) : Except PyExc (Bytes × Client) := do
  let (authData, rng) := packAuthData C now s.key s.clientId s.rng
  let ext ← extensions host ticket
  let data := tlsVersion ++ authData ++ [0x20] ++ s.clientId ++ cipherSuites ++
    ((← packHigh 2 ext.length) ++ ext)
  let data := [1, 0] ++ (← packHigh 2 data.length) ++ data
  let data := [0x16, 3, 1] ++ (← packHigh 2 data.length) ++ data
  return (data, { s with rng, handshakeStatus := 1 })

/-- The messages `ChangeCipherSpec` and `Finished` of a client. -/
def clientFinished (s : Client) : Bytes × Rng :=
  let data := [0x14] ++ tlsVersion ++ [0, 1, 1] ++ ([0x16] ++ tlsVersion ++ [0, 0x20]) ++
    (randBytes 22 s.rng).1
  (data ++ (C.hmac .sha1 (s.key ++ s.clientId) data).take 10, (randBytes 22 s.rng).2)

/-- What a buffer adds to `send_buffer`. -/
def queueRecord (buf : Bytes) : Except PyExc Bytes :=
  if buf.length > 0 then record 0x17 buf else .ok []

/-- `client_encode`; the host is one of those of `obfs_param`, and the ticket is the one in
    `ticket_buf` for it. -/
def clientEncode (now : Time) (host ticket : Bytes) (s : Client) (buf : Bytes) :
    Except PyExc (Bytes × Client) :=
  if s.handshakeStatus = -1 then .ok (buf, s)
  else if s.handshakeStatus = 8 then do
    let (ret, rng) ← encodeAppData s.rng buf
    return (ret, { s with rng })
  else do
    let queued ← queueRecord buf
    let s := { s with sendBuffer := s.sendBuffer ++ queued }
    if s.handshakeStatus = 0 then clientHello C now host ticket s
    else if s.handshakeStatus = 1 ∧ buf = [] then
      let (data, rng) := clientFinished C s
      return (data ++ s.sendBuffer, { s with rng, sendBuffer := [], handshakeStatus := 8 })
    else return ([], s)

/-- The two checks of what a server answers. -/
def VerifiedFlight (key clientId buf : Bytes) : Prop :=
  11 + 32 + 1 + 32 ≤ buf.length ∧
    (C.hmac .sha1 (key ++ clientId) (buf.extract 11 33)).take 10 = buf.extract 33 43 ∧
    (C.hmac .sha1 (key ++ clientId) (buf.take (buf.length - 10))).take 10 =
      buf.drop (buf.length - 10)

instance (key clientId buf : Bytes) : Decidable (VerifiedFlight C key clientId buf) :=
  inferInstanceAs (Decidable (_ ∧ _))

/-- `client_decode`: the data, and whether the client has to answer. -/
def clientDecode (s : Client) (buf : Bytes) : Except PyExc (Bytes × Bool) × Client :=
  if s.handshakeStatus = -1 then (.ok (buf, false), s)
  else if s.handshakeStatus = 8 then
    let recvBuffer := s.recvBuffer ++ buf
    match loop clientAppDataBody (recvBuffer.length + 1) (recvBuffer, []) with
    | .fail e (recvBuffer, _) => (.error e, { s with recvBuffer })
    | .done (recvBuffer, ret) | .more (recvBuffer, ret) => (.ok (ret, false), { s with recvBuffer })
  else if VerifiedFlight C s.key s.clientId buf then (.ok ([], true), s)
  else (.error .exception, s)

/-! ## The server -/

/-- The new session ticket, if there is one. -/
def sessionTicket (rng : Rng) : Except PyExc (Bytes × Rng) :=
  let (n, rng) := randint 0 8 rng
  if n < 1 then do
    let (len, rng) := randBytes 2 rng
    let (ticket, rng) := randBytes (unpackBE len % 164 * 2 + 64) rng
    return ([0x16] ++ tlsVersion ++ ((← packHigh 2 (ticket.length + 4)) ++ [4, 0] ++
      (← packHigh 2 ticket.length) ++ ticket), rng)
  else .ok ([], rng)

/-- The answer of a server to a hello. -/
def serverFlight (now : Time) (rng : Rng) (s : TlsTicketAuth) : Except PyExc (Bytes × Rng) := do
  let (authData, rng) := packAuthData C now s.key s.clientId rng
  let data := tlsVersion ++ authData ++ [0x20] ++ s.clientId ++
    [0xc0, 0x2f, 0x00, 0x00, 0x05, 0xff, 0x01, 0x00, 0x01, 0x00]
  let hello ← record 0x16 ([2, 0] ++ (← packHigh 2 data.length) ++ data)
  let (ticket, rng) ← sessionTicket rng
  let (choice, rng) := randint 0 1 rng
  let finishLen := if choice = 0 then 32 else 40
  let (random, rng) := randBytes (finishLen - 10) rng
  let data := hello ++ ticket ++ ([0x14] ++ tlsVersion ++ [0, 1, 1]) ++
    ([0x16] ++ tlsVersion ++ (← packHigh 2 finishLen) ++ random)
  return (data ++ (C.hmac .sha1 (s.key ++ s.clientId) data).take 10, rng)

/-- What `server_encode` returns. -/
def serverEncoded (now : Time) (rng : Rng) (s : TlsTicketAuth) (buf : Bytes) :
    Except PyExc (Bytes × Rng) :=
  if s.handshakeStatus = -1 then .ok (buf, rng)
  else if s.hasStatus 8 then encodeAppData rng buf
  else do
    let (data, rng) ← serverFlight C now rng s
    if buf = [] then return (data, rng)
    else
      let (ret, rng) ← encodeAppData rng buf
      return (data ++ ret, rng)

end TlsTicketAuth

end ShadowsocksR

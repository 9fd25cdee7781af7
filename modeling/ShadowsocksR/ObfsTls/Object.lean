import ShadowsocksR.Encrypt
import ShadowsocksR.LruCache
import ShadowsocksR.Lib.Framing

/-!
# The TLS obfuscation

The server's side of `tls_ticket_auth`: a connection begins with a TLS hello
that holds a timestamp and random bytes, signed with the key of the server, and
the ids of the hellos that were accepted are remembered for all connections of
the port.

* `parseHello`: the id and the session id of a complete hello;
* `recvHello`: its checks;
* `serverDecode`: receiving a chunk of the stream, in every phase.
-/

namespace ShadowsocksR

/-- `obfs_auth_data` -/
structure ObfsAuthData where
  clientData : LRUCache Bytes Bytes := { timeout := 60 * 5 }
  startupTime : ℕ

/-- `obfs_auth_data.__init__` -/
def ObfsAuthData.new (now : Time) : ObfsAuthData where
  startupTime := (now - 60 * 30).uint32.toNat

/-- Data without ids, of a server that has been running since ever. -/
def ObfsAuthData.empty : ObfsAuthData where
  startupTime := 0

/-- The methods of `tls_ticket_auth`. -/
inductive TlsMethod
  | ticketAuth
  | ticketAuthCompatible
  | ticketFastauth
  | ticketFastauthCompatible
  deriving DecidableEq, Repr

/-- The state of `tls_ticket_auth` that a server uses. -/
structure TlsTicketAuth where
  method : TlsMethod
  /-- `server_info.key` -/
  key : Bytes
  /-- `server_info.obfs_param` -/
  obfsParam : Bytes
  /-- `server_info.overhead` -/
  infoOverhead : ℤ
  handshakeStatus : ℤ := 0
  recvBuffer : Bytes := []
  clientId : Bytes := []
  maxTimeDif : ℤ := 60 * 60 * 24
  overhead : ℤ := 5

namespace TlsTicketAuth

/-- What a call of `server_decode` returns or raises. -/
abbrev Result := Except PyExc (Bytes × Bool × Bool)

/-- `match_begin` -/
def matchBegin (str₁ str₂ : Bytes) : Bool := str₁.take str₂.length == str₂

/-- `tls_version` -/
def tlsVersion : Bytes := [3, 3]

/-- `(self.handshake_status & bit) == bit`, when it is not -1. -/
def hasStatus (s : TlsTicketAuth) (bit : ℕ) : Bool := s.handshakeStatus.toNat &&& bit == bit

/-- `self.handshake_status |= bit`, when it is not -1. -/
def setStatus (s : TlsTicketAuth) (bit : ℕ) : TlsTicketAuth :=
  { s with handshakeStatus := (s.handshakeStatus.toNat ||| bit : ℕ) }

/-- What `server_encode` does to the object. -/
def serverEncode (s : TlsTicketAuth) : TlsTicketAuth :=
  if s.handshakeStatus = -1 ∨ s.hasStatus 8 then s else s.setStatus 8

/-- `decode_error_return` -/
def decodeErrorReturn (s : TlsTicketAuth) (buf : Bytes) : Result × TlsTicketAuth :=
  (.ok (if s.method = .ticketAuth ∨ s.method = .ticketFastauth
      then (List.replicate 2048 69, false, false) else (buf, true, false)),
    { s with
      handshakeStatus := -1
      infoOverhead := if s.overhead > 0 then s.infoOverhead - s.overhead else s.infoOverhead
      overhead := 0 })

/-! ## After the handshake -/

/-- One turn of the loop that takes records off `recv_buffer`. -/
def appDataBody (t : Bytes × Bytes) : Next (Bytes × Bytes) PyExc :=
  let (recvBuffer, ret) := t
  if recvBuffer.length > 5 then
    if ¬matchBegin recvBuffer [0x17, 3, 3] then .fail .exception t
    else
      let size := unpackBE (recvBuffer.extract 3 5)
      if recvBuffer.length < size + 5 then .done t
      else .more (recvBuffer.drop (size + 5), ret ++ recvBuffer.extract 5 (size + 5))
  else .done t

/-- The phase of the data; every turn of the loop shortens the buffer. -/
def decodeAppData (s : TlsTicketAuth) (buf : Bytes) : Result × TlsTicketAuth :=
  let recvBuffer := s.recvBuffer ++ buf
  match loop appDataBody (recvBuffer.length + 1) (recvBuffer, []) with
  | .fail e (recvBuffer, _) => (.error e, { s with recvBuffer })
  | .done (recvBuffer, ret) | .more (recvBuffer, ret) =>
    (.ok (ret, true, false), { s with recvBuffer })

/-- The phase of the `Finished` message. -/
def decodeFinished (C : Crypto) (s : TlsTicketAuth) (buf : Bytes) : Result × TlsTicketAuth :=
  let s := { s with recvBuffer := s.recvBuffer ++ buf }
  let verify := s.recvBuffer
  if verify.length < 11 then (.error .exception, s)
  else if ¬matchBegin verify ([0x14] ++ tlsVersion ++ [0, 1, 1]) then (.error .exception, s)
  else if ¬matchBegin (verify.drop 6) ([0x16] ++ tlsVersion ++ [0]) then (.error .exception, s)
  else
    let verifyLen := unpackBE ((verify.drop 6).extract 3 5) + 1
    if verify.length < verifyLen + 10 then (.ok ([], false, false), s)
    else if (C.hmac .sha1 (s.key ++ s.clientId) (verify.take verifyLen)).take 10 ≠
        verify.extract verifyLen (verifyLen + 10) then (.error .exception, s)
    else decodeAppData ({ s with recvBuffer := verify.drop (verifyLen + 10) }.setStatus 4) []

/-! ## The hello -/

/-- The 32 bytes that hold the id, and the session id, of a complete hello; or what is raised, if
    it is not wrong only. -/
def parseHello (buf : Bytes) : Except (Option PyExc) (Bytes × Bytes) :=
  if ¬matchBegin buf [1, 0] then .error none
  else
    let buf := buf.drop 2
    if buf.length < 2 then .error (some .structError)
    else if unpackBE (buf.take 2) ≠ buf.length - 2 then .error none
    else
      let buf := buf.drop 2
      if ¬matchBegin buf tlsVersion then .error none
      else
        let buf := buf.drop 2
        match buf.drop 32 with
        | [] => .error (some .indexError)
        | sessionidLen :: rest =>
          if sessionidLen.toNat < 32 then .error none
          else .ok (buf.take 32, rest.take sessionidLen.toNat)

/-- The `max_time_dif` of a server with some `obfs_param`. -/
def timeWindow (s : TlsTicketAuth) : ℤ :=
  if s.obfsParam ≠ [] then (pyInt s.obfsParam).getD s.maxTimeDif else s.maxTimeDif

/-- The timestamp of a hello is inside the window, if there is one. -/
def Inside (maxTimeDif : ℤ) (now : Time) (utcTime : ℕ) : Prop :=
  0 < maxTimeDif → -maxTimeDif ≤ int32 (now.uint32 - utcTime) ∧
    int32 (now.uint32 - utcTime) ≤ maxTimeDif

instance (maxTimeDif : ℤ) (now : Time) (utcTime : ℕ) : Decidable (Inside maxTimeDif now utcTime) :=
  inferInstanceAs (Decidable (_ → _))

/-- The check of the timestamp fails. -/
def WrongTime (maxTimeDif : ℤ) (now : Time) (startupTime utcTime : ℕ) : Prop :=
  maxTimeDif > 0 ∧ (int32 (now.uint32 - utcTime) < -maxTimeDif ∨
    int32 (now.uint32 - utcTime) > maxTimeDif ∨ 2 * int32 (utcTime - startupTime) < -maxTimeDif)

instance (maxTimeDif : ℤ) (now : Time) (startupTime utcTime : ℕ) :
    Decidable (WrongTime maxTimeDif now startupTime utcTime) :=
  inferInstanceAs (Decidable (_ ∧ _))

/-- The check of the signature. -/
def SignedHello (C : Crypto) (key verifyid sessionid : Bytes) : Prop :=
  (C.hmac .sha1 (key ++ sessionid) (verifyid.take 22)).take 10 = verifyid.drop 22

instance (C : Crypto) (key verifyid sessionid : Bytes) :
    Decidable (SignedHello C key verifyid sessionid) := inferInstanceAs (Decidable (_ = _))

/-- The length of the hello in `recv_buffer`, without its header. -/
def headerLen (s : TlsTicketAuth) : ℕ := unpackBE (s.recvBuffer.extract 3 5)

/-- The hello in `recv_buffer`. -/
def hello (s : TlsTicketAuth) : Bytes := s.recvBuffer.extract 5 (s.headerLen + 5)

/-- The checks of a hello with this id and session id: its id, or what is returned. -/
def checkHello (C : Crypto) (now : Time) (s : TlsTicketAuth) (data : ObfsAuthData)
    (ognBuf verifyid sessionid : Bytes) : Except Result Bytes × TlsTicketAuth × ObfsAuthData :=
  let s := { s with clientId := sessionid, maxTimeDif := s.timeWindow }
  if WrongTime s.maxTimeDif now data.startupTime (unpackBE (verifyid.take 4)) ∨
      ¬SignedHello C s.key verifyid sessionid then
    let (r, s) := s.decodeErrorReturn ognBuf
    (.error r, s, data)
  else
    let (found, clientData) := data.clientData.get now (verifyid.take 22)
    if found.getD [] ≠ [] then
      let (r, s) := s.decodeErrorReturn ognBuf
      (.error r, s, { data with clientData })
    else
      (.ok (verifyid.take 22), s,
        { data with clientData := (clientData.sweep now).setItem now (verifyid.take 22) sessionid })

/-- The phase of the hello, with the chunk in `recv_buffer`: the id of a hello that is accepted, or
    what is returned. -/
def recvHello (C : Crypto) (now : Time) (s : TlsTicketAuth) (data : ObfsAuthData) :
    Except Result Bytes × TlsTicketAuth × ObfsAuthData :=
  let ognBuf := s.recvBuffer
  if ognBuf.length < 3 then (.error (.ok ([], false, false)), s, data)
  else if ¬matchBegin ognBuf [0x16, 3, 1] then
    let (r, s) := s.decodeErrorReturn ognBuf
    (.error r, s, data)
  else if ognBuf.length < 5 then (.error (.error .structError), s, data)
  else if s.headerLen > ognBuf.length - 5 then (.error (.ok ([], false, false)), s, data)
  else
    let buf := s.hello
    let s := { s with recvBuffer := ognBuf.drop (s.headerLen + 5), handshakeStatus := 1 }
    match parseHello buf with
    | .error none =>
      let (r, s) := s.decodeErrorReturn ognBuf
      (.error r, s, data)
    | .error (some e) => (.error (.error e), s, data)
    | .ok (verifyid, sessionid) => s.checkHello C now data ognBuf verifyid sessionid

/-- What is returned after a hello that is accepted. -/
def helloReturn (C : Crypto) (s : TlsTicketAuth) : Result × TlsTicketAuth :=
  if s.recvBuffer.length ≥ 11 then
    match s.decodeFinished C [] with
    | (.ok (ret, _), s) => (.ok (ret, true, true), s)
    | (.error e, s) => (.error e, s)
  else (.ok ([], false, true), s)

/-- The object is in the phase of the hello. -/
def AwaitsHello (s : TlsTicketAuth) : Prop :=
  s.handshakeStatus ≠ -1 ∧ s.hasStatus 4 = false ∧ s.hasStatus 1 = false

instance (s : TlsTicketAuth) : Decidable s.AwaitsHello := inferInstanceAs (Decidable (_ ∧ _))

/-- The object with a chunk in its buffer. -/
def receive (s : TlsTicketAuth) (buf : Bytes) : TlsTicketAuth :=
  { s with recvBuffer := s.recvBuffer ++ buf }

/-- `server_decode`, with the id of a hello that is accepted. -/
def serverDecode (C : Crypto) (now : Time) (s : TlsTicketAuth) (data : ObfsAuthData)
    (buf : Bytes) : Result × Option Bytes × TlsTicketAuth × ObfsAuthData :=
  if s.handshakeStatus = -1 then (.ok (buf, true, false), none, s, data)
  else if s.hasStatus 4 then
    let (r, s) := s.decodeAppData buf
    (r, none, s, data)
  else if s.hasStatus 1 then
    let (r, s) := s.decodeFinished C buf
    (r, none, s, data)
  else
    match (s.receive buf).recvHello C now data with
    | (.error r, s, data) => (r, none, s, data)
    | (.ok verifyid, s, data) =>
      let (r, s) := s.helloReturn C
      (r, some verifyid, s, data)

end TlsTicketAuth

end ShadowsocksR

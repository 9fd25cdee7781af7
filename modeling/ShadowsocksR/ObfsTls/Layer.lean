import ShadowsocksR.Lib.Layer
import ShadowsocksR.ObfsTls.Segments

/-!
# The TLS obfuscation as a layer

The objects of `tls_ticket_auth` at the two ends of a connection, from the hello
to the data, as the relay calls them: when `client_decode` or `server_decode` ask
for it, it sends back what the object makes of no data.

* `TlsLink.clientPeer`, `TlsLink.serverPeer`: the objects at the two ends;
* `TlsLink.Phase`: the flights of the handshake, and the data;
* `TlsLink.layer`: the objects are a layer;
* `TlsLink.tls_round_trip`: what comes out is a beginning of what has gone in,
  and all of it whenever nothing is on its way.
-/

namespace ShadowsocksR

namespace TlsLink

open TlsTicketAuth

/-! ## The two ends -/

/-- What a call depends on: the time, the host and the ticket of a hello, and the data that the
    connections of a port share. -/
structure Now where
  time : Time
  host : Bytes
  ticket : Bytes
  data : ObfsAuthData

/-- An object of a client, with the hello that it has sent. -/
structure ClientEnd where
  obj : Client
  hello : Bytes := []
  id : Bytes := []
  clock : Time := 0

/-- An object of a server, with the answer that it has sent. -/
structure ServerEnd where
  obj : TlsTicketAuth
  rng : Rng
  flight : Bytes := []

variable (C : Crypto)

def clientSend (k : Now) (a : ClientEnd) (buf : Bytes) : Except PyExc (Bytes × ClientEnd) :=
  match clientEncode C k.time k.host k.ticket a.obj buf with
  | .error e => .error e
  | .ok (out, obj) =>
    .ok (out, if a.obj.handshakeStatus = 0 then ⟨obj, out, helloId k.time a.obj.rng, k.time⟩
      else { a with obj })

def clientRecv (k : Now) (a : ClientEnd) (chunk : Bytes) :
    Except PyExc ((Bytes × Option Bytes) × ClientEnd) :=
  match clientDecode C a.obj chunk with
  | (.error e, _) => .error e
  | (.ok (data, back), obj) =>
    if back then (clientSend C k { a with obj } []).map fun r => ((data, some r.1), r.2)
    else .ok ((data, none), { a with obj })

def serverSend (k : Now) (b : ServerEnd) (buf : Bytes) : Except PyExc (Bytes × ServerEnd) :=
  match serverEncoded C k.time b.rng b.obj buf with
  | .error e => .error e
  | .ok (out, rng) =>
    .ok (out, ⟨b.obj.serverEncode, rng, if b.obj.hasStatus 8 then b.flight else out⟩)

/-- Data that is not to be decrypted is not what a client has been given: there is no call for
    it. -/
def serverRecv (k : Now) (b : ServerEnd) (chunk : Bytes) :
    Except PyExc ((Bytes × Option Bytes) × ServerEnd) :=
  match b.obj.serverDecode C k.time k.data chunk with
  | (.error e, _) => .error e
  | (.ok (data, decrypt, back), _, obj, _) =>
    if !decrypt && data ≠ [] then .error .exception
    else if back then (serverSend C k { b with obj } []).map fun r => ((data, some r.1), r.2)
    else .ok ((data, none), { b with obj })

def clientPeer : Peer PyExc Now ClientEnd := ⟨clientSend C, clientRecv C⟩

def serverPeer : Peer PyExc Now ServerEnd := ⟨serverSend C, serverRecv C⟩

/-- The lengths fit into two bytes; a client that waits for the answer is not given an empty buffer;
    and its first read is the answer. -/
def clientTerms : Terms Now ClientEnd ServerEnd where
  send k a _ buf := a.obj.handshakeStatus ≠ 8 → buf.length < 2 ^ 16 ∧
    k.host.length + k.ticket.length < 2 ^ 15 ∧ (a.obj.handshakeStatus = 1 → buf ≠ [])
  recv _ a b chunk := a.obj.handshakeStatus ≠ 8 → chunk = b.flight ∧ chunk ≠ []

/-- A server that has all of the hello accepts it. -/
def Greets (k : Now) (a : ClientEnd) (b : ServerEnd) : Prop :=
  ¬WrongTime b.obj.timeWindow k.time k.data.startupTime a.clock.uint32.toNat ∧
    (k.data.clientData.get k.time a.id).1.getD [] = []

/-- A server sends after its answer. No read leaves it three or four bytes of the hello, or less
    than eleven bytes of the messages that end the handshake. -/
def serverTerms : Terms Now ServerEnd ClientEnd where
  send _ b _ _ := b.obj.hasStatus 8 = true
  recv k b a chunk :=
    (b.obj.handshakeStatus = 0 → (b.obj.recvBuffer ++ chunk).length ≠ 3 ∧
      (b.obj.recvBuffer ++ chunk).length ≠ 4 ∧
      (b.obj.recvBuffer ++ chunk = a.hello → Greets k a b)) ∧
    (b.obj.handshakeStatus = 9 → 11 ≤ (b.obj.recvBuffer ++ chunk).length)

/-! ## Phases -/

/-- What a client has sent is a hello that a server with the same key can read. -/
def SaidHello (a : ClientEnd) : Prop :=
  ∃ tail inner rng, inner = tlsVersion ++ verifyId C a.clock a.obj.key a.obj.clientId rng ++
      [0x20] ++ a.obj.clientId ++ tail ∧
    a.hello = helloRecord (helloMessage inner) ∧ inner.length < 2 ^ 16 ∧
    (helloMessage inner).length < 2 ^ 16 ∧ a.id = helloId a.clock rng

/-- A client that has sent its hello keeps what it is given. -/
structure Waits (a : ClientEnd) (owed : Bytes) : Prop where
  handshakeStatus : a.obj.handshakeStatus = 1
  recvBuffer : a.obj.recvBuffer = []
  sendBuffer : Records a.obj.sendBuffer owed
  length_clientId : a.obj.clientId.length = 32
  hello : SaidHello C a

/-- A server that has accepted a hello. -/
structure Answers (a : ClientEnd) (b : ServerEnd) : Prop where
  handshakeStatus : b.obj.handshakeStatus = 9
  key_eq : b.obj.key = a.obj.key
  clientId_eq : b.obj.clientId = a.obj.clientId

/-- What the ends are, and what is on its way. -/
inductive Phase (a : ClientEnd) (b : ServerEnd) (f : Flight) : Prop
  | idle (client : a.obj.handshakeStatus = 0 ∧ a.obj.sendBuffer = [] ∧ a.obj.recvBuffer = [] ∧
      a.obj.clientId.length = 32)
      (server : b.obj.handshakeStatus = 0 ∧ b.obj.key = a.obj.key ∧ b.obj.recvBuffer = [])
      (flight : f = {})
  /-- The hello is on its way. -/
  | greeted (client : Waits C a f.owedOut)
      (server : b.obj.handshakeStatus = 0 ∧ b.obj.key = a.obj.key)
      (hello : b.obj.recvBuffer ++ f.out = a.hello) (out : f.out ≠ [])
      (inn : f.inn = [] ∧ f.owedIn = [])
  /-- The answer is on its way, with what the server has been given. -/
  | answered (client : Waits C a f.owedOut) (server : Answers a b) (recvBuffer : b.obj.recvBuffer = [])
      (verified : VerifiedFlight C a.obj.key a.obj.clientId b.flight) (out : f.out = [])
      (inn : ∃ recs, f.inn = b.flight ++ recs ∧ Records recs f.owedIn)
  /-- The messages that end the handshake are on their way, with what the client has been given. -/
  | finishing (client : a.obj.handshakeStatus = 8) (server : b.obj.handshakeStatus = 9)
      (out : ∃ random recs, random.length = 22 ∧ b.obj.recvBuffer ++ f.out =
        finishedMessage C b.obj.key b.obj.clientId random ++ recs ∧ Records recs f.owedOut)
      (short : b.obj.recvBuffer.length < 43) (inn : Awaits a.obj.recvBuffer f.inn f.owedIn)
  | ready (client : a.obj.handshakeStatus = 8) (server : b.obj.Ready)
      (out : Awaits b.obj.recvBuffer f.out f.owedOut) (inn : Awaits a.obj.recvBuffer f.inn f.owedIn)

variable {C} {a : ClientEnd} {b : ServerEnd} {f : Flight} {k : Now} {buf chunk rest : Bytes}

/-! ## Records -/

theorem awaits_append {recvBuffer fut data out : Bytes} (h : Awaits recvBuffer fut data)
    (hout : Records out buf) : Awaits recvBuffer (fut ++ out) (data ++ buf) := by
  refine ⟨?_, fun hnil => ?_⟩
  · rw [← List.append_assoc]
    exact h.1.append hout
  · obtain ⟨hfut, rfl⟩ := List.append_eq_nil_iff.1 hnil
    obtain ⟨hrecv, hdata⟩ := h.2 hfut
    exact ⟨hrecv, by rw [hdata, ((awaits_of_records hout).2 rfl).2, List.append_nil]⟩

theorem queueRecord_of_lt (h : buf.length < 2 ^ 16) :
    ∃ queued, queueRecord buf = .ok queued ∧ Records queued buf := by
  have hok : ∃ queued, queueRecord buf = .ok queued := by
    rw [queueRecord, record_eq h]
    split_ifs
    · exact ⟨_, rfl⟩
    · exact ⟨_, rfl⟩
  obtain ⟨queued, hq⟩ := hok
  exact ⟨queued, hq, Session.records_queueRecord hq⟩

/-! ## The flights -/

theorem sni_of_lt {url : Bytes} (h : url.length < 2 ^ 15) :
    ∃ out, sni url = .ok out ∧ out.length = url.length + 9 := by
  have hlen : ([0] ++ packBE 2 url.length ++ url).length = url.length + 3 := by
    simp only [List.length_append, length_packBE, List.length_cons, List.length_nil]
    omega
  refine ⟨[0, 0] ++ packBE 2 (url.length + 3 + 2) ++ packBE 2 (url.length + 3) ++
    ([0] ++ packBE 2 url.length ++ url), ?_, ?_⟩
  · rw [sni, packHigh_of_lt (by omega)]
    change (packHigh 2 (([0] ++ packBE 2 url.length ++ url).length + 2) >>= _) = _
    rw [hlen, packHigh_of_lt (by omega)]
    change (packHigh 2 _ >>= _) = _
    rw [packHigh_of_lt (by omega)]
    rfl
  · simp only [List.length_append, length_packBE, List.length_cons, List.length_nil]
    omega

theorem extensions_of_lt {host ticket : Bytes} (h : host.length + ticket.length < 2 ^ 15) :
    ∃ ext, extensions host ticket = .ok ext ∧ ext.length < 2 ^ 15 + 100 := by
  have hhost : host.length < 2 ^ 15 := by omega
  obtain ⟨out, hsni, hlen⟩ := sni_of_lt hhost
  rw [extensions, hsni]
  change ∃ ext, (packHigh 2 ticket.length >>= _) = _ ∧ _
  rw [packHigh_of_lt (by omega)]
  refine ⟨_, rfl, ?_⟩
  simp only [List.length_append, length_packBE, List.length_cons, List.length_nil, hlen]
  omega

/-- A hello can be made when the host and the ticket are short. -/
theorem clientHello_of_lt {s : Client} (hid : s.clientId.length = 32) (now : Time)
    {host ticket : Bytes} (h : host.length + ticket.length < 2 ^ 15) :
    ∃ r, clientHello C now host ticket s = .ok r := by
  obtain ⟨ext, hext, hlen⟩ := extensions_of_lt h
  have hauth : (packAuthData C now s.key s.clientId s.rng).1.length = 32 :=
    length_verifyId now s.key s.clientId s.rng
  have hmessage : (tlsVersion ++ (packAuthData C now s.key s.clientId s.rng).1 ++ [0x20] ++
      s.clientId ++ cipherSuites ++ (packBE 2 ext.length ++ ext)).length = ext.length + 101 := by
    simp only [List.length_append, hauth, hid, length_packBE]
    simp only [tlsVersion, cipherSuites, List.length_cons, List.length_nil]
    omega
  rw [clientHello]
  dsimp only
  rw [hext]
  change ∃ r, (packHigh 2 ext.length >>= _) = _
  rw [packHigh_of_lt (by omega)]
  change ∃ r, (packHigh 2 (_ : Bytes).length >>= _) = _
  rw [hmessage, packHigh_of_lt (by omega)]
  change ∃ r, (packHigh 2 (_ : Bytes).length >>= _) = _
  rw [packHigh_of_lt (by
    simp only [List.length_append] at hmessage ⊢
    simp only [length_packBE, List.length_cons, List.length_nil]
    omega)]
  exact ⟨_, rfl⟩

theorem sessionTicket_isOk (rng : Rng) : ∃ r, sessionTicket rng = .ok r := by
  rw [sessionTicket]
  dsimp only
  split_ifs
  · have hlt : unpackBE (randBytes 2 (randint 0 8 rng).2).1 % 164 * 2 + 64 < 2 ^ 15 := by omega
    rw [length_randBytes, packHigh_of_lt (by omega)]
    change ∃ r, (packHigh 2 _ >>= _) = _
    rw [packHigh_of_lt (by omega)]
    exact ⟨_, rfl⟩
  · exact ⟨_, rfl⟩

/-- The answer of a server can always be made. -/
theorem serverFlight_isOk {s : TlsTicketAuth} (hid : s.clientId.length = 32) (now : Time)
    (rng : Rng) : ∃ r, serverFlight C now rng s = .ok r := by
  have hauth : (packAuthData C now s.key s.clientId rng).1.length = 32 :=
    length_verifyId now s.key s.clientId rng
  have hdata : (tlsVersion ++ (packAuthData C now s.key s.clientId rng).1 ++ [0x20] ++ s.clientId ++
      [0xc0, 0x2f, 0x00, 0x00, 0x05, 0xff, 0x01, 0x00, 0x01, 0x00]).length = 77 := by
    simp only [List.length_append, hauth, hid, tlsVersion, List.length_cons, List.length_nil]
  obtain ⟨⟨ticket, rng'⟩, hticket⟩ := sessionTicket_isOk (packAuthData C now s.key s.clientId rng).2
  rw [serverFlight]
  dsimp only
  rw [hdata, packHigh_of_lt (by norm_num)]
  change ∃ r, (record 0x16 ([2, 0] ++ packBE 2 77 ++ _) >>= _) = _
  rw [record, List.length_append, hdata, List.length_append, length_packBE,
    packHigh_of_lt (by norm_num [List.length_cons])]
  change ∃ r, (sessionTicket _ >>= _) = _
  rw [hticket]
  change ∃ r, (packHigh 2 (if (randint 0 1 rng').1 = 0 then 32 else 40) >>= _) = _
  rw [packHigh_of_lt (by split_ifs <;> norm_num)]
  exact ⟨_, rfl⟩

/-! ## The calls of a client -/

/-- The hello of a client that has not been used. -/
theorem clientSend_hello (hstatus : a.obj.handshakeStatus = 0) (hsend : a.obj.sendBuffer = [])
    (hrecv : a.obj.recvBuffer = []) (hid : a.obj.clientId.length = 32)
    (hterms : clientTerms.send k a b buf) : ∃ a', clientSend C k a buf = .ok (a'.hello, a') ∧
      a'.obj.key = a.obj.key ∧ Waits C a' buf ∧ a'.hello ≠ [] := by
  obtain ⟨hbuf, hhost, -⟩ := hterms (by rw [hstatus]; decide)
  obtain ⟨queued, hqueued, hrec⟩ := queueRecord_of_lt hbuf
  obtain ⟨⟨hello, obj⟩, hhello⟩ := clientHello_of_lt (C := C)
    (s := { a.obj with sendBuffer := a.obj.sendBuffer ++ queued }) hid k.time hhost
  obtain ⟨tail, inner, hinner, hout, hlt, hlt', hobj⟩ := clientHello_spec hhello
  have hencode : clientEncode C k.time k.host k.ticket a.obj buf = .ok (hello, obj) := by
    rw [clientEncode, if_neg (by rw [hstatus]; decide), if_neg (by rw [hstatus]; decide), hqueued]
    change (if a.obj.handshakeStatus = 0 then _ else _) = _
    rw [if_pos hstatus]
    exact hhello
  refine ⟨⟨obj, hello, helloId k.time a.obj.rng, k.time⟩, ?_, ?_, ⟨?_, ?_, ?_, ?_, tail, inner,
    a.obj.rng, ?_, hout, hlt, hlt', rfl⟩, ?_⟩
  · rw [clientSend, hencode]
    dsimp only
    rw [if_pos hstatus]
  · rw [hobj]
  · rw [hobj]
  · rw [hobj]
    exact hrecv
  · rw [hobj, hsend, List.nil_append]
    exact hrec
  · rw [hobj]
    exact hid
  · rw [hinner, hobj]
  · dsimp only
    rw [hout]
    exact List.cons_ne_nil _ _

/-- A client that waits sends nothing. -/
theorem Waits.clientSend {owed : Bytes} (h : Waits C a owed) (hterms : clientTerms.send k a b buf) :
    ∃ a', TlsLink.clientSend C k a buf = .ok ([], a') ∧ a'.obj.key = a.obj.key ∧
      a'.obj.clientId = a.obj.clientId ∧ a'.hello = a.hello ∧ Waits C a' (owed ++ buf) := by
  obtain ⟨hbuf, -, hne⟩ := hterms (by rw [h.handshakeStatus]; decide)
  obtain ⟨queued, hqueued, hrec⟩ := queueRecord_of_lt hbuf
  have hencode : clientEncode C k.time k.host k.ticket a.obj buf =
      .ok ([], { a.obj with sendBuffer := a.obj.sendBuffer ++ queued }) := by
    rw [clientEncode, if_neg (by rw [h.handshakeStatus]; decide),
      if_neg (by rw [h.handshakeStatus]; decide), hqueued]
    change (if a.obj.handshakeStatus = 0 then _ else _) = _
    rw [if_neg (by rw [h.handshakeStatus]; decide), if_neg fun hnil => hne h.handshakeStatus hnil.2]
    rfl
  refine ⟨{ a with obj := { a.obj with sendBuffer := a.obj.sendBuffer ++ queued } }, ?_, rfl, rfl,
    rfl, h.handshakeStatus, h.recvBuffer, h.sendBuffer.append hrec, h.length_clientId, h.hello⟩
  rw [TlsLink.clientSend, hencode]
  dsimp only
  rw [if_neg (by rw [h.handshakeStatus]; decide)]

/-- The answer of the server makes a client end the handshake, with what it has kept. -/
theorem Waits.clientRecv {owed : Bytes} (h : Waits C a owed)
    (hverified : VerifiedFlight C a.obj.key a.obj.clientId chunk) :
    ∃ a' random recs, TlsLink.clientRecv C k a chunk =
        .ok (([], some (finishedMessage C a.obj.key a.obj.clientId random ++ recs)), a') ∧
      random.length = 22 ∧ Records recs owed ∧ a'.obj.handshakeStatus = 8 ∧
      a'.obj.recvBuffer = [] ∧ a'.obj.key = a.obj.key ∧ a'.obj.clientId = a.obj.clientId := by
  refine ⟨{ a with obj := { a.obj with
    rng := (randBytes 22 a.obj.rng).2, sendBuffer := [], handshakeStatus := 8 } },
    (randBytes 22 a.obj.rng).1, a.obj.sendBuffer, ?_, length_randBytes _ _, h.sendBuffer, rfl,
    h.recvBuffer, rfl, rfl⟩
  rw [TlsLink.clientRecv, clientDecode, if_neg (by rw [h.handshakeStatus]; decide),
    if_neg (by rw [h.handshakeStatus]; decide), if_pos hverified]
  dsimp only
  rw [if_pos rfl, TlsLink.clientSend, clientEncode_finish h.handshakeStatus]
  dsimp only
  rw [if_neg (by rw [h.handshakeStatus]; decide)]
  rfl

/-- A client in the phase of the data sends records. -/
theorem clientSend_data (h : a.obj.handshakeStatus = 8) (k : Now) (buf : Bytes) :
    ∃ out obj, clientSend C k a buf = .ok (out, { a with obj }) ∧ Records out buf ∧
      obj.handshakeStatus = 8 ∧ obj.recvBuffer = a.obj.recvBuffer := by
  obtain ⟨stream, rng, hstream, hrec⟩ := encodeAppData_spec a.obj.rng buf
  refine ⟨stream, { a.obj with rng }, ?_, hrec, h, rfl⟩
  rw [clientSend, clientEncode, if_neg (by rw [h]; decide), if_pos h, hstream]
  change Except.ok (_, if a.obj.handshakeStatus = 0 then _ else _) = _
  rw [if_neg (by rw [h]; decide)]

/-- It takes records off the stream. -/
theorem clientRecv_data {owed : Bytes} (h : a.obj.handshakeStatus = 8) (k : Now)
    (hinn : Awaits a.obj.recvBuffer (chunk ++ rest) owed) :
    ∃ data obj owed', clientRecv C k a chunk = .ok ((data, none), { a with obj }) ∧
      owed = data ++ owed' ∧ obj.handshakeStatus = 8 ∧ Awaits obj.recvBuffer rest owed' := by
  obtain ⟨data, owed', obj, hrecv, howed, hstatus, hawaits⟩ := clientRecv_spec (C := C) ⟨h, hinn⟩
  refine ⟨data, obj, owed', ?_, howed, hstatus, hawaits⟩
  rw [Client.recv] at hrecv
  have hback : ∀ data back obj, clientDecode C a.obj chunk = (.ok (data, back), obj) →
      back = false := by
    intro data back obj hdecode
    rw [clientDecode, if_neg (by rw [h]; decide), if_pos h] at hdecode
    dsimp only at hdecode
    cases hl : loop clientAppDataBody ((a.obj.recvBuffer ++ chunk).length + 1)
        (a.obj.recvBuffer ++ chunk, []) <;> rw [hl] at hdecode <;> cases hdecode
    · rfl
    · rfl
  obtain ⟨⟨r, obj'⟩, hr⟩ : ∃ p, clientDecode C a.obj chunk = p := ⟨_, rfl⟩
  rw [hr] at hrecv
  cases r with
  | error e => cases hrecv
  | ok r =>
    obtain ⟨data', back⟩ := r
    obtain rfl := hback data' back obj' hr
    cases hrecv
    rw [clientRecv, hr]
    rfl

/-! ## The calls of a server -/

/-- The hello is accepted, and answered. -/
theorem serverRecv_hello {owed : Bytes} (h : Waits C a owed)
    (hserver : b.obj.handshakeStatus = 0 ∧ b.obj.key = a.obj.key)
    (hello : b.obj.recvBuffer ++ chunk = a.hello) (hgreets : Greets k a b) :
    ∃ b', serverRecv C k b chunk = .ok (([], some b'.flight), b') ∧ Answers a b' ∧
      b'.obj.recvBuffer = [] ∧ VerifiedFlight C a.obj.key a.obj.clientId b'.flight := by
  obtain ⟨hstatus, hkey⟩ := hserver
  obtain ⟨tail, inner, rng, hinner, hhello, hlt, hlt', hid⟩ := h.hello
  obtain ⟨htime, hfresh⟩ := hgreets
  rw [← hkey] at hinner
  rw [hid] at hfresh
  obtain ⟨data', hrecv⟩ := recvHello_complete (C := C) (s := b.obj.receive chunk) hinner hlt hlt'
    h.length_clientId (hello.trans hhello) htime hfresh
  obtain ⟨s, hs⟩ : ∃ s : TlsTicketAuth, s = { b.obj.receive chunk with
      recvBuffer := []
      handshakeStatus := 1
      clientId := a.obj.clientId
      maxTimeDif := (b.obj.receive chunk).timeWindow } := ⟨_, rfl⟩
  rw [← hs] at hrecv
  have hone : s.handshakeStatus = 1 := by rw [hs]
  have hclient : s.clientId = a.obj.clientId := by rw [hs]
  have hskey : s.key = a.obj.key := by rw [hs]; exact hkey
  have hbuf : s.recvBuffer = [] := by rw [hs]
  obtain ⟨⟨flight, rng'⟩, hflight⟩ :=
    serverFlight_isOk (C := C) (s := s) (by rw [hclient, h.length_clientId]) k.time b.rng
  have hverified := verifiedFlight_serverFlight (by rw [hclient, h.length_clientId]) hflight
  rw [hskey, hclient] at hverified
  have height : s.hasStatus 8 = false := by
    rw [hasStatus, hone]
    rfl
  have hencoded : serverEncoded C k.time b.rng s [] = .ok (flight, rng') := by
    rw [serverEncoded, if_neg (by rw [hone]; decide), if_neg (by rw [height]; decide), hflight]
    rfl
  refine ⟨⟨s.serverEncode, rng', flight⟩, ?_, ⟨?_, ?_, ?_⟩, ?_, hverified⟩
  · rw [serverRecv, serverDecode_hello hstatus, hrecv]
    dsimp only [helloReturn]
    rw [if_neg (by rw [hbuf]; decide)]
    dsimp only
    rw [if_neg (by decide), if_pos rfl, serverSend, hencoded]
    dsimp only
    rw [height]
    rfl
  all_goals rw [Session.serverEncode_of_one hone]
  · exact hskey
  · exact hclient
  · exact hbuf

/-- A part of a hello is kept. -/
theorem serverRecv_wait {message : Bytes} (hstatus : b.obj.handshakeStatus = 0)
    (hello : b.obj.recvBuffer ++ chunk ++ rest = helloRecord message)
    (hlt : message.length < 2 ^ 16)
    (hrest : rest ≠ []) (h3 : (b.obj.recvBuffer ++ chunk).length ≠ 3)
    (h4 : (b.obj.recvBuffer ++ chunk).length ≠ 4) : serverRecv C k b chunk =
      .ok (([], none), { b with obj := b.obj.receive chunk }) := by
  have hrecv := recvHello_wait C k.time k.data (s := b.obj.receive chunk) hello hrest hlt h3 h4
  rw [serverRecv, serverDecode_hello hstatus, hrecv]
  rfl

/-- A server in the phase of the data, or before it, sends records. -/
theorem serverSend_data (h : b.obj.hasStatus 8 = true) (k : Now) (buf : Bytes) :
    ∃ out rng, serverSend C k b buf = .ok (out, { b with rng }) ∧ Records out buf := by
  obtain ⟨stream, rng, hstream, hrec⟩ := encodeAppData_spec b.rng buf
  refine ⟨stream, rng, ?_, hrec⟩
  rw [serverSend, serverEncoded, if_neg (handshakeStatus_ne (by decide) h), if_pos h, hstream]
  dsimp only
  rw [serverEncode, if_pos (.inr h), if_pos h]

theorem hasStatus_of_nine (h : b.obj.handshakeStatus = 9) : b.obj.hasStatus 8 = true := by
  rw [hasStatus, h]
  rfl

/-- The messages that end the handshake are kept until they are complete; then the data follows. -/
theorem serverRecv_finishing {random recs owed : Bytes} (h : b.obj.handshakeStatus = 9)
    (hrandom : random.length = 22) (hout : b.obj.recvBuffer ++ (chunk ++ rest) =
      finishedMessage C b.obj.key b.obj.clientId random ++ recs) (hrec : Records recs owed)
    (hlen : 11 ≤ (b.obj.recvBuffer ++ chunk).length) :
    (serverRecv C k b chunk = .ok (([], none), { b with obj := b.obj.receive chunk }) ∧
      (b.obj.recvBuffer ++ chunk).length < 43) ∨
    ∃ data obj owed', serverRecv C k b chunk = .ok ((data, none), { b with obj }) ∧
      owed = data ++ owed' ∧ obj.Ready ∧ Awaits obj.recvBuffer rest owed' := by
  rw [← List.append_assoc] at hout
  by_cases hshort : (b.obj.recvBuffer ++ chunk).length < 43
  · obtain ⟨l, hl⟩ : finishedHead <+: b.obj.recvBuffer ++ chunk := by
      obtain ⟨l, hl⟩ := finishedHead_prefix (C := C) b.obj.key b.obj.clientId random recs
      exact List.prefix_of_prefix_length_le ⟨l, hl.symm⟩ ⟨rest, hout⟩ hlen
    refine .inl ⟨?_, hshort⟩
    rw [serverRecv, serverDecode_finished h, decodeFinished_wait hl.symm hshort]
    rfl
  · obtain ⟨more, hmore⟩ : ∃ more, b.obj.recvBuffer ++ chunk =
        finishedMessage C b.obj.key b.obj.clientId random ++ more := by
      rcases prefix_or_prefix hout with ⟨hp, hne⟩ | ⟨more, hmore, -⟩
      · refine absurd (hp.eq_of_length_le ?_) hne
        rw [length_finishedMessage hrandom]
        omega
      · exact ⟨more, hmore⟩
    rw [hmore, List.append_assoc] at hout
    rw [← List.append_cancel_left hout, ← List.append_nil more] at hrec
    obtain ⟨data, owed', buf, happ, howed, hawaits⟩ := decodeAppData_spec
      (s := { b.obj with recvBuffer := more }.setStatus 4) hrec
    obtain ⟨hdecodes, hencodes⟩ :=
      ready_setStatus (s := { b.obj with recvBuffer := more }) h
    refine .inr ⟨data, { ({ b.obj with recvBuffer := more }.setStatus 4) with recvBuffer := buf },
      owed', ?_, howed, ⟨hdecodes, hencodes⟩, hawaits⟩
    rw [serverRecv, serverDecode_finished h, decodeFinished_complete hrandom hmore,
      happ]
    rfl

/-- A server in the phase of the data takes records off the stream. -/
theorem serverRecv_data {owed : Bytes} (h : b.obj.Ready) (k : Now)
    (hout : Awaits b.obj.recvBuffer (chunk ++ rest) owed) :
    ∃ data obj owed', serverRecv C k b chunk = .ok ((data, none), { b with obj }) ∧
      owed = data ++ owed' ∧ obj.Ready ∧ Awaits obj.recvBuffer rest owed' := by
  obtain ⟨hrec, -⟩ := hout
  rw [← List.append_assoc] at hrec
  obtain ⟨data, owed', recvBuffer, hdecode, howed, hawaits⟩ := decodeAppData_spec hrec
  refine ⟨data, { b.obj with recvBuffer }, owed', ?_, howed, ⟨h.decodes, h.encodes⟩, hawaits⟩
  rw [serverRecv, serverDecode_ready h, hdecode]
  rfl

/-! ## Steps -/

theorem Phase.clientSend (h : Phase C a b f) (hterms : clientTerms.send k a b buf) :
    ∃ out a', TlsLink.clientSend C k a buf = .ok (out, a') ∧ Phase C a' b (f.sent out buf) := by
  cases h with
  | idle hclient hserver hf =>
    obtain ⟨hstatus, hsend, hrecv, hid⟩ := hclient
    obtain ⟨hserver, hkey, hbuf⟩ := hserver
    subst hf
    obtain ⟨a', hcall, hkey', hwaits, hne⟩ := clientSend_hello hstatus hsend hrecv hid hterms
    exact ⟨_, a', hcall, .greeted hwaits ⟨hserver, hkey.trans hkey'.symm⟩
      (by rw [hbuf]; rfl) hne ⟨rfl, rfl⟩⟩
  | greeted hclient hserver hello hout hinn =>
    obtain ⟨a', hcall, hkey, -, hsame, hwaits⟩ := hclient.clientSend hterms
    refine ⟨[], a', hcall, .greeted hwaits (by rw [hkey]; exact hserver) ?_ ?_ hinn⟩
    · exact (congrArg (b.obj.recvBuffer ++ ·) (List.append_nil f.out)).trans
        (hello.trans hsame.symm)
    · exact List.append_ne_nil_of_left_ne_nil hout []
  | answered hclient hserver hbuf hverified hout hinn =>
    obtain ⟨a', hcall, hkey, hid, -, hwaits⟩ := hclient.clientSend hterms
    refine ⟨[], a', hcall, .answered hwaits ⟨hserver.handshakeStatus, ?_, ?_⟩ hbuf ?_
      ((List.append_nil _).trans hout) hinn⟩
    · rw [hkey, hserver.key_eq]
    · rw [hid, hserver.clientId_eq]
    · rw [hkey, hid]
      exact hverified
  | finishing hclient hserver hout hshort hinn =>
    obtain ⟨out, obj, hcall, hrec, hstatus, hbuf⟩ := clientSend_data (C := C) hclient k buf
    obtain ⟨random, recs, hrandom, hmessage, hrecs⟩ := hout
    refine ⟨out, { a with obj }, hcall, .finishing hstatus hserver
      ⟨random, recs ++ out, hrandom, ?_, hrecs.append hrec⟩ hshort
      (by dsimp only; rw [hbuf]; exact hinn)⟩
    exact (List.append_assoc _ _ _).symm.trans
      ((congrArg (· ++ out) hmessage).trans (List.append_assoc _ _ _))
  | ready hclient hserver hout hinn =>
    obtain ⟨out, obj, hcall, hrec, hstatus, hbuf⟩ := clientSend_data (C := C) hclient k buf
    exact ⟨out, { a with obj }, hcall, .ready hstatus hserver (awaits_append hout hrec)
      (by dsimp only; rw [hbuf]; exact hinn)⟩

theorem Phase.clientRecv (h : Phase C a b f) (hinn : f.inn = chunk ++ rest)
    (hterms : clientTerms.recv k a b chunk) : ∃ data back a' owed,
      TlsLink.clientRecv C k a chunk = .ok ((data, back), a') ∧ f.owedIn = data ++ owed ∧
        Phase C a' b (f.received rest owed back) := by
  cases h with
  | idle hclient hserver hf =>
    obtain ⟨-, hne⟩ := hterms (by rw [hclient.1]; decide)
    exact absurd (List.append_eq_nil_iff.1 (hinn.symm.trans (congrArg Flight.inn hf))).1 hne
  | greeted hclient hserver hello hout hnil =>
    obtain ⟨-, hne⟩ := hterms (by rw [hclient.handshakeStatus]; decide)
    exact absurd (List.append_eq_nil_iff.1 (hinn.symm.trans hnil.1)).1 hne
  | answered hclient hserver hbuf hverified hout hdown =>
    obtain ⟨hchunk, -⟩ := hterms (by rw [hclient.handshakeStatus]; decide)
    obtain ⟨recs, hdown, hrecs⟩ := hdown
    rw [← hchunk] at hverified
    obtain ⟨a', random, sent, hcall, hrandom, hsent, hstatus, hrecv, hkey, hid⟩ :=
      hclient.clientRecv (k := k) hverified
    rw [hinn, ← hchunk] at hdown
    refine ⟨[], _, a', f.owedIn, hcall, rfl, .finishing hstatus hserver.handshakeStatus
      ⟨random, sent, hrandom, ?_, hsent⟩ (by rw [hbuf]; decide) ?_⟩
    · change b.obj.recvBuffer ++ (f.out ++ _) = _
      rw [hbuf, hout, hserver.key_eq, hserver.clientId_eq]
      rfl
    · rw [hrecv]
      change Awaits [] rest f.owedIn
      rw [List.append_cancel_left hdown]
      exact awaits_of_records hrecs
  | finishing hclient hserver hout hshort hdown =>
    rw [hinn] at hdown
    obtain ⟨data, obj, owed, hcall, howed, hstatus, hawaits⟩ :=
      clientRecv_data (C := C) hclient k hdown
    refine ⟨data, none, { a with obj }, owed, hcall, howed, ?_⟩
    rw [Flight.received_none]
    exact .finishing hstatus hserver hout hshort hawaits
  | ready hclient hserver hout hdown =>
    rw [hinn] at hdown
    obtain ⟨data, obj, owed, hcall, howed, hstatus, hawaits⟩ :=
      clientRecv_data (C := C) hclient k hdown
    refine ⟨data, none, { a with obj }, owed, hcall, howed, ?_⟩
    rw [Flight.received_none]
    exact .ready hstatus hserver hout hawaits

theorem Phase.serverSend (h : Phase C a b f) (hterms : serverTerms.send k b a buf) :
    ∃ out b', TlsLink.serverSend C k b buf = .ok (out, b') ∧
      Phase C a b' (f.swap.sent out buf).swap := by
  obtain ⟨out, rng, hcall, hrec⟩ := serverSend_data (C := C) hterms k buf
  refine ⟨out, { b with rng }, hcall, ?_⟩
  have hstatus : b.obj.handshakeStatus ≠ 0 := by
    intro hzero
    have height : b.obj.hasStatus 8 = true := hterms
    rw [hasStatus, hzero] at height
    exact absurd height (by decide)
  cases h with
  | idle hclient hserver hf => exact absurd hserver.1 hstatus
  | greeted hclient hserver hello hout hinn => exact absurd hserver.1 hstatus
  | answered hclient hserver hbuf hverified hout hinn =>
    obtain ⟨recs, hinn, hrecs⟩ := hinn
    exact .answered hclient ⟨hserver.handshakeStatus, hserver.key_eq, hserver.clientId_eq⟩ hbuf
      hverified hout ⟨recs ++ out,
      (congrArg (· ++ out) hinn).trans (List.append_assoc _ _ _), hrecs.append hrec⟩
  | finishing hclient hserver hout hshort hinn =>
    exact .finishing hclient hserver hout hshort (awaits_append hinn hrec)
  | ready hclient hserver hout hinn =>
    exact .ready hclient hserver hout (awaits_append hinn hrec)

theorem Phase.serverRecv (h : Phase C a b f) (hup : f.out = chunk ++ rest)
    (hterms : serverTerms.recv k b a chunk) : ∃ data back b' owed,
      TlsLink.serverRecv C k b chunk = .ok ((data, back), b') ∧ f.owedOut = data ++ owed ∧
        Phase C a b' (f.swap.received rest owed back).swap := by
  cases h with
  | idle hclient hserver hf =>
    subst hf
    obtain ⟨rfl, rfl⟩ := List.append_eq_nil_iff.1 hup.symm
    refine ⟨[], none, b, [], ?_, rfl, .idle hclient hserver rfl⟩
    have hsame : b.obj.receive [] = b.obj := by rw [receive, List.append_nil]
    have hrecv : b.obj.recvHello C k.time k.data =
        (.error (.ok ([], false, false)), b.obj, k.data) := by
      rw [recvHello]
      dsimp only
      rw [if_pos (by rw [hserver.2.2]; decide)]
    rw [TlsLink.serverRecv, serverDecode_hello hserver.1, hsame, hrecv]
    rfl
  | greeted hclient hserver hello hout hinn =>
    obtain ⟨h3, h4, hgreets⟩ := hterms.1 hserver.1
    rw [hup, ← List.append_assoc] at hello
    by_cases hrest : rest = []
    · rw [hrest, List.append_nil] at hello
      obtain ⟨b', hcall, hanswers, hbuf, hverified⟩ :=
        serverRecv_hello (C := C) hclient hserver hello (hgreets hello)
      refine ⟨[], _, b', f.owedOut, hcall, rfl, .answered hclient hanswers hbuf hverified hrest
        ⟨[], ?_, ?_⟩⟩
      · change f.inn ++ b'.flight = b'.flight ++ []
        rw [hinn.1, List.nil_append, List.append_nil]
      · change Records [] f.owedIn
        rw [hinn.2]
        exact records_nil
    · obtain ⟨tail, inner, rng, -, hhello, -, hlt, -⟩ := hclient.hello
      have hcall := serverRecv_wait (C := C) (k := k) hserver.1 (hello.trans hhello) hlt hrest h3 h4
      refine ⟨[], none, _, f.owedOut, hcall, rfl, ?_⟩
      rw [Flight.received_none]
      exact .greeted hclient hserver hello hrest hinn
  | answered hclient hserver hbuf hverified hout hinn =>
    -- There is nothing to read.
    obtain ⟨rfl, rfl⟩ := List.append_eq_nil_iff.1 (hup.symm.trans hout)
    have hlen := hterms.2 hserver.handshakeStatus
    rw [hbuf] at hlen
    exact absurd hlen (by decide)
  | finishing hclient hserver hout hshort hinn =>
    obtain ⟨random, recs, hrandom, hmessage, hrecs⟩ := hout
    rw [hup] at hmessage
    rcases serverRecv_finishing (C := C) (k := k) hserver hrandom hmessage hrecs
      (hterms.2 hserver) with ⟨hcall, hlt⟩ | ⟨data, obj, owed, hcall, howed, hready, hawaits⟩
    · refine ⟨[], none, _, f.owedOut, hcall, rfl, ?_⟩
      rw [Flight.received_none]
      exact .finishing hclient hserver
        ⟨random, recs, hrandom, (List.append_assoc _ _ _).trans hmessage, hrecs⟩ hlt hinn
    · refine ⟨data, none, _, owed, hcall, howed, ?_⟩
      rw [Flight.received_none]
      exact .ready hclient hready hawaits hinn
  | ready hclient hserver hout hinn =>
    rw [hup] at hout
    obtain ⟨data, obj, owed, hcall, howed, hready, hawaits⟩ :=
      serverRecv_data (C := C) hserver k hout
    refine ⟨data, none, _, owed, hcall, howed, ?_⟩
    rw [Flight.received_none]
    exact .ready hclient hready hawaits hinn

theorem Phase.landed (h : Phase C a b f) (hout : f.out = []) (hinn : f.inn = []) :
    f.owedOut = [] ∧ f.owedIn = [] := by
  cases h with
  | idle hclient hserver hf => exact ⟨congrArg Flight.owedOut hf, congrArg Flight.owedIn hf⟩
  | greeted hclient hserver hello hne hdown => exact absurd hout hne
  | answered hclient hserver hbuf hverified hup hdown =>
    obtain ⟨recs, hdown, -⟩ := hdown
    have hlen := hverified.1
    rw [(List.append_eq_nil_iff.1 (hdown.symm.trans hinn)).1] at hlen
    exact absurd hlen (by decide)
  | finishing hclient hserver hup hshort hdown =>
    obtain ⟨random, recs, hrandom, hmessage, -⟩ := hup
    have hlen := congrArg List.length hmessage
    rw [hout, List.append_nil, List.length_append, length_finishedMessage hrandom] at hlen
    omega
  | ready hclient hserver hup hdown => exact ⟨(hup.2 hout).2, (hdown.2 hinn).2⟩

/-- The objects of a client and a server. -/
def layer (C : Crypto) : Layer PyExc Now ClientEnd ServerEnd where
  client := clientPeer C
  server := serverPeer C
  clientTerms := clientTerms
  serverTerms := serverTerms
  Inv := Phase C
  client_keeps :=
    { send := fun h hterms => h.clientSend hterms
      recv := fun h hinn hterms => h.clientRecv hinn hterms }
  server_keeps :=
    { send := fun h hterms => h.serverSend hterms
      recv := fun h hup hterms => h.serverRecv hup hterms }
  landed := Phase.landed

instance (k : Now) (a : ClientEnd) (b : ServerEnd) : Decidable (Greets k a b) :=
  inferInstanceAs (Decidable (_ ∧ _))

instance : (layer C).DecidableTerms where
  clientSend k a _ buf := inferInstanceAs (Decidable (a.obj.handshakeStatus ≠ 8 →
    buf.length < 2 ^ 16 ∧ k.host.length + k.ticket.length < 2 ^ 15 ∧ (_ → buf ≠ [])))
  clientRecv _ _ b chunk := inferInstanceAs (Decidable (_ → chunk = b.flight ∧ chunk ≠ []))
  serverSend _ b _ _ := inferInstanceAs (Decidable (b.obj.hasStatus 8 = true))
  serverRecv k b a chunk := inferInstanceAs (Decidable ((_ → (_ : List UInt8).length ≠ 3 ∧
    (_ : List UInt8).length ≠ 4 ∧ (b.obj.recvBuffer ++ chunk = a.hello → Greets k a b)) ∧ _))

/-- A client before anything is sent. -/
def startClient (key clientId : Bytes) (rng : Rng) : ClientEnd where
  obj := { key, clientId, rng }

/-- A server before anything is received. -/
def startServer (settings : Settings) (rng : Rng) : ServerEnd where
  obj := new settings
  rng := rng

theorem layer_inv_start (settings : Settings) {clientId : Bytes} (h : clientId.length = 32)
    (rng rng' : Rng) :
    (layer C).Inv (startClient settings.key clientId rng) (startServer settings rng') {} :=
  .idle ⟨rfl, rfl, rfl, h⟩ ⟨rfl, rfl, rfl⟩ rfl

def exampleNow : Now := ⟨0, [], [], .empty⟩

/-- A request, the flights in more than one read, and a reply. -/
def exampleEvents : List (Wired.Event Now) :=
  [.clientSend exampleNow [1, 2, 3], .serverRecv exampleNow 5, .serverRecv exampleNow 5000,
    .clientRecv exampleNow 5000, .serverRecv exampleNow 11, .serverSend exampleNow [9],
    .serverRecv exampleNow 5000, .clientRecv exampleNow 3, .clientRecv exampleNow 5000]

end TlsLink

end ShadowsocksR

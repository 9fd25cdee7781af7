import ShadowsocksR.ObfsTls.Handshake

/-!
# A TLS handshake in segments

An honest client and an honest server, whose flights are cut into reads. The
server keeps what it has received, but reads the length of the hello when only
its first three bytes are there, and wants eleven bytes of the messages that end
the handshake at once; the client keeps nothing of the answer that it waits for.

* `Session`: the two ends, and the reads in which the flights arrive;
* `Survives`: the handshake ends, and the data of both sides is delivered;
* `Unbroken`: the reads with which it does;
* `survives_iff`: that these are the only ones, unless a part of the answer
  carries a signature of its own.
-/

namespace ShadowsocksR

namespace TlsTicketAuth

/-! ## The two ends -/

/-- A server, its random numbers and what it has sent back. -/
structure ServerEnd where
  obj : TlsTicketAuth
  rng : Rng
  sent : Bytes := []

/-- A server that answers when `server_decode` says so. -/
def ServerEnd.respond (C : Crypto) (answer : Time) (s : ServerEnd) (a : ServerRecv) :
    Except PyExc (Bytes × ServerEnd) :=
  match s.obj.serverDecode C a.now a.data a.buf with
  | (.error e, _, _, _) => .error e
  | (.ok (out, _, back), _, obj, _) =>
    if back then
      match serverEncoded C answer s.rng obj [] with
      | .error e => .error e
      | .ok (ret, rng) => .ok (out, { obj := obj.serverEncode, rng, sent := s.sent ++ ret })
    else .ok (out, { s with obj })

/-- A client and what it has sent back. -/
structure ClientEnd where
  obj : Client
  sent : Bytes := []

/-- A client that answers when `client_decode` says so. -/
def ClientEnd.respond (C : Crypto) (finish : ClientSend) (c : ClientEnd) (buf : Bytes) :
    Except PyExc (Bytes × ClientEnd) :=
  match clientDecode C c.obj buf with
  | (.error e, _) => .error e
  | (.ok (out, back), obj) =>
    if back then
      match clientEncode C finish.now finish.host finish.ticket obj [] with
      | .error e => .error e
      | .ok (ret, obj) => .ok (out, { obj, sent := c.sent ++ ret })
    else .ok (out, { c with obj })

/-- A client and a server with the same key, what the client sends before the answer of the server
    and after it, and the reads in which the three flights arrive. -/
structure Session (C : Crypto) where
  settings : Settings
  clientId : Bytes
  clientRng : Rng
  serverRng : Rng
  length_clientId : clientId.length = 32
  /-- The buffer that the hello is sent for, and those that are put off. -/
  first : ClientSend
  queued : List ClientSend
  queued_ne : ∀ a ∈ queued, a.buf ≠ []
  hello : Bytes
  waiting : Client
  hello_eq : feed (Client.send C) { key := settings.key, clientId, rng := clientRng }
    (first :: queued) = .ok (hello, waiting)
  helloReads : List ServerRecv
  helloReads_eq : helloReads.flatMap ServerRecv.buf = hello
  helloReads_ne : ∀ a ∈ helloReads, a.buf ≠ []
  inTime : ∀ a ∈ helloReads,
    ¬WrongTime settings.timeWindow a.now a.data.startupTime first.now.uint32.toNat
  isFresh : ∀ a ∈ helloReads,
    (a.data.clientData.get a.now (helloId first.now clientRng)).1.getD [] = []
  /-- The answer of the server. -/
  answer : Time
  flight : Bytes
  flight_eq : ∃ rng, serverFlight C answer serverRng { new settings with clientId } =
    .ok (flight, rng)
  flightReads : List Bytes
  flightReads_eq : flightReads.flatten = flight
  flightReads_ne : ∀ buf ∈ flightReads, buf ≠ []
  /-- The end of the handshake, and the buffers that are sent after it. -/
  finish : ClientSend
  finished : Bytes
  ready : Client
  finished_eq : clientEncode C finish.now finish.host finish.ticket waiting [] =
    .ok (finished, ready)
  later : List ClientSend
  stream : Bytes
  last : Client
  stream_eq : feed (Client.send C) ready later = .ok (stream, last)
  finishedReads : List ServerRecv
  finishedReads_eq : finishedReads.flatMap ServerRecv.buf = finished ++ stream
  finishedReads_ne : ∀ a ∈ finishedReads, a.buf ≠ []

namespace Session

variable {C : Crypto} (x : Session C)

/-- All that the client sends. -/
def data : Bytes := (x.first :: x.queued ++ x.later).flatMap ClientSend.buf

/-- No call raises or takes the error return, both ends come to the phase of the data, and both
    receive what the other one sends. -/
def Survives : Prop :=
  ∃ s₁ rng₁ s₂,
    feed (ServerEnd.respond C x.answer) { obj := new x.settings, rng := x.serverRng } x.helloReads =
      .ok ([], { obj := s₁, rng := rng₁, sent := x.flight }) ∧
    feed (ClientEnd.respond C x.finish) { obj := x.waiting } x.flightReads =
      .ok ([], { obj := x.ready, sent := x.finished }) ∧
    feed (ServerEnd.respond C x.answer) { obj := s₁, rng := rng₁ } x.finishedReads =
      .ok (x.data, { obj := s₂, rng := rng₁ }) ∧
    x.ready.handshakeStatus = 8 ∧ s₂.Ready ∧
    ∀ sends : List ServerSend, ∃ stream s₃,
      feed (send C) (s₂, rng₁) sends = .ok (stream, s₃) ∧
        ∀ chunks : List Bytes, chunks.flatten = stream →
          ∃ c, feed (Client.recv C) x.last chunks = .ok (sends.flatMap ServerSend.buf, c)

/-- The reads: none of those of the hello ends in the third or the fourth byte of it; the answer is
    read at once; and the first read of the messages that end the handshake has eleven bytes. -/
structure Unbroken : Prop where
  hello : ∀ before after, x.helloReads = before ++ after → after ≠ [] →
    (before.flatMap ServerRecv.buf).length ≠ 3 ∧ (before.flatMap ServerRecv.buf).length ≠ 4
  flight : x.flightReads = [x.flight]
  finished : ∀ a ∈ x.finishedReads.head?, 11 ≤ a.buf.length

/-- No part of the answer carries a signature that is right for it. -/
def SignedAtEnd : Prop :=
  ∀ part, part <+: x.flight → part ≠ x.flight → ¬VerifiedFlight C x.settings.key x.clientId part

/-! ## The client -/

variable {x}

/-- A buffer that is put off is a record in `send_buffer`. -/
theorem records_queueRecord {buf queued : Bytes} (h : queueRecord buf = .ok queued) :
    Records queued buf := by
  rw [queueRecord] at h
  split at h
  · next hne =>
    rw [record] at h
    obtain ⟨len, hlen, h⟩ := bind_eq_ok.1 h
    obtain ⟨hlt, rfl⟩ := packHigh_eq_ok hlen
    rw [← Except.ok.inj h]
    exact records_appRecord (List.ne_nil_of_length_pos hne) (by omega)
  · next hnil =>
    cases h
    rw [List.eq_nil_of_length_eq_zero (by omega : buf.length = 0)]
    exact records_nil

/-- A client that waits for the answer, with the data that it has put off. -/
structure Waits (key clientId data : Bytes) (c : Client) : Prop where
  handshakeStatus : c.handshakeStatus = 1
  key_eq : c.key = key
  clientId_eq : c.clientId = clientId
  recvBuffer : c.recvBuffer = []
  sendBuffer : Records c.sendBuffer data

/-- A client that waits puts its buffers off. -/
theorem Waits.feed {key clientId data : Bytes} {sends : List ClientSend} {c c' : Client}
    {out : Bytes} (hc : Waits key clientId data c) (hne : ∀ a ∈ sends, a.buf ≠ [])
    (h : feed (Client.send C) c sends = .ok (out, c')) :
    out = [] ∧ Waits key clientId (data ++ sends.flatMap ClientSend.buf) c' := by
  induction sends generalizing data c out with
  | nil =>
    cases h
    exact ⟨rfl, by rw [List.flatMap_nil, List.append_nil]; exact hc⟩
  | cons a sends ih =>
    obtain ⟨out₁, c₁, outs, ha, hfeed, hout⟩ := feed_cons_eq_ok h
    rw [List.forall_mem_cons] at hne
    rw [Client.send, clientEncode, if_neg (by rw [hc.handshakeStatus]; decide),
      if_neg (by rw [hc.handshakeStatus]; decide)] at ha
    obtain ⟨queued, hqueued, ha⟩ := bind_eq_ok.1 ha
    dsimp only at ha
    rw [if_neg (by rw [hc.handshakeStatus]; decide), if_neg fun h => hne.1 h.2] at ha
    cases ha
    have hc₁ : Waits key clientId (data ++ a.buf)
        { c with sendBuffer := c.sendBuffer ++ queued } :=
      { handshakeStatus := hc.handshakeStatus
        key_eq := hc.key_eq
        clientId_eq := hc.clientId_eq
        recvBuffer := hc.recvBuffer
        sendBuffer := hc.sendBuffer.append (records_queueRecord hqueued) }
    obtain ⟨rfl, hc'⟩ := ih hc₁ hne.2 hfeed
    refine ⟨hout, ?_⟩
    rw [List.flatMap_cons, ← List.append_assoc]
    exact hc'

/-- The hello of a session, and the client that waits. -/
theorem hello_spec : ∃ tail inner, inner = tlsVersion ++
      verifyId C x.first.now x.settings.key x.clientId x.clientRng ++ [0x20] ++ x.clientId ++ tail ∧
    x.hello = helloRecord (helloMessage inner) ∧ inner.length < 2 ^ 16 ∧
    (helloMessage inner).length < 2 ^ 16 ∧
    Waits x.settings.key x.clientId ((x.first :: x.queued).flatMap ClientSend.buf) x.waiting := by
  obtain ⟨out, c, outs, hfirst, hqueued, hhello⟩ := feed_cons_eq_ok x.hello_eq
  rw [Client.send, clientEncode, if_neg (by dsimp only; decide), if_neg (by dsimp only; decide)]
    at hfirst
  obtain ⟨queued, hq, hfirst⟩ := bind_eq_ok.1 hfirst
  dsimp only at hfirst
  rw [if_pos rfl] at hfirst
  obtain ⟨tail, inner, hinner, hout, hlt, hlt', rfl⟩ := clientHello_spec hfirst
  have hwaits : Waits x.settings.key x.clientId x.first.buf
      { key := x.settings.key, clientId := x.clientId, rng := (randBytes 18 x.clientRng).2,
        handshakeStatus := 1, sendBuffer := [] ++ queued, recvBuffer := [] } :=
    { handshakeStatus := rfl
      key_eq := rfl
      clientId_eq := rfl
      recvBuffer := rfl
      sendBuffer := records_queueRecord hq }
  obtain ⟨rfl, hwaiting⟩ := hwaits.feed x.queued_ne hqueued
  refine ⟨tail, inner, hinner, ?_, hlt, hlt', hwaiting⟩
  rw [List.append_nil] at hhello
  exact hhello.trans hout

theorem verified_flight : VerifiedFlight C x.settings.key x.clientId x.flight := by
  obtain ⟨rng, hflight⟩ := x.flight_eq
  exact verifiedFlight_serverFlight (s := { new x.settings with clientId := x.clientId })
    x.length_clientId hflight

/-- The answer, read at once, ends the handshake for the client. -/
theorem respond_flight : ClientEnd.respond C x.finish { obj := x.waiting } x.flight =
    .ok ([], { obj := x.ready, sent := x.finished }) := by
  obtain ⟨tail, inner, -, -, -, -, hw⟩ := hello_spec (x := x)
  have hdecode : clientDecode C x.waiting x.flight = (.ok ([], true), x.waiting) := by
    rw [clientDecode, if_neg (by rw [hw.handshakeStatus]; decide),
      if_neg (by rw [hw.handshakeStatus]; decide), hw.key_eq, hw.clientId_eq,
      if_pos verified_flight]
  rw [ClientEnd.respond, hdecode]
  dsimp only
  rw [if_pos rfl, x.finished_eq]
  rfl

/-- A part of it ends the connection. -/
theorem respond_part (hsigned : x.SignedAtEnd) {part : Bytes} (hpart : part <+: x.flight)
    (hne : part ≠ x.flight) :
    ClientEnd.respond C x.finish { obj := x.waiting } part = .error .exception := by
  obtain ⟨tail, inner, -, -, -, -, hw⟩ := hello_spec (x := x)
  have hdecode : clientDecode C x.waiting part = (.error .exception, x.waiting) := by
    rw [clientDecode, if_neg (by rw [hw.handshakeStatus]; decide),
      if_neg (by rw [hw.handshakeStatus]; decide), hw.key_eq, hw.clientId_eq,
      if_neg (hsigned part hpart hne)]
  rw [ClientEnd.respond, hdecode]

/-! ## The hello -/

/-- The server of a session with some bytes in its buffer. -/
def server (x : Session C) (recvBuffer : Bytes) : TlsTicketAuth :=
  { new x.settings with recvBuffer }

/-- The server after the hello. -/
def greeted (x : Session C) : TlsTicketAuth :=
  { new x.settings with
    clientId := x.clientId
    maxTimeDif := x.settings.timeWindow
    handshakeStatus := 9 }

/-- A read that leaves the hello incomplete is kept, -/
theorem respond_wait {a : ServerRecv} {recvBuffer rest : Bytes} (rng : Rng)
    (hrest : rest ≠ []) (h : recvBuffer ++ a.buf ++ rest = x.hello)
    (h3 : (recvBuffer ++ a.buf).length ≠ 3) (h4 : (recvBuffer ++ a.buf).length ≠ 4) :
    ServerEnd.respond C x.answer { obj := x.server recvBuffer, rng } a =
      .ok ([], { obj := x.server (recvBuffer ++ a.buf), rng }) := by
  obtain ⟨tail, inner, -, hhello, -, hlt, -⟩ := hello_spec (x := x)
  have hrecv := recvHello_wait C a.now a.data (s := (x.server recvBuffer).receive a.buf)
    (h.trans hhello) hrest hlt h3 h4
  rw [ServerEnd.respond, serverDecode_hello rfl, hrecv]
  rfl

/-- unless it ends in the length of it. -/
theorem respond_short {a : ServerRecv} {recvBuffer rest : Bytes} {rng : Rng}
    (h : recvBuffer ++ a.buf ++ rest = x.hello)
    (hlen : (recvBuffer ++ a.buf).length = 3 ∨ (recvBuffer ++ a.buf).length = 4) :
    ServerEnd.respond C x.answer { obj := x.server recvBuffer, rng } a = .error .structError := by
  obtain ⟨tail, inner, -, hhello, -, -, -⟩ := hello_spec (x := x)
  have hrecv := recvHello_short C a.now a.data (s := (x.server recvBuffer).receive a.buf)
    (h.trans hhello) hlen
  rw [ServerEnd.respond, serverDecode_hello rfl, hrecv]

/-- The answer of a server that has accepted the hello. -/
theorem serverEncoded_flight {s : TlsTicketAuth} (hs : s.handshakeStatus = 1)
    (hkey : s.key = x.settings.key) (hid : s.clientId = x.clientId) :
    ∃ rng, serverEncoded C x.answer x.serverRng s [] = .ok (x.flight, rng) := by
  obtain ⟨rng, hflight⟩ := x.flight_eq
  have hsame : serverFlight C x.answer x.serverRng s =
      serverFlight C x.answer x.serverRng { new x.settings with clientId := x.clientId } := by
    rw [serverFlight, serverFlight, hkey, hid]
    rfl
  refine ⟨rng, ?_⟩
  rw [serverEncoded, if_neg (by rw [hs]; decide), if_neg (by rw [hasStatus, hs]; decide), hsame,
    hflight]
  rfl

theorem serverEncode_of_one {s : TlsTicketAuth} (hs : s.handshakeStatus = 1) :
    s.serverEncode = { s with handshakeStatus := 9 } := by
  rw [serverEncode, if_neg, setStatus, hs]
  · rfl
  · rintro (h | h)
    · rw [hs] at h
      cases h
    · rw [hasStatus, hs] at h
      cases h

/-- The read that completes the hello is answered. -/
theorem respond_complete {a : ServerRecv} (ha : a ∈ x.helloReads) {recvBuffer : Bytes}
    (h : recvBuffer ++ a.buf = x.hello) :
    ∃ rng, ServerEnd.respond C x.answer { obj := x.server recvBuffer, rng := x.serverRng } a =
      .ok ([], { obj := x.greeted, rng, sent := x.flight }) := by
  obtain ⟨tail, inner, hinner, hhello, hlt, hlt', -⟩ := hello_spec (x := x)
  obtain ⟨data', hrecv⟩ := recvHello_complete (C := C)
    (s := (x.server recvBuffer).receive a.buf) hinner hlt hlt' x.length_clientId (h.trans hhello) (x.inTime a ha) (x.isFresh a ha)
  obtain ⟨rng, hencoded⟩ := serverEncoded_flight (x := x) (s :=
    { (x.server recvBuffer).receive a.buf with
      recvBuffer := []
      handshakeStatus := 1
      clientId := x.clientId
      maxTimeDif := ((x.server recvBuffer).receive a.buf).timeWindow }) rfl rfl rfl
  refine ⟨rng, ?_⟩
  rw [ServerEnd.respond, serverDecode_hello rfl, hrecv]
  dsimp only [helloReturn]
  rw [if_neg (by decide)]
  dsimp only
  rw [if_pos rfl, hencoded]
  dsimp only
  rw [serverEncode_of_one rfl]
  rfl

theorem flatMap_buf_ne_nil {reads : List ServerRecv} (hreads : ∀ a ∈ reads, a ∈ x.helloReads)
    (hne : reads ≠ []) : reads.flatMap ServerRecv.buf ≠ [] := by
  cases reads with
  | nil => exact absurd rfl hne
  | cons a rest =>
    intro h
    exact x.helloReads_ne a (hreads a List.mem_cons_self) (List.append_eq_nil_iff.1 h).1

/-- The hello is accepted when no read ends in the length of it, -/
theorem feed_hello {reads : List ServerRecv} (hreads : ∀ a ∈ reads, a ∈ x.helloReads)
    {recvBuffer : Bytes} (h : recvBuffer ++ reads.flatMap ServerRecv.buf = x.hello)
    (hne : reads ≠ []) (hcut : ∀ before after, reads = before ++ after → before ≠ [] → after ≠ [] →
      (recvBuffer ++ before.flatMap ServerRecv.buf).length ≠ 3 ∧
        (recvBuffer ++ before.flatMap ServerRecv.buf).length ≠ 4) :
    ∃ rng, feed (ServerEnd.respond C x.answer)
      { obj := x.server recvBuffer, rng := x.serverRng } reads =
        .ok ([], { obj := x.greeted, rng, sent := x.flight }) := by
  induction reads generalizing recvBuffer with
  | nil => exact absurd rfl hne
  | cons a rest ih =>
    rw [List.forall_mem_cons] at hreads
    rw [List.flatMap_cons, ← List.append_assoc] at h
    by_cases hrest : rest = []
    · rw [hrest, List.flatMap_nil, List.append_nil] at h
      obtain ⟨rng, hlast⟩ := respond_complete hreads.1 h
      exact ⟨rng, by rw [hrest]; exact feed_singleton hlast⟩
    · obtain ⟨h3, h4⟩ := hcut [a] rest rfl (List.cons_ne_nil _ _) hrest
      rw [List.flatMap_singleton] at h3 h4
      have hwait := respond_wait x.serverRng (flatMap_buf_ne_nil hreads.2 hrest) h h3 h4
      obtain ⟨rng, hfeed⟩ := ih hreads.2 h hrest fun before after heq hb ha => by
        have := hcut (a :: before) after (by rw [heq]; rfl) (List.cons_ne_nil _ _) ha
        rwa [List.flatMap_cons, ← List.append_assoc] at this
      exact ⟨rng, feed_cons hwait hfeed⟩

/-- and the connection ends otherwise. -/
theorem feed_hello_error {reads before after : List ServerRecv}
    (hreads : ∀ a ∈ reads, a ∈ x.helloReads) {recvBuffer : Bytes}
    (h : recvBuffer ++ reads.flatMap ServerRecv.buf = x.hello) (heq : reads = before ++ after)
    (hbefore : before ≠ [])
    (hcut : (recvBuffer ++ before.flatMap ServerRecv.buf).length = 3 ∨
      (recvBuffer ++ before.flatMap ServerRecv.buf).length = 4) :
    ∃ e, feed (ServerEnd.respond C x.answer) { obj := x.server recvBuffer, rng := x.serverRng }
      reads = .error e := by
  induction before generalizing reads recvBuffer with
  | nil => exact absurd rfl hbefore
  | cons a before ih =>
    subst heq
    rw [List.cons_append, List.forall_mem_cons] at hreads
    rw [List.cons_append, List.flatMap_cons, ← List.append_assoc] at h
    by_cases hshort : (recvBuffer ++ a.buf).length = 3 ∨ (recvBuffer ++ a.buf).length = 4
    · exact ⟨.structError, by rw [List.cons_append, feed, respond_short h hshort]⟩
    · rw [not_or] at hshort
      rw [List.flatMap_cons, ← List.append_assoc] at hcut
      by_cases hb : before = []
      · rw [hb, List.flatMap_nil, List.append_nil] at hcut
        exact absurd hcut (not_or.2 hshort)
      · have hrest : (before ++ after).flatMap ServerRecv.buf ≠ [] :=
          flatMap_buf_ne_nil hreads.2 fun hnil => hb (List.append_eq_nil_iff.1 hnil).1
        obtain ⟨e, he⟩ := ih hreads.2 h rfl hb hcut
        refine ⟨e, ?_⟩
        rw [List.cons_append, feed, respond_wait _ hrest h hshort.1 hshort.2]
        dsimp only
        rw [he]

/-! ## The end of the handshake -/

/-- What the client sends after the answer: the messages that end the handshake, and records of all
    its data. -/
theorem finished_spec : ∃ random recs, random.length = 22 ∧
    x.finished ++ x.stream = finishedMessage C x.settings.key x.clientId random ++ recs ∧
    Records recs x.data ∧ x.ready.handshakeStatus = 8 ∧
    x.last.handshakeStatus = 8 ∧ x.last.recvBuffer = [] := by
  obtain ⟨tail, inner, -, -, -, -, hw⟩ := hello_spec (x := x)
  have hfinished := x.finished_eq
  rw [clientEncode_finish hw.handshakeStatus, hw.key_eq, hw.clientId_eq] at hfinished
  obtain ⟨hfin, hready⟩ := Prod.mk.inj (Except.ok.inj hfinished)
  have hstatus : x.ready.handshakeStatus = 8 := by rw [← hready]
  obtain ⟨stream, c, hfeed, hrec, hlast, hbuf⟩ := feed_clientSend (C := C) x.later hstatus
  obtain ⟨rfl, rfl⟩ := Prod.mk.inj (Except.ok.inj (x.stream_eq.symm.trans hfeed))
  refine ⟨(randBytes 22 x.waiting.rng).1, x.waiting.sendBuffer ++ x.stream, length_randBytes _ _,
    ?_, ?_, hstatus, hlast, ?_⟩
  · rw [← hfin, List.append_assoc]
  · rw [data, List.flatMap_append]
    exact hw.sendBuffer.append hrec
  · rw [hbuf, ← hready]
    exact hw.recvBuffer

/-- A server that waits for the end of the handshake, or is ready, and will put out `data`. -/
def Finishing (x : Session C) (rng : Rng) (fut data : Bytes) (s : ServerEnd) : Prop :=
  s.rng = rng ∧ s.sent = [] ∧
    ((∃ recvBuffer random recs, s.obj = { x.greeted with recvBuffer } ∧ random.length = 22 ∧
        recvBuffer ++ fut = finishedMessage C x.settings.key x.clientId random ++ recs ∧
        recvBuffer.length < 43 ∧ 11 ≤ recvBuffer.length ∧ Records recs data) ∨
      (s.obj.Ready ∧ Awaits s.obj.recvBuffer fut data))

/-- A read with which the server has eleven bytes. -/
theorem respond_finished {a : ServerRecv} {recvBuffer fut random recs data : Bytes} {rng : Rng}
    (hrandom : random.length = 22) (hlen : 11 ≤ (recvBuffer ++ a.buf).length)
    (h : recvBuffer ++ a.buf ++ fut =
      finishedMessage C x.settings.key x.clientId random ++ recs) (hrec : Records recs data) :
    ∃ out data' s', ServerEnd.respond C x.answer
        { obj := { x.greeted with recvBuffer }, rng } a = .ok (out, s') ∧ data = out ++ data' ∧
      x.Finishing rng fut data' s' := by
  by_cases hshort : (recvBuffer ++ a.buf).length < 43
  · -- the messages are incomplete
    obtain ⟨l, hl⟩ : finishedHead <+: recvBuffer ++ a.buf := by
      obtain ⟨l, hl⟩ := finishedHead_prefix (C := C) x.settings.key x.clientId random recs
      exact List.prefix_of_prefix_length_le ⟨l, hl.symm⟩ ⟨fut, h⟩ hlen
    have hwait := decodeFinished_wait (C := C) (s := { x.greeted with recvBuffer }) hl.symm
      hshort
    refine ⟨[], data, { obj := { x.greeted with recvBuffer := recvBuffer ++ a.buf }, rng }, ?_, rfl,
      rfl, rfl, .inl ⟨_, random, recs, rfl, hrandom, h, hshort, hlen, hrec⟩⟩
    rw [ServerEnd.respond, serverDecode_finished rfl, hwait]
    rfl
  · obtain ⟨more, hmore⟩ : ∃ more, recvBuffer ++ a.buf =
        finishedMessage C x.settings.key x.clientId random ++ more := by
      rcases prefix_or_prefix h with ⟨hp, hne⟩ | ⟨more, hmore, -⟩
      · refine absurd (hp.eq_of_length_le ?_) hne
        rw [length_finishedMessage hrandom]
        omega
      · exact ⟨more, hmore⟩
    rw [hmore, List.append_assoc] at h
    have hcomplete := decodeFinished_complete (C := C) (s := { x.greeted with recvBuffer }) hrandom
      hmore
    rw [← List.append_cancel_left h, ← List.append_nil more] at hrec
    obtain ⟨out, data', buf, happ, hdata, hawaits⟩ := decodeAppData_spec
      (s := { x.greeted with recvBuffer := more }.setStatus 4) hrec
    obtain ⟨hdecodes, hencodes⟩ := ready_setStatus (s := { x.greeted with recvBuffer := more }) rfl
    refine ⟨out, data',
      { obj := { ({ x.greeted with recvBuffer := more }.setStatus 4) with recvBuffer := buf }, rng },
      ?_, hdata, rfl, rfl, .inr ⟨⟨hdecodes, hencodes⟩, hawaits⟩⟩
    rw [ServerEnd.respond, serverDecode_finished rfl, hcomplete, happ]
    rfl

/-- Any read after it. -/
theorem Finishing.respond {rng : Rng} {a : ServerRecv} {fut data : Bytes} {s : ServerEnd}
    (h : x.Finishing rng (a.buf ++ fut) data s) :
    ∃ out data' s', ServerEnd.respond C x.answer s a = .ok (out, s') ∧ data = out ++ data' ∧
      x.Finishing rng fut data' s' := by
  obtain ⟨obj, rng', sent⟩ := s
  obtain ⟨rfl, rfl, ⟨recvBuffer, random, recs, hobj, hrandom, happ, -, hlen, hrec⟩ |
    ⟨hready, hrec, -⟩⟩ := h
  · dsimp only at hobj
    subst hobj
    rw [← List.append_assoc] at happ
    refine respond_finished hrandom ?_ happ hrec
    rw [List.length_append]
    omega
  · rw [← List.append_assoc] at hrec
    obtain ⟨out, data', recvBuffer, hdecode, hdata, hawaits⟩ := decodeAppData_spec hrec
    refine ⟨out, data', { obj := { obj with recvBuffer }, rng := rng' }, ?_, hdata, rfl, rfl,
      .inr ⟨⟨hready.decodes, hready.encodes⟩, hawaits⟩⟩
    rw [ServerEnd.respond, serverDecode_ready hready, hdecode]
    rfl

/-- When the first read has eleven bytes, the server comes to the phase of the data, -/
theorem feed_finished (rng : Rng) (h : ∀ a ∈ x.finishedReads.head?, 11 ≤ a.buf.length) :
    ∃ s, feed (ServerEnd.respond C x.answer) { obj := x.greeted, rng } x.finishedReads =
      .ok (x.data, { obj := s, rng }) ∧ s.Ready := by
  obtain ⟨random, recs, hrandom, hfin, hrec, -⟩ := finished_spec (x := x)
  rw [← x.finishedReads_eq] at hfin
  cases hreads : x.finishedReads with
  | nil =>
    have hlen := congrArg List.length hfin
    rw [hreads, List.length_append, length_finishedMessage hrandom, List.flatMap_nil,
      List.length_nil] at hlen
    omega
  | cons a rest =>
    rw [hreads, List.flatMap_cons] at hfin
    have hfirst : 11 ≤ a.buf.length := h a (by rw [hreads]; rfl)
    obtain ⟨out, data₁, s₁, hrespond, hdata, hs₁⟩ :=
      respond_finished (x := x) (a := a) hrandom (show 11 ≤ ([] ++ a.buf).length from hfirst) hfin
        hrec
    obtain ⟨outs, data₂, s₂, hfeed, hdata₂, hrng, hsent, hcases⟩ :=
      feed_spec _ ServerRecv.buf (I := x.Finishing rng) Finishing.respond hs₁
    obtain ⟨obj, rng', sent⟩ := s₂
    subst hrng hsent
    rcases hcases with ⟨recvBuffer, random', recs', -, hrandom', happ, hlt, -⟩ |
      ⟨hready, -, hnil⟩
    · -- all of the messages have come
      have hlen := congrArg List.length happ
      rw [List.append_nil, List.length_append, length_finishedMessage hrandom'] at hlen
      omega
    · refine ⟨obj, ?_, hready⟩
      rw [hdata, hdata₂, (hnil rfl).2, List.append_nil]
      exact feed_cons hrespond hfeed

/-- and the connection ends otherwise. -/
theorem feed_finished_error (rng : Rng) {a : ServerRecv} {rest : List ServerRecv}
    (h : a.buf.length < 11) :
    feed (ServerEnd.respond C x.answer) { obj := x.greeted, rng } (a :: rest) =
      .error .exception := by
  have hshort := decodeFinished_short (C := C) (s := x.greeted) h
  rw [feed, ServerEnd.respond, serverDecode_finished rfl, hshort]

/-! ## The handshake -/

theorem nil_append_helloReads : [] ++ x.helloReads.flatMap ServerRecv.buf = x.hello :=
  x.helloReads_eq

theorem helloReads_ne_nil : x.helloReads ≠ [] := by
  obtain ⟨tail, inner, -, hhello, -⟩ := hello_spec (x := x)
  intro h
  have := x.helloReads_eq
  rw [h, hhello] at this
  cases this

/-- With unbroken reads the handshake ends, and all data is delivered. -/
theorem survives_of_unbroken (h : x.Unbroken) : x.Survives := by
  obtain ⟨-, -, -, -, -, hready, hlast, hbuf⟩ := finished_spec (x := x)
  obtain ⟨rng, hhello⟩ := feed_hello (fun _ => id) nil_append_helloReads helloReads_ne_nil
    fun before after heq _ hafter => h.hello before after heq hafter
  obtain ⟨s, hfinished, hs⟩ := feed_finished (x := x) rng h.finished
  refine ⟨x.greeted, rng, s, hhello, ?_, hfinished, hready, hs, fun sends => ?_⟩
  · rw [h.flight]
    exact feed_singleton respond_flight
  · obtain ⟨stream, s', hfeed, hrec⟩ := feed_serverSend (C := C) sends hs rng
    refine ⟨stream, s', hfeed, fun chunks hchunks => ?_⟩
    obtain ⟨c, hc, -⟩ := feed_clientRecv (C := C) hlast (by
      rw [hbuf, hchunks]
      exact awaits_of_records hrec)
    exact ⟨c, hc⟩

/-- When the handshake ends, the reads were unbroken. -/
theorem unbroken_of_survives (hsigned : x.SignedAtEnd) (h : x.Survives) : x.Unbroken := by
  obtain ⟨s₁, rng₁, s₂, hhello, hflight, hfinished, -⟩ := h
  have hcut : ∀ before after, x.helloReads = before ++ after → after ≠ [] →
      (before.flatMap ServerRecv.buf).length ≠ 3 ∧ (before.flatMap ServerRecv.buf).length ≠ 4 := by
    intro before after heq _
    rw [← not_or]
    intro hcut
    have hbefore : before ≠ [] := by
      rintro rfl
      simp at hcut
    obtain ⟨e, he⟩ := feed_hello_error (fun _ => id) nil_append_helloReads heq hbefore hcut
    cases he.symm.trans hhello
  refine ⟨hcut, ?_, fun a ha => ?_⟩
  · cases hreads : x.flightReads with
    | nil =>
      have hflat := x.flightReads_eq
      have hlen := (verified_flight (x := x)).1
      rw [← hflat, hreads] at hlen
      exact absurd hlen (by decide)
    | cons part rest =>
      have hflat := x.flightReads_eq
      rw [hreads, List.flatten_cons] at hflat
      by_cases hpart : part = x.flight
      · rw [hpart] at hflat
        have hnil : rest.flatten = [] := List.append_cancel_left (hflat.trans (List.append_nil _).symm)
        cases rest with
        | nil => rw [hpart]
        | cons buf rest =>
          refine absurd (List.append_eq_nil_iff.1 hnil).1 (x.flightReads_ne buf ?_)
          rw [hreads]
          simp
      · rw [hreads, feed, respond_part hsigned ⟨_, hflat⟩ hpart] at hflight
        cases hflight
  · by_contra hlt
    obtain ⟨rng, hgreeted⟩ := feed_hello (fun _ => id) nil_append_helloReads helloReads_ne_nil
      fun before after heq _ hafter => hcut before after heq hafter
    cases hgreeted.symm.trans hhello
    obtain ⟨rest, hreads⟩ := List.head?_eq_some_iff.1 ha
    rw [hreads, feed_finished_error rng₁ (not_le.1 hlt)] at hfinished
    cases hfinished

/-- The handshake survives exactly the unbroken reads, unless a part of the answer is signed. -/
theorem survives_iff (x : Session C) :
    (x.Unbroken → x.Survives) ∧ (x.SignedAtEnd → x.Survives → x.Unbroken) :=
  ⟨survives_of_unbroken, unbroken_of_survives⟩

/-- What a call returns that does not raise. -/
def returned {ε α : Type} (r : Except ε α) (h : r.toOption.isSome) : α := r.toOption.get h

theorem eq_returned {ε α : Type} {r : Except ε α} (h : r.toOption.isSome) :
    r = .ok (returned r h) := by
  cases r with
  | error e => cases h
  | ok a => rfl

/-- The calls of a client that sends one byte. -/
def oneByte : Except PyExc (Bytes × Client) :=
  feed (Client.send plainCrypto)
    { key := [1], clientId := List.replicate 32 2, rng := fun _ => 7 } [⟨0, [], [], [9]⟩]

theorem oneByte_ok : oneByte.toOption.isSome = true := by decide +kernel

/-- The answer to it. -/
def oneByteFlight : Except PyExc (Bytes × Rng) :=
  serverFlight plainCrypto 0 (fun _ => 3)
    { new ⟨.ticketAuth, [1], [], 0⟩ with clientId := List.replicate 32 2 }

theorem oneByteFlight_ok : oneByteFlight.toOption.isSome = true := by decide +kernel

/-- The end of the handshake. -/
def oneByteFinished : Except PyExc (Bytes × Client) :=
  clientEncode plainCrypto 0 [] [] (returned oneByte oneByte_ok).2 []

theorem oneByteFinished_ok : oneByteFinished.toOption.isSome = true := by decide +kernel

theorem length_oneByte : (returned oneByte oneByte_ok).1.length = 191 := by decide +kernel

/-- A session that sends one byte, with a hello in two reads and flights in one. -/
def inTwoReads (n : ℕ) (h₀ : 0 < n) (h₁ : n < 191) : Session plainCrypto where
  settings := ⟨.ticketAuth, [1], [], 0⟩
  clientId := List.replicate 32 2
  clientRng := fun _ => 7
  serverRng := fun _ => 3
  length_clientId := List.length_replicate
  first := ⟨0, [], [], [9]⟩
  queued := []
  queued_ne := fun _ h => absurd h List.not_mem_nil
  hello := (returned oneByte oneByte_ok).1
  waiting := (returned oneByte oneByte_ok).2
  hello_eq := eq_returned oneByte_ok
  helloReads := [⟨0, .empty, (returned oneByte oneByte_ok).1.take n⟩,
    ⟨0, .empty, (returned oneByte oneByte_ok).1.drop n⟩]
  helloReads_eq := by simp
  helloReads_ne := by
    have hlen := length_oneByte
    simp only [List.forall_mem_cons, ne_eq, List.take_eq_nil_iff, List.drop_eq_nil_iff, hlen]
    refine ⟨?_, by omega, fun _ h => absurd h List.not_mem_nil⟩
    rintro (h | h)
    · omega
    · rw [h] at hlen
      cases hlen
  inTime := by
    simp only [List.forall_mem_cons]
    exact ⟨by decide +kernel, by decide +kernel, fun _ h => absurd h List.not_mem_nil⟩
  isFresh := by
    simp only [List.forall_mem_cons]
    exact ⟨rfl, rfl, fun _ h => absurd h List.not_mem_nil⟩
  answer := 0
  flight := (returned oneByteFlight oneByteFlight_ok).1
  flight_eq := ⟨_, eq_returned oneByteFlight_ok⟩
  flightReads := [(returned oneByteFlight oneByteFlight_ok).1]
  flightReads_eq := by simp
  flightReads_ne := by
    rw [List.forall_mem_singleton]
    decide +kernel
  finish := ⟨0, [], [], []⟩
  finished := (returned oneByteFinished oneByteFinished_ok).1
  ready := (returned oneByteFinished oneByteFinished_ok).2
  finished_eq := eq_returned oneByteFinished_ok
  later := []
  stream := []
  last := (returned oneByteFinished oneByteFinished_ok).2
  stream_eq := rfl
  finishedReads := [⟨0, .empty, (returned oneByteFinished oneByteFinished_ok).1⟩]
  finishedReads_eq := by simp
  finishedReads_ne := by
    rw [List.forall_mem_singleton]
    decide +kernel

/-- A first read of five bytes. -/
theorem survives_iff_five : (inTwoReads 5 (by decide) (by decide)).Survives := by
  refine (survives_iff (inTwoReads 5 (by decide) (by decide))).1 ⟨fun before after h hafter => ?_,
    rfl, fun a ha => ?_⟩
  · rcases before with _ | ⟨a, _ | ⟨b, before⟩⟩
    · exact ⟨by decide, by decide⟩
    · obtain ⟨rfl, -⟩ := List.cons.inj h
      simp [length_oneByte]
    · have hnil := (List.cons.inj (List.cons.inj h).2).2
      exact absurd (List.append_eq_nil_iff.1 hnil.symm).2 hafter
  · cases ha
    decide +kernel

/-- A first read of three bytes. -/
theorem not_survives : ¬(inTwoReads 3 (by decide) (by decide)).Survives := by
  rintro ⟨s₁, rng₁, s₂, hhello, -⟩
  have hreads : (inTwoReads 3 (by decide) (by decide)).helloReads =
      [⟨0, .empty, (returned oneByte oneByte_ok).1.take 3⟩] ++
        [⟨0, .empty, (returned oneByte oneByte_ok).1.drop 3⟩] := rfl
  obtain ⟨e, he⟩ := feed_hello_error (fun _ => id) nil_append_helloReads hreads
    (List.cons_ne_nil _ _) (.inl (by simp [length_oneByte]))
  cases he.symm.trans hhello

end Session

end TlsTicketAuth

end ShadowsocksR

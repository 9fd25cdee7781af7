import ShadowsocksR.AuthChain.Handshake
import ShadowsocksR.Lib.Run

/-!
# The round trip of an auth_chain connection

A connection between a client and a server that have the same key, both of which
send and receive, the streams of the two directions being cut anywhere
(`Duplex`).

* `Phase`: before the handshake, during it and after it;
* `Phase.step`: an event leads from phase to phase, and no call raises;
* `round_trip`: what comes out is what has gone in, in both directions, as long
  as the server packs at most `2 ^ 32` frames.
-/

namespace ShadowsocksR

namespace AuthChain

open AuthBase Encryptor

/-- The configuration of a client and of a server, with the same key, iv and overhead, and with
    the user of the client in the table of the server. -/
structure Setup where
  method : Method
  noCompatible : Bool
  key : Bytes
  iv : Bytes
  overhead : ℕ
  users : Dict Bytes Bytes
  client : ServerInfo
  server : ServerInfo
  method_ne : method ≠ .f
  client_eq : client.key = key ∧ client.iv = iv ∧ client.overhead = overhead
  server_eq : server.key = key ∧ server.recvIv = iv ∧ server.overhead = overhead
  registered : Registered users client
  /-- The client packs the number in two bytes. -/
  overhead_lt : overhead < 2 ^ 16

/-- The two objects, the bytes on their way in both directions, what has gone into each direction
    and come out of it, the number of frames that the server has packed, and the clock of the
    client when it sent its header. -/
structure Duplex where
  client : AuthChain
  server : AuthChain
  up : Bytes := []
  down : Bytes := []
  sentUp : Bytes := []
  gotUp : Bytes := []
  sentDown : Bytes := []
  gotDown : Bytes := []
  frames : ℕ := 0
  clock : Time := 0

/-- What can happen: either end sends a buffer, or receives a chunk of what is on its way. For the
    server a chunk comes with the shared data of that time. -/
inductive Event
  | clientSend (now : Time) (buf : Bytes)
  | serverSend (buf : Bytes)
  | clientRecv (n : ℕ)
  | serverRecv (now : Time) (data : ObfsAuthChainData) (n : ℕ)

namespace Duplex

/-- A connection at its beginning. -/
def init (S : Setup) (localData : LocalData) (rng rng' : Rng) : Duplex where
  client := new S.method S.noCompatible S.client localData rng
  server := new S.method S.noCompatible S.server .new rng'

/-- One event; there is no state after it when the call raises or does not return. -/
def step (C : Crypto) (S : Setup) (d : Duplex) : Event → Option Duplex
  | .clientSend now buf =>
    match clientPreEncrypt C (buf.length + 1) now d.client buf with
    | .done t => some { d with
        client := t.obj
        up := d.up ++ t.ret
        sentUp := d.sentUp ++ buf
        clock := if d.client.hasSentHeader then d.clock else now }
    | _ => none
  | .serverSend buf =>
    match serverPreEncrypt C (buf.length + 3) d.server buf with
    | .done t => some { d with
        server := t.obj
        down := d.down ++ t.ret
        sentDown := d.sentDown ++ buf
        frames := d.frames + serverPieces S.server.tcpMss S.overhead d.frames buf.length }
    | _ => none
  | .clientRecv n =>
    match clientPostDecrypt C d.client (d.down.take n) with
    | (.ok out, client) => some { d with
        client, down := d.down.drop n, gotDown := d.gotDown ++ out }
    | _ => none
  | .serverRecv now data n =>
    match serverPostDecrypt C now S.users data d.server (d.up.take n) with
    | (.ok (out, _), server, _) => some { d with
        server, up := d.up.drop n, gotUp := d.gotUp ++ out }
    | _ => none

/-- Buffers are not empty; the server sends after the handshake, with a `tcp_mss` as it can be; and
    when it has received all of the header, it accepts it. -/
def Allowed (S : Setup) (d : Duplex) : Event → Prop
  | .clientSend _ buf => buf ≠ []
  | .serverSend buf => buf ≠ [] ∧ d.server.hasRecvHeader = true ∧
      501 ≤ S.server.tcpMss ∧ S.server.tcpMss ≤ 1500 ∧ S.overhead + 2 ≤ S.server.tcpMss
  | .clientRecv _ => True
  | .serverRecv now data n => d.server.hasRecvHeader = false →
      36 ≤ (d.server.recvBuf ++ d.up.take n).length →
      Accepts now data (paramUserId S.client.protocolParam) d.clock d.client.localData

/-- The server packs no more than `2 ^ 32` frames. -/
def Bounded (S : Setup) (d : Duplex) : Event → Prop
  | .serverSend buf =>
      d.frames + serverPieces S.server.tcpMss S.overhead d.frames buf.length ≤ 2 ^ 32
  | _ => True

variable (C : Crypto) (S : Setup)

/-! ## Phases -/

/-- The session that a header opens between the two ends. -/
def session (h : Header) : Session :=
  sessionOf C S.method S.key S.overhead (S.iv ++ S.key) h

/-- Nothing has been sent. -/
structure Idle (d : Duplex) : Prop where
  client : Fresh S.method S.client d.client
  server : Fresh S.method S.server d.server
  clientBuf : d.client.recvBuf = []
  serverBuf : d.server.recvBuf = []
  up : d.up = [] ∧ d.sentUp = [] ∧ d.gotUp = []
  down : d.down = [] ∧ d.sentDown = [] ∧ d.gotDown = []
  frames : d.frames = 0

/-- The client is open, and sends its buffers in one way. -/
structure Client (h : Header) (out inn : Lane) (s : AuthChain) : Prop where
  isOpen : ClientOpen C (session C S h) out inn s
  hasSentHeader : s.hasSentHeader = true
  unitLen : s.unitLen = 2800
  rawTrans : s.rawTrans = false

/-- The client has sent its header `h`, of which the server has received a part. -/
structure Greeting (h : Header) (up : Lane) (fs : List Frame) (d : Duplex) : Prop where
  client : Client C S h up (startDown C (S.iv ++ S.key) S.method.salt h) d.client
  server : Fresh S.method S.server d.server
  clientBuf : d.client.recvBuf = []
  knows : Knows S.users S.key h.uid h.userKey (paramUserId S.client.protocolParam)
  greets : Greets h d.clock d.client.localData S.overhead
  upBuf : d.server.recvBuf ++ d.up = h.bytes C (S.iv ++ S.key) S.method.salt ++ wire fs
  short : d.server.recvBuf.length < 36
  upChain : Chain C (session C S h) CarriesUp (startUp C (S.iv ++ S.key) h) fs up
  upData : carried fs = d.sentUp ∧ d.gotUp = []
  down : d.down = [] ∧ d.sentDown = [] ∧ d.gotDown = []
  frames : d.frames = 0

/-- The server has received the header: the frames `fsUp` and `fsDown` are on their way, between
    the states `upR` and `upS`, `downR` and `downS` of the lanes. -/
structure Connected (h : Header) (upR upS downR downS : Lane) (fsUp fsDown : List Frame)
    (d : Duplex) : Prop where
  client : Client C S h upS downR d.client
  server : ServerOpen C (session C S h) downS upR d.server
  hasRecvHeader : d.server.hasRecvHeader = true
  rawTrans : d.server.rawTrans = false
  tcpMss : d.server.serverInfo.tcpMss = S.server.tcpMss
  clientOverHead : d.server.clientOverHead = S.overhead
  unitLen : 0 < downS.count → d.server.unitLen = (serverUnit S.server.tcpMss S.overhead : ℕ)
  frames : downS.count = d.frames
  frames_le : d.frames ≤ 2 ^ 32
  upBuf : d.server.recvBuf ++ d.up = wire fsUp
  upChain : Chain C (session C S h) CarriesUp upR fsUp upS
  upData : d.gotUp ++ carried fsUp = d.sentUp
  upDone : d.up = [] → carried fsUp = []
  downBuf : d.client.recvBuf ++ d.down = wire fsDown
  downChain : Chain C (session C S h) (CarriesDown S.server.tcpMss) downR fsDown downS
  downData : d.gotDown ++ carried fsDown = d.sentDown
  downDone : d.down = [] → carried fsDown = []
  downMss : 0 < downR.count → d.client.serverInfo.tcpMss = S.server.tcpMss
  downFirst : downR.count = 0 → d.gotDown = []

/-- A connection is in one of three phases. -/
inductive Phase : Duplex → Prop
  | idle {d : Duplex} : Idle S d → Phase d
  | greeting {d : Duplex} {h : Header} {up : Lane} {fs : List Frame} :
      Greeting C S h up fs d → Phase d
  | connected {d : Duplex} {h : Header} {upR upS downR downS : Lane} {fsUp fsDown : List Frame} :
      Connected C S h upR upS downR downS fsUp fsDown d → Phase d

variable {C S} {d : Duplex}

theorem phase_init (localData : LocalData) (rng rng' : Rng) :
    Phase C S (init S localData rng rng') :=
  .idle ⟨fresh_new _ _ _ _ _, fresh_new _ _ _ _ _, rfl, rfl, ⟨rfl, rfl, rfl⟩, ⟨rfl, rfl, rfl⟩, rfl⟩

/-! ## Steps of the client -/

/-- A client that sends a buffer stays open. -/
theorem Client.send {h : Header} {out inn : Lane} (hc : Client C S h out inn d.client) (now : Time)
    (buf : Bytes) :
    ∃ t fs out', clientPreEncrypt C (buf.length + 1) now d.client buf = .done t ∧ t.ret = wire fs ∧
      Chain C (session C S h) CarriesUp out fs out' ∧ carried fs = buf ∧ wire fs ≠ [] ∧
      Client C S h out' inn t.obj ∧ ClientKept d.client t.obj := by
  obtain ⟨t, fs, out', ht, hret, hch, hcar, hne, hopen, hk⟩ :=
    clientPreEncrypt_spec S.method_ne hc.isOpen hc.hasSentHeader hc.unitLen now buf
  have hkept := hk
  rw [ClientKept] at hkept
  refine ⟨t, fs, out', ht, hret, hch, hcar, ?_, ⟨hopen, ?_, ?_, ?_⟩, hk⟩
  · cases fs with
    | nil => exact absurd rfl hne
    | cons f fs =>
      intro hw
      exact hch.bytes_ne_nil f List.mem_cons_self (List.append_eq_nil_iff.1 hw).1
  · rw [hkept]; exact hc.hasSentHeader
  · rw [hkept]; exact hc.unitLen
  · rw [hkept]; exact hc.rawTrans

theorem Idle.clientSend (hd : Idle S d) (now : Time) (buf : Bytes) :
    ∃ d', d.step C S (.clientSend now buf) = some d' ∧ Phase C S d' := by
  obtain ⟨hk, hi, ho⟩ := S.client_eq
  obtain ⟨h, t, fs, up, ht, hret, hch, hcar, hopen, hknows, hg, hsent, hunit, hraw, hbuf⟩ :=
    clientPreEncrypt_hello (C := C) S.method_ne S.registered (by rw [ho]; exact S.overhead_lt)
      hd.client now buf
  rw [hk, hi, ho] at hch hopen
  rw [hk, hi] at hret
  rw [hk] at hknows
  rw [ho] at hg
  rw [step, ht]
  refine ⟨_, rfl, @Phase.greeting C S _ h up fs
    ⟨⟨hopen, hsent, hunit, hraw⟩, hd.server, hbuf.trans hd.clientBuf, hknows, ?_, ?_, ?_, hch, ?_,
      hd.down, hd.frames⟩⟩
  · rw [if_neg (by rw [hd.client.hasSentHeader_eq]; decide)]
    exact hg
  · rw [hd.serverBuf, hd.up.1, hret]; rfl
  · rw [hd.serverBuf]; decide
  · exact ⟨by rw [hcar, hd.up.2.1]; rfl, hd.up.2.2⟩

theorem Greeting.clientSend {h : Header} {up : Lane} {fs : List Frame}
    (hd : Greeting C S h up fs d) (now : Time) (buf : Bytes) :
    ∃ d', d.step C S (.clientSend now buf) = some d' ∧ Phase C S d' := by
  obtain ⟨t, fs', up', ht, hret, hch, hcar, -, hopen, hk⟩ := hd.client.send now buf
  rw [ClientKept] at hk
  rw [step, ht]
  refine ⟨_, rfl, @Phase.greeting C S _ h up' (fs ++ fs')
    ⟨hopen, hd.server, ?_, hd.knows, ?_, ?_, hd.short, hd.upChain.append hch, ?_, hd.down,
      hd.frames⟩⟩
  · rw [hk]; exact hd.clientBuf
  · rw [if_pos hd.client.hasSentHeader, hk]
    exact hd.greets
  · rw [← List.append_assoc, hd.upBuf, hret, wire_append, List.append_assoc]
  · exact ⟨by rw [carried_append, hd.upData.1, hcar], hd.upData.2⟩

variable {h : Header} {upR upS downR downS : Lane} {fsUp fsDown : List Frame}

theorem Connected.clientSend (hd : Connected C S h upR upS downR downS fsUp fsDown d) (now : Time)
    (buf : Bytes) : ∃ d', d.step C S (.clientSend now buf) = some d' ∧ Phase C S d' := by
  obtain ⟨t, fs, up, ht, hret, hch, hcar, hne, hopen, hk⟩ := hd.client.send now buf
  rw [ClientKept] at hk
  rw [step, ht]
  refine ⟨_, rfl, @Phase.connected C S _ h upR up downR downS (fsUp ++ fs) fsDown
    { hd with
      client := hopen
      upBuf := ?_
      upChain := hd.upChain.append hch
      upData := ?_
      upDone := ?_
      downBuf := ?_
      downMss := ?_ }⟩
  · rw [← List.append_assoc, hd.upBuf, hret, wire_append]
  · rw [carried_append, ← List.append_assoc, hd.upData, hcar]
  · intro hup
    rw [hret] at hup
    exact absurd (List.append_eq_nil_iff.1 hup).2 hne
  · rw [hk]; exact hd.downBuf
  · rw [hk]; exact hd.downMss

/-- A client with nothing on its way receives nothing. -/
theorem clientRecv_nil (hraw : d.client.rawTrans = false) (hbuf : d.client.recvBuf = [])
    (hdown : d.down = []) (n : ℕ) : d.step C S (.clientRecv n) = some d := by
  rw [step, hdown, List.take_nil, clientPostDecrypt_nil hraw hbuf, List.drop_nil]
  simp only [List.append_nil]
  rw [← hdown]

theorem Connected.clientRecv (hd : Connected C S h upR upS downR downS fsUp fsDown d) (n : ℕ) :
    ∃ d', d.step C S (.clientRecv n) = some d' ∧ Phase C S d' := by
  have hopen : ClientOpen C (session C S h) upS downR
      { d.client with recvBuf := d.client.recvBuf ++ d.down.take n } :=
    hd.client.isOpen.setRecvBuf _
  obtain ⟨done, todo, t, downR', hfs, hloop, hout, hopen', hch, hbuf, hfin, hmss, hk⟩ :=
    clientLoop_spec hopen hd.downChain (by rw [hd.frames]; exact hd.frames_le) hd.downMss
      (d.down.drop n) (by
        simp only [List.append_assoc, List.take_append_drop]
        exact hd.downBuf)
  obtain ⟨buf, l, random, e, tcpMss, hk⟩ := hk
  rw [step, clientPostDecrypt_of_done hd.client.rawTrans hloop]
  refine ⟨_, rfl, @Phase.connected C S _ h upR upS downR' downS fsUp todo
    { hd with
      client := ⟨hopen', ?_, ?_, ?_⟩
      downBuf := hbuf
      downChain := hch
      downData := ?_
      downDone := hfin
      downMss := hmss
      downFirst := ?_ }⟩
  · rw [hk]; exact hd.client.hasSentHeader
  · rw [hk]; exact hd.client.unitLen
  · rw [hk]; exact hd.client.rawTrans
  · rw [hout, List.append_assoc, ← carried_append, ← hfs, hd.downData]
  · intro hz
    have hcount := hd.downChain.count_eq
    have hcount' := hch.count_eq
    rw [hfs, List.length_append] at hcount
    obtain rfl : done = [] := List.length_eq_zero_iff.1 (by omega)
    rw [hout, hd.downFirst (by simp at hcount; omega)]
    rfl

/-! ## Steps of the server -/

theorem Connected.serverSend_of_mss (hd : Connected C S h upR upS downR downS fsUp fsDown d)
    (hmss : S.server.tcpMss ≤ 1500) (hover : S.overhead + 2 ≤ S.server.tcpMss) {buf : Bytes}
    (hb : d.Bounded S (.serverSend buf)) :
    ∃ d', d.step C S (.serverSend buf) = some d' ∧ Phase C S d' := by
  have hpos : 0 < serverPieces S.server.tcpMss S.overhead d.frames buf.length := Nat.succ_pos _
  rw [Bounded] at hb
  have hcount := hd.frames
  obtain ⟨t, fs, downS', ht, hret, hch, hcar, hlen, hopen, hk⟩ :=
    serverPreEncrypt_spec (C := C) (P := session C S h) S.method_ne hd.server hd.rawTrans
      (by rw [hd.tcpMss]; exact hmss) (by rw [hd.tcpMss, hd.clientOverHead]; exact hover)
      (by omega) (by rw [hd.tcpMss, hd.clientOverHead]; exact hd.unitLen) buf
  rw [hd.tcpMss, hd.clientOverHead] at hlen hk
  rw [hd.tcpMss] at hch
  rw [ServerKept] at hk
  have hcount' := hch.count_eq
  rw [hlen, hcount] at hcount'
  have hne : wire fs ≠ [] := by
    cases fs with
    | nil => rw [hcount] at hlen; simp only [List.length_nil] at hlen; omega
    | cons f fs =>
      intro hw
      exact hch.bytes_ne_nil f List.mem_cons_self (List.append_eq_nil_iff.1 hw).1
  rw [step, ht]
  refine ⟨_, rfl, @Phase.connected C S _ h upR upS downR downS' fsUp (fsDown ++ fs)
    { hd with
      server := hopen
      hasRecvHeader := ?_
      rawTrans := ?_
      tcpMss := ?_
      clientOverHead := ?_
      unitLen := ?_
      frames := ?_
      frames_le := hb
      upBuf := ?_
      downBuf := ?_
      downChain := hd.downChain.append hch
      downData := ?_
      downDone := ?_ }⟩
  · rw [hk]; exact hd.hasRecvHeader
  · rw [hk]; exact hd.rawTrans
  · rw [hk]; exact hd.tcpMss
  · rw [hk]
  · rw [hk]; exact fun _ => rfl
  · exact hcount'
  · rw [hk]; exact hd.upBuf
  · rw [← List.append_assoc, hd.downBuf, hret, wire_append]
  · rw [carried_append, ← List.append_assoc, hd.downData, hcar]
  · intro hdown
    rw [hret] at hdown
    exact absurd (List.append_eq_nil_iff.1 hdown).2 hne

theorem Connected.serverSend (hd : Connected C S h upR upS downR downS fsUp fsDown d) {buf : Bytes}
    (ha : d.Allowed S (.serverSend buf)) (hb : d.Bounded S (.serverSend buf)) :
    ∃ d', d.step C S (.serverSend buf) = some d' ∧ Phase C S d' :=
  hd.serverSend_of_mss ha.2.2.2.1 ha.2.2.2.2 hb

theorem Connected.serverRecv (hd : Connected C S h upR upS downR downS fsUp fsDown d) (now : Time)
    (data : ObfsAuthChainData) (n : ℕ) :
    ∃ d', d.step C S (.serverRecv now data n) = some d' ∧ Phase C S d' := by
  have hopen : ServerOpen C (session C S h) downS upR
      { d.server with recvBuf := d.server.recvBuf ++ d.up.take n } := hd.server.setRecvBuf _
  obtain ⟨done, todo, t, upR', hfs, hloop, hout, hopen', hch, hbuf, hfin, hk⟩ :=
    serverLoop_spec hopen hd.upChain (d.up.drop n) (by
        simp only [List.append_assoc, List.take_append_drop]
        exact hd.upBuf) false
  obtain ⟨data', hpost⟩ := serverPostDecrypt_of_done now S.users data
    hd.rawTrans hd.hasRecvHeader hloop
  obtain ⟨buf, l, random, e, hk⟩ := hk
  rw [step, hpost]
  refine ⟨_, rfl, @Phase.connected C S _ h upR' upS downR downS todo fsDown
    { hd with
      server := hopen'
      hasRecvHeader := ?_
      rawTrans := ?_
      tcpMss := ?_
      clientOverHead := ?_
      unitLen := ?_
      upBuf := hbuf
      upChain := hch
      upData := ?_
      upDone := hfin }⟩
  · rw [hk]; exact hd.hasRecvHeader
  · rw [hk]; exact hd.rawTrans
  · rw [hk]; exact hd.tcpMss
  · rw [hk]; exact hd.clientOverHead
  · rw [hk]; exact hd.unitLen
  · rw [hout, List.append_assoc, ← carried_append, ← hfs, hd.upData]

theorem Idle.serverRecv (hd : Idle S d) (now : Time) (data : ObfsAuthChainData) (n : ℕ) :
    d.step C S (.serverRecv now data n) = some d := by
  have hs : { d.server with recvBuf := d.server.recvBuf ++ [] } = d.server := by
    rw [List.append_nil]
  have hopen : d.server.openHeader C d.server.method.salt S.users =
      (.error (.ok ([], false)), d.server.toAuthBase) := by
    rw [openHeader, if_neg, if_pos (by rw [hd.serverBuf]; decide)]
    rintro ⟨hlen, -⟩
    rw [hd.serverBuf] at hlen
    exact absurd hlen (by decide)
  have hr : recvHeader C now S.users data d.server =
      (.error (.ok ([], false)), d.server, data) := by
    rw [recvHeader, hopen]
  rw [← hs] at hr
  have hpost := serverPostDecrypt_of_error [] hd.server.rawTrans_eq
    hd.server.hasRecvHeader_eq hr
  rw [hs] at hpost
  rw [step, hd.up.1, List.take_nil, hpost, List.drop_nil]
  simp only [List.append_nil]
  rw [← hd.up.1]

theorem Greeting.serverRecv {up : Lane} {fs : List Frame} (hd : Greeting C S h up fs d)
    {now : Time} {data : ObfsAuthChainData} {n : ℕ} (ha : d.Allowed S (.serverRecv now data n)) :
    ∃ d', d.step C S (.serverRecv now data n) = some d' ∧ Phase C S d' := by
  obtain ⟨hk, hi, ho⟩ := S.server_eq
  have hstream : (d.server.recvBuf ++ d.up.take n) ++ d.up.drop n =
      h.bytes C (S.iv ++ S.key) S.method.salt ++ wire fs := by
    rw [List.append_assoc, List.take_append_drop, hd.upBuf]
  have hfresh : Fresh S.method S.server
      { d.server with recvBuf := d.server.recvBuf ++ d.up.take n } := by
    obtain ⟨h₁, h₂, h₃, h₄, h₅, h₆, h₇, h₈, h₉, h₁₀, h₁₁⟩ := hd.server
    exact ⟨h₁, h₂, h₃, h₄, h₅, h₆, h₇, h₈, h₉, h₁₀, h₁₁⟩
  have hmac : d.server.serverInfo.recvIv ++ d.server.serverInfo.key = S.iv ++ S.key := by
    rw [hd.server.serverInfo_eq, hi, hk]
  by_cases hlen : (d.server.recvBuf ++ d.up.take n).length < 36
  · -- The header is still incomplete.
    have hpre : d.server.recvBuf ++ d.up.take n <+: h.bytes C (S.iv ++ S.key) S.method.salt :=
      List.prefix_of_prefix_length_le ⟨_, hstream⟩ (List.prefix_append _ _)
        (by simp; simp at hlen; omega)
    have hopen := openHeader_incomplete (C := C)
      (s := { d.server.toAuthBase with recvBuf := d.server.recvBuf ++ d.up.take n }) hmac hpre hlen
      S.users
    have hr : recvHeader C now S.users data
        { d.server with recvBuf := d.server.recvBuf ++ d.up.take n } =
        (.error (.ok ([], false)),
          { d.server with recvBuf := d.server.recvBuf ++ d.up.take n }, data) := by
      rw [recvHeader]
      dsimp only
      rw [hd.server.method_eq, hopen]
    rw [step, serverPostDecrypt_of_error _ hd.server.rawTrans_eq hd.server.hasRecvHeader_eq hr]
    refine ⟨_, rfl, @Phase.greeting C S _ h up fs
      { hd with
        server := hfresh
        upBuf := hstream
        short := hlen
        upData := ?_ }⟩
    exact ⟨hd.upData.1, by rw [hd.upData.2]; rfl⟩
  · -- The header is complete.
    obtain ⟨rest, hbuf, hrest⟩ : ∃ rest, d.server.recvBuf ++ d.up.take n =
        h.bytes C (S.iv ++ S.key) S.method.salt ++ rest ∧ rest ++ d.up.drop n = wire fs := by
      rcases prefix_or_prefix hstream with ⟨hp, hne⟩ | hr
      · exact absurd (hp.eq_of_length_le (by simp; simp at hlen; omega)) hne
      · exact hr
    have hacc := ha hd.server.hasRecvHeader_eq (not_lt.1 hlen)
    obtain ⟨s', data', hr, hopen, hbuf', hhead, hraw, hinfo, hover⟩ :=
      recvHeader_hello (C := C) S.users rest S.method_ne hfresh (h := h)
        (by rw [hk, hi]; exact hbuf) (by rw [hk]; exact hd.knows) (by rw [ho]; exact hd.greets)
        (by rw [ho]; exact S.overhead_lt) hacc
    rw [hk, hi, ho] at hopen
    rw [ho] at hover
    obtain ⟨done, todo, t, upR', hfs, hloop, hout, hopen', hch, hbuf'', hfin, hkept⟩ :=
      serverLoop_spec hopen hd.upChain (d.up.drop n) (by rw [hbuf']; exact hrest) true
    obtain ⟨data'', hpost⟩ := serverPostDecrypt_of_ok hd.server.rawTrans_eq
      hd.server.hasRecvHeader_eq hr hloop
    obtain ⟨buf, l, random, e, hkept⟩ := hkept
    rw [step, hpost]
    refine ⟨_, rfl, @Phase.connected C S _ h upR' up (startDown C (S.iv ++ S.key) S.method.salt h)
      (startDown C (S.iv ++ S.key) S.method.salt h) todo []
      { client := hd.client
        server := hopen'
        hasRecvHeader := ?_
        rawTrans := ?_
        tcpMss := ?_
        clientOverHead := ?_
        unitLen := fun h0 => absurd h0 (lt_irrefl 0)
        frames := hd.frames.symm
        frames_le := ?_
        upBuf := hbuf''
        upChain := hch
        upData := ?_
        upDone := hfin
        downBuf := ?_
        downChain := .nil _
        downData := ?_
        downDone := fun _ => rfl
        downMss := fun h0 => absurd h0 (lt_irrefl 0)
        downFirst := fun _ => hd.down.2.2 }⟩
    · rw [hkept]; exact hhead
    · rw [hkept]; exact hraw
    · rw [hkept]; exact congrArg ServerInfo.tcpMss hinfo
    · rw [hkept]; exact hover
    · rw [hd.frames]; exact Nat.zero_le _
    · rw [hout, hd.upData.2, List.nil_append, ← carried_append, ← hfs, hd.upData.1]
    · rw [hd.clientBuf, hd.down.1]; rfl
    · rw [hd.down.2.1, hd.down.2.2]; rfl

/-! ## Runs -/

/-- An event leads from phase to phase: no call raises, and every call returns. -/
theorem Phase.step (hd : Phase C S d) {e : Event} (ha : d.Allowed S e) (hb : d.Bounded S e) :
    ∃ d', d.step C S e = some d' ∧ Phase C S d' := by
  cases hd with
  | idle hi =>
    cases e with
    | clientSend now buf => exact hi.clientSend now buf
    | serverSend buf =>
      have := ha.2.1
      rw [hi.server.hasRecvHeader_eq] at this
      cases this
    | clientRecv n =>
      exact ⟨d, clientRecv_nil hi.client.rawTrans_eq hi.clientBuf hi.down.1 n, .idle hi⟩
    | serverRecv now data n => exact ⟨d, hi.serverRecv now data n, .idle hi⟩
  | greeting hg =>
    cases e with
    | clientSend now buf => exact hg.clientSend now buf
    | serverSend buf =>
      have := ha.2.1
      rw [hg.server.hasRecvHeader_eq] at this
      cases this
    | clientRecv n =>
      exact ⟨d, clientRecv_nil hg.client.rawTrans hg.clientBuf hg.down.1 n, .greeting hg⟩
    | serverRecv now data n => exact hg.serverRecv ha
  | connected hc =>
    cases e with
    | clientSend now buf => exact hc.clientSend now buf
    | serverSend buf => exact hc.serverSend ha hb
    | clientRecv n => exact hc.clientRecv n
    | serverRecv now data n => exact hc.serverRecv now data n

/-- A run leads to a phase. -/
theorem exec_phase {localData : LocalData} {rng rng' : Rng} {events : List Event}
    (h : Run.Throughout (Duplex.step C S) (fun d e => d.Allowed S e ∧ d.Bounded S e)
      (init S localData rng rng') events) :
    ∃ d, Run.exec (Duplex.step C S) (init S localData rng rng') events = some d ∧ Phase C S d :=
  Run.exec_isSome_of_throughout (fun _ _ hp hg => hp.step hg.1 hg.2)
    (phase_init localData rng rng') h

/-- What has come out of a connection: a part of what has gone in, and all of it when nothing is
    on its way. -/
structure Delivered (S : Setup) (d : Duplex) : Prop where
  rawTrans : d.client.rawTrans = false ∧ d.server.rawTrans = false
  up_prefix : d.gotUp <+: d.sentUp
  up_eq : d.up = [] → d.gotUp = d.sentUp
  down_prefix : d.gotDown <+: d.sentDown
  down_eq : d.down = [] → d.gotDown = d.sentDown
  tcpMss : d.gotDown ≠ [] → d.client.serverInfo.tcpMss = S.server.tcpMss

theorem Phase.delivered (hd : Phase C S d) : Delivered S d := by
  cases hd with
  | idle hi =>
    exact ⟨⟨hi.client.rawTrans_eq, hi.server.rawTrans_eq⟩, by rw [hi.up.2.2]; exact List.nil_prefix,
      fun _ => by rw [hi.up.2.1, hi.up.2.2], by rw [hi.down.2.2]; exact List.nil_prefix,
      fun _ => by rw [hi.down.2.1, hi.down.2.2], fun h => absurd hi.down.2.2 h⟩
  | greeting hg =>
    refine ⟨⟨hg.client.rawTrans, hg.server.rawTrans_eq⟩, by rw [hg.upData.2]; exact List.nil_prefix,
      fun hup => ?_, by rw [hg.down.2.2]; exact List.nil_prefix,
      fun _ => by rw [hg.down.2.1, hg.down.2.2], fun h => absurd hg.down.2.2 h⟩
    -- A part of the header is on its way.
    have hlen := congrArg List.length hg.upBuf
    have := hg.short
    rw [hup] at hlen
    simp only [List.append_nil, List.length_append, Header.length_bytes] at hlen
    omega
  | connected hc =>
    refine ⟨⟨hc.client.rawTrans, hc.rawTrans⟩, ⟨_, hc.upData⟩, fun hup => ?_, ⟨_, hc.downData⟩,
      fun hdown => ?_, fun hne => hc.downMss (Nat.pos_of_ne_zero fun hz => hne (hc.downFirst hz))⟩
    · rw [← hc.upData, hc.upDone hup, List.append_nil]
    · rw [← hc.downData, hc.downDone hdown, List.append_nil]

/-- Along every run in which the server packs at most `2 ^ 32` frames, no call raises or falls
    back, and what comes out in either direction is what has gone in. -/
theorem round_trip (localData : LocalData) (rng rng' : Rng) (events : List Event)
    (h : Run.Throughout (Duplex.step C S) (fun d e => d.Allowed S e ∧ d.Bounded S e)
      (init S localData rng rng') events) :
    ∃ d, Run.exec (Duplex.step C S) (init S localData rng rng') events = some d ∧
        Delivered S d := by
  obtain ⟨d, hd, hp⟩ := exec_phase h
  exact ⟨d, hd, hp.delivered⟩

end Duplex

end AuthChain

end ShadowsocksR

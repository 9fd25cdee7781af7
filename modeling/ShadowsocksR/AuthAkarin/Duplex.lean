import ShadowsocksR.AuthAkarin.Handshake
import ShadowsocksR.AuthChain.RoundTrip

/-!
# An auth_akarin connection

A connection between a client and a server that have the same key, as for
auth_chain. What either end knows of the frames that the other has not received
is recorded beside the bytes.

* `Allowed`: what can happen to a connection;
* `Holds`: the condition on a step, that a receiver reads the frames of which it
  finds the beginning with the modulus of their sender;
* `RndLensAgree`: in every turn of a receiving loop, `recv_rnd_data_len` returns
  what `send_rnd_data_len` did;
* `Phase`: before the handshake, during it and after it.
-/

namespace ShadowsocksR

namespace AuthAkarin

open AuthBase Encryptor
open AuthChain (Event Accepts Lane serverUnit serverPieces)

/-- The two objects, the bytes on their way in both directions, what has gone into each direction
    and come out of it, the number of frames that the server has packed, the clock of the client
    when it sent its header, and the frames of each direction that are not received yet. -/
structure Duplex where
  client : AuthAkarin
  server : AuthAkarin
  up : Bytes := []
  down : Bytes := []
  sentUp : Bytes := []
  gotUp : Bytes := []
  sentDown : Bytes := []
  gotDown : Bytes := []
  frames : ℕ := 0
  clock : Time := 0
  upLog : List Sent := []
  downLog : List Sent := []

namespace Duplex

/-- A connection at its beginning. -/
def init (S : Setup) (localData : LocalData) (rng rng' : Rng) : Duplex where
  client := create S.method S.noCompatible S.client localData rng
  server := create S.method S.noCompatible S.server .new rng'

/-- One event; there is no state after it when the call raises or does not return. -/
def step (C : Crypto) (S : Setup) (d : Duplex) : Event → Option Duplex
  | .clientSend now buf =>
    match clientPreEncrypt C (buf.length + 1) now d.client buf with
    | .done t => some { d with
        client := t.obj
        up := d.up ++ t.ret
        sentUp := d.sentUp ++ buf
        clock := if d.client.hasSentHeader then d.clock else now
        upLog := d.upLog ++ clientLog C now d.client t.packed }
    | _ => none
  | .serverSend buf =>
    match serverPreEncrypt C (buf.length + 3) d.server buf with
    | .done t => some { d with
        server := t.obj
        down := d.down ++ t.ret
        sentDown := d.sentDown ++ buf
        frames := d.frames + serverPieces S.server.tcpMss S.overhead d.frames buf.length
        downLog := d.downLog ++ sentAll (packServerData C) serverSent d.server.packing t.packed }
    | _ => none
  | .clientRecv n =>
    match clientPostDecrypt C d.client (d.down.take n) with
    | (.ok out, client) => some { d with
        client, down := d.down.drop n, gotDown := d.gotDown ++ out
        downLog := Sent.remaining (client.recvBuf.length + (d.down.drop n).length) d.downLog }
    | _ => none
  | .serverRecv now data n =>
    match serverPostDecrypt C now S.users data d.server (d.up.take n) with
    | (.ok (out, _), server, _) => some { d with
        server, up := d.up.drop n, gotUp := d.gotUp ++ out
        upLog := Sent.remaining (server.recvBuf.length + (d.up.drop n).length) d.upLog }
    | _ => none

/-- The server sends after the handshake; and when it has received all of the header, it accepts
    it. -/
def Allowed (S : Setup) (d : Duplex) : Event → Prop
  | .clientSend _ _ => True
  | .serverSend _ => d.server.hasRecvHeader = true
  | .clientRecv _ => True
  | .serverRecv now data n => d.server.hasRecvHeader = false →
      36 ≤ (d.server.recvBuf ++ d.up.take n).length →
      Accepts now data (paramUserId S.client.protocolParam) d.clock d.client.localData

/-- The overhead fits in the header and leaves two bytes of the `tcp_mss` of the server, which
    packs no more than `2 ^ 32` frames; and a receiver reads the frames of which it finds the
    beginning with the modulus of their sender. After the handshake, the server reads them so if
    they begin with a command. -/
def Holds (S : Setup) (d : Duplex) : Event → Prop
  | .clientSend _ _ => d.client.hasSentHeader = false → S.overhead < 2 ^ 16
  | .serverSend buf => S.overhead + 2 ≤ S.server.tcpMss ∧
      d.frames + serverPieces S.server.tcpMss S.overhead d.frames buf.length ≤ 2 ^ 32
  | .clientRecv n => ∀ before f,
      Sent.Reached (d.client.recvBuf ++ d.down.take n).length d.downLog before f →
      f.Alike S.method S.overhead (clientRecvMss S.server.tcpMss d.client before)
        d.client.sendTcpMss
  | .serverRecv _ _ n => d.server.hasRecvHeader = true → ∀ before f,
      Sent.Reached (d.server.recvBuf ++ d.up.take n).length d.upLog before f →
      f.command = false →
      f.Alike S.method S.overhead (serverRecvMss d.server before) d.server.sendTcpMss

variable (C : Crypto) (S : Setup)

/-- In every turn of the loop of a receiver, `recv_rnd_data_len` returns what `send_rnd_data_len`
    returned for the frame that comes next. -/
def RndLensAgree (d : Duplex) : Event → Prop
  | .clientRecv n => ∀ t, Turns (clientRecvBody C) (clientStart d.client (d.down.take n)) t →
      4 < t.obj.recvBuf.length → ∃ f,
      (Sent.remaining (t.obj.recvBuf.length + (d.down.drop n).length) d.downLog).head? = some f ∧
        clientRndLen t.obj = .ok f.randLen
  | .serverRecv now data n => ∀ t₀ t,
      serverStart C now S.users data d.server (d.up.take n) = some t₀ →
      Turns (serverRecvBody C) t₀ t → 4 < t.obj.recvBuf.length → ∃ f,
      (Sent.remaining (t.obj.recvBuf.length + (d.up.drop n).length) d.upLog).head? = some f ∧
        serverRndLen t.obj = .ok f.randLen
  | _ => True

/-! ## Phases -/

/-- Nothing has been sent. -/
structure Idle (d : Duplex) : Prop where
  client : Fresh S.method S.client d.client
  server : Fresh S.method S.server d.server
  clientBuf : d.client.recvBuf = []
  serverBuf : d.server.recvBuf = []
  up : d.up = [] ∧ d.sentUp = [] ∧ d.gotUp = [] ∧ d.upLog = []
  down : d.down = [] ∧ d.sentDown = [] ∧ d.gotDown = [] ∧ d.downLog = []
  frames : d.frames = 0

/-- The client is open, and sends its buffers in one way. -/
structure Client (g : Hello) (out inn : Lane) (s : AuthAkarin) : Prop where
  isOpen : ClientOpen C (S.session C g) out inn s
  hasSentHeader : s.hasSentHeader = true
  unitLen : s.unitLen = 2800
  rawTrans : s.rawTrans = false

/-- The client has sent its header `g`, of which the server has received a part. -/
structure Greeting (g : Hello) (up : Lane) (fs : List Frame) (d : Duplex) : Prop where
  client : Client C S g up (S.startDown C g) d.client
  server : Fresh S.method S.server d.server
  overhead_lt : S.overhead < 2 ^ 16
  clientBuf : d.client.recvBuf = []
  knows : Knows S.users S.key g.header.uid g.header.userKey (paramUserId S.client.protocolParam)
  greets : Greets g d.clock d.client.localData S.overhead
  upBuf : d.server.recvBuf ++ d.up = S.helloBytes C g ++ wire fs
  short : d.server.recvBuf.length < 36
  upChain : Chain C (S.session C g) (S.session C g).clientIv (CarriesUp (S.session C g))
    (S.startUp C g) fs d.upLog up
  upCommand : ∀ f ∈ d.upLog, f.command = false
  upData : carried fs = d.sentUp ∧ d.gotUp = []
  down : d.down = [] ∧ d.sentDown = [] ∧ d.gotDown = [] ∧ d.downLog = []
  frames : d.frames = 0

/-- The server has received the header: the frames `fsUp` and `fsDown` are on their way, between
    the states `upR` and `upS`, `downR` and `downS` of the lanes. -/
structure Connected (g : Hello) (upR upS downR downS : Lane) (fsUp fsDown : List Frame)
    (d : Duplex) : Prop where
  client : Client C S g upS downR d.client
  server : ServerOpen C (S.session C g) downS upR d.server
  hasRecvHeader : d.server.hasRecvHeader = true
  rawTrans : d.server.rawTrans = false
  tcpMss : d.server.serverInfo.tcpMss = S.server.tcpMss
  clientOverHead : d.server.clientOverHead = S.overhead
  unitLen : 0 < downS.count → d.server.unitLen = (serverUnit S.server.tcpMss S.overhead : ℕ)
  frames : downS.count = d.frames
  frames_le : d.frames ≤ 2 ^ 32
  upBuf : d.server.recvBuf ++ d.up = wire fsUp
  upChain : Chain C (S.session C g) (S.session C g).clientIv (CarriesUp (S.session C g)) upR fsUp
    d.upLog upS
  upCommand : ∀ f ∈ d.upLog, f.command = true → 0 < downR.count
  upData : d.gotUp ++ carried fsUp = d.sentUp
  upDone : d.up = [] → carried fsUp = []
  downBuf : d.client.recvBuf ++ d.down = wire fsDown
  downChain : Chain C (S.session C g) (S.session C g).serverIv (CarriesDown (S.session C g)) downR
    fsDown d.downLog downS
  downData : d.gotDown ++ carried fsDown = d.sentDown
  downDone : d.down = [] → carried fsDown = []

/-- A connection is in one of three phases. -/
inductive Phase : Duplex → Prop
  | idle {d : Duplex} : Idle S d → Phase d
  | greeting {d : Duplex} {g : Hello} {up : Lane} {fs : List Frame} :
      Greeting C S g up fs d → Phase d
  | connected {d : Duplex} {g : Hello} {upR upS downR downS : Lane} {fsUp fsDown : List Frame} :
      Connected C S g upR upS downR downS fsUp fsDown d → Phase d

variable {C S} {d : Duplex}

theorem phase_init (localData : LocalData) (rng rng' : Rng) :
    Phase C S (init S localData rng rng') :=
  .idle ⟨fresh_create _ _ _ _ _, fresh_create _ _ _ _ _, rfl, rfl, ⟨rfl, rfl, rfl, rfl⟩,
    ⟨rfl, rfl, rfl, rfl⟩, rfl⟩

end Duplex

end AuthAkarin

end ShadowsocksR

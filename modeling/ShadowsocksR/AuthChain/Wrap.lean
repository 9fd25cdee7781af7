import ShadowsocksR.AuthChain.RoundTrip

/-!
# A connection of more than `2 ^ 32` frames

The client takes the two bytes of the `tcp_mss` off when its counter stands at
one. The counter is a number of 32 bits, so that it stands at one again after
`2 ^ 32` frames, where the server has put no such bytes.

* `round_trip_hello`: the round trip of a first exchange;
* `many_frames`: a run after which the server has packed as many frames as one
  likes;
* `not_delivers`: a run after which two bytes are missing.
-/

namespace ShadowsocksR

namespace AuthChain

namespace Duplex

open AuthBase Encryptor

/-- Every run delivers what has gone in. -/
def Delivers (C : Crypto) (S : Setup) : Prop :=
  ∀ localData rng rng' events,
    Run.Throughout (step C S) (Allowed S) (init S localData rng rng') events →
    ∃ d, Run.exec (step C S) (init S localData rng rng') events = some d ∧ Delivered S d

/-! ## A setup -/

/-- The server information of both ends. -/
def nullInfo : ServerInfo where
  key := []
  iv := []
  recvIv := []
  protocolParam := []
  overhead := 0
  tcpMss := 1500

/-- A server without users. -/
def nullSetup : Setup where
  method := .a
  noCompatible := true
  key := []
  iv := []
  overhead := 0
  users := Dict.empty
  client := nullInfo
  server := nullInfo
  method_ne := by decide
  client_eq := ⟨rfl, rfl, rfl⟩
  server_eq := ⟨rfl, rfl, rfl⟩
  registered := .inr ⟨by decide, rfl⟩
  overhead_lt := by decide

/-- A connection at its beginning. -/
def nullStart : Duplex :=
  init nullSetup { localClientId := [1, 2, 3, 4], connectionId := 5 } (fun _ => 0) (fun _ => 0)

/-- A buffer in each direction. -/
def hello : List Event :=
  [.clientSend 0 [1], .serverRecv 0 {} 5000, .serverSend [7], .clientRecv 5000]

/-- The state of a run of the setup. -/
abbrev nullExec (d : Duplex) (events : List Event) : Option Duplex :=
  Run.exec (step plainCrypto nullSetup) d events

theorem nullExec_clientSend : (nullExec nullStart [.clientSend 0 [1]]).map
    (fun d => (d.clock, d.client.localData.localClientId, d.client.localData.connectionId)) =
    some (0, [1, 2, 3, 4], 6) := by
  decide +kernel

theorem nullExec_serverRecv : (nullExec nullStart [.clientSend 0 [1], .serverRecv 0 {} 5000]).map
    (fun d => (d.server.hasRecvHeader, d.frames)) = some (true, 0) := by
  decide +kernel

theorem nullExec_hello :
    (nullExec nullStart hello).map (fun d => (d.frames, d.down)) = some (1, []) := by
  decide +kernel

theorem throughout_hello : Run.Throughout (step plainCrypto nullSetup)
    (fun d e => d.Allowed nullSetup e ∧ d.Bounded nullSetup e) nullStart hello := by
  refine .cons ⟨List.cons_ne_nil _ _, trivial⟩ fun d₁ h₁ => ?_
  refine .cons ⟨fun _ _ => ?_, trivial⟩ fun d₂ h₂ => ?_
  · have h := nullExec_clientSend
    rw [nullExec, Run.exec_singleton, h₁, Option.map_some, Option.some.injEq, Prod.mk.injEq,
      Prod.mk.injEq] at h
    obtain ⟨hclock, hid, hconn⟩ := h
    rw [hclock]
    refine ⟨by decide, ?_⟩
    rw [hid, hconn]
    exact ⟨_, rfl⟩
  · have h := nullExec_serverRecv
    rw [nullExec, Run.exec_cons_of_step h₁, Run.exec_singleton, h₂, Option.map_some,
      Option.some.injEq, Prod.mk.injEq] at h
    refine .cons ⟨⟨List.cons_ne_nil _ _, h.1, by decide, by decide, by decide⟩, ?_⟩ fun d₃ h₃ => ?_
    · rw [Bounded, h.2]
      decide
    · exact .cons ⟨trivial, trivial⟩ fun d₄ h₄ => Run.throughout_nil _

theorem round_trip_hello :
    ∃ d, nullExec nullStart hello = some d ∧ Delivered nullSetup d :=
  round_trip _ _ _ hello throughout_hello

/-! ## Many frames -/

variable {C : Crypto} {S : Setup} {d : Duplex}

/-- A connection of which the server has packed a frame has seen the handshake. -/
theorem Phase.connected_of_frames (hd : Phase C S d) (h : d.frames ≠ 0) :
    ∃ (h : Header) (upR upS downR downS : Lane) (fsUp fsDown : List Frame),
      Connected C S h upR upS downR downS fsUp fsDown d := by
  cases hd with
  | idle hi => exact absurd hi.frames h
  | greeting hg => exact absurd hg.frames h
  | connected hc => exact ⟨_, _, _, _, _, _, _, hc⟩

theorem step_serverSend_frames {d' : Duplex} {buf : Bytes}
    (h : d.step C S (.serverSend buf) = some d') :
    d'.frames = d.frames + serverPieces S.server.tcpMss S.overhead d.frames buf.length := by
  rw [step] at h
  split at h
  · cases h; rfl
  · cases h

theorem step_clientRecv_frames {d' : Duplex} {n : ℕ} (h : d.step C S (.clientRecv n) = some d') :
    d'.frames = d.frames ∧ d'.down = d.down.drop n := by
  rw [step] at h
  split at h
  · cases h; exact ⟨rfl, rfl⟩
  · cases h

/-- A run after which the server has packed `n` frames, which the client has received. -/
theorem many_frames {n : ℕ} (hpos : 1 ≤ n) (hn : n ≤ 2 ^ 32) : ∃ events d,
    Run.Throughout (step plainCrypto nullSetup)
      (fun d e => d.Allowed nullSetup e ∧ d.Bounded nullSetup e) nullStart events ∧
    nullExec nullStart events = some d ∧ d.frames = n ∧ d.down = [] := by
  induction n, hpos using Nat.le_induction with
  | base =>
    obtain ⟨d, hd, -⟩ : ∃ d, nullExec nullStart hello = some d ∧ Phase plainCrypto nullSetup d :=
      exec_phase throughout_hello
    have h := nullExec_hello
    rw [hd, Option.map_some, Option.some.injEq, Prod.mk.injEq] at h
    exact ⟨hello, d, throughout_hello, hd, h.1, h.2⟩
  | succ n hpos ih =>
    obtain ⟨events, d, hevents, hexec, hframes, -⟩ := ih (by omega)
    obtain ⟨d₀, hexec₀, hphase⟩ := exec_phase hevents
    cases hexec.symm.trans hexec₀
    obtain ⟨h, upR, upS, downR, downS, fsUp, fsDown, hc⟩ :=
      hphase.connected_of_frames (by omega)
    -- A buffer of one byte is one frame.
    have hpieces : serverPieces nullSetup.server.tcpMss nullSetup.overhead d.frames 1 = 1 := by
      rw [serverPieces, if_neg (by omega)]
      decide
    have hsend : d.Allowed nullSetup (.serverSend [7]) ∧ d.Bounded nullSetup (.serverSend [7]) := by
      refine ⟨⟨List.cons_ne_nil _ _, hc.hasRecvHeader, by decide, by decide, by decide⟩, ?_⟩
      rw [Bounded, List.length_singleton, hpieces]
      omega
    obtain ⟨d₁, h₁, hphase₁⟩ := hphase.step hsend.1 hsend.2
    obtain ⟨d₂, h₂, -⟩ := hphase₁.step (e := .clientRecv d₁.down.length) trivial trivial
    obtain ⟨hframes₂, hdown₂⟩ := step_clientRecv_frames h₂
    have hexec₂ : nullExec d [.serverSend [7], .clientRecv d₁.down.length] = some d₂ := by
      rw [nullExec, Run.exec_cons_of_step h₁, Run.exec_singleton, h₂]
    refine ⟨events ++ [.serverSend [7], .clientRecv d₁.down.length], d₂,
      hevents.append hexec (.cons hsend fun d' h' => ?_), ?_, ?_, ?_⟩
    · exact .cons ⟨trivial, trivial⟩ fun _ _ => Run.throughout_nil _
    · exact Run.exec_append_eq_some.2 ⟨d, hexec, hexec₂⟩
    · rw [hframes₂, step_serverSend_frames h₁, List.length_singleton, hpieces, hframes]
    · rw [hdown₂, List.drop_length]

/-! ## The counter stands at one again -/

/-- The client takes off two bytes with a frame in front of which the server has put none. -/
theorem clientLoop_wrap {P : Session} {out inn l l' : Lane} {s : AuthChain} {mss : ℕ}
    (hs : ClientOpen C P out inn s) {fs : List Frame} {f : Frame}
    (hch : Chain C P (CarriesDown mss) inn fs l) (hf : Chain C P (CarriesDown mss) l [f] l')
    (hcount : l.count = 2 ^ 32) (htcp : 0 < inn.count → s.serverInfo.tcpMss = mss)
    (hlen : 2 ≤ f.output.length) (hbuf : s.recvBuf = wire fs ++ f.bytes) :
    ∃ t', loop (clientRecvBody C) (s.recvBuf.length + 1) { obj := s } = .done t' ∧
      t'.outBuf = (carried fs ++ f.output).drop 2 := by
  obtain ⟨e, he, hst⟩ := hs.stream
  have hawait : ClientAwaits C P mss s out.carried l fs { obj := s } := by
    have : ClientAwaits C P mss s out.carried l fs
        { obj := clientReceived s s.recvBuf inn s.randomServer e s.serverInfo.tcpMss } :=
      .intro hst hch (fun _ => rfl) htcp
    rw [clientReceived, ← he, ← hs.recvId_eq, ← hs.inHash_eq] at this
    exact this
  have hnil : f.bytes ≠ [] := hf.bytes_ne_nil f List.mem_cons_self
  obtain ⟨t, hloop, hbuf', hout, hawait'⟩ :=
    (clientLockstep hs.toReady hcount.le).loop_drop hawait hbuf hnil
  cases hawait' with
  | @intro buf out' l₁ random e tcpMss sendback hst hch' hout' htcp =>
    cases hch'
    cases hf with
    | @cons _ _ payload hash _ _ hf hc hrest =>
      rw [CarriesDown, if_neg (by omega)] at hc
      have hlong := hf.length_bytes
      rw [← hc] at hlong
      have hlong' : buf.length > 4 := by
        rw [show buf = _ from hbuf']
        omega
      obtain ⟨random', htake⟩ := takeFrame_complete []
        (s := clientReceived s buf l random e tcpMss) hf
        (by rw [List.append_nil]; exact hbuf') hs.method_eq hs.lists_eq hs.overhead_eq rfl random
      obtain ⟨e', hdec, -⟩ := hst.decrypt_encrypt payload
      have hid : l.id = 1 := by rw [Lane.id, hcount]; rfl
      have hbody := clientRecvBody_first
        (t := { obj := clientReceived s buf l random e tcpMss, outBuf := out', sendback })
        hlong' hs.userKey_eq htake rfl hdec hid
        (by rw [List.length_append, ← hc]; omega)
      -- A turn for every frame, and one for the empty buffer.
      obtain ⟨fuel, hfuel⟩ : ∃ fuel, s.recvBuf.length + 1 = fs.length + (fuel + 1 + 1) := by
        refine ⟨s.recvBuf.length - 1 - fs.length, ?_⟩
        have := length_le_wire hch.bytes_ne_nil
        rw [hbuf, List.length_append]
        omega
      rw [hfuel, hloop, loop_succ_of_more hbody]
      refine ⟨_, loop_succ_of_done (clientRecvBody_short (by simp)), ?_⟩
      rw [hc]
      exact congrArg (fun b => (b ++ payload).drop 2) hout

/-- A buffer of which the second frame is the first one of the next `2 ^ 32`. -/
theorem Connected.loses_bytes {h : Header} {upR upS downR downS : Lane}
    {fsUp fsDown : List Frame} (hd : Connected C S h upR upS downR downS fsUp fsDown d)
    (hframes : d.frames + 1 = 2 ^ 32) (hdown : d.down = []) {buf : Bytes}
    (ha : d.Allowed S (.serverSend buf)) (hlen : 2802 ≤ buf.length)
    (hpieces : serverPieces S.server.tcpMss S.overhead d.frames buf.length = 2) :
    ∃ d₁ d₂, d.step C S (.serverSend buf) = some d₁ ∧
      d₁.step C S (.clientRecv d₁.down.length) = some d₂ ∧ d₂.down = [] ∧
      d₂.gotDown.length + 2 = d₂.sentDown.length := by
  obtain ⟨-, -, -, hmss, hover⟩ := ha
  have hcount := hd.frames
  obtain ⟨t, fs, downS', ht, hret, hch, hcar, hfs, -, -⟩ :=
    serverPreEncrypt_spec (C := C) (P := session C S h) S.method_ne hd.server hd.rawTrans
      (by rw [hd.tcpMss]; exact hmss) (by rw [hd.tcpMss, hd.clientOverHead]; exact hover)
      (by omega) (by rw [hd.tcpMss, hd.clientOverHead]; exact hd.unitLen) buf
  rw [hd.tcpMss, hd.clientOverHead, hcount, hpieces] at hfs
  rw [hd.tcpMss] at hch
  obtain ⟨f₁, f₂, rfl⟩ := List.length_eq_two.1 hfs
  obtain ⟨l, hch₁, hch₂, hl, hle⟩ : ∃ l, Chain C (session C S h) (CarriesDown S.server.tcpMss)
      downS [f₁] l ∧ Chain C (session C S h) (CarriesDown S.server.tcpMss) l [f₂] downS' ∧
      l.count = 2 ^ 32 ∧ f₁.output.length ≤ 2800 := by
    cases hch with
    | @cons _ _ payload hash _ _ hf hc hrest =>
      refine ⟨_, .cons hf hc (.nil _), hrest, ?_, ?_⟩
      · rw [Lane.next]
        dsimp only
        omega
      · rw [CarriesDown, if_neg (by omega)] at hc
        rw [hc]
        exact hf.length_payload
  have hdown₁ : d.client.recvBuf = wire fsDown := by
    rw [← hd.downBuf, hdown, List.append_nil]
  simp only [carried_cons, carried_nil, List.append_nil] at hcar
  have hlen₂ := congrArg List.length hcar
  rw [List.length_append] at hlen₂
  have hopen : ClientOpen C (session C S h) upS downR
      { d.client with recvBuf := d.client.recvBuf ++ (d.down ++ t.ret) } :=
    hd.client.isOpen.setRecvBuf _
  obtain ⟨t', hloop, hout⟩ := clientLoop_wrap hopen (hd.downChain.append hch₁) hch₂ hl hd.downMss
    (by omega) (by
      rw [hdown, hdown₁, hret]
      simp)
  have hsame : (carried (fsDown ++ [f₁]) ++ f₂.output) = carried fsDown ++ buf := by
    rw [carried_append, List.append_assoc, ← hcar]
    simp
  rw [hsame] at hout
  refine ⟨{ d with
    server := t.obj
    down := d.down ++ t.ret
    sentDown := d.sentDown ++ buf
    frames := d.frames + serverPieces S.server.tcpMss S.overhead d.frames buf.length },
    { d with
      client := t'.obj
      server := t.obj
      down := (d.down ++ t.ret).drop (d.down ++ t.ret).length
      gotDown := d.gotDown ++ t'.outBuf
      sentDown := d.sentDown ++ buf
      frames := d.frames + serverPieces S.server.tcpMss S.overhead d.frames buf.length },
    ?_, ?_, List.drop_length, ?_⟩
  · rw [step, ht]
  · rw [step]
    dsimp only
    rw [List.take_length, clientPostDecrypt_of_done hd.client.rawTrans hloop]
  · have hsent := congrArg List.length hd.downData
    rw [List.length_append] at hsent
    rw [hout, List.length_append, List.length_append, List.length_drop, List.length_append]
    omega

/-- A run after which nothing is on its way, and the client has two bytes less than were sent. -/
theorem not_delivers : ¬Delivers plainCrypto nullSetup := by
  intro hdel
  obtain ⟨events, d, hevents, hexec, hframes, hdown⟩ :=
    many_frames (n := 2 ^ 32 - 1) (by norm_num) (by norm_num)
  obtain ⟨d₀, hexec₀, hphase⟩ := exec_phase hevents
  cases hexec.symm.trans hexec₀
  obtain ⟨h, upR, upS, downR, downS, fsUp, fsDown, hc⟩ := hphase.connected_of_frames (by omega)
  have hlen : (List.replicate 3000 (0 : UInt8)).length = 3000 := List.length_replicate
  have ha : d.Allowed nullSetup (.serverSend (List.replicate 3000 0)) :=
    ⟨List.ne_nil_of_length_pos (by rw [hlen]; norm_num), hc.hasRecvHeader, by decide, by decide,
      by decide⟩
  obtain ⟨d₁, d₂, h₁, h₂, hdown₂, hlost⟩ := hc.loses_bytes (by omega) hdown ha
    (by rw [hlen]; norm_num) (by
      rw [hlen, serverPieces, if_neg (by omega)]
      decide)
  have hexec₂ : nullExec d [.serverSend (List.replicate 3000 0), .clientRecv d₁.down.length] =
      some d₂ := by
    rw [nullExec, Run.exec_cons_of_step h₁, Run.exec_singleton, h₂]
  have hlast : Run.Throughout (step plainCrypto nullSetup) (Allowed nullSetup) d
      [.serverSend (List.replicate 3000 0), .clientRecv d₁.down.length] :=
    .cons ha fun d' h' => .cons (show d'.Allowed nullSetup (.clientRecv _) from trivial)
      fun _ _ => Run.throughout_nil _
  obtain ⟨d', hd', hdel'⟩ := hdel { localClientId := [1, 2, 3, 4], connectionId := 5 }
    (fun _ => 0) (fun _ => 0) _
    ((hevents.mono fun _ _ h => h.1).append hexec hlast)
  cases hd'.symm.trans (Run.exec_append_eq_some.2 ⟨d, hexec, hexec₂⟩)
  rw [hdel'.down_eq hdown₂] at hlost
  omega

end Duplex

end AuthChain

end ShadowsocksR

import ShadowsocksR.AuthAkarin.Duplex

/-!
# The round trip of an auth_akarin connection

* `Phase.step`: an event leads from phase to phase, and no call raises;
* `Phase.agrees`: in every phase, the receivers compute the numbers of random
  bytes of the senders;
* `akarin_round_trip`: so they do along every run whose steps meet the condition,
  and what comes out is what has gone in;
* `akarin_not_delivers`: a first buffer of the server that the client does not
  get.
-/

namespace ShadowsocksR

namespace AuthAkarin

open AuthBase Encryptor
open AuthChain (Event Lane serverPieces)

namespace Duplex

variable {C : Crypto} {S : Setup} {d : Duplex}

/-! ## Steps of the client -/

/-- A client that sends a buffer stays open. -/
theorem Client.send {g : Hello} {out inn : Lane} (hc : Client C S g out inn d.client) (now : Time)
    (buf : Bytes) :
    ∃ t fs out', clientPreEncrypt C (buf.length + 1) now d.client buf = .done t ∧ t.ret = wire fs ∧
      Chain C (S.session C g) (S.session C g).clientIv (CarriesUp (S.session C g)) out fs
        (clientLog C now d.client t.packed) out' ∧
      (∀ f ∈ clientLog C now d.client t.packed, f.command = true → 0 < inn.count) ∧
      carried fs = buf ∧ wire fs ≠ [] ∧ Client C S g out' inn t.obj ∧
      ClientKept d.client t.obj := by
  obtain ⟨t, fs, out', ht, hret, hch, hcar, hne, hopen, hcmd, hk⟩ :=
    clientPreEncrypt_spec hc.isOpen hc.hasSentHeader hc.unitLen now buf
  have hkept := hk
  rw [ClientKept] at hkept
  have hlog : clientLog C now d.client t.packed =
      sentAll (packClientData C) clientSent d.client t.packed := by
    rw [clientLog, if_pos hc.hasSentHeader]
  rw [← hlog] at hch hcmd
  refine ⟨t, fs, out', ht, hret, hch, hcmd, hcar, ?_, ⟨hopen, ?_, ?_, ?_⟩, hk⟩
  · cases fs with
    | nil => exact absurd rfl hne
    | cons f fs =>
      intro hw
      exact hch.bytes_ne_nil f List.mem_cons_self (List.append_eq_nil_iff.1 hw).1
  · rw [hkept]; exact hc.hasSentHeader
  · rw [hkept]; exact hc.unitLen
  · rw [hkept]; exact hc.rawTrans

theorem Idle.clientSend (hd : Idle S d) {now : Time} {buf : Bytes}
    (hh : d.Holds S (.clientSend now buf)) :
    ∃ d', d.step C S (.clientSend now buf) = some d' ∧ Phase C S d' := by
  have hover := hh hd.client.hasSentHeader_eq
  obtain ⟨g, t, fs, up, ht, hret, hch, hcar, hcmd, hopen, hknows, hg, hsent, hunit, hraw, hbuf⟩ :=
    clientPreEncrypt_hello (C := C) S hover hd.client now buf
  rw [step, ht]
  refine ⟨_, rfl, @Phase.greeting C S _ g up fs
    ⟨⟨hopen, hsent, hunit, hraw⟩, hd.server, hover, hbuf.trans hd.clientBuf, hknows, ?_, ?_, ?_, ?_,
      ?_, ?_, hd.down, hd.frames⟩⟩
  · rw [if_neg (by rw [hd.client.hasSentHeader_eq]; decide)]
    exact hg
  · rw [hd.serverBuf, hd.up.1, hret]; rfl
  · rw [hd.serverBuf]; decide
  · rw [hd.up.2.2.2]; exact hch
  · rw [hd.up.2.2.2]; exact hcmd
  · exact ⟨by rw [hcar, hd.up.2.1]; rfl, hd.up.2.2.1⟩

theorem Greeting.clientSend {g : Hello} {up : Lane} {fs : List Frame}
    (hd : Greeting C S g up fs d) (now : Time) (buf : Bytes) :
    ∃ d', d.step C S (.clientSend now buf) = some d' ∧ Phase C S d' := by
  obtain ⟨t, fs', up', ht, hret, hch, hcmd, hcar, -, hopen, hk⟩ := hd.client.send now buf
  rw [ClientKept] at hk
  rw [step, ht]
  refine ⟨_, rfl, @Phase.greeting C S _ g up' (fs ++ fs')
    ⟨hopen, hd.server, hd.overhead_lt, ?_, hd.knows, ?_, ?_, hd.short, hd.upChain.append hch, ?_, ?_,
      hd.down, hd.frames⟩⟩
  · rw [hk]; exact hd.clientBuf
  · rw [if_pos hd.client.hasSentHeader, hk]
    exact hd.greets
  · rw [← List.append_assoc, hd.upBuf, hret, wire_append, List.append_assoc]
  · -- Before the server has sent, there is no command to send back.
    refine List.forall_mem_append.2 ⟨hd.upCommand, fun f hf => Bool.eq_false_iff.2 fun h => ?_⟩
    exact absurd (hcmd f hf h) (lt_irrefl 0)
  · exact ⟨by rw [carried_append, hd.upData.1, hcar], hd.upData.2⟩

variable {g : Hello} {upR upS downR downS : Lane} {fsUp fsDown : List Frame}

theorem Connected.clientSend (hd : Connected C S g upR upS downR downS fsUp fsDown d) (now : Time)
    (buf : Bytes) : ∃ d', d.step C S (.clientSend now buf) = some d' ∧ Phase C S d' := by
  obtain ⟨t, fs, up, ht, hret, hch, hcmd, hcar, hne, hopen, hk⟩ := hd.client.send now buf
  rw [ClientKept] at hk
  rw [step, ht]
  refine ⟨_, rfl, @Phase.connected C S _ g upR up downR downS (fsUp ++ fs) fsDown
    { hd with
      client := hopen
      upBuf := ?_
      upChain := hd.upChain.append hch
      upCommand := List.forall_mem_append.2 ⟨hd.upCommand, hcmd⟩
      upData := ?_
      upDone := ?_
      downBuf := ?_ }⟩
  · rw [← List.append_assoc, hd.upBuf, hret, wire_append]
  · rw [carried_append, ← List.append_assoc, hd.upData, hcar]
  · intro hup
    rw [hret] at hup
    exact absurd (List.append_eq_nil_iff.1 hup).2 hne
  · rw [hk]; exact hd.downBuf

/-- A client with nothing on its way receives nothing. -/
theorem clientRecv_nil (hraw : d.client.rawTrans = false) (hbuf : d.client.recvBuf = [])
    (hdown : d.down = []) (hlog : d.downLog = []) (n : ℕ) :
    d.step C S (.clientRecv n) = some d := by
  rw [step, hdown, List.take_nil, clientPostDecrypt_nil hraw hbuf, List.drop_nil, hlog]
  simp only [List.append_nil, Sent.remaining]
  rw [← hdown, ← hlog]

/-- No turn of its loop finds a frame. -/
theorem rndLensAgree_nil (hbuf : d.client.recvBuf = []) (hdown : d.down = []) (n : ℕ) :
    d.RndLensAgree C S (.clientRecv n) := by
  intro t ht hlen
  have hstart : (clientStart d.client (d.down.take n)).obj.recvBuf = [] := by
    rw [clientStart, hbuf, hdown, List.take_nil]
    rfl
  have hshort : clientRecvBody C (clientStart d.client (d.down.take n)) = .done _ :=
    clientRecvBody_short (by rw [hstart]; decide)
  rw [ht.eq_of_done hshort, hstart] at hlen
  cases hlen

/-- What the loop of a connected client reads. -/
theorem Connected.clientReads (hd : Connected C S g upR upS downR downS fsUp fsDown d) {n : ℕ}
    (hh : d.Holds S (.clientRecv n)) :
    ClientOpen C (S.session C g) upS downR (clientStart d.client (d.down.take n)).obj ∧
      ClientReads (S.session C g) (clientStart d.client (d.down.take n)).obj
        (clientStart d.client (d.down.take n)).obj.recvBuf.length d.downLog ∧
      (clientStart d.client (d.down.take n)).obj.recvBuf ++ d.down.drop n = wire fsDown := by
  refine ⟨hd.client.isOpen.setRecvBuf _, hh, ?_⟩
  simp only [clientStart, List.append_assoc, List.take_append_drop]
  exact hd.downBuf

theorem Connected.clientRecv (hd : Connected C S g upR upS downR downS fsUp fsDown d) {n : ℕ}
    (hh : d.Holds S (.clientRecv n)) :
    ∃ d', d.step C S (.clientRecv n) = some d' ∧ Phase C S d' := by
  obtain ⟨hopen, hreads, hstream⟩ := hd.clientReads hh
  obtain ⟨done, todo, log, t, downR', hfs, hloop, hout, hopen', hch, ⟨-, hlog⟩, hbuf, hfin, hk⟩ :=
    clientLoop_spec hopen hd.downChain (by rw [hd.frames]; exact hd.frames_le) hreads hstream
  have hcount := hd.downChain.count_eq
  have hcount' := hch.count_eq
  rw [hfs, List.length_append] at hcount
  obtain ⟨buf, l, random, e, tcpMss, recvMss, cmd, hk⟩ := hk
  rw [step, clientPostDecrypt_of_done hd.client.rawTrans hloop]
  refine ⟨_, rfl, @Phase.connected C S _ g upR upS downR' downS fsUp todo
    { hd with
      client := ⟨hopen', ?_, ?_, ?_⟩
      upCommand := fun f hf hcmd => ?_
      downBuf := hbuf
      downChain := ?_
      downData := ?_
      downDone := hfin }⟩
  · rw [hk]; exact hd.client.hasSentHeader
  · rw [hk]; exact hd.client.unitLen
  · rw [hk]; exact hd.client.rawTrans
  · have := hd.upCommand f hf hcmd
    omega
  · rw [← hlog]; exact hch
  · rw [hout, List.append_assoc, ← carried_append, ← hfs, hd.downData]

/-! ## Steps of the server -/

theorem Connected.serverSend (hd : Connected C S g upR upS downR downS fsUp fsDown d) {buf : Bytes}
    (hh : d.Holds S (.serverSend buf)) :
    ∃ d', d.step C S (.serverSend buf) = some d' ∧ Phase C S d' := by
  obtain ⟨hover, hb⟩ := hh
  have hpos : 0 < serverPieces S.server.tcpMss S.overhead d.frames buf.length := Nat.succ_pos _
  have hcount := hd.frames
  obtain ⟨t, fs, downS', ht, hret, hch, hcar, hlen, hopen, hk⟩ :=
    serverPreEncrypt_spec (C := C) hd.server hd.rawTrans hd.tcpMss
      (by rw [hd.clientOverHead]; exact hover) (by omega)
      (by rw [hd.clientOverHead]; exact hd.unitLen) buf
  rw [hd.clientOverHead] at hlen hk
  have hlen' : fs.length = serverPieces S.server.tcpMss S.overhead downS.count buf.length := hlen
  rw [ServerKept] at hk
  have hcount' := hch.count_eq
  rw [hlen', hcount] at hcount'
  have hne : wire fs ≠ [] := by
    cases fs with
    | nil => rw [hcount] at hlen'; simp only [List.length_nil] at hlen'; omega
    | cons f fs =>
      intro hw
      exact hch.bytes_ne_nil f List.mem_cons_self (List.append_eq_nil_iff.1 hw).1
  rw [step, ht]
  refine ⟨_, rfl, @Phase.connected C S _ g upR upS downR downS' fsUp (fsDown ++ fs)
    { hd with
      server := hopen
      hasRecvHeader := ?_
      rawTrans := ?_
      tcpMss := ?_
      clientOverHead := ?_
      unitLen := ?_
      frames := ?_
      frames_le := hb
      upBuf := ?_
      downBuf := ?_
      downChain := hd.downChain.append hch
      downData := ?_
      downDone := ?_ }⟩
  · rw [hk]; exact hd.hasRecvHeader
  · rw [hk]; exact hd.rawTrans
  · rw [hk]; exact hd.tcpMss
  · rw [hk]
  · rw [hk]; exact fun _ => rfl
  · exact hcount'
  · rw [hk]; exact hd.upBuf
  · rw [← List.append_assoc, hd.downBuf, hret, wire_append]
  · rw [carried_append, ← List.append_assoc, hd.downData, hcar]
  · intro hdown
    rw [hret] at hdown
    exact absurd (List.append_eq_nil_iff.1 hdown).2 hne

/-- What the loop of a connected server reads. -/
theorem Connected.serverReads (hd : Connected C S g upR upS downR downS fsUp fsDown d) {now : Time}
    {data : ObfsAuthChainData} {n : ℕ} (hh : d.Holds S (.serverRecv now data n)) :
    ∃ s, serverStart C now S.users data d.server (d.up.take n) =
        some { obj := s, sendback := false } ∧
      s = { d.server with recvBuf := d.server.recvBuf ++ d.up.take n } ∧
      ServerOpen C (S.session C g) downS upR s ∧
      ServerReads (S.session C g) s s.recvBuf.length d.upLog ∧
      s.recvBuf ++ d.up.drop n = wire fsUp := by
  refine ⟨_, serverStart_of_hasRecvHeader hd.rawTrans hd.hasRecvHeader, rfl,
    hd.server.setRecvBuf _, ⟨hh hd.hasRecvHeader, fun f hf hcmd => ?_⟩, ?_⟩
  · -- A command is sent back after a frame of the server has come.
    have hpos := hd.upCommand f hf hcmd
    have hcount := hd.downChain.count_eq
    exact hd.server.sendTcpMss_eq (by omega)
  · simp only [List.append_assoc, List.take_append_drop]
    exact hd.upBuf

theorem Connected.serverRecv (hd : Connected C S g upR upS downR downS fsUp fsDown d) {now : Time}
    {data : ObfsAuthChainData} {n : ℕ} (hh : d.Holds S (.serverRecv now data n)) :
    ∃ d', d.step C S (.serverRecv now data n) = some d' ∧ Phase C S d' := by
  obtain ⟨s, hstart, hs, hopen, hreads, hstream⟩ := hd.serverReads hh
  obtain ⟨done, todo, log, t, upR', hfs, hloop, hout, hopen', hch, ⟨hsuffix, hlog⟩, hbuf, hfin,
    hk⟩ := serverLoop_spec hopen hd.upChain hreads hstream false
  obtain ⟨data', hpost⟩ := serverPostDecrypt_of_start hstart hloop
  obtain ⟨buf, l, random, e, mss, hk⟩ := hk
  rw [hs] at hk
  rw [step, hpost]
  refine ⟨_, rfl, @Phase.connected C S _ g upR' upS downR downS todo fsDown
    { hd with
      server := hopen'
      hasRecvHeader := ?_
      rawTrans := ?_
      tcpMss := ?_
      clientOverHead := ?_
      unitLen := ?_
      upBuf := hbuf
      upChain := ?_
      upCommand := ?_
      upData := ?_
      upDone := hfin }⟩
  · rw [hk]; exact hd.hasRecvHeader
  · rw [hk]; exact hd.rawTrans
  · rw [hk]; exact hd.tcpMss
  · rw [hk]; exact hd.clientOverHead
  · rw [hk]; exact hd.unitLen
  · rw [← hlog]; exact hch
  · rw [← hlog]; exact fun f hf => hd.upCommand f (hsuffix.subset hf)
  · rw [hout, List.append_assoc, ← carried_append, ← hfs, hd.upData]

/-- A server with nothing on its way waits for its header. -/
theorem Idle.serverStart (hd : Idle S d) (now : Time) (data : ObfsAuthChainData) (n : ℕ) :
    serverStart C now S.users data d.server (d.up.take n) = none ∧
      serverPostDecrypt C now S.users data d.server (d.up.take n) =
        (.ok ([], false), d.server, data) := by
  have hopen : d.server.openHeader C d.server.method.salt S.users =
      (.error (.ok ([], false)), d.server.toAuthBase) := by
    rw [openHeader, if_neg, if_pos (by rw [hd.serverBuf]; decide)]
    rintro ⟨hlen, -⟩
    rw [hd.serverBuf] at hlen
    exact absurd hlen (by decide)
  have hs : { d.server with recvBuf := d.server.recvBuf ++ [] } = d.server := by
    rw [List.append_nil]
  have hr : recvHeader C now S.users data d.server =
      (.error (.ok ([], false)), d.server, data) := by
    rw [recvHeader, hopen]
  rw [hd.up.1, List.take_nil]
  refine serverStart_of_error hd.server.rawTrans_eq hd.server.hasRecvHeader_eq ?_
  rw [hs]
  exact hr

theorem Idle.serverRecv (hd : Idle S d) (now : Time) (data : ObfsAuthChainData) (n : ℕ) :
    d.step C S (.serverRecv now data n) = some d := by
  rw [step, (hd.serverStart now data n).2, hd.up.1, List.drop_nil, hd.up.2.2.2]
  simp only [List.append_nil, Sent.remaining]
  rw [← hd.up.1, ← hd.up.2.2.2]

/-- The stream that a server has a part of in its buffer begins with the header. -/
theorem Greeting.stream {up : Lane} {fs : List Frame} (hd : Greeting C S g up fs d) (n : ℕ) :
    (d.server.recvBuf ++ d.up.take n) ++ d.up.drop n = S.helloBytes C g ++ wire fs := by
  rw [List.append_assoc, List.take_append_drop, hd.upBuf]

theorem Greeting.setRecvBuf {up : Lane} {fs : List Frame} (hd : Greeting C S g up fs d)
    (buf : Bytes) : Fresh S.method S.server { d.server with recvBuf := buf } := by
  obtain ⟨h₁, h₂, h₃, h₄, h₅, h₆, h₇, h₈, h₉, h₁₀, h₁₁, h₁₂⟩ := hd.server
  exact ⟨h₁, h₂, h₃, h₄, h₅, h₆, h₇, h₈, h₉, h₁₀, h₁₁, h₁₂⟩

/-- The header is still incomplete. -/
theorem Greeting.serverStart_short {up : Lane} {fs : List Frame} (hd : Greeting C S g up fs d)
    (now : Time) (data : ObfsAuthChainData) {n : ℕ}
    (hlen : (d.server.recvBuf ++ d.up.take n).length < 36) :
    serverStart C now S.users data d.server (d.up.take n) = none ∧
      serverPostDecrypt C now S.users data d.server (d.up.take n) = (.ok ([], false),
        { d.server with recvBuf := d.server.recvBuf ++ d.up.take n }, data) := by
  obtain ⟨hk, hi, -⟩ := S.server_eq
  have hmac : d.server.serverInfo.recvIv ++ d.server.serverInfo.key = S.macKey := by
    rw [hd.server.serverInfo_eq, hi, hk]
    rfl
  have hpre : d.server.recvBuf ++ d.up.take n <+: g.header.bytes C S.macKey S.method.salt :=
    List.prefix_of_prefix_length_le ⟨_, hd.stream n⟩ (List.prefix_append _ _)
      (by simp; simp at hlen; omega)
  have hopen := openHeader_incomplete (C := C)
    (s := { d.server.toAuthBase with recvBuf := d.server.recvBuf ++ d.up.take n }) hmac hpre hlen
    S.users
  refine serverStart_of_error hd.server.rawTrans_eq hd.server.hasRecvHeader_eq ?_
  rw [recvHeader]
  dsimp only
  rw [hd.server.method_eq, hopen]

/-- The header is complete: the server reads the frames after it with the `tcp_mss` of the
    client. -/
theorem Greeting.serverReads {up : Lane} {fs : List Frame} (hd : Greeting C S g up fs d)
    {now : Time} {data : ObfsAuthChainData} {n : ℕ} (ha : d.Allowed S (.serverRecv now data n))
    (hlen : 36 ≤ (d.server.recvBuf ++ d.up.take n).length) :
    ∃ s, serverStart C now S.users data d.server (d.up.take n) =
        some { obj := s, sendback := true } ∧
      ServerOpen C (S.session C g) (S.startDown C g) (S.startUp C g) s ∧
      ServerReads (S.session C g) s s.recvBuf.length d.upLog ∧
      s.recvBuf ++ d.up.drop n = wire fs ∧ s.hasRecvHeader = true ∧ s.rawTrans = false ∧
      s.serverInfo = S.server ∧ s.clientOverHead = S.overhead := by
  obtain ⟨rest, hbuf, hrest⟩ : ∃ rest, d.server.recvBuf ++ d.up.take n =
      S.helloBytes C g ++ rest ∧ rest ++ d.up.drop n = wire fs := by
    rcases prefix_or_prefix (hd.stream n) with ⟨hp, hne⟩ | hr
    · exact absurd (hp.eq_of_length_le (by simp [Setup.helloBytes]; simp at hlen; omega)) hne
    · exact hr
  have hacc := ha hd.server.hasRecvHeader_eq hlen
  obtain ⟨s, data', hr, hopen, ⟨hrecv, hsend⟩, hbuf', hhead, hraw, hinfo, hover⟩ :=
    recvHeader_hello (C := C) S hd.overhead_lt (hd.setRecvBuf _) hbuf hd.knows hd.greets hacc
  refine ⟨s, serverStart_of_ok hd.server.rawTrans_eq hd.server.hasRecvHeader_eq hr, hopen,
    ⟨fun before f hf hcmd => ?_, fun f hf hcmd => ?_⟩, by rw [hbuf']; exact hrest, hhead, hraw,
    hinfo, hover⟩
  · obtain ⟨⟨after, hlog⟩, -⟩ := hf
    have hmss : f.tcpMss = g.mss := by
      have h := hd.upChain.forall_mem (fun hc => hc.2) f (by rw [hlog]; simp)
      rw [hcmd] at h
      exact h
    rw [Sent.Alike, serverRecvMss, hrecv, hsend, ite_self, hmss]
  · rw [hd.upCommand f hf] at hcmd
    cases hcmd

theorem Greeting.serverRecv {up : Lane} {fs : List Frame} (hd : Greeting C S g up fs d)
    {now : Time} {data : ObfsAuthChainData} {n : ℕ} (ha : d.Allowed S (.serverRecv now data n)) :
    ∃ d', d.step C S (.serverRecv now data n) = some d' ∧ Phase C S d' := by
  by_cases hlen : (d.server.recvBuf ++ d.up.take n).length < 36
  · rw [step, (hd.serverStart_short now data hlen).2]
    have hlog : Sent.remaining ((d.server.recvBuf ++ d.up.take n).length + (d.up.drop n).length)
        d.upLog = d.upLog := by
      refine Sent.remaining_of_le ?_
      rw [hd.upChain.total_eq, ← List.length_append, hd.stream n, List.length_append]
      exact Nat.le_add_left _ _
    refine ⟨_, rfl, @Phase.greeting C S _ g up fs
      { hd with
        server := hd.setRecvBuf _
        upBuf := hd.stream n
        short := hlen
        upChain := ?_
        upCommand := ?_
        upData := ?_ }⟩
    · rw [hlog]; exact hd.upChain
    · rw [hlog]; exact hd.upCommand
    · exact ⟨hd.upData.1, by rw [hd.upData.2]; rfl⟩
  · obtain ⟨s, hstart, hopen, hreads, hstream, hhead, hraw, hinfo, hover⟩ :=
      hd.serverReads ha (not_lt.1 hlen)
    obtain ⟨done, todo, log, t, upR', hfs, hloop, hout, hopen', hch, ⟨hsuffix, hlog⟩, hbuf, hfin,
      hkept⟩ := serverLoop_spec hopen hd.upChain hreads hstream true
    obtain ⟨data', hpost⟩ := serverPostDecrypt_of_start hstart hloop
    obtain ⟨buf, l, random, e, mss, hkept⟩ := hkept
    rw [step, hpost]
    refine ⟨_, rfl, @Phase.connected C S _ g upR' up (S.startDown C g) (S.startDown C g) todo []
      { client := hd.client
        server := hopen'
        hasRecvHeader := ?_
        rawTrans := ?_
        tcpMss := ?_
        clientOverHead := ?_
        unitLen := fun h => absurd h (lt_irrefl 0)
        frames := hd.frames.symm
        frames_le := ?_
        upBuf := hbuf
        upChain := ?_
        upCommand := ?_
        upData := ?_
        upDone := hfin
        downBuf := ?_
        downChain := ?_
        downData := ?_
        downDone := fun _ => rfl }⟩
    · rw [hkept]; exact hhead
    · rw [hkept]; exact hraw
    · rw [hkept]; exact congrArg ServerInfo.tcpMss hinfo
    · rw [hkept]; exact hover
    · rw [hd.frames]; exact Nat.zero_le _
    · rw [← hlog]; exact hch
    · rw [← hlog]
      intro f hf hcmd
      rw [hd.upCommand f (hsuffix.subset hf)] at hcmd
      cases hcmd
    · rw [hout, hd.upData.2, List.nil_append, ← carried_append, ← hfs, hd.upData.1]
    · rw [hd.clientBuf, hd.down.1]; rfl
    · rw [hd.down.2.2.2]; exact .nil _
    · rw [hd.down.2.1, hd.down.2.2.1]; rfl

/-! ## Runs -/

/-- An event leads from phase to phase: no call raises, and every call returns. -/
theorem Phase.step (hd : Phase C S d) {e : Event} (ha : d.Allowed S e) (hh : d.Holds S e) :
    ∃ d', d.step C S e = some d' ∧ Phase C S d' := by
  cases hd with
  | idle hi =>
    cases e with
    | clientSend now buf => exact hi.clientSend hh
    | serverSend buf =>
      have : d.server.hasRecvHeader = true := ha
      rw [hi.server.hasRecvHeader_eq] at this
      cases this
    | clientRecv n =>
      exact ⟨d, clientRecv_nil hi.client.rawTrans_eq hi.clientBuf hi.down.1 hi.down.2.2.2 n,
        .idle hi⟩
    | serverRecv now data n => exact ⟨d, hi.serverRecv now data n, .idle hi⟩
  | greeting hg =>
    cases e with
    | clientSend now buf => exact hg.clientSend now buf
    | serverSend buf =>
      have : d.server.hasRecvHeader = true := ha
      rw [hg.server.hasRecvHeader_eq] at this
      cases this
    | clientRecv n =>
      exact ⟨d, clientRecv_nil hg.client.rawTrans hg.clientBuf hg.down.1 hg.down.2.2.2 n,
        .greeting hg⟩
    | serverRecv now data n => exact hg.serverRecv ha
  | connected hc =>
    cases e with
    | clientSend now buf => exact hc.clientSend now buf
    | serverSend buf => exact hc.serverSend hh
    | clientRecv n => exact hc.clientRecv hh
    | serverRecv now data n => exact hc.serverRecv hh

/-- In every phase, the receivers compute the numbers of random bytes of the senders. -/
theorem Phase.agrees (hd : Phase C S d) {e : Event} (ha : d.Allowed S e) (hh : d.Holds S e) :
    d.RndLensAgree C S e := by
  cases e with
  | clientSend now buf => trivial
  | serverSend buf => trivial
  | clientRecv n =>
    cases hd with
    | idle hi => exact rndLensAgree_nil hi.clientBuf hi.down.1 n
    | greeting hg => exact rndLensAgree_nil hg.clientBuf hg.down.1 n
    | connected hc =>
      intro t ht hlen
      obtain ⟨hopen, hreads, hstream⟩ := hc.clientReads hh
      exact clientLoop_rndLen hopen hc.downChain (by rw [hc.frames]; exact hc.frames_le) hreads
        hstream ht hlen
  | serverRecv now data n =>
    intro t₀ t hstart ht hlen
    cases hd with
    | idle hi => cases (hi.serverStart now data n).1.symm.trans hstart
    | greeting hg =>
      by_cases hshort : (d.server.recvBuf ++ d.up.take n).length < 36
      · cases (hg.serverStart_short now data hshort).1.symm.trans hstart
      · obtain ⟨s, hs, hopen, hreads, hstream, -⟩ := hg.serverReads ha (not_lt.1 hshort)
        cases hs.symm.trans hstart
        exact serverLoop_rndLen hopen hg.upChain hreads hstream true ht hlen
    | connected hc =>
      obtain ⟨s, hs, -, hopen, hreads, hstream⟩ := hc.serverReads hh
      cases hs.symm.trans hstart
      exact serverLoop_rndLen hopen hc.upChain hreads hstream false ht hlen

/-- A run leads to a phase. -/
theorem exec_phase {localData : LocalData} {rng rng' : Rng} {events : List Event}
    (h : Run.Throughout (Duplex.step C S) (fun d e => d.Allowed S e ∧ d.Holds S e)
      (init S localData rng rng') events) :
    ∃ d, Run.exec (Duplex.step C S) (init S localData rng rng') events = some d ∧ Phase C S d :=
  Run.exec_isSome_of_throughout (fun _ _ hp hg => hp.step hg.1 hg.2)
    (phase_init localData rng rng') h

/-- What has come out of a connection: a part of what has gone in, and all of it when nothing is
    on its way. -/
structure Delivered (d : Duplex) : Prop where
  rawTrans : d.client.rawTrans = false ∧ d.server.rawTrans = false
  up_prefix : d.gotUp <+: d.sentUp
  up_eq : d.up = [] → d.gotUp = d.sentUp
  down_prefix : d.gotDown <+: d.sentDown
  down_eq : d.down = [] → d.gotDown = d.sentDown

theorem Phase.delivered (hd : Phase C S d) : Delivered d := by
  cases hd with
  | idle hi =>
    obtain ⟨-, hsent, hgot, -⟩ := hi.up
    obtain ⟨-, hsent', hgot', -⟩ := hi.down
    exact ⟨⟨hi.client.rawTrans_eq, hi.server.rawTrans_eq⟩, by rw [hgot]; exact List.nil_prefix,
      fun _ => by rw [hgot, hsent], by rw [hgot']; exact List.nil_prefix,
      fun _ => by rw [hgot', hsent']⟩
  | greeting hg =>
    obtain ⟨-, hsent', hgot', -⟩ := hg.down
    refine ⟨⟨hg.client.rawTrans, hg.server.rawTrans_eq⟩, by rw [hg.upData.2]; exact List.nil_prefix,
      fun hup => ?_, by rw [hgot']; exact List.nil_prefix, fun _ => by rw [hgot', hsent']⟩
    -- A part of the header is on its way.
    have hlen := congrArg List.length hg.upBuf
    have := hg.short
    rw [hup] at hlen
    simp only [List.append_nil, List.length_append, Setup.helloBytes, Header.length_bytes] at hlen
    omega
  | connected hc =>
    refine ⟨⟨hc.client.rawTrans, hc.rawTrans⟩, ⟨_, hc.upData⟩, fun hup => ?_, ⟨_, hc.downData⟩,
      fun hdown => ?_⟩
    · rw [← hc.upData, hc.upDone hup, List.append_nil]
    · rw [← hc.downData, hc.downDone hdown, List.append_nil]

/-- Along every run whose steps meet the condition, no call raises or falls back, what comes out in
    either direction is what has gone in, and in every turn of a receiving loop,
    `recv_rnd_data_len` returns what `send_rnd_data_len` returned for that frame. -/
theorem akarin_round_trip (localData : LocalData) (rng rng' : Rng) (events : List Event)
    (h : Run.Throughout (Duplex.step C S) (fun d e => d.Allowed S e ∧ d.Holds S e)
      (init S localData rng rng') events) :
    ∃ d, Run.exec (Duplex.step C S) (init S localData rng rng') events = some d ∧ Delivered d ∧
      Run.Throughout (Duplex.step C S) (RndLensAgree C S) (init S localData rng rng') events := by
  obtain ⟨d, hd, hp⟩ := exec_phase h
  refine ⟨d, hd, hp.delivered, fun before e after d₁ hevents hd₁ => ?_⟩
  obtain ⟨ha, hh⟩ := h before e after d₁ hevents hd₁
  rw [hevents] at h
  obtain ⟨d₂, hd₂, hp₂⟩ := exec_phase h.left
  cases hd₁.symm.trans hd₂
  exact hp₂.agrees ha hh

/-! ## A first buffer of the server -/

/-- The server information of both ends. -/
def nullInfo : ServerInfo where
  key := []
  iv := []
  recvIv := []
  protocolParam := []
  overhead := 0
  tcpMss := 1500

/-- A server without users. -/
def nullSetup : Setup where
  method := .rand
  noCompatible := true
  key := []
  iv := []
  overhead := 0
  users := Dict.empty
  client := nullInfo
  server := nullInfo
  client_eq := ⟨rfl, rfl, rfl⟩
  server_eq := ⟨rfl, rfl, rfl⟩
  registered := .inr ⟨by decide, rfl⟩
  tcpMss_mem := by decide

/-- A connection at its beginning, of which the client draws the `tcp_mss` 400. -/
def nullStart : Duplex :=
  init nullSetup { localClientId := [9, 8, 7, 6], connectionId := 5 } (fun _ => 0) (fun _ => 0)

/-- A buffer in each direction. -/
def hello (buf : Bytes) : List Event :=
  [.clientSend 0 [1], .serverRecv 0 {} 5000, .serverSend buf, .clientRecv 5000]

/-- A buffer that makes a frame of 401 bytes, with its two bytes in front. -/
def longBuf : Bytes := List.replicate 399 7

/-- The state of a run of the setup. -/
abbrev nullExec (d : Duplex) (events : List Event) : Option Duplex :=
  Run.exec (Duplex.step plainCrypto nullSetup) d events

theorem nullExec_clientSend : (nullExec nullStart [.clientSend 0 [1]]).map
    (fun d => (d.server.hasRecvHeader, d.clock, d.client.localData.localClientId,
      d.client.localData.connectionId)) = some (false, 0, [9, 8, 7, 6], 6) := by
  decide +kernel

theorem nullExec_serverRecv : (nullExec nullStart [.clientSend 0 [1], .serverRecv 0 {} 5000]).map
    (fun d => (d.server.hasRecvHeader, d.frames)) = some (true, 0) := by
  decide +kernel

theorem nullExec_serverSend :
    (nullExec nullStart [.clientSend 0 [1], .serverRecv 0 {} 5000, .serverSend longBuf]).map
      (fun d => (d.downLog, d.client.recvTcpMss, d.client.sendTcpMss)) =
    some ([⟨401, 400, 167, false⟩], 2000, 400) := by
  decide +kernel

theorem nullExec_hello : (nullExec nullStart (hello [7])).map
    (fun d => (d.down, d.gotDown, d.sentDown)) = some ([], [], [7]) := by
  decide +kernel

/-- The server accepts the handshake, and sends after it. -/
theorem allowed_hello (buf : Bytes) : Run.Throughout (Duplex.step plainCrypto nullSetup)
    (Allowed nullSetup) nullStart (hello buf) := by
  refine .cons trivial fun d₁ h₁ => ?_
  refine .cons (fun _ _ => ?_) fun d₂ h₂ => ?_
  · have hsent := nullExec_clientSend
    rw [nullExec, Run.exec_singleton, h₁, Option.map_some, Option.some.injEq, Prod.mk.injEq,
      Prod.mk.injEq, Prod.mk.injEq] at hsent
    obtain ⟨-, hclock, hid, hconn⟩ := hsent
    rw [hclock]
    refine ⟨by decide, ?_⟩
    rw [hid, hconn]
    exact ⟨_, rfl⟩
  · have hrecv := nullExec_serverRecv
    rw [nullExec, Run.exec_cons_of_step h₁, Run.exec_singleton, h₂, Option.map_some,
      Option.some.injEq, Prod.mk.injEq] at hrecv
    exact .cons hrecv.1 fun d₃ _ => .cons trivial fun d₄ _ => Run.throughout_nil _

/-- The frame of the long buffer has the modulus 521 for both ends. -/
theorem holds_hello : Run.Throughout (Duplex.step plainCrypto nullSetup) (Holds nullSetup)
    nullStart (hello longBuf) := by
  refine .cons (fun _ => by decide) fun d₁ h₁ => ?_
  refine .cons (fun hhead => ?_) fun d₂ h₂ => ?_
  · have hsent := nullExec_clientSend
    rw [nullExec, Run.exec_singleton, h₁, Option.map_some, Option.some.injEq, Prod.mk.injEq,
      hhead] at hsent
    cases hsent.1
  have hrecv := nullExec_serverRecv
  rw [nullExec, Run.exec_cons_of_step h₁, Run.exec_singleton, h₂, Option.map_some,
    Option.some.injEq, Prod.mk.injEq] at hrecv
  refine .cons ⟨by decide, by rw [hrecv.2]; decide +kernel⟩ fun d₃ h₃ => ?_
  have hlog := nullExec_serverSend
  rw [nullExec, Run.exec_cons_of_step h₁, Run.exec_cons_of_step h₂, Run.exec_singleton, h₃,
    Option.map_some, Option.some.injEq, Prod.mk.injEq, Prod.mk.injEq] at hlog
  obtain ⟨hlog, hrecvMss, hsendMss⟩ := hlog
  refine .cons ?_ fun d₄ _ => Run.throughout_nil _
  rintro before f ⟨⟨after, hf⟩, -⟩
  -- There is no other frame.
  rw [hlog] at hf
  obtain ⟨rfl, rfl⟩ : before = [] ∧ f = ⟨401, 400, 167, false⟩ := by
    cases before with
    | nil => exact ⟨rfl, (List.cons.inj hf).1.symm⟩
    | cons g before => simp at hf
  rw [clientRecvMss, if_pos rfl, hrecvMss, hsendMss]
  exact (padBound_rand_first_iff (by norm_num) (by decide) (by decide)).2
    (.inr ⟨by norm_num, .inl (by norm_num)⟩)

theorem akarin_round_trip_hello :
    ∃ d, nullExec nullStart (hello longBuf) = some d ∧ Delivered d ∧
      Run.Throughout (Duplex.step plainCrypto nullSetup) (RndLensAgree plainCrypto nullSetup)
        nullStart (hello longBuf) :=
  akarin_round_trip _ _ _ (hello longBuf) ((allowed_hello longBuf).and holds_hello)

/-- Every run delivers what has gone in. -/
def Delivers (C : Crypto) (S : Setup) : Prop :=
  ∀ localData rng rng' events,
    Run.Throughout (Duplex.step C S) (Allowed S) (init S localData rng rng') events →
    ∃ d, Run.exec (Duplex.step C S) (init S localData rng rng') events = some d ∧ Delivered d ∧
      Run.Throughout (Duplex.step C S) (RndLensAgree C S) (init S localData rng rng') events

/-- A short first buffer of the server: the client waits for more bytes than have been sent. -/
theorem akarin_not_delivers : ¬Delivers plainCrypto nullSetup := by
  intro hdel
  obtain ⟨d, hd, hdelivered, -⟩ := hdel { localClientId := [9, 8, 7, 6], connectionId := 5 }
    (fun _ => 0) (fun _ => 0) (hello [7]) (allowed_hello [7])
  have hlost : (nullExec nullStart (hello [7])).map (fun d => (d.down, d.gotDown, d.sentDown)) =
      some (d.down, d.gotDown, d.sentDown) := congrArg (Option.map _) hd
  rw [nullExec_hello, Option.some.injEq, Prod.mk.injEq, Prod.mk.injEq] at hlost
  obtain ⟨hdown, hgot, hsent⟩ := hlost
  have heq := hdelivered.down_eq hdown.symm
  rw [← hgot, ← hsent] at heq
  cases heq

end Duplex

end AuthAkarin

end ShadowsocksR

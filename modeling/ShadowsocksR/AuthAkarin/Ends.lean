import ShadowsocksR.AuthAkarin.ServerLoop
import ShadowsocksR.AuthAkarin.ClientLoop

/-!
# The two ends of an auth_akarin connection

The states of a client and of a server after the handshake (`ClientOpen`,
`ServerOpen`), and what their calls do in them.

* `serverLoop_spec`, `clientLoop_spec`: what comes out of a part of the stream,
  wherever it is cut;
* `clientPreEncrypt_spec`, `serverPreEncrypt_spec`: the frames of a buffer.
-/

namespace ShadowsocksR

namespace AuthAkarin

open AuthBase Encryptor
open AuthChain (Lane serverUnit serverPieces)

variable {C : Crypto} {P : Session} {s : AuthAkarin} {t : Recv} {l' : Lane} {log : List Sent}

/-! ## Open connections -/

/-- An object that sends on the lane `out` and receives on the lane `inn`. -/
structure Open (C : Crypto) (P : Session) (iv otherIv : Bytes) (out inn : Lane)
    (outHash inHash : Bytes) (s : AuthAkarin) : Prop extends Ready P s where
  packId_eq : s.packId = out.id
  recvId_eq : s.recvId = inn.id
  outHash_eq : outHash = out.hash
  inHash_eq : inHash = inn.hash
  stream : ∃ e, s.encryptor = some e ∧
    IvStream C P.streamKey iv otherIv out.carried inn.carried e

/-- An open client. -/
structure ClientOpen (C : Crypto) (P : Session) (out inn : Lane) (s : AuthAkarin) : Prop extends
    Open C P P.clientIv P.serverIv out inn s.lastClientHash s.lastServerHash s,
    ClientMss P inn.count s where
  sendTcpMss_eq : inn.count = 0 → s.sendTcpMss = P.clientMss

/-- An open server. -/
structure ServerOpen (C : Crypto) (P : Session) (out inn : Lane) (s : AuthAkarin) : Prop extends
    Open C P P.serverIv P.clientIv out inn s.lastServerHash s.lastClientHash s where
  sendTcpMss_le : s.sendTcpMss ≤ 2000
  sendTcpMss_eq : 0 < out.count → s.sendTcpMss = P.serverMss
  newSendTcpMss_eq : 0 < out.count → s.newSendTcpMss = P.serverMss

variable {out inn : Lane} {fs : List Frame} {fut : Bytes}

theorem ClientOpen.setRecvBuf (h : ClientOpen C P out inn s) (buf : Bytes) :
    ClientOpen C P out inn { s with recvBuf := buf } :=
  ⟨⟨⟨h.method_eq, h.lists_eq, h.overhead_eq, h.userKey_eq⟩, h.packId_eq, h.recvId_eq, h.outHash_eq,
    h.inHash_eq, h.stream⟩, ⟨h.sendBackCmd_iff, h.tcpMss_eq, h.recvTcpMss_eq⟩, h.sendTcpMss_eq⟩

theorem ServerOpen.setRecvBuf (h : ServerOpen C P out inn s) (buf : Bytes) :
    ServerOpen C P out inn { s with recvBuf := buf } :=
  ⟨⟨⟨h.method_eq, h.lists_eq, h.overhead_eq, h.userKey_eq⟩, h.packId_eq, h.recvId_eq, h.outHash_eq,
    h.inHash_eq, h.stream⟩, h.sendTcpMss_le, h.sendTcpMss_eq, h.newSendTcpMss_eq⟩

theorem ClientOpen.sends (h : ClientOpen C P out inn s) :
    ClientSends C P s.sendBackCmd inn.carried out s :=
  ⟨⟨h.method_eq, h.lists_eq, h.overhead_eq, h.userKey_eq, h.packId_eq, h.outHash_eq, h.stream⟩, rfl,
    fun hcmd => h.sendTcpMss_eq (Nat.eq_zero_of_not_pos fun hpos =>
      h.sendBackCmd_iff.2 hpos hcmd),
    fun hcmd => h.recvTcpMss_eq (h.sendBackCmd_iff.1 hcmd)⟩

/-! ## Receiving -/

/-- What receiving keeps of a server. -/
def ServerRecvKept (s s' : AuthAkarin) : Prop :=
  ∃ buf l random e mss, s' = serverReceived s buf l random e mss

/-- What receiving keeps of a client. -/
def ClientRecvKept (s s' : AuthAkarin) : Prop :=
  ∃ buf l random e tcpMss recvMss cmd, s' = clientReceived s buf l random e tcpMss recvMss cmd

theorem ServerOpen.awaits (hs : ServerOpen C P out inn s)
    (hch : Chain C P P.clientIv (CarriesUp P) inn fs log l') (sendback : Bool) :
    ServerAwaits C P s out.carried l' s.recvBuf.length log fs { obj := s, sendback } := by
  obtain ⟨e, he, hst⟩ := hs.stream
  have : ServerAwaits C P s out.carried l' s.recvBuf.length log fs
      { obj := serverReceived s s.recvBuf inn s.randomClient e s.recvTcpMss, sendback } :=
    .intro hst hch (List.nil_append log).symm (Nat.zero_add _) fun _ _ _ => rfl
  rw [serverReceived, ← he, ← hs.recvId_eq, ← hs.inHash_eq] at this
  exact this

theorem ClientOpen.awaits (hs : ClientOpen C P out inn s)
    (hch : Chain C P P.serverIv (CarriesDown P) inn fs log l') :
    ClientAwaits C P s out.carried l' s.recvBuf.length log fs { obj := s } := by
  obtain ⟨e, he, hst⟩ := hs.stream
  have : ClientAwaits C P s out.carried l' s.recvBuf.length log fs
      { obj := clientReceived s s.recvBuf inn s.randomServer e s.serverInfo.tcpMss s.recvTcpMss
          s.sendBackCmd } :=
    .intro hst hch (List.nil_append log).symm (Nat.zero_add _) (fun _ => rfl) rfl
      ⟨hs.sendBackCmd_iff, hs.tcpMss_eq, hs.recvTcpMss_eq⟩
  rw [clientReceived, ← he, ← hs.recvId_eq, ← hs.inHash_eq] at this
  exact this

/-- The loop of an open server, on a part of the frames that it expects. -/
theorem serverLoop_spec (hs : ServerOpen C P out inn s)
    (hch : Chain C P P.clientIv (CarriesUp P) inn fs log l')
    (hr : ServerReads P s s.recvBuf.length log) (hbuf : s.recvBuf ++ fut = wire fs)
    (sendback : Bool) :
    ∃ done todo log' t' inn', fs = done ++ todo ∧
      loop (serverRecvBody C) (s.recvBuf.length + 1) { obj := s, sendback } = .done t' ∧
      t'.outBuf = carried done ∧ ServerOpen C P out inn' t'.obj ∧
      Chain C P P.clientIv (CarriesUp P) inn' todo log' l' ∧
      (log' <:+ log ∧ log' = Sent.remaining (t'.obj.recvBuf.length + fut.length) log) ∧
      t'.obj.recvBuf ++ fut = wire todo ∧ (fut = [] → carried todo = []) ∧
      ServerRecvKept s t'.obj := by
  obtain ⟨done, todo, t', hfs, hloop, hbuf', hout, hawait', hfin⟩ :=
    (serverLockstep hs.toReady hr).loop_spec (s.recvBuf.length + 1) (hs.awaits hch sendback) hbuf
      (Nat.lt_succ_self _)
  cases hawait' with
  | @intro before log' buf' out' inn' random' e' mss' sendback' hst' hch' hlog' havail' hmss' =>
    have hsuffix : log' <:+ log := ⟨before, hlog'.symm⟩
    have hlen := congrArg List.length hbuf'
    rw [List.length_append, ← hch'.total_eq] at hlen
    exact ⟨done, todo, log', _, inn', hfs, hloop, hout,
      ⟨⟨⟨hs.method_eq, hs.lists_eq, hs.overhead_eq, hs.userKey_eq⟩, hs.packId_eq, rfl,
        hs.outHash_eq, rfl, e', rfl, hst'⟩, hs.sendTcpMss_le, hs.sendTcpMss_eq,
        hs.newSendTcpMss_eq⟩, hch', ⟨hsuffix, by rw [hlen, Sent.remaining_total hsuffix]⟩, hbuf',
      hfin, _, _, _, _, _, rfl⟩

theorem serverLoop_rndLen (hs : ServerOpen C P out inn s)
    (hch : Chain C P P.clientIv (CarriesUp P) inn fs log l')
    (hr : ServerReads P s s.recvBuf.length log) (hbuf : s.recvBuf ++ fut = wire fs)
    (sendback : Bool) (ht : Turns (serverRecvBody C) { obj := s, sendback } t)
    (hlen : 4 < t.obj.recvBuf.length) :
    ∃ f, (Sent.remaining (t.obj.recvBuf.length + fut.length) log).head? = some f ∧
      serverRndLen t.obj = .ok f.randLen := by
  obtain ⟨todo, hawait, hbuf'⟩ :=
    (serverLockstep hs.toReady hr).turns (hs.awaits hch sendback) hbuf ht
  exact hawait.rndLen hs.toReady hr hbuf' hlen

/-- The loop of an open client. -/
theorem clientLoop_spec (hs : ClientOpen C P out inn s)
    (hch : Chain C P P.serverIv (CarriesDown P) inn fs log l') (hcount : l'.count ≤ 2 ^ 32)
    (hr : ClientReads P s s.recvBuf.length log) (hbuf : s.recvBuf ++ fut = wire fs) :
    ∃ done todo log' t' inn', fs = done ++ todo ∧
      loop (clientRecvBody C) (s.recvBuf.length + 1) { obj := s } = .done t' ∧
      t'.outBuf = carried done ∧ ClientOpen C P out inn' t'.obj ∧
      Chain C P P.serverIv (CarriesDown P) inn' todo log' l' ∧
      (log' <:+ log ∧ log' = Sent.remaining (t'.obj.recvBuf.length + fut.length) log) ∧
      t'.obj.recvBuf ++ fut = wire todo ∧ (fut = [] → carried todo = []) ∧
      ClientRecvKept s t'.obj := by
  obtain ⟨done, todo, t', hfs, hloop, hbuf', hout, hawait', hfin⟩ :=
    (clientLockstep hs.toReady hr hcount).loop_spec (s.recvBuf.length + 1) (hs.awaits hch) hbuf
      (Nat.lt_succ_self _)
  have hle : inn.count ≤ l'.count - todo.length := by
    have := hch.count_eq
    rw [hfs, List.length_append] at this
    omega
  cases hawait' with
  | @intro before log' buf' out' inn' random' e' tcpMss' recvMss' cmd' sendback' hst' hch' hlog'
      havail' hout' hmss' hknown' =>
    have hsuffix : log' <:+ log := ⟨before, hlog'.symm⟩
    have hlen := congrArg List.length hbuf'
    rw [List.length_append, ← hch'.total_eq] at hlen
    have hcount' := hch'.count_eq
    exact ⟨done, todo, log', _, inn', hfs, hloop, hout,
      ⟨⟨⟨hs.method_eq, hs.lists_eq, hs.overhead_eq, hs.userKey_eq⟩, hs.packId_eq, rfl,
        hs.outHash_eq, rfl, e', rfl, hst'⟩, hknown', fun h => hs.sendTcpMss_eq (by omega)⟩, hch',
      ⟨hsuffix, by rw [hlen, Sent.remaining_total hsuffix]⟩, hbuf', hfin,
      _, _, _, _, _, _, _, rfl⟩

theorem clientLoop_rndLen (hs : ClientOpen C P out inn s)
    (hch : Chain C P P.serverIv (CarriesDown P) inn fs log l') (hcount : l'.count ≤ 2 ^ 32)
    (hr : ClientReads P s s.recvBuf.length log) (hbuf : s.recvBuf ++ fut = wire fs)
    (ht : Turns (clientRecvBody C) { obj := s } t) (hlen : 4 < t.obj.recvBuf.length) :
    ∃ f, (Sent.remaining (t.obj.recvBuf.length + fut.length) log).head? = some f ∧
      clientRndLen t.obj = .ok f.randLen := by
  obtain ⟨todo, hawait, hbuf'⟩ :=
    (clientLockstep hs.toReady hr hcount).turns (hs.awaits hch) hbuf ht
  exact hawait.rndLen hs.toReady hr hbuf' hlen

/-- The state in which the loop of `server_post_decrypt` begins, if the call gets that far. -/
def serverStart (C : Crypto) (now : Time) (users : Dict Bytes Bytes) (data : ObfsAuthChainData)
    (s : AuthAkarin) (buf : Bytes) : Option Recv :=
  if s.rawTrans then none
  else
    let s := { s with recvBuf := s.recvBuf ++ buf }
    match if s.hasRecvHeader then (.ok false, s, data) else s.recvHeader C now users data with
    | (.error _, _, _) => none
    | (.ok sendback, s, _) => some { obj := s, sendback }

/-- The state in which the loop of `client_post_decrypt` begins. -/
def clientStart (s : AuthAkarin) (buf : Bytes) : Recv :=
  { obj := { s with recvBuf := s.recvBuf ++ buf } }

/-- A server receives a chunk. -/
theorem serverPostDecrypt_of_start {now : Time} {users : Dict Bytes Bytes}
    {data : ObfsAuthChainData} {buf : Bytes} {t₀ : Recv}
    (h : serverStart C now users data s buf = some t₀)
    (hloop : loop (serverRecvBody C) (t₀.obj.recvBuf.length + 1) t₀ = .done t) :
    ∃ data', serverPostDecrypt C now users data s buf =
      (.ok (t.outBuf, t.sendback), t.obj, data') := by
  rw [serverStart] at h
  rw [serverPostDecrypt]
  by_cases hraw : s.rawTrans = true
  · rw [if_pos hraw] at h
    cases h
  rw [if_neg hraw] at h ⊢
  dsimp only at h ⊢
  by_cases hhead : s.hasRecvHeader = true
  · rw [if_pos hhead] at h ⊢
    cases h
    dsimp only
    rw [hloop]
    exact finishRecv_eq now data t
  · rw [if_neg hhead] at h ⊢
    rcases hr : recvHeader C now users data { s with recvBuf := s.recvBuf ++ buf } with
      ⟨r | sendback, s₁, data₁⟩
    · rw [hr] at h
      cases h
    · rw [hr] at h
      cases h
      dsimp only
      rw [hloop]
      exact finishRecv_eq now data₁ t

section Start

variable {now : Time} {users : Dict Bytes Bytes} {data data₁ : ObfsAuthChainData} {buf : Bytes}
  {s₁ : AuthAkarin}

/-- A server that has its header. -/
theorem serverStart_of_hasRecvHeader (hraw : s.rawTrans = false) (hhead : s.hasRecvHeader = true) :
    serverStart C now users data s buf =
      some { obj := { s with recvBuf := s.recvBuf ++ buf }, sendback := false } := by
  rw [serverStart, if_neg (by rw [hraw]; decide)]
  dsimp only
  rw [if_pos hhead]

/-- A server that receives its header, and what comes with it. -/
theorem serverStart_of_ok (hraw : s.rawTrans = false) (hhead : s.hasRecvHeader = false)
    {sendback : Bool} (hr : recvHeader C now users data { s with recvBuf := s.recvBuf ++ buf } =
      (.ok sendback, s₁, data₁)) :
    serverStart C now users data s buf = some { obj := s₁, sendback } := by
  rw [serverStart, if_neg (by rw [hraw]; decide)]
  dsimp only
  rw [if_neg (by rw [hhead]; decide), hr]

/-- A server that returns after a part of its header. -/
theorem serverStart_of_error (hraw : s.rawTrans = false) (hhead : s.hasRecvHeader = false)
    {r : Result} (hr : recvHeader C now users data { s with recvBuf := s.recvBuf ++ buf } =
      (.error r, s₁, data₁)) :
    serverStart C now users data s buf = none ∧
      serverPostDecrypt C now users data s buf = (r, s₁, data₁) := by
  rw [serverStart, serverPostDecrypt, if_neg (by rw [hraw]; decide), if_neg (by rw [hraw]; decide)]
  dsimp only
  rw [if_neg (by rw [hhead]; decide), hr]
  exact ⟨rfl, rfl⟩

end Start

/-- A client receives a chunk. -/
theorem clientPostDecrypt_of_done {buf : Bytes} (hraw : s.rawTrans = false)
    (hloop : loop (clientRecvBody C) ((s.recvBuf ++ buf).length + 1) (clientStart s buf) =
      .done t) :
    clientPostDecrypt C s buf = (.ok t.outBuf, t.obj) := by
  rw [clientStart] at hloop
  rw [clientPostDecrypt, if_neg (by rw [hraw]; decide)]
  dsimp only
  rw [hloop]

/-- A client that has nothing to receive. -/
theorem clientPostDecrypt_nil (hraw : s.rawTrans = false) (hbuf : s.recvBuf = []) :
    clientPostDecrypt C s [] = (.ok [], s) := by
  have hs : { s with recvBuf := s.recvBuf ++ [] } = s := by rw [List.append_nil]
  have hshort : clientRecvBody C { obj := s } = .done { obj := s } :=
    clientRecvBody_short (by rw [hbuf]; decide)
  refine clientPostDecrypt_of_done (t := { obj := s }) hraw ?_
  rw [clientStart, hs, loop_succ_of_done hshort]

/-! ## Sending -/

theorem ClientSends.open {cmd : List ℕ} (h : ClientSends C P cmd inn.carried out s)
    (hid : s.recvId = inn.id) (hin : s.lastServerHash = inn.hash) (hmss : ClientMss P inn.count s) :
    ClientOpen C P out inn s where
  method_eq := h.method_eq
  lists_eq := h.lists_eq
  overhead_eq := h.overhead_eq
  userKey_eq := h.userKey_eq
  packId_eq := h.packId_eq
  recvId_eq := hid
  outHash_eq := h.hash_eq
  inHash_eq := hin
  stream := h.stream
  toClientMss := hmss
  sendTcpMss_eq hz := h.sendTcpMss_eq (not_not.1 fun hcmd => by
    have := hmss.sendBackCmd_iff.1 (by rw [h.sendBackCmd_eq]; exact hcmd)
    omega)

/-- A buffer of an open client. -/
theorem clientPreEncrypt_spec (hs : ClientOpen C P out inn s) (hsent : s.hasSentHeader = true)
    (hunit : s.unitLen = 2800) (now : Time) (buf : Bytes) :
    ∃ t' fs out', clientPreEncrypt C (buf.length + 1) now s buf = .done t' ∧ t'.ret = wire fs ∧
      Chain C P P.clientIv (CarriesUp P) out fs (sentAll (packClientData C) clientSent s t'.packed)
        out' ∧ carried fs = buf ∧ fs ≠ [] ∧ ClientOpen C P out' inn t'.obj ∧
      (∀ f ∈ sentAll (packClientData C) clientSent s t'.packed, f.command = true →
        0 < inn.count) ∧ ClientKept s t'.obj := by
  obtain ⟨t', ps, fs, out', h, hpacked, hret, hch, hc, hlen, hs', hall, hk⟩ :=
    (clientPacker C P s.sendBackCmd inn.carried).cut_chain (CarriesUp P)
      (show 0 < 2800 by norm_num) le_rfl (buf.length + 1) (t := { obj := s, buf }) hs.sends
      (Nat.lt_succ_self _) fun n f p _ hf => hf.carriesUp n p
  obtain rfl : t'.packed = ps := hpacked
  have hkept := hk
  rw [ClientKept] at hkept
  refine ⟨t', fs, out', ?_, by rw [hret]; rfl, hch, hc, ?_, ?_, fun f hf hcmd => ?_, hk⟩
  · rw [clientPreEncrypt, if_pos hsent, hunit]
    exact h
  · exact List.ne_nil_of_length_pos (by rw [hlen]; exact Nat.succ_pos _)
  · refine hs'.open (by rw [hkept]; exact hs.recvId_eq) (by rw [hkept]; exact hs.inHash_eq) ?_
    rw [hkept]
    exact ⟨hs.sendBackCmd_iff, hs.tcpMss_eq, hs.recvTcpMss_eq⟩
  · exact hs.sendBackCmd_iff.1 ((hall f hf).command_iff.1 hcmd)

/-- The object with which `server_pre_encrypt` packs a buffer. -/
def packing (s : AuthAkarin) : AuthAkarin :=
  if s.packId = 1 then
    let tcpMss := if s.serverInfo.tcpMss < 1500 then s.serverInfo.tcpMss else 1500
    { s with
      serverInfo := { s.serverInfo with tcpMss }
      unitLen := (tcpMss : ℤ) - s.clientOverHead
      newSendTcpMss := tcpMss }
  else s

/-- It has the settings that come with the first buffer. -/
theorem ServerOpen.packing_eq (hs : ServerOpen C P out inn s)
    (hmss : s.serverInfo.tcpMss = P.serverMss) (hover : s.clientOverHead + 2 ≤ P.serverMss)
    (hcount : out.count < 2 ^ 32)
    (hunit : 0 < out.count → s.unitLen = (serverUnit P.serverMss s.clientOverHead : ℕ)) :
    s.packing = { s with
      unitLen := (serverUnit P.serverMss s.clientOverHead : ℕ)
      newSendTcpMss := P.serverMss } := by
  have hle := P.serverMss_le
  have hid : s.packId = 1 ↔ out.count = 0 := by
    rw [hs.packId_eq, AuthChain.Lane.id_eq_one hcount]
  rw [packing]
  by_cases hz : out.count = 0
  · have hmin : (if s.serverInfo.tcpMss < 1500 then s.serverInfo.tcpMss else 1500) =
        s.serverInfo.tcpMss := by
      split <;> omega
    have hcast : (P.serverMss : ℤ) - s.clientOverHead =
        (serverUnit P.serverMss s.clientOverHead : ℕ) := by
      rw [serverUnit, Nat.cast_sub (by omega)]
    rw [if_pos (hid.2 hz)]
    simp only [hmin]
    rw [hmss, hcast, ← hmss]
  · rw [if_neg (hid.not.2 hz), ← hunit (Nat.pos_of_ne_zero hz),
      ← hs.newSendTcpMss_eq (Nat.pos_of_ne_zero hz)]

/-- A buffer of an open server. -/
theorem serverPreEncrypt_spec (hs : ServerOpen C P out inn s) (hraw : s.rawTrans = false)
    (hmss : s.serverInfo.tcpMss = P.serverMss) (hover : s.clientOverHead + 2 ≤ P.serverMss)
    (hcount : out.count < 2 ^ 32)
    (hunit : 0 < out.count → s.unitLen = (serverUnit P.serverMss s.clientOverHead : ℕ))
    (buf : Bytes) :
    ∃ t' fs out', serverPreEncrypt C (buf.length + 3) s buf = .done t' ∧ t'.ret = wire fs ∧
      Chain C P P.serverIv (CarriesDown P) out fs
        (sentAll (packServerData C) serverSent s.packing t'.packed) out' ∧ carried fs = buf ∧
      fs.length = serverPieces P.serverMss s.clientOverHead out.count buf.length ∧
      ServerOpen C P out' inn t'.obj ∧
      ServerKept { s with
        unitLen := (serverUnit P.serverMss s.clientOverHead : ℕ)
        newSendTcpMss := P.serverMss } t'.obj := by
  have hle := P.serverMss_le
  have hid : s.packId = 1 ↔ out.count = 0 := by
    rw [hs.packId_eq, AuthChain.Lane.id_eq_one hcount]
  have hpacking := hs.packing_eq hmss hover hcount hunit
  have hu : 2 ≤ serverUnit P.serverMss s.clientOverHead := by rw [serverUnit]; omega
  have hu' : serverUnit P.serverMss s.clientOverHead ≤ 2800 := by rw [serverUnit]; omega
  obtain ⟨o, ho⟩ : ∃ o, s.packing = o := ⟨_, rfl⟩
  rw [ho] at hpacking ⊢
  have hsends : ServerSends C P inn.carried out o := by
    rw [hpacking]
    exact ⟨⟨hs.method_eq, hs.lists_eq, hs.overhead_eq, hs.userKey_eq, hs.packId_eq, hs.outHash_eq,
      hs.stream⟩, rfl, hs.sendTcpMss_le, hs.sendTcpMss_eq⟩
  have hunit' : o.unitLen = (serverUnit P.serverMss s.clientOverHead : ℕ) := by rw [hpacking]
  have hopen : ∀ {s' : AuthAkarin} {out' : Lane}, ServerSends C P inn.carried out' s' →
      ServerKept o s' → ServerOpen C P out' inn s' := fun hs' hk => by
    have hnew := hs'.newSendTcpMss_eq
    rw [ServerKept, hpacking] at hk
    exact ⟨⟨⟨hs'.method_eq, hs'.lists_eq, hs'.overhead_eq, hs'.userKey_eq⟩, hs'.packId_eq,
      by rw [hk]; exact hs.recvId_eq, hs'.hash_eq, by rw [hk]; exact hs.inHash_eq, hs'.stream⟩,
      hs'.sendTcpMss_le, hs'.sendTcpMss_eq, fun _ => hnew⟩
  rw [← hpacking]
  rw [packing] at ho
  by_cases hz : out.count = 0
  · obtain ⟨t', fs, out', h, hret, hch, hc, hlen, hs', hk⟩ :=
      cut_chain_first hu hu' hsends hz buf (buf.length + 3) (by omega)
    refine ⟨t', fs, out', ?_, hret, hch, hc, ?_, hopen hs' hk, hk⟩
    · have hmin : (if s.serverInfo.tcpMss < 1500 then s.serverInfo.tcpMss else 1500) =
          P.serverMss := by
        split <;> omega
      have hcast : (P.serverMss : ℤ) - s.clientOverHead = o.unitLen := by
        rw [← ho, if_pos (hid.2 hz)]
        simp only [hmin]
      rw [if_pos (hid.2 hz)] at ho
      rw [serverPreEncrypt, if_neg (by rw [hraw]; decide), if_pos (hid.2 hz)]
      simp only [hmin] at ho ⊢
      rw [ho, hcast, hunit']
      exact h
    · rw [hlen, serverPieces, if_pos hz]
  · obtain ⟨t', ps, fs, out', h, hpacked, hret, hch, hc, hlen, hs', -, hk⟩ :=
      (serverPacker C P inn.carried).cut_chain (CarriesDown P) (by omega) hu'
        (buf.length + 3) (t := { obj := o, buf }) hsends (by dsimp only; omega)
        fun n f p hn hf => carriesDown_of_pos hf (by omega) p
    obtain rfl : t'.packed = ps := hpacked
    refine ⟨t', fs, out', ?_, by rw [hret]; rfl, hch, hc, ?_, hopen hs' hk, hk⟩
    · rw [if_neg (hid.not.2 hz)] at ho
      rw [serverPreEncrypt, if_neg (by rw [hraw]; decide), if_neg (hid.not.2 hz), ho, hunit']
      exact h
    · rw [hlen, serverPieces, if_neg hz]

end AuthAkarin

end ShadowsocksR

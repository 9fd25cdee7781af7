import ShadowsocksR.AuthChain.Authentication
import ShadowsocksR.AuthChain.RoundTrip
import ShadowsocksR.Lib.Capture

/-!
# The auth_chain protocols as a layer

The objects of `auth_chain_a` to `auth_chain_e` at the two ends of a connection,
as the relay calls them: when a server has its header, it sends back at once what
it makes of no data.

* `AuthChain.clientPeer`, `AuthChain.serverPeer`: the objects at the two ends;
* `serverPostDecrypt_keeps`: what a server keeps when it receives;
* `AuthChain.layer`: the objects are a layer.
-/

namespace ShadowsocksR

namespace AuthChain

open AuthBase

/-! ## The two ends -/

/-- An object of a client, with the time at which it has sent its header. -/
structure ClientEnd where
  obj : AuthChain
  clock : Time := 0

/-- An object of a server, with the number of frames that it has packed. -/
structure ServerEnd where
  obj : AuthChain
  frames : ℕ := 0

/-- The time of a call, and the data that the connections share. -/
structure Now where
  time : Time
  data : ObfsAuthChainData

variable (C : Crypto) (S : Setup)

/-- `client_pre_encrypt` -/
def clientSend (k : Now) (a : ClientEnd) (buf : Bytes) : Except PyExc (Bytes × ClientEnd) :=
  match clientPreEncrypt C (buf.length + 1) k.time a.obj buf with
  | .done t | .more t => .ok (t.ret, ⟨t.obj, if a.obj.hasSentHeader then a.clock else k.time⟩)
  | .fail e _ => .error e

/-- `client_post_decrypt` -/
def clientRecv (a : ClientEnd) (chunk : Bytes) :
    Except PyExc ((Bytes × Option Bytes) × ClientEnd) :=
  match clientPostDecrypt C a.obj chunk with
  | (.ok data, obj) => .ok ((data, none), { a with obj })
  | (.error e, _) => .error e

/-- `server_pre_encrypt` -/
def serverSend (b : ServerEnd) (buf : Bytes) : Except PyExc (Bytes × ServerEnd) :=
  match serverPreEncrypt C (buf.length + 3) b.obj buf with
  | .done t | .more t =>
    .ok (t.ret, ⟨t.obj, b.frames + serverPieces S.server.tcpMss S.overhead b.frames buf.length⟩)
  | .fail e _ => .error e

/-- `server_post_decrypt`, and what the relay sends back when it asks for it. -/
def serverRecv (k : Now) (b : ServerEnd) (chunk : Bytes) :
    Except PyExc ((Bytes × Option Bytes) × ServerEnd) :=
  match serverPostDecrypt C k.time S.users k.data b.obj chunk with
  | (.error e, _, _) => .error e
  | (.ok (data, sendback), obj, _) =>
    if sendback then (serverSend C S { b with obj } []).map fun r => ((data, some r.1), r.2)
    else .ok ((data, none), { b with obj })

def clientPeer : Peer PyExc Now ClientEnd where
  send := clientSend C
  recv _ := clientRecv C

def serverPeer : Peer PyExc Now ServerEnd where
  send _ := serverSend C S
  recv := serverRecv C S

/-! ## What is kept -/

variable {C S}

theorem RecvKept.keeps {s s' : AuthChain} (h : RecvKept s s') :
    s'.serverInfo = s.serverInfo ∧ s'.hasRecvHeader = s.hasRecvHeader := by
  rw [h.eq]
  exact ⟨rfl, rfl⟩

/-- A header that is not opened is not answered. -/
theorem openHeader_result (salt : Bytes) (users : Dict Bytes Bytes) (s : AuthBase) :
    (s.openHeader C salt users).2.serverInfo = s.serverInfo ∧
      ∀ out, (s.openHeader C salt users).1 ≠ .error (.ok (out, true)) := by
  rw [openHeader]
  split_ifs
  · exact ⟨rfl, fun _ h => (by cases h)⟩
  · exact ⟨rfl, fun _ h => (by cases h)⟩
  · obtain ⟨num, calls, hlook⟩ :=
      lookupUser_eq users (C := C) (s := s) { s with lastClientHash := s.headHash C } rfl
    dsimp only
    rw [hlook, verifyHeader]
    dsimp only
    split_ifs <;> exact ⟨rfl, fun _ h => (by cases h)⟩

theorem acceptHeader_result (now : Time) (data : ObfsAuthChainData) (head : Bytes) (s : AuthBase) :
    (s.acceptHeader now data head).2.1.serverInfo = s.serverInfo ∧
      ∀ out, (s.acceptHeader now data head).1 ≠ .error (.ok (out, true)) := by
  rw [acceptHeader]
  dsimp only
  split_ifs
  · rcases data.insert now s.userId (unpackLE (head.extract 4 8)) (unpackLE (head.extract 8 12))
      with - | ⟨- | -, data'⟩ <;> exact ⟨rfl, fun _ h => (by cases h)⟩
  · exact ⟨rfl, fun _ h => (by cases h)⟩

/-- A header that is received, or not: it is answered when it is. -/
theorem recvHeader_result (now : Time) (users : Dict Bytes Bytes) (data : ObfsAuthChainData)
    (s : AuthChain) : (recvHeader C now users data s).2.1.serverInfo = s.serverInfo ∧
      (∀ back, (recvHeader C now users data s).1 = .ok back →
        (recvHeader C now users data s).2.1.hasRecvHeader = true) ∧
      ∀ out, (recvHeader C now users data s).1 ≠ .error (.ok (out, true)) := by
  have hopen := openHeader_result (C := C) s.method.salt users s.toAuthBase
  rw [recvHeader]
  obtain ⟨⟨r, base⟩, hr⟩ : ∃ p, s.openHeader C s.method.salt users = p := ⟨_, rfl⟩
  rw [hr] at hopen ⊢
  cases r with
  | error r =>
    dsimp only
    exact ⟨hopen.1, fun _ h => (by cases h), fun out h => hopen.2 out (by cases h; rfl)⟩
  | ok head =>
    have haccept := acceptHeader_result now data head base
    obtain ⟨⟨r', base', data'⟩, hr'⟩ : ∃ p, base.acceptHeader now data head = p := ⟨_, rfl⟩
    dsimp only
    rw [hr'] at haccept ⊢
    have hinfo : base'.serverInfo = s.serverInfo := haccept.1.trans hopen.1
    cases r' with
    | error r' =>
      dsimp only
      exact ⟨hinfo, fun _ h => (by cases h), fun out h => haccept.2 out (by cases h; rfl)⟩
    | ok utcTime =>
      dsimp only
      cases s.onRecvAuthData utcTime with
      | error e => exact ⟨hinfo, fun _ h => (by cases h), fun _ h => (by cases h)⟩
      | ok _ => exact ⟨hinfo, fun _ _ => rfl, fun _ h => (by cases h)⟩

/-- What a server keeps when it receives; what it answers, it has received after its header. -/
theorem serverPostDecrypt_keeps (now : Time) (users : Dict Bytes Bytes) (data : ObfsAuthChainData)
    (s : AuthChain) (buf : Bytes) :
    (serverPostDecrypt C now users data s buf).2.1.serverInfo = s.serverInfo ∧
      ∀ out, (serverPostDecrypt C now users data s buf).1 = .ok (out, true) →
        (serverPostDecrypt C now users data s buf).2.1.hasRecvHeader = true := by
  rw [serverPostDecrypt]
  by_cases hraw : s.rawTrans = true
  · rw [if_pos hraw]
    exact ⟨rfl, fun _ h => (by cases h)⟩
  rw [if_neg hraw]
  dsimp only
  by_cases hhead : s.hasRecvHeader = true
  · rw [if_pos hhead]
    have hkept := (recvFrames_kept C now data ((s.recvBuf ++ buf).length + 1)
      { obj := { s with recvBuf := s.recvBuf ++ buf } }).keeps
    exact ⟨hkept.1, fun _ _ => hkept.2.trans hhead⟩
  · rw [if_neg hhead]
    have hheader := recvHeader_result (C := C) now users data { s with recvBuf := s.recvBuf ++ buf }
    obtain ⟨⟨r, s', data'⟩, hr⟩ :
        ∃ p, recvHeader C now users data { s with recvBuf := s.recvBuf ++ buf } = p := ⟨_, rfl⟩
    rw [hr] at hheader ⊢
    obtain ⟨hinfo, hhead', hresult⟩ := hheader
    cases r with
    | error r =>
      refine ⟨hinfo, fun out h => ?_⟩
      obtain rfl : r = .ok (out, true) := h
      exact absurd rfl (hresult out)
    | ok back =>
      have hkept := (recvFrames_kept C now data' (s'.recvBuf.length + 1)
        { obj := s', sendback := back }).keeps
      exact ⟨hkept.1.trans hinfo, fun _ _ => hkept.2.trans (hhead' back rfl)⟩

theorem packServerData_keeps {s s' : AuthChain} {buf data : Bytes}
    (h : packServerData C s buf = .ok (data, s')) : s'.serverInfo = s.serverInfo := by
  obtain ⟨p, -, hp⟩ := bind_eq_ok.1 h
  cases hp
  rfl

/-- What a server keeps when it sends. -/
theorem serverPreEncrypt_keeps (fuel : ℕ) (s : AuthChain) (buf : Bytes) :
    (serverPreEncrypt C fuel s buf).state.obj.serverInfo.iv = s.serverInfo.iv ∧
      (serverPreEncrypt C fuel s buf).state.obj.serverInfo.recvIv = s.serverInfo.recvIv := by
  have hcut (unit : ℤ) (t : Cut AuthChain) :
      (cut unit (packServerData C) fuel t).state.obj.serverInfo = t.obj.serverInfo := by
    refine loop_invariant (P := fun t' => t'.obj.serverInfo = t.obj.serverInfo)
      (fun (t' : Cut AuthChain) ht => ?_) fuel rfl
    rw [cutBody]
    split_ifs
    · cases hp : packServerData C t'.obj (takeTo unit t'.buf) with
      | error e => exact ht
      | ok p => exact (packServerData_keeps hp).trans ht
    · cases hp : packServerData C t'.obj t'.buf with
      | error e => exact ht
      | ok p => exact (packServerData_keeps hp).trans ht
  rw [serverPreEncrypt]
  split_ifs
  · exact ⟨rfl, rfl⟩
  all_goals simp only [hcut, and_self]

/-! ## The layer -/

/-- A client with another `recv_iv`. -/
def setRecvIv (iv : Bytes) (s : AuthChain) : AuthChain :=
  { s with serverInfo := { s.serverInfo with recvIv := iv } }

/-- The setup with another `recv_iv` of the client. -/
def Setup.setRecvIv (iv : Bytes) (S : Setup) : Setup :=
  { S with client := { S.client with recvIv := iv } }

/-- Nothing depends on the `recv_iv` of a client. -/
theorem Duplex.Phase.setRecvIv {d : Duplex} (h : d.Phase C S) (iv : Bytes) :
    ({ d with client := d.client.setRecvIv iv } : Duplex).Phase C (S.setRecvIv iv) := by
  have hopen {h : Header} {out inn : Lane} (hc : Client C S h out inn d.client) :
      Client C (S.setRecvIv iv) h out inn (d.client.setRecvIv iv) :=
    have ho := hc.isOpen
    ⟨⟨⟨ho.method_eq, ho.lists_eq, ho.overhead_eq, ho.userKey_eq⟩, ho.packId_eq, ho.recvId_eq,
      ho.outHash_eq, ho.inHash_eq, ho.stream⟩, hc.hasSentHeader, hc.unitLen, hc.rawTrans⟩
  cases h with
  | idle hi =>
    have hf := hi.client
    exact .idle { hi with
      client := ⟨hf.method_eq, hf.lists_eq, congrArg (fun i => { i with recvIv := iv })
        hf.serverInfo_eq, hf.userKey_eq, hf.userId_eq, hf.packId_eq, hf.recvId_eq, hf.unitLen_eq,
        hf.rawTrans_eq, hf.hasSentHeader_eq, hf.hasRecvHeader_eq⟩ }
  | greeting hg => exact .greeting { hg with client := hopen hg.client }
  | connected hc => exact .connected { hc with client := hopen hc.client }

/-- The objects are those of a connection in one of its phases. -/
def Linked (C : Crypto) (S : Setup) (a : ClientEnd) (b : ServerEnd) (f : Flight) : Prop :=
  ∃ (iv : Bytes) (d : Duplex), d.Phase C (S.setRecvIv iv) ∧ d.client = a.obj ∧
    d.clock = a.clock ∧ d.server = b.obj ∧ d.frames = b.frames ∧ d.up = f.out ∧ d.down = f.inn ∧
    d.gotUp ++ f.owedOut = d.sentUp ∧ d.gotDown ++ f.owedIn = d.sentDown

/-- The server sends after the handshake, and packs at most `2 ^ 32` frames. -/
def MaySend (S : Setup) (b : ServerEnd) (buf : Bytes) : Prop :=
  b.obj.hasRecvHeader = true ∧
    b.frames + serverPieces S.server.tcpMss S.overhead b.frames buf.length ≤ 2 ^ 32

/-- When the server has received all of the header, it accepts it. -/
def MayReceive (S : Setup) (k : Now) (a : ClientEnd) (b : ServerEnd) (chunk : Bytes) : Prop :=
  (b.obj.hasRecvHeader = false → 36 ≤ (b.obj.recvBuf ++ chunk).length →
    Accepts k.time k.data (paramUserId S.client.protocolParam) a.clock a.obj.localData) ∧
  b.frames + serverPieces S.server.tcpMss S.overhead b.frames 0 ≤ 2 ^ 32

instance (S : Setup) (b : ServerEnd) (buf : Bytes) : Decidable (MaySend S b buf) :=
  inferInstanceAs (Decidable (_ ∧ _))

instance (now : Time) (data : ObfsAuthChainData) (userId : Option Bytes) (clock : Time)
    (localData : LocalData) : Decidable (Accepts now data userId clock localData) :=
  decidable_of_iff (InWindow now clock.uint32.toNat ∧ (data.insert now userId
    (unpackLE localData.localClientId) localData.connectionId).map Prod.fst = some true) <|
    and_congr_right fun _ => by simp [Option.map_eq_some_iff]

instance (S : Setup) (k : Now) (a : ClientEnd) (b : ServerEnd) (chunk : Bytes) :
    Decidable (MayReceive S k a b chunk) :=
  inferInstanceAs (Decidable (_ ∧ _))

def serverTerms (S : Setup) : Terms Now ServerEnd ClientEnd where
  send _ b _ buf := MaySend S b buf
  recv k b a chunk := MayReceive S k a b chunk

variable {a : ClientEnd} {b : ServerEnd} {f : Flight} {k : Now} {buf chunk rest : Bytes}

theorem Linked.clientSend (h : Linked C S a b f) (k : Now) (buf : Bytes) :
    ∃ out a', AuthChain.clientSend C k a buf = .ok (out, a') ∧
      Linked C S a' b (f.sent out buf) := by
  obtain ⟨iv, d, hphase, hclient, hclock, hserver, hframes, hup, hdown, howed, howed'⟩ := h
  obtain ⟨d', hstep, hphase'⟩ :
      ∃ d', d.step C (S.setRecvIv iv) (.clientSend k.time buf) = some d' ∧
        d'.Phase C (S.setRecvIv iv) := by
    cases hphase with
    | idle hi => exact hi.clientSend k.time buf
    | greeting hg => exact hg.clientSend k.time buf
    | connected hc => exact hc.clientSend k.time buf
  rw [Duplex.step, hclient] at hstep
  cases ht : clientPreEncrypt C (buf.length + 1) k.time a.obj buf with
  | done t =>
    rw [ht] at hstep
    cases hstep
    refine ⟨t.ret, ⟨t.obj, if a.obj.hasSentHeader then a.clock else k.time⟩, ?_, iv, _, hphase',
      rfl, ?_, hserver, hframes, ?_, hdown, ?_, howed'⟩
    · rw [AuthChain.clientSend, ht]
    · dsimp only
      rw [hclock]
    · exact congrArg (· ++ t.ret) hup
    · dsimp only [Flight.sent]
      rw [← List.append_assoc, howed]
  | more t =>
    rw [ht] at hstep
    cases hstep
  | fail e t =>
    rw [ht] at hstep
    cases hstep

theorem Linked.clientRecv (h : Linked C S a b f) (hinn : f.inn = chunk ++ rest) :
    ∃ data back a' owed, AuthChain.clientRecv C a chunk = .ok ((data, back), a') ∧
      f.owedIn = data ++ owed ∧ Linked C S a' b (f.received rest owed back) := by
  obtain ⟨iv, d, hphase, hclient, hclock, hserver, hframes, hup, hdown, howed, howed'⟩ := h
  obtain ⟨d', hstep, hphase'⟩ :
      ∃ d', d.step C (S.setRecvIv iv) (.clientRecv chunk.length) = some d' ∧
        d'.Phase C (S.setRecvIv iv) := by
    cases hphase with
    | idle hi =>
      exact ⟨d, Duplex.clientRecv_nil hi.client.rawTrans_eq hi.clientBuf hi.down.1 _, .idle hi⟩
    | greeting hg =>
      exact ⟨d, Duplex.clientRecv_nil hg.client.rawTrans hg.clientBuf hg.down.1 _, .greeting hg⟩
    | connected hc => exact hc.clientRecv _
  have hdelivered := hphase'.delivered
  rw [Duplex.step, hclient, hdown, hinn, List.take_left, List.drop_left] at hstep
  obtain ⟨⟨r, obj⟩, hr⟩ : ∃ p, clientPostDecrypt C a.obj chunk = p := ⟨_, rfl⟩
  rw [hr] at hstep
  cases r with
  | error e => cases hstep
  | ok data =>
    cases hstep
    obtain ⟨owed₁, hsent⟩ := hdelivered.down_prefix
    have hdata : f.owedIn = data ++ owed₁ := by
      rw [← howed', List.append_assoc] at hsent
      exact (List.append_cancel_left hsent).symm
    refine ⟨data, none, { a with obj }, owed₁, by rw [AuthChain.clientRecv, hr], hdata, iv, _,
      hphase', rfl, hclock, hserver, hframes, ?_, rfl, howed, hsent⟩
    rw [Flight.received_none]
    exact hup

theorem Linked.serverSend (hmss : S.server.tcpMss ≤ 1500)
    (hover : S.overhead + 2 ≤ S.server.tcpMss) (h : Linked C S a b f) (hmay : MaySend S b buf) :
    ∃ out b', AuthChain.serverSend C S b buf = .ok (out, b') ∧
      Linked C S a b' (f.swap.sent out buf).swap := by
  obtain ⟨iv, d, hphase, hclient, hclock, hserver, hframes, hup, hdown, howed, howed'⟩ := h
  obtain ⟨hhead, hbound⟩ := hmay
  rw [← hserver] at hhead
  obtain ⟨d', hstep, hphase'⟩ :
      ∃ d', d.step C (S.setRecvIv iv) (.serverSend buf) = some d' ∧
        d'.Phase C (S.setRecvIv iv) := by
    cases hphase with
    | idle hi => exact absurd (hi.server.hasRecvHeader_eq.symm.trans hhead) Bool.false_ne_true
    | greeting hg => exact absurd (hg.server.hasRecvHeader_eq.symm.trans hhead) Bool.false_ne_true
    | connected hc =>
      exact hc.serverSend_of_mss hmss hover (by rw [Duplex.Bounded, hframes]; exact hbound)
  rw [Duplex.step, hserver] at hstep
  cases ht : serverPreEncrypt C (buf.length + 3) b.obj buf with
  | done t =>
    rw [ht] at hstep
    cases hstep
    refine ⟨t.ret, _, by rw [AuthChain.serverSend, ht], iv, _, hphase', hclient, hclock, rfl, ?_,
      hup, ?_, howed, ?_⟩
    · dsimp only [Setup.setRecvIv]
      rw [hframes]
    · exact congrArg (· ++ t.ret) hdown
    · dsimp only [Flight.sent, Flight.swap]
      rw [← List.append_assoc, howed']
  | more t =>
    rw [ht] at hstep
    cases hstep
  | fail e t =>
    rw [ht] at hstep
    cases hstep

theorem Linked.serverRecv (hmss : S.server.tcpMss ≤ 1500)
    (hover : S.overhead + 2 ≤ S.server.tcpMss) (h : Linked C S a b f) (hout : f.out = chunk ++ rest)
    (hmay : MayReceive S k a b chunk) :
    ∃ data back b' owed, AuthChain.serverRecv C S k b chunk = .ok ((data, back), b') ∧
      f.owedOut = data ++ owed ∧ Linked C S a b' (f.swap.received rest owed back).swap := by
  obtain ⟨iv, d, hphase, hclient, hclock, hserver, hframes, hup, hdown, howed, howed'⟩ := h
  obtain ⟨hacc, hbound⟩ := hmay
  obtain ⟨d', hstep, hphase'⟩ :
      ∃ d', d.step C (S.setRecvIv iv) (.serverRecv k.time k.data chunk.length) = some d' ∧
        d'.Phase C (S.setRecvIv iv) := by
    cases hphase with
    | idle hi => exact ⟨d, hi.serverRecv _ _ _, .idle hi⟩
    | greeting hg =>
      refine hg.serverRecv fun hhead hlen => ?_
      rw [hserver] at hhead hlen
      rw [hup, hout, List.take_left] at hlen
      rw [hclock, hclient]
      exact hacc hhead hlen
    | connected hc => exact hc.serverRecv _ _ _
  have hdelivered := hphase'.delivered
  have hkeeps := (serverPostDecrypt_keeps (C := C) k.time S.users k.data b.obj chunk).2
  rw [Duplex.step, hserver, hup, hout, List.take_left, List.drop_left] at hstep
  dsimp only [Setup.setRecvIv] at hstep
  obtain ⟨⟨r, obj, data'⟩, hr⟩ :
      ∃ p, serverPostDecrypt C k.time S.users k.data b.obj chunk = p := ⟨_, rfl⟩
  rw [hr] at hstep hkeeps
  cases r with
  | error e => cases hstep
  | ok r =>
    obtain ⟨data, sendback⟩ := r
    cases hstep
    obtain ⟨owed₁, hsent⟩ := hdelivered.up_prefix
    have hdata : f.owedOut = data ++ owed₁ := by
      rw [← howed, List.append_assoc] at hsent
      exact (List.append_cancel_left hsent).symm
    have hlinked : Linked C S a { b with obj } ⟨rest, f.inn, owed₁, f.owedIn⟩ :=
      ⟨iv, _, hphase', hclient, hclock, rfl, hframes, rfl, hdown, hsent, howed'⟩
    cases sendback with
    | false =>
      refine ⟨data, none, { b with obj }, owed₁, by rw [AuthChain.serverRecv, hr]; rfl, hdata, ?_⟩
      rw [Flight.received_none]
      exact hlinked
    | true =>
      -- The server has its header, and can send.
      have hmay : MaySend S { b with obj } [] := ⟨hkeeps data rfl, hbound⟩
      obtain ⟨out, b', hsend, hlinked'⟩ := hlinked.serverSend hmss hover hmay
      refine ⟨data, some out, b', owed₁, ?_, hdata, ?_⟩
      · rw [AuthChain.serverRecv, hr]
        dsimp only
        rw [if_pos rfl, hsend]
        rfl
      · rw [Flight.sent_nil] at hlinked'
        exact hlinked'

/-- The objects of a client and a server. -/
def layer (C : Crypto) (S : Setup) (hmss : S.server.tcpMss ≤ 1500)
    (hover : S.overhead + 2 ≤ S.server.tcpMss) : Layer PyExc Now ClientEnd ServerEnd where
  client := clientPeer C
  server := serverPeer C S
  clientTerms := .always Now ClientEnd ServerEnd
  serverTerms := serverTerms S
  Inv := Linked C S
  client_keeps :=
    { send := fun h _ => h.clientSend _ _
      recv := fun h hinn _ => h.clientRecv hinn }
  server_keeps :=
    { send := fun h hmay => h.serverSend hmss hover hmay
      recv := fun h hinn hmay => h.serverRecv hmss hover hinn hmay }
  landed := by
    rintro a b f ⟨iv, d, hphase, -, -, -, -, hup, hdown, howed, howed'⟩ hout hinn
    have hdelivered := hphase.delivered
    rw [← hdelivered.up_eq (hup.trans hout)] at howed
    rw [← hdelivered.down_eq (hdown.trans hinn)] at howed'
    exact ⟨List.append_right_eq_self.1 howed, List.append_right_eq_self.1 howed'⟩

instance {hmss : S.server.tcpMss ≤ 1500} {hover : S.overhead + 2 ≤ S.server.tcpMss} :
    (layer C S hmss hover).DecidableTerms where
  clientSend _ _ _ _ := .isTrue trivial
  clientRecv _ _ _ _ := .isTrue trivial
  serverSend _ b _ buf := inferInstanceAs (Decidable (MaySend S b buf))
  serverRecv k b a chunk := inferInstanceAs (Decidable (MayReceive S k a b chunk))

end AuthChain

end ShadowsocksR

import ShadowsocksR.AuthChain.Layer
import ShadowsocksR.Encryptor.Layer

/-!
# An auth_chain protocol over an encryptor

What the protocol puts out is encrypted with the method of the port. The relay
tells the protocol the iv of the other end: it takes it from the first data that
it receives, as `recv_iv`.

* `captureIv`: what the relay takes;
* `capture`: the first read of the server has the iv, when it is long enough;
* `sealedLayer`: so the protocol over the encryptor is a layer.
-/

namespace ShadowsocksR

namespace AuthChain

open AuthBase

variable {σ : Type}

/-- `recv_iv` is taken from the first data. -/
def captureIv (s : AuthChain) (data : Bytes) : AuthChain :=
  if s.serverInfo.recvIv = [] then s.setRecvIv (data.take s.serverInfo.iv.length) else s

/-- The object of a client, and its encryptor. -/
abbrev SealedClient (σ : Type) := ClientEnd × AnyEncryptor σ

/-- The object of a server, and its encryptor. -/
abbrev SealedServer (σ : Type) := ServerEnd × AnyEncryptor σ

/-- The protocol over the encryptor, without the iv. -/
def overEncryptor (σ : Type) (C : Crypto) (S : Setup) (hmss : S.server.tcpMss ≤ 1500)
    (hover : S.overhead + 2 ≤ S.server.tcpMss) :
    Layer PyExc (Now × Unit × Unit) (SealedClient σ) (SealedServer σ) :=
  (layer C S hmss hover).over (AnyEncryptor.layer C)

/-- A server that has not received anything. -/
structure Untouched (S : Setup) (b : SealedServer σ) : Prop where
  iv_ne_nil : S.iv ≠ []
  recvIv : b.1.obj.serverInfo.recvIv = []
  length_iv : b.1.obj.serverInfo.iv.length = S.iv.length
  rawTrans : b.1.obj.rawTrans = false
  hasRecvHeader : b.1.obj.hasRecvHeader = false
  recvBuf : b.1.obj.recvBuf = []

/-- A server that has received nothing does nothing when there is nothing. -/
theorem serverRecv_nil {C : Crypto} {S : Setup} {k : Now} {b : ServerEnd}
    (hraw : b.obj.rawTrans = false) (hhead : b.obj.hasRecvHeader = false)
    (hbuf : b.obj.recvBuf = []) : serverRecv C S k b [] = .ok (([], none), b) := by
  have hs : { b.obj with recvBuf := b.obj.recvBuf ++ [] } = b.obj := by rw [List.append_nil]
  have hopen : b.obj.openHeader C b.obj.method.salt S.users =
      (.error (.ok ([], false)), b.obj.toAuthBase) := by
    rw [openHeader, if_neg, if_pos (by rw [hbuf]; decide)]
    rintro ⟨hlen, -⟩
    rw [hbuf] at hlen
    exact absurd hlen (by decide)
  have hr : recvHeader C k.time S.users k.data b.obj =
      (.error (.ok ([], false)), b.obj, k.data) := by
    rw [recvHeader, hopen]
  rw [← hs] at hr
  have hpost := serverPostDecrypt_of_error [] hraw hhead hr
  rw [hs] at hpost
  rw [serverRecv, hpost]
  rfl

theorem serverSend_keeps {C : Crypto} {S : Setup} {b b' : ServerEnd} {buf out : Bytes}
    (h : serverSend C S b buf = .ok (out, b')) : b'.obj.serverInfo.iv = b.obj.serverInfo.iv ∧
      b'.obj.serverInfo.recvIv = b.obj.serverInfo.recvIv := by
  have hkeeps := serverPreEncrypt_keeps (C := C) (buf.length + 3) b.obj buf
  rw [serverSend] at h
  cases ht : serverPreEncrypt C (buf.length + 3) b.obj buf with
  | fail e t =>
    rw [ht] at h
    cases h
  | done t =>
    rw [ht] at h hkeeps
    cases h
    exact hkeeps
  | more t =>
    rw [ht] at h hkeeps
    cases h
    exact hkeeps

theorem serverRecv_keeps {C : Crypto} {S : Setup} {k : Now} {b b' : ServerEnd} {chunk : Bytes}
    {r : Bytes × Option Bytes} (h : serverRecv C S k b chunk = .ok (r, b')) :
    b'.obj.serverInfo.iv = b.obj.serverInfo.iv ∧
      b'.obj.serverInfo.recvIv = b.obj.serverInfo.recvIv := by
  have hkeeps := (serverPostDecrypt_keeps (C := C) k.time S.users k.data b.obj chunk).1
  rw [serverRecv] at h
  obtain ⟨⟨p, obj, data'⟩, hp⟩ :
      ∃ p, serverPostDecrypt C k.time S.users k.data b.obj chunk = p := ⟨_, rfl⟩
  rw [hp] at h hkeeps
  dsimp only at hkeeps
  rw [← hkeeps]
  cases p with
  | error e => cases h
  | ok p =>
    obtain ⟨data, sendback⟩ := p
    dsimp only at h
    cases sendback with
    | false =>
      cases h
      exact ⟨rfl, rfl⟩
    | true =>
      rw [if_pos rfl] at h
      cases hsend : serverSend C S { b with obj } [] with
      | error e =>
        rw [hsend] at h
        cases h
      | ok q =>
        rw [hsend] at h
        cases h
        exact serverSend_keeps hsend

variable {C : Crypto} {S : Setup}

/-! ## What the relay takes -/

theorem captureIv_of_set {s : AuthChain} {chunk : Bytes}
    (h : s.serverInfo.recvIv ≠ [] ∨ s.serverInfo.iv = []) : captureIv s chunk = s := by
  rw [captureIv]
  split_ifs with hnil
  · rw [setRecvIv, h.resolve_left (not_not.2 hnil), List.length_nil, List.take_zero, ← hnil]
  · rfl

/-- What a client takes changes nothing. -/
theorem Linked.captureIv {a : ClientEnd} {b : ServerEnd} {f : Flight} (h : Linked C S a b f)
    (chunk : Bytes) : Linked C S { a with obj := AuthChain.captureIv a.obj chunk } b f := by
  rw [AuthChain.captureIv]
  split_ifs
  · obtain ⟨iv, d, hphase, hclient, hclock, hrest⟩ := h
    exact ⟨_, _, hphase.setRecvIv (chunk.take a.obj.serverInfo.iv.length), by rw [hclient], hclock,
      hrest⟩
  · exact h

/-- An end that receives nothing back sends nothing back. -/
theorem overEncryptor_clientRecv {hmss : S.server.tcpMss ≤ 1500}
    {hover : S.overhead + 2 ≤ S.server.tcpMss} {k : Now × Unit × Unit} {a a' : SealedClient σ}
    {c data : Bytes} {back : Option Bytes}
    (h : (overEncryptor σ C S hmss hover).client.recv k a c = .ok ((data, back), a')) :
    back = none ∧ ∃ mid, a.2.decrypt C c = .ok (mid, a'.2) := by
  obtain ⟨mid, back₂, s₂, back₁, hlower, hupper, hback⟩ := Peer.over_recv_eq_ok h
  obtain ⟨hdecrypt, rfl⟩ := AnyEncryptor.peer_recv_eq_ok hlower
  have hnone : back₁ = none := by
    change AuthChain.clientRecv C a.1 mid = _ at hupper
    rw [AuthChain.clientRecv] at hupper
    obtain ⟨⟨r, obj⟩, hr⟩ : ∃ p, clientPostDecrypt C a.1.obj mid = p := ⟨_, rfl⟩
    rw [hr] at hupper
    cases r with
    | error e => cases hupper
    | ok data => exact (congrArg (fun p => p.1.2) (Except.ok.inj hupper)).symm
  rcases hback with ⟨-, rfl, rfl⟩ | ⟨b, out, hsome, -⟩
  · exact ⟨rfl, mid, hdecrypt⟩
  · exact absurd (hnone.symm.trans hsome) (Option.some_ne_none b).symm

/-- The first read of a server has the iv of the client. -/
def capture (C : Crypto) (S : Setup) (hmss : S.server.tcpMss ≤ 1500)
    (hover : S.overhead + 2 ≤ S.server.tcpMss) : Capture (overEncryptor σ C S hmss hover) where
  client a chunk := ({ a.1 with obj := captureIv a.1.obj chunk }, a.2)
  server b chunk := ({ b.1 with obj := captureIv b.1.obj chunk }, b.2)
  size := S.iv.length
  Set b := b.1.obj.serverInfo.recvIv = S.iv ∧ b.1.obj.serverInfo.iv.length = S.iv.length
  Waits a b b' f := Untouched S b ∧ b' = ({ b.1 with obj := b.1.obj.setRecvIv S.iv }, b.2) ∧
    AnyEncryptor.BeginsWithIv S.iv a.2 f.out
  client_inv {a b f c} h := by
    obtain ⟨mid, midIn, hlinked, hlower⟩ := h
    exact ⟨mid, midIn, hlinked.captureIv c, hlower⟩
  client_terms _ := ⟨trivial, fun _ _ _ _ => ⟨trivial, fun _ _ _ _ => trivial⟩⟩
  server_set := by
    rintro b c ⟨hset, hlen⟩
    have hkept : b.1.obj.serverInfo.recvIv ≠ [] ∨ b.1.obj.serverInfo.iv = [] := by
      by_cases hnil : S.iv = []
      · exact .inr (List.length_eq_zero_iff.1 (by rw [hlen, hnil, List.length_nil]))
      · exact .inl (by rw [hset]; exact hnil)
    rw [captureIv_of_set hkept]
  send_set := by
    rintro k b buf out b' ⟨hset, hlen⟩ h
    obtain ⟨mid, hsend, -⟩ := Peer.over_send_eq_ok h
    obtain ⟨hiv, hrecvIv⟩ := serverSend_keeps hsend
    exact ⟨hrecvIv.trans hset, by rw [hiv]; exact hlen⟩
  recv_set := by
    rintro k b c ⟨data, back⟩ b' ⟨hset, hlen⟩ h
    obtain ⟨mid, back₂, s₂, back₁, -, hrecv, -⟩ := Peer.over_recv_eq_ok h
    obtain ⟨hiv, hrecvIv⟩ := serverRecv_keeps hrecv
    exact ⟨hrecvIv.trans hset, by rw [hiv]; exact hlen⟩
  waits_clientSend := by
    rintro k a b b' f buf out a' ⟨hb, rfl, hiv⟩ h
    obtain ⟨mid, -, hsend⟩ := Peer.over_send_eq_ok h
    have hencrypt : a.2.encrypt mid = (out, a'.2) := Except.ok.inj hsend
    have := hiv.encrypt mid
    rw [hencrypt] at this
    exact ⟨hb, rfl, this⟩
  waits_clientRecv := by
    rintro k a b b' f c rest owed data back a' ⟨hb, rfl, hiv⟩ hinn h
    obtain ⟨rfl, mid, hdecrypt⟩ := overEncryptor_clientRecv h
    refine ⟨hb, rfl, ?_⟩
    rw [Flight.received_none]
    exact hiv.decrypt hdecrypt
  waits_sendTerms _ _ := ⟨trivial, fun _ _ _ => trivial⟩
  waits_recvTerms _ _ := ⟨trivial, fun _ _ _ _ => ⟨trivial, fun _ _ _ _ => trivial⟩⟩
  waits_serverSend := by
    rintro k a b b' f buf ⟨hb, -, -⟩ ⟨hmay, -⟩
    exact absurd (hb.hasRecvHeader.symm.trans hmay.1) Bool.false_ne_true
  waits_not_set := by
    rintro a b b' f ⟨hb, -, -⟩ ⟨hset, -⟩
    exact hb.iv_ne_nil (hset.symm.trans hb.recvIv)
  waits_recv_nil := by
    rintro k a b b' f ⟨hb, -, -⟩
    have hnil : captureIv b.1.obj [] = b.1.obj := by
      rw [captureIv, if_pos hb.recvIv, setRecvIv, List.take_nil, ← hb.recvIv]
    rw [hnil]
    have hdecrypt : b.2.decrypt C [] = .ok ([], b.2) := by
      rw [AnyEncryptor.decrypt, if_pos List.length_nil]
    exact Peer.over_recv (AnyEncryptor.peer_recv_of_decrypt hdecrypt k.2.1)
      (serverRecv_nil hb.rawTrans hb.hasRecvHeader hb.recvBuf)
  waits_recv := by
    rintro a b b' f c rest ⟨hb, rfl, hiv⟩ hout hc hlen
    have hiv : S.iv <+: c := by
      obtain ⟨-, ⟨-, hnil⟩ | ⟨-, hprefix⟩⟩ := hiv
      · exact absurd (List.append_eq_nil_iff.1 (hout.symm.trans hnil)).1 hc
      · rw [hout] at hprefix
        exact List.prefix_of_prefix_length_le hprefix (List.prefix_append c rest) hlen
    have htake : captureIv b.1.obj c = b.1.obj.setRecvIv S.iv := by
      rw [captureIv, if_pos hb.recvIv, hb.length_iv, ← List.prefix_iff_eq_take.1 hiv]
    dsimp only
    rw [htake]
    exact ⟨rfl, rfl, hb.length_iv⟩

/-- The protocol over the encryptor, as the relay runs it. -/
def sealedLayer (σ : Type) (C : Crypto) (S : Setup) (hmss : S.server.tcpMss ≤ 1500)
    (hover : S.overhead + 2 ≤ S.server.tcpMss) :
    Layer PyExc (Now × Unit × Unit) (SealedClient σ) (SealedServer σ) :=
  (capture C S hmss hover).layer

instance {hmss : S.server.tcpMss ≤ 1500} {hover : S.overhead + 2 ≤ S.server.tcpMss} :
    (sealedLayer σ C S hmss hover).DecidableTerms :=
  have : (overEncryptor σ C S hmss hover).DecidableTerms :=
    inferInstanceAs ((layer C S hmss hover).over (AnyEncryptor.layer C)).DecidableTerms
  have (b : SealedServer σ) : Decidable ((capture C S hmss hover).Set b) :=
    inferInstanceAs (Decidable (_ ∧ _))
  inferInstanceAs (capture C S hmss hover).layer.DecidableTerms

/-! ## The beginning -/

/-- A client before anything is sent. -/
def sealedClient (S : Setup) (localData : LocalData) (rng : Rng) (e : AnyEncryptor σ) :
    SealedClient σ :=
  (⟨new S.method S.noCompatible S.client localData rng, 0⟩, e)

/-- A server before anything is received: it does not know the iv of the client. -/
def sealedServer (S : Setup) (rng : Rng) (e : AnyEncryptor σ) : SealedServer σ :=
  (⟨new S.method S.noCompatible { S.server with recvIv := [] } .new rng, 0⟩, e)

theorem linked_new (C : Crypto) (S : Setup) (localData : LocalData) (rng rng' : Rng) :
    Linked C S ⟨new S.method S.noCompatible S.client localData rng, 0⟩
      ⟨new S.method S.noCompatible S.server .new rng', 0⟩ {} :=
  ⟨S.client.recvIv, .init S localData rng rng', Duplex.phase_init localData rng rng', rfl, rfl,
    rfl, rfl, rfl, rfl, rfl, rfl⟩

theorem sealedLayer_inv_new {info : CipherInfo σ} {method : String} (h : info.IsByteStream method)
    {hmss : S.server.tcpMss ≤ 1500} {hover : S.overhead + 2 ≤ S.server.tcpMss} {password : Bytes}
    {e d : AnyEncryptor σ} (he : AnyEncryptor.IsNew C info password method S.iv e)
    (hd : AnyEncryptor.IsNew C info password method S.server.iv d) (localData : LocalData)
    (rng rng' : Rng) : (sealedLayer σ C S hmss hover).Inv (sealedClient S localData rng e)
      (sealedServer S rng' d) {} := by
  have hlen : S.server.iv.length = S.iv.length := hd.length_iv.trans he.length_iv.symm
  have hserver : { S.server with recvIv := S.iv } = S.server := by rw [← S.server_eq.2.1]
  have hinv (b : SealedServer σ)
      (hb : b = (⟨new S.method S.noCompatible S.server .new rng', 0⟩, d)) :
      (overEncryptor σ C S hmss hover).Inv (sealedClient S localData rng e) b {} :=
    hb ▸ ⟨[], [], linked_new C S localData rng rng', AnyEncryptor.layer_inv_new h he hd⟩
  by_cases hiv : S.iv = []
  · refine .inl ⟨hinv _ ?_, hiv.symm, hlen⟩
    rw [sealedServer, ← hiv, hserver]
  · refine .inr ⟨_, ⟨⟨hiv, rfl, hlen, rfl, rfl, rfl⟩, rfl, he.cipherIv_eq,
      .inl ⟨he.ivSent_eq, rfl⟩⟩, hinv _ ?_⟩
    rw [sealedServer, ← hserver]
    rfl

end AuthChain

end ShadowsocksR

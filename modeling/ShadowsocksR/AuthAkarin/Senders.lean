import ShadowsocksR.AuthAkarin.Lane

/-!
# The senders of auth_akarin

`pack_client_data` and `pack_server_data` make chains of frames, of which the
sender knows what the model records beside them (`sentAll`).

* `clientPacker`: a client packs with its `tcp_mss`, until it has that of the
  server: then it packs with that, and puts a command in front;
* `serverPacker`: a server takes its own `tcp_mss` after its first frame;
* `Packer.cut_chain`: the frames of a buffer.
-/

namespace ShadowsocksR

namespace AuthAkarin

open AuthBase Encryptor
open AuthChain (Lane)

/-- What a sender knows of the frames that it makes of some pieces. -/
def sentAll (pack : AuthAkarin → Bytes → Except PyExc (Bytes × AuthAkarin))
    (sent : AuthAkarin → Bytes → Sent) : AuthAkarin → List Bytes → List Sent
  | _, [] => []
  | s, p :: ps => sent s p :: match pack s p with
    | .ok (_, s) => sentAll pack sent s ps
    | .error _ => []

/-- An object that sends on a lane, when `lastHash` is its hash for that direction, and receives
    after the bytes `received`. -/
structure Sends (C : Crypto) (P : Session) (iv otherIv received : Bytes) (l : Lane)
    (lastHash : Bytes) (s : AuthAkarin) : Prop where
  method_eq : s.method = P.method
  lists_eq : s.lists = P.lists
  overhead_eq : s.serverInfo.overhead = P.overhead
  userKey_eq : s.userKey = some P.userKey
  packId_eq : s.packId = l.id
  hash_eq : lastHash = l.hash
  stream : ∃ e, s.encryptor = some e ∧ IvStream C P.streamKey iv otherIv l.carried received e

/-- A client that sends, with the commands `cmd` to send back. -/
structure ClientSends (C : Crypto) (P : Session) (cmd : List ℕ) (received : Bytes) (l : Lane)
    (s : AuthAkarin) : Prop extends
    Sends C P P.clientIv P.serverIv received l s.lastClientHash s where
  sendBackCmd_eq : s.sendBackCmd = cmd
  sendTcpMss_eq : cmd = [] → s.sendTcpMss = P.clientMss
  recvTcpMss_eq : cmd ≠ [] → s.recvTcpMss = P.serverMss

/-- A server that sends. -/
structure ServerSends (C : Crypto) (P : Session) (received : Bytes) (l : Lane) (s : AuthAkarin) :
    Prop extends Sends C P P.serverIv P.clientIv received l s.lastServerHash s where
  newSendTcpMss_eq : s.newSendTcpMss = P.serverMss
  sendTcpMss_le : s.sendTcpMss ≤ 2000
  sendTcpMss_eq : 0 < l.count → s.sendTcpMss = P.serverMss

/-- The frames of a client that has some commands to send back. -/
structure ClientFrame (P : Session) (cmd : List ℕ) (f : Sent) : Prop where
  command_iff : f.command = true ↔ cmd ≠ []
  tcpMss_eq : f.tcpMss = if f.command then P.serverMss else P.clientMss

/-- What `pack_client_data` keeps. -/
def ClientKept (s s' : AuthAkarin) : Prop :=
  s' = { s with
    encryptor := s'.encryptor
    lastClientHash := s'.lastClientHash
    randomClient := s'.randomClient
    rng := s'.rng
    sendTcpMss := s'.sendTcpMss
    packId := s'.packId }

/-- What `pack_server_data` keeps. -/
def ServerKept (s s' : AuthAkarin) : Prop :=
  s' = { s with
    encryptor := s'.encryptor
    lastServerHash := s'.lastServerHash
    randomServer := s'.randomServer
    rng := s'.rng
    sendTcpMss := s'.sendTcpMss
    packId := s'.packId }

theorem ClientKept.trans {s s' s'' : AuthAkarin} (h : ClientKept s s') (h' : ClientKept s' s'') :
    ClientKept s s'' := by
  unfold ClientKept at *
  rw [h'] at *
  rw [h]

theorem ServerKept.trans {s s' s'' : AuthAkarin} (h : ServerKept s s') (h' : ServerKept s' s'') :
    ServerKept s s'' := by
  unfold ServerKept at *
  rw [h'] at *
  rw [h]

variable {C : Crypto} {P : Session} {received : Bytes} {cmd : List ℕ} {l : Lane} {s : AuthAkarin}
  {payload : Bytes}

/-! ## Packing a piece -/

theorem pack_xor {n : ℕ} (h : n < 256 ^ 2) {mask : Bytes} (hm : mask.length ≤ 2) :
    pack 2 (n ^^^ unpackLE mask) = .ok (packLE 2 (n ^^^ unpackLE mask)) :=
  pack_of_lt (xor_lt h ((unpackLE_lt _).trans_le (Nat.pow_le_pow_right (by norm_num) hm)))

theorem length_drop_hash (l : Lane) : (l.hash.drop 14).length ≤ 2 := by
  rw [List.length_drop, l.length_hash]

theorem length_extract_hash (l : Lane) : (l.hash.extract 12 14).length ≤ 2 := by
  rw [List.extract_eq_take_drop]
  exact List.length_take_le _ _

/-- A client without a command to send back. -/
theorem packClientData_plain (hs : ClientSends C P [] received l s)
    (hle : payload.length ≤ 2800) :
    ∃ data s' hash, ∃ h : Framed C P P.clientIv l (clientSent s payload) payload data hash,
      packClientData C s payload = .ok (data, s') ∧
      ClientSends C P [] received (l.next payload hash h.length_hash) s' ∧
      ClientFrame P [] (clientSent s payload) ∧ ClientKept s s' := by
  obtain ⟨e, he, hst⟩ := hs.stream
  obtain ⟨e', henc, hst'⟩ := hst.encrypt payload
  have hlen : (ivStream C P.streamKey P.clientIv l.carried payload).length = payload.length :=
    length_ivStream _ _ _ _
  have hcmd : ¬s.sendBackCmd ≠ [] := not_not.2 hs.sendBackCmd_eq
  have hmss := hs.sendTcpMss_eq rfl
  have hclient := P.clientMss_le
  have hsize : payload.length = payload.length + if false = true then 2 else 0 := rfl
  obtain ⟨pad, random', rng, hrnd, hpad⟩ := rndData_spec (l := l) hs.method_eq hs.lists_eq
    hs.overhead_eq (by omega) hsize hlen hle s.randomClient
  have hpack := pack_xor (show payload.length < 256 ^ 2 by omega) (length_drop_hash l)
  have hsent : clientSent s payload =
      sentBy s false payload.length l.hash s.randomClient := by
    rw [clientSent, if_neg hcmd, hs.hash_eq]
  have hpacked : packClientData C s payload =
      .ok (frameBody C P P.clientIv l false payload pad ++
          (frameHash C P P.clientIv l false payload pad).take 2,
        { s with
          encryptor := some e'
          randomClient := random'
          rng := rng
          lastClientHash := frameHash C P P.clientIv l false payload pad
          packId := (s.packId + 1) % 2 ^ 32 }) := by
    simp only [packClientData, he, henc, if_neg hcmd, hlen, hs.hash_eq, hrnd, hpack,
      hs.userKey_eq, hs.packId_eq, bind, Except.bind]
    rfl
  rw [hsent]
  refine ⟨_, _, _, .intro hpad, hpacked, ?_, ⟨by simp [sentBy], hmss⟩, rfl⟩
  refine ⟨⟨hs.method_eq, hs.lists_eq, hs.overhead_eq, hs.userKey_eq, ?_, rfl, _, rfl, hst'⟩,
    hs.sendBackCmd_eq, fun _ => hmss, hs.recvTcpMss_eq⟩
  rw [Lane.id_next, ← hs.packId_eq]

/-- A client with a command to send back. -/
theorem packClientData_command (hcmd : cmd ≠ []) (hs : ClientSends C P cmd received l s)
    (hle : payload.length ≤ 2800) :
    ∃ data s' hash, ∃ h : Framed C P P.clientIv l (clientSent s payload) payload data hash,
      packClientData C s payload = .ok (data, s') ∧
      ClientSends C P cmd received (l.next payload hash h.length_hash) s' ∧
      ClientFrame P cmd (clientSent s payload) ∧ ClientKept s s' := by
  obtain ⟨e, he, hst⟩ := hs.stream
  obtain ⟨e', henc, hst'⟩ := hst.encrypt payload
  have hlen : (ivStream C P.streamKey P.clientIv l.carried payload).length = payload.length :=
    length_ivStream _ _ _ _
  have hcmd' : s.sendBackCmd ≠ [] := by rw [hs.sendBackCmd_eq]; exact hcmd
  have hmss := hs.recvTcpMss_eq hcmd
  have hserver := P.serverMss_le
  have hsize : payload.length + 2 = payload.length + if true = true then 2 else 0 := rfl
  -- It takes the `tcp_mss` of the server before it computes the length of the padding.
  obtain ⟨o, ho⟩ : ∃ o : AuthAkarin, o = { s with sendTcpMss := s.recvTcpMss } := ⟨_, rfl⟩
  obtain ⟨pad, random', rng, hrnd, hpad⟩ := rndData_spec (s := o) (l := l)
    (by rw [ho]; exact hs.method_eq) (by rw [ho]; exact hs.lists_eq)
    (by rw [ho]; exact hs.overhead_eq) (by rw [ho]; dsimp only; omega) hsize hlen hle
    s.randomClient
  have hpack := pack_xor (show payload.length < 256 ^ 2 by omega) (length_extract_hash l)
  have hpack' := pack_xor (show 0xff00 < 256 ^ 2 by norm_num) (length_drop_hash l)
  have hsent : clientSent s payload =
      sentBy o true (payload.length + 2) l.hash s.randomClient := by
    rw [clientSent, if_pos hcmd', hs.hash_eq, ho]
  have hpacked : packClientData C s payload =
      .ok (frameBody C P P.clientIv l true payload pad ++
          (frameHash C P P.clientIv l true payload pad).take 2,
        { s with
          encryptor := some e'
          randomClient := random'
          rng := rng
          sendTcpMss := s.recvTcpMss
          lastClientHash := frameHash C P P.clientIv l true payload pad
          packId := (s.packId + 1) % 2 ^ 32 }) := by
    have hextract : s.lastClientHash.extract 12 14 = l.hash.extract 12 14 := by rw [hs.hash_eq]
    rw [ho] at hrnd
    simp only [packClientData, he, henc, if_pos hcmd', hlen, hextract, hs.hash_eq, hrnd, hpack,
      hpack', hs.userKey_eq, hs.packId_eq, bind, Except.bind, frameHash, frameBody, frameHead,
      if_true, List.append_assoc]
  rw [hsent]
  refine ⟨_, _, _, .intro hpad, hpacked, ?_, ⟨by simpa [sentBy] using hcmd, ?_⟩, rfl⟩
  · refine ⟨⟨hs.method_eq, hs.lists_eq, hs.overhead_eq, hs.userKey_eq, ?_, rfl, _, rfl, hst'⟩,
      hs.sendBackCmd_eq, fun h => absurd h hcmd, hs.recvTcpMss_eq⟩
    rw [Lane.id_next, ← hs.packId_eq]
  · rw [ho]
    exact hmss

theorem packServerData_spec (hs : ServerSends C P received l s) (hle : payload.length ≤ 2800) :
    ∃ data s' hash, ∃ h : Framed C P P.serverIv l (serverSent s payload) payload data hash,
      packServerData C s payload = .ok (data, s') ∧
      ServerSends C P received (l.next payload hash h.length_hash) s' ∧
      (serverSent s payload).command = false ∧ ServerKept s s' := by
  obtain ⟨e, he, hst⟩ := hs.stream
  obtain ⟨e', henc, hst'⟩ := hst.encrypt payload
  have hlen : (ivStream C P.streamKey P.serverIv l.carried payload).length = payload.length :=
    length_ivStream _ _ _ _
  have hserver := P.serverMss_le
  have hsize : payload.length = payload.length + if false = true then 2 else 0 := rfl
  obtain ⟨pad, random', rng, hrnd, hpad⟩ := rndData_spec (l := l) hs.method_eq hs.lists_eq
    hs.overhead_eq hs.sendTcpMss_le hsize hlen hle s.randomServer
  have hpack := pack_xor (show payload.length < 256 ^ 2 by omega) (length_drop_hash l)
  have hsent : serverSent s payload =
      sentBy s false payload.length l.hash s.randomServer := by
    rw [serverSent, hs.hash_eq]
  have hpacked : packServerData C s payload =
      .ok (frameBody C P P.serverIv l false payload pad ++
          (frameHash C P P.serverIv l false payload pad).take 2,
        { s with
          encryptor := some e'
          randomServer := random'
          rng := rng
          lastServerHash := frameHash C P P.serverIv l false payload pad
          sendTcpMss := if s.packId = 1 then s.newSendTcpMss else s.sendTcpMss
          packId := (s.packId + 1) % 2 ^ 32 }) := by
    simp only [packServerData, he, henc, hlen, hs.hash_eq, hrnd, hpack, hs.userKey_eq,
      hs.packId_eq, bind, Except.bind]
    rfl
  have hmss : (if s.packId = 1 then s.newSendTcpMss else s.sendTcpMss) = P.serverMss := by
    split
    · exact hs.newSendTcpMss_eq
    · next h =>
      refine hs.sendTcpMss_eq (Nat.pos_of_ne_zero fun hz => h ?_)
      rw [hs.packId_eq, Lane.id, hz]
      rfl
  rw [hsent]
  refine ⟨_, _, _, .intro hpad, hpacked, ?_, rfl, rfl⟩
  refine ⟨⟨hs.method_eq, hs.lists_eq, hs.overhead_eq, hs.userKey_eq, ?_, rfl, _, rfl, hst'⟩,
    hs.newSendTcpMss_eq, ?_, fun _ => hmss⟩
  · rw [Lane.id_next, ← hs.packId_eq]
  · exact hmss.le.trans (by omega)

/-! ## Packing a buffer -/

/-- A function that packs frames of a lane: `sends` is what it needs of the object, `good`
    what the frames are, and `kept` what it keeps of the object. -/
structure Packer (C : Crypto) (P : Session) (iv : Bytes)
    (pack : AuthAkarin → Bytes → Except PyExc (Bytes × AuthAkarin))
    (sent : AuthAkarin → Bytes → Sent) (sends : Lane → AuthAkarin → Prop) (good : Sent → Prop)
    (kept : AuthAkarin → AuthAkarin → Prop) : Prop where
  refl : ∀ s, kept s s
  trans : ∀ {s s' s''}, kept s s' → kept s' s'' → kept s s''
  spec : ∀ {l payload s}, sends l s → payload.length ≤ 2800 →
    ∃ data s' hash, ∃ h : Framed C P iv l (sent s payload) payload data hash,
      pack s payload = .ok (data, s') ∧ sends (l.next payload hash h.length_hash) s' ∧
      good (sent s payload) ∧ kept s s'

theorem clientPacker (C : Crypto) (P : Session) (cmd : List ℕ) (received : Bytes) :
    Packer C P P.clientIv (packClientData C) clientSent (ClientSends C P cmd received)
      (ClientFrame P cmd) ClientKept where
  refl _ := rfl
  trans := ClientKept.trans
  spec hs hle := by
    by_cases hcmd : cmd = []
    · subst hcmd
      exact packClientData_plain hs hle
    · exact packClientData_command hcmd hs hle

theorem serverPacker (C : Crypto) (P : Session) (received : Bytes) :
    Packer C P P.serverIv (packServerData C) serverSent (ServerSends C P received)
      (fun f => f.command = false) ServerKept where
  refl _ := rfl
  trans := ServerKept.trans
  spec := packServerData_spec

section Packer

variable {iv : Bytes} {pack : AuthAkarin → Bytes → Except PyExc (Bytes × AuthAkarin)}
  {sent : AuthAkarin → Bytes → Sent} {sends : Lane → AuthAkarin → Prop} {good : Sent → Prop}
  {kept : AuthAkarin → AuthAkarin → Prop}

theorem sentAll_cons {p data : Bytes} {s' : AuthAkarin} (h : pack s p = .ok (data, s'))
    (ps : List Bytes) :
    sentAll pack sent s (p :: ps) = sent s p :: sentAll pack sent s' ps := by
  rw [sentAll, h]

/-- Packing pieces which carry themselves. -/
theorem Packer.packs_chain (hp : Packer C P iv pack sent sends good kept)
    (carries : ℕ → Sent → Bytes → Bytes → Prop) {s s' : AuthAkarin} {ps : List Bytes}
    {datas : Bytes} (h : Packs pack s ps datas s') {l : Lane} (hs : sends l s)
    (hle : ∀ p ∈ ps, p.length ≤ 2800)
    (hcar : ∀ n f p, l.count ≤ n → good f → carries n f p p) :
    ∃ fs l', Chain C P iv carries l fs (sentAll pack sent s ps) l' ∧ wire fs = datas ∧
      carried fs = ps.flatten ∧ fs.length = ps.length ∧ sends l' s' ∧
      (∀ f ∈ sentAll pack sent s ps, good f) ∧ kept s s' := by
  induction h generalizing l with
  | nil s => exact ⟨[], l, .nil l, rfl, rfl, rfl, hs, List.forall_mem_nil _, hp.refl s⟩
  | @cons s s₁ s₂ p data datas ps hpack _ ih =>
    rw [List.forall_mem_cons] at hle
    obtain ⟨data', s₁', hash, hf, hpack', hs₁, hgood, hk⟩ := hp.spec hs hle.1
    cases hpack.symm.trans hpack'
    obtain ⟨fs, l', hch, hw, hc, hlen, hs', hall, hk'⟩ :=
      ih hs₁ hle.2 fun n f q hn => hcar n f q (by simp only [Lane.next] at hn; omega)
    rw [sentAll_cons hpack]
    exact ⟨⟨data, p⟩ :: fs, l', .cons hf (hcar _ _ p le_rfl hgood) hch, by rw [wire_cons, hw],
      by rw [carried_cons, hc, List.flatten_cons], by rw [List.length_cons, hlen, List.length_cons],
      hs', List.forall_mem_cons.2 ⟨hgood, hall⟩, hp.trans hk hk'⟩

/-- The loop of a sender ends, having packed all of the buffer. -/
theorem Packer.cut_packs (hp : Packer C P iv pack sent sends good kept) {unit : ℕ}
    (hu : 0 < unit) (hunit : unit ≤ 2800) (fuel : ℕ) {t : Cut AuthAkarin} {l : Lane}
    (hs : sends l t.obj) (hfuel : t.buf.length < fuel) :
    ∃ ps datas t', cut unit pack fuel t = .done t' ∧ t'.ret = t.ret ++ datas ∧
      t'.packed = t.packed ++ ps ∧ Packs pack t.obj ps datas t'.obj ∧ Cutting unit t.buf ps := by
  obtain ⟨ps, datas, t', h, hret, hpacked, -, hps, hcut⟩ :=
    cut_spec hu (P := fun s => ∃ l, sends l s)
      (fun s p hs hle => by
        obtain ⟨l, hs⟩ := hs
        obtain ⟨data, s', hash, h, hpack, hs', -, -⟩ := hp.spec hs (hle.trans hunit)
        exact ⟨data, s', hpack, _, hs'⟩)
      fuel ⟨l, hs⟩ hfuel
  exact ⟨ps, datas, t', h, hret, hpacked, hps, hcut⟩

/-- The frames of a buffer whose pieces carry themselves. -/
theorem Packer.cut_chain (hp : Packer C P iv pack sent sends good kept)
    (carries : ℕ → Sent → Bytes → Bytes → Prop) {unit : ℕ} (hu : 0 < unit) (hunit : unit ≤ 2800)
    (fuel : ℕ) {t : Cut AuthAkarin} {l : Lane} (hs : sends l t.obj) (hfuel : t.buf.length < fuel)
    (hcar : ∀ n f p, l.count ≤ n → good f → carries n f p p) :
    ∃ t' ps fs l', cut unit pack fuel t = .done t' ∧ t'.packed = t.packed ++ ps ∧
      t'.ret = t.ret ++ wire fs ∧ Chain C P iv carries l fs (sentAll pack sent t.obj ps) l' ∧
      carried fs = t.buf ∧ fs.length = pieces unit t.buf.length ∧ sends l' t'.obj ∧
      (∀ f ∈ sentAll pack sent t.obj ps, good f) ∧ kept t.obj t'.obj := by
  obtain ⟨ps, datas, t', h, hret, hpacked, hps, hcut⟩ := hp.cut_packs hu hunit fuel hs hfuel
  obtain ⟨fs, l', hch, hw, hc, hlen, hs', hall, hk⟩ :=
    hp.packs_chain carries hps hs (fun p hp => (hcut.length_le p hp).trans hunit) hcar
  exact ⟨t', ps, fs, l', h, hpacked, by rw [hret, hw], hch, by rw [hc, hcut.flatten],
    by rw [hlen, hcut.length], hs', hall, hk⟩

end Packer

/-! ## What frames carry -/

/-- The frames of the client carry themselves. -/
def CarriesUp (P : Session) (_ : ℕ) (f : Sent) (payload output : Bytes) : Prop :=
  output = payload ∧ f.tcpMss = if f.command then P.serverMss else P.clientMss

/-- So do the frames of the server, but the first of them has two more bytes in front. -/
def CarriesDown (P : Session) (n : ℕ) (f : Sent) (payload output : Bytes) : Prop :=
  AuthChain.CarriesDown P.serverMss n payload output ∧ f.command = false

theorem ClientFrame.command_eq_false {f : Sent} (h : ClientFrame P [] f) : f.command = false :=
  Bool.eq_false_iff.2 fun hcmd => h.command_iff.1 hcmd rfl

theorem ClientFrame.carriesUp {f : Sent} (h : ClientFrame P cmd f) (n : ℕ) (payload : Bytes) :
    CarriesUp P n f payload payload := ⟨rfl, h.tcpMss_eq⟩

theorem carriesDown_of_pos {f : Sent} (h : f.command = false) {n : ℕ} (hn : 0 < n)
    (payload : Bytes) : CarriesDown P n f payload payload :=
  ⟨by rw [AuthChain.CarriesDown, if_neg (by omega)], h⟩

/-- The frames of the first buffer of the server. -/
theorem cut_chain_first {unit : ℕ} (hu : 2 ≤ unit) (hunit : unit ≤ 2800)
    (hs : ServerSends C P received l s) (hl : l.count = 0) (buf : Bytes) (fuel : ℕ)
    (hfuel : buf.length + 2 < fuel) :
    ∃ t' fs l', cut unit (packServerData C) fuel
        { obj := s, buf := packLE 2 P.serverMss ++ buf } = .done t' ∧ t'.ret = wire fs ∧
      Chain C P P.serverIv (CarriesDown P) l fs
        (sentAll (packServerData C) serverSent s t'.packed) l' ∧ carried fs = buf ∧
      fs.length = pieces unit (buf.length + 2) ∧ ServerSends C P received l' t'.obj ∧
      ServerKept s t'.obj := by
  have hp := serverPacker C P received
  have hmss : P.serverMss < 2 ^ 16 := P.serverMss_le.trans_lt (by norm_num)
  have hlen : (packLE 2 P.serverMss ++ buf).length = buf.length + 2 := by simp; omega
  obtain ⟨ps, datas, t', h, hret, hpacked, hps, hcut⟩ := hp.cut_packs (by omega) hunit
    fuel (t := { obj := s, buf := packLE 2 P.serverMss ++ buf }) hs (by simp only [hlen]; omega)
  have hflat := hcut.flatten
  have hhead := hcut.head
  have hcount := hcut.length
  have hlens := hcut.length_le
  have hpacked' : t'.packed = ps := hpacked
  cases hps with
  | nil => cases hhead
  | @cons _ s₁ _ p data datas ps hpack hps =>
    rw [List.forall_mem_cons] at hlens
    obtain ⟨o, rfl⟩ : ∃ o, p = packLE 2 P.serverMss ++ o := by
      refine ⟨buf.take (unit - 2), ?_⟩
      rw [List.head?_cons, Option.some.injEq] at hhead
      rw [hhead, List.take_append, List.take_of_length_le (by simpa using hu), length_packLE]
    obtain ⟨data', s₁', hash, hf, hpack', hs₁, hgood, hk⟩ := hp.spec hs (hlens.1.trans hunit)
    cases hpack.symm.trans hpack'
    obtain ⟨fs, l', hch, hw, hc, hfs, hs', -, hk'⟩ :=
      hp.packs_chain (CarriesDown P) hps hs₁ (fun p hp => (hlens.2 p hp).trans hunit)
        fun n f p hn hf => carriesDown_of_pos hf (by simp only [Lane.next] at hn; omega) p
    refine ⟨t', ⟨data, o⟩ :: fs, l', h, by rw [hret, wire_cons, hw]; rfl, ?_, ?_, ?_, hs',
      hp.trans hk hk'⟩
    · rw [hpacked', sentAll_cons hpack']
      refine .cons hf ⟨?_, hgood⟩ hch
      rw [AuthChain.CarriesDown, if_pos hl]
      exact ⟨hmss, rfl⟩
    · rw [List.flatten_cons, List.append_assoc] at hflat
      rw [carried_cons, hc]
      exact List.append_cancel_left hflat
    · rw [List.length_cons, hfs, ← List.length_cons, hcount, hlen]

end AuthAkarin

end ShadowsocksR

import ShadowsocksR.AuthChain.Lane

/-!
# The two ends of a direction

The senders `pack_client_data` and `pack_server_data` make chains of frames
(`Packer.cut_chain`), and the receiving loops of the server and of the client
follow such a chain (`serverLockstep`, `clientLockstep`), as long as the client
does not see its counter start again.

* `serverLoop_spec`, `clientLoop_spec`: what comes out of a part of the stream,
  wherever it is cut.
-/

namespace ShadowsocksR

namespace AuthChain

open AuthBase Encryptor

/-! ## Senders -/

/-- A function that packs frames of a lane; `kept` says what it keeps of the object. -/
structure Packer (C : Crypto) (P : Session)
    (pack : AuthChain → Bytes → Except PyExc (Bytes × AuthChain)) (hashOf : AuthChain → Bytes)
    (kept : AuthChain → AuthChain → Prop) : Prop where
  refl : ∀ s, kept s s
  trans : ∀ {s s' s''}, kept s s' → kept s' s'' → kept s s''
  spec : ∀ {received l payload s}, Sends C P received l (hashOf s) s → payload.length ≤ 2800 →
    ∃ data s' hash, ∃ h : Framed C P l payload data hash, pack s payload = .ok (data, s') ∧
      Sends C P received (l.next payload hash h.length_hash) (hashOf s') s' ∧ kept s s'

/-- What `pack_client_data` keeps. -/
def ClientKept (s s' : AuthChain) : Prop :=
  s' = { s with
    encryptor := s'.encryptor
    lastClientHash := s'.lastClientHash
    randomClient := s'.randomClient
    rng := s'.rng
    packId := s'.packId }

/-- What `pack_server_data` keeps. -/
def ServerKept (s s' : AuthChain) : Prop :=
  s' = { s with
    encryptor := s'.encryptor
    lastServerHash := s'.lastServerHash
    randomServer := s'.randomServer
    rng := s'.rng
    packId := s'.packId }

theorem ClientKept.trans {s s' s'' : AuthChain} (h : ClientKept s s') (h' : ClientKept s' s'') :
    ClientKept s s'' := by
  unfold ClientKept at *
  rw [h'] at *
  rw [h]

theorem ServerKept.trans {s s' s'' : AuthChain} (h : ServerKept s s') (h' : ServerKept s' s'') :
    ServerKept s s'' := by
  unfold ServerKept at *
  rw [h'] at *
  rw [h]

variable {C : Crypto} {P : Session}

theorem clientPacker (hm : P.method ≠ .f) :
    Packer C P (packClientData C) (fun s => s.lastClientHash) ClientKept where
  refl _ := rfl
  trans := ClientKept.trans
  spec {received l payload s} hs hle := by
    obtain ⟨p, hp, hf, hst⟩ := packData_spec hm hs hle s.randomClient
    have hpack : packClientData C s payload = .ok (p.data,
        { s with
          encryptor := some p.encryptor
          lastClientHash := p.lastHash
          randomClient := p.random
          rng := p.rng
          packId := (s.packId + 1) % 2 ^ 32 }) := by
      simp only [packClientData, hp, bind, Except.bind]
    refine ⟨p.data, _, p.lastHash, hf, hpack,
      ⟨hs.method_eq, hs.lists_eq, hs.overhead_eq, hs.userKey_eq, ?_, rfl, _, rfl, hst⟩, rfl⟩
    rw [Lane.id_next, ← hs.packId_eq]

theorem serverPacker (hm : P.method ≠ .f) :
    Packer C P (packServerData C) (fun s => s.lastServerHash) ServerKept where
  refl _ := rfl
  trans := ServerKept.trans
  spec {received l payload s} hs hle := by
    obtain ⟨p, hp, hf, hst⟩ := packData_spec hm hs hle s.randomServer
    have hpack : packServerData C s payload = .ok (p.data,
        { s with
          encryptor := some p.encryptor
          lastServerHash := p.lastHash
          randomServer := p.random
          rng := p.rng
          packId := (s.packId + 1) % 2 ^ 32 }) := by
      simp only [packServerData, hp, bind, Except.bind]
    refine ⟨p.data, _, p.lastHash, hf, hpack,
      ⟨hs.method_eq, hs.lists_eq, hs.overhead_eq, hs.userKey_eq, ?_, rfl, _, rfl, hst⟩, rfl⟩
    rw [Lane.id_next, ← hs.packId_eq]

variable {pack : AuthChain → Bytes → Except PyExc (Bytes × AuthChain)}
  {hashOf : AuthChain → Bytes} {kept : AuthChain → AuthChain → Prop} {received : Bytes}

/-- Packing pieces which carry themselves. -/
theorem Packer.packs_chain (hp : Packer C P pack hashOf kept)
    (carries : ℕ → Bytes → Bytes → Prop) {s s' : AuthChain} {ps : List Bytes} {datas : Bytes}
    (h : Packs pack s ps datas s') {l : Lane}
    (hs : Sends C P received l (hashOf s) s) (hle : ∀ p ∈ ps, p.length ≤ 2800)
    (hcar : ∀ n p, l.count ≤ n → carries n p p) :
    ∃ fs l', Chain C P carries l fs l' ∧ wire fs = datas ∧ carried fs = ps.flatten ∧
      fs.length = ps.length ∧ Sends C P received l' (hashOf s') s' ∧ kept s s' := by
  induction h generalizing l with
  | nil s => exact ⟨[], l, .nil l, rfl, rfl, rfl, hs, hp.refl s⟩
  | @cons s s₁ s₂ p data datas ps hpack _ ih =>
    rw [List.forall_mem_cons] at hle
    obtain ⟨data', s₁', hash, hf, hpack', hs₁, hk⟩ := hp.spec hs hle.1
    rw [hpack] at hpack'
    cases hpack'
    obtain ⟨fs, l', hch, hw, hc, hlen, hs', hk'⟩ :=
      ih hs₁ hle.2 fun n q hn => hcar n q (by simp only [Lane.next] at hn; omega)
    exact ⟨⟨data, p⟩ :: fs, l', .cons hf (hcar _ p le_rfl) hch, by rw [wire_cons, hw],
      by rw [carried_cons, hc, List.flatten_cons], by rw [List.length_cons, hlen, List.length_cons],
      hs', hp.trans hk hk'⟩

/-- The loop of a sender ends, having packed all of the buffer. -/
theorem Packer.cut_packs (hp : Packer C P pack hashOf kept) {unit : ℕ} (hu : 0 < unit)
    (hunit : unit ≤ 2800) (fuel : ℕ) {t : Cut AuthChain} {l : Lane}
    (hs : Sends C P received l (hashOf t.obj) t.obj) (hfuel : t.buf.length < fuel) :
    ∃ ps datas t', cut unit pack fuel t = .done t' ∧ t'.ret = t.ret ++ datas ∧
      Packs pack t.obj ps datas t'.obj ∧ Cutting unit t.buf ps := by
  obtain ⟨ps, datas, t', h, hret, -, -, hps, hcut⟩ :=
    cut_spec hu (P := fun s => ∃ l, Sends C P received l (hashOf s) s)
      (fun s p ⟨l, hs⟩ hle => by
        obtain ⟨data, s', hash, h, hpack, hs', -⟩ := hp.spec hs (hle.trans hunit)
        exact ⟨data, s', hpack, _, hs'⟩)
      fuel ⟨l, hs⟩ hfuel
  exact ⟨ps, datas, t', h, hret, hps, hcut⟩

/-- The frames of a buffer whose pieces carry themselves. -/
theorem Packer.cut_chain (hp : Packer C P pack hashOf kept)
    (carries : ℕ → Bytes → Bytes → Prop) {unit : ℕ} (hu : 0 < unit) (hunit : unit ≤ 2800)
    (fuel : ℕ) {t : Cut AuthChain} {l : Lane}
    (hs : Sends C P received l (hashOf t.obj) t.obj) (hfuel : t.buf.length < fuel)
    (hcar : ∀ n p, l.count ≤ n → carries n p p) :
    ∃ t' fs l', cut unit pack fuel t = .done t' ∧ t'.ret = t.ret ++ wire fs ∧
      Chain C P carries l fs l' ∧ carried fs = t.buf ∧
      fs.length = pieces unit t.buf.length ∧ Sends C P received l' (hashOf t'.obj) t'.obj ∧
      kept t.obj t'.obj := by
  obtain ⟨ps, datas, t', h, hret, hps, hcut⟩ := hp.cut_packs hu hunit fuel hs hfuel
  obtain ⟨fs, l', hch, hw, hc, hlen, hs', hk⟩ :=
    hp.packs_chain carries hps hs (fun p hp => (hcut.length_le p hp).trans hunit) hcar
  exact ⟨t', fs, l', h, by rw [hret, hw], hch, by rw [hc, hcut.flatten],
    by rw [hlen, hcut.length], hs', hk⟩

/-! ## What frames carry -/

/-- The frames of the client carry themselves. -/
def CarriesUp (_ : ℕ) (payload output : Bytes) : Prop := output = payload

/-- So do the frames of the server, but the first of them has two more bytes in front. -/
def CarriesDown (mss : ℕ) (n : ℕ) (payload output : Bytes) : Prop :=
  if n = 0 then mss < 2 ^ 16 ∧ payload = packLE 2 mss ++ output else output = payload

/-- The frames of the first buffer of the server. -/
theorem Packer.cut_chain_first (hp : Packer C P pack hashOf kept) (mss : ℕ) {unit : ℕ}
    (hmss : mss < 2 ^ 16) (hu : 2 ≤ unit) (hunit : unit ≤ 2800) {s : AuthChain} {l : Lane}
    (hs : Sends C P received l (hashOf s) s)
    (hl : l.count = 0) (buf : Bytes) (fuel : ℕ) (hfuel : buf.length + 2 < fuel) :
    ∃ t' fs l', cut unit pack fuel { obj := s, buf := packLE 2 mss ++ buf } = .done t' ∧
      t'.ret = wire fs ∧ Chain C P (CarriesDown mss) l fs l' ∧ carried fs = buf ∧
      fs.length = pieces unit (buf.length + 2) ∧ Sends C P received l' (hashOf t'.obj) t'.obj ∧
      kept s t'.obj := by
  have hlen : (packLE 2 mss ++ buf).length = buf.length + 2 := by simp; omega
  obtain ⟨ps, datas, t', h, hret, hps, hcut⟩ := hp.cut_packs (by omega) hunit
    fuel (t := { obj := s, buf := packLE 2 mss ++ buf }) hs (by simp only [hlen]; omega)
  have hflat := hcut.flatten
  have hhead := hcut.head
  have hcount := hcut.length
  have hlens := hcut.length_le
  cases hps with
  | nil => cases hhead
  | @cons _ s₁ _ p data datas ps hpack hps =>
    rw [List.forall_mem_cons] at hlens
    obtain ⟨o, rfl⟩ : ∃ o, p = packLE 2 mss ++ o := by
      refine ⟨buf.take (unit - 2), ?_⟩
      rw [List.head?_cons, Option.some.injEq] at hhead
      rw [hhead, List.take_append, List.take_of_length_le (by simpa using hu), length_packLE]
    obtain ⟨data', s₁', hash, hf, hpack', hs₁, hk⟩ := hp.spec hs (hlens.1.trans hunit)
    rw [hpack] at hpack'
    cases hpack'
    obtain ⟨fs, l', hch, hw, hc, hfs, hs', hk'⟩ :=
      hp.packs_chain (CarriesDown mss) hps hs₁ (fun p hp => (hlens.2 p hp).trans hunit)
        fun n p hn => by
          simp only [Lane.next] at hn
          rw [CarriesDown, if_neg (by omega)]
    refine ⟨t', ⟨data, o⟩ :: fs, l', h, by rw [hret, wire_cons, hw]; rfl, .cons hf ?_ hch, ?_, ?_,
      hs', hp.trans hk hk'⟩
    · rw [CarriesDown, if_pos hl]
      exact ⟨hmss, rfl⟩
    · rw [List.flatten_cons, List.append_assoc] at hflat
      rw [carried_cons, hc]
      exact List.append_cancel_left hflat
    · rw [List.length_cons, hfs, ← List.length_cons, hcount, hlen]

/-! ## Receivers -/

/-- The object has the parameters of the session. -/
structure Ready (P : Session) (s : AuthChain) : Prop where
  method_eq : s.method = P.method
  lists_eq : s.lists = P.lists
  overhead_eq : s.serverInfo.overhead = P.overhead
  userKey_eq : s.userKey = some P.userKey

/-- A server that has received up to a state of its lane. -/
def serverReceived (s : AuthChain) (buf : Bytes) (l : Lane) (random : Xorshift128plus)
    (e : Encryptor) : AuthChain :=
  { s with
    recvBuf := buf
    recvId := l.id
    lastClientHash := l.hash
    randomClient := random
    encryptor := some e }

/-- A client that has received up to a state of its lane. -/
def clientReceived (s : AuthChain) (buf : Bytes) (l : Lane) (random : Xorshift128plus)
    (e : Encryptor) (tcpMss : ℕ) : AuthChain :=
  { s with
    recvBuf := buf
    recvId := l.id
    lastServerHash := l.hash
    randomServer := random
    encryptor := some e
    serverInfo := { s.serverInfo with tcpMss } }

/-- A server, of which `s` is an earlier state, expects the frames up to the state `l'` of its
    lane. -/
inductive ServerAwaits (C : Crypto) (P : Session) (s : AuthChain) (sent : Bytes) (l' : Lane) :
    List Frame → Recv → Prop
  | intro {fs : List Frame} {buf out : Bytes} {l : Lane} {random : Xorshift128plus} {e : Encryptor}
      {sendback : Bool} : Stream C P.streamKey sent l.carried e → Chain C P CarriesUp l fs l' →
      ServerAwaits C P s sent l' fs
        { obj := serverReceived s buf l random e, outBuf := out, sendback }

/-- A client expects them, the first of them in a call of its own output. -/
inductive ClientAwaits (C : Crypto) (P : Session) (mss : ℕ) (s : AuthChain) (sent : Bytes)
    (l' : Lane) : List Frame → Recv → Prop
  | intro {fs : List Frame} {buf out : Bytes} {l : Lane} {random : Xorshift128plus} {e : Encryptor}
      {tcpMss : ℕ} {sendback : Bool} : Stream C P.streamKey sent l.carried e →
      Chain C P (CarriesDown mss) l fs l' → (l.count = 0 → out = []) →
      (0 < l.count → tcpMss = mss) →
      ClientAwaits C P mss s sent l' fs
        { obj := clientReceived s buf l random e tcpMss, outBuf := out, sendback }

variable {s : AuthChain} {sent : Bytes} {l' : Lane} {mss : ℕ}

variable {t : Recv} {userKey : Bytes} {random : Xorshift128plus}

/-- A turn of the loop of the server on a short buffer. -/
theorem serverRecvBody_short (h : ¬t.obj.recvBuf.length > 4) : serverRecvBody C t = .done t := by
  simp only [serverRecvBody, if_neg h]

/-- On an incomplete frame. -/
theorem serverRecvBody_incomplete (h : t.obj.recvBuf.length > 4)
    (hk : t.obj.userKey = some userKey)
    (ht : t.obj.takeFrame C userKey t.obj.lastClientHash t.obj.randomClient =
      .ok (.incomplete random)) :
    serverRecvBody C t = .done { t with obj := { t.obj with randomClient := random } } := by
  simp only [serverRecvBody, if_pos h, hk, ht]

/-- On a complete frame. -/
theorem serverRecvBody_frame (h : t.obj.recvBuf.length > 4) (hk : t.obj.userKey = some userKey)
    {data hash rest out : Bytes} {dataLen : ℕ} {e e' : Encryptor}
    (ht : t.obj.takeFrame C userKey t.obj.lastClientHash t.obj.randomClient =
      .ok (.frame data hash rest dataLen random))
    (he : t.obj.encryptor = some e) (hd : e.decrypt C data = (out, e')) :
    serverRecvBody C t = .more
      { obj := { t.obj with
          randomClient := random
          recvId := (t.obj.recvId + 1) % 2 ^ 32
          encryptor := some e'
          lastClientHash := hash
          recvBuf := rest }
        outBuf := t.outBuf ++ out
        sendback := t.sendback || dataLen == 0 } := by
  simp only [serverRecvBody, if_pos h, hk, ht, he, hd]

/-- The loop of the server follows the frames of the client. -/
theorem serverLockstep (hs : Ready P s) :
    Lockstep (serverRecvBody C) (fun t => t.obj.recvBuf) (fun t => t.outBuf)
      (ServerAwaits C P s sent l') where
  bytes_ne_nil h := by
    cases h with
    | intro _ hch => exact hch.bytes_ne_nil
  incomplete {f fs t} h hbuf hne := by
    by_cases hlen : t.obj.recvBuf.length > 4
    · cases h with
      | @intro buf out l random e sendback hst hch =>
        cases hch with
        | cons hf hc hrest =>
          obtain ⟨random', htake⟩ := takeFrame_incomplete (s := serverReceived s buf l random e) hf
            hbuf hne (by dsimp only at hlen; omega) hs.method_eq hs.lists_eq hs.overhead_eq random
          exact ⟨_, serverRecvBody_incomplete hlen hs.userKey_eq htake, rfl, rfl,
            .intro hst (.cons hf hc hrest)⟩
    · exact ⟨t, serverRecvBody_short hlen, rfl, rfl, h⟩
  complete {f fs t rest} h hbuf := by
    by_cases hlen : t.obj.recvBuf.length > 4
    · refine .inl ?_
      cases h with
      | @intro buf out l random e sendback hst hch =>
        cases hch with
        | @cons _ _ payload hash _ _ hf hc hrest =>
          obtain ⟨random', htake⟩ := takeFrame_complete _ (s := serverReceived s buf l random e) hf
            hbuf hs.method_eq hs.lists_eq hs.overhead_eq rfl random
          obtain ⟨e', hdec, hst'⟩ := hst.decrypt_encrypt payload
          have hid := l.id_next payload hash hf.length_hash
          rw [CarriesUp] at hc
          refine ⟨_, serverRecvBody_frame hlen hs.userKey_eq htake rfl hdec, rfl, by rw [hc], ?_⟩
          have : ServerAwaits C P s sent l' fs
              { obj := serverReceived s rest _ random' e', outBuf := out ++ payload
                sendback := sendback || payload.length == 0 } := .intro hst' hrest
          rw [serverReceived, hid] at this
          exact this
    · refine .inr ?_
      cases h with
      | @intro buf out l random e sendback hst hch =>
        cases hch with
        | @cons _ _ payload hash _ _ hf hc hrest =>
          have hb := hf.length_bytes
          have hl : buf.length = f.bytes.length + rest.length := by
            rw [show buf = _ from hbuf, List.length_append]
          have hlen' : ¬buf.length > 4 := hlen
          rw [CarriesUp] at hc
          exact ⟨List.length_eq_zero_iff.1 (by omega),
            by rw [hc]; exact List.length_eq_zero_iff.1 (by omega), _, serverRecvBody_short hlen,
            rfl, rfl, .intro hst (.cons hf hc hrest)⟩
  empty {t} h hbuf := ⟨t, serverRecvBody_short (by rw [hbuf]; decide), hbuf, rfl, h⟩

/-- A turn of the loop of the client on a short buffer. -/
theorem clientRecvBody_short (h : ¬t.obj.recvBuf.length > 4) : clientRecvBody C t = .done t := by
  simp only [clientRecvBody, if_neg h]

/-- On an incomplete frame. -/
theorem clientRecvBody_incomplete (h : t.obj.recvBuf.length > 4)
    (hk : t.obj.userKey = some userKey)
    (ht : t.obj.takeFrame C userKey t.obj.lastServerHash t.obj.randomServer =
      .ok (.incomplete random)) :
    clientRecvBody C t = .done { t with obj := { t.obj with randomServer := random } } := by
  simp only [clientRecvBody, if_pos h, hk, ht]

/-- On a complete frame, when the counter stands at one: the first two bytes of all the output of
    the call are taken off. -/
theorem clientRecvBody_first (h : t.obj.recvBuf.length > 4) (hk : t.obj.userKey = some userKey)
    {data hash rest out : Bytes} {dataLen : ℕ} {e e' : Encryptor}
    (ht : t.obj.takeFrame C userKey t.obj.lastServerHash t.obj.randomServer =
      .ok (.frame data hash rest dataLen random))
    (he : t.obj.encryptor = some e) (hd : e.decrypt C data = (out, e')) (hid : t.obj.recvId = 1)
    (hout : 2 ≤ (t.outBuf ++ out).length) :
    clientRecvBody C t = .more
      { t with
        obj := { t.obj with
          randomServer := random
          encryptor := some e'
          lastServerHash := hash
          serverInfo :=
            { t.obj.serverInfo with tcpMss := unpackLE ((t.outBuf ++ out).take 2) }
          recvId := (t.obj.recvId + 1) % 2 ^ 32
          recvBuf := rest }
        outBuf := (t.outBuf ++ out).drop 2 } := by
  simp only [clientRecvBody, if_pos h, hk, ht, he, hd, if_pos hid, if_neg (not_lt.2 hout)]

/-- On another complete frame. -/
theorem clientRecvBody_frame (h : t.obj.recvBuf.length > 4) (hk : t.obj.userKey = some userKey)
    {data hash rest out : Bytes} {dataLen : ℕ} {e e' : Encryptor}
    (ht : t.obj.takeFrame C userKey t.obj.lastServerHash t.obj.randomServer =
      .ok (.frame data hash rest dataLen random))
    (he : t.obj.encryptor = some e) (hd : e.decrypt C data = (out, e')) (hid : t.obj.recvId ≠ 1) :
    clientRecvBody C t = .more
      { t with
        obj := { t.obj with
          randomServer := random
          encryptor := some e'
          lastServerHash := hash
          recvId := (t.obj.recvId + 1) % 2 ^ 32
          recvBuf := rest }
        outBuf := t.outBuf ++ out } := by
  simp only [clientRecvBody, if_pos h, hk, ht, he, hd, if_neg hid]

/-- The counter of a lane stands at one before its first frame, and not again in the next
    `2 ^ 32 - 1`. -/
theorem Lane.id_eq_one {l : Lane} (h : l.count < 2 ^ 32) : l.id = 1 ↔ l.count = 0 := by
  rw [id]
  omega

/-- The loop of the client follows the frames of the server, as long as its counter does not
    stand at one again. -/
theorem clientLockstep (hs : Ready P s) (hcount : l'.count ≤ 2 ^ 32) :
    Lockstep (clientRecvBody C) (fun t => t.obj.recvBuf) (fun t => t.outBuf)
      (ClientAwaits C P mss s sent l') where
  bytes_ne_nil h := by
    cases h with
    | intro _ hch => exact hch.bytes_ne_nil
  incomplete {f fs t} h hbuf hne := by
    by_cases hlen : t.obj.recvBuf.length > 4
    · cases h with
      | @intro buf out l random e tcpMss sendback hst hch hout htcp =>
        cases hch with
        | cons hf hc hrest =>
          obtain ⟨random', htake⟩ := takeFrame_incomplete
            (s := clientReceived s buf l random e tcpMss) hf hbuf hne
            (by dsimp only at hlen; omega) hs.method_eq hs.lists_eq hs.overhead_eq random
          exact ⟨_, clientRecvBody_incomplete hlen hs.userKey_eq htake, rfl, rfl,
            .intro hst (.cons hf hc hrest) hout htcp⟩
    · exact ⟨t, clientRecvBody_short hlen, rfl, rfl, h⟩
  complete {f fs t rest} h hbuf := by
    by_cases hlen : t.obj.recvBuf.length > 4
    · refine .inl ?_
      cases h with
      | @intro buf out l random e tcpMss sendback hst hch hout htcp =>
        have hlt := hch.count_eq
        cases hch with
        | @cons _ _ payload hash _ _ hf hc hrest =>
          rw [List.length_cons] at hlt
          obtain ⟨random', htake⟩ := takeFrame_complete _
            (s := clientReceived s buf l random e tcpMss) hf hbuf hs.method_eq hs.lists_eq
            hs.overhead_eq rfl random
          obtain ⟨e', hdec, hst'⟩ := hst.decrypt_encrypt payload
          have hid := l.id_next payload hash hf.length_hash
          have hone := Lane.id_eq_one (l := l) (by omega)
          rw [CarriesDown] at hc
          by_cases hz : l.count = 0
          · rw [if_pos hz] at hc
            obtain ⟨hmss, rfl⟩ := hc
            obtain rfl := hout hz
            refine ⟨_, clientRecvBody_first hlen hs.userKey_eq htake rfl hdec (hone.2 hz)
              (by simp), rfl, ?_, ?_⟩
            · exact List.drop_left' (length_packLE _ _)
            · have : ClientAwaits C P mss s sent l' fs
                  { obj := clientReceived s rest _ random' e' mss, outBuf := f.output, sendback } :=
                .intro hst' hrest (fun h => by simp [Lane.next] at h) fun _ => rfl
              rw [clientReceived, hid] at this
              simp only [List.nil_append]
              rw [List.take_left' (length_packLE _ _), List.drop_left' (length_packLE _ _),
                unpackLE_packLE (by norm_num at hmss ⊢; exact hmss)]
              exact this
          · rw [if_neg hz] at hc
            refine ⟨_, clientRecvBody_frame hlen hs.userKey_eq htake rfl hdec (hone.not.2 hz), rfl,
              by rw [hc], ?_⟩
            have : ClientAwaits C P mss s sent l' fs
                { obj := clientReceived s rest _ random' e' tcpMss, outBuf := out ++ payload
                  sendback } :=
              .intro hst' hrest (fun h => by simp [Lane.next] at h) fun _ => htcp (by omega)
            rw [clientReceived, hid] at this
            exact this
    · refine .inr ?_
      cases h with
      | @intro buf out l random e tcpMss sendback hst hch hout htcp =>
        cases hch with
        | @cons _ _ payload hash _ _ hf hc hrest =>
          have hb := hf.length_bytes
          have hl : buf.length = f.bytes.length + rest.length := by
            rw [show buf = _ from hbuf, List.length_append]
          have hlen' : ¬buf.length > 4 := hlen
          have hout' : f.output.length ≤ payload.length := by
            rw [CarriesDown] at hc
            split at hc
            · rw [hc.2]
              simp
            · rw [hc]
          exact ⟨List.length_eq_zero_iff.1 (by omega), List.length_eq_zero_iff.1 (by omega), _,
            clientRecvBody_short hlen, rfl, rfl, .intro hst (.cons hf hc hrest) hout htcp⟩
  empty {t} h hbuf := ⟨t, clientRecvBody_short (by rw [hbuf]; decide), hbuf, rfl, h⟩

/-! ## Open connections -/

/-- An object that sends on the lane `out` and receives on the lane `inn`. -/
structure Open (C : Crypto) (P : Session) (out inn : Lane) (outHash inHash : Bytes)
    (s : AuthChain) : Prop extends Ready P s where
  packId_eq : s.packId = out.id
  recvId_eq : s.recvId = inn.id
  outHash_eq : outHash = out.hash
  inHash_eq : inHash = inn.hash
  stream : ∃ e, s.encryptor = some e ∧ Stream C P.streamKey out.carried inn.carried e

/-- An open client. -/
abbrev ClientOpen (C : Crypto) (P : Session) (out inn : Lane) (s : AuthChain) : Prop :=
  Open C P out inn s.lastClientHash s.lastServerHash s

/-- An open server. -/
abbrev ServerOpen (C : Crypto) (P : Session) (out inn : Lane) (s : AuthChain) : Prop :=
  Open C P out inn s.lastServerHash s.lastClientHash s

variable {out inn : Lane} {outHash inHash : Bytes}

/-- A server that has its header receives a chunk. -/
theorem serverPostDecrypt_of_done (now : Time) (users : Dict Bytes Bytes)
    (data : ObfsAuthChainData) {s : AuthChain} {buf : Bytes} {t : Recv}
    (hraw : s.rawTrans = false) (hhead : s.hasRecvHeader = true)
    (hloop : loop (serverRecvBody C) ((s.recvBuf ++ buf).length + 1)
      { obj := { s with recvBuf := s.recvBuf ++ buf }, sendback := false } = .done t) :
    ∃ data', serverPostDecrypt C now users data s buf =
      (.ok (t.outBuf, t.sendback), t.obj, data') := by
  obtain ⟨data', h⟩ := finishRecv_eq now data t
  refine ⟨data', ?_⟩
  rw [serverPostDecrypt, if_neg (by rw [hraw]; decide)]
  dsimp only
  rw [if_pos hhead]
  dsimp only
  rw [hloop]
  exact h

/-- A server returns after a part of its header. -/
theorem serverPostDecrypt_of_error {now : Time} {users : Dict Bytes Bytes}
    {data data₁ : ObfsAuthChainData} {s s₁ : AuthChain} (buf : Bytes) {r : Result}
    (hraw : s.rawTrans = false) (hhead : s.hasRecvHeader = false)
    (hr : recvHeader C now users data { s with recvBuf := s.recvBuf ++ buf } =
      (.error r, s₁, data₁)) :
    serverPostDecrypt C now users data s buf = (r, s₁, data₁) := by
  rw [serverPostDecrypt, if_neg (by rw [hraw]; decide)]
  dsimp only
  rw [if_neg (by rw [hhead]; decide), hr]

/-- A server receives its header, and what comes with it. -/
theorem serverPostDecrypt_of_ok {now : Time} {users : Dict Bytes Bytes}
    {data data₁ : ObfsAuthChainData} {s s₁ : AuthChain} {buf : Bytes} {sendback : Bool} {t : Recv}
    (hraw : s.rawTrans = false) (hhead : s.hasRecvHeader = false)
    (hr : recvHeader C now users data { s with recvBuf := s.recvBuf ++ buf } =
      (.ok sendback, s₁, data₁))
    (hloop : loop (serverRecvBody C) (s₁.recvBuf.length + 1) { obj := s₁, sendback } = .done t) :
    ∃ data', serverPostDecrypt C now users data s buf =
      (.ok (t.outBuf, t.sendback), t.obj, data') := by
  obtain ⟨data', h⟩ := finishRecv_eq now data₁ t
  refine ⟨data', ?_⟩
  rw [serverPostDecrypt, if_neg (by rw [hraw]; decide)]
  dsimp only
  rw [if_neg (by rw [hhead]; decide), hr]
  dsimp only
  rw [hloop]
  exact h

/-- A client receives a chunk. -/
theorem clientPostDecrypt_of_done {s : AuthChain} {buf : Bytes} {t : Recv}
    (hraw : s.rawTrans = false)
    (hloop : loop (clientRecvBody C) ((s.recvBuf ++ buf).length + 1)
      { obj := { s with recvBuf := s.recvBuf ++ buf } } = .done t) :
    clientPostDecrypt C s buf = (.ok t.outBuf, t.obj) := by
  rw [clientPostDecrypt, if_neg (by rw [hraw]; decide)]
  dsimp only
  rw [hloop]

theorem Open.sends (h : Open C P out inn outHash inHash s) :
    Sends C P inn.carried out outHash s :=
  ⟨h.method_eq, h.lists_eq, h.overhead_eq, h.userKey_eq, h.packId_eq, h.outHash_eq, h.stream⟩

theorem Open.setRecvBuf (h : Open C P out inn outHash inHash s) (buf : Bytes) :
    Open C P out inn outHash inHash { s with recvBuf := buf } :=
  ⟨⟨h.method_eq, h.lists_eq, h.overhead_eq, h.userKey_eq⟩, h.packId_eq, h.recvId_eq, h.outHash_eq,
    h.inHash_eq, h.stream⟩

theorem Sends.open {l : Lane} {s : AuthChain} {lastHash : Bytes}
    (h : Sends C P inn.carried l lastHash s)
    (hid : s.recvId = inn.id) (hin : inHash = inn.hash) : Open C P l inn lastHash inHash s :=
  ⟨⟨h.method_eq, h.lists_eq, h.overhead_eq, h.userKey_eq⟩, h.packId_eq, hid, h.hash_eq, hin,
    h.stream⟩

/-- What receiving keeps of a server. -/
def ServerRecvKept (s s' : AuthChain) : Prop :=
  ∃ buf l random e, s' = serverReceived s buf l random e

/-- What receiving keeps of a client. -/
def ClientRecvKept (s s' : AuthChain) : Prop :=
  ∃ buf l random e tcpMss, s' = clientReceived s buf l random e tcpMss

/-- The loop of an open server, on a part of the frames that it expects. -/
theorem serverLoop_spec (hs : ServerOpen C P out inn s) {fs : List Frame}
    (hch : Chain C P CarriesUp inn fs l') (fut : Bytes) (hbuf : s.recvBuf ++ fut = wire fs)
    (sendback : Bool) :
    ∃ done todo t' inn', fs = done ++ todo ∧
      loop (serverRecvBody C) (s.recvBuf.length + 1) { obj := s, sendback } = .done t' ∧
      t'.outBuf = carried done ∧ ServerOpen C P out inn' t'.obj ∧ Chain C P CarriesUp inn' todo l' ∧
      t'.obj.recvBuf ++ fut = wire todo ∧ (fut = [] → carried todo = []) ∧
      ServerRecvKept s t'.obj := by
  obtain ⟨e, he, hst⟩ := hs.stream
  have hawait : ServerAwaits C P s out.carried l' fs { obj := s, sendback } := by
    have : ServerAwaits C P s out.carried l' fs
        { obj := serverReceived s s.recvBuf inn s.randomClient e, sendback } := .intro hst hch
    rw [serverReceived, ← he, ← hs.recvId_eq, ← hs.inHash_eq] at this
    exact this
  obtain ⟨done, todo, t', hfs, hloop, hbuf', hout, hawait', hfin⟩ :=
    (serverLockstep hs.toReady).loop_spec (s.recvBuf.length + 1) hawait hbuf (Nat.lt_succ_self _)
  cases hawait' with
  | @intro buf' out' inn' random' e' sendback' hst' hch' =>
    exact ⟨done, todo, _, inn', hfs, hloop, hout,
      ⟨⟨hs.method_eq, hs.lists_eq, hs.overhead_eq, hs.userKey_eq⟩, hs.packId_eq, rfl,
        hs.outHash_eq, rfl, e', rfl, hst'⟩, hch', hbuf', hfin, _, _, _, _, rfl⟩

/-- The loop of an open client. -/
theorem clientLoop_spec (hs : ClientOpen C P out inn s) {fs : List Frame}
    (hch : Chain C P (CarriesDown mss) inn fs l') (hcount : l'.count ≤ 2 ^ 32)
    (htcp : 0 < inn.count → s.serverInfo.tcpMss = mss) (fut : Bytes)
    (hbuf : s.recvBuf ++ fut = wire fs) :
    ∃ done todo t' inn', fs = done ++ todo ∧
      loop (clientRecvBody C) (s.recvBuf.length + 1) { obj := s } = .done t' ∧
      t'.outBuf = carried done ∧ ClientOpen C P out inn' t'.obj ∧
      Chain C P (CarriesDown mss) inn' todo l' ∧ t'.obj.recvBuf ++ fut = wire todo ∧
      (fut = [] → carried todo = []) ∧ (0 < inn'.count → t'.obj.serverInfo.tcpMss = mss) ∧
      ClientRecvKept s t'.obj := by
  obtain ⟨e, he, hst⟩ := hs.stream
  have hawait : ClientAwaits C P mss s out.carried l' fs { obj := s } := by
    have : ClientAwaits C P mss s out.carried l' fs
        { obj := clientReceived s s.recvBuf inn s.randomServer e s.serverInfo.tcpMss } :=
      .intro hst hch (fun _ => rfl) htcp
    rw [clientReceived, ← he, ← hs.recvId_eq, ← hs.inHash_eq] at this
    exact this
  obtain ⟨done, todo, t', hfs, hloop, hbuf', hout, hawait', hfin⟩ :=
    (clientLockstep hs.toReady hcount).loop_spec (s.recvBuf.length + 1) hawait hbuf
      (Nat.lt_succ_self _)
  cases hawait' with
  | @intro buf' out' inn' random' e' tcpMss' sendback' hst' hch' hout' htcp' =>
    exact ⟨done, todo, _, inn', hfs, hloop, hout,
      ⟨⟨hs.method_eq, hs.lists_eq, hs.overhead_eq, hs.userKey_eq⟩, hs.packId_eq, rfl,
        hs.outHash_eq, rfl, e', rfl, hst'⟩, hch', hbuf', hfin, htcp', _, _, _, _, _, rfl⟩

/-- A client that has nothing to receive. -/
theorem clientPostDecrypt_nil (hraw : s.rawTrans = false) (hbuf : s.recvBuf = []) :
    clientPostDecrypt C s [] = (.ok [], s) := by
  have hs : { s with recvBuf := s.recvBuf ++ [] } = s := by rw [List.append_nil]
  have hshort : clientRecvBody C { obj := s } = .done { obj := s } :=
    clientRecvBody_short (by rw [hbuf]; decide)
  rw [clientPostDecrypt, if_neg (by rw [hraw]; decide)]
  dsimp only
  rw [hs, loop_succ_of_done hshort]

/-- A buffer of an open client. -/
theorem clientPreEncrypt_spec (hm : P.method ≠ .f) (hs : ClientOpen C P out inn s)
    (hsent : s.hasSentHeader = true) (hunit : s.unitLen = 2800) (now : Time) (buf : Bytes) :
    ∃ t' fs out', clientPreEncrypt C (buf.length + 1) now s buf = .done t' ∧ t'.ret = wire fs ∧
      Chain C P CarriesUp out fs out' ∧ carried fs = buf ∧ fs ≠ [] ∧
      ClientOpen C P out' inn t'.obj ∧ ClientKept s t'.obj := by
  obtain ⟨t', fs, out', h, hret, hch, hc, hlen, hs', hk⟩ :=
    (clientPacker hm).cut_chain CarriesUp (show 0 < 2800 by norm_num) le_rfl (buf.length + 1)
      (t := { obj := s, buf }) hs.sends (Nat.lt_succ_self _) fun _ _ _ => rfl
  refine ⟨t', fs, out', ?_, by rw [hret]; rfl, hch, hc, ?_, ?_, hk⟩
  · rw [clientPreEncrypt, if_pos hsent, hunit]
    exact h
  · exact List.ne_nil_of_length_pos (by rw [hlen]; exact Nat.succ_pos _)
  · have hkept := hk
    rw [ClientKept] at hkept
    exact hs'.open (by rw [hkept]; exact hs.recvId_eq) (by rw [hkept]; exact hs.inHash_eq)

/-- The length of the pieces that a server cuts. -/
def serverUnit (tcpMss overhead : ℕ) : ℕ := tcpMss - overhead

/-- How many frames a server makes of a buffer. -/
def serverPieces (tcpMss overhead count len : ℕ) : ℕ :=
  pieces (serverUnit tcpMss overhead) (if count = 0 then len + 2 else len)

/-- A buffer of an open server. -/
theorem serverPreEncrypt_spec (hm : P.method ≠ .f) (hs : ServerOpen C P out inn s)
    (hraw : s.rawTrans = false) (hmss : s.serverInfo.tcpMss ≤ 1500)
    (hover : s.clientOverHead + 2 ≤ s.serverInfo.tcpMss) (hcount : out.count < 2 ^ 32)
    (hunit : 0 < out.count → s.unitLen = (serverUnit s.serverInfo.tcpMss s.clientOverHead : ℕ))
    (buf : Bytes) :
    ∃ t' fs out', serverPreEncrypt C (buf.length + 3) s buf = .done t' ∧ t'.ret = wire fs ∧
      Chain C P (CarriesDown s.serverInfo.tcpMss) out fs out' ∧ carried fs = buf ∧
      fs.length = serverPieces s.serverInfo.tcpMss s.clientOverHead out.count buf.length ∧
      ServerOpen C P out' inn t'.obj ∧
      ServerKept { s with unitLen := serverUnit s.serverInfo.tcpMss s.clientOverHead } t'.obj := by
  have hid : s.packId = 1 ↔ out.count = 0 := by rw [hs.packId_eq, Lane.id_eq_one hcount]
  have hu : 2 ≤ serverUnit s.serverInfo.tcpMss s.clientOverHead := by rw [serverUnit]; omega
  have hu' : serverUnit s.serverInfo.tcpMss s.clientOverHead ≤ 2800 := by rw [serverUnit]; omega
  have hopen : ∀ {s' : AuthChain} {out' : Lane},
      Sends C P inn.carried out' s'.lastServerHash s' →
      ServerKept { s with unitLen := serverUnit s.serverInfo.tcpMss s.clientOverHead } s' →
      ServerOpen C P out' inn s' := fun hs' hk => by
    rw [ServerKept] at hk
    exact hs'.open (by rw [hk]; exact hs.recvId_eq) (by rw [hk]; exact hs.inHash_eq)
  by_cases hz : out.count = 0
  · have hmin : (if s.serverInfo.tcpMss < 1500 then s.serverInfo.tcpMss else 1500) =
        s.serverInfo.tcpMss := by
      split <;> omega
    have hcast : (s.serverInfo.tcpMss : ℤ) - s.clientOverHead =
        (serverUnit s.serverInfo.tcpMss s.clientOverHead : ℕ) := by
      rw [serverUnit, Nat.cast_sub (by omega)]
    have hs₁ := hs.sends
    obtain ⟨t', fs, out', h, hret, hch, hc, hlen, hs', hk⟩ :=
      (serverPacker hm).cut_chain_first s.serverInfo.tcpMss (by omega) hu hu'
        (s := { s with unitLen := serverUnit s.serverInfo.tcpMss s.clientOverHead })
        ⟨hs₁.method_eq, hs₁.lists_eq, hs₁.overhead_eq, hs₁.userKey_eq, hs₁.packId_eq, hs₁.hash_eq,
          hs₁.stream⟩ hz buf (buf.length + 3) (by omega)
    refine ⟨t', fs, out', ?_, hret, hch, hc, ?_, hopen hs' hk, hk⟩
    · rw [serverPreEncrypt, if_neg (by rw [hraw]; decide), if_pos (hid.2 hz)]
      simp only [hmin, hcast]
      exact h
    · rw [hlen, serverPieces, if_pos hz]
  · have hunit' := hunit (by omega)
    have hsame : { s with
        unitLen := (serverUnit s.serverInfo.tcpMss s.clientOverHead : ℕ) } = s := by rw [← hunit']
    obtain ⟨t', fs, out', h, hret, hch, hc, hlen, hs', hk⟩ :=
      (serverPacker hm).cut_chain (CarriesDown s.serverInfo.tcpMss) (by omega) hu'
        (buf.length + 3) (t := { obj := s, buf }) hs.sends (by dsimp only; omega)
        fun n p hn => by rw [CarriesDown, if_neg (by omega)]
    have hk' : ServerKept { s with
        unitLen := (serverUnit s.serverInfo.tcpMss s.clientOverHead : ℕ) } t'.obj := by
      rw [hsame]; exact hk
    refine ⟨t', fs, out', ?_, by rw [hret]; rfl, hch, hc, ?_, hopen hs' hk', hk'⟩
    · rw [serverPreEncrypt, if_neg (by rw [hraw]; decide), if_neg (hid.not.2 hz), hunit']
      exact h
    · rw [hlen, serverPieces, if_neg hz]

end AuthChain

end ShadowsocksR

import ShadowsocksR.AuthChain.Authentication
import ShadowsocksR.AuthChain.Ends

/-!
# Packing in auth_chain ends

The length of the pieces that `server_pre_encrypt` cuts is the `tcp_mss` of the
server less a number from the header of the client.

* `Valid`: what holds of every server object that is reached without an
  exception;
* `packServerData_of_valid`: after the handshake, packing a piece never fails;
* `packs_iff`: when the loop of `server_pre_encrypt` ends.
-/

namespace ShadowsocksR

namespace AuthChain

open AuthBase Encryptor

variable {C : Crypto}

/-- The objects that a server reaches by calls that return. -/
inductive Reachable (C : Crypto) (method : Method) (noCompatible : Bool) (info : ServerInfo) :
    AuthChain → Prop
  | new (rng : Rng) : Reachable C method noCompatible info (new method noCompatible info .new rng)
  | recv {s : AuthChain} (c : RecvCall ObfsAuthChainData) :
      Reachable C method noCompatible info s →
      (serverPostDecrypt C c.now c.users c.data s c.buf).1.isOk = true →
      Reachable C method noCompatible info (s.recv C c)
  | send {s : AuthChain} {fuel : ℕ} {buf : Bytes} {t : Cut AuthChain} :
      Reachable C method noCompatible info s → serverPreEncrypt C fuel s buf = .done t →
      Reachable C method noCompatible info t.obj

/-- The keys that an object has after the handshake. -/
structure Keyed (s : AuthChain) : Prop where
  method_ne : s.method ≠ .f
  userKey : ∃ key, s.userKey = some key
  encryptor : ∃ e, s.encryptor = some e ∧ e.Even
  length_lastServerHash : s.lastServerHash.length = 16

/-- A server object. -/
structure Valid (s : AuthChain) : Prop where
  lists_eq : s.lists = initDataSize s.method s.serverInfo.key
  unitLen_pos : 0 < s.unitLen
  unitLen_le : s.unitLen ≤ 2800
  tcpMss : 501 ≤ s.serverInfo.tcpMss ∧ s.serverInfo.tcpMss ≤ 1500
  keyed : s.hasRecvHeader = true → s.Keyed

variable {s : AuthChain}

/-- Packing a piece does not fail, and leaves the object as it was but for the keys. -/
theorem packServerData_of_valid (hlists : s.lists = initDataSize s.method s.serverInfo.key)
    (hk : s.Keyed) {p : Bytes} (hp : p.length ≤ 2800) :
    ∃ data s', packServerData C s p = .ok (data, s') ∧ ServerKept s s' ∧ s'.Keyed := by
  obtain ⟨hm, ⟨key, hkey⟩, ⟨e, he, heven⟩, hhash⟩ := hk
  obtain ⟨hlen, heven'⟩ := heven.encrypt (C := C) p
  obtain ⟨n, -, hdet⟩ := rndDataLen_spec hm s.serverInfo.key s.serverInfo.overhead
    s.lastServerHash hp
  obtain ⟨random, hrandom⟩ : ∃ random, rndDataLen s.method s.lists s.serverInfo.overhead p.length
      s.lastServerHash s.randomServer = .ok ((n : ℤ), random) := by
    rw [hlists]
    rcases hdet with ⟨rfl, h⟩ | ⟨r, h⟩
    · exact h _
    · exact ⟨r, h _⟩
  obtain ⟨r, hr⟩ : ∃ r, s.rndData (e.encrypt C p).1 s.lastServerHash s.randomServer = .ok r := by
    rw [rndData, hlen, hrandom]
    simp only [bind, Except.bind, randBytesInt_natCast]
    split_ifs <;> exact ⟨_, rfl⟩
  have hpack : pack 2 ((e.encrypt C p).1.length ^^^ unpackLE (s.lastServerHash.drop 14)) =
      .ok (packLE 2 ((e.encrypt C p).1.length ^^^ unpackLE (s.lastServerHash.drop 14))) := by
    refine pack_of_lt (xor_lt (by omega) ((unpackLE_lt _).trans_le ?_))
    rw [List.length_drop, hhash]
  have hdata : packServerData C s p = .ok
      (packLE 2 ((e.encrypt C p).1.length ^^^ unpackLE (s.lastServerHash.drop 14)) ++ r.1 ++
        (C.hmac .md5 (key ++ packLE 4 s.packId)
          (packLE 2 ((e.encrypt C p).1.length ^^^ unpackLE (s.lastServerHash.drop 14)) ++
            r.1)).take 2,
        { s with
          encryptor := some (e.encrypt C p).2
          lastServerHash := C.hmac .md5 (key ++ packLE 4 s.packId)
            (packLE 2 ((e.encrypt C p).1.length ^^^ unpackLE (s.lastServerHash.drop 14)) ++ r.1)
          randomServer := r.2.1
          rng := r.2.2
          packId := (s.packId + 1) % 2 ^ 32 }) := by
    simp only [packServerData, packData, he, hkey, hr, hpack, bind, Except.bind]
  exact ⟨_, _, hdata, rfl, hm, ⟨key, hkey⟩, ⟨_, rfl, heven'⟩, C.length_hmac .md5 _ _⟩

/-- What packing a frame leaves as it is. -/
theorem packServerData_kept {s' : AuthChain} {p data : Bytes}
    (h : packServerData C s p = .ok (data, s')) : ServerKept s s' ∧ (s.Keyed → s'.Keyed) := by
  obtain ⟨q, hq, h⟩ := bind_eq_ok.1 h
  cases h
  refine ⟨rfl, fun hk => ⟨hk.method_ne, hk.userKey, ⟨_, rfl, ?_⟩, ?_⟩⟩
  all_goals
    obtain ⟨-, ⟨key, hkey⟩, ⟨e, he, heven⟩, -⟩ := hk
    rw [packData, he, hkey] at hq
    obtain ⟨r, -, hq⟩ := bind_eq_ok.1 hq
    obtain ⟨len, -, hq⟩ := bind_eq_ok.1 hq
    cases hq
  · exact (heven.encrypt p).2
  · exact C.length_hmac .md5 _ _

theorem Valid.of_kept {s' : AuthChain} (hv : s.Valid) (h : ServerKept s s')
    (hk : s.Keyed → s'.Keyed) : s'.Valid := by
  rw [ServerKept] at h
  rw [h] at hk ⊢
  exact ⟨hv.lists_eq, hv.unitLen_pos, hv.unitLen_le, hv.tcpMss, fun hhead => hk (hv.keyed hhead)⟩

theorem Valid.cut (hv : s.Valid) {unit : ℤ} {fuel : ℕ} {buf : Bytes} {t : Cut AuthChain}
    (h : cut unit (packServerData C) fuel { obj := s, buf } = .done t) : t.obj.Valid := by
  have hinv : (ShadowsocksR.cut unit (packServerData C) fuel { obj := s, buf }).state.obj.Valid :=
    cut_invariant (P := Valid)
      (fun s p data s' hs hp => hs.of_kept (packServerData_kept hp).1 (packServerData_kept hp).2)
      unit fuel (t := { obj := s, buf }) hv
  rw [h] at hinv
  exact hinv

/-- The object that packs the first buffer. -/
def firstSend (s : AuthChain) : AuthChain :=
  { s with unitLen := (s.serverInfo.tcpMss : ℤ) - s.clientOverHead }

theorem serverPreEncrypt_first (hv : s.Valid) (hraw : s.rawTrans = false) (hid : s.packId = 1)
    (fuel : ℕ) (buf : Bytes) : serverPreEncrypt C fuel s buf =
      cut ((s.serverInfo.tcpMss : ℤ) - s.clientOverHead) (packServerData C) fuel
        { obj := s.firstSend, buf := packLE 2 s.serverInfo.tcpMss ++ buf } := by
  have hmin : (if s.serverInfo.tcpMss < 1500 then s.serverInfo.tcpMss else 1500) =
      s.serverInfo.tcpMss := by
    have := hv.tcpMss.2
    split <;> omega
  rw [serverPreEncrypt, if_neg (by rw [hraw]; decide), if_pos hid]
  simp only [hmin, firstSend]

theorem serverPreEncrypt_later (hraw : s.rawTrans = false) (hid : s.packId ≠ 1) (fuel : ℕ)
    (buf : Bytes) : serverPreEncrypt C fuel s buf =
      cut s.unitLen (packServerData C) fuel { obj := s, buf } := by
  rw [serverPreEncrypt, if_neg (by rw [hraw]; decide), if_neg hid]

theorem Keyed.firstSend (h : s.Keyed) : s.firstSend.Keyed :=
  ⟨h.method_ne, h.userKey, h.encryptor, h.length_lastServerHash⟩

theorem Valid.firstSend (hv : s.Valid) (hu : s.clientOverHead < s.serverInfo.tcpMss) :
    s.firstSend.Valid where
  lists_eq := hv.lists_eq
  unitLen_pos := by simp only [AuthChain.firstSend]; omega
  unitLen_le := by have := hv.tcpMss.2; simp only [AuthChain.firstSend]; omega
  tcpMss := hv.tcpMss
  keyed hhead := (hv.keyed hhead).firstSend

/-- A call of `server_pre_encrypt` that returns. -/
theorem Valid.send (hv : s.Valid) {fuel : ℕ} {buf : Bytes} {t : Cut AuthChain}
    (h : serverPreEncrypt C fuel s buf = .done t) : t.obj.Valid := by
  cases hraw : s.rawTrans with
  | true =>
    rw [serverPreEncrypt, if_pos hraw] at h
    cases h
    exact hv
  | false =>
    by_cases hid : s.packId = 1
    · rw [serverPreEncrypt_first hv hraw hid] at h
      have hu : s.clientOverHead < s.serverInfo.tcpMss := by
        by_contra hu
        exact cut_ne_done (by omega) fuel (.inr (packLE_append_ne_nil _ _ _)) t h
      exact (hv.firstSend hu).cut h
    · rw [serverPreEncrypt_later hraw hid] at h
      exact hv.cut h

/-! ## Receiving -/

/-- What a call that receives bytes leaves as it is. -/
structure SameSettings (s s' : AuthChain) : Prop where
  method : s'.method = s.method
  lists : s'.lists = s.lists
  unitLen : s'.unitLen = s.unitLen
  serverInfo : s'.serverInfo = s.serverInfo

theorem Valid.of_sameSettings {s' : AuthChain} (hv : s.Valid) (h : SameSettings s s')
    (hk : s'.hasRecvHeader = true → s'.Keyed) : s'.Valid where
  lists_eq := by rw [h.lists, h.method, h.serverInfo]; exact hv.lists_eq
  unitLen_pos := by rw [h.unitLen]; exact hv.unitLen_pos
  unitLen_le := by rw [h.unitLen]; exact hv.unitLen_le
  tcpMss := by rw [h.serverInfo]; exact hv.tcpMss
  keyed := hk

theorem Valid.of_recvKept {s' : AuthChain} (hv : s.Valid) (h : RecvKept s s') : s'.Valid := by
  have heq := h.eq
  refine hv.of_sameSettings ?_ fun hhead => ?_
  · rw [heq]
    exact ⟨rfl, rfl, rfl, rfl⟩
  · rw [heq] at hhead
    obtain ⟨hm, hkey, hencryptor, hlen⟩ := hv.keyed hhead
    have heven := h.even hencryptor
    rw [heq] at heven ⊢
    exact ⟨hm, hkey, heven, hlen⟩

variable {now : Time} {users : Dict Bytes Bytes} {data : ObfsAuthChainData}

/-- `on_recv_auth_data` raises in `auth_chain_f`, and does nothing in the other classes. -/
theorem onRecvAuthData_eq_ok {utcTime : ℕ} (h : s.onRecvAuthData utcTime = .ok ()) :
    s.method ≠ .f := by
  intro hm
  rw [onRecvAuthData, if_neg (not_not.2 hm)] at h
  split_ifs at h

/-- A header that is received leaves the object with keys, if nothing is raised; one that is not
    leaves it without a header. -/
theorem recvHeader_cases (now : Time) (users : Dict Bytes Bytes) (data : ObfsAuthChainData)
    (hhead : s.hasRecvHeader = false) :
    ∃ r s' data', recvHeader C now users data s = (r, s', data') ∧ SameSettings s s' ∧
      ((∃ sendback, r = .ok sendback) ∧ s'.Keyed ∨ (∃ e, r = .error (.error e)) ∨
        s'.hasRecvHeader = false) := by
  rw [recvHeader]
  by_cases hopens : s.Opens C users
  · obtain ⟨userIdNum, calls, rng, hopen⟩ := openHeader_of_opens s.method.salt hopens
    rw [hopen]
    dsimp only
    by_cases hadmits : Admits now data (s.keptUserId C users)
        (s.headerPlain C s.method.salt (s.headerKey C users))
    · obtain ⟨data', haccept⟩ := acceptHeader_of_admits
        (s := s.opened C users s.method.salt userIdNum calls rng) hadmits
      rw [haccept]
      dsimp only
      cases hrecv : s.onRecvAuthData
          (unpackLE ((s.headerPlain C s.method.salt (s.headerKey C users)).take 4)) with
      | error e => exact ⟨_, _, _, rfl, ⟨rfl, rfl, rfl, rfl⟩, .inr (.inl ⟨e, rfl⟩)⟩
      | ok _ =>
        have hm := onRecvAuthData_eq_ok hrecv
        exact ⟨_, _, _, rfl, ⟨rfl, rfl, rfl, rfl⟩, .inl ⟨⟨_, rfl⟩, hm, ⟨_, rfl⟩,
          ⟨_, rfl, even_new_rc4 _ _⟩, C.length_hmac .md5 _ _⟩⟩
    · obtain ⟨r, s', data', haccept, hkept⟩ := acceptHeader_of_not_admits
        (s := s.opened C users s.method.salt userIdNum calls rng) hadmits
      rw [haccept]
      exact ⟨_, _, _, rfl, ⟨rfl, rfl, hkept.unitLen, hkept.serverInfo⟩,
        .inr (.inr (hkept.hasRecvHeader.trans hhead))⟩
  · obtain ⟨r, s', hopen, hkept⟩ := openHeader_of_not_opens s.method.salt hopens
    rw [hopen]
    exact ⟨_, _, _, rfl, ⟨rfl, rfl, hkept.unitLen, hkept.serverInfo⟩,
      .inr (.inr (hkept.hasRecvHeader.trans hhead))⟩

/-- A call of `server_post_decrypt` that returns. -/
theorem Valid.recv (hv : s.Valid) {c : RecvCall ObfsAuthChainData}
    (h : (serverPostDecrypt C c.now c.users c.data s c.buf).1.isOk = true) :
    (s.recv C c).Valid := by
  rw [AuthChain.recv]
  rw [serverPostDecrypt] at h ⊢
  by_cases hraw : s.rawTrans = true
  · rw [if_pos hraw]
    exact hv
  rw [if_neg hraw] at h ⊢
  dsimp only at h ⊢
  have hv' : (s.receiving c).Valid := hv.of_recvKept ⟨rfl, id⟩
  by_cases hhead : s.hasRecvHeader = true
  · rw [if_pos hhead]
    exact hv'.of_recvKept (recvFrames_kept _ _ _ _ { obj := s.receiving c, sendback := false })
  · rw [if_neg hhead] at h ⊢
    rw [Bool.not_eq_true] at hhead
    obtain ⟨r, s', data', hrecv, hsame, hcases⟩ :=
      recvHeader_cases c.now c.users c.data (C := C) (s := s.receiving c) hhead
    rw [receiving] at hrecv
    rw [hrecv] at h ⊢
    rcases hcases with ⟨⟨sendback, rfl⟩, hkeyed⟩ | ⟨e, rfl⟩ | hnot
    · exact (hv'.of_sameSettings hsame fun _ => hkeyed).of_recvKept
        (recvFrames_kept _ _ _ _ { obj := s', sendback })
    · exact absurd (show false = true from h) (by decide)
    · have hv'' : s'.Valid := hv'.of_sameSettings hsame fun h => absurd h (by rw [hnot]; decide)
      cases r with
      | error r => exact hv''
      | ok sendback => exact hv''.of_recvKept (recvFrames_kept _ _ _ _ { obj := s', sendback })

theorem valid_new {method : Method} {noCompatible : Bool} {info : ServerInfo} (rng : Rng)
    (hmss : 501 ≤ info.tcpMss ∧ info.tcpMss ≤ 1500) :
    (new method noCompatible info .new rng).Valid where
  lists_eq := rfl
  unitLen_pos := show (0 : ℤ) < 2800 by decide
  unitLen_le := le_rfl
  tcpMss := hmss
  keyed h := nomatch h

theorem Reachable.valid {method : Method} {noCompatible : Bool} {info : ServerInfo}
    (h : Reachable C method noCompatible info s)
    (hmss : 501 ≤ info.tcpMss ∧ info.tcpMss ≤ 1500) : s.Valid := by
  induction h with
  | new rng => exact valid_new rng hmss
  | recv c _ hok ih => exact ih.recv hok
  | send _ ht ih => exact ih.send ht

/-- The loop of `server_pre_encrypt` ends, with enough turns, and the frames that it packs are not
    empty, but for the last one. -/
def Packs (C : Crypto) (s : AuthChain) (buf : Bytes) : Prop :=
  ∃ fuel t, serverPreEncrypt C fuel s buf = .done t ∧ ∀ p ∈ t.packed.dropLast, p ≠ []

/-- It does so after the first buffer, and for the first buffer if the overhead of the client is
    less than the `tcp_mss`. -/
theorem packs_iff_of_valid (hv : s.Valid) (hhead : s.hasRecvHeader = true) (buf : Bytes) :
    s.Packs C buf ↔ s.rawTrans = true ∨ s.packId ≠ 1 ∨ s.clientOverHead < s.serverInfo.tcpMss := by
  have hpack : ∀ {unit : ℤ}, unit ≤ 2800 → ∀ s' : AuthChain, ∀ p : Bytes,
      (s'.Valid ∧ s'.Keyed) → (p.length : ℤ) ≤ unit →
      ∃ data s'', packServerData C s' p = .ok (data, s'') ∧ (s''.Valid ∧ s''.Keyed) :=
    fun hunit s' p ⟨hv', hk'⟩ hlen => by
      obtain ⟨data, s'', hdata, hkept, hk''⟩ :=
        packServerData_of_valid (C := C) hv'.lists_eq hk' (p := p) (by omega)
      exact ⟨data, s'', hdata, hv'.of_kept hkept fun _ => hk'', hk''⟩
  cases hraw : s.rawTrans with
  | true =>
    refine iff_of_true ⟨0, { obj := s, buf := [], ret := buf }, ?_, by simp⟩ (.inl rfl)
    rw [serverPreEncrypt, if_pos hraw]
  | false =>
    by_cases hid : s.packId = 1
    · rw [or_iff_right (by decide), or_iff_right (not_not.2 hid), Packs]
      simp only [serverPreEncrypt_first hv hraw hid]
      have hle : (s.serverInfo.tcpMss : ℤ) - s.clientOverHead ≤ 2800 := by
        have := hv.tcpMss.2
        omega
      constructor
      · intro h
        by_contra hu
        obtain ⟨fuel, t, ht, -⟩ := h
        exact cut_ne_done (by omega) fuel (.inr (packLE_append_ne_nil _ _ _)) t ht
      · intro hu
        exact cut_ends (hpack hle) ⟨hv.firstSend hu, (hv.keyed hhead).firstSend⟩ rfl (by omega)
    · refine iff_of_true ?_ (.inr (.inl hid))
      rw [Packs]
      simp only [serverPreEncrypt_later hraw hid]
      exact cut_ends (hpack hv.unitLen_le) ⟨hv, hv.keyed hhead⟩ rfl hv.unitLen_pos

end AuthChain

end ShadowsocksR

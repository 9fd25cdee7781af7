import ShadowsocksR.AuthAkarin.Object
import ShadowsocksR.Server

/-!
# Packing in auth_akarin ends

As in auth_chain, the length of the pieces is the `tcp_mss` of the server less a
number from the header of the client.

* `Valid`: what holds of every server object that is reached without an
  exception;
* `packServerData_of_valid`: after the handshake, packing a piece never fails;
* `packs_iff_of_valid`: when the loop of `server_pre_encrypt` ends.
-/

namespace ShadowsocksR

namespace AuthAkarin

open AuthBase Encryptor

variable {C : Crypto} {now : Time} {users : Dict Bytes Bytes} {data : ObfsAuthChainData}

/-- The object after a call. -/
def recv (C : Crypto) (s : AuthAkarin) (c : RecvCall ObfsAuthChainData) : AuthAkarin :=
  (serverPostDecrypt C c.now c.users c.data s c.buf).2.1

/-- The objects that a server reaches by calls that return. -/
inductive Reachable (C : Crypto) (noCompatible : Bool) (info : ServerInfo) : AuthAkarin → Prop
  | new (rng : Rng) : Reachable C noCompatible info (new noCompatible info .new rng)
  | recv {s : AuthAkarin} (c : RecvCall ObfsAuthChainData) :
      Reachable C noCompatible info s →
      (serverPostDecrypt C c.now c.users c.data s c.buf).1.isOk = true →
      Reachable C noCompatible info (s.recv C c)
  | send {s : AuthAkarin} {fuel : ℕ} {buf : Bytes} {t : Cut AuthAkarin} :
      Reachable C noCompatible info s → serverPreEncrypt C fuel s buf = .done t →
      Reachable C noCompatible info t.obj

/-- The keys that an object has after the handshake. -/
structure Keyed (s : AuthAkarin) : Prop where
  userKey : ∃ key, s.userKey = some key
  encryptor : ∃ e, s.encryptor = some e ∧ e.Even
  length_lastServerHash : s.lastServerHash.length = 16

/-- A server object. -/
structure Valid (s : AuthAkarin) : Prop where
  usable : Usable s.method s.lists
  unitLen_pos : 0 < s.unitLen
  unitLen_le : s.unitLen ≤ 2800
  tcpMss : 501 ≤ s.serverInfo.tcpMss ∧ s.serverInfo.tcpMss ≤ 1500
  keyed : s.hasRecvHeader = true → s.Keyed

variable {s : AuthAkarin}

/-! ## Packing -/

/-- The sender never divides by zero. -/
theorem sendRndDataLen_isOk (hu : Usable s.method s.lists) {bufSize : ℕ} (h : bufSize ≤ 2802)
    (lastHash : Bytes) (random : Xorshift128plus) :
    ∃ r, s.sendRndDataLen bufSize lastHash random = .ok r := by
  obtain ⟨n, hn, -⟩ := sender_padLen hu h lastHash
  obtain ⟨random', hr⟩ := rndDataLen_eq (show bufSize < 2 ^ 16 by omega) lastHash random
  exact ⟨(n, random'), by rw [sendRndDataLen, hr, hn]; rfl⟩

/-- Packing a piece does not fail. -/
theorem packServerData_of_valid (hu : Usable s.method s.lists) (hk : s.Keyed) {p : Bytes} (hp : p.length ≤ 2800) :
    ∃ data s', packServerData C s p = .ok (data, s') := by
  obtain ⟨⟨key, hkey⟩, ⟨e, he, heven⟩, hhash⟩ := hk
  obtain ⟨hlen, -⟩ := heven.encrypt (C := C) p
  obtain ⟨r, hr⟩ := sendRndDataLen_isOk hu
    (show (e.encrypt C p).1.length ≤ 2802 by omega) s.lastServerHash s.randomServer
  have hpack : pack 2 ((e.encrypt C p).1.length ^^^ unpackLE (s.lastServerHash.drop 14)) =
      .ok (packLE 2 ((e.encrypt C p).1.length ^^^ unpackLE (s.lastServerHash.drop 14))) := by
    refine pack_of_lt (xor_lt (by omega) ((unpackLE_lt _).trans_le ?_))
    rw [List.length_drop, hhash]
  simp only [packServerData, he, hkey, rndData, hr, hpack, bind, Except.bind]
  exact ⟨_, _, rfl⟩

/-- What packing a frame leaves as it is. -/
structure SendKept (s s' : AuthAkarin) : Prop where
  method : s'.method = s.method
  lists : s'.lists = s.lists
  hasRecvHeader : s'.hasRecvHeader = s.hasRecvHeader
  unitLen : s'.unitLen = s.unitLen
  serverInfo : s'.serverInfo = s.serverInfo
  keyed : s.Keyed → s'.Keyed

theorem packServerData_kept {s' : AuthAkarin} {p data : Bytes}
    (h : packServerData C s p = .ok (data, s')) : SendKept s s' := by
  rw [packServerData] at h
  cases he : s.encryptor with
  | none => rw [he] at h; cases h
  | some e =>
    rw [he] at h
    obtain ⟨r, -, h⟩ := bind_eq_ok.1 h
    cases hkey : s.userKey with
    | none => rw [hkey] at h; cases h
    | some key =>
      rw [hkey] at h
      obtain ⟨len, -, h⟩ := bind_eq_ok.1 h
      cases h
      refine ⟨rfl, rfl, rfl, rfl, rfl, fun hk => ⟨⟨key, rfl⟩, ⟨_, rfl, ?_⟩, C.length_hmac .md5 _ _⟩⟩
      obtain ⟨e', he', heven⟩ := hk.encryptor
      cases he.symm.trans he'
      exact (heven.encrypt p).2

theorem Valid.of_sendKept {s' : AuthAkarin} (hv : s.Valid) (h : SendKept s s') : s'.Valid where
  usable := by rw [h.method, h.lists]; exact hv.usable
  unitLen_pos := by rw [h.unitLen]; exact hv.unitLen_pos
  unitLen_le := by rw [h.unitLen]; exact hv.unitLen_le
  tcpMss := by rw [h.serverInfo]; exact hv.tcpMss
  keyed hhead := h.keyed (hv.keyed (h.hasRecvHeader ▸ hhead))

theorem Valid.cut (hv : s.Valid) {unit : ℤ} {fuel : ℕ} {buf : Bytes} {t : Cut AuthAkarin}
    (h : cut unit (packServerData C) fuel { obj := s, buf } = .done t) : t.obj.Valid := by
  have hinv : (ShadowsocksR.cut unit (packServerData C) fuel { obj := s, buf }).state.obj.Valid :=
    cut_invariant (P := Valid) (fun s p data s' hs hp => hs.of_sendKept (packServerData_kept hp))
      unit fuel (t := { obj := s, buf }) hv
  rw [h] at hinv
  exact hinv

/-- The object that packs the first buffer. -/
def firstSend (s : AuthAkarin) : AuthAkarin :=
  { s with
    unitLen := (s.serverInfo.tcpMss : ℤ) - s.clientOverHead
    newSendTcpMss := s.serverInfo.tcpMss }

theorem serverPreEncrypt_first (hv : s.Valid) (hraw : s.rawTrans = false) (hid : s.packId = 1)
    (fuel : ℕ) (buf : Bytes) : serverPreEncrypt C fuel s buf =
      cut ((s.serverInfo.tcpMss : ℤ) - s.clientOverHead) (packServerData C) fuel
        { obj := s.firstSend, buf := packLE 2 s.serverInfo.tcpMss ++ buf } := by
  have hmin : (if s.serverInfo.tcpMss < 1500 then s.serverInfo.tcpMss else 1500) =
      s.serverInfo.tcpMss := by
    have := hv.tcpMss.2
    split <;> omega
  rw [serverPreEncrypt, if_neg (by rw [hraw]; decide), if_pos hid]
  simp only [hmin, firstSend]

theorem serverPreEncrypt_later (hraw : s.rawTrans = false) (hid : s.packId ≠ 1) (fuel : ℕ)
    (buf : Bytes) : serverPreEncrypt C fuel s buf =
      cut s.unitLen (packServerData C) fuel { obj := s, buf } := by
  rw [serverPreEncrypt, if_neg (by rw [hraw]; decide), if_neg hid]

theorem Keyed.firstSend (h : s.Keyed) : s.firstSend.Keyed :=
  ⟨h.userKey, h.encryptor, h.length_lastServerHash⟩

theorem Valid.firstSend (hv : s.Valid) (hu : s.clientOverHead < s.serverInfo.tcpMss) :
    s.firstSend.Valid where
  usable := hv.usable
  unitLen_pos := by simp only [AuthAkarin.firstSend]; omega
  unitLen_le := by have := hv.tcpMss.2; simp only [AuthAkarin.firstSend]; omega
  tcpMss := hv.tcpMss
  keyed hhead := (hv.keyed hhead).firstSend

/-- A call of `server_pre_encrypt` that returns. -/
theorem Valid.send (hv : s.Valid) {fuel : ℕ} {buf : Bytes} {t : Cut AuthAkarin}
    (h : serverPreEncrypt C fuel s buf = .done t) : t.obj.Valid := by
  cases hraw : s.rawTrans with
  | true =>
    rw [serverPreEncrypt, if_pos hraw] at h
    cases h
    exact hv
  | false =>
    by_cases hid : s.packId = 1
    · rw [serverPreEncrypt_first hv hraw hid] at h
      have hu : s.clientOverHead < s.serverInfo.tcpMss := by
        by_contra hu
        exact cut_ne_done (by omega) fuel (.inr (packLE_append_ne_nil _ _ _)) t h
      exact (hv.firstSend hu).cut h
    · rw [serverPreEncrypt_later hraw hid] at h
      exact hv.cut h

/-! ## Receiving -/

/-- What a call that receives bytes leaves as it is. -/
structure SameSettings (s s' : AuthAkarin) : Prop where
  method : s'.method = s.method
  lists : s'.lists = s.lists
  unitLen : s'.unitLen = s.unitLen
  serverInfo : s'.serverInfo = s.serverInfo

theorem Valid.of_sameSettings {s' : AuthAkarin} (hv : s.Valid) (h : SameSettings s s')
    (hk : s'.hasRecvHeader = true → s'.Keyed) : s'.Valid where
  usable := by rw [h.method, h.lists]; exact hv.usable
  unitLen_pos := by rw [h.unitLen]; exact hv.unitLen_pos
  unitLen_le := by rw [h.unitLen]; exact hv.unitLen_le
  tcpMss := by rw [h.serverInfo]; exact hv.tcpMss
  keyed := hk

/-- What the frames of a connection leave as it is. -/
structure RecvKept (s s' : AuthAkarin) : Prop extends SameSettings s s' where
  hasRecvHeader : s'.hasRecvHeader = s.hasRecvHeader
  userId : s'.userId = s.userId
  clientId : s'.clientId = s.clientId
  updateUserCalls : s'.updateUserCalls = s.updateUserCalls
  keyed : s.Keyed → s'.Keyed

theorem RecvKept.refl (s : AuthAkarin) : RecvKept s s := ⟨⟨rfl, rfl, rfl, rfl⟩, rfl, rfl, rfl, rfl, id⟩

theorem RecvKept.trans {s s' s'' : AuthAkarin} (h : RecvKept s s') (h' : RecvKept s' s'') :
    RecvKept s s'' where
  method := h'.method.trans h.method
  lists := h'.lists.trans h.lists
  unitLen := h'.unitLen.trans h.unitLen
  serverInfo := h'.serverInfo.trans h.serverInfo
  hasRecvHeader := h'.hasRecvHeader.trans h.hasRecvHeader
  userId := h'.userId.trans h.userId
  clientId := h'.clientId.trans h.clientId
  updateUserCalls := h'.updateUserCalls.trans h.updateUserCalls
  keyed := h'.keyed ∘ h.keyed

theorem Valid.of_recvKept {s' : AuthAkarin} (hv : s.Valid) (h : RecvKept s s') : s'.Valid :=
  hv.of_sameSettings h.toSameSettings fun hhead => h.keyed (hv.keyed (h.hasRecvHeader ▸ hhead))

/-- Fields that neither the settings nor the keys depend on. -/
theorem recvKept_of_eq {s' : AuthAkarin} (h : s' = { s with
      recvBuf := s'.recvBuf
      rawTrans := s'.rawTrans
      recvId := s'.recvId
      lastClientHash := s'.lastClientHash
      randomClient := s'.randomClient
      recvTcpMss := s'.recvTcpMss }) : RecvKept s s' := by
  rw [h]
  exact ⟨⟨rfl, rfl, rfl, rfl⟩, rfl, rfl, rfl, rfl, fun hk =>
    ⟨hk.userKey, hk.encryptor, hk.length_lastServerHash⟩⟩

theorem serverRecvBody_kept (t : Recv) : RecvKept t.obj (serverRecvBody C t).state.obj := by
  rw [serverRecvBody]
  by_cases hlen : t.obj.recvBuf.length > 4
  · dsimp only
    rw [if_pos hlen]
    cases hkey : t.obj.userKey with
    | none => exact .refl _
    | some userKey =>
      dsimp only
      generalize takeCommands _ t.obj.recvBuf _ 0 = commands
      cases commands with
      | invalid n => exact recvKept_of_eq (by rw [← hkey]; rfl)
      | short n => exact recvKept_of_eq (by rw [← hkey]; rfl)
      | data rest dataLen cmdLen =>
        dsimp only
        cases recvRndDataLen _ (dataLen + cmdLen) t.obj.lastClientHash t.obj.randomClient with
        | error e => exact recvKept_of_eq (by rw [← hkey]; rfl)
        | ok r =>
          dsimp only
          by_cases hover : dataLen + r.1 ≥ 4096
          · rw [if_pos hover]
            exact recvKept_of_eq (by rw [← hkey]; rfl)
          rw [if_neg hover]
          by_cases hshort : dataLen + r.1 + 4 > rest.length
          · rw [if_pos hshort]
            exact recvKept_of_eq (by rw [← hkey]; rfl)
          rw [if_neg hshort]
          split
          · exact recvKept_of_eq (by rw [← hkey]; rfl)
          · cases he : t.obj.encryptor with
            | none =>
              dsimp only [Next.state]
              exact recvKept_of_eq (by rw [← hkey, ← he])
            | some encryptor =>
              refine ⟨⟨rfl, rfl, rfl, rfl⟩, rfl, rfl, rfl, rfl, fun hk =>
                ⟨⟨_, rfl⟩, ?_, hk.length_lastServerHash⟩⟩
              obtain ⟨e, he', heven⟩ := hk.encryptor
              cases he.symm.trans he'
              exact ⟨_, rfl, heven.decrypt _⟩
  · dsimp only
    rw [if_neg hlen]
    exact .refl _

theorem finishRecv_obj (t : Recv) : (finishRecv now data t).2.1 = t.obj := by
  obtain ⟨data', h⟩ := finishRecv_eq now data t
  rw [h]

/-- The frames of a connection change no more. -/
theorem recvFrames_kept (C : Crypto) (now : Time) (data : ObfsAuthChainData) (fuel : ℕ) (t : Recv) :
    RecvKept t.obj (match loop (serverRecvBody C) fuel t with
      | .fail r t => (r, t.obj, data)
      | .done t | .more t => finishRecv now data t).2.1 := by
  have h := loop_invariant (P := fun t' : Recv => RecvKept t.obj t'.obj)
    (fun t' ht' => ht'.trans (serverRecvBody_kept (C := C) t')) fuel (.refl t.obj)
  cases hloop : loop (serverRecvBody C) fuel t with
  | done t' => rw [hloop] at h; dsimp only; rw [finishRecv_obj]; exact h
  | more t' => rw [hloop] at h; dsimp only; rw [finishRecv_obj]; exact h
  | fail r t' => rw [hloop] at h; exact h

/-- A header that is received leaves the object with keys; one that is not leaves it without a
    header. -/
theorem recvHeader_cases (now : Time) (users : Dict Bytes Bytes) (data : ObfsAuthChainData)
    (hhead : s.hasRecvHeader = false) :
    ∃ r s' data', recvHeader C now users data s = (r, s', data') ∧ SameSettings s s' ∧
      ((∃ sendback, r = .ok sendback) ∧ s'.Keyed ∨ s'.hasRecvHeader = false) := by
  rw [recvHeader]
  by_cases hopens : s.Opens C users
  · obtain ⟨userIdNum, calls, rng, hopen⟩ := openHeader_of_opens s.method.salt hopens
    rw [hopen]
    dsimp only
    by_cases hadmits : Admits now data (s.keptUserId C users)
        (s.headerPlain C s.method.salt (s.headerKey C users))
    · obtain ⟨data', haccept⟩ := acceptHeader_of_admits
        (s := s.opened C users s.method.salt userIdNum calls rng) hadmits
      rw [haccept]
      exact ⟨_, _, _, rfl, ⟨rfl, rfl, rfl, rfl⟩, .inl ⟨⟨_, rfl⟩, ⟨_, rfl⟩,
        ⟨_, rfl, (even_new_chacha20 _ _ _).decrypt _⟩, C.length_hmac .md5 _ _⟩⟩
    · obtain ⟨r, s', data', haccept, hkept⟩ := acceptHeader_of_not_admits
        (s := s.opened C users s.method.salt userIdNum calls rng) hadmits
      rw [haccept]
      exact ⟨_, _, _, rfl, ⟨rfl, rfl, hkept.unitLen, hkept.serverInfo⟩,
        .inr (hkept.hasRecvHeader.trans hhead)⟩
  · obtain ⟨r, s', hopen, hkept⟩ := openHeader_of_not_opens s.method.salt hopens
    rw [hopen]
    exact ⟨_, _, _, rfl, ⟨rfl, rfl, hkept.unitLen, hkept.serverInfo⟩,
      .inr (hkept.hasRecvHeader.trans hhead)⟩

theorem Valid.recv (hv : s.Valid) (c : RecvCall ObfsAuthChainData) : (s.recv C c).Valid := by
  rw [AuthAkarin.recv, serverPostDecrypt]
  by_cases hraw : s.rawTrans = true
  · rw [if_pos hraw]
    exact hv
  rw [if_neg hraw]
  dsimp only
  have hv' : ({ s with recvBuf := s.recvBuf ++ c.buf } : AuthAkarin).Valid :=
    hv.of_recvKept (recvKept_of_eq rfl)
  by_cases hhead : s.hasRecvHeader = true
  · rw [if_pos hhead]
    exact hv'.of_recvKept (recvFrames_kept _ _ _ _
      { obj := { s with recvBuf := s.recvBuf ++ c.buf }, sendback := false })
  · rw [if_neg hhead]
    rw [Bool.not_eq_true] at hhead
    obtain ⟨r, s', data', hrecv, hsame, hcases⟩ := recvHeader_cases c.now c.users c.data
      (C := C) (s := { s with recvBuf := s.recvBuf ++ c.buf }) hhead
    rw [hrecv]
    have hv'' : s'.Valid := hv'.of_sameSettings hsame fun h => by
      rcases hcases with ⟨-, hkeyed⟩ | hnot
      · exact hkeyed
      · exact absurd h (by rw [hnot]; decide)
    cases r with
    | error r => exact hv''
    | ok sendback => exact hv''.of_recvKept (recvFrames_kept _ _ _ _ { obj := s', sendback })

theorem valid_new {noCompatible : Bool} {info : ServerInfo} (rng : Rng)
    (hmss : 501 ≤ info.tcpMss ∧ info.tcpMss ≤ 1500) : (new noCompatible info .new rng).Valid where
  usable h := nomatch h
  unitLen_pos := show (0 : ℤ) < 2800 by decide
  unitLen_le := le_rfl
  tcpMss := hmss
  keyed h := nomatch h

theorem Reachable.valid {noCompatible : Bool} {info : ServerInfo}
    (h : Reachable C noCompatible info s) (hmss : 501 ≤ info.tcpMss ∧ info.tcpMss ≤ 1500) :
    s.Valid := by
  induction h with
  | new rng => exact valid_new rng hmss
  | recv c _ _ ih => exact ih.recv c
  | send _ ht ih => exact ih.send ht

/-- The loop of `server_pre_encrypt` ends, with enough turns, and the frames that it packs are not
    empty, but for the last one. -/
def Packs (C : Crypto) (s : AuthAkarin) (buf : Bytes) : Prop :=
  ∃ fuel t, serverPreEncrypt C fuel s buf = .done t ∧ ∀ p ∈ t.packed.dropLast, p ≠ []

/-- It does so after the first buffer, and for the first buffer if the overhead of the client is
    less than the `tcp_mss`. -/
theorem packs_iff_of_valid (hv : s.Valid) (hhead : s.hasRecvHeader = true) (buf : Bytes) :
    s.Packs C buf ↔ s.rawTrans = true ∨ s.packId ≠ 1 ∨ s.clientOverHead < s.serverInfo.tcpMss := by
  have hpack : ∀ {unit : ℤ}, unit ≤ 2800 → ∀ s' : AuthAkarin, ∀ p : Bytes,
      (s'.Valid ∧ s'.Keyed) → (p.length : ℤ) ≤ unit →
      ∃ data s'', packServerData C s' p = .ok (data, s'') ∧ (s''.Valid ∧ s''.Keyed) :=
    fun hunit s' p ⟨hv', hk'⟩ hlen => by
      obtain ⟨data, s'', hdata⟩ := packServerData_of_valid (C := C) hv'.usable hk' (p := p) (by omega)
      have hkept := packServerData_kept hdata
      exact ⟨data, s'', hdata, hv'.of_sendKept hkept, hkept.keyed hk'⟩
  cases hraw : s.rawTrans with
  | true =>
    refine iff_of_true ⟨0, { obj := s, buf := [], ret := buf }, ?_, by simp⟩ (.inl rfl)
    rw [serverPreEncrypt, if_pos hraw]
  | false =>
    by_cases hid : s.packId = 1
    · rw [or_iff_right (by decide), or_iff_right (not_not.2 hid), Packs]
      simp only [serverPreEncrypt_first hv hraw hid]
      have hle : (s.serverInfo.tcpMss : ℤ) - s.clientOverHead ≤ 2800 := by
        have := hv.tcpMss.2
        omega
      constructor
      · intro h
        by_contra hu
        obtain ⟨fuel, t, ht, -⟩ := h
        exact cut_ne_done (by omega) fuel (.inr (packLE_append_ne_nil _ _ _)) t ht
      · intro hu
        exact cut_ends (hpack hle) ⟨hv.firstSend hu, (hv.keyed hhead).firstSend⟩ rfl (by omega)
    · refine iff_of_true ?_ (.inr (.inl hid))
      rw [Packs]
      simp only [serverPreEncrypt_later hraw hid]
      exact cut_ends (hpack hv.unitLen_le) ⟨hv, hv.keyed hhead⟩ rfl hv.unitLen_pos

end AuthAkarin

end ShadowsocksR

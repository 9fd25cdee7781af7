import ShadowsocksR.AuthChain.Object
import ShadowsocksR.Server

/-!
# Authentication in auth_chain

* `Passes`: the checks of a header, for a key;
* `recv_of_passes`, `recv_of_not_passes`: they decide whether it is accepted;
* `authentic_iff_not_forged`, `server`: when the accepted header is authentic.
-/

namespace ShadowsocksR

namespace AuthChain

open AuthBase

variable {C : Crypto} {now : Time} {users : Dict Bytes Bytes} {data : ObfsAuthChainData}

/-- What the checks of the header decide. -/
def identity (s : AuthChain) : Bool × Option Bytes × Option Bytes :=
  (s.hasRecvHeader, s.userId, s.userKey)

/-- What the frames of a connection leave as it is. -/
structure RecvKept (s s' : AuthChain) : Prop where
  eq : s' = { s with
    recvBuf := s'.recvBuf
    rawTrans := s'.rawTrans
    recvId := s'.recvId
    lastClientHash := s'.lastClientHash
    randomClient := s'.randomClient
    encryptor := s'.encryptor }
  even : (∃ e, s.encryptor = some e ∧ e.Even) → ∃ e, s'.encryptor = some e ∧ e.Even

theorem RecvKept.refl (s : AuthChain) : RecvKept s s := ⟨rfl, id⟩

theorem RecvKept.trans {s s' s'' : AuthChain} (h : RecvKept s s') (h' : RecvKept s' s'') :
    RecvKept s s'' := by
  refine ⟨?_, h'.even ∘ h.even⟩
  have h₁ := h.eq
  have h₂ := h'.eq
  rw [h₁] at h₂
  rw [h₂]

theorem RecvKept.identity {s s' : AuthChain} (h : RecvKept s s') : s'.identity = s.identity := by
  rw [h.eq]
  rfl

theorem serverRecvBody_kept (t : Recv) : RecvKept t.obj (serverRecvBody C t).state.obj := by
  rw [serverRecvBody]
  by_cases hlen : t.obj.recvBuf.length > 4
  · dsimp only
    rw [if_pos hlen]
    cases hkey : t.obj.userKey with
    | none => exact .refl _
    | some userKey =>
      dsimp only
      cases t.obj.takeFrame C userKey t.obj.lastClientHash t.obj.randomClient with
      | error e => exact .refl _
      | ok taken =>
        cases taken with
        | overSize random => exact ⟨by rw [hkey]; rfl, id⟩
        | incomplete random => exact ⟨by rw [hkey]; rfl, id⟩
        | badChecksum random => exact ⟨by rw [hkey]; rfl, id⟩
        | frame d hash rest dataLen random =>
          dsimp only
          cases he : t.obj.encryptor with
          | none => exact ⟨by rw [hkey]; rfl, fun h => by rw [he] at h; exact h⟩
          | some encryptor =>
            refine ⟨by rw [hkey]; rfl, ?_⟩
            rintro ⟨_, he', heven⟩
            cases he.symm.trans he'
            exact ⟨_, rfl, heven.decrypt d⟩
  · dsimp only
    rw [if_neg hlen]
    exact .refl _

/-- The frames of a connection change no more. -/
theorem recvFrames_kept (C : Crypto) (now : Time) (data : ObfsAuthChainData) (fuel : ℕ) (t : Recv) :
    RecvKept t.obj (match loop (serverRecvBody C) fuel t with
      | .fail r t => (r, t.obj, data)
      | .done t | .more t => finishRecv now data t).2.1 := by
  have h := loop_invariant (P := fun t' : Recv => RecvKept t.obj t'.obj)
    (fun t' ht' => ht'.trans (serverRecvBody_kept (C := C) t')) fuel (.refl t.obj)
  have hfinish : ∀ t', (finishRecv now data t').2.1 = t'.obj := fun t' => by
    obtain ⟨data', h⟩ := finishRecv_eq now data t'
    rw [h]
  cases hloop : loop (serverRecvBody C) fuel t with
  | done t' => rw [hloop] at h; dsimp only; rw [hfinish]; exact h
  | more t' => rw [hloop] at h; dsimp only; rw [hfinish]; exact h
  | fail r t' => rw [hloop] at h; exact h

theorem serverPostDecrypt_of_hasRecvHeader (now : Time) (users : Dict Bytes Bytes)
    (data : ObfsAuthChainData) {s : AuthChain} (h : s.hasRecvHeader = true)
    (buf : Bytes) : (serverPostDecrypt C now users data s buf).2.1.identity = s.identity := by
  rw [serverPostDecrypt]
  split_ifs with hraw
  · rfl
  · dsimp only
    rw [if_pos h]
    exact (recvFrames_kept _ _ _ _ _).identity

theorem serverPostDecrypt_of_not_hasRecvHeader (now : Time) (users : Dict Bytes Bytes)
    (data : ObfsAuthChainData) {s : AuthChain} (hraw : s.rawTrans = false)
    (h : s.hasRecvHeader = false) (buf : Bytes) :
    (serverPostDecrypt C now users data s buf).2.1.identity =
      (recvHeader C now users data { s with recvBuf := s.recvBuf ++ buf }).2.1.identity := by
  rw [serverPostDecrypt, if_neg (by rw [hraw]; decide)]
  dsimp only
  rw [if_neg (by rw [h]; decide)]
  rcases recvHeader C now users data { s with recvBuf := s.recvBuf ++ buf } with
    ⟨r | sendback, s₁, d⟩
  · rfl
  · exact (recvFrames_kept _ _ _ _ _).identity

/-- The header passes all checks, if its key is `key`. -/
def Passes (C : Crypto) (now : Time) (users : Dict Bytes Bytes) (data : ObfsAuthChainData)
    (key : Bytes) (s : AuthChain) : Prop :=
  s.rawTrans = false ∧ s.hasRecvHeader = false ∧ ¬s.HeadMismatch C ∧ 36 ≤ s.recvBuf.length ∧
    s.Signed C key ∧ Admits now data (s.keptUserId C users) (s.headerPlain C s.method.salt key)

theorem recvHeader_of_passes {s : AuthChain}
    (h : s.Passes C now users data (s.headerKey C users)) :
    (recvHeader C now users data s).2.1.identity =
      (true, s.keptUserId C users, some (s.headerKey C users)) := by
  obtain ⟨-, -, hhead, hlen, hsigned, hadmits⟩ := h
  obtain ⟨userIdNum, calls, rng, hopen⟩ :=
    openHeader_of_opens s.method.salt ⟨hhead, hlen, hsigned⟩
  rw [recvHeader, hopen]
  dsimp only
  obtain ⟨data', haccept⟩ := acceptHeader_of_admits
    (s := s.opened C users s.method.salt userIdNum calls rng) hadmits
  rw [haccept]
  dsimp only
  cases s.onRecvAuthData
    (unpackLE ((s.headerPlain C s.method.salt (s.headerKey C users)).take 4)) <;> rfl

theorem recvHeader_of_not_passes {s : AuthChain} (hraw : s.rawTrans = false)
    (hhas : s.hasRecvHeader = false) (h : ¬s.Passes C now users data (s.headerKey C users)) :
    (recvHeader C now users data s).2.1.hasRecvHeader = false := by
  rw [recvHeader]
  by_cases hopens : s.Opens C users
  · obtain ⟨userIdNum, calls, rng, hopen⟩ := openHeader_of_opens s.method.salt hopens
    rw [hopen]
    dsimp only
    have hadmits : ¬Admits now data (s.keptUserId C users)
        (s.headerPlain C s.method.salt (s.headerKey C users)) := fun hadmits =>
      h ⟨hraw, hhas, hopens.1, hopens.2.1, hopens.2.2, hadmits⟩
    obtain ⟨r, s', data', haccept, hkept⟩ := acceptHeader_of_not_admits
      (s := s.opened C users s.method.salt userIdNum calls rng) hadmits
    rw [haccept]
    exact hkept.hasRecvHeader.trans hhas
  · obtain ⟨r, s', hopen, hkept⟩ := openHeader_of_not_opens s.method.salt hopens
    rw [hopen]
    exact hkept.hasRecvHeader.trans hhas

/-- The object after a call. -/
def recv (C : Crypto) (s : AuthChain) (c : RecvCall ObfsAuthChainData) : AuthChain :=
  (serverPostDecrypt C c.now c.users c.data s c.buf).2.1

/-- The object, with the bytes of a call in its buffer. -/
def receiving (s : AuthChain) (c : RecvCall ObfsAuthChainData) : AuthChain :=
  { s with recvBuf := s.recvBuf ++ c.buf }

/-- The header is signed with the key of the user whose id is in it, and this is the user of the
    connection. -/
def Authentic (C : Crypto) (s : AuthChain) (c : RecvCall ObfsAuthChainData) : Prop :=
  ∃ userKey, c.users.get? ((s.receiving c).headerUid C) = some userKey ∧
    (s.receiving c).Signed C userKey ∧
    (s.recv C c).userId = some ((s.receiving c).headerUid C) ∧ (s.recv C c).userKey = some userKey

/-- The user id in the header is not in the table, and the header passes all checks with the iv of
    the connection as its key. -/
def Forged (C : Crypto) (s : AuthChain) (c : RecvCall ObfsAuthChainData) : Prop :=
  c.users.get? ((s.receiving c).headerUid C) = none ∧
    (s.receiving c).Passes C c.now c.users c.data s.serverInfo.recvIv

variable {s : AuthChain} {c : RecvCall ObfsAuthChainData}

theorem recv_of_passes
    (h : (s.receiving c).Passes C c.now c.users c.data ((s.receiving c).headerKey C c.users)) :
    (s.recv C c).identity = (true, (s.receiving c).keptUserId C c.users,
      some ((s.receiving c).headerKey C c.users)) := by
  have hid := serverPostDecrypt_of_not_hasRecvHeader c.now c.users c.data (s := s)
    (C := C) h.1 h.2.1 c.buf
  exact hid.trans (recvHeader_of_passes h)

theorem recv_of_not_passes (hhas : s.hasRecvHeader = false)
    (h : ¬(s.receiving c).Passes C c.now c.users c.data ((s.receiving c).headerKey C c.users)) :
    (s.recv C c).hasRecvHeader = false := by
  rw [recv]
  by_cases hraw : s.rawTrans = false
  · have hid := serverPostDecrypt_of_not_hasRecvHeader c.now c.users c.data (C := C) hraw hhas c.buf
    exact (congrArg Prod.fst hid).trans (recvHeader_of_not_passes (s := s.receiving c) hraw hhas h)
  · rw [serverPostDecrypt, if_pos (by simpa using hraw)]
    exact hhas

/-- The key of a user that is not in the table, when there are users. -/
theorem headerKey_of_none (hsize : users.size ≠ 0) (h : users.get? (s.headerUid C) = none) :
    s.headerKey C users = s.serverInfo.recvIv := by
  rw [headerKey, h, Option.getD_none, if_neg hsize]

theorem authentic_iff_not_forged (hsize : c.users.size ≠ 0) :
    (s.hasRecvHeader = false → (s.recv C c).hasRecvHeader = true → s.Authentic C c) ↔
      ¬s.Forged C c := by
  constructor
  · rintro hauth ⟨hnone, hpasses⟩
    have hkey := headerKey_of_none hsize hnone
    have hacc := congrArg Prod.fst (recv_of_passes (by rw [hkey]; exact hpasses))
    obtain ⟨userKey, hsome, -⟩ := hauth hpasses.2.1 hacc
    rw [hnone] at hsome
    cases hsome
  · intro hforged hhas hacc
    by_cases hpasses : (s.receiving c).Passes C c.now c.users c.data
        ((s.receiving c).headerKey C c.users)
    · have hid := recv_of_passes hpasses
      have huserId : (s.recv C c).userId = _ := congrArg (fun i => i.2.1) hid
      have huserKey : (s.recv C c).userKey = _ := congrArg (fun i => i.2.2) hid
      cases hget : c.users.get? ((s.receiving c).headerUid C) with
      | none =>
        rw [headerKey_of_none hsize hget] at hpasses
        exact absurd ⟨hget, hpasses⟩ hforged
      | some userKey =>
        have hkey : (s.receiving c).headerKey C c.users = userKey := by
          rw [headerKey, hget, Option.getD_some]
        rw [hkey] at hpasses huserKey
        dsimp only at huserId
        rw [keptUserId, hget] at huserId
        exact ⟨userKey, hget, hpasses.2.2.2.2.1, huserId, huserKey⟩
    · rw [recv_of_not_passes hhas hpasses] at hacc
      cases hacc

/-- The servers of the classes `auth_chain_a` to `auth_chain_f`. -/
def server (C : Crypto) : Server AuthChain ObfsAuthChainData where
  recv := recv C
  hasRecvHeader s := s.hasRecvHeader
  userId s := s.userId
  Authentic := Authentic C
  Forged := Forged C
  authentic_iff _ _ := authentic_iff_not_forged
  userId_of_authentic s c _ _ h := by
    obtain ⟨_, _, _, huserId, _⟩ := h
    rw [huserId]
    exact Option.some_ne_none _
  recv_of_hasRecvHeader s c h := by
    have hid := serverPostDecrypt_of_hasRecvHeader c.now c.users c.data (C := C) h c.buf
    exact ⟨(congrArg Prod.fst hid).trans h, congrArg (fun i => i.2.1) hid⟩

end AuthChain

end ShadowsocksR

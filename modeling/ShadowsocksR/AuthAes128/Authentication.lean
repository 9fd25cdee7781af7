import ShadowsocksR.AuthAes128.Object
import ShadowsocksR.Server

/-!
# Authentication in auth_aes128

* `Passes`: the checks of a first message, for a key;
* `recv_of_passes`, `recv_of_not_passes`: they decide whether it is accepted;
* `authentic_iff_not_forged`, `server`: when the accepted message is authentic.
-/

namespace ShadowsocksR

namespace AuthAes128

open AuthBase (Admits)

variable {C : Crypto} {now : Time} {users : Dict Bytes Bytes} {data : ObfsAuthMuData}

/-- What the checks of the first message decide. -/
def identity (s : AuthAes128) : Bool × Option Bytes × Option Bytes :=
  (s.hasRecvHeader, s.userId, s.userKey)

/-- A turn of the loop over the frames changes no more. -/
theorem serverRecvBody_eq (t : Recv) : ∃ recvBuf rawTrans recvId,
    (serverRecvBody C t).state.obj = { t.obj with recvBuf, rawTrans, recvId } := by
  rw [serverRecvBody]
  by_cases hlen : t.obj.recvBuf.length > 4
  · dsimp only
    rw [if_pos hlen]
    cases hkey : t.obj.userKey with
    | none =>
      refine ⟨t.obj.recvBuf, t.obj.rawTrans, t.obj.recvId, ?_⟩
      dsimp only [Next.state]
      rw [← hkey]
    | some userKey =>
      dsimp only
      rw [← hkey]
      split_ifs
      · exact ⟨t.obj.recvBuf, true, t.obj.recvId, rfl⟩
      · exact ⟨[], true, t.obj.recvId, rfl⟩
      · exact ⟨t.obj.recvBuf, t.obj.rawTrans, t.obj.recvId, rfl⟩
      · exact ⟨[], true, t.obj.recvId, rfl⟩
      · exact ⟨_, t.obj.rawTrans, _, rfl⟩
  · dsimp only
    rw [if_neg hlen]
    exact ⟨_, _, _, rfl⟩

theorem finishRecv_obj (now : Time) (data : ObfsAuthMuData) (t : Recv) :
    (finishRecv now data t).2.1 = t.obj := by
  rw [finishRecv]
  split
  · split <;> rfl
  · rfl

/-- The frames of a connection change no more. -/
theorem recvFrames_eq (fuel : ℕ) (t : Recv) : ∃ recvBuf rawTrans recvId,
    (match loop (serverRecvBody C) fuel t with
      | .fail r t => (r, t.obj, data)
      | .done t | .more t => finishRecv now data t).2.1 =
        { t.obj with recvBuf, rawTrans, recvId } := by
  have h := loop_invariant (P := fun t' : Recv => ∃ recvBuf rawTrans recvId,
      t'.obj = { t.obj with recvBuf, rawTrans, recvId })
    (fun t' ht' => by
      obtain ⟨_, _, _, ht'⟩ := ht'
      obtain ⟨recvBuf, rawTrans, recvId, h⟩ := serverRecvBody_eq (C := C) t'
      exact ⟨recvBuf, rawTrans, recvId, by rw [h, ht']⟩) fuel ⟨_, _, _, rfl⟩
  cases hloop : loop (serverRecvBody C) fuel t with
  | done t' => rw [hloop] at h; dsimp only; rw [finishRecv_obj]; exact h
  | more t' => rw [hloop] at h; dsimp only; rw [finishRecv_obj]; exact h
  | fail r t' => rw [hloop] at h; exact h

/-- They decide nothing. -/
theorem identity_recvFrames (fuel : ℕ) (t : Recv) :
    (match loop (serverRecvBody C) fuel t with
      | .fail r t => (r, t.obj, data)
      | .done t | .more t => finishRecv now data t).2.1.identity = t.obj.identity := by
  obtain ⟨_, _, _, h⟩ := recvFrames_eq (C := C) fuel t
  rw [h]
  rfl

theorem serverPostDecrypt_of_hasRecvHeader (now : Time) (users : Dict Bytes Bytes)
    (data : ObfsAuthMuData) {s : AuthAes128} (h : s.hasRecvHeader = true)
    (buf : Bytes) : (serverPostDecrypt C now users data s buf).2.1.identity = s.identity := by
  rw [serverPostDecrypt]
  split_ifs with hraw
  · rfl
  · dsimp only
    rw [if_pos h]
    exact identity_recvFrames _ _

theorem serverPostDecrypt_of_not_hasRecvHeader (now : Time) (users : Dict Bytes Bytes)
    (data : ObfsAuthMuData) {s : AuthAes128} (hraw : s.rawTrans = false)
    (h : s.hasRecvHeader = false) (buf : Bytes) :
    (serverPostDecrypt C now users data s buf).2.1.identity =
      (recvMessage C now users data { s with recvBuf := s.recvBuf ++ buf }).2.1.identity := by
  rw [serverPostDecrypt, if_neg (by rw [hraw]; decide)]
  dsimp only
  rw [if_neg (by rw [h]; decide)]
  rcases recvMessage C now users data { s with recvBuf := s.recvBuf ++ buf } with
    ⟨r | ⟨out, sendback⟩, s₁, d⟩
  · rfl
  · exact identity_recvFrames _ _

/-- The key with which the message should be signed. -/
def headKey (C : Crypto) (users : Dict Bytes Bytes) (s : AuthAes128) : Bytes :=
  ((users.get? s.headUid).map (C.hash s.hashfunc)).getD
    (if users.size = 0 then s.serverInfo.key else s.serverInfo.recvIv)

/-- The decrypted head. -/
def headPlain (C : Crypto) (key : Bytes) (s : AuthAes128) : Bytes :=
  Encryptor.decryptBlock C (b64encode key ++ salt s.hashfunc) (s.recvBuf.extract 11 27)

/-- The user id that is kept. -/
def keptUserId (users : Dict Bytes Bytes) (s : AuthAes128) : Option Bytes :=
  if (users.get? s.headUid).isSome then some s.headUid else s.userId

/-- The message passes all checks, if its key is `key`. -/
def Passes (C : Crypto) (now : Time) (users : Dict Bytes Bytes) (data : ObfsAuthMuData)
    (key : Bytes) (s : AuthAes128) : Prop :=
  s.rawTrans = false ∧ s.hasRecvHeader = false ∧ ¬s.HeadMismatch C ∧ 31 ≤ s.recvBuf.length ∧
    s.HeadSigned C ∧ headLength (s.headPlain C key) ≤ s.recvBuf.length ∧
    s.ChecksumOk C key (s.headPlain C key) ∧
    Admits now data (s.keptUserId users) (s.headPlain C key)

theorem lookupUser_eq (users : Dict Bytes Bytes) (s : AuthAes128) :
    ∃ updateUserCalls, s.lookupUser C users =
    (s.headKey C users, { s with
      userId := s.keptUserId users
      userKey := some (s.headKey C users)
      updateUserCalls := updateUserCalls }) := by
  rw [lookupUser, headKey, keptUserId]
  cases users.get? s.headUid <;> exact ⟨_, rfl⟩

/-- The head that is opened, when it passes the checks that come before. -/
theorem openHead_eq (users : Dict Bytes Bytes) {s : AuthAes128} (hhead : ¬s.HeadMismatch C)
    (hlen : 31 ≤ s.recvBuf.length)
    (hsigned : s.HeadSigned C) : ∃ updateUserCalls rng, s.openHead C users =
    (if s.recvBuf.length < headLength (s.headPlain C (s.headKey C users)) then
        .error (.ok ([], false))
      else .ok (s.headKey C users, s.headPlain C (s.headKey C users)),
      { s with
        userId := s.keptUserId users
        userKey := some (s.headKey C users)
        updateUserCalls := updateUserCalls
        rng := rng }) := by
  obtain ⟨calls, hlook⟩ := lookupUser_eq users (C := C) s
  have hblock : (s.recvBuf.extract 11 27).length = 16 := by
    rw [List.extract_eq_take_drop, List.length_take, List.length_drop]
    omega
  refine ⟨calls, (Encryptor.new C (b64encode (s.headKey C users) ++ salt s.hashfunc) .aes128Cbc none
    s.rng).2, ?_⟩
  rw [openHead, if_neg hhead, if_neg (not_lt.2 hlen), if_neg (not_not.2 hsigned), hlook]
  dsimp only [decryptHead]
  rw [Encryptor.decrypt_new hblock]
  rw [headPlain]
  split_ifs <;> rfl

theorem openHead_error (users : Dict Bytes Bytes) {s : AuthAes128}
    (h : ¬(¬s.HeadMismatch C ∧ 31 ≤ s.recvBuf.length ∧ s.HeadSigned C)) :
    ∃ r s', s.openHead C users = (.error r, s') ∧ s'.hasRecvHeader = s.hasRecvHeader := by
  rw [openHead]
  by_cases hhead : s.HeadMismatch C
  · rw [if_pos hhead]
    exact ⟨_, _, rfl, rfl⟩
  rw [if_neg hhead]
  by_cases hlen : s.recvBuf.length < 31
  · rw [if_pos hlen]
    exact ⟨_, _, rfl, rfl⟩
  rw [if_neg hlen, if_pos fun hsigned => h ⟨hhead, not_lt.1 hlen, hsigned⟩]
  by_cases hwait : s.recvBuf.length < 31 + s.extraWaitSize
  · rw [if_pos hwait]
    exact ⟨_, _, rfl, rfl⟩
  · rw [if_neg hwait]
    exact ⟨_, _, rfl, rfl⟩

/-- The object after the head is opened. -/
theorem recvMessage_of_passes {s : AuthAes128} (h : s.Passes C now users data (s.headKey C users)) :
    (recvMessage C now users data s).2.1.identity =
      (true, s.keptUserId users, some (s.headKey C users)) := by
  obtain ⟨-, -, hhead, hlen, hsigned, hlength, hchecksum, hwin, data', hins⟩ := h
  obtain ⟨calls, rng, hopen⟩ := openHead_eq users hhead hlen hsigned
  have hchecksum' : ChecksumOk C { s with
      userId := s.keptUserId users
      userKey := some (s.headKey C users)
      updateUserCalls := calls
      rng := rng } (s.headKey C users) (s.headPlain C (s.headKey C users)) := hchecksum
  rw [recvMessage, hopen, if_neg (not_lt.2 hlength)]
  dsimp only [acceptHeader]
  rw [if_neg (not_not.2 hchecksum'), if_pos hwin, hins]
  rfl

theorem recvMessage_of_not_passes {s : AuthAes128} (hraw : s.rawTrans = false)
    (hhas : s.hasRecvHeader = false) (h : ¬s.Passes C now users data (s.headKey C users)) :
    (recvMessage C now users data s).2.1.hasRecvHeader = false := by
  by_cases hopens : ¬s.HeadMismatch C ∧ 31 ≤ s.recvBuf.length ∧ s.HeadSigned C
  · obtain ⟨hhead, hlen, hsigned⟩ := hopens
    obtain ⟨calls, rng, hopen⟩ := openHead_eq users hhead hlen hsigned
    rw [recvMessage, hopen]
    by_cases hwait : s.recvBuf.length < headLength (s.headPlain C (s.headKey C users))
    · rw [if_pos hwait]
      exact hhas
    rw [if_neg hwait]
    dsimp only [acceptHeader]
    by_cases hchecksum : ChecksumOk C { s with
        userId := s.keptUserId users
        userKey := some (s.headKey C users)
        updateUserCalls := calls
        rng := rng } (s.headKey C users) (s.headPlain C (s.headKey C users))
    · have hadmits : ¬Admits now data (s.keptUserId users) (s.headPlain C (s.headKey C users)) :=
        fun hadmits => h ⟨hraw, hhas, hhead, hlen, hsigned, not_lt.1 hwait, hchecksum, hadmits⟩
      rw [if_neg (not_not.2 hchecksum)]
      by_cases hwin : InWindow now (unpackLE ((s.headPlain C (s.headKey C users)).take 4))
      · rw [if_pos hwin]
        cases hins : data.insert now (s.keptUserId users)
          (unpackLE ((s.headPlain C (s.headKey C users)).extract 4 8))
          (unpackLE ((s.headPlain C (s.headKey C users)).extract 8 12)) with
        | none => exact hhas
        | some r =>
          obtain ⟨accepted, data'⟩ := r
          cases accepted with
          | true => exact absurd ⟨hwin, data', hins⟩ hadmits
          | false => exact hhas
      · rw [if_neg hwin]
        exact hhas
    · rw [if_pos hchecksum]
      exact hhas
  · obtain ⟨r, s', hopen, hkept⟩ := openHead_error users hopens
    rw [recvMessage, hopen]
    exact hkept.trans hhas

/-- The object after a call. -/
def recv (C : Crypto) (s : AuthAes128) (c : RecvCall ObfsAuthMuData) : AuthAes128 :=
  (serverPostDecrypt C c.now c.users c.data s c.buf).2.1

/-- The object, with the bytes of a call in its buffer. -/
def receiving (s : AuthAes128) (c : RecvCall ObfsAuthMuData) : AuthAes128 :=
  { s with recvBuf := s.recvBuf ++ c.buf }

/-- The message has a checksum with the key of the user whose id is in its head, and this is the
    user of the connection. -/
def Authentic (C : Crypto) (s : AuthAes128) (c : RecvCall ObfsAuthMuData) : Prop :=
  ∃ password, c.users.get? (s.receiving c).headUid = some password ∧
    (s.receiving c).ChecksumOk C (C.hash s.hashfunc password)
      ((s.receiving c).headPlain C (C.hash s.hashfunc password)) ∧
    (s.recv C c).userId = some (s.receiving c).headUid ∧
    (s.recv C c).userKey = some (C.hash s.hashfunc password)

/-- The user id in the head is not in the table, and the message passes all checks with the iv of
    the connection as its key. -/
def Forged (C : Crypto) (s : AuthAes128) (c : RecvCall ObfsAuthMuData) : Prop :=
  c.users.get? (s.receiving c).headUid = none ∧
    (s.receiving c).Passes C c.now c.users c.data s.serverInfo.recvIv

variable {s : AuthAes128} {c : RecvCall ObfsAuthMuData}

theorem recv_of_passes
    (h : (s.receiving c).Passes C c.now c.users c.data ((s.receiving c).headKey C c.users)) :
    (s.recv C c).identity =
      (true, (s.receiving c).keptUserId c.users, some ((s.receiving c).headKey C c.users)) := by
  have hid := serverPostDecrypt_of_not_hasRecvHeader c.now c.users c.data (s := s)
    (C := C) h.1 h.2.1 c.buf
  exact hid.trans (recvMessage_of_passes h)

theorem recv_of_not_passes (hhas : s.hasRecvHeader = false)
    (h : ¬(s.receiving c).Passes C c.now c.users c.data ((s.receiving c).headKey C c.users)) :
    (s.recv C c).hasRecvHeader = false := by
  rw [recv]
  by_cases hraw : s.rawTrans = false
  · have hid := serverPostDecrypt_of_not_hasRecvHeader c.now c.users c.data (C := C) hraw hhas c.buf
    exact (congrArg Prod.fst hid).trans
      (recvMessage_of_not_passes (s := s.receiving c) hraw hhas h)
  · rw [serverPostDecrypt, if_pos (by simpa using hraw)]
    exact hhas

/-- The key of a user that is not in the table, when there are users. -/
theorem headKey_of_none (hsize : users.size ≠ 0) (h : users.get? s.headUid = none) :
    s.headKey C users = s.serverInfo.recvIv := by
  rw [headKey, h, Option.map_none, Option.getD_none, if_neg hsize]

theorem authentic_iff_not_forged (hsize : c.users.size ≠ 0) :
    (s.hasRecvHeader = false → (s.recv C c).hasRecvHeader = true → s.Authentic C c) ↔
      ¬s.Forged C c := by
  constructor
  · rintro hauth ⟨hnone, hpasses⟩
    have hkey := headKey_of_none (C := C) hsize hnone
    have hacc := congrArg Prod.fst (recv_of_passes (by rw [hkey]; exact hpasses))
    obtain ⟨password, hsome, -⟩ := hauth hpasses.2.1 hacc
    rw [hnone] at hsome
    cases hsome
  · intro hforged hhas hacc
    by_cases hpasses : (s.receiving c).Passes C c.now c.users c.data
        ((s.receiving c).headKey C c.users)
    · have hid := recv_of_passes hpasses
      have huserId : (s.recv C c).userId = (s.receiving c).keptUserId c.users :=
        congrArg (fun i => i.2.1) hid
      have huserKey : (s.recv C c).userKey = some ((s.receiving c).headKey C c.users) :=
        congrArg (fun i => i.2.2) hid
      cases hget : c.users.get? (s.receiving c).headUid with
      | none =>
        rw [headKey_of_none (C := C) hsize hget] at hpasses
        exact absurd ⟨hget, hpasses⟩ hforged
      | some password =>
        have hkey : (s.receiving c).headKey C c.users = C.hash s.hashfunc password := by
          rw [headKey, hget, Option.map_some, Option.getD_some]
          rfl
        rw [hkey] at hpasses huserKey
        rw [keptUserId, hget] at huserId
        obtain ⟨-, -, -, -, -, -, hchecksum, -⟩ := hpasses
        exact ⟨password, hget, hchecksum, huserId, huserKey⟩
    · rw [recv_of_not_passes hhas hpasses] at hacc
      cases hacc

/-- The servers of the class `auth_aes128_sha1`. -/
def server (C : Crypto) : Server AuthAes128 ObfsAuthMuData where
  recv := recv C
  hasRecvHeader s := s.hasRecvHeader
  userId s := s.userId
  Authentic := Authentic C
  Forged := Forged C
  authentic_iff _ _ := authentic_iff_not_forged
  userId_of_authentic s c _ _ h := by
    obtain ⟨_, _, _, huserId, _⟩ := h
    rw [huserId]
    exact Option.some_ne_none _
  recv_of_hasRecvHeader s c h := by
    have hid := serverPostDecrypt_of_hasRecvHeader c.now c.users c.data (C := C) h c.buf
    exact ⟨(congrArg Prod.fst hid).trans h, congrArg (fun i => i.2.1) hid⟩

end AuthAes128

end ShadowsocksR

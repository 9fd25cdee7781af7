import ShadowsocksR.Authentication
import ShadowsocksR.AuthAkarin.Termination
import ShadowsocksR.TcpRelay.SpeedLimit

/-!
# Whom a connection is attributed to

The protocol objects call `update_user_func` when the head of a handshake names
a user of the table, and make the other checks of the handshake after it. The
handler of the connection has the user and its limits from then on, also when
the handshake is refused.

* `UserCalls`: the objects of a protocol, with these calls;
* `UserCalls.anonymous_iff`: a connection without a handshake has no user, as
  long as every handshake that names one passes the other checks at once.
-/

namespace ShadowsocksR

/-! ## Protocols and connections -/

/-- The objects of a protocol on the server's side, with the calls of `update_user_func`. -/
structure UserCalls (σ δ : Type) where
  /-- The object after a call. -/
  recv : σ → RecvCall δ → σ
  hasRecvHeader : σ → Bool
  /-- The calls of `update_user_func` so far. -/
  calls : σ → List Bytes
  /-- The checks before the look-up of the user pass, and it finds a user of the table. -/
  Names : σ → RecvCall δ → Prop
  /-- All checks of the handshake pass. -/
  Passes : σ → RecvCall δ → Prop
  calls_of_names : ∀ s c, hasRecvHeader s = false → Names s c →
    ∃ uid, calls (recv s c) = calls s ++ [uid]
  calls_of_not_names : ∀ s c, hasRecvHeader s = false → ¬Names s c → calls (recv s c) = calls s
  hasRecvHeader_iff : ∀ s c, hasRecvHeader s = false →
    (hasRecvHeader (recv s c) = true ↔ Passes s c)
  recv_of_hasRecvHeader : ∀ s c, hasRecvHeader s = true → hasRecvHeader (recv s c) = true

/-- A call of `server_post_decrypt`, with the tables of the port at that time. -/
structure PortCall (δ : Type) where
  now : Time
  relay : RelayUsers
  data : δ
  buf : Bytes

/-- `server_info.users` is the table `server_users` of the port. -/
def PortCall.recvCall {δ : Type} (c : PortCall δ) : RecvCall δ where
  now := c.now
  users := c.relay.serverUsers
  data := c.data
  buf := c.buf

/-- The connection has the user, the number and the limits that it was made with. -/
structure UserConn.Anonymous (config : PortCfg) (c : UserConn) : Prop where
  user : c.user = none
  userId : c.userId = config.listenPort
  limitU : c.speedTesterU.maxSpeed = config.speedLimitPerCon.getD 0 * 1024
  limitD : c.speedTesterD.maxSpeed = config.speedLimitPerCon.getD 0 * 1024

theorem UserConn.anonymous_new (config : PortCfg) (now : Time) :
    (UserConn.new config now).Anonymous config := ⟨rfl, rfl, rfl, rfl⟩

namespace UserCalls

variable {σ δ : Type} (P : UserCalls σ δ)

/-- One call: the object after it, and the handler of the connection, whose `_update_user` is
    called. -/
def step (st : σ × UserConn) (c : PortCall δ) : Option (σ × UserConn) :=
  let s := P.recv st.1 c.recvCall
  some (s, ((P.calls s).drop (P.calls st.1).length).foldl
    (fun conn uid => (conn.updateUser c.relay uid).2) st.2)

/-- Without a handshake, nobody was called, and the connection is as it was made. -/
def Unattributed (config : PortCfg) (st : σ × UserConn) : Prop :=
  P.hasRecvHeader st.1 = false → P.calls st.1 = [] ∧ st.2.Anonymous config

/-- A call that does not complete a handshake names no user. -/
def Careful (st : σ × UserConn) (c : PortCall δ) : Prop :=
  P.hasRecvHeader st.1 = false → P.Names st.1 c.recvCall → P.Passes st.1 c.recvCall

variable {P}

/-- Whether a call keeps a connection without a handshake unattributed. -/
theorem unattributed_step {config : PortCfg} {st st' : σ × UserConn} {c : PortCall δ}
    (h : P.Unattributed config st) (hstep : P.step st c = some st') :
    P.Unattributed config st' ↔ P.Careful st c := by
  cases hstep
  cases hhead : P.hasRecvHeader st.1 with
  | true =>
    -- The handshake is over.
    have hhead' := P.recv_of_hasRecvHeader st.1 c.recvCall hhead
    refine iff_of_true (fun hf => ?_) fun hf => ?_
    · rw [hhead'] at hf
      cases hf
    · rw [hhead] at hf
      cases hf
  | false =>
    obtain ⟨hcalls, hconn⟩ := h hhead
    have hiff := P.hasRecvHeader_iff st.1 c.recvCall hhead
    by_cases hnames : P.Names st.1 c.recvCall
    · obtain ⟨uid, huid⟩ := P.calls_of_names st.1 c.recvCall hhead hnames
      constructor
      · intro hun _ _
        by_contra hpasses
        have hf := Bool.eq_false_of_not_eq_true fun ht => hpasses (hiff.1 ht)
        have hnil := (hun hf).1
        rw [huid, hcalls] at hnil
        cases hnil
      · intro hcareful hf
        rw [hiff.2 (hcareful hhead hnames)] at hf
        cases hf
    · have heq := P.calls_of_not_names st.1 c.recvCall hhead hnames
      refine iff_of_true (fun _ => ⟨heq.trans hcalls, ?_⟩) fun _ hn => absurd hn hnames
      rw [heq, List.drop_length]
      exact hconn

/-- In every state of a run, a connection without a handshake has no user. -/
def StaysAnonymous (P : UserCalls σ δ) (config : PortCfg) (st : σ × UserConn)
    (calls : List (PortCall δ)) : Prop :=
  Run.Throughout P.step (fun st c => ∀ st', P.step st c = some st' → P.Unattributed config st') st
    calls

/-- A new connection stays anonymous until the handshake if and only if every call with a handshake
    that names a user completes it. -/
def AnonymousIff (P : UserCalls σ δ) (s : σ) : Prop :=
  ∀ config start calls, P.StaysAnonymous config (s, .new config start) calls ↔
    Run.Throughout P.step P.Careful (s, .new config start) calls

theorem anonymous_iff {s : σ} (hs : P.calls s = []) : P.AnonymousIff s := fun config start calls =>
  Run.throughout_iff (I := fun _ => True) (P := P.Unattributed config) (fun _ _ => trivial)
    (fun _ h hstep => unattributed_step h hstep) (fun h => by cases h) trivial
    (fun _ => ⟨hs, UserConn.anonymous_new config start⟩) calls

end UserCalls

/-! ## auth_chain -/

namespace AuthChain

variable {C : Crypto} {s : AuthChain} {c : RecvCall ObfsAuthChainData}

theorem recvHeader_calls (now : Time) (users : Dict Bytes Bytes) (data : ObfsAuthChainData)
    (s : AuthChain) : (recvHeader C now users data s).2.1.updateUserCalls =
      (s.openHeader C s.method.salt users).2.updateUserCalls := by
  rw [recvHeader]
  rcases s.openHeader C s.method.salt users with ⟨r | head, base⟩
  · rfl
  · dsimp only
    have haccept := AuthBase.acceptHeader_calls now data head base
    obtain ⟨⟨r, base', data'⟩, hr⟩ : ∃ r, base.acceptHeader now data head = r := ⟨_, rfl⟩
    rw [hr] at haccept ⊢
    cases r with
    | error r => exact haccept
    | ok utcTime =>
      dsimp only
      cases s.onRecvAuthData utcTime <;> exact haccept

theorem recv_calls (hraw : s.rawTrans = false) (hhead : s.hasRecvHeader = false) :
    (s.recv C c).updateUserCalls =
      ((s.receiving c).openHeader C s.method.salt c.users).2.updateUserCalls := by
  rw [recv, serverPostDecrypt, if_neg (by rw [hraw]; decide)]
  dsimp only
  rw [if_neg (by rw [hhead]; decide)]
  have hcalls := recvHeader_calls c.now c.users c.data (C := C) (s.receiving c)
  rw [receiving] at hcalls ⊢
  obtain ⟨⟨r, s', data'⟩, hr⟩ : ∃ r, recvHeader C c.now c.users c.data
    { s with recvBuf := s.recvBuf ++ c.buf } = r := ⟨_, rfl⟩
  rw [hr] at hcalls ⊢
  cases r with
  | error r => exact hcalls
  | ok sendback =>
    have hkept := recvFrames_kept C c.now data' (s'.recvBuf.length + 1) { obj := s', sendback }
    exact (congrArg (fun s : AuthChain => s.updateUserCalls) hkept.eq).trans hcalls

theorem recv_of_rawTrans (hraw : s.rawTrans ≠ false) : s.recv C c = s := by
  rw [recv, serverPostDecrypt, if_pos (by simpa using hraw)]

/-- The header is complete, passes the first check, and names a user of the table. -/
def Names (C : Crypto) (s : AuthChain) (c : RecvCall ObfsAuthChainData) : Prop :=
  s.rawTrans = false ∧ (s.receiving c).toAuthBase.Names C c.users

/-- The servers of the classes `auth_chain_a` to `auth_chain_f`. -/
def userCalls (C : Crypto) : UserCalls AuthChain ObfsAuthChainData where
  recv := recv C
  hasRecvHeader s := s.hasRecvHeader
  calls s := s.updateUserCalls
  Names := Names C
  Passes s c := (s.receiving c).Passes C c.now c.users c.data ((s.receiving c).headerKey C c.users)
  calls_of_names s c hhead h := by
    rw [recv_calls h.1 hhead, AuthBase.openHeader_calls, if_pos h.2]
    exact ⟨_, rfl⟩
  calls_of_not_names s c hhead h := by
    by_cases hraw : s.rawTrans = false
    · rw [recv_calls hraw hhead, AuthBase.openHeader_calls, if_neg fun hn => h ⟨hraw, hn⟩]
      exact List.append_nil _
    · rw [recv_of_rawTrans hraw]
  hasRecvHeader_iff s c hhead := by
    by_cases h : (s.receiving c).Passes C c.now c.users c.data ((s.receiving c).headerKey C c.users)
    · exact iff_of_true (congrArg Prod.fst (recv_of_passes h)) h
    · exact iff_of_false (by rw [recv_of_not_passes hhead h]; decide) h
  recv_of_hasRecvHeader s c h := ((server C).recv_of_hasRecvHeader s c h).1

end AuthChain

/-! ## auth_akarin -/

namespace AuthAkarin

open AuthBase (Admits)

variable {C : Crypto} {s : AuthAkarin} {c : RecvCall ObfsAuthChainData}

/-- The object, with the bytes of a call in its buffer. -/
def receiving (s : AuthAkarin) (c : RecvCall ObfsAuthChainData) : AuthAkarin :=
  { s with recvBuf := s.recvBuf ++ c.buf }

/-- What a call makes of the handshake, apart from the frames after it. -/
theorem recv_kept (hraw : s.rawTrans = false) (hhead : s.hasRecvHeader = false) :
    RecvKept (recvHeader C c.now c.users c.data (s.receiving c)).2.1 (s.recv C c) := by
  rw [recv, serverPostDecrypt, if_neg (by rw [hraw]; decide)]
  dsimp only
  rw [if_neg (by rw [hhead]; decide), receiving]
  obtain ⟨⟨r, s', data'⟩, hr⟩ : ∃ r, recvHeader C c.now c.users c.data
    { s with recvBuf := s.recvBuf ++ c.buf } = r := ⟨_, rfl⟩
  rw [hr]
  cases r with
  | error r => exact .refl _
  | ok sendback => exact recvFrames_kept C c.now data' _ { obj := s', sendback }

theorem recvHeader_calls (now : Time) (users : Dict Bytes Bytes) (data : ObfsAuthChainData)
    (s : AuthAkarin) : (recvHeader C now users data s).2.1.updateUserCalls =
      (s.openHeader C s.method.salt users).2.updateUserCalls := by
  rw [recvHeader]
  rcases s.openHeader C s.method.salt users with ⟨r | head, base⟩
  · rfl
  · dsimp only
    have haccept := AuthBase.acceptHeader_calls now data head base
    obtain ⟨⟨r, base', data'⟩, hr⟩ : ∃ r, base.acceptHeader now data head = r := ⟨_, rfl⟩
    rw [hr] at haccept ⊢
    cases r <;> exact haccept

theorem recv_calls (hraw : s.rawTrans = false) (hhead : s.hasRecvHeader = false) :
    (s.recv C c).updateUserCalls =
      ((s.receiving c).openHeader C s.method.salt c.users).2.updateUserCalls :=
  (recv_kept hraw hhead).updateUserCalls.trans (recvHeader_calls _ _ _ _)

theorem recv_of_rawTrans (hraw : s.rawTrans ≠ false) : s.recv C c = s := by
  rw [recv, serverPostDecrypt, if_pos (by simpa using hraw)]

theorem recv_of_hasRecvHeader (h : s.hasRecvHeader = true) :
    (s.recv C c).hasRecvHeader = true := by
  rw [recv, serverPostDecrypt]
  split_ifs with hraw
  · exact h
  · dsimp only
    rw [if_pos h]
    exact (recvFrames_kept C c.now c.data _
      { obj := { s with recvBuf := s.recvBuf ++ c.buf }, sendback := false }).hasRecvHeader.trans h

/-- The header is complete, passes the first check, and names a user of the table. -/
def Names (C : Crypto) (s : AuthAkarin) (c : RecvCall ObfsAuthChainData) : Prop :=
  s.rawTrans = false ∧ (s.receiving c).toAuthBase.Names C c.users

/-- The header passes all checks. -/
def Passes (C : Crypto) (s : AuthAkarin) (c : RecvCall ObfsAuthChainData) : Prop :=
  s.rawTrans = false ∧ (s.receiving c).Opens C c.users ∧
    Admits c.now c.data ((s.receiving c).keptUserId C c.users)
      ((s.receiving c).headerPlain C (s.receiving c).method.salt
        ((s.receiving c).headerKey C c.users))

theorem recv_of_passes (hhead : s.hasRecvHeader = false) (h : s.Passes C c) :
    (s.recv C c).hasRecvHeader = true := by
  obtain ⟨hraw, hopens, hadmits⟩ := h
  obtain ⟨userIdNum, calls, rng, hopen⟩ :=
    AuthBase.openHeader_of_opens (s.receiving c).method.salt hopens
  obtain ⟨data', haccept⟩ := AuthBase.acceptHeader_of_admits
    (s := (s.receiving c).opened C c.users (s.receiving c).method.salt userIdNum calls rng) hadmits
  rw [(recv_kept hraw hhead).hasRecvHeader, recvHeader, hopen]
  dsimp only
  rw [haccept]

theorem recv_of_not_passes (hhead : s.hasRecvHeader = false) (h : ¬s.Passes C c) :
    (s.recv C c).hasRecvHeader = false := by
  by_cases hraw : s.rawTrans = false
  · rw [(recv_kept hraw hhead).hasRecvHeader, recvHeader]
    by_cases hopens : (s.receiving c).Opens C c.users
    · obtain ⟨userIdNum, calls, rng, hopen⟩ :=
        AuthBase.openHeader_of_opens (s.receiving c).method.salt hopens
      obtain ⟨r, s', data', haccept, hkept⟩ := AuthBase.acceptHeader_of_not_admits
        (s := (s.receiving c).opened C c.users (s.receiving c).method.salt userIdNum calls rng)
        fun hadmits => h ⟨hraw, hopens, hadmits⟩
      rw [hopen]
      dsimp only
      rw [haccept]
      exact hkept.hasRecvHeader.trans hhead
    · obtain ⟨r, s', hopen, hkept⟩ :=
        AuthBase.openHeader_of_not_opens (s.receiving c).method.salt hopens
      rw [hopen]
      exact hkept.hasRecvHeader.trans hhead
  · rw [recv_of_rawTrans hraw]
    exact hhead

/-- The servers of auth_akarin. -/
def userCalls (C : Crypto) : UserCalls AuthAkarin ObfsAuthChainData where
  recv := recv C
  hasRecvHeader s := s.hasRecvHeader
  calls s := s.updateUserCalls
  Names := Names C
  Passes := Passes C
  calls_of_names s c hhead h := by
    rw [recv_calls h.1 hhead, AuthBase.openHeader_calls, if_pos h.2]
    exact ⟨_, rfl⟩
  calls_of_not_names s c hhead h := by
    by_cases hraw : s.rawTrans = false
    · rw [recv_calls hraw hhead, AuthBase.openHeader_calls, if_neg fun hn => h ⟨hraw, hn⟩]
      exact List.append_nil _
    · rw [recv_of_rawTrans hraw]
  hasRecvHeader_iff s c hhead := by
    by_cases h : s.Passes C c
    · exact iff_of_true (recv_of_passes hhead h) h
    · exact iff_of_false (by rw [recv_of_not_passes hhead h]; decide) h
  recv_of_hasRecvHeader _ _ := recv_of_hasRecvHeader

end AuthAkarin

/-! ## auth_aes128 -/

namespace AuthAes128

variable {C : Crypto} {s : AuthAes128} {c : RecvCall ObfsAuthMuData}

/-- The head is complete, passes its checks, and names a user of the table. -/
def HeadNames (C : Crypto) (users : Dict Bytes Bytes) (s : AuthAes128) : Prop :=
  ¬s.HeadMismatch C ∧ 31 ≤ s.recvBuf.length ∧ s.HeadSigned C ∧
    (users.get? s.headUid).isSome = true

instance (users : Dict Bytes Bytes) (s : AuthAes128) : Decidable (s.HeadNames C users) :=
  inferInstanceAs (Decidable (_ ∧ _ ∧ _ ∧ _))

theorem lookupUser_calls (users : Dict Bytes Bytes) (s : AuthAes128) :
    (s.lookupUser C users).2.updateUserCalls =
      s.updateUserCalls ++ if (users.get? s.headUid).isSome then [s.headUid] else [] := by
  rw [lookupUser]
  cases users.get? s.headUid with
  | none => exact (List.append_nil _).symm
  | some password => rfl

/-- `update_user_func` is called before the checksum of the message is checked. -/
theorem openHead_calls (users : Dict Bytes Bytes) (s : AuthAes128) :
    (s.openHead C users).2.updateUserCalls =
      s.updateUserCalls ++ if s.HeadNames C users then [s.headUid] else [] := by
  rw [openHead]
  by_cases hhead : s.HeadMismatch C
  · rw [if_pos hhead, if_neg fun h => h.1 hhead, List.append_nil]
    rfl
  rw [if_neg hhead]
  by_cases hlen : s.recvBuf.length < 31
  · rw [if_pos hlen, if_neg fun h => not_le.2 hlen h.2.1, List.append_nil]
  rw [if_neg hlen]
  by_cases hsigned : s.HeadSigned C
  · rw [if_neg (not_not.2 hsigned)]
    have hnames : s.HeadNames C users ↔ (users.get? s.headUid).isSome = true :=
      ⟨fun h => h.2.2.2, fun h => ⟨hhead, not_lt.1 hlen, hsigned, h⟩⟩
    have hlook := lookupUser_calls (C := C) users s
    rw [if_congr hnames rfl rfl, ← hlook]
    obtain ⟨⟨userKey, s₁⟩, h₁⟩ : ∃ r, s.lookupUser C users = r := ⟨_, rfl⟩
    obtain ⟨⟨head, s₂⟩, h₂⟩ : ∃ r, s₁.decryptHead C userKey = r := ⟨_, rfl⟩
    have hdec : s₂.updateUserCalls = s₁.updateUserCalls :=
      (congrArg (fun r => r.2.updateUserCalls) h₂).symm
    rw [h₁]
    dsimp only
    rw [h₂]
    dsimp only
    split_ifs <;> exact hdec
  · have hnames : ¬s.HeadNames C users := fun h => hsigned h.2.2.1
    rw [if_pos hsigned, if_neg hnames, List.append_nil]
    split_ifs <;> rfl

theorem acceptHeader_calls (now : Time) (data : ObfsAuthMuData) (userKey head : Bytes)
    (s : AuthAes128) :
    (s.acceptHeader C now data userKey head).2.1.updateUserCalls = s.updateUserCalls := by
  rw [acceptHeader]
  dsimp only
  split_ifs
  · cases data.insert now s.userId (unpackLE (head.extract 4 8)) (unpackLE (head.extract 8 12)) with
    | none => rfl
    | some r =>
      obtain ⟨accepted, data'⟩ := r
      cases accepted <;> rfl
  · rfl
  · rfl

theorem recvMessage_calls (now : Time) (users : Dict Bytes Bytes) (data : ObfsAuthMuData)
    (s : AuthAes128) : (recvMessage C now users data s).2.1.updateUserCalls =
      (s.openHead C users).2.updateUserCalls := by
  rw [recvMessage]
  rcases s.openHead C users with ⟨r | ⟨userKey, head⟩, s'⟩
  · rfl
  · exact acceptHeader_calls now data userKey head s'

theorem recv_calls (hraw : s.rawTrans = false) (hhead : s.hasRecvHeader = false) :
    (s.recv C c).updateUserCalls =
      ((s.receiving c).openHead C c.users).2.updateUserCalls := by
  rw [recv, serverPostDecrypt, if_neg (by rw [hraw]; decide)]
  dsimp only
  rw [if_neg (by rw [hhead]; decide)]
  have hcalls := recvMessage_calls (C := C) c.now c.users c.data (s.receiving c)
  rw [receiving] at hcalls ⊢
  obtain ⟨⟨r, s', data'⟩, hr⟩ : ∃ r, recvMessage C c.now c.users c.data
    { s with recvBuf := s.recvBuf ++ c.buf } = r := ⟨_, rfl⟩
  rw [hr] at hcalls ⊢
  cases r with
  | error r => exact hcalls
  | ok out =>
    obtain ⟨outBuf, sendback⟩ := out
    obtain ⟨_, _, _, h⟩ := recvFrames_eq (C := C)
      (s'.recvBuf.length + 1) { obj := s', outBuf, sendback }
    exact (congrArg updateUserCalls h).trans hcalls

theorem recv_of_rawTrans (hraw : s.rawTrans ≠ false) : s.recv C c = s := by
  rw [recv, serverPostDecrypt, if_pos (by simpa using hraw)]

/-- The head is complete, passes its checks, and names a user of the table. -/
def Names (C : Crypto) (s : AuthAes128) (c : RecvCall ObfsAuthMuData) : Prop :=
  s.rawTrans = false ∧ (s.receiving c).HeadNames C c.users

/-- The servers of the class `auth_aes128_sha1`. -/
def userCalls (C : Crypto) : UserCalls AuthAes128 ObfsAuthMuData where
  recv := recv C
  hasRecvHeader s := s.hasRecvHeader
  calls s := s.updateUserCalls
  Names := Names C
  Passes s c := (s.receiving c).Passes C c.now c.users c.data ((s.receiving c).headKey C c.users)
  calls_of_names s c hhead h := by
    rw [recv_calls h.1 hhead, openHead_calls, if_pos h.2]
    exact ⟨_, rfl⟩
  calls_of_not_names s c hhead h := by
    by_cases hraw : s.rawTrans = false
    · rw [recv_calls hraw hhead, openHead_calls, if_neg fun hn => h ⟨hraw, hn⟩]
      exact List.append_nil _
    · rw [recv_of_rawTrans hraw]
  hasRecvHeader_iff s c hhead := by
    by_cases h : (s.receiving c).Passes C c.now c.users c.data ((s.receiving c).headKey C c.users)
    · exact iff_of_true (congrArg Prod.fst (recv_of_passes h)) h
    · exact iff_of_false (by rw [recv_of_not_passes hhead h]; decide) h
  recv_of_hasRecvHeader s c h := ((server C).recv_of_hasRecvHeader s c h).1

end AuthAes128

/-! ## The protocols -/

/-- The connections of auth_chain, auth_akarin and auth_aes128 have no user before the handshake if
    and only if no handshake names a user without passing the other checks. -/
theorem user_iff_handshake (C : Crypto) :
    (∀ method noCompatible info rng, (AuthChain.userCalls C).AnonymousIff
      (AuthChain.new method noCompatible info .new rng)) ∧
    (∀ noCompatible info rng, (AuthAkarin.userCalls C).AnonymousIff
      (AuthAkarin.new noCompatible info .new rng)) ∧
    (∀ hashfunc noCompatible info rng, (AuthAes128.userCalls C).AnonymousIff
      (AuthAes128.new hashfunc noCompatible info rng)) :=
  ⟨fun _ _ _ _ => UserCalls.anonymous_iff rfl, fun _ _ _ => UserCalls.anonymous_iff rfl,
    fun _ _ _ _ => UserCalls.anonymous_iff rfl⟩

/-! ## A handshake with a wrong signature -/

/-- A port with one user. -/
def oneUserPort : RelayUsers where
  config := { protocolParam := [], muProtocol := true, listenPort := 80 }
  serverUsers := oneUser

/-- The bytes of a client of this port. -/
def portCall {δ : Type} (data : δ) (buf : Bytes) : PortCall δ where
  now := 0
  relay := oneUserPort
  data := data
  buf := buf

/-- A header in the name of the user, signed with a key that is not the user's. -/
def wrongHeader : Header where
  nonce := [1, 2, 3, 4]
  uid := [9, 0, 0, 0]
  userKey := [0]
  plain := List.replicate 16 0
  length_nonce := forgedHeader.length_nonce
  length_uid := rfl
  length_plain := rfl

/-- A message of auth_aes128 in the name of the user, of which only the head is right. -/
def wrongMessage : Bytes :=
  let hmac := plainCrypto.hmac .sha1
  let macKey := forgedInfo.recvIv ++ forgedInfo.key
  let body := [9, 0, 0, 0] ++ List.replicate 16 0
  [1] ++ (hmac macKey [1]).take 6 ++ body ++ (hmac macKey body).take 4

/-- All three protocols attribute the connection to the user, and do not accept the handshake. -/
theorem attributes_wrong :
    ¬(AuthChain.userCalls plainCrypto).StaysAnonymous oneUserPort.config
      (AuthChain.new .a true forgedInfo .new fun _ => 0, .new oneUserPort.config 0)
      [portCall {} (wrongHeader.bytes plainCrypto (forgedInfo.recvIv ++ forgedInfo.key)
        (AuthChain.Method.salt .a))] ∧
    ¬(AuthAkarin.userCalls plainCrypto).StaysAnonymous oneUserPort.config
      (AuthAkarin.new true forgedInfo .new fun _ => 0, .new oneUserPort.config 0)
      [portCall {} (wrongHeader.bytes plainCrypto (forgedInfo.recvIv ++ forgedInfo.key)
        AuthAkarin.salt)] ∧
    ¬(AuthAes128.userCalls plainCrypto).StaysAnonymous oneUserPort.config
      (AuthAes128.new .sha1 true forgedInfo fun _ => 0, .new oneUserPort.config 0)
      [portCall {} wrongMessage] := by
  refine ⟨fun h => ?_, fun h => ?_, fun h => ?_⟩
  · have hcalls := (h.head _ rfl (by decide +kernel)).1
    exact absurd hcalls (by decide +kernel)
  · have hcalls := (h.head _ rfl (by decide +kernel)).1
    exact absurd hcalls (by decide +kernel)
  · have hcalls := (h.head _ rfl (by decide +kernel)).1
    exact absurd hcalls (by decide +kernel)

end ShadowsocksR

import ShadowsocksR.AuthUdp.Object
import Mathlib.Logic.Relation

/-!
# The round trip of datagrams

A client sends every datagram under the key of the server and a random user id,
whomever `protocol_param` names, because the user is looked up in the text in a
way that always raises. A server without users decrypts its datagrams and the
client the replies; a server with users does not know the random id.

* `UdpProtocol.RoundTrip`: a datagram and the replies to it come through;
* `udp_round_trip_iff`: when they do.
-/

namespace ShadowsocksR

/-! ## Calls -/

namespace UdpProtocol

variable {σ : Type} (P : UdpProtocol σ)

/-- The object of a client before and after a call. -/
def ClientStep (s s' : σ) : Prop :=
  ∃ buf, s' = (P.clientUdpPreEncrypt s buf).2 ∨ s' = (P.clientUdpPostDecrypt s buf).2

/-- The object of a server before and after a call. -/
def ServerStep (s s' : σ) : Prop :=
  ∃ users buf uid, s' = (P.serverUdpPreEncrypt users s buf uid).2 ∨
    s' = (P.serverUdpPostDecrypt users s buf).2

/-- An object of a client, after any number of calls. -/
def Client (info : ServerInfo) (s : σ) : Prop :=
  ∃ s₀, P.New info s₀ ∧ Relation.ReflTransGen P.ClientStep s₀ s

/-- An object of a server, after any number of calls. -/
def Server (info : ServerInfo) (s : σ) : Prop :=
  ∃ s₀, P.New info s₀ ∧ Relation.ReflTransGen P.ServerStep s₀ s

/-- The server gets the bytes of a datagram and the user that the client names, and the client the
    bytes of any reply for that user. -/
def RoundTrip (users : Dict Bytes Bytes) (info : ServerInfo) : Prop :=
  ∀ client, P.Client info client →
  ∀ serverInfo : ServerInfo, serverInfo.key = info.key →
  ∀ server, P.Server serverInfo server → ∀ payload, payload ≠ [] →
    ∃ data, (P.clientUdpPreEncrypt client payload).1 = .ok data ∧
      (P.serverUdpPostDecrypt users server data).1 =
        .ok (payload, AuthBase.paramUserId info.protocolParam) ∧
      ∀ client', Relation.ReflTransGen P.ClientStep (P.clientUdpPreEncrypt client payload).2 client' →
      ∀ server', P.Server serverInfo server' → ∀ reply, reply ≠ [] →
        (P.clientUdpPostDecrypt client' (P.serverUdpPreEncrypt users server' reply
          (AuthBase.paramUserId info.protocolParam)).1).1 = .ok (some reply)

variable {P}

/-- What a relation keeps along a step it keeps along all calls. -/
theorem steps_invariant {step : σ → σ → Prop} {I : σ → Prop} (hstep : ∀ s s', step s s' → I s → I s')
    {s s' : σ} (h : Relation.ReflTransGen step s s') (hs : I s) : I s' := by
  induction h with
  | refl => exact hs
  | tail _ hs' ih => exact hstep _ _ hs' ih

end UdpProtocol

/-! ## Users -/

/-- Nobody is taken from `protocol_param`. -/
theorem udpCredentials_eq (hash : Bytes → Bytes) (info : ServerInfo) (userId : Option Bytes)
    (rng : Rng) : udpCredentials hash info userId rng =
      (info.key, some (randBytes 4 rng).1, (randBytes 4 rng).2) := by
  rw [udpCredentials, udpNamedUser, splitAtText]
  split_ifs <;> rfl

/-- Without users, any id goes with the key of the server. -/
theorem udpLookupUser_of_size {users : Dict Bytes Bytes} (h : users.size = 0) (info : ServerInfo)
    (uid : Option Bytes) : udpLookupUser users info uid = (info.key, none) := by
  have hnone : uid.bind users.get? = none := by
    cases uid with
    | none => rfl
    | some uid => exact Dict.get?_of_size_eq_zero h uid
  rw [udpLookupUser, hnone]
  dsimp only
  rw [if_pos h]

/-- A datagram has the user with its id, or none. -/
theorem udpLookupUser_uid (users : Dict Bytes Bytes) (info : ServerInfo) (uid : Option Bytes) :
    (udpLookupUser users info uid).2 = none ∨ (udpLookupUser users info uid).2 = uid := by
  rw [udpLookupUser]
  cases uid.bind users.get? with
  | none => exact .inl rfl
  | some userKey => exact .inr rfl

/-- A client that names a user that the server knows names nobody when there are no users. -/
theorem paramUserId_of_size {users : Dict Bytes Bytes} {info : ServerInfo}
    (hreg : AuthBase.Registered users info) (h : users.size = 0) :
    AuthBase.paramUserId info.protocolParam = none := by
  rcases hreg with ⟨-, uid, -, hget⟩ | ⟨hmem, -⟩
  · rw [Dict.get?_of_size_eq_zero h] at hget
    cases hget
  · exact if_neg hmem

/-- Where there are users, the client names one of them. -/
theorem exists_paramUserId {users : Dict Bytes Bytes} {info : ServerInfo}
    (hreg : AuthBase.Registered users info) (h : users.size ≠ 0) :
    ∃ uid, AuthBase.paramUserId info.protocolParam = some uid ∧ uid.length = 4 := by
  rcases hreg with ⟨hmem, uid, hu, -⟩ | ⟨-, hsize⟩
  · exact ⟨uid, by rw [AuthBase.paramUserId, if_pos hmem, hu], AuthBase.length_paramUid hu⟩
  · exact absurd hsize h

/-- Random numbers that do not make a given user id. -/
theorem exists_rng_ne (uid : Bytes) : ∃ rng : Rng, (randBytes 4 rng).1 ≠ uid := by
  by_cases h : (randBytes 4 fun _ => 0).1 = uid
  · refine ⟨fun _ => 1, ?_⟩
    rw [← h]
    decide
  · exact ⟨_, h⟩

/-! ## The chained protocols -/

/-- The cipher of a class gets its bytes back under the key of a server. -/
structure UdpCipher.Inverts (U : UdpCipher) (C : Crypto) (macKey : Bytes) : Prop where
  encrypt_ne_nil : ∀ userKey md5data buf rng, buf ≠ [] →
    (U.encrypt C userKey md5data macKey buf rng).1 ≠ []
  decrypt_encrypt : ∀ userKey md5data buf rng rng', buf ≠ [] →
    (U.decrypt C userKey md5data macKey
      (U.encrypt C userKey md5data macKey buf rng).1 rng').1 = buf

namespace AuthBase

variable {C : Crypto} {U : UdpCipher} {info : ServerInfo} {s : AuthBase}

/-- A client of these datagrams: it has no user, or it sends under the key of the server. -/
structure UdpClient (info : ServerInfo) (s : AuthBase) : Prop where
  serverInfo_eq : s.serverInfo = info
  user : s.userKey = none ∨
    s.userKey = some info.key ∧ ∃ uid, s.userId = some uid ∧ uid.length = 4

/-- The client sends under the key of the server; a new client takes a random id. -/
theorem udpUser_eq (h : s.UdpClient info) : ∃ uid rng,
    s.udpUser C = (info.key, { s with userKey := some info.key, userId := some uid, rng }) ∧
    uid.length = 4 ∧ (s.userKey = none → uid = (randBytes 4 s.rng).1) := by
  obtain ⟨rfl, hkey⟩ := h
  rcases hkey with hkey | ⟨hkey, uid, huid, hlen⟩
  · refine ⟨(randBytes 4 s.rng).1, (randBytes 4 s.rng).2, ?_, length_randBytes _ _, fun _ => rfl⟩
    rw [udpUser, hkey]
    dsimp only
    rw [udpCredentials_eq]
  · refine ⟨uid, s.rng, ?_, hlen, fun h => by rw [hkey] at h; cases h⟩
    rw [udpUser, hkey]
    dsimp only
    rw [← hkey, ← huid]

/-- The bytes that are signed in a datagram of a client. -/
def upBody (C : Crypto) (key uid authdata out tail : Bytes) : Bytes :=
  out ++ tail ++ authdata ++
    packLE 4 (unpackLE uid ^^^ unpackLE ((C.hmac .md5 key authdata).take 4))

/-- The bytes with their signature. -/
def udpSigned (C : Crypto) (key body : Bytes) : Bytes := body ++ (C.hmac .md5 key body).take 1

theorem length_udpMac (C : Crypto) (key body : Bytes) :
    ((C.hmac .md5 key body).take 1).length = 1 := by
  rw [List.length_take, C.length_hmac]
  rfl

theorem length_tag (C : Crypto) (key body : Bytes) :
    ((C.hmac .md5 key body).take 4).length = 4 := by
  rw [List.length_take, C.length_hmac]
  rfl

/-- A client makes a datagram under the key of the server. -/
theorem clientUdpPreEncrypt_eq (h : s.UdpClient info) (buf : Bytes) :
    ∃ uid authdata tail rng s', clientUdpPreEncrypt C U s buf =
        (.ok (udpSigned C info.key (upBody C info.key uid authdata
          (U.encrypt C info.key (C.hmac .md5 info.key authdata) info.key buf rng).1 tail)),
          s') ∧
      uid.length = 4 ∧ (s.userKey = none → uid = (randBytes 4 s.rng).1) ∧ authdata.length = 3 ∧
      tail.length = (udpRndDataLen (C.hmac .md5 info.key authdata)).1 ∧
      s'.serverInfo = info ∧ s'.userKey = some info.key ∧ s'.userId = some uid := by
  obtain ⟨uid, rng, huser, hlen, hnew⟩ := udpUser_eq (C := C) h
  obtain ⟨rfl, -⟩ := h
  rw [clientUdpPreEncrypt, huser]
  dsimp only
  rw [if_neg (not_not.2 hlen)]
  exact ⟨uid, (randBytes 3 rng).1, _, (randBytes 3 rng).2, _, rfl, hlen, hnew, length_randBytes _ _,
    length_randBytes _ _, rfl, rfl, rfl⟩

/-- A server takes a datagram of a client apart. -/
theorem serverUdpPostDecrypt_eq {uid authdata tail : Bytes} (huid : uid.length = 4)
    (hauth : authdata.length = 3)
    (htail : tail.length = (udpRndDataLen (C.hmac .md5 s.serverInfo.key authdata)).1)
    (users : Dict Bytes Bytes) (out : Bytes) : ∃ userKey uid',
      udpLookupUser users s.serverInfo (some uid) = (userKey, uid') ∧
      (serverUdpPostDecrypt C U users s (udpSigned C s.serverInfo.key
        (upBody C s.serverInfo.key uid authdata out tail))).1 =
        .ok (if (C.hmac .md5 userKey (upBody C s.serverInfo.key uid authdata out tail)).take 1 ≠
            (C.hmac .md5 s.serverInfo.key (upBody C s.serverInfo.key uid authdata out tail)).take 1
          then ([], none)
          else ((U.decrypt C userKey (C.hmac .md5 s.serverInfo.key authdata) s.serverInfo.key
            out s.rng).1, uid')) := by
  obtain ⟨body, hbody⟩ :
      ∃ body, upBody C s.serverInfo.key uid authdata out tail = body := ⟨_, rfl⟩
  obtain ⟨mask, hmask⟩ :
      ∃ mask, (C.hmac .md5 s.serverInfo.key authdata).take 4 = mask := ⟨_, rfl⟩
  have hmac := length_udpMac C s.serverInfo.key body
  have hauthdata : slice (-8) (-5) (udpSigned C s.serverInfo.key body) = authdata := by
    rw [udpSigned, ← hbody, upBody, List.append_assoc]
    exact slice_neg (i := 8) (j := 5) (by norm_num)
      (by rw [List.length_append, length_packLE, ← upBody, hbody, hmac, hauth])
      (by rw [List.length_append, length_packLE, ← upBody, hbody, hmac])
  have hmasked : slice (-5) (-1) (udpSigned C s.serverInfo.key body) =
      packLE 4 (unpackLE uid ^^^ unpackLE mask) := by
    rw [udpSigned, ← hbody, upBody, hmask]
    exact slice_neg (i := 5) (j := 1) (by norm_num)
      (by rw [length_packLE, ← hmask, ← upBody, hbody, hmac]) (length_udpMac _ _ _)
  have hunmask : packLE 4 (unpackLE (packLE 4 (unpackLE uid ^^^ unpackLE mask)) ^^^ unpackLE mask) =
      uid := unmask huid (by rw [← hmask, length_tag])
  have htake : takeTo (-1) (udpSigned C s.serverInfo.key body) = body :=
    takeTo_neg (i := 1) (by norm_num) hmac
  have hdrop : dropTo (-1) (udpSigned C s.serverInfo.key body) =
      (C.hmac .md5 s.serverInfo.key body).take 1 := dropTo_neg (i := 1) (by norm_num) hmac
  have hout : takeTo (-8 - ((udpRndDataLen (C.hmac .md5 s.serverInfo.key authdata)).1 : ℕ))
      (udpSigned C s.serverInfo.key body) = out := by
    rw [udpSigned, ← hbody, upBody, List.append_assoc, List.append_assoc, List.append_assoc]
    refine takeTo_neg_sub (i := 8) (by norm_num) ?_
    simp only [List.length_append, length_packLE, length_udpMac, hauth, htail]
    omega
  obtain ⟨⟨userKey, uid'⟩, hlook⟩ : ∃ r, udpLookupUser users s.serverInfo (some uid) = r := ⟨_, rfl⟩
  refine ⟨userKey, uid', hlook, ?_⟩
  rw [serverUdpPostDecrypt, hbody]
  dsimp only
  rw [hauthdata, hmasked, if_neg (not_not.2 (length_packLE _ _)), hmask, hunmask, hlook]
  dsimp only
  rw [htake, hdrop]
  split_ifs with h
  · rfl
  · rw [← hout]

/-- The bytes that are signed in a reply of a server. -/
def downBody (authdata out tail : Bytes) : Bytes := out ++ tail ++ authdata

/-- A server makes a reply under the key of the user. -/
theorem serverUdpPreEncrypt_eq (users : Dict Bytes Bytes) (s : AuthBase) (buf : Bytes)
    (uid : Option Bytes) : ∃ authdata tail rng,
      (serverUdpPreEncrypt C U users s buf uid).1 =
        udpSigned C (udpLookupUser users s.serverInfo uid).1 (downBody authdata
          (U.encrypt C (udpLookupUser users s.serverInfo uid).1
            (C.hmac .md5 s.serverInfo.key authdata) s.serverInfo.key buf rng).1 tail) ∧
      authdata.length = 7 ∧
      tail.length = (udpRndDataLen (C.hmac .md5 s.serverInfo.key authdata)).1 :=
  ⟨(randBytes 7 s.rng).1, _, (randBytes 7 s.rng).2, rfl, length_randBytes _ _, length_randBytes _ _⟩

/-- A client takes a reply apart that is signed with its key. -/
theorem clientUdpPostDecrypt_eq {key authdata out tail : Bytes} (hkey : s.userKey = some key)
    (hout : out ≠ []) (hauth : authdata.length = 7)
    (htail : tail.length = (udpRndDataLen (C.hmac .md5 s.serverInfo.key authdata)).1) :
    (clientUdpPostDecrypt C U s (udpSigned C key (downBody authdata out tail))).1 =
      .ok (some (U.decrypt C key (C.hmac .md5 s.serverInfo.key authdata) s.serverInfo.key
        out s.rng).1) := by
  obtain ⟨body, hbody⟩ : ∃ body, downBody authdata out tail = body := ⟨_, rfl⟩
  have hmac := length_udpMac C key body
  have hpos : 0 < out.length := List.length_pos_iff.2 hout
  have hlen : ¬(udpSigned C key body).length ≤ 8 := by
    rw [udpSigned, List.length_append, hmac, ← hbody, downBody, List.length_append,
      List.length_append, hauth]
    omega
  have hauthdata : slice (-8) (-1) (udpSigned C key body) = authdata := by
    rw [udpSigned, ← hbody, downBody]
    exact slice_neg (i := 8) (j := 1) (by norm_num) (by rw [hauth, length_udpMac])
      (length_udpMac _ _ _)
  have htake : takeTo (-1) (udpSigned C key body) = body := takeTo_neg (i := 1) (by norm_num) hmac
  have hdrop : dropTo (-1) (udpSigned C key body) = (C.hmac .md5 key body).take 1 :=
    dropTo_neg (i := 1) (by norm_num) hmac
  have hout : takeTo (-8 - ((udpRndDataLen (C.hmac .md5 s.serverInfo.key authdata)).1 : ℕ))
      (udpSigned C key body) = out := by
    rw [udpSigned, ← hbody, downBody, List.append_assoc, List.append_assoc]
    refine takeTo_neg_sub (i := 8) (by norm_num) ?_
    simp only [List.length_append, length_udpMac, hauth, htail]
    omega
  rw [clientUdpPostDecrypt, hbody, if_neg hlen, hkey]
  dsimp only
  rw [htake, hdrop, if_neg (not_not.2 rfl), hauthdata, hout]

/-! ## Any number of calls -/

/-- The UDP functions of a class with this cipher. -/
def udpProtocol (C : Crypto) (U : UdpCipher) (New : ServerInfo → AuthBase → Prop) :
    UdpProtocol AuthBase where
  New := New
  clientUdpPreEncrypt := clientUdpPreEncrypt C U
  clientUdpPostDecrypt := clientUdpPostDecrypt C U
  serverUdpPreEncrypt := serverUdpPreEncrypt C U
  serverUdpPostDecrypt := serverUdpPostDecrypt C U

/-- Receiving keeps the user of a client. -/
theorem clientUdpPostDecrypt_keeps (s : AuthBase) (buf : Bytes) :
    (clientUdpPostDecrypt C U s buf).2.serverInfo = s.serverInfo ∧
      (clientUdpPostDecrypt C U s buf).2.userKey = s.userKey ∧
      (clientUdpPostDecrypt C U s buf).2.userId = s.userId := by
  rw [clientUdpPostDecrypt]
  split_ifs
  · exact ⟨rfl, rfl, rfl⟩
  · cases hkey : s.userKey with
    | none => exact ⟨rfl, hkey, rfl⟩
    | some userKey =>
      dsimp only
      split_ifs
      · exact ⟨rfl, hkey, rfl⟩
      · exact ⟨rfl, rfl, rfl⟩

theorem serverUdpPostDecrypt_serverInfo (users : Dict Bytes Bytes) (s : AuthBase) (buf : Bytes) :
    (serverUdpPostDecrypt C U users s buf).2.serverInfo = s.serverInfo := by
  rw [serverUdpPostDecrypt]
  dsimp only
  split_ifs <;> rfl

variable {New : ServerInfo → AuthBase → Prop}

/-- The calls of a client keep it one. -/
theorem UdpClient.step {s' : AuthBase} (hs : s.UdpClient info)
    (h : (udpProtocol C U New).ClientStep s s') :
    s'.UdpClient info ∧ (s.userKey = some info.key → s'.userKey = some info.key) := by
  obtain ⟨buf, rfl | rfl⟩ := h
  · obtain ⟨uid, _, _, _, s', heq, hlen, -, -, -, hinfo, hkey, huid⟩ :=
      clientUdpPreEncrypt_eq (C := C) (U := U) hs buf
    have heq' : ((udpProtocol C U New).clientUdpPreEncrypt s buf).2 = s' := congrArg Prod.snd heq
    rw [heq']
    exact ⟨⟨hinfo, .inr ⟨hkey, uid, huid, hlen⟩⟩, fun _ => hkey⟩
  · obtain ⟨hinfo, hkey, huid⟩ := clientUdpPostDecrypt_keeps (C := C) (U := U) s buf
    refine ⟨⟨hinfo.trans hs.serverInfo_eq, ?_⟩, fun h => hkey.trans h⟩
    rcases hs.user with h | ⟨h, uid, hu, hlen⟩
    · exact .inl (hkey.trans h)
    · exact .inr ⟨hkey.trans h, uid, huid.trans hu, hlen⟩

theorem udpClient_of_client (hnew : ∀ s, New info s → s.serverInfo = info ∧ s.userKey = none)
    (h : (udpProtocol C U New).Client info s) : s.UdpClient info := by
  obtain ⟨s₀, hs₀, hsteps⟩ := h
  obtain ⟨hinfo, hkey⟩ := hnew s₀ hs₀
  exact UdpProtocol.steps_invariant (I := UdpClient info) (fun _ _ hstep hs => (hs.step hstep).1)
    hsteps ⟨hinfo, .inl hkey⟩

theorem serverInfo_of_server (hnew : ∀ s, New info s → s.serverInfo = info ∧ s.userKey = none)
    (h : (udpProtocol C U New).Server info s) : s.serverInfo = info := by
  obtain ⟨s₀, hs₀, hsteps⟩ := h
  refine UdpProtocol.steps_invariant (I := fun s => s.serverInfo = info) ?_ hsteps (hnew s₀ hs₀).1
  rintro s s' ⟨users, buf, uid, rfl | rfl⟩ hs
  · exact hs
  · exact (serverUdpPostDecrypt_serverInfo users s buf).trans hs

/-! ## When datagrams come through -/

/-- What a server makes of a datagram of a client: without users, it decrypts it under its own key;
    with users, it is of nobody or of the user with the random id. -/
theorem serverUdpPostDecrypt_clientUdpPreEncrypt (hs : s.UdpClient info) (users : Dict Bytes Bytes)
    {server : AuthBase} (hserver : server.serverInfo.key = info.key) (payload : Bytes) :
    ∃ data uid md5data rng r, (clientUdpPreEncrypt C U s payload).1 = .ok data ∧
      (s.userKey = none → uid = (randBytes 4 s.rng).1) ∧
      (serverUdpPostDecrypt C U users server data).1 = .ok r ∧
      (r.2 = none ∨ r.2 = some uid) ∧
      (users.size = 0 → r = ((U.decrypt C info.key md5data info.key
        (U.encrypt C info.key md5data info.key payload rng).1 server.rng).1, none)) := by
  obtain ⟨uid, authdata, tail, rng, s', heq, hlen, hnew, hauth, htail, -⟩ :=
    clientUdpPreEncrypt_eq (C := C) (U := U) hs payload
  rw [← hserver] at htail
  obtain ⟨userKey, uid', hlook, hpost⟩ := serverUdpPostDecrypt_eq (U := U)
    hlen hauth htail users
    (U.encrypt C info.key (C.hmac .md5 info.key authdata) info.key payload rng).1
  rw [hserver] at hpost
  refine ⟨_, uid, C.hmac .md5 info.key authdata, rng, _, congrArg Prod.fst heq, hnew,
    hpost, ?_, ?_⟩
  · split_ifs
    · exact .inl rfl
    · have := udpLookupUser_uid users server.serverInfo (some uid)
      rw [hlook] at this
      exact this
  · intro hsize
    rw [udpLookupUser_of_size hsize, hserver] at hlook
    cases hlook
    exact if_neg (not_not.2 rfl)

variable {users : Dict Bytes Bytes}

/-- Datagrams come through where there are no users and the cipher gets its bytes back. -/
theorem udp_round_trip (hnew : ∀ info s, New info s → s.serverInfo = info ∧ s.userKey = none)
    (hreg : Registered users info) (hsize : users.size = 0) (hinv : U.Inverts C info.key) :
    (udpProtocol C U New).RoundTrip users info := by
  intro client hclient serverInfo hkey server hserver payload hpayload
  have hs := udpClient_of_client (hnew info) hclient
  have hinfo := serverInfo_of_server (hnew serverInfo) hserver
  obtain ⟨data, uid, md5data, rng, r, hdata, -, hpost, -, hr⟩ :=
    serverUdpPostDecrypt_clientUdpPreEncrypt (C := C) (U := U) hs users
      (hinfo ▸ hkey) payload
  rw [hr hsize, hinv.decrypt_encrypt _ _ _ _ _ hpayload] at hpost
  rw [paramUserId_of_size hreg hsize]
  refine ⟨data, hdata, hpost, ?_⟩
  intro client' hcalls server' hserver' reply hreply
  -- The client sends under the key of the server from its first datagram on.
  have hsent : (clientUdpPreEncrypt C U client payload).2.UdpClient info ∧
      (clientUdpPreEncrypt C U client payload).2.userKey = some info.key := by
    obtain ⟨uid, _, _, _, s', heq, hlen, -, -, -, hinfo', hkey', huid⟩ :=
      clientUdpPreEncrypt_eq (C := C) (U := U) hs payload
    rw [heq]
    exact ⟨⟨hinfo', .inr ⟨hkey', uid, huid, hlen⟩⟩, hkey'⟩
  obtain ⟨hclient', hkey'⟩ := UdpProtocol.steps_invariant
    (I := fun s : AuthBase => s.UdpClient info ∧ s.userKey = some info.key)
    (fun s s' hstep hs => ⟨(hs.1.step hstep).1, (hs.1.step hstep).2 hs.2⟩) hcalls hsent
  have hinfo' := serverInfo_of_server (hnew serverInfo) hserver'
  obtain ⟨authdata, tail, rng, hpre, hauth, htail⟩ :=
    serverUdpPreEncrypt_eq (C := C) (U := U) users server' reply none
  rw [udpLookupUser_of_size hsize, hinfo', hkey] at hpre
  rw [hinfo', hkey, ← hclient'.serverInfo_eq] at htail
  have hdown := clientUdpPostDecrypt_eq (C := C) (U := U) hkey'
    (hinv.encrypt_ne_nil info.key (C.hmac .md5 info.key authdata) reply rng hreply) hauth htail
  rw [hclient'.serverInfo_eq, hinv.decrypt_encrypt _ _ _ _ _ hreply] at hdown
  exact (congrArg (fun b => (clientUdpPostDecrypt C U client' b).1) hpre).trans hdown

/-- Datagrams come through only where there are no users and the cipher gets the bytes back. -/
theorem of_udp_round_trip (hnew : ∀ info s, New info s → s.serverInfo = info ∧ s.userKey = none)
    (hex : ∀ info rng, ∃ s, New info s ∧ s.rng = rng) (hreg : Registered users info)
    (h : (udpProtocol C U New).RoundTrip users info) : users.size = 0 ∧
      ∀ payload, payload ≠ [] → ∃ md5data rng rng', (U.decrypt C info.key md5data info.key
        (U.encrypt C info.key md5data info.key payload rng).1 rng').1 = payload := by
  have hreceived : ∀ s, New info s → ∀ payload, payload ≠ [] → ∃ uid md5data rng rng' uid',
      uid = (randBytes 4 s.rng).1 ∧ (uid' = none ∨ uid' = some uid) ∧
      uid' = paramUserId info.protocolParam ∧
      (users.size = 0 → (U.decrypt C info.key md5data info.key
        (U.encrypt C info.key md5data info.key payload rng).1 rng').1 = payload) := by
    intro s hs payload hpayload
    obtain ⟨hinfo, hkey⟩ := hnew info s hs
    have hclient : (udpProtocol C U New).Client info s := ⟨s, hs, .refl⟩
    have hserver : (udpProtocol C U New).Server info s := ⟨s, hs, .refl⟩
    obtain ⟨data, hdata, hpost, -⟩ := h s hclient info rfl s hserver payload hpayload
    obtain ⟨data', uid, md5data, rng, r, hdata', huid, hpost', hor, hr⟩ :=
      serverUdpPostDecrypt_clientUdpPreEncrypt (C := C) (U := U) ⟨hinfo, .inl hkey⟩
        users (by rw [hinfo]) payload
    obtain rfl : data = data' := by
      have hdata : (clientUdpPreEncrypt C U s payload).1 = .ok data := hdata
      rw [hdata'] at hdata
      cases hdata
      rfl
    have hpost : (serverUdpPostDecrypt C U users s data).1 =
        .ok (payload, paramUserId info.protocolParam) := hpost
    rw [hpost'] at hpost
    obtain rfl := Except.ok.inj hpost
    exact ⟨uid, md5data, rng, s.rng, _, huid hkey, hor, rfl,
      fun hsize => (congrArg Prod.fst (hr hsize)).symm⟩
  have hsize : users.size = 0 := by
    by_contra hsize
    obtain ⟨named, hnamed, -⟩ := exists_paramUserId hreg hsize
    obtain ⟨rng, hrng⟩ := exists_rng_ne named
    obtain ⟨s, hs, rfl⟩ := hex info rng
    -- The server gets the random id, or none, but the client names another one.
    obtain ⟨uid, -, -, -, uid', rfl, hor, huid', -⟩ := hreceived s hs [0] (by decide)
    rw [hnamed] at huid'
    rcases hor with hor | hor
    · rw [huid'] at hor
      cases hor
    · rw [huid'] at hor
      cases hor
      exact hrng rfl
  refine ⟨hsize, ?_⟩
  intro payload hpayload
  obtain ⟨s, hs, -⟩ := hex info fun _ => 0
  obtain ⟨uid, md5data, rng, rng', uid', -, -, -, hr⟩ := hreceived s hs payload hpayload
  exact ⟨md5data, rng, rng', hr hsize⟩

end AuthBase

/-! ## The ciphers of the classes -/

section Ciphers

open Encryptor

variable {C : Crypto}

/-- The encryptor of a datagram of auth_chain gets the bytes back. -/
theorem AuthChain.udpCipher_inverts (C : Crypto) (macKey : Bytes) :
    AuthChain.udpCipher.Inverts C macKey where
  encrypt_ne_nil userKey md5data buf rng hbuf := by
    obtain ⟨e', henc, -⟩ := (stream_new (C := C) (udpPassword userKey md5data) rng).encrypt buf
    show ((Encryptor.new C (udpPassword userKey md5data) .rc4 none rng).1.encrypt C buf).1 ≠ []
    rw [henc]
    exact List.ne_nil_of_length_pos (by rw [length_stream]; exact List.length_pos_iff.2 hbuf)
  decrypt_encrypt userKey md5data buf rng rng' _ := by
    obtain ⟨e₁, henc, -⟩ := (stream_new (C := C) (udpPassword userKey md5data) rng).encrypt buf
    obtain ⟨e₂, hdec, -⟩ :=
      (stream_new (C := C) (udpPassword userKey md5data) rng').decrypt_encrypt buf
    show ((Encryptor.new C (udpPassword userKey md5data) .rc4 none rng').1.decrypt C
      ((Encryptor.new C (udpPassword userKey md5data) .rc4 none rng).1.encrypt C buf).1).1 = buf
    rw [henc, hdec]

/-- What the encryptor of a datagram of auth_akarin puts out: it is made with the beginning of the
    key, when there are enough bytes in it. -/
theorem AuthAkarin.udpCipher_encrypt (userKey md5data macKey : Bytes) {buf : Bytes} (rng : Rng)
    (hbuf : buf ≠ []) : ∃ iv, (8 ≤ macKey.length → iv = macKey.take 8) ∧
      (AuthAkarin.udpCipher.encrypt C userKey md5data macKey buf rng).1 =
        C.cipher .chacha20 (evpBytesToKey C (udpPassword userKey md5data) 32 8) iv .encrypt buf := by
  have hlen : ¬buf.length = 0 := fun h => hbuf (List.length_eq_zero_iff.1 h)
  have henc : ∀ e : Encryptor, e.cipher.given = [] →
      ((e.encrypt C []).2.encrypt C buf).1 = C.cipher e.cipher.method e.cipher.key e.cipher.iv
        e.cipher.op buf := by
    intro e he
    have hsent : (e.encrypt C []).2.ivSent = true ∧ (e.encrypt C []).2.cipher = e.cipher := by
      rw [Encryptor.encrypt, if_pos List.length_nil]
      split_ifs with h
      · exact ⟨h, rfl⟩
      · exact ⟨rfl, rfl⟩
    rw [Encryptor.encrypt, if_neg hlen]
    dsimp only
    rw [if_pos hsent.1, hsent.2, Cipher.update, Cipher.output, Cipher.output, he, C.cipher_nil]
    rfl
  refine ⟨_, fun h => ?_, henc (Encryptor.new C (udpPassword userKey md5data) .chacha20
    (some (macKey.take 8)) rng).1 rfl⟩
  have htake : (macKey.take 8).length = CipherMethod.chacha20.ivLen := by
    rw [List.length_take, min_eq_left h]
    rfl
  rw [Encryptor.new]
  dsimp only
  rw [if_neg (not_not.2 htake)]
  exact List.take_of_length_le htake.le

/-- What a new encryptor makes of the beginning of the key and the bytes after it. -/
theorem AuthAkarin.udpCipher_decrypt (userKey md5data : Bytes) {macKey : Bytes} {buf : Bytes}
    (rng : Rng) (hbuf : buf ≠ []) : (AuthAkarin.udpCipher.decrypt C userKey md5data macKey buf rng).1 =
      if 8 < (macKey.take 8 ++ buf).length then
        C.cipher .chacha20 (evpBytesToKey C (udpPassword userKey md5data) 32 8)
          ((macKey.take 8 ++ buf).take 8) .decrypt ((macKey.take 8 ++ buf).drop 8)
      else [] := by
  have hlen : ¬buf.length = 0 := fun h => hbuf (List.length_eq_zero_iff.1 h)
  obtain ⟨e, he⟩ : ∃ e, (Encryptor.new C (udpPassword userKey md5data) .chacha20 none rng).1 = e :=
    ⟨_, rfl⟩
  have hnew : e.decipher = none ∧ e.ivBuf = [] ∧ e.key = udpPassword userKey md5data ∧
      e.method = .chacha20 := by
    rw [← he]
    exact ⟨rfl, rfl, rfl, rfl⟩
  obtain ⟨hdec, hiv, hkey, hmethod⟩ := hnew
  have htake : (macKey.take 8).length ≤ CipherMethod.chacha20.ivLen := List.length_take_le _ _
  have hzero : ([] : Bytes).length ≤ CipherMethod.chacha20.ivLen := Nat.zero_le _
  -- The bytes of the key wait for more.
  have hwait : (e.decrypt C (macKey.take 8)).2 = { e with ivBuf := macKey.take 8 } := by
    rw [Encryptor.decrypt]
    by_cases hnil : (macKey.take 8).length = 0
    · rw [if_pos hnil, List.length_eq_zero_iff.1 hnil, ← hiv]
    · rw [if_neg hnil, hdec, hiv, hmethod]
      dsimp only
      rw [if_pos hzero, List.nil_append, if_neg (by omega)]
  show ((((Encryptor.new C (udpPassword userKey md5data) .chacha20 none rng).1.decrypt C
    (macKey.take 8)).2).decrypt C buf).1 = _
  rw [he, hwait, Encryptor.decrypt, if_neg hlen]
  dsimp only
  rw [hdec, hmethod, hkey]
  dsimp only
  rw [if_pos htake]
  by_cases hfull : 8 < (macKey.take 8 ++ buf).length
  · have hfull' : (macKey.take 8 ++ buf).length > CipherMethod.chacha20.ivLen := hfull
    rw [if_pos hfull, if_pos hfull', Cipher.update, Cipher.output, Cipher.output]
    dsimp only
    rw [show (Encryptor.getCipher C (udpPassword userKey md5data) .chacha20 .decrypt
      ((macKey.take 8 ++ buf).take CipherMethod.chacha20.ivLen)).given = [] from rfl, C.cipher_nil]
    exact congrArg (fun iv => C.cipher .chacha20
      (evpBytesToKey C (udpPassword userKey md5data) 32 8) iv .decrypt
      ((macKey.take 8 ++ buf).drop 8)) (List.take_of_length_le (List.length_take_le _ _))
  · have hfull' : ¬(macKey.take 8 ++ buf).length > CipherMethod.chacha20.ivLen := hfull
    rw [if_neg hfull, if_neg hfull']

/-- The encryptor of a datagram of auth_akarin gets the bytes back when the key has 8 bytes. -/
theorem AuthAkarin.udpCipher_inverts (C : Crypto) {macKey : Bytes} (h : 8 ≤ macKey.length) :
    AuthAkarin.udpCipher.Inverts C macKey := by
  have hlen : ∀ key iv buf, (C.cipher .chacha20 key iv .encrypt buf).length = buf.length :=
    fun key iv buf => C.length_stream (m := .chacha20) (by decide) key iv .encrypt buf
  have hne : ∀ key iv buf, buf ≠ [] → C.cipher .chacha20 key iv .encrypt buf ≠ [] := by
    intro key iv buf hbuf
    exact List.ne_nil_of_length_pos (by rw [hlen]; exact List.length_pos_iff.2 hbuf)
  refine ⟨?_, ?_⟩
  · intro userKey md5data buf rng hbuf
    obtain ⟨iv, -, henc⟩ := AuthAkarin.udpCipher_encrypt (C := C) userKey md5data macKey rng hbuf
    rw [henc]
    exact hne _ _ _ hbuf
  · intro userKey md5data buf rng rng' hbuf
    obtain ⟨iv, hiv, henc⟩ := AuthAkarin.udpCipher_encrypt (C := C) userKey md5data macKey rng hbuf
    obtain rfl := hiv h
    have htake : (macKey.take 8).length = 8 := by rw [List.length_take, min_eq_left h]
    have hpos : 0 < buf.length := List.length_pos_iff.2 hbuf
    rw [henc, AuthAkarin.udpCipher_decrypt userKey md5data rng' (hne _ _ _ hbuf),
      if_pos (by rw [List.length_append, htake, hlen]; omega), List.take_left' htake,
      List.drop_left' htake]
    exact C.stream_inverse (m := .chacha20) (by decide) _ _ buf

/-- With a shorter key, a byte is lost. -/
theorem AuthAkarin.udpCipher_singleton (C : Crypto) {macKey : Bytes} (h : macKey.length < 8)
    (userKey md5data : Bytes) (b : UInt8) (rng rng' : Rng) :
    (AuthAkarin.udpCipher.decrypt C userKey md5data macKey
      (AuthAkarin.udpCipher.encrypt C userKey md5data macKey [b] rng).1 rng').1 = [] := by
  obtain ⟨iv, -, henc⟩ :=
    AuthAkarin.udpCipher_encrypt (C := C) userKey md5data macKey rng (List.cons_ne_nil b [])
  have hlen : (AuthAkarin.udpCipher.encrypt C userKey md5data macKey [b] rng).1.length = 1 := by
    rw [henc]
    exact C.length_stream (m := .chacha20) (by decide) _ _ .encrypt [b]
  rw [AuthAkarin.udpCipher_decrypt userKey md5data rng'
    (List.ne_nil_of_length_pos (by rw [hlen]; decide)), if_neg]
  rw [List.length_append, hlen, List.length_take]
  omega

end Ciphers

/-! ## auth_aes128 -/

namespace AuthAes128

variable {C : Crypto} {hashfunc : HashFunc} {info : ServerInfo} {s : AuthAes128}
  {users : Dict Bytes Bytes}

/-- A client of these datagrams: it has no user, or it sends under the key of the server. -/
structure UdpClient (hashfunc : HashFunc) (info : ServerInfo) (s : AuthAes128) : Prop where
  hashfunc_eq : s.hashfunc = hashfunc
  serverInfo_eq : s.serverInfo = info
  user : s.userKey = none ∨
    s.userKey = some info.key ∧ ∃ uid, s.userId = some uid ∧ uid.length = 4

/-- The bytes with their signature. -/
def udpSigned (C : Crypto) (hashfunc : HashFunc) (key body : Bytes) : Bytes :=
  body ++ (C.hmac hashfunc key body).take 4

theorem length_udpMac (C : Crypto) (hashfunc : HashFunc) (key body : Bytes) :
    ((C.hmac hashfunc key body).take 4).length = 4 := by
  rw [List.length_take, C.length_hmac]
  cases hashfunc <;> rfl

/-- A client makes a datagram under the key of the server; a new client takes a random id. -/
theorem clientUdpPreEncrypt_eq (h : s.UdpClient hashfunc info) (buf : Bytes) :
    ∃ uid s', s.clientUdpPreEncrypt C buf =
        (.ok (udpSigned C hashfunc info.key (buf ++ uid)), s') ∧
      uid.length = 4 ∧ (s.userKey = none → uid = (randBytes 4 s.rng).1) ∧
      s'.UdpClient hashfunc info := by
  obtain ⟨rfl, rfl, hkey⟩ := h
  rcases hkey with hkey | ⟨hkey, uid, huid, hlen⟩
  · rw [clientUdpPreEncrypt, udpUser, hkey]
    dsimp only
    rw [udpCredentials_eq]
    exact ⟨_, _, rfl, length_randBytes _ _, fun _ => rfl,
      ⟨rfl, rfl, .inr ⟨rfl, _, rfl, length_randBytes _ _⟩⟩⟩
  · rw [clientUdpPreEncrypt, udpUser, hkey]
    dsimp only
    rw [huid]
    exact ⟨uid, s, rfl, hlen, (fun h => nomatch h),
      ⟨rfl, rfl, .inr ⟨hkey, uid, huid, hlen⟩⟩⟩

/-- A server takes a datagram of a client apart. -/
theorem serverUdpPostDecrypt_eq {uid : Bytes} (huid : uid.length = 4) (key buf : Bytes)
    (users : Dict Bytes Bytes) :
    s.serverUdpPostDecrypt C users (udpSigned C s.hashfunc key (buf ++ uid)) =
      if (C.hmac s.hashfunc (s.udpLookupUser C users uid).1 (buf ++ uid)).take 4 ≠
        (C.hmac s.hashfunc key (buf ++ uid)).take 4 then ([], none)
      else (buf, (s.udpLookupUser C users uid).2) := by
  have hmac := length_udpMac C s.hashfunc key (buf ++ uid)
  have hslice : slice (-8) (-4) (udpSigned C s.hashfunc key (buf ++ uid)) = uid :=
    slice_neg (i := 8) (j := 4) (by norm_num) (by rw [huid, hmac]) hmac
  have htake : takeTo (-4) (udpSigned C s.hashfunc key (buf ++ uid)) = buf ++ uid :=
    takeTo_neg (i := 4) (by norm_num) hmac
  have hdrop : dropTo (-4) (udpSigned C s.hashfunc key (buf ++ uid)) =
      (C.hmac s.hashfunc key (buf ++ uid)).take 4 := dropTo_neg (i := 4) (by norm_num) hmac
  have hbuf : takeTo (-8) (udpSigned C s.hashfunc key (buf ++ uid)) = buf := by
    rw [udpSigned, List.append_assoc]
    exact takeTo_neg (i := 8) (by norm_num) (by rw [List.length_append, huid, hmac])
  rw [serverUdpPostDecrypt, hslice]
  dsimp only
  rw [htake, hdrop, hbuf]

theorem udpLookupUser_of_size (h : users.size = 0) (s : AuthAes128) (uid : Bytes) :
    s.udpLookupUser C users uid = (s.serverInfo.key, none) := by
  rw [udpLookupUser, Dict.get?_of_size_eq_zero h]
  dsimp only
  rw [if_pos h]

theorem udpLookupUser_uid (users : Dict Bytes Bytes) (s : AuthAes128) (uid : Bytes) :
    (s.udpLookupUser C users uid).2 = none ∨ (s.udpLookupUser C users uid).2 = some uid := by
  rw [udpLookupUser]
  cases users.get? uid with
  | none => exact .inl rfl
  | some password => exact .inr rfl

/-- The client gets a reply back. -/
theorem clientUdpPostDecrypt_serverUdpPreEncrypt {server : AuthAes128}
    (hhash : server.hashfunc = s.hashfunc) (hkey : server.serverInfo.key = s.serverInfo.key)
    (reply : Bytes) : s.clientUdpPostDecrypt C (server.serverUdpPreEncrypt C reply) = reply := by
  have hmac := length_udpMac C s.hashfunc s.serverInfo.key reply
  have htake : takeTo (-4) (udpSigned C s.hashfunc s.serverInfo.key reply) = reply :=
    takeTo_neg (i := 4) (by norm_num) hmac
  have hdrop : dropTo (-4) (udpSigned C s.hashfunc s.serverInfo.key reply) =
      (C.hmac s.hashfunc s.serverInfo.key reply).take 4 := dropTo_neg (i := 4) (by norm_num) hmac
  rw [serverUdpPreEncrypt, hhash, hkey, ← udpSigned, clientUdpPostDecrypt, htake, hdrop,
    if_neg (not_not.2 rfl)]

theorem udpClient_of_client (h : (udpProtocol C hashfunc).Client info s) :
    s.UdpClient hashfunc info := by
  obtain ⟨s₀, ⟨noCompatible, rng, rfl⟩, hsteps⟩ := h
  refine UdpProtocol.steps_invariant (I := UdpClient hashfunc info) ?_ hsteps
    ⟨rfl, rfl, .inl rfl⟩
  rintro s s' ⟨buf, rfl | rfl⟩ hs
  · obtain ⟨uid, s', heq, -, -, hs'⟩ := clientUdpPreEncrypt_eq (C := C) hs buf
    exact (congrArg Prod.snd heq : (s.clientUdpPreEncrypt C buf).2 = s') ▸ hs'
  · exact hs

/-- The calls of a server change nothing. -/
theorem server_eq (h : (udpProtocol C hashfunc).Server info s) :
    s.hashfunc = hashfunc ∧ s.serverInfo = info := by
  obtain ⟨s₀, ⟨noCompatible, rng, rfl⟩, hsteps⟩ := h
  refine UdpProtocol.steps_invariant (I := fun s => s.hashfunc = hashfunc ∧ s.serverInfo = info) ?_
    hsteps ⟨rfl, rfl⟩
  rintro s s' ⟨users, buf, uid, rfl | rfl⟩ hs
  · exact hs
  · exact hs

/-- Datagrams come through exactly where there are no users. -/
theorem roundTrip_iff (hreg : AuthBase.Registered users info) :
    (udpProtocol C hashfunc).RoundTrip users info ↔ users.size = 0 := by
  constructor
  · intro h
    by_contra hsize
    obtain ⟨named, hnamed, -⟩ := exists_paramUserId hreg hsize
    obtain ⟨rng, hrng⟩ := exists_rng_ne named
    -- The server gets the random id, or none, but the client names another one.
    obtain ⟨s, hs⟩ : ∃ s, AuthAes128.new hashfunc true info (fun i => rng (i - 2)) = s := ⟨_, rfl⟩
    have hnew : (udpProtocol C hashfunc).New info s := ⟨true, _, hs.symm⟩
    obtain ⟨data, hdata, hpost, -⟩ := h s ⟨s, hnew, .refl⟩ info rfl s ⟨s, hnew, .refl⟩ [0] (by simp)
    have hclient := udpClient_of_client (C := C) ⟨s, hnew, .refl⟩
    obtain ⟨uid, s', hpre, hlen, huid, -⟩ := clientUdpPreEncrypt_eq (C := C) hclient [0]
    have hdata : (s.clientUdpPreEncrypt C [0]).1 = .ok data := hdata
    rw [hpre] at hdata
    cases hdata
    have hpost := Except.ok.inj hpost
    rw [hnamed, ← hclient.hashfunc_eq] at hpost
    have hrandom : uid ≠ named := by
      -- The object has drawn two bytes before.
      have hs' : s.rng = rng := by
        rw [← hs]
        funext i
        exact congrArg rng (Nat.add_sub_cancel_left 2 i)
      rw [huid (by rw [← hs]; rfl), hs']
      exact hrng
    have hlook := serverUdpPostDecrypt_eq (C := C) (s := s) hlen info.key [0] users
    rw [hpost] at hlook
    split_ifs at hlook
    · cases hlook
    · rcases udpLookupUser_uid (C := C) users s uid with hnone | hsome
      · rw [hnone] at hlook
        cases hlook
      · rw [hsome] at hlook
        cases hlook
        exact hrandom rfl
  · intro hsize client hclient serverInfo hkey server hserver payload _
    have hs := udpClient_of_client hclient
    obtain ⟨hhash, hinfo⟩ := server_eq hserver
    obtain ⟨uid, client₁, hpre, hlen, -, -⟩ := clientUdpPreEncrypt_eq (C := C) hs payload
    rw [paramUserId_of_size hreg hsize]
    refine ⟨_, congrArg Prod.fst hpre, ?_, ?_⟩
    · have hpost := serverUdpPostDecrypt_eq (C := C) (s := server) hlen info.key payload users
      rw [udpLookupUser_of_size hsize, hinfo, hkey, if_neg (not_not.2 rfl), hhash] at hpost
      exact congrArg Except.ok hpost
    · intro client' hcalls server' hserver' reply _
      obtain ⟨s₀, hs₀, hsteps⟩ := hclient
      have hs' := udpClient_of_client (C := C) (s := client')
        ⟨s₀, hs₀, (hsteps.tail ⟨payload, .inl rfl⟩).trans hcalls⟩
      obtain ⟨hhash', hinfo'⟩ := server_eq hserver'
      have hreply := clientUdpPostDecrypt_serverUdpPreEncrypt (C := C)
        (hhash'.trans hs'.hashfunc_eq.symm) (by rw [hinfo', hs'.serverInfo_eq, hkey]) reply
      exact congrArg (fun b => Except.ok (some b)) hreply

end AuthAes128

/-! ## All classes -/

section

variable {C : Crypto} {users : Dict Bytes Bytes} {info : ServerInfo}

theorem AuthChain.roundTrip_iff (hreg : AuthBase.Registered users info) :
    (AuthChain.udpProtocol C).RoundTrip users info ↔ users.size = 0 := by
  have hnew : ∀ info s, (AuthChain.udpProtocol C).New info s →
      s.serverInfo = info ∧ s.userKey = none := by
    rintro info s ⟨noCompatible, localData, rng, rfl⟩
    exact ⟨rfl, rfl⟩
  constructor
  · intro h
    exact (AuthBase.of_udp_round_trip hnew
      (fun info rng => ⟨_, ⟨true, {}, rng, rfl⟩, rfl⟩) hreg h).1
  · intro hsize
    exact AuthBase.udp_round_trip hnew hreg hsize (AuthChain.udpCipher_inverts C info.key)

/-- The key of the server has to be as long as the iv that is taken from it. -/
theorem AuthAkarin.roundTrip_iff (hreg : AuthBase.Registered users info) :
    (AuthAkarin.udpProtocol C).RoundTrip users info ↔ users.size = 0 ∧ 8 ≤ info.key.length := by
  have hnew : ∀ info s, (AuthAkarin.udpProtocol C).New info s →
      s.serverInfo = info ∧ s.userKey = none := by
    rintro info s ⟨noCompatible, localData, rng, rfl⟩
    exact ⟨rfl, rfl⟩
  constructor
  · intro h
    obtain ⟨hsize, hcipher⟩ := AuthBase.of_udp_round_trip hnew
      (fun info rng => ⟨_, ⟨true, {}, rng, rfl⟩, rfl⟩) hreg h
    refine ⟨hsize, not_lt.1 fun hlt => ?_⟩
    obtain ⟨md5data, rng, rng', hone⟩ := hcipher [0] (List.cons_ne_nil _ _)
    rw [AuthAkarin.udpCipher_singleton C hlt] at hone
    cases hone
  · rintro ⟨hsize, hlen⟩
    exact AuthBase.udp_round_trip hnew hreg hsize (AuthAkarin.udpCipher_inverts C hlen)

/-- Where the handshake of a connection would be accepted, datagrams come through if and only if
    the server has no users. -/
theorem udp_round_trip_iff (C : Crypto) (hashfunc : HashFunc) {users : Dict Bytes Bytes}
    {info : ServerInfo} (hreg : AuthBase.Registered users info) :
    ((AuthAes128.udpProtocol C hashfunc).RoundTrip users info ↔ users.size = 0) ∧
      ((AuthChain.udpProtocol C).RoundTrip users info ↔ users.size = 0) ∧
      ((AuthAkarin.udpProtocol C).RoundTrip users info ↔
        users.size = 0 ∧ 8 ≤ info.key.length) :=
  ⟨AuthAes128.roundTrip_iff hreg, AuthChain.roundTrip_iff hreg, AuthAkarin.roundTrip_iff hreg⟩

/-- A key of 16 bytes, and a user that is named or not. -/
def udpInfo (protocolParam : Bytes) : ServerInfo where
  key := (List.range 16).map UInt8.ofNat
  iv := []
  recvIv := []
  protocolParam := protocolParam
  overhead := 0
  tcpMss := 1500

theorem udp_round_trip_no_users :
    (AuthAes128.udpProtocol plainCrypto .sha1).RoundTrip .empty (udpInfo []) ∧
      (AuthChain.udpProtocol plainCrypto).RoundTrip .empty (udpInfo []) ∧
      (AuthAkarin.udpProtocol plainCrypto).RoundTrip .empty (udpInfo []) := by
  have hreg : AuthBase.Registered .empty (udpInfo []) := .inr ⟨List.not_mem_nil, rfl⟩
  obtain ⟨haes, hchain, hakarin⟩ := udp_round_trip_iff plainCrypto .sha1 hreg
  exact ⟨haes.2 rfl, hchain.2 rfl, hakarin.2 ⟨rfl, by simp [udpInfo]⟩⟩

/-- The user `1` with the password `p`. -/
def udpUsers : Dict Bytes Bytes := Dict.empty.set [1, 0, 0, 0] [112]

/-- A client that names the user `1:p`, whom the server has. -/
theorem not_udp_round_trip_user : AuthBase.Registered udpUsers (udpInfo [49, 58, 112]) ∧
    ¬(AuthAes128.udpProtocol plainCrypto .sha1).RoundTrip udpUsers (udpInfo [49, 58, 112]) ∧
    ¬(AuthChain.udpProtocol plainCrypto).RoundTrip udpUsers (udpInfo [49, 58, 112]) ∧
    ¬(AuthAkarin.udpProtocol plainCrypto).RoundTrip udpUsers (udpInfo [49, 58, 112]) := by
  have hreg : AuthBase.Registered udpUsers (udpInfo [49, 58, 112]) :=
    .inl ⟨by simp [udpInfo], [1, 0, 0, 0], by decide, rfl⟩
  have hsize : udpUsers.size ≠ 0 := Nat.one_ne_zero
  exact ⟨hreg, fun h => hsize ((AuthAes128.roundTrip_iff hreg).1 h),
    fun h => hsize ((AuthChain.roundTrip_iff hreg).1 h),
    fun h => hsize ((AuthAkarin.roundTrip_iff hreg).1 h).1⟩

end

end ShadowsocksR

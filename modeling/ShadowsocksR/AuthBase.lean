import ShadowsocksR.Encrypt
import ShadowsocksR.AuthData.Data
import ShadowsocksR.AuthChain.Padding

/-!
# The handshake of the chained protocols

The state that `auth_chain_a` and `auth_akarin_rand` have in common, and the
header of 36 bytes that a connection begins with: the client makes it from its
user id and password (`packAuthHead`), the server checks it (`openHeader`) and
admits the client (`acceptHeader`).

* `openHeader_of_opens`, `openHeader_of_not_opens`: when a server opens a header;
* `openHeader_incomplete`: a server waits for an incomplete header of a client;
* `packAuthHead_eq`, `openHeader_complete`: it opens the header of a client that
  it knows, and both have the same keys after it.
-/

namespace ShadowsocksR

/-! ## The state -/

/-- What the protocol objects read of `server_info`, and `tcp_mss`, which they write. -/
structure ServerInfo where
  key : Bytes
  iv : Bytes
  recvIv : Bytes
  protocolParam : Bytes
  overhead : ℕ
  tcpMss : ℕ
  deriving DecidableEq

/-- The fields of `server_info.data` that a client uses. -/
structure LocalData where
  localClientId : Bytes := []
  connectionId : ℕ := 0
  length_localClientId : localClientId = [] ∨ localClientId.length = 4 := by simp

/-- The data before the first connection. -/
def LocalData.new : LocalData := {}

/-- The data with an id of the client in it, for less than `0xFF000001` connections. -/
def LocalData.renew (d : LocalData) (rng : Rng) : LocalData × Rng :=
  if d.connectionId > 0xFF000000 ∨ d.localClientId = [] then
    let (connectionId, rng') := randBytes 4 (randBytes 4 rng).2
    ({ localClientId := (randBytes 4 rng).1
       connectionId := unpackLE connectionId &&& 0xFFFFFF
       length_localClientId := .inr (length_randBytes _ _) }, rng')
  else (d, rng)

/-- `self.server_info.data.connection_id += 1` -/
def LocalData.connect (d : LocalData) : LocalData := { d with connectionId := d.connectionId + 1 }

theorem LocalData.renew_spec (d : LocalData) (rng : Rng) :
    (d.renew rng).1.localClientId.length = 4 ∧ (d.renew rng).1.connectionId + 1 < 2 ^ 32 := by
  unfold renew
  split
  · have h : unpackLE (randBytes 4 (randBytes 4 rng).2).1 &&& 0xFFFFFF ≤ 0xFFFFFF :=
      Nat.and_le_right
    exact ⟨length_randBytes _ _, by dsimp only; omega⟩
  · next h =>
    rw [not_or] at h
    exact ⟨d.length_localClientId.resolve_left h.2, by dsimp only; omega⟩

/-- The fields that the classes `auth_chain_a` and `auth_akarin_rand` both have. -/
structure AuthBase where
  serverInfo : ServerInfo
  localData : LocalData := {}
  /-- `self.method == self.no_compatible_method` -/
  noCompatible : Bool := true
  rng : Rng
  recvBuf : Bytes := []
  unitLen : ℤ := 2800
  rawTrans : Bool := false
  hasSentHeader : Bool := false
  hasRecvHeader : Bool := false
  clientId : ℕ := 0
  connectionId : ℕ := 0
  packId : ℕ := 1
  recvId : ℕ := 1
  userId : Option Bytes := none
  userIdNum : ℕ := 0
  userKey : Option Bytes := none
  overhead : ℕ := 4
  clientOverHead : ℕ := 4
  lastClientHash : Bytes := []
  lastServerHash : Bytes := []
  randomClient : Xorshift128plus := {}
  randomServer : Xorshift128plus := {}
  encryptor : Option Encryptor := none
  /-- The calls of `server_info.update_user_func`. -/
  updateUserCalls : List Bytes := []

namespace AuthBase

/-- What a call of `server_post_decrypt` returns or raises. -/
abbrev Result := Except PyExc (Bytes × Bool)

/-- `not_match_return` -/
def notMatchReturn (s : AuthBase) (buf : Bytes) : Result × AuthBase :=
  (.ok (if s.noCompatible then List.replicate 2048 69 else buf, false),
    { s with rawTrans := true, overhead := 0 })

/-! ## The client -/

/-- `get_head_size` -/
def getHeadSize (buf : Bytes) (defValue : ℕ) : ℕ :=
  match buf with
  | b :: c :: _ =>
    let headType := b.toNat &&& 7
    if headType = 1 then 7 else if headType = 4 then 19 else if headType = 3 then 4 + c.toNat
    else defValue
  | _ => defValue

theorem getHeadSize_le (buf : Bytes) {defValue : ℕ} (h : defValue ≤ 259) :
    getHeadSize buf defValue ≤ 259 := by
  unfold getHeadSize
  split
  · next c _ =>
    have := c.toNat_lt
    dsimp only
    split_ifs <;> omega
  · exact h

theorem getHeadSize_pos (buf : Bytes) {defValue : ℕ} (h : 0 < defValue) :
    0 < getHeadSize buf defValue := by
  unfold getHeadSize
  split
  · dsimp only
    split_ifs <;> omega
  · exact h

/-- `auth_data` -/
def authData (now : Time) (s : AuthBase) : Bytes × AuthBase :=
  let (localData, rng) := s.localData.renew s.rng
  let localData := localData.connect
  (packLE 4 now.uint32.toNat ++ localData.localClientId ++ packLE 4 localData.connectionId,
    { s with localData, rng })

/-- The first two of the items of `protocol_param.split(b':')`. -/
def paramItems (param : Bytes) : Bytes × Bytes :=
  (param.takeWhile (· ≠ 58), (param.dropWhile (· ≠ 58)).tail.takeWhile (· ≠ 58))

/-- `struct.pack('<I', int(item))`, unless one of the two raises. -/
def paramUid (item : Bytes) : Option Bytes :=
  (pyInt item).bind fun n => if 0 ≤ n ∧ n < 2 ^ 32 then some (packLE 4 n.toNat) else none

/-- The user id that `protocol_param` names, if it names one. -/
def paramUserId (param : Bytes) : Option Bytes :=
  if 58 ∈ param then paramUid (paramItems param).1 else none

/-- The user id and the user key of a client. -/
def credentials (s : AuthBase) (rng : Rng) : Bytes × Bytes × Rng :=
  if 58 ∈ s.serverInfo.protocolParam then
    let (item₀, item₁) := paramItems s.serverInfo.protocolParam
    match paramUid item₀ with
    | some uid => (uid, item₁, rng)
    | none => let (uid, rng) := randBytes 4 rng; (uid, item₁, rng)
  else let (uid, rng) := randBytes 4 rng; (uid, s.userKey.getD s.serverInfo.key, rng)

/-- The header in `pack_auth_data`, with its last two numbers. -/
def packAuthHead (C : Crypto) (salt : Bytes) (mss : ℕ) (authData : Bytes) (s : AuthBase) :
    Except PyExc (Bytes × AuthBase) := do
  let data := authData ++ ((← pack 2 s.serverInfo.overhead) ++ (← pack 2 mss))
  let macKey := s.serverInfo.iv ++ s.serverInfo.key
  let (checkHead, rng) := randBytes 4 s.rng
  let lastClientHash := C.hmac .md5 macKey checkHead
  let checkHead := checkHead ++ lastClientHash.take 8
  let (uid, userKey, rng) := s.credentials rng
  let (encryptor, rng) :=
    Encryptor.new C (b64encode userKey ++ salt) .aes128Cbc (some (List.replicate 16 0)) rng
  let uid := packLE 4 (unpackLE uid ^^^ unpackLE (lastClientHash.extract 8 12))
  let data := uid ++ (encryptor.encrypt C data).1.drop 16
  let lastServerHash := C.hmac .md5 userKey data
  .ok (checkHead ++ data ++ lastServerHash.take 4,
    { s with rng, lastClientHash, userKey := some userKey, lastServerHash })

/-! ## The server -/

/-- The hash of the first four bytes. -/
def headHash (C : Crypto) (s : AuthBase) : Bytes :=
  C.hmac .md5 (s.serverInfo.recvIv ++ s.serverInfo.key) (s.recvBuf.take 4)

/-- The first check of the header, which is made when there are enough bytes, and for two
    shorter lengths: whether it fails. -/
def HeadMismatch (C : Crypto) (s : AuthBase) : Prop :=
  (s.recvBuf.length ≥ 12 ∨ s.recvBuf.length = 7 ∨ s.recvBuf.length = 8) ∧
    (s.headHash C).take (min s.recvBuf.length 12 - 4) ≠
      s.recvBuf.extract 4 (min s.recvBuf.length 12)

instance (C : Crypto) (s : AuthBase) : Decidable (s.HeadMismatch C) :=
  inferInstanceAs (Decidable (_ ∧ _))

/-- The key of a user, and the user id that is kept: none for a user that is not in the table,
    whose key is the key of the server, or its iv when there are users. -/
def lookupUser (users : Dict Bytes Bytes) (uid : ℕ) (s : AuthBase) : Bytes × AuthBase :=
  match users.get? (packLE 4 uid) with
  | some userKey => (userKey,
      { s with
        userIdNum := uid
        userId := some (packLE 4 uid)
        userKey := some userKey
        updateUserCalls := s.updateUserCalls ++ [packLE 4 uid] })
  | none =>
    let userKey := if users.size = 0 then s.serverInfo.key else s.serverInfo.recvIv
    (userKey, { s with userIdNum := 0, userKey := some userKey })

/-- The check of the signature of the header, and its decryption. -/
def verifyHeader (C : Crypto) (salt userKey : Bytes) (s : AuthBase) :
    Except Result Bytes × AuthBase :=
  let md5data := C.hmac .md5 userKey (s.recvBuf.extract 12 (12 + 20))
  if md5data.take 4 ≠ s.recvBuf.extract 32 36 then
    if s.recvBuf.length < 36 then (.error (.ok ([], false)), s)
    else
      let (r, s) := s.notMatchReturn s.recvBuf
      (.error r, s)
  else
    let (encryptor, rng) := Encryptor.new C (b64encode userKey ++ salt) .aes128Cbc none s.rng
    let head := (encryptor.decrypt C (List.replicate 16 0 ++ s.recvBuf.extract 16 32 ++ [0])).1
    (.ok head,
      { s with
        lastServerHash := md5data
        rng := rng
        clientOverHead := unpackLE (head.extract 12 14) })

/-- The part of `server_post_decrypt` up to the decryption of the header: the header, or what is
    returned. -/
def openHeader (C : Crypto) (salt : Bytes) (users : Dict Bytes Bytes) (s : AuthBase) :
    Except Result Bytes × AuthBase :=
  if s.HeadMismatch C then
    let (r, s) := s.notMatchReturn s.recvBuf
    (.error r, s)
  else if s.recvBuf.length < 12 + 24 then (.error (.ok ([], false)), s)
  else
    let md5data := s.headHash C
    let uid := unpackLE (s.recvBuf.extract 12 16) ^^^ unpackLE (md5data.extract 8 12)
    let (userKey, s) := lookupUser users uid { s with lastClientHash := md5data }
    s.verifyHeader C salt userKey

/-- The part of `server_post_decrypt` that checks the decrypted header: its timestamp, or what is
    returned. -/
def acceptHeader (now : Time) (data : ObfsAuthChainData) (head : Bytes) (s : AuthBase) :
    Except Result ℕ × AuthBase × ObfsAuthChainData :=
  let utcTime := unpackLE (head.take 4)
  let clientId := unpackLE (head.extract 4 8)
  let connectionId := unpackLE (head.extract 8 12)
  if InWindow now utcTime then
    match data.insert now s.userId clientId connectionId with
    | some (true, data) =>
      (.ok utcTime, { s with hasRecvHeader := true, clientId, connectionId }, data)
    | some (false, data) =>
      let (r, s) := s.notMatchReturn s.recvBuf
      (.error r, s, data)
    | none => (.error (.error .keyError), s, data)
  else
    let (r, s) := s.notMatchReturn s.recvBuf
    (.error r, s, data)

/-! ## Headers that are opened -/

variable (C : Crypto) (users : Dict Bytes Bytes) (s : AuthBase)

/-- The user id in the header. -/
def headerUid : Bytes :=
  packLE 4 (unpackLE (s.recvBuf.extract 12 16) ^^^ unpackLE ((s.headHash C).extract 8 12))

/-- The key with which the header should be signed. -/
def headerKey : Bytes :=
  (users.get? (s.headerUid C)).getD
    (if users.size = 0 then s.serverInfo.key else s.serverInfo.recvIv)

/-- The header is signed with a key. -/
def Signed (key : Bytes) : Prop :=
  (C.hmac .md5 key (s.recvBuf.extract 12 (12 + 20))).take 4 = s.recvBuf.extract 32 36

/-- The decrypted header. -/
def headerPlain (salt key : Bytes) : Bytes :=
  Encryptor.decryptBlock C (b64encode key ++ salt) (s.recvBuf.extract 16 32)

/-- The header passes all checks but those of `acceptHeader`. -/
def Opens : Prop :=
  ¬s.HeadMismatch C ∧ 36 ≤ s.recvBuf.length ∧ s.Signed C (s.headerKey C users)

variable {C users s} {salt : Bytes}

theorem lookupUser_eq (users : Dict Bytes Bytes) (s' : AuthBase)
    (hs : s'.serverInfo = s.serverInfo) :
    ∃ userIdNum updateUserCalls, lookupUser users (unpackLE (s.recvBuf.extract 12 16) ^^^
        unpackLE ((s.headHash C).extract 8 12)) s' =
      (s.headerKey C users, { s' with
        userId := if (users.get? (s.headerUid C)).isSome then some (s.headerUid C) else s'.userId
        userKey := some (s.headerKey C users)
        userIdNum := userIdNum
        updateUserCalls := updateUserCalls }) := by
  rw [lookupUser, headerKey, headerUid]
  cases users.get? _ with
  | some userKey => exact ⟨_, _, rfl⟩
  | none =>
    rw [hs]
    exact ⟨_, _, rfl⟩

/-- The user id that is kept: of a user that is in the table. -/
def keptUserId (C : Crypto) (users : Dict Bytes Bytes) (s : AuthBase) : Option Bytes :=
  if (users.get? (s.headerUid C)).isSome then some (s.headerUid C) else s.userId

/-- The object with an opened header. -/
def opened (C : Crypto) (users : Dict Bytes Bytes) (salt : Bytes) (userIdNum : ℕ)
    (updateUserCalls : List Bytes) (rng : Rng) (s : AuthBase) : AuthBase :=
  { s with
    lastClientHash := s.headHash C
    lastServerHash := C.hmac .md5 (s.headerKey C users) (s.recvBuf.extract 12 (12 + 20))
    userId := s.keptUserId C users
    userKey := some (s.headerKey C users)
    clientOverHead := unpackLE ((s.headerPlain C salt (s.headerKey C users)).extract 12 14)
    userIdNum := userIdNum
    updateUserCalls := updateUserCalls
    rng := rng }

/-- A server opens a header that passes the checks. -/
theorem openHeader_of_opens (salt : Bytes) (h : s.Opens C users) : ∃ userIdNum updateUserCalls rng,
    s.openHeader C salt users = (.ok (s.headerPlain C salt (s.headerKey C users)),
      s.opened C users salt userIdNum updateUserCalls rng) := by
  obtain ⟨hhead, hlen, hsigned⟩ := h
  rw [Signed] at hsigned
  obtain ⟨userIdNum, calls, hlook⟩ :=
    lookupUser_eq users (C := C) (s := s) { s with lastClientHash := s.headHash C } rfl
  have hblock : (s.recvBuf.extract 16 32).length = 16 := by
    rw [List.extract_eq_take_drop, List.length_take, List.length_drop]
    omega
  refine ⟨userIdNum, calls,
    (Encryptor.new C (b64encode (s.headerKey C users) ++ salt) .aes128Cbc none s.rng).2, ?_⟩
  rw [openHeader, if_neg hhead, if_neg (by omega)]
  dsimp only
  rw [hlook, verifyHeader]
  dsimp only
  rw [if_neg (not_not.2 hsigned), Encryptor.decrypt_new hblock]
  rfl

/-- The header passes the first check and names a user of the table. -/
def Names (C : Crypto) (users : Dict Bytes Bytes) (s : AuthBase) : Prop :=
  ¬s.HeadMismatch C ∧ 36 ≤ s.recvBuf.length ∧ (users.get? (s.headerUid C)).isSome = true

instance (C : Crypto) (users : Dict Bytes Bytes) (s : AuthBase) : Decidable (s.Names C users) :=
  inferInstanceAs (Decidable (_ ∧ _ ∧ _))

theorem verifyHeader_calls (salt userKey : Bytes) (s : AuthBase) :
    (s.verifyHeader C salt userKey).2.updateUserCalls = s.updateUserCalls := by
  rw [verifyHeader]
  split_ifs <;> rfl

theorem lookupUser_calls (users : Dict Bytes Bytes) (uid : ℕ) (s : AuthBase) :
    (lookupUser users uid s).2.updateUserCalls =
      s.updateUserCalls ++ if (users.get? (packLE 4 uid)).isSome then [packLE 4 uid] else [] := by
  rw [lookupUser]
  cases users.get? (packLE 4 uid) with
  | none => exact (List.append_nil _).symm
  | some userKey => rfl

/-- `update_user_func` is called before the signature of the header is checked. -/
theorem openHeader_calls (salt : Bytes) (users : Dict Bytes Bytes) (s : AuthBase) :
    (s.openHeader C salt users).2.updateUserCalls =
      s.updateUserCalls ++ if s.Names C users then [s.headerUid C] else [] := by
  rw [openHeader]
  by_cases hhead : s.HeadMismatch C
  · rw [if_pos hhead, if_neg fun h => h.1 hhead, List.append_nil]
    rfl
  rw [if_neg hhead]
  by_cases hlen : s.recvBuf.length < 12 + 24
  · rw [if_pos hlen, if_neg fun h => not_le.2 hlen h.2.1, List.append_nil]
  rw [if_neg hlen]
  dsimp only
  rw [verifyHeader_calls, lookupUser_calls]
  have hnames : s.Names C users ↔ (users.get? (s.headerUid C)).isSome = true :=
    ⟨fun h => h.2.2, fun h => ⟨hhead, not_lt.1 hlen, h⟩⟩
  simp only [hnames, headerUid]

/-- What a header that is not accepted leaves as it is. -/
structure HeaderKept (s s' : AuthBase) : Prop where
  hasRecvHeader : s'.hasRecvHeader = s.hasRecvHeader
  unitLen : s'.unitLen = s.unitLen
  serverInfo : s'.serverInfo = s.serverInfo

theorem openHeader_of_not_opens (salt : Bytes) (h : ¬s.Opens C users) : ∃ r s',
    s.openHeader C salt users = (.error r, s') ∧ HeaderKept s s' := by
  rw [openHeader]
  split_ifs with hhead hlen
  · exact ⟨_, _, rfl, rfl, rfl, rfl⟩
  · exact ⟨_, _, rfl, rfl, rfl, rfl⟩
  · obtain ⟨userIdNum, calls, hlook⟩ :=
      lookupUser_eq users (C := C) (s := s) { s with lastClientHash := s.headHash C } rfl
    have hsigned : ¬s.Signed C (s.headerKey C users) := fun hs => h ⟨hhead, by omega, hs⟩
    rw [Signed] at hsigned
    dsimp only
    rw [hlook, verifyHeader]
    dsimp only
    rw [if_pos hsigned, if_neg (by omega)]
    exact ⟨_, _, rfl, rfl, rfl, rfl⟩

/-- The timestamp is inside the window, and the shared data accepts the ids. -/
def Admits {kind : QueueKind} (now : Time) (data : AuthData kind (Option Bytes))
    (userId : Option Bytes) (head : Bytes) : Prop :=
  InWindow now (unpackLE (head.take 4)) ∧ ∃ data', data.insert now userId
    (unpackLE (head.extract 4 8)) (unpackLE (head.extract 8 12)) = some (true, data')

theorem acceptHeader_of_admits {now : Time} {data : ObfsAuthChainData} {head : Bytes}
    (h : Admits now data s.userId head) : ∃ data', s.acceptHeader now data head =
      (.ok (unpackLE (head.take 4)),
        { s with
          hasRecvHeader := true
          clientId := unpackLE (head.extract 4 8)
          connectionId := unpackLE (head.extract 8 12) }, data') := by
  obtain ⟨hwin, data', hins⟩ := h
  refine ⟨data', ?_⟩
  rw [acceptHeader]
  dsimp only
  rw [if_pos hwin, hins]

theorem acceptHeader_of_not_admits {now : Time} {data : ObfsAuthChainData} {head : Bytes}
    (h : ¬Admits now data s.userId head) : ∃ r s' data', s.acceptHeader now data head =
      (.error r, s', data') ∧ HeaderKept s s' := by
  rw [acceptHeader]
  dsimp only
  split_ifs with hwin
  · cases hins : data.insert now s.userId (unpackLE (head.extract 4 8))
      (unpackLE (head.extract 8 12)) with
    | none => exact ⟨_, _, _, rfl, rfl, rfl, rfl⟩
    | some r =>
      obtain ⟨accepted, data'⟩ := r
      cases accepted with
      | true => exact absurd ⟨hwin, data', hins⟩ h
      | false => exact ⟨_, _, _, rfl, rfl, rfl, rfl⟩
  · exact ⟨_, _, _, rfl, rfl, rfl, rfl⟩

theorem acceptHeader_calls (now : Time) (data : ObfsAuthChainData) (head : Bytes) (s : AuthBase) :
    (s.acceptHeader now data head).2.1.updateUserCalls = s.updateUserCalls := by
  by_cases hwin : InWindow now (unpackLE (head.take 4))
  · rw [acceptHeader]
    dsimp only
    rw [if_pos hwin]
    rcases data.insert now s.userId (unpackLE (head.extract 4 8)) (unpackLE (head.extract 8 12))
      with - | ⟨- | -, data'⟩ <;> rfl
  · rw [acceptHeader, if_neg hwin]
    rfl

end AuthBase

/-! ## The header of an honest client -/

/-- What the header of a client is made from. -/
structure Header where
  nonce : Bytes
  uid : Bytes
  userKey : Bytes
  plain : Bytes
  length_nonce : nonce.length = 4
  length_uid : uid.length = 4
  length_plain : plain.length = 16

namespace Header

variable (C : Crypto) (macKey salt : Bytes) (h : Header)

def clientHash : Bytes := C.hmac .md5 macKey h.nonce

/-- The part of the header that the user key signs. -/
def body : Bytes :=
  packLE 4 (unpackLE h.uid ^^^ unpackLE ((h.clientHash C macKey).extract 8 12)) ++
    Encryptor.encryptBlock C (b64encode h.userKey ++ salt) h.plain

def serverHash : Bytes := C.hmac .md5 h.userKey (h.body C macKey salt)

def bytes : Bytes :=
  h.nonce ++ (h.clientHash C macKey).take 8 ++ h.body C macKey salt ++
    (h.serverHash C macKey salt).take 4

@[simp] theorem length_clientHash : (h.clientHash C macKey).length = 16 := C.length_hmac _ _ _

@[simp] theorem length_serverHash : (h.serverHash C macKey salt).length = 16 := C.length_hmac _ _ _

@[simp] theorem length_body : (h.body C macKey salt).length = 20 := by
  rw [body, List.length_append, length_packLE, Encryptor.length_encryptBlock h.length_plain]

@[simp] theorem length_bytes : (h.bytes C macKey salt).length = 36 := by
  simp [bytes, h.length_nonce]

theorem take_bytes : (h.bytes C macKey salt).take 4 = h.nonce := by
  rw [bytes, List.append_assoc, List.append_assoc]
  exact List.take_left' h.length_nonce

theorem extract_bytes_hash :
    (h.bytes C macKey salt).extract 4 12 = (h.clientHash C macKey).take 8 := by
  rw [bytes, List.append_assoc]
  exact extract_append_append h.length_nonce (by simp)

theorem extract_bytes_body :
    (h.bytes C macKey salt).extract 12 32 = h.body C macKey salt :=
  extract_append_append (by simp [h.length_nonce]) (by simp)

theorem extract_bytes_mac :
    (h.bytes C macKey salt).extract 32 36 = (h.serverHash C macKey salt).take 4 := by
  rw [← List.append_nil (h.bytes C macKey salt)]
  exact extract_append_append (by simp [h.length_nonce]) (by simp)

/-- The user id is masked with a part of the hash that is not sent. -/
theorem unmask_uid :
    packLE 4 (unpackLE ((h.bytes C macKey salt).extract 12 16) ^^^
      unpackLE ((h.clientHash C macKey).extract 8 12)) = h.uid := by
  have hmask : (h.bytes C macKey salt).extract 12 16 =
      packLE 4 (unpackLE h.uid ^^^ unpackLE ((h.clientHash C macKey).extract 8 12)) := by
    rw [bytes, body, ← List.append_assoc, List.append_assoc]
    exact extract_append_append (by simp [h.length_nonce]) (by simp)
  rw [hmask, unmask h.length_uid]
  rw [List.extract_eq_take_drop]
  exact List.length_take_le _ _

theorem extract_bytes_block :
    (h.bytes C macKey salt).extract 16 32 =
      Encryptor.encryptBlock C (b64encode h.userKey ++ salt) h.plain := by
  rw [bytes, body, ← List.append_assoc]
  exact extract_append_append (by simp [h.length_nonce])
    (by rw [Encryptor.length_encryptBlock h.length_plain])

end Header

namespace AuthBase

variable {C : Crypto} {macKey salt : Bytes} {h : Header} {s : AuthBase}

/-- The bytes of the header pass the first check, as far as they have come. -/
theorem not_headMismatch (hmac : s.serverInfo.recvIv ++ s.serverInfo.key = macKey) {rest : Bytes}
    (hbuf : s.recvBuf <+: h.bytes C macKey salt ++ rest) : ¬s.HeadMismatch C := by
  rintro ⟨hlen, hne⟩
  obtain ⟨t, ht⟩ := hbuf
  have htake : ∀ m ≤ s.recvBuf.length, m ≤ 36 →
      s.recvBuf.take m = (h.bytes C macKey salt).take m := fun m hm hm' => by
    rw [← (List.take_append_of_le_length hm : (s.recvBuf ++ t).take _ = _), ht,
      List.take_append_of_le_length (by simpa using hm')]
  refine hne ?_
  rw [headHash, hmac, htake 4 (by omega) (by omega), h.take_bytes, List.extract_eq_take_drop,
    ← List.drop_take, htake _ (by omega) (by omega), List.drop_take]
  have hle : min s.recvBuf.length 12 - 4 ≤ 8 := by omega
  calc (h.clientHash C macKey).take (min s.recvBuf.length 12 - 4)
      = ((h.clientHash C macKey).take 8).take (min s.recvBuf.length 12 - 4) := by
        rw [List.take_take, min_eq_left hle]
    _ = (((h.bytes C macKey salt).drop 4).take 8).take (min s.recvBuf.length 12 - 4) := by
        rw [← h.extract_bytes_hash C macKey salt, List.extract_eq_take_drop]
    _ = ((h.bytes C macKey salt).drop 4).take (min s.recvBuf.length 12 - 4) := by
        rw [List.take_take, min_eq_left hle]

/-- A server waits for the rest of the header. -/
theorem openHeader_incomplete (hmac : s.serverInfo.recvIv ++ s.serverInfo.key = macKey)
    (hbuf : s.recvBuf <+: h.bytes C macKey salt) (hlen : s.recvBuf.length < 36)
    (users : Dict Bytes Bytes) :
    s.openHeader C salt users = (.error (.ok ([], false)), s) := by
  have hpre : s.recvBuf <+: h.bytes C macKey salt ++ [] := by rw [List.append_nil]; exact hbuf
  rw [openHeader, if_neg (not_headMismatch hmac hpre), if_pos hlen]

/-- The user table, with the key of the server, gives this key for this user id: of a user in the
    table, or without users the key of the server. -/
def Knows (users : Dict Bytes Bytes) (key uid userKey : Bytes) (userId : Option Bytes) : Prop :=
  users.get? uid = some userKey ∧ userId = some uid ∨
    users.size = 0 ∧ userKey = key ∧ userId = none

/-- A server opens the header of a client that it knows. -/
theorem openHeader_complete (hmac : s.serverInfo.recvIv ++ s.serverInfo.key = macKey)
    {rest : Bytes} (hbuf : s.recvBuf = h.bytes C macKey salt ++ rest) {users : Dict Bytes Bytes}
    {userId : Option Bytes} (hk : Knows users s.serverInfo.key h.uid h.userKey userId)
    (hs : s.userId = none) :
    ∃ userIdNum updateUserCalls rng, s.openHeader C salt users = (.ok h.plain,
      { s with
        lastClientHash := h.clientHash C macKey
        lastServerHash := h.serverHash C macKey salt
        userId := userId
        userKey := some h.userKey
        clientOverHead := unpackLE (h.plain.extract 12 14)
        userIdNum := userIdNum
        updateUserCalls := updateUserCalls
        rng := rng }) := by
  have hlen : 36 ≤ s.recvBuf.length := by rw [hbuf]; simp
  have hx : ∀ i j, j ≤ 36 → s.recvBuf.extract i j = (h.bytes C macKey salt).extract i j :=
    fun i j hj => by rw [hbuf, extract_append_left (by simpa using hj)]
  have hhash : s.headHash C = h.clientHash C macKey := by
    rw [headHash, hmac, hbuf, List.take_append_of_le_length (by simp), h.take_bytes]; rfl
  have hlook : ∃ userIdNum updateUserCalls,
      lookupUser users (unpackLE (s.recvBuf.extract 12 16) ^^^
        unpackLE ((s.headHash C).extract 8 12)) { s with lastClientHash := s.headHash C } =
      (h.userKey, { s with
        lastClientHash := h.clientHash C macKey
        userId := userId
        userKey := some h.userKey
        userIdNum := userIdNum
        updateUserCalls := updateUserCalls }) := by
    have huid := h.unmask_uid C macKey salt
    rw [← hx 12 16 (by norm_num), ← hhash] at huid
    rcases hk with ⟨hu, rfl⟩ | ⟨hu, hkey, rfl⟩
    · rw [lookupUser, huid, hu, hhash]
      exact ⟨_, _, rfl⟩
    · rw [lookupUser, huid, Dict.get?_of_size_eq_zero hu, hhash]
      simp only [hu, if_true, ← hkey]
      exact ⟨0, s.updateUserCalls, by rw [← hs]⟩
  obtain ⟨userIdNum, updateUserCalls, hlook⟩ := hlook
  refine ⟨userIdNum, updateUserCalls,
    (Encryptor.new C (b64encode h.userKey ++ salt) .aes128Cbc none s.rng).2, ?_⟩
  rw [openHeader, if_neg (not_headMismatch hmac ⟨[], by rw [List.append_nil, hbuf]⟩),
    if_neg (by omega)]
  dsimp only
  rw [hlook, verifyHeader]
  dsimp only
  rw [hx 12 (12 + 20) (by norm_num), hx 32 36 (by norm_num), hx 16 32 (by norm_num),
    h.extract_bytes_body, h.extract_bytes_mac, h.extract_bytes_block,
    if_neg (by rw [Header.serverHash]; exact not_not.2 rfl),
    Encryptor.decrypt_new (Encryptor.length_encryptBlock h.length_plain),
    Encryptor.decryptBlock_encryptBlock h.length_plain]
  rfl

/-- The server knows the user of a client: the user that `protocol_param` names, with the password
    there, or without users any client that names none. -/
def Registered (users : Dict Bytes Bytes) (info : ServerInfo) : Prop :=
  58 ∈ info.protocolParam ∧ (∃ uid, paramUid (paramItems info.protocolParam).1 = some uid ∧
    users.get? uid = some (paramItems info.protocolParam).2) ∨
  58 ∉ info.protocolParam ∧ users.size = 0

theorem length_paramUid {item uid : Bytes} (h : paramUid item = some uid) : uid.length = 4 := by
  obtain ⟨n, -, hn⟩ := Option.bind_eq_some_iff.1 h
  split at hn
  · cases hn
    exact length_packLE _ _
  · cases hn

theorem credentials_of_registered {users : Dict Bytes Bytes} (h : Registered users s.serverInfo)
    (hs : s.userKey = none) (rng : Rng) :
    (s.credentials rng).1.length = 4 ∧ Knows users s.serverInfo.key (s.credentials rng).1
      (s.credentials rng).2.1 (paramUserId s.serverInfo.protocolParam) := by
  rcases h with ⟨hmem, uid, hu, hget⟩ | ⟨hmem, hsize⟩
  · rw [credentials, paramUserId, if_pos hmem, if_pos hmem]
    simp only [hu]
    exact ⟨length_paramUid hu, .inl ⟨hget, rfl⟩⟩
  · rw [credentials, paramUserId, if_neg hmem, if_neg hmem]
    exact ⟨length_randBytes _ _, .inr ⟨hsize, by rw [hs]; rfl, rfl⟩⟩

theorem authData_eq (now : Time) (s : AuthBase) : ∃ (localData : LocalData) (rng : Rng),
    s.authData now = (packLE 4 now.uint32.toNat ++ localData.localClientId ++
      packLE 4 localData.connectionId, { s with localData, rng }) ∧
    localData.localClientId.length = 4 ∧ localData.connectionId < 2 ^ 32 :=
  ⟨_, _, rfl, s.localData.renew_spec s.rng⟩

/-- The header that a client makes. -/
theorem packAuthHead_eq (salt : Bytes) {authData : Bytes} {mss : ℕ} (hlen : authData.length = 12)
    (hover : s.serverInfo.overhead < 2 ^ 16) (hmss : mss < 2 ^ 16) {users : Dict Bytes Bytes}
    (hreg : Registered users s.serverInfo) (hs : s.userKey = none) :
    ∃ (h : Header) (rng : Rng), s.packAuthHead C salt mss authData =
      .ok (h.bytes C (s.serverInfo.iv ++ s.serverInfo.key) salt,
        { s with
          rng := rng
          lastClientHash := h.clientHash C (s.serverInfo.iv ++ s.serverInfo.key)
          userKey := some h.userKey
          lastServerHash := h.serverHash C (s.serverInfo.iv ++ s.serverInfo.key) salt }) ∧
      h.plain = authData ++ (packLE 2 s.serverInfo.overhead ++ packLE 2 mss) ∧
      Knows users s.serverInfo.key h.uid h.userKey (paramUserId s.serverInfo.protocolParam) := by
  have hpack : ∀ n < 2 ^ 16, pack 2 n = .ok (packLE 2 n) := fun n hn =>
    pack_of_lt (by norm_num at hn ⊢; exact hn)
  obtain ⟨huid, hk⟩ := credentials_of_registered hreg hs (randBytes 4 s.rng).2
  have hplain : (authData ++ (packLE 2 s.serverInfo.overhead ++ packLE 2 mss)).length = 16 := by
    simp [hlen]
  refine ⟨{ nonce := (randBytes 4 s.rng).1
            uid := (s.credentials (randBytes 4 s.rng).2).1
            userKey := (s.credentials (randBytes 4 s.rng).2).2.1
            plain := authData ++ (packLE 2 s.serverInfo.overhead ++ packLE 2 mss)
            length_nonce := length_randBytes _ _
            length_uid := huid
            length_plain := hplain },
    (Encryptor.new C (b64encode (s.credentials (randBytes 4 s.rng).2).2.1 ++ salt) .aes128Cbc
      (some (List.replicate 16 0)) (s.credentials (randBytes 4 s.rng).2).2.2).2, ?_, rfl, hk⟩
  simp only [packAuthHead, hpack _ hover, hpack _ hmss, bind, Except.bind,
    Encryptor.drop_encrypt_new hplain, Header.bytes, Header.body, Header.clientHash,
    Header.serverHash, List.append_assoc]

/-- The numbers that a header begins with. -/
theorem plain_head {utcTime connectionId : ℕ} {clientId : Bytes} (hu : utcTime < 2 ^ 32)
    (hc : clientId.length = 4) (hi : connectionId < 2 ^ 32) {plain tail : Bytes}
    (hp : plain = packLE 4 utcTime ++ clientId ++ packLE 4 connectionId ++ tail) :
    unpackLE (plain.take 4) = utcTime ∧ unpackLE (plain.extract 4 8) = unpackLE clientId ∧
      unpackLE (plain.extract 8 12) = connectionId := by
  subst hp
  refine ⟨?_, ?_, ?_⟩
  · rw [List.append_assoc, List.append_assoc, List.take_left' (length_packLE _ _),
      unpackLE_packLE (by norm_num at hu ⊢; exact hu)]
  · rw [List.append_assoc, List.append_assoc, ← List.append_assoc,
      extract_append_append (length_packLE _ _) (by rw [hc])]
  · rw [extract_append_append (by simp [hc]) (by simp),
      unpackLE_packLE (by norm_num at hi ⊢; exact hi)]

/-- The numbers in a header. -/
theorem plain_eq {utcTime connectionId overhead mss : ℕ} {clientId : Bytes}
    (hu : utcTime < 2 ^ 32) (hc : clientId.length = 4) (hi : connectionId < 2 ^ 32)
    (ho : overhead < 2 ^ 16) {plain : Bytes}
    (hp : plain = packLE 4 utcTime ++ clientId ++ packLE 4 connectionId ++
      (packLE 2 overhead ++ packLE 2 mss)) :
    unpackLE (plain.take 4) = utcTime ∧ unpackLE (plain.extract 4 8) = unpackLE clientId ∧
      unpackLE (plain.extract 8 12) = connectionId ∧ unpackLE (plain.extract 12 14) = overhead := by
  obtain ⟨hp₁, hp₂, hp₃⟩ := plain_head hu hc hi hp
  refine ⟨hp₁, hp₂, hp₃, ?_⟩
  rw [hp, ← List.append_assoc, extract_append_append (by simp [hc]) (by simp),
    unpackLE_packLE (by norm_num at ho ⊢; exact ho)]

end AuthBase

end ShadowsocksR

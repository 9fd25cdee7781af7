import ShadowsocksR.AuthAes128.Authentication
import ShadowsocksR.AuthAes128.Frames

/-!
# The message of an auth_aes128 client

A client begins with a message (`Message`); a server that knows the client takes
it off its buffer when it has all of it.

* `packAuthData_spec`: what a client makes;
* `recvMessage_incomplete`, `recvMessage_complete`: a server waits for all of the
  message, reading its head again in every call, and accepts it.
-/

namespace ShadowsocksR

namespace AuthAes128

open AuthBase (paramItems paramUid paramUserId Registered)

/-- What the message of a client is made from. -/
structure Message where
  nonce : Bytes
  uid : Bytes
  userKey : Bytes
  authData : Bytes
  random : Bytes
  first : Bytes
  length_nonce : nonce.length = 1
  length_uid : uid.length = 4
  length_authData : authData.length = 12
  length_lt : 35 + first.length + random.length < 2 ^ 16

namespace Message

variable (C : Crypto) (hashfunc : HashFunc) (macKey : Bytes) (m : Message)

/-- The length of a message. -/
def size : ℕ := 35 + m.first.length + m.random.length

/-- The part of the head that is encrypted. -/
def plain : Bytes := m.authData ++ packLE 2 m.size ++ packLE 2 m.random.length

/-- The first seven bytes. -/
def checkHead : Bytes := m.nonce ++ (C.hmac hashfunc macKey m.nonce).take 6

/-- The user id and the encrypted part. -/
def sealed : Bytes :=
  m.uid ++ Encryptor.encryptBlock C (b64encode m.userKey ++ salt hashfunc) m.plain

/-- The head. -/
def head : Bytes :=
  m.checkHead C hashfunc macKey ++ (m.sealed C hashfunc ++
    (C.hmac hashfunc macKey (m.sealed C hashfunc)).take 4)

/-- The message without the checksum. -/
def body : Bytes := m.head C hashfunc macKey ++ (m.random ++ m.first)

def bytes : Bytes :=
  m.body C hashfunc macKey ++ (C.hmac hashfunc m.userKey (m.body C hashfunc macKey)).take 4

/-! ## Lengths -/

theorem length_plain : m.plain.length = 16 := by
  simp [plain, m.length_authData]

theorem length_mac {n : ℕ} (hn : n ≤ 16) (key data : Bytes) :
    ((C.hmac hashfunc key data).take n).length = n := by
  rw [List.length_take, C.length_hmac]
  cases hashfunc <;> simp only [HashFunc.size] <;> omega

theorem length_checkHead : (m.checkHead C hashfunc macKey).length = 7 := by
  rw [checkHead, List.length_append, m.length_nonce, length_mac C hashfunc (by decide)]

theorem length_sealed : (m.sealed C hashfunc).length = 20 := by
  rw [sealed, List.length_append, m.length_uid, Encryptor.length_encryptBlock m.length_plain]

theorem length_head : (m.head C hashfunc macKey).length = 31 := by
  rw [head, List.length_append, List.length_append, length_checkHead, length_sealed,
    length_mac C hashfunc (by decide)]

theorem length_body : (m.body C hashfunc macKey).length = m.size - 4 := by
  rw [body, List.length_append, length_head, List.length_append, size]
  omega

theorem length_bytes : (m.bytes C hashfunc macKey).length = m.size := by
  rw [bytes, List.length_append, length_body, length_mac C hashfunc (by decide), size]
  omega

/-! ## Parts -/

variable {C hashfunc macKey m} {p rest : Bytes}

/-- A part of the beginning of a stream. -/
theorem extract_of_prefix {a b c : Bytes} {i j : ℕ} (hp : p <+: a ++ (b ++ c)) (ha : a.length = i)
    (hb : i + b.length = j) (hlen : j ≤ p.length) : p.extract i j = b := by
  obtain ⟨fut, hp⟩ := hp
  rw [← extract_append_left (r := fut) hlen, hp, ← List.append_assoc]
  exact extract_append_append ha hb

/-- The parts of the head of a message, with more bytes after it. -/
theorem bytes_append (rest : Bytes) : ∃ tail, m.bytes C hashfunc macKey ++ rest =
    m.checkHead C hashfunc macKey ++ (m.sealed C hashfunc ++
      ((C.hmac hashfunc macKey (m.sealed C hashfunc)).take 4 ++ tail)) := by
  rw [bytes]
  generalize (C.hmac hashfunc m.userKey (m.body C hashfunc macKey)).take 4 = sum
  refine ⟨m.random ++ m.first ++ sum ++ rest, ?_⟩
  simp only [body, head, List.append_assoc]

variable (hp : p <+: m.bytes C hashfunc macKey ++ rest)

include hp

theorem take_one (hlen : 1 ≤ p.length) : p.take 1 = m.nonce := by
  obtain ⟨tail, htail⟩ := bytes_append (C := C) (m := m) rest
  rw [htail, checkHead, List.append_assoc] at hp
  have := extract_of_prefix (a := []) (i := 0) (j := 1) hp rfl (by rw [m.length_nonce]) hlen
  simpa using this

/-- The hash of the first byte comes after it. -/
theorem extract_one {k : ℕ} (hk : k ≤ 7) (hlen : k ≤ p.length) (hone : 1 ≤ k) :
    (C.hmac hashfunc macKey m.nonce).take (k - 1) = p.extract 1 k := by
  obtain ⟨tail, htail⟩ := bytes_append (C := C) (m := m) rest
  obtain ⟨fut, hfut⟩ := hp
  rw [← extract_append_left (r := fut) hlen, hfut, htail, checkHead, List.append_assoc,
    List.extract_eq_take_drop, List.drop_left' m.length_nonce,
    List.take_append_of_le_length (by rw [length_mac C hashfunc (by decide)]; omega),
    List.take_take, min_eq_left (by omega)]

theorem extract_sealed (hlen : 27 ≤ p.length) : p.extract 7 27 = m.sealed C hashfunc := by
  obtain ⟨tail, htail⟩ := bytes_append (C := C) (m := m) rest
  rw [htail] at hp
  exact extract_of_prefix hp (length_checkHead ..) (by rw [length_sealed]) hlen

theorem extract_signature (hlen : 31 ≤ p.length) :
    p.extract 27 31 = (C.hmac hashfunc macKey (m.sealed C hashfunc)).take 4 := by
  obtain ⟨tail, htail⟩ := bytes_append (C := C) (m := m) rest
  rw [htail, ← List.append_assoc] at hp
  exact extract_of_prefix hp (by rw [List.length_append, length_checkHead, length_sealed])
    (by rw [length_mac C hashfunc (by decide)]) hlen

theorem extract_uid (hlen : 11 ≤ p.length) : p.extract 7 11 = m.uid := by
  obtain ⟨tail, htail⟩ := bytes_append (C := C) (m := m) rest
  rw [htail] at hp
  generalize (C.hmac hashfunc macKey (m.sealed C hashfunc)).take 4 ++ tail = tail' at hp
  rw [sealed, List.append_assoc] at hp
  exact extract_of_prefix hp (length_checkHead ..) (by rw [m.length_uid]) hlen

theorem extract_block (hlen : 27 ≤ p.length) : p.extract 11 27 =
    Encryptor.encryptBlock C (b64encode m.userKey ++ salt hashfunc) m.plain := by
  obtain ⟨tail, htail⟩ := bytes_append (C := C) (m := m) rest
  rw [htail] at hp
  generalize (C.hmac hashfunc macKey (m.sealed C hashfunc)).take 4 ++ tail = tail' at hp
  rw [sealed, List.append_assoc, ← List.append_assoc] at hp
  exact extract_of_prefix hp (by rw [List.length_append, length_checkHead, m.length_uid])
    (by rw [Encryptor.length_encryptBlock m.length_plain]) hlen

omit hp

/-- The numbers at the end of the decrypted head. -/
theorem headLength_plain : headLength m.plain = m.size ∧ headRndLen m.plain = m.random.length := by
  have hlt := m.length_lt
  have hsize : m.size < 256 ^ 2 := by
    rw [size]
    omega
  constructor
  · rw [headLength, plain, extract_append_append m.length_authData (by rw [length_packLE]),
      unpackLE_packLE hsize]
  · have hlast := extract_append_append (a := m.authData ++ packLE 2 m.size)
      (b := packLE 2 m.random.length) (c := []) (i := 14) (j := 16)
      (by rw [List.length_append, m.length_authData, length_packLE]) (by rw [length_packLE])
    rw [List.append_nil] at hlast
    rw [headRndLen, plain, hlast, unpackLE_packLE (by omega)]

/-- The checksum of a whole message, and the bytes that it carries. -/
theorem extract_first : (m.bytes C hashfunc macKey ++ rest).take (m.size - 4) =
      m.body C hashfunc macKey ∧
    (m.bytes C hashfunc macKey ++ rest).extract (m.size - 4) m.size =
      (C.hmac hashfunc m.userKey (m.body C hashfunc macKey)).take 4 ∧
    (m.bytes C hashfunc macKey ++ rest).extract (31 + m.random.length) (m.size - 4) = m.first := by
  have hbody := length_body C hashfunc macKey m
  have hsize : 35 ≤ m.size := by
    rw [size]
    omega
  refine ⟨?_, ?_, ?_⟩
  · rw [bytes, List.append_assoc, List.take_left' hbody]
  · rw [bytes]
    refine extract_append_append hbody ?_
    rw [length_mac C hashfunc (by decide)]
    omega
  · rw [bytes]
    generalize (C.hmac hashfunc m.userKey (m.body C hashfunc macKey)).take 4 = sum
    rw [body, ← List.append_assoc, List.append_assoc]
    refine extract_append_append ?_ ?_
    · rw [List.length_append, length_head]
    · rw [size]
      omega

end Message

/-! ## The client -/

/-- The user table, with the key of the server, gives this key for this user id: of a user in the
    table, or without users the key of the server. -/
def Knows (C : Crypto) (hashfunc : HashFunc) (users : Dict Bytes Bytes) (key uid userKey : Bytes)
    (userId : Option Bytes) : Prop :=
  (∃ password, users.get? uid = some password ∧ userKey = C.hash hashfunc password ∧
    userId = some uid) ∨
  users.size = 0 ∧ userKey = key ∧ userId = none

variable {C : Crypto} {users : Dict Bytes Bytes}

namespace Sender

variable {s : Sender}

theorem credentials_of_registered (h : Registered users s.serverInfo) (hkey : s.userKey = none)
    (rng : Rng) : (s.credentials C rng).1.length = 4 ∧
      Knows C s.hashfunc users s.serverInfo.key (s.credentials C rng).1 (s.credentials C rng).2.1
        (paramUserId s.serverInfo.protocolParam) := by
  rcases h with ⟨hmem, uid, hu, hget⟩ | ⟨hmem, hsize⟩
  · rw [credentials, paramUserId, if_pos hmem]
    dsimp only
    rw [if_pos hmem]
    dsimp only
    rw [hu]
    exact ⟨AuthBase.length_paramUid hu, .inl ⟨_, hget, rfl, rfl⟩⟩
  · rw [credentials, paramUserId, if_neg hmem]
    dsimp only
    rw [if_neg hmem]
    exact ⟨length_randBytes _ _, .inr ⟨hsize, by rw [hkey]; rfl, rfl⟩⟩

theorem rndLen_lt (bufSize : ℕ) (rng : Rng) : (rndLen bufSize rng).1 < 1024 := by
  rw [rndLen]
  dsimp only
  split_ifs <;> omega

/-- The message of a client. -/
theorem packAuthData_spec (h : Registered users s.serverInfo) (hkey : s.userKey = none)
    {authData first : Bytes} (hauth : authData.length = 12) (hne : first ≠ [])
    (hfirst : first.length ≤ 400) :
    ∃ (m : Message) (rng : Rng), s.packAuthData C authData first =
        .ok (m.bytes C s.hashfunc (s.serverInfo.iv ++ s.serverInfo.key),
          { s with rng, userKey := some m.userKey }) ∧
      m.authData = authData ∧ m.first = first ∧
      Knows C s.hashfunc users s.serverInfo.key m.uid m.userKey
        (paramUserId s.serverInfo.protocolParam) := by
  have hlt := rndLen_lt first.length s.rng
  obtain ⟨⟨n, rng₁⟩, hn⟩ : ∃ r, rndLen first.length s.rng = r := ⟨_, rfl⟩
  rw [hn] at hlt
  dsimp only at hlt
  obtain ⟨huid, hknows⟩ := credentials_of_registered (C := C) h hkey rng₁
  obtain ⟨⟨uid, userKey, rng₂⟩, hcred⟩ : ∃ r, s.credentials C rng₁ = r := ⟨_, rfl⟩
  rw [hcred] at huid hknows
  dsimp only at huid hknows
  obtain ⟨rng₃, hrng₃⟩ : ∃ rng₃, (Encryptor.new C (b64encode userKey ++ salt s.hashfunc) .aes128Cbc
    (some (List.replicate 16 0)) rng₂).2 = rng₃ := ⟨_, rfl⟩
  have hrandom := length_randBytes n (randBytes 1 rng₃).2
  refine ⟨⟨(randBytes 1 rng₃).1, uid, userKey, authData, (randBytes n (randBytes 1 rng₃).2).1, first,
    length_randBytes _ _, huid, hauth, by omega⟩, (randBytes n (randBytes 1 rng₃).2).2, ?_, rfl, rfl,
    hknows⟩
  have hsize : 7 + 4 + 16 + 4 + first.length + n + 4 = 35 + first.length + n := by omega
  have hpack : pack 2 (35 + first.length + n) = .ok (packLE 2 (35 + first.length + n)) :=
    pack_of_lt (by omega)
  have hpack' : pack 2 n = .ok (packLE 2 n) := pack_of_lt (by omega)
  have hplain : (authData ++ packLE 2 (35 + first.length + n) ++ packLE 2 n).length = 16 := by
    simp [hauth]
  rw [packAuthData, if_neg (by rw [List.length_eq_zero_iff]; exact hne), hn]
  dsimp only
  rw [hsize, hpack, hpack', hcred]
  simp only [bind, Except.bind]
  rw [Encryptor.drop_encrypt_new hplain, hrng₃]
  simp only [pure, Except.pure, mac, Message.bytes, Message.body, Message.head, Message.checkHead,
    Message.sealed, Message.plain, Message.size, hrandom, List.append_assoc]

end Sender

/-! ## The server -/

/-- A server that has received the part `p` of a message, and will know the client as `userId`. -/
structure Waits (hashfunc : HashFunc) (key iv : Bytes) (userId : Option Bytes) (p : Bytes)
    (s : AuthAes128) : Prop where
  rawTrans : s.rawTrans = false
  hasRecvHeader : s.hasRecvHeader = false
  hashfunc_eq : s.hashfunc = hashfunc
  key_eq : s.serverInfo.key = key
  recvIv : s.serverInfo.recvIv = iv
  recvBuf : s.recvBuf = p
  recvId : s.recvId = 1
  /-- The server may have read the head before. -/
  userId : s.userId = none ∨ s.userId = userId

/-- The server accepts a message now: its timestamp is in the window, and the shared data accepts
    its ids. -/
def Accepts (now : Time) (data : ObfsAuthMuData) (userId : Option Bytes) (clock : Time)
    (localData : LocalData) : Prop :=
  InWindow now clock.uint32.toNat ∧ ∃ data', data.insert now userId
    (unpackLE localData.localClientId) localData.connectionId = some (true, data')

variable {hashfunc : HashFunc} {key iv p : Bytes} {userId : Option Bytes} {m : Message}
  {s : AuthAes128}

theorem not_headMismatch (hs : Waits hashfunc key iv userId p s) {rest : Bytes}
    (hp : p <+: m.bytes C hashfunc (iv ++ key) ++ rest) : ¬s.HeadMismatch C := by
  obtain ⟨-, -, rfl, rfl, rfl, rfl, -, -⟩ := hs
  rintro ⟨hlen, hne⟩
  refine hne ?_
  rw [macKey, m.take_one hp (by omega)]
  exact m.extract_one hp (by omega) (by omega) (by omega)

theorem headSigned (hs : Waits hashfunc key iv userId p s) {rest : Bytes}
    (hp : p <+: m.bytes C hashfunc (iv ++ key) ++ rest) (hlen : 31 ≤ p.length) :
    s.HeadSigned C := by
  obtain ⟨-, -, rfl, rfl, rfl, rfl, -, -⟩ := hs
  rw [HeadSigned, macKey, m.extract_sealed hp (by omega), m.extract_signature hp hlen]

/-- The key, the user id and the decrypted head that the server finds. -/
theorem headKey_eq (hs : Waits hashfunc key iv userId p s) {rest : Bytes}
    (hp : p <+: m.bytes C hashfunc (iv ++ key) ++ rest) (hlen : 31 ≤ p.length)
    (hknows : Knows C hashfunc users key m.uid m.userKey userId) :
    s.headKey C users = m.userKey ∧ s.keptUserId users = userId ∧
      s.headPlain C m.userKey = m.plain := by
  obtain ⟨-, -, rfl, rfl, rfl, rfl, -, huserId⟩ := hs
  have huid : s.headUid = m.uid := m.extract_uid hp (by omega)
  refine ⟨?_, ?_, ?_⟩
  · rw [headKey, huid]
    rcases hknows with ⟨password, hget, hkey, -⟩ | ⟨hsize, hkey, -⟩
    · rw [hget, hkey]
      rfl
    · rw [Dict.get?_of_size_eq_zero hsize, hkey, if_pos hsize]
      rfl
  · rw [keptUserId, huid]
    rcases hknows with ⟨password, hget, -, hid⟩ | ⟨hsize, -, hid⟩
    · rw [hget, hid]
      rfl
    · rw [Dict.get?_of_size_eq_zero hsize, hid]
      rw [hid] at huserId
      exact huserId.elim id id
  · rw [headPlain, m.extract_block hp (by omega),
      Encryptor.decryptBlock_encryptBlock m.length_plain]

/-- A server waits for the rest of a message. -/
theorem recvMessage_incomplete (now : Time) (data : ObfsAuthMuData)
    (hknows : Knows C hashfunc users key m.uid m.userKey userId)
    (hs : Waits hashfunc key iv userId p s) (hp : p <+: m.bytes C hashfunc (iv ++ key))
    (hne : p ≠ m.bytes C hashfunc (iv ++ key)) : ∃ s',
      recvMessage C now users data s = (.error (.ok ([], false)), s', data) ∧
      Waits hashfunc key iv userId p s' := by
  have hp' : p <+: m.bytes C hashfunc (iv ++ key) ++ [] := by rw [List.append_nil]; exact hp
  have hhead := not_headMismatch hs hp'
  by_cases hlen : 31 ≤ p.length
  · obtain ⟨hkey, hid, hplain⟩ := headKey_eq hs hp' hlen hknows
    obtain ⟨calls, rng, hopen⟩ := openHead_eq users hhead (by rw [hs.recvBuf]; exact hlen)
      (headSigned hs hp' hlen)
    have hlt : p.length < (m.bytes C hashfunc (iv ++ key)).length :=
      hp.length_le.lt_of_ne fun heq => hne (hp.eq_of_length heq)
    rw [Message.length_bytes] at hlt
    rw [hkey, hplain, m.headLength_plain.1, if_pos (by rw [hs.recvBuf]; exact hlt), hid] at hopen
    refine ⟨{ s with
      userId := userId
      userKey := some m.userKey
      updateUserCalls := calls
      rng := rng }, ?_, hs.rawTrans, hs.hasRecvHeader, hs.hashfunc_eq, hs.key_eq, hs.recvIv,
      hs.recvBuf, hs.recvId, .inr rfl⟩
    rw [recvMessage, hopen]
  · refine ⟨s, ?_, hs⟩
    rw [recvMessage, openHead, if_neg hhead, if_pos (by rw [hs.recvBuf]; omega)]

/-- A server accepts a whole message, with more bytes after it. -/
theorem recvMessage_complete {now clock : Time} {data : ObfsAuthMuData} {localData : LocalData}
    {rest : Bytes} (hknows : Knows C hashfunc users key m.uid m.userKey userId)
    (hs : Waits hashfunc key iv userId (m.bytes C hashfunc (iv ++ key) ++ rest) s)
    (hauth : m.authData = packLE 4 clock.uint32.toNat ++ localData.localClientId ++
      packLE 4 localData.connectionId)
    (hid : localData.localClientId.length = 4) (hconn : localData.connectionId < 2 ^ 32)
    (hacc : Accepts now data userId clock localData) :
    ∃ s' data', recvMessage C now users data s = (.ok (m.first, true), s', data') ∧
      s'.recvBuf = rest ∧ s'.hasRecvHeader = true ∧ s'.rawTrans = false ∧ s'.recvId = 1 ∧
      s'.hashfunc = hashfunc ∧ s'.userKey = some m.userKey := by
  obtain ⟨hwin, data', hins⟩ := hacc
  have hlen : 31 ≤ (m.bytes C hashfunc (iv ++ key) ++ rest).length := by
    rw [List.length_append, Message.length_bytes, Message.size]
    omega
  obtain ⟨hkey, hkept, hplain⟩ := headKey_eq hs List.prefix_rfl hlen hknows
  obtain ⟨calls, rng, hopen⟩ := openHead_eq users (not_headMismatch hs List.prefix_rfl)
    (by rw [hs.recvBuf]; exact hlen) (headSigned hs List.prefix_rfl hlen)
  rw [hkey, hplain, m.headLength_plain.1, if_neg (by
    rw [hs.recvBuf, List.length_append, Message.length_bytes]; omega), hkept] at hopen
  obtain ⟨hp₁, hp₂, hp₃⟩ := AuthBase.plain_head clock.uint32_lt hid hconn
    (show m.plain = _ by rw [Message.plain, hauth, List.append_assoc])
  obtain ⟨hbody, hsum, hfirst⟩ :=
    m.extract_first (C := C)
  have hsub : ((m.size : ℤ) - 4) = ((m.size - 4 : ℕ) : ℤ) := by
    rw [Message.size]
    omega
  have hrnd : (31 : ℤ) + (m.random.length : ℕ) = ((31 + m.random.length : ℕ) : ℤ) := by
    omega
  have hchecksum : ChecksumOk C { s with
      userId := userId
      userKey := some m.userKey
      updateUserCalls := calls
      rng := rng } m.userKey m.plain := by
    rw [ChecksumOk]
    dsimp only
    rw [m.headLength_plain.1, hsub, takeTo_natCast, slice_natCast, hs.recvBuf, hs.hashfunc_eq,
      hbody, hsum]
  refine ⟨{ s with
    userId := userId
    userKey := some m.userKey
    updateUserCalls := calls
    rng := rng
    clientId := unpackLE localData.localClientId
    connectionId := localData.connectionId
    recvBuf := rest
    hasRecvHeader := true }, data', ?_, rfl, rfl, hs.rawTrans, hs.recvId, hs.hashfunc_eq, rfl⟩
  rw [recvMessage, hopen]
  dsimp only [acceptHeader]
  rw [if_neg (not_not.2 hchecksum), hp₁, hp₂, hp₃, if_pos hwin, hins]
  dsimp only
  rw [m.headLength_plain.1, m.headLength_plain.2, hsub, hrnd, slice_natCast, hs.recvBuf, hfirst,
    List.drop_left' (Message.length_bytes ..)]

end AuthAes128

end ShadowsocksR

import ShadowsocksR.AuthBase
import ShadowsocksR.Lib.Framing

/-!
# The protocol objects of auth_aes128

The server's side of the class `auth_aes128_sha1`, which is used with the hash
functions `sha1` and `md5`. A connection begins with a message of the client
that carries its first bytes: a head of 31 bytes (`openHead`), of which the
decrypted part says how long the message is, and a checksum of all of it
(`acceptHeader`). Frames follow (`serverRecvBody`).
-/

namespace ShadowsocksR

/-- The fields of `auth_aes128_sha1` that a server uses. -/
structure AuthAes128 where
  hashfunc : HashFunc
  serverInfo : ServerInfo
  /-- `self.method == self.no_compatible_method` -/
  noCompatible : Bool := true
  rng : Rng
  recvBuf : Bytes := []
  rawTrans : Bool := false
  hasRecvHeader : Bool := false
  clientId : ℕ := 0
  connectionId : ℕ := 0
  extraWaitSize : ℕ
  recvId : ℕ := 1
  userId : Option Bytes := none
  userKey : Option Bytes := none
  overhead : ℕ := 9
  /-- The calls of `server_info.update_user_func`. -/
  updateUserCalls : List Bytes := []

namespace AuthAes128

open AuthBase (Result)

/-- `self.salt`: `b"auth_aes128_md5"` or `b"auth_aes128_sha1"`. -/
def salt : HashFunc → Bytes
  | .md5 => [97, 117, 116, 104, 95, 97, 101, 115, 49, 50, 56, 95, 109, 100, 53]
  | .sha1 => [97, 117, 116, 104, 95, 97, 101, 115, 49, 50, 56, 95, 115, 104, 97, 49]

/-- `__init__` and `set_server_info` -/
def new (hashfunc : HashFunc) (noCompatible : Bool) (serverInfo : ServerInfo) (rng : Rng) :
    AuthAes128 :=
  let (bytes, rng) := randBytes 2 rng
  { hashfunc, serverInfo, noCompatible, rng, extraWaitSize := unpackLE bytes.reverse % 1024 }

variable (C : Crypto)

/-- `not_match_return` -/
def notMatchReturn (s : AuthAes128) (buf : Bytes) : Result × AuthAes128 :=
  (.ok (if s.noCompatible then List.replicate 2048 69 else buf, false),
    { s with rawTrans := true, overhead := 0 })

/-! ## The head -/

/-- The key of the checks that are made before the user is known. -/
def macKey (s : AuthAes128) : Bytes := s.serverInfo.recvIv ++ s.serverInfo.key

/-- The first check of the head, which is made when there are enough bytes, and for two shorter
    lengths: whether it fails. -/
def HeadMismatch (s : AuthAes128) : Prop :=
  (s.recvBuf.length ≥ 7 ∨ s.recvBuf.length = 2 ∨ s.recvBuf.length = 3) ∧
    (C.hmac s.hashfunc s.macKey (s.recvBuf.take 1)).take (min s.recvBuf.length 7 - 1) ≠
      s.recvBuf.extract 1 (min s.recvBuf.length 7)

instance (s : AuthAes128) : Decidable (s.HeadMismatch C) := inferInstanceAs (Decidable (_ ∧ _))

/-- The user id and the encrypted part of the head have the signature that comes after them. -/
def HeadSigned (s : AuthAes128) : Prop :=
  (C.hmac s.hashfunc s.macKey (s.recvBuf.extract 7 27)).take 4 = s.recvBuf.extract 27 31

instance (s : AuthAes128) : Decidable (s.HeadSigned C) := inferInstanceAs (Decidable (_ = _))

/-- The user id in the head. -/
def headUid (s : AuthAes128) : Bytes := s.recvBuf.extract 7 11

/-- The key of a user: of one that is not in the table, the key of the server, or its iv when there
    are users. -/
def lookupUser (users : Dict Bytes Bytes) (s : AuthAes128) : Bytes × AuthAes128 :=
  match users.get? s.headUid with
  | some password =>
    let userKey := C.hash s.hashfunc password
    (userKey, { s with
      userId := some s.headUid
      userKey := some userKey
      updateUserCalls := s.updateUserCalls ++ [s.headUid] })
  | none =>
    let userKey := if users.size = 0 then s.serverInfo.key else s.serverInfo.recvIv
    (userKey, { s with userKey := some userKey })

/-- The decryption of the head. -/
def decryptHead (s : AuthAes128) (userKey : Bytes) : Bytes × AuthAes128 :=
  let (encryptor, rng) :=
    Encryptor.new C (b64encode userKey ++ salt s.hashfunc) .aes128Cbc none s.rng
  ((encryptor.decrypt C (List.replicate 16 0 ++ s.recvBuf.extract 11 27 ++ [0])).1, { s with rng })

/-- `length` and `rnd_len` in a decrypted head. -/
def headLength (head : Bytes) : ℕ := unpackLE (head.extract 12 14)

def headRndLen (head : Bytes) : ℕ := unpackLE (head.extract 14 16)

/-- The part of `server_post_decrypt` up to the decryption of the head: the key of the user and
    the decrypted head, or what is returned. -/
def openHead (users : Dict Bytes Bytes) (s : AuthAes128) :
    Except Result (Bytes × Bytes) × AuthAes128 :=
  if s.HeadMismatch C then
    let (r, s) := s.notMatchReturn s.recvBuf
    (.error r, s)
  else if s.recvBuf.length < 31 then (.error (.ok ([], false)), s)
  else if ¬s.HeadSigned C then
    if s.recvBuf.length < 31 + s.extraWaitSize then (.error (.ok ([], false)), s)
    else
      let (r, s) := s.notMatchReturn s.recvBuf
      (.error r, s)
  else
    let (userKey, s) := s.lookupUser C users
    let (head, s) := s.decryptHead C userKey
    if s.recvBuf.length < headLength head then (.error (.ok ([], false)), s)
    else (.ok (userKey, head), s)

/-! ## The message -/

/-- The message has the checksum at its end. -/
def ChecksumOk (s : AuthAes128) (userKey head : Bytes) : Prop :=
  let length : ℤ := headLength head
  (C.hmac s.hashfunc userKey (takeTo (length - 4) s.recvBuf)).take 4 =
    slice (length - 4) length s.recvBuf

instance (s : AuthAes128) (userKey head : Bytes) : Decidable (s.ChecksumOk C userKey head) :=
  inferInstanceAs (Decidable (_ = _))

/-- The part of `server_post_decrypt` that checks the message: what it carries and whether to send
    back, or what is returned. -/
def acceptHeader (now : Time) (data : ObfsAuthMuData) (userKey head : Bytes) (s : AuthAes128) :
    Except Result (Bytes × Bool) × AuthAes128 × ObfsAuthMuData :=
  let length : ℤ := headLength head
  let clientId := unpackLE (head.extract 4 8)
  let connectionId := unpackLE (head.extract 8 12)
  if ¬s.ChecksumOk C userKey head then
    let (r, s) := s.notMatchReturn s.recvBuf
    (.error r, s, data)
  else if InWindow now (unpackLE (head.take 4)) then
    match data.insert now s.userId clientId connectionId with
    | some (true, data) =>
      (.ok (slice (31 + headRndLen head) (length - 4) s.recvBuf, true),
        { s with
          clientId := clientId
          connectionId := connectionId
          recvBuf := s.recvBuf.drop (headLength head)
          hasRecvHeader := true },
        data)
    | some (false, data) =>
      let (r, s) := s.notMatchReturn s.recvBuf
      (.error r, s, data)
    | none => (.error (.error .keyError), s, data)
  else
    let (r, s) := s.notMatchReturn s.recvBuf
    (.error r, s, data)

/-- The part of `server_post_decrypt` that receives the first message. -/
def recvMessage (now : Time) (users : Dict Bytes Bytes) (data : ObfsAuthMuData) (s : AuthAes128) :
    Except Result (Bytes × Bool) × AuthAes128 × ObfsAuthMuData :=
  match s.openHead C users with
  | (.error r, s) => (.error r, s, data)
  | (.ok (userKey, head), s) => s.acceptHeader C now data userKey head

/-! ## Frames -/

/-- The state of the loop over `recv_buf`. -/
structure Recv where
  obj : AuthAes128
  outBuf : Bytes := []
  sendback : Bool := false

/-- How the loop is left at a bad frame. -/
def badFrame (t : Recv) (s : AuthAes128) : Next Recv Result :=
  .fail (if s.recvId = 0 then .ok (List.replicate 2048 69, false) else .error .exception)
    { t with obj := { s with rawTrans := true } }

/-- Where the data of the frame at the front of the buffer begins. -/
def dataPos (buf : Bytes) : ℕ :=
  let pos := unpackLE (buf.extract 4 5)
  if pos < 255 then pos + 4 else unpackLE (buf.extract 5 7) + 4

/-- One turn of the loop in `server_post_decrypt`. -/
def serverRecvBody (t : Recv) : Next Recv Result :=
  let s := t.obj
  if s.recvBuf.length > 4 then
    match s.userKey with
    | none => .fail (.error .typeError) t
    | some userKey =>
      let macKey := userKey ++ packLE 4 s.recvId
      if (C.hmac s.hashfunc macKey (s.recvBuf.take 2)).take 2 ≠ s.recvBuf.extract 2 4 then
        badFrame t s
      else
        let length := unpackLE (s.recvBuf.take 2)
        if length ≥ 8192 ∨ length < 7 then badFrame t { s with recvBuf := [] }
        else if length > s.recvBuf.length then .done t
        else if (C.hmac s.hashfunc macKey (s.recvBuf.take (length - 4))).take 4 ≠
            s.recvBuf.extract (length - 4) length then badFrame t { s with recvBuf := [] }
        else
          let pos := dataPos s.recvBuf
          .more
            { obj := { s with
                recvId := (s.recvId + 1) % 2 ^ 32
                recvBuf := s.recvBuf.drop length }
              outBuf := t.outBuf ++ s.recvBuf.extract pos (length - 4)
              sendback := t.sendback || pos == length - 4 }
  else .done t

variable {C}

theorem serverRecvBody_shortens {t t' : Recv} (h : serverRecvBody C t = .more t') :
    t'.obj.recvBuf.length < t.obj.recvBuf.length := by
  rw [serverRecvBody] at h
  dsimp only at h
  split at h
  · split at h
    · cases h
    · split_ifs at h with h₁ h₂ h₃ h₄
      · cases h
      · cases h
      · cases h
      · cases h
        rw [not_or] at h₂
        simp only [List.length_drop]
        omega
  · cases h

variable (C)

/-- The turns that the loop is given are enough. -/
theorem serverRecv_ends (t t' : Recv) :
    loop (serverRecvBody C) (t.obj.recvBuf.length + 1) t ≠ .more t' :=
  loop_ne_more (m := fun t : Recv => t.obj.recvBuf.length)
    serverRecvBody_shortens _ (Nat.lt_succ_self _) _

/-- The end of `server_post_decrypt`, after the loop. -/
def finishRecv (now : Time) (data : ObfsAuthMuData) (t : Recv) :
    Result × AuthAes128 × ObfsAuthMuData :=
  if t.outBuf ≠ [] then
    match data.update now t.obj.userId t.obj.clientId with
    | none => (.error .keyError, t.obj, data)
    | some data => (.ok (t.outBuf, t.sendback), t.obj, data)
  else (.ok (t.outBuf, t.sendback), t.obj, data)

/-- `server_post_decrypt`; every turn of its loop shortens the buffer. -/
def serverPostDecrypt (now : Time) (users : Dict Bytes Bytes) (data : ObfsAuthMuData)
    (s : AuthAes128) (buf : Bytes) : Result × AuthAes128 × ObfsAuthMuData :=
  if s.rawTrans then (.ok (buf, false), s, data)
  else
    let s := { s with recvBuf := s.recvBuf ++ buf }
    match if s.hasRecvHeader then (.ok ([], false), s, data)
      else s.recvMessage C now users data with
    | (.error r, s, data) => (r, s, data)
    | (.ok (outBuf, sendback), s, data) =>
      match loop (serverRecvBody C) (s.recvBuf.length + 1) { obj := s, outBuf, sendback } with
      | .fail r t => (r, t.obj, data)
      | .done t | .more t => finishRecv now data t

end AuthAes128

end ShadowsocksR

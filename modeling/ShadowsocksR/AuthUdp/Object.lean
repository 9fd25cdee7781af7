import ShadowsocksR.AuthAes128.Object
import ShadowsocksR.AuthAkarin.Object
import ShadowsocksR.AuthChain.Object

/-!
# Datagrams of the protocols

The UDP functions of the classes `auth_chain_a`, `auth_akarin_rand` and
`auth_aes128_sha1`. A datagram carries the id of its user at the end, and is
signed with the key of that user. The classes of auth_chain and auth_akarin
encrypt the bytes and put a random tail after them; they differ in the cipher
(`UdpCipher`).

* `udpCredentials`: the user that a client takes for its datagrams;
* `UdpProtocol`: the functions of a class as one record, for what is said about
  all three.
-/

namespace ShadowsocksR

/-! ## Users -/

/-- `b.split(':')`: the separator is a text, which the byte string does not take. -/
def splitAtText (_ : Bytes) : Except PyExc (List Bytes) := .error .typeError

/-- The `try` of `client_udp_pre_encrypt`: the key and the id of the user that it assigns, of which
    only the key is assigned when the id is no number. -/
def udpNamedUser (hash : Bytes → Bytes) (param : Bytes) : Option (Bytes × Option Bytes) :=
  match splitAtText param with
  | .ok (item₀ :: item₁ :: _) => some (hash item₁, AuthBase.paramUid item₀)
  | .ok _ => none
  -- `except: pass`
  | .error _ => none

/-- The key and the id of the user of a client that has sent no datagram. -/
def udpCredentials (hash : Bytes → Bytes) (info : ServerInfo) (userId : Option Bytes) (rng : Rng) :
    Bytes × Option Bytes × Rng :=
  match if 58 ∈ info.protocolParam then udpNamedUser hash info.protocolParam else none with
  | some (userKey, uid) => (userKey, uid <|> userId, rng)
  | none => let (uid, rng) := randBytes 4 rng; (info.key, some uid, rng)

/-- The key of the user of a datagram, and its id: without an entry in the table, the key of the
    server, or its iv when there are users. -/
def udpLookupUser (users : Dict Bytes Bytes) (info : ServerInfo) (uid : Option Bytes) :
    Bytes × Option Bytes :=
  match uid.bind users.get? with
  | some userKey => (userKey, uid)
  | none => (if users.size = 0 then info.key else info.recvIv, none)

/-- `udp_rnd_data_len` -/
def udpRndDataLen (lastHash : Bytes) : ℕ × Xorshift128plus :=
  let (x, random) := (Xorshift128plus.initFromBin lastHash).next
  (x % 127, random)

/-! ## The chained protocols -/

/-- How a class makes the encryptor of a datagram and uses it: from the key of the user, the hash of
    the random bytes in the datagram and the key of the server. -/
structure UdpCipher where
  encrypt (C : Crypto) (userKey md5data macKey buf : Bytes) (rng : Rng) : Bytes × Rng
  decrypt (C : Crypto) (userKey md5data macKey buf : Bytes) (rng : Rng) : Bytes × Rng

namespace AuthBase

variable (C : Crypto) (cipher : UdpCipher)

/-- The client has a user for its datagrams after this. -/
def udpUser (s : AuthBase) : Bytes × AuthBase :=
  match s.userKey with
  | some userKey => (userKey, s)
  | none =>
    let (userKey, userId, rng) := udpCredentials (C.hash .md5) s.serverInfo s.userId s.rng
    (userKey, { s with userKey := some userKey, userId, rng })

def clientUdpPreEncrypt (s : AuthBase) (buf : Bytes) : Except PyExc Bytes × AuthBase :=
  let (userKey, s) := s.udpUser C
  let (authdata, rng) := randBytes 3 s.rng
  let macKey := s.serverInfo.key
  let md5data := C.hmac .md5 macKey authdata
  match s.userId with
  | none => (.error .typeError, { s with rng })
  | some userId =>
    if userId.length ≠ 4 then (.error .structError, { s with rng })
    else
      let uid := packLE 4 (unpackLE userId ^^^ unpackLE (md5data.take 4))
      let (randLen, randomClient) := udpRndDataLen md5data
      let (outBuf, rng) := cipher.encrypt C userKey md5data macKey buf rng
      let (tail, rng) := randBytes randLen rng
      let buf := outBuf ++ tail ++ authdata ++ uid
      (.ok (buf ++ (C.hmac .md5 userKey buf).take 1), { s with rng, randomClient })

/-- `client_udp_post_decrypt`; where there is no datagram, it returns the pair `(b'', None)`. -/
def clientUdpPostDecrypt (s : AuthBase) (buf : Bytes) : Except PyExc (Option Bytes) × AuthBase :=
  if buf.length ≤ 8 then (.ok none, s)
  else
    match s.userKey with
    | none => (.error .typeError, s)
    | some userKey =>
      if (C.hmac .md5 userKey (takeTo (-1) buf)).take 1 ≠ dropTo (-1) buf then (.ok none, s)
      else
        let macKey := s.serverInfo.key
        let md5data := C.hmac .md5 macKey (slice (-8) (-1) buf)
        let (randLen, randomServer) := udpRndDataLen md5data
        let (out, rng) := cipher.decrypt C userKey md5data macKey (takeTo (-8 - randLen) buf) s.rng
        (.ok (some out), { s with rng, randomServer })

def serverUdpPreEncrypt (users : Dict Bytes Bytes) (s : AuthBase) (buf : Bytes)
    (uid : Option Bytes) : Bytes × AuthBase :=
  let (userKey, _) := udpLookupUser users s.serverInfo uid
  let (authdata, rng) := randBytes 7 s.rng
  let macKey := s.serverInfo.key
  let md5data := C.hmac .md5 macKey authdata
  let (randLen, randomServer) := udpRndDataLen md5data
  let (outBuf, rng) := cipher.encrypt C userKey md5data macKey buf rng
  let (tail, rng) := randBytes randLen rng
  let buf := outBuf ++ tail ++ authdata
  (buf ++ (C.hmac .md5 userKey buf).take 1, { s with rng, randomServer })

def serverUdpPostDecrypt (users : Dict Bytes Bytes) (s : AuthBase) (buf : Bytes) :
    Except PyExc (Bytes × Option Bytes) × AuthBase :=
  let macKey := s.serverInfo.key
  let md5data := C.hmac .md5 macKey (slice (-8) (-5) buf)
  let masked := slice (-5) (-1) buf
  if masked.length ≠ 4 then (.error .structError, s)
  else
    let uid := packLE 4 (unpackLE masked ^^^ unpackLE (md5data.take 4))
    let (userKey, uid) := udpLookupUser users s.serverInfo (some uid)
    if (C.hmac .md5 userKey (takeTo (-1) buf)).take 1 ≠ dropTo (-1) buf then (.ok ([], none), s)
    else
      let (randLen, randomClient) := udpRndDataLen md5data
      let (out, rng) := cipher.decrypt C userKey md5data macKey (takeTo (-8 - randLen) buf) s.rng
      (.ok (out, uid), { s with rng, randomClient })

end AuthBase

/-- The password of the encryptor of a datagram. -/
def udpPassword (userKey md5data : Bytes) : Bytes := b64encode userKey ++ b64encode md5data

namespace AuthChain

def udpCipher : UdpCipher where
  encrypt C userKey md5data _ buf rng :=
    let (encryptor, rng) := Encryptor.new C (udpPassword userKey md5data) .rc4 none rng
    ((encryptor.encrypt C buf).1, rng)
  decrypt C userKey md5data _ buf rng :=
    let (encryptor, rng) := Encryptor.new C (udpPassword userKey md5data) .rc4 none rng
    ((encryptor.decrypt C buf).1, rng)

variable (C : Crypto)

def clientUdpPreEncrypt : AuthBase → Bytes → Except PyExc Bytes × AuthBase :=
  AuthBase.clientUdpPreEncrypt C udpCipher

def clientUdpPostDecrypt : AuthBase → Bytes → Except PyExc (Option Bytes) × AuthBase :=
  AuthBase.clientUdpPostDecrypt C udpCipher

def serverUdpPreEncrypt :
    Dict Bytes Bytes → AuthBase → Bytes → Option Bytes → Bytes × AuthBase :=
  AuthBase.serverUdpPreEncrypt C udpCipher

def serverUdpPostDecrypt :
    Dict Bytes Bytes → AuthBase → Bytes → Except PyExc (Bytes × Option Bytes) × AuthBase :=
  AuthBase.serverUdpPostDecrypt C udpCipher

end AuthChain

namespace AuthAkarin

/-- The iv is the beginning of the key of the server, which the receiver decrypts first. -/
def udpCipher : UdpCipher where
  encrypt C userKey md5data macKey buf rng :=
    let (encryptor, rng) :=
      Encryptor.new C (udpPassword userKey md5data) .chacha20 (some (macKey.take 8)) rng
    let (_, encryptor) := encryptor.encrypt C []
    ((encryptor.encrypt C buf).1, rng)
  decrypt C userKey md5data macKey buf rng :=
    let (encryptor, rng) := Encryptor.new C (udpPassword userKey md5data) .chacha20 none rng
    let (_, encryptor) := encryptor.decrypt C (macKey.take 8)
    ((encryptor.decrypt C buf).1, rng)

variable (C : Crypto)

def clientUdpPreEncrypt : AuthBase → Bytes → Except PyExc Bytes × AuthBase :=
  AuthBase.clientUdpPreEncrypt C udpCipher

def clientUdpPostDecrypt : AuthBase → Bytes → Except PyExc (Option Bytes) × AuthBase :=
  AuthBase.clientUdpPostDecrypt C udpCipher

def serverUdpPreEncrypt :
    Dict Bytes Bytes → AuthBase → Bytes → Option Bytes → Bytes × AuthBase :=
  AuthBase.serverUdpPreEncrypt C udpCipher

def serverUdpPostDecrypt :
    Dict Bytes Bytes → AuthBase → Bytes → Except PyExc (Bytes × Option Bytes) × AuthBase :=
  AuthBase.serverUdpPostDecrypt C udpCipher

end AuthAkarin

/-! ## auth_aes128 -/

namespace AuthAes128

variable (C : Crypto)

/-- The client has a user for its datagrams after this. -/
def udpUser (s : AuthAes128) : Bytes × AuthAes128 :=
  match s.userKey with
  | some userKey => (userKey, s)
  | none =>
    let (userKey, userId, rng) := udpCredentials (C.hash s.hashfunc) s.serverInfo s.userId s.rng
    (userKey, { s with userKey := some userKey, userId, rng })

def clientUdpPreEncrypt (s : AuthAes128) (buf : Bytes) : Except PyExc Bytes × AuthAes128 :=
  let (userKey, s) := s.udpUser C
  match s.userId with
  | none => (.error .typeError, s)
  | some userId =>
    let buf := buf ++ userId
    (.ok (buf ++ (C.hmac s.hashfunc userKey buf).take 4), s)

def clientUdpPostDecrypt (s : AuthAes128) (buf : Bytes) : Bytes :=
  if (C.hmac s.hashfunc s.serverInfo.key (takeTo (-4) buf)).take 4 ≠ dropTo (-4) buf then []
  else takeTo (-4) buf

def serverUdpPreEncrypt (s : AuthAes128) (buf : Bytes) : Bytes :=
  buf ++ (C.hmac s.hashfunc s.serverInfo.key buf).take 4

/-- The key of the user of a datagram, and its id: without an entry in the table, the key of the
    server, or its iv when there are users. -/
def udpLookupUser (users : Dict Bytes Bytes) (s : AuthAes128) (uid : Bytes) :
    Bytes × Option Bytes :=
  match users.get? uid with
  | some password => (C.hash s.hashfunc password, some uid)
  | none => (if users.size = 0 then s.serverInfo.key else s.serverInfo.recvIv, none)

def serverUdpPostDecrypt (users : Dict Bytes Bytes) (s : AuthAes128) (buf : Bytes) :
    Bytes × Option Bytes :=
  let (userKey, uid) := s.udpLookupUser C users (slice (-8) (-4) buf)
  if (C.hmac s.hashfunc userKey (takeTo (-4) buf)).take 4 ≠ dropTo (-4) buf then ([], none)
  else (takeTo (-8) buf, uid)

end AuthAes128

/-! ## One record for all -/

/-- The UDP functions of a class; where the client finds no datagram, it returns `none`. -/
structure UdpProtocol (σ : Type) where
  /-- The new objects, after `set_server_info`. -/
  New : ServerInfo → σ → Prop
  clientUdpPreEncrypt : σ → Bytes → Except PyExc Bytes × σ
  clientUdpPostDecrypt : σ → Bytes → Except PyExc (Option Bytes) × σ
  serverUdpPreEncrypt : Dict Bytes Bytes → σ → Bytes → Option Bytes → Bytes × σ
  serverUdpPostDecrypt : Dict Bytes Bytes → σ → Bytes → Except PyExc (Bytes × Option Bytes) × σ

/-- The class `auth_chain_a`, whose UDP functions use the fields of `AuthBase`. -/
def AuthChain.udpProtocol (C : Crypto) : UdpProtocol AuthBase where
  New info s := ∃ noCompatible localData rng,
    s = (AuthChain.new .a noCompatible info localData rng).toAuthBase
  clientUdpPreEncrypt := clientUdpPreEncrypt C
  clientUdpPostDecrypt := clientUdpPostDecrypt C
  serverUdpPreEncrypt := serverUdpPreEncrypt C
  serverUdpPostDecrypt := serverUdpPostDecrypt C

/-- The class `auth_akarin_rand`. -/
def AuthAkarin.udpProtocol (C : Crypto) : UdpProtocol AuthBase where
  New info s := ∃ noCompatible localData rng,
    s = (AuthAkarin.new noCompatible info localData rng).toAuthBase
  clientUdpPreEncrypt := clientUdpPreEncrypt C
  clientUdpPostDecrypt := clientUdpPostDecrypt C
  serverUdpPreEncrypt := serverUdpPreEncrypt C
  serverUdpPostDecrypt := serverUdpPostDecrypt C

/-- The class `auth_aes128_sha1`, with either hash function. -/
def AuthAes128.udpProtocol (C : Crypto) (hashfunc : HashFunc) : UdpProtocol AuthAes128 where
  New info s := ∃ noCompatible rng, s = AuthAes128.new hashfunc noCompatible info rng
  clientUdpPreEncrypt := clientUdpPreEncrypt C
  clientUdpPostDecrypt s buf := (.ok (some (s.clientUdpPostDecrypt C buf)), s)
  serverUdpPreEncrypt _ s buf _ := (s.serverUdpPreEncrypt C buf, s)
  serverUdpPostDecrypt users s buf := (.ok (s.serverUdpPostDecrypt C users buf), s)

end ShadowsocksR

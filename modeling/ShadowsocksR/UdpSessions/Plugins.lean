import ShadowsocksR.AuthUdp.RoundTrip

/-!
# The protocol of a UDP relay

A relay has one protocol object for all its datagrams, and sets the iv of every
datagram in the `server_info` of it (`UdpPlugin`).

* `UdpPlugin.Carries`: a server understands the datagrams of clients, and a
  client that has sent one the replies, whatever calls there were before;
* `plain_understood`, `AuthBase.understood`, `AuthAes128.understood`: where
  there are no users, all classes carry datagrams, and `plain` in any case.
-/

namespace ShadowsocksR

/-- The protocol object of a relay: its UDP functions, and `set_server_info`. -/
structure UdpPlugin (π : Type) extends UdpProtocol π where
  serverInfo : π → ServerInfo
  setServerInfo : ServerInfo → π → π

namespace UdpPlugin

variable {π : Type} (U : UdpPlugin π)

/-- `self._protocol.obfs.server_info.iv = iv` -/
def setIv (iv : Bytes) (s : π) : π := U.setServerInfo { U.serverInfo s with iv } s

/-- `self._protocol.obfs.server_info.recv_iv = iv` -/
def setRecvIv (iv : Bytes) (s : π) : π := U.setServerInfo { U.serverInfo s with recvIv := iv } s

/-- With these invariants of the object of a client, of one that has sent a datagram, and of the
    object of a server, which have this key, datagrams are understood. -/
structure Carries (users : Dict Bytes Bytes) (key : Bytes) (Client Ready Server : π → Prop) :
    Prop where
  client_of_ready : ∀ {s}, Ready s → Client s
  key_client : ∀ {s}, Client s → (U.serverInfo s).key = key
  key_server : ∀ {t}, Server t → (U.serverInfo t).key = key
  setIv_client : ∀ {s}, Client s → ∀ iv, Client (U.setIv iv s)
  setRecvIv_ready : ∀ {s}, Ready s → ∀ iv, Ready (U.setRecvIv iv s)
  setIv_server : ∀ {t}, Server t → ∀ iv, Server (U.setIv iv t)
  setRecvIv_server : ∀ {t}, Server t → ∀ iv, Server (U.setRecvIv iv t)
  request : ∀ {s}, Client s → ∀ payload, payload ≠ [] →
    ∃ data s', U.clientUdpPreEncrypt s payload = (.ok data, s') ∧ data ≠ [] ∧ Ready s' ∧
      ∀ {t}, Server t → ∃ t', U.serverUdpPostDecrypt users t data = (.ok (payload, none), t') ∧
        Server t'
  reply : ∀ {t}, Server t → ∀ uid payload, payload ≠ [] →
    ∃ data t', U.serverUdpPreEncrypt users t payload uid = (data, t') ∧ data ≠ [] ∧ Server t' ∧
      ∀ {s}, Ready s → ∃ s', U.clientUdpPostDecrypt s data = (.ok (some payload), s') ∧ Ready s'

/-- New objects with this key understand each other, for ever. -/
def Understood (users : Dict Bytes Bytes) (key : Bytes) : Prop :=
  ∃ Client Ready Server, U.Carries users key Client Ready Server ∧
    ∀ info s, info.key = key → U.New info s → Client s ∧ Server s

end UdpPlugin

/-! ## plain -/

namespace AuthBase

variable {C : Crypto} {U : UdpCipher} {New : ServerInfo → AuthBase → Prop}
  {users : Dict Bytes Bytes} {key : Bytes} {s t : AuthBase}

/-- A protocol with the fields of `AuthBase`. -/
def udpPlugin (P : UdpProtocol AuthBase) : UdpPlugin AuthBase where
  toUdpProtocol := P
  serverInfo s := s.serverInfo
  setServerInfo info s := { s with serverInfo := info }

/-- The object of a client with this key. -/
structure KeyClient (key : Bytes) (s : AuthBase) : Prop where
  client : s.UdpClient s.serverInfo
  key_eq : s.serverInfo.key = key

/-- The object of a client that has sent a datagram under this key. -/
structure KeyReady (key : Bytes) (s : AuthBase) : Prop extends KeyClient key s where
  userKey_eq : s.userKey = some key

theorem udpSigned_ne_nil (C : Crypto) (key body : Bytes) : udpSigned C key body ≠ [] := by
  refine List.ne_nil_of_length_pos ?_
  rw [udpSigned, List.length_append, length_udpMac]
  exact Nat.succ_pos _

/-- With another `server_info` with the same key, it is the object of a client. -/
theorem KeyClient.setServerInfo (hs : s.KeyClient key) {info : ServerInfo}
    (hinfo : info.key = s.serverInfo.key) :
    ({ s with serverInfo := info } : AuthBase).KeyClient key where
  client :=
    { serverInfo_eq := rfl
      user := hs.client.user.imp_right fun h => ⟨h.1.trans (congrArg some hinfo.symm), h.2⟩ }
  key_eq := hinfo.trans hs.key_eq

/-- Receiving keeps the user of a client. -/
theorem KeyReady.clientUdpPostDecrypt (hs : s.KeyReady key) (buf : Bytes) :
    (clientUdpPostDecrypt C U s buf).2.KeyReady key := by
  obtain ⟨hinfo, hkey, huid⟩ := clientUdpPostDecrypt_keeps (C := C) (U := U) s buf
  refine ⟨⟨⟨rfl, ?_⟩, by rw [hinfo, hs.key_eq]⟩, by rw [hkey, hs.userKey_eq]⟩
  rw [hkey, huid, hinfo]
  exact hs.client.user

/-- A server gets the bytes of a datagram. -/
theorem exists_udp_request (hsize : users.size = 0) (hinv : U.Inverts C key)
    (hs : s.KeyClient key) {payload : Bytes} (hne : payload ≠ []) :
    ∃ data s', clientUdpPreEncrypt C U s payload = (.ok data, s') ∧ data ≠ [] ∧ s'.KeyReady key ∧
      ∀ {t : AuthBase}, t.serverInfo.key = key →
        ∃ t', serverUdpPostDecrypt C U users t data = (.ok (payload, none), t') ∧
          t'.serverInfo.key = key := by
  obtain ⟨uid, authdata, tail, rng, s', heq, hlen, -, hauth, htail, hinfo, hkey, huid⟩ :=
    clientUdpPreEncrypt_eq (C := C) (U := U) hs.client payload
  refine ⟨_, s', heq, udpSigned_ne_nil C _ _, ?_, fun {t} ht => ?_⟩
  · rw [← hinfo] at hkey
    exact ⟨⟨⟨rfl, .inr ⟨hkey, uid, huid, hlen⟩⟩, by rw [hinfo, hs.key_eq]⟩,
      by rw [hkey, hinfo, hs.key_eq]⟩
  · rw [hs.key_eq, ← ht] at htail
    obtain ⟨userKey, uid', hlook, hpost⟩ := serverUdpPostDecrypt_eq (U := U) hlen hauth htail users
      (U.encrypt C key (C.hmac .md5 key authdata) key payload rng).1
    rw [udpLookupUser_of_size hsize] at hlook
    cases hlook
    rw [if_neg (not_not.2 rfl), ht, hinv.decrypt_encrypt _ _ _ _ _ hne] at hpost
    rw [hs.key_eq]
    exact ⟨_, Prod.ext hpost rfl, (congrArg ServerInfo.key
      (serverUdpPostDecrypt_serverInfo users t _)).trans ht⟩

/-- A client that has sent a datagram gets the bytes of a reply. -/
theorem exists_udp_reply (hsize : users.size = 0) (hinv : U.Inverts C key)
    (ht : t.serverInfo.key = key) (uid : Option Bytes) {payload : Bytes} (hne : payload ≠ []) :
    ∃ data t', serverUdpPreEncrypt C U users t payload uid = (data, t') ∧ data ≠ [] ∧
      t'.serverInfo.key = key ∧
      ∀ {s : AuthBase}, s.KeyReady key →
        ∃ s', clientUdpPostDecrypt C U s data = (.ok (some payload), s') ∧ s'.KeyReady key := by
  obtain ⟨authdata, tail, rng, hpre, hauth, htail⟩ :=
    serverUdpPreEncrypt_eq (C := C) (U := U) users t payload uid
  rw [udpLookupUser_of_size hsize, ht] at hpre
  refine ⟨_, _, Prod.ext hpre rfl, udpSigned_ne_nil C _ _, ht, fun {s} hs => ?_⟩
  rw [ht, ← hs.key_eq] at htail
  have hpost := clientUdpPostDecrypt_eq (C := C) (U := U) hs.userKey_eq
    (hinv.encrypt_ne_nil key (C.hmac .md5 key authdata) payload rng hne) hauth htail
  rw [hs.key_eq, hinv.decrypt_encrypt _ _ _ _ _ hne] at hpost
  exact ⟨_, Prod.ext hpost rfl, hs.clientUdpPostDecrypt _⟩

theorem understood (hnew : ∀ info s, New info s → s.serverInfo = info ∧ s.userKey = none)
    (hsize : users.size = 0) (hinv : U.Inverts C key) :
    (udpPlugin (udpProtocol C U New)).Understood users key := by
  refine ⟨KeyClient key, KeyReady key, fun t => t.serverInfo.key = key, ?_, ?_⟩
  · exact
      { client_of_ready := fun hs => hs.toKeyClient
        key_client := fun hs => hs.key_eq
        key_server := id
        setIv_client := fun hs _ => hs.setServerInfo rfl
        setRecvIv_ready := fun hs _ => ⟨hs.toKeyClient.setServerInfo rfl, hs.userKey_eq⟩
        setIv_server := fun ht _ => ht
        setRecvIv_server := fun ht _ => ht
        request := fun hs _ hne => exists_udp_request hsize hinv hs hne
        reply := fun ht uid _ hne => exists_udp_reply hsize hinv ht uid hne }
  · intro info s hkey hs
    obtain ⟨rfl, huser⟩ := hnew info s hs
    exact ⟨⟨⟨rfl, .inl huser⟩, hkey⟩, hkey⟩

end AuthBase

/-- The protocol object of auth_chain. -/
def AuthChain.udpPlugin (C : Crypto) : UdpPlugin AuthBase := AuthBase.udpPlugin (udpProtocol C)

theorem AuthChain.understood (C : Crypto) {users : Dict Bytes Bytes} (hsize : users.size = 0)
    (key : Bytes) : (AuthChain.udpPlugin C).Understood users key := by
  refine AuthBase.understood ?_ hsize (AuthChain.udpCipher_inverts C key)
  rintro info s ⟨noCompatible, localData, rng, rfl⟩
  exact ⟨rfl, rfl⟩

/-- The protocol object of auth_akarin. -/
def AuthAkarin.udpPlugin (C : Crypto) : UdpPlugin AuthBase := AuthBase.udpPlugin (udpProtocol C)

theorem AuthAkarin.understood (C : Crypto) {users : Dict Bytes Bytes} (hsize : users.size = 0)
    {key : Bytes} (hkey : 8 ≤ key.length) : (AuthAkarin.udpPlugin C).Understood users key := by
  refine AuthBase.understood ?_ hsize (AuthAkarin.udpCipher_inverts C hkey)
  rintro info s ⟨noCompatible, localData, rng, rfl⟩
  exact ⟨rfl, rfl⟩

/-! ## auth_aes128 -/

namespace AuthAes128

variable {C : Crypto} {hashfunc : HashFunc} {users : Dict Bytes Bytes} {key : Bytes}
  {s t : AuthAes128}

/-- The protocol object of auth_aes128. -/
def udpPlugin (C : Crypto) (hashfunc : HashFunc) : UdpPlugin AuthAes128 where
  toUdpProtocol := udpProtocol C hashfunc
  serverInfo s := s.serverInfo
  setServerInfo info s := { s with serverInfo := info }

/-- The object of a client with this key. -/
structure KeyClient (hashfunc : HashFunc) (key : Bytes) (s : AuthAes128) : Prop where
  client : s.UdpClient hashfunc s.serverInfo
  key_eq : s.serverInfo.key = key

/-- The object of a server with this key. -/
structure KeyServer (hashfunc : HashFunc) (key : Bytes) (t : AuthAes128) : Prop where
  hashfunc_eq : t.hashfunc = hashfunc
  key_eq : t.serverInfo.key = key

theorem udpSigned_ne_nil (C : Crypto) (hashfunc : HashFunc) (key body : Bytes) :
    udpSigned C hashfunc key body ≠ [] := by
  refine List.ne_nil_of_length_pos ?_
  rw [udpSigned, List.length_append, length_udpMac]
  exact Nat.succ_pos _

theorem KeyClient.setServerInfo (hs : s.KeyClient hashfunc key) {info : ServerInfo}
    (hinfo : info.key = s.serverInfo.key) :
    ({ s with serverInfo := info } : AuthAes128).KeyClient hashfunc key where
  client :=
    { hashfunc_eq := hs.client.hashfunc_eq
      serverInfo_eq := rfl
      user := hs.client.user.imp_right fun h => ⟨h.1.trans (congrArg some hinfo.symm), h.2⟩ }
  key_eq := hinfo.trans hs.key_eq

theorem exists_udp_request (hsize : users.size = 0) (hs : s.KeyClient hashfunc key)
    (payload : Bytes) :
    ∃ data s', s.clientUdpPreEncrypt C payload = (.ok data, s') ∧ data ≠ [] ∧
      s'.KeyClient hashfunc key ∧
      ∀ {t : AuthAes128}, t.KeyServer hashfunc key →
        t.serverUdpPostDecrypt C users data = (payload, none) := by
  obtain ⟨uid, s', heq, hlen, -, hs'⟩ := clientUdpPreEncrypt_eq (C := C) hs.client payload
  refine ⟨_, s', heq, udpSigned_ne_nil C _ _ _, ?_, fun {t} ht => ?_⟩
  · have hinfo := hs'.serverInfo_eq
    exact ⟨⟨hs'.hashfunc_eq, rfl, by rw [hinfo]; exact hs'.user⟩, by rw [hinfo, hs.key_eq]⟩
  · have hpost := serverUdpPostDecrypt_eq (C := C) (s := t) hlen s.serverInfo.key payload users
    rw [udpLookupUser_of_size hsize, ht.key_eq, hs.key_eq, if_neg (not_not.2 rfl),
      ht.hashfunc_eq] at hpost
    rw [hs.key_eq]
    exact hpost

theorem exists_udp_reply (ht : t.KeyServer hashfunc key) (payload : Bytes) :
    t.serverUdpPreEncrypt C payload ≠ [] ∧
      ∀ {s : AuthAes128}, s.KeyClient hashfunc key →
        s.clientUdpPostDecrypt C (t.serverUdpPreEncrypt C payload) = payload :=
  ⟨udpSigned_ne_nil C t.hashfunc t.serverInfo.key payload, fun hs =>
    clientUdpPostDecrypt_serverUdpPreEncrypt (ht.hashfunc_eq.trans hs.client.hashfunc_eq.symm)
      (ht.key_eq.trans hs.key_eq.symm) payload⟩

theorem understood (C : Crypto) (hashfunc : HashFunc) (hsize : users.size = 0) (key : Bytes) :
    (udpPlugin C hashfunc).Understood users key := by
  refine ⟨KeyClient hashfunc key, KeyClient hashfunc key, KeyServer hashfunc key, ?_, ?_⟩
  · exact
      { client_of_ready := id
        key_client := fun hs => hs.key_eq
        key_server := fun ht => ht.key_eq
        setIv_client := fun hs _ => hs.setServerInfo rfl
        setRecvIv_ready := fun hs _ => hs.setServerInfo rfl
        setIv_server := fun ht _ => ⟨ht.hashfunc_eq, ht.key_eq⟩
        setRecvIv_server := fun ht _ => ⟨ht.hashfunc_eq, ht.key_eq⟩
        request := fun hs payload _ => by
          obtain ⟨data, s', heq, hne, hs', hpost⟩ := exists_udp_request (C := C) hsize hs payload
          exact ⟨data, s', heq, hne, hs',
            fun {t} ht => ⟨t, Prod.ext (congrArg Except.ok (hpost ht)) rfl, ht⟩⟩
        reply := fun {t} ht _ payload _ => by
          obtain ⟨hne, hpost⟩ := exists_udp_reply (C := C) ht payload
          exact ⟨_, t, rfl, hne, ht, fun {s} hs =>
            ⟨s, Prod.ext (congrArg (fun b => Except.ok (some b)) (hpost hs)) rfl, hs⟩⟩ }
  · rintro info s hkey ⟨noCompatible, rng, rfl⟩
    exact ⟨⟨⟨rfl, rfl, .inl rfl⟩, hkey⟩, ⟨rfl, hkey⟩⟩

end AuthAes128

end ShadowsocksR

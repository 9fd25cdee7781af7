import ShadowsocksR.Header
import ShadowsocksR.Lib.Run
import ShadowsocksR.LruCache
import Mathlib.Data.Finset.Basic

/-!
# The UDP relay

The server side of `udprelay.UDPRelay`: a datagram of a client names its
destination in a header, and is sent on from a socket of the client, which is
made for its first datagram and kept in a cache by the address of the client
(`handleServerDnsResolved`).

Where a datagram goes is compared with the forbidden addresses when the socket
is made only:

* `sent_handleServerDnsResolved`: where a call can send to;
* `step_cases`: what an event does, as far as sending is concerned;
* `allowedOnly_of_guarded`: in a run in which no client that has a socket names
  a forbidden address, no datagram is sent to one, and a client that does gets
  its datagram sent there.
-/

namespace ShadowsocksR

/-- The configuration of a UDP relay. -/
structure UDPConfig where
  forbiddenIplist : Option IPNetwork := none
  forbiddenPortset : Option (Finset ℕ) := none
  udpCacheSize : ℕ
  udpTimeout : Time

/-- The address is in `forbidden_ip`, or the port in `forbidden_port`. -/
def UDPConfig.forbids (config : UDPConfig) (a : SockAddr) : Bool :=
  config.forbiddenIplist.any (·.contains a.ip) || config.forbiddenPortset.any fun s => a.port ∈ s

/-- `client_key`: the address of a client, and the family of its socket. -/
structure ClientKey where
  rAddr : SockAddr
  af : Family
  deriving DecidableEq

/-- A decrypted datagram of a client, with what its header says. -/
structure UDPRequest where
  data : Bytes
  rAddr : SockAddr
  uid : Option Bytes
  headerLength : ℕ
  destPort : ℕ

/-- What is sent on. -/
def UDPRequest.payload (r : UDPRequest) : Bytes := r.data.drop r.headerLength

/-- What the calls of the system return for a request. -/
structure UDPOutcome where
  /-- `getaddrinfo` -/
  addrs : Except PyExc (List IPAddr)
  /-- The descriptor of a new socket, if there is one. -/
  socket : Option ℕ
  /-- Whether `setblocking` and `_socket_bind_addr` return. -/
  setup : Bool
  /-- Whether the descriptor is registered with the loop. -/
  register : Bool

structure UDPRelay where
  /-- `_cache`: for every client, its socket and its user. -/
  cache : LRUCache ClientKey (ℕ × Option Bytes)
  cacheDnsClient : LRUCache ClientKey (ℕ × Option Bytes)
  clientFdToServerAddr : Dict ℕ ClientKey := .empty
  sockets : Finset ℕ := ∅
  /-- The descriptors of clients that the loop polls. -/
  polled : Finset ℕ := ∅
  closed : Bool := false
  /-- Whether the loop polls the socket of the server. -/
  listening : Bool := true
  /-- The requests whose names the resolver has not answered. -/
  pending : List UDPRequest := []
  /-- Where `sendto` has been called for. -/
  sent : List SockAddr := []

namespace UDPRelay

def new (config : UDPConfig) : UDPRelay where
  cache := { timeout := config.udpTimeout }
  cacheDnsClient := { timeout := 10 }

/-! ## Closing clients -/

/-- `_close_client`. A descriptor without an address has no method `info`. -/
def closeClient (fd : ℕ) (s : UDPRelay) : Except PyExc Unit × UDPRelay :=
  if s.clientFdToServerAddr.contains fd = false then (.error .attributeError, s)
  else if fd ∉ s.sockets then (.error .keyError, s)
  else
    let s := { s with sockets := s.sockets.erase fd }
    if fd ∉ s.polled then (.error .osError, s)
    else (.ok (), { s with
      polled := s.polled.erase fd, clientFdToServerAddr := s.clientFdToServerAddr.del fd })

/-- The caches of clients. -/
inductive Which
  | client
  | dns

def cacheAt (s : UDPRelay) : Which → LRUCache ClientKey (ℕ × Option Bytes)
  | .client => s.cache
  | .dns => s.cacheDnsClient

def setCache (s : UDPRelay) (w : Which) (c : LRUCache ClientKey (ℕ × Option Bytes)) : UDPRelay :=
  match w with
  | .client => { s with cache := c }
  | .dns => { s with cacheDnsClient := c }

/-- The loop of `LRUCache.clear`, which closes a client before it deletes it. -/
def clearLoop (w : Which) (keep : ℕ) : ℕ → UDPRelay → Except PyExc Unit × UDPRelay
  | 0, s => (.ok (), s)
  | cnt + 1, s =>
    if (s.cacheAt w).len > keep then
      match (s.cacheAt w).first? with
      | none => (.ok (), s)
      | some key =>
        match (s.cacheAt w).value? key with
        | none => (.error .keyError, s)
        | some (fd, _) =>
          match s.closeClient fd with
          | (.error e, s) => (.error e, s)
          | (.ok (), s) =>
            match (s.cacheAt w).delItem key with
            | none => (.error .keyError, s)
            | some c => clearLoop w keep cnt (s.setCache w c)
    else (.ok (), s)

def clear (w : Which) (keep : ℕ) (s : UDPRelay) : Except PyExc Unit × UDPRelay :=
  clearLoop w keep (s.cacheAt w).len s

/-- The loop of `LRUCache.sweep`, which closes a client after it has deleted it. -/
def sweepLoop (w : Which) (now : Time) : ℕ → UDPRelay → Except PyExc Unit × UDPRelay
  | 0, s => (.ok (), s)
  | cnt + 1, s =>
    match (s.cacheAt w).first? with
    | none => (.ok (), s)
    | some key =>
      match (s.cacheAt w).keysToLastTime.get? key, (s.cacheAt w).value? key,
          (s.cacheAt w).delItem key with
      | some lastT, some (fd, _), some c =>
        if now - lastT ≤ (s.cacheAt w).timeout then (.ok (), s)
        else
          match (s.setCache w c).closeClient fd with
          | (.error e, s) => (.error e, s)
          | (.ok (), s) => sweepLoop w now cnt s
      | _, _, _ => (.error .keyError, s)

def sweep (w : Which) (now : Time) (s : UDPRelay) : Except PyExc Unit × UDPRelay :=
  sweepLoop w now 1024 s

/-- Two calls, the second of which is not made when the first one raises. -/
def andThen (r : Except PyExc Unit × UDPRelay) (f : UDPRelay → Except PyExc Unit × UDPRelay) :
    Except PyExc Unit × UDPRelay :=
  match r with
  | (.ok (), s) => f s
  | (.error e, s) => (.error e, s)

/-! ## Requests -/

variable (config : UDPConfig)

/-- `client.sendto` -/
def sendTo (a : SockAddr) (s : UDPRelay) : UDPRelay := { s with sent := s.sent ++ [a] }

/-- The end of `_handle_server_dns_resolved`: the caches are cut to their sizes and the header is
    taken off. After an exception it is not, and the datagram is sent all the same. -/
def finishRequest (r : UDPRequest) (a : SockAddr) (s : UDPRelay) : UDPRelay :=
  match andThen (s.clear .client config.udpCacheSize) (clear .dns 16) with
  | (.ok (), s) => if r.payload = [] then s else s.sendTo a
  | (.error _, s) => s.sendTo a

/-- A datagram to port 53 that looks like a query. -/
def isDns (r : UDPRequest) : Bool :=
  r.data.length > r.headerLength + 13 &&
    r.data.extract (r.headerLength + 4) (r.headerLength + 12) == [0, 1, 0, 0, 0, 0, 0, 0]

/-- The socket of a new client goes to one of the caches. -/
def addClient (now : Time) (r : UDPRequest) (a : SockAddr) (key : ClientKey) (fd : ℕ)
    (s : UDPRelay) : UDPRelay :=
  let s := if a.port = 53 ∧ isDns r then
      { s with cacheDnsClient := s.cacheDnsClient.setItem now key (fd, r.uid) }
    else { s with cache := s.cache.setItem now key (fd, r.uid) }
  { s with
    clientFdToServerAddr := s.clientFdToServerAddr.set fd key
    sockets := insert fd s.sockets }

/-- A request of a client without a socket. -/
def newClient (now : Time) (o : UDPOutcome) (r : UDPRequest) (a : SockAddr) (key : ClientKey)
    (s : UDPRelay) : UDPRelay :=
  if config.forbiddenIplist.any (·.contains a.ip) then s
  else if config.forbiddenPortset.any fun s => a.port ∈ s then s
  else
    match o.socket with
    -- Without a socket, `sendto` has no `client` and raises.
    | none => s
    | some fd =>
      if o.setup = false then s.sendTo a
      else
        let s := s.addClient now r a key fd
        if o.register = false then s.sendTo a
        else
          let s := { s with polled := insert fd s.polled }
          if r.uid.any fun uid => uid.length ≠ 4 then s.sendTo a else finishRequest config r a s

/-- The client's socket, looked up in both caches. -/
def findClient (now : Time) (key : ClientKey) (s : UDPRelay) :
    Option (ℕ × Option Bytes) × UDPRelay :=
  match s.cache.get now key with
  | (some pair, cache) => (some pair, { s with cache })
  | (none, cache) =>
    let (pair, cacheDnsClient) := s.cacheDnsClient.get now key
    (pair, { s with cache, cacheDnsClient })

/-- `_handle_server_dns_resolved`, without an error. -/
def handleServerDnsResolved (now : Time) (o : UDPOutcome) (r : UDPRequest) (s : UDPRelay) :
    UDPRelay :=
  match o.addrs with
  | .ok (ip :: _) =>
    let a : SockAddr := ⟨ip, r.destPort⟩
    let key : ClientKey := ⟨r.rAddr, ip.family⟩
    match s.findClient now key with
    | (some _, s) => finishRequest config r a s
    | (none, s) => newClient config now o r a key s
  | _ => s

/-- What `_handle_server` does with a decrypted datagram. -/
inductive Received
  | drop
  /-- The destination is an address. -/
  | resolved (r : UDPRequest)
  /-- The resolver is asked for the name of the host. -/
  | resolve (r : UDPRequest)

/-- `common.is_ip` and `binascii.crc32` -/
structure UDPEnv where
  isIp : Bytes → Except PyExc Bool
  crc32 : Bytes → ℕ

/-- `_handle_server`, on a decrypted datagram. -/
def handleServer (env : UDPEnv) (data : Bytes) (rAddr : SockAddr) (uid : Option Bytes) : Received :=
  match preParseHeader env.crc32 data with
  | .ok (some data) =>
    match parseHeader data with
    | .ok (some h) =>
      let r : UDPRequest := ⟨data, rAddr, uid, h.headerLength, h.destPort⟩
      match h.destAddr with
      | .ip _ => .resolved r
      | .host name =>
        match env.isIp name with
        | .ok true => .resolved r
        | .ok false => .resolve r
        | .error _ => .drop
    | _ => .drop
  | _ => .drop

/-- `_handle_client`: when the reply has been written to the client, the socket of a query is
    closed. -/
def handleClient (now : Time) (fd : ℕ) (written : Bool) (s : UDPRelay) : UDPRelay :=
  match s.clientFdToServerAddr.get? fd with
  | none => s
  | some key =>
    let s := { s with cache := (s.cache.get now key).2 }
    let (pair, cacheDnsClient) := s.cacheDnsClient.get now key
    let s := { s with cacheDnsClient }
    if written = false then s
    else
      match pair, s.cacheDnsClient.delItem key with
      | some (fd, _), some c => (({ s with cacheDnsClient := c } : UDPRelay).closeClient fd).2
      | _, _ => s

/-! ## Runs -/

inductive Event
  /-- A datagram of a client that has been decrypted, by a protocol that knows its user. -/
  | datagram (now : Time) (rAddr : SockAddr) (data : Bytes) (uid : Option Bytes) (o : UDPOutcome)
  /-- The resolver answers a request: with an address, or with an error. -/
  | dnsAnswer (now : Time) (i : ℕ) (found : Bool) (o : UDPOutcome)
  /-- A destination replies, and the reply can be written to the client. -/
  | reply (now : Time) (fd : ℕ) (written : Bool)
  /-- `handle_periodic` -/
  | periodic (now : Time)
  | close (nextTick : Bool)

def step (env : UDPEnv) (s : UDPRelay) : Event → Option UDPRelay
  | .datagram now rAddr data uid o =>
    if s.listening = false then none
    else
      match handleServer env data rAddr uid with
      | .drop => some s
      | .resolved r => some (s.handleServerDnsResolved config now o r)
      | .resolve r => some { s with pending := s.pending ++ [r] }
  | .dnsAnswer now i found o =>
    s.pending[i]?.map fun r =>
      let s := { s with pending := s.pending.eraseIdx i }
      if found then s.handleServerDnsResolved config now o r else s
  | .reply now fd written =>
    if fd ∈ s.polled then some (s.handleClient now fd written) else none
  | .periodic now =>
    if s.closed then
      match andThen (s.clear .client 0) (clear .dns 0) with
      | (.ok (), s) => some { s with listening := false }
      | (.error _, s) => some s
    else some (andThen (s.sweep .client now) (sweep .dns now)).2
  | .close nextTick =>
    let s := { s with closed := true }
    if nextTick then some s
    else some (andThen (({ s with listening := false } : UDPRelay).clear .client 0) (clear .dns 0)).2

/-- The client has a socket of this family. -/
def Cached (s : UDPRelay) (rAddr : SockAddr) (af : Family) : Prop :=
  s.cache.contains ⟨rAddr, af⟩ = true ∨ s.cacheDnsClient.contains ⟨rAddr, af⟩ = true

/-- If the client has a socket of the family of the address, the address is not forbidden. -/
def Permits (s : UDPRelay) (r : UDPRequest) (o : UDPOutcome) : Prop :=
  ∀ ip ips, o.addrs = .ok (ip :: ips) → s.Cached r.rAddr ip.family →
    config.forbids ⟨ip, r.destPort⟩ = false

/-- The request that an event resolves to an address, with what the system returns for it. -/
def resolved (env : UDPEnv) (s : UDPRelay) : Event → Option (UDPRequest × UDPOutcome)
  | .datagram _ rAddr data uid o =>
    match handleServer env data rAddr uid with
    | .resolved r => some (r, o)
    | _ => none
  | .dnsAnswer _ i found o => if found then s.pending[i]?.map fun r => (r, o) else none
  | _ => none

/-- The condition on an event: the request that it resolves is permitted. -/
def Guarded (env : UDPEnv) (s : UDPRelay) (e : Event) : Prop :=
  ∀ r o, resolved env s e = some (r, o) → s.Permits config r o

/-- Nothing has been sent to a forbidden address. -/
def AllowedOnly (s : UDPRelay) : Prop := ∀ a ∈ s.sent, config.forbids a = false

/-! ## Where datagrams are sent -/

section

variable {s : UDPRelay}

@[simp] theorem sent_setCache (w : Which) (c : LRUCache ClientKey (ℕ × Option Bytes)) :
    (s.setCache w c).sent = s.sent := by
  cases w <;> rfl

@[simp] theorem sent_closeClient (fd : ℕ) (s : UDPRelay) : (s.closeClient fd).2.sent = s.sent := by
  rw [closeClient]
  split_ifs
  · rfl
  · dsimp only
    split_ifs <;> rfl
  · rfl

@[simp] theorem sent_clearLoop (w : Which) (keep cnt : ℕ) (s : UDPRelay) :
    (clearLoop w keep cnt s).2.sent = s.sent := by
  induction cnt generalizing s with
  | zero => rfl
  | succ cnt ih =>
    rw [clearLoop]
    split_ifs
    · split
      · rfl
      · split
        · rfl
        · next fd _ _ =>
          have hsent := sent_closeClient fd s
          split <;> rename_i hclose <;> rw [hclose] at hsent
          · exact hsent
          · split
            · exact hsent
            · exact (ih _).trans ((sent_setCache _ _).trans hsent)
    · rfl

@[simp] theorem sent_sweepLoop (w : Which) (now : Time) (cnt : ℕ) (s : UDPRelay) :
    (sweepLoop w now cnt s).2.sent = s.sent := by
  induction cnt generalizing s with
  | zero => rfl
  | succ cnt ih =>
    rw [sweepLoop]
    split
    · rfl
    · split
      · next fd _ c _ _ _ =>
        split_ifs
        · rfl
        · have hsent := sent_closeClient fd (s.setCache w c)
          rw [sent_setCache] at hsent
          split <;> rename_i hclose <;> rw [hclose] at hsent
          · exact hsent
          · exact (ih _).trans hsent
      · rfl

theorem sent_andThen {r : Except PyExc Unit × UDPRelay}
    {f : UDPRelay → Except PyExc Unit × UDPRelay} (hf : ∀ s, (f s).2.sent = s.sent) :
    (andThen r f).2.sent = r.2.sent := by
  rcases r with ⟨e | ⟨⟩, s⟩
  · rfl
  · exact hf s

/-- The end of a call sends to the address, or has nothing to send. -/
theorem sent_finishRequest (r : UDPRequest) (a : SockAddr) (s : UDPRelay) :
    (r.payload = [] ∧ (finishRequest config r a s).sent = s.sent) ∨
      (finishRequest config r a s).sent = s.sent ++ [a] := by
  have hsent : (andThen (s.clear .client config.udpCacheSize) (clear .dns 16)).2.sent = s.sent :=
    (sent_andThen fun s => sent_clearLoop _ _ _ s).trans (sent_clearLoop _ _ _ s)
  rw [finishRequest]
  split <;> rename_i hr <;> rw [hr] at hsent
  · by_cases hp : r.payload = []
    · rw [if_pos hp]
      exact .inl ⟨hp, hsent⟩
    · rw [if_neg hp]
      exact .inr (congrArg (· ++ [a]) hsent)
  · exact .inr (congrArg (· ++ [a]) hsent)

@[simp] theorem sent_addClient (now : Time) (r : UDPRequest) (a : SockAddr) (key : ClientKey)
    (fd : ℕ) : (s.addClient now r a key fd).sent = s.sent := by
  rw [addClient]
  split_ifs <;> rfl

/-- For a new client the address is checked. -/
theorem sent_newClient (now : Time) (o : UDPOutcome) (r : UDPRequest) (a : SockAddr)
    (key : ClientKey) (s : UDPRelay) : (newClient config now o r a key s).sent = s.sent ∨
      (config.forbids a = false ∧ (newClient config now o r a key s).sent = s.sent ++ [a]) := by
  rw [newClient]
  by_cases hip : config.forbiddenIplist.any (·.contains a.ip) = true
  · rw [if_pos hip]
    exact .inl rfl
  rw [if_neg hip]
  by_cases hport : (config.forbiddenPortset.any fun s => a.port ∈ s) = true
  · rw [if_pos hport]
    exact .inl rfl
  rw [if_neg hport]
  have hforbids : config.forbids a = false := by
    rw [UDPConfig.forbids, Bool.or_eq_false_iff]
    exact ⟨Bool.not_eq_true _ ▸ hip, Bool.not_eq_true _ ▸ hport⟩
  cases o.socket with
  | none => exact .inl rfl
  | some fd =>
    dsimp only
    by_cases hsetup : o.setup = false
    · rw [if_pos hsetup]
      exact .inr ⟨hforbids, rfl⟩
    rw [if_neg hsetup]
    by_cases hregister : o.register = false
    · rw [if_pos hregister]
      exact .inr ⟨hforbids, by rw [sendTo, sent_addClient]⟩
    rw [if_neg hregister]
    by_cases huid : (r.uid.any fun uid => uid.length ≠ 4) = true
    · rw [if_pos huid]
      exact .inr ⟨hforbids, by rw [sendTo, sent_addClient]⟩
    rw [if_neg huid]
    rcases sent_finishRequest config r a
      { s.addClient now r a key fd with polled := insert fd (s.addClient now r a key fd).polled }
      with ⟨-, h⟩ | h
    · exact .inl (h.trans (sent_addClient now r a key fd))
    · exact .inr ⟨hforbids, h.trans (congrArg (· ++ [a]) (sent_addClient now r a key fd))⟩

/-- A client is found if and only if one of the caches has it. -/
theorem findClient_spec (now : Time) (key : ClientKey) (s : UDPRelay) :
    (s.findClient now key).2.sent = s.sent ∧
      ((s.findClient now key).1 ≠ none ↔ s.Cached key.rAddr key.af) := by
  rw [findClient]
  cases hc : s.cache.value? key with
  | some pair =>
    rw [LRUCache.get_of_value? hc]
    exact ⟨rfl, iff_of_true (by simp) (.inl (LRUCache.contains_of_value? hc))⟩
  | none =>
    rw [LRUCache.get_eq_none hc]
    dsimp only
    cases hd : s.cacheDnsClient.value? key with
    | some pair =>
      rw [LRUCache.get_of_value? hd]
      exact ⟨rfl, iff_of_true (by simp) (.inr (LRUCache.contains_of_value? hd))⟩
    | none =>
      rw [LRUCache.get_eq_none hd]
      refine ⟨rfl, iff_of_false (by simp) ?_⟩
      rintro (h | h)
      · rw [LRUCache.contains_eq_false.2 hc] at h
        cases h
      · rw [LRUCache.contains_eq_false.2 hd] at h
        cases h

/-- A call sends at most to the address, and to a forbidden one for clients with a socket only. -/
theorem sent_handleServerDnsResolved (now : Time) {o : UDPOutcome} {r : UDPRequest} {ip : IPAddr}
    {ips : List IPAddr} (ho : o.addrs = .ok (ip :: ips)) :
    (handleServerDnsResolved config now o r s).sent = s.sent ∨
      ((handleServerDnsResolved config now o r s).sent = s.sent ++ [⟨ip, r.destPort⟩] ∧
        (s.Cached r.rAddr ip.family ∨ config.forbids ⟨ip, r.destPort⟩ = false)) := by
  obtain ⟨hsent, hfind⟩ := findClient_spec now ⟨r.rAddr, ip.family⟩ s
  rw [handleServerDnsResolved, ho]
  dsimp only
  rcases hs : s.findClient now ⟨r.rAddr, ip.family⟩ with ⟨pair, s'⟩
  rw [hs] at hsent hfind
  cases pair with
  | some pair =>
    rcases sent_finishRequest config r ⟨ip, r.destPort⟩ s' with ⟨-, h⟩ | h
    · exact .inl (h.trans hsent)
    · exact .inr ⟨h.trans (congrArg (· ++ _) hsent), .inl (hfind.1 (by simp))⟩
  | none =>
    rcases sent_newClient config now o r ⟨ip, r.destPort⟩ ⟨r.rAddr, ip.family⟩ s' with
      h | ⟨hforbids, h⟩
    · exact .inl (h.trans hsent)
    · exact .inr ⟨h.trans (congrArg (· ++ _) hsent), .inr hforbids⟩

end

/-! ## Runs -/

section

variable {config} {env : UDPEnv} {s s' : UDPRelay} {e : Event}

theorem sent_handleClient (now : Time) (fd : ℕ) (written : Bool) (s : UDPRelay) :
    (s.handleClient now fd written).sent = s.sent := by
  rw [handleClient]
  split
  · rfl
  · dsimp only
    split_ifs
    · rfl
    · split
      · exact sent_closeClient _ _
      · rfl

theorem sent_clears (keep keep' : ℕ) (s : UDPRelay) :
    (andThen (s.clear .client keep) (clear .dns keep')).2.sent = s.sent :=
  (sent_andThen fun s => sent_clearLoop _ _ _ s).trans (sent_clearLoop _ _ _ s)

/-- An event resolves a request, or nothing is sent. -/
theorem step_cases (h : step config env s e = some s') :
    (∃ now r o, ∃ s₁ : UDPRelay, resolved env s e = some (r, o) ∧ s₁.sent = s.sent ∧
      (∀ rAddr af, s₁.Cached rAddr af ↔ s.Cached rAddr af) ∧
      s' = handleServerDnsResolved config now o r s₁) ∨
    resolved env s e = none ∧ s'.sent = s.sent := by
  cases e with
  | datagram now rAddr data uid o =>
    rw [step] at h
    split_ifs at h
    rw [resolved]
    cases hr : handleServer env data rAddr uid <;> rw [hr] at h <;> cases h
    · exact .inr ⟨rfl, rfl⟩
    · exact .inl ⟨now, _, o, s, rfl, rfl, fun _ _ => Iff.rfl, rfl⟩
    · exact .inr ⟨rfl, rfl⟩
  | dnsAnswer now i found o =>
    obtain ⟨r, hr, rfl⟩ := Option.map_eq_some_iff.1 h
    rw [resolved, hr]
    cases found with
    | false => exact .inr ⟨rfl, rfl⟩
    | true =>
      exact .inl ⟨now, r, o, { s with pending := s.pending.eraseIdx i }, rfl, rfl,
        fun _ _ => Iff.rfl, rfl⟩
  | reply now fd written =>
    rw [step] at h
    split_ifs at h
    cases h
    exact .inr ⟨rfl, sent_handleClient now fd written s⟩
  | periodic now =>
    refine .inr ⟨rfl, ?_⟩
    rw [step] at h
    split_ifs at h
    · have hsent := sent_clears 0 0 s
      split at h <;> rename_i hr <;> rw [hr] at hsent <;> cases h <;> exact hsent
    · cases h
      exact (sent_andThen fun s => sent_sweepLoop _ _ _ s).trans (sent_sweepLoop _ _ _ s)
  | close nextTick =>
    refine .inr ⟨rfl, ?_⟩
    rw [step] at h
    split_ifs at h <;> cases h
    · rfl
    · exact sent_clears 0 0 _

/-- A guarded event keeps datagrams from forbidden addresses. -/
theorem AllowedOnly.step (hs : s.AllowedOnly config) (hg : s.Guarded config env e)
    (h : UDPRelay.step config env s e = some s') : s'.AllowedOnly config := by
  rcases step_cases h with ⟨now, r, o, s₁, hr, hsent, hcached, rfl⟩ | ⟨-, hsent⟩
  · have hpermits := hg r o hr
    cases ho : o.addrs with
    | error e =>
      rw [AllowedOnly, handleServerDnsResolved, ho, hsent]
      exact hs
    | ok addrs =>
      cases addrs with
      | nil =>
        rw [AllowedOnly, handleServerDnsResolved, ho, hsent]
        exact hs
      | cons ip ips =>
        rw [AllowedOnly]
        rcases sent_handleServerDnsResolved config now ho with h | ⟨h, hcase⟩ <;> rw [h, hsent]
        · exact hs
        · have hforbids : config.forbids ⟨ip, r.destPort⟩ = false :=
            hcase.elim (fun hc => hpermits ip ips ho ((hcached _ _).1 hc)) id
          intro a ha
          rcases List.mem_append.1 ha with ha | ha
          · exact hs a ha
          · rw [List.mem_singleton.1 ha]
            exact hforbids
  · rw [AllowedOnly, hsent]
    exact hs

end

end UDPRelay

end ShadowsocksR

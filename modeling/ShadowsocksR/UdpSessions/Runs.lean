import ShadowsocksR.Lib.Run
import ShadowsocksR.UdpSessions.Resolved

/-!
# Runs of a UDP relay

What else changes the tables of a relay: replies to its clients, the periodic call of the loop, and
closing it. With them the tables agree in every run in which the calls that set up a socket succeed.

* `handleClient`, `handlePeriodic`, `close`: the other methods that close clients;
* `step`: an event, in any order;
* `triple_handleServerDnsResolved`, `triple_handleClient`, `triple_handlePeriodic`, `triple_close`:
  each of them keeps the tables in agreement;
* `Agree`: what this says of descriptors, keys and sockets;
* `agree_of_succeeds`: it holds after every event of a run.
-/

namespace ShadowsocksR

open UDPRelay (Which)

namespace UDPSessions

/-! ## Replies -/

/-- What the calls of `_handle_client` return. -/
structure ReplyCalls where
  /-- The reply, and the host and the port that it comes from. -/
  recvfrom : Except PyExc (Bytes × List Char × ℕ)
  statCallback : Except PyExc Unit := .ok ()
  packAddr : List Char → Except PyExc Bytes := fun _ => .ok []
  encryptNewIv : Except PyExc Bytes := .ok []
  serverUdpPreEncrypt : Bytes → Bytes → Option Bytes → Except PyExc Bytes := fun _ data _ => .ok data
  encryptAllIv : Bytes → Bytes → Except PyExc Bytes := fun _ => .ok
  decryptAllIv : Bytes → Except PyExc Bytes := .ok
  clientUdpPostDecrypt : Bytes → Except PyExc Bytes := .ok
  /-- `_server_socket.sendto` -/
  sendto : Except PyExc Unit := .ok ()

/-- What is written to the client for a reply, if anything. -/
def response (isLocal : Bool) (calls : ReplyCalls) (data : Bytes) (host : List Char) (port : ℕ)
    (clientUid : Option Bytes) : Except PyExc (Option Bytes) :=
  if isLocal then do
    let data ← calls.decryptAllIv data
    if data.isEmpty then pure none
    else do
      let data ← calls.clientUdpPostDecrypt data
      let headerResult ← parseHeader data
      pure (headerResult.map fun _ => [0, 0, 0] ++ data)
  else if host.length > 255 then pure none
  else do
    let packed ← calls.packAddr host
    let iv ← calls.encryptNewIv
    let data ← calls.serverUdpPreEncrypt iv (packed ++ packBE 2 port ++ data) clientUid
    let response ← calls.encryptAllIv iv data
    pure (if response.isEmpty then none else some response)

/-- `write_to_server_socket`; what the socket raises is caught. -/
def writeToServerSocket (calls : ReplyCalls) : SessionM Unit := do
  if (← get).serverSocket then
    match calls.sendto with
    | .ok () | .error .osError => pure ()
    | .error e => throw e
  else throw .attributeError

/-- `sock.recvfrom`, which raises when the socket is closed. -/
def recvfrom (sock : UDPSocket) (calls : ReplyCalls) : SessionM (Bytes × List Char × ℕ) := do
  if (← get).IsOpen sock then ofExcept calls.recvfrom else throw .osError

/-- The end of `_handle_client`: the reply is counted and written, and a client of the resolver
    is closed. -/
def writeReply (isLocal : Bool) (key : List Char) (clientUid : Option Bytes)
    (dnsPair : Option (UDPSocket × Option Bytes)) (calls : ReplyCalls) (response : Bytes) :
    SessionM Unit := do
  modify fun s => { s with counters :=
    s.counters.addTransferD ((clientUid.filter (!·.isEmpty)).map unpackLE) response.length }
  writeToServerSocket calls
  match dnsPair with
  | none => pure ()
  | some (client, _) => removeClient isLocal .dns key client

/-- `_handle_client` -/
def handleClient (isLocal : Bool) (now : Time) (sock : UDPSocket) (calls : ReplyCalls) :
    SessionM Unit := do
  let (data, host, port) ← recvfrom sock calls
  if data.isEmpty then pure ()
  else do
    ofExcept calls.statCallback
    match (← get).clientFdToServerAddr.get? sock.fd with
    | none =>
      -- The reply is processed, and dropped.
      let _ ← ofExcept (response isLocal calls data host port none)
    | some (clientAddr, af) => do
      let key := clientKey clientAddr af
      let clientPair ← (kept isLocal .client).get now key
      let dnsPair ← (kept isLocal .dns).get now key
      let clientUid := (clientPair.or dnsPair).bind Prod.snd
      match ← ofExcept (response isLocal calls data host port clientUid) with
      | none => pure ()
      | some response => writeReply isLocal key clientUid dnsPair calls response

/-! ## The loop -/

/-- `handle_periodic` -/
def handlePeriodic (isLocal : Bool) (now : Time) : SessionM Unit := do
  if (← get).closed then
    (kept isLocal .client).clear 0
    (kept isLocal .dns).clear 0
    modify fun s => { s with listening := false, serverSocket := false }
  else
    (kept isLocal .client).sweep now
    (kept isLocal .dns).sweep now

/-- `close` -/
def close (isLocal nextTick : Bool) : SessionM Unit := do
  modify fun s => { s with closed := true }
  if nextTick then pure ()
  -- `remove_periodic`
  else if (← get).listening = false then throw .valueError
  else do
    modify fun s => { s with listening := false }
    (kept isLocal .client).clear 0
    (kept isLocal .dns).clear 0

/-! ## Events -/

inductive Event
  /-- `_handle_server_dns_resolved`, for a datagram of any client: called by `_handle_server`, or by
      the resolver, which may do so at any time. -/
  | resolved (now : Time) (error : Bool) (serverPort : ℕ) (params : ResolvedParams)
    (calls : ResolvedCalls)
  /-- The loop has found a reply. The socket may have been closed since. -/
  | reply (now : Time) (sock : UDPSocket) (calls : ReplyCalls)
  | periodic (now : Time)
  | close (nextTick : Bool)

/-- The system opens no socket with the descriptor of one that is open. -/
def Unused (t : Tables) (calls : ResolvedCalls) : Prop :=
  ∀ client ∈ t.made, t.IsOpen client → calls.socket.toOption ≠ some client.fd

instance (t : Tables) (calls : ResolvedCalls) : Decidable (Unused t calls) :=
  inferInstanceAs (Decidable (∀ _ ∈ _, _))

def step (config : SessionsConfig) (s : UDPSessions) : Event → Option UDPSessions
  | .resolved now error serverPort params calls =>
    if Unused s.toTables calls then
      some (after (handleServerDnsResolved config now error serverPort params calls) s)
    else none
  | .reply now sock calls =>
    if sock ∈ s.made ∧ sock.fd ∈ s.sockets then
      some (after (handleClient config.isLocal now sock calls) s)
    else none
  | .periodic now =>
    if s.listening then some (after (handlePeriodic config.isLocal now) s) else none
  | .close nextTick => some (after (close config.isLocal nextTick) s)

/-- The calls that set up a socket, and register it with the loop, succeed. -/
def Succeeds (config : SessionsConfig) (_ : UDPSessions) : Event → Prop
  | .resolved _ _ _ _ calls => calls.setblocking = .ok () ∧
    (∀ sa addrs, calls.getaddrinfo = .ok (sa :: addrs) →
      socketBindAddr config sa.ip.family calls = .ok ()) ∧
    calls.register = .ok ()
  | _ => True

/-! ## The tables agree -/

variable {config : SessionsConfig} {now : Time} {serverPort : ℕ} {params : ResolvedParams}
  {calls : ResolvedCalls} {s s' : UDPSessions} {t : Tables} {fd : ℕ} {isLocal : Bool}
  {e : Event}

/-- The new socket is in one of the caches. -/
theorem cacheAt_storeClient (s : UDPSessions) (sa : SockAddr) (client : UDPSocket) (w : Which) :
    (s.storeClient now sa params client).cacheAt w =
      if w = cacheFor sa params then
        (s.cacheAt w).setItem now (clientKey params.rAddr sa.ip.family) (client, params.uid)
      else s.cacheAt w := by
  rw [storeClient]
  cases cacheFor sa params <;> cases w <;> rfl

theorem toTables_storeClient (s : UDPSessions) (sa : SockAddr) (client : UDPSocket) :
    (({ s with made := s.made ++ [client] } : UDPSessions).storeClient now sa params
      client).toTables = s.toTables.add client params.rAddr sa.ip.family := by
  rw [storeClient]
  cases cacheFor sa params <;> rfl

/-- A new socket is stored under a key that neither cache has. -/
theorem Valid.storeClient (hs : s.Valid) {sa : SockAddr}
    (hnone : ∀ w, (s.cacheAt w).value? (clientKey params.rAddr sa.ip.family) = none)
    (hfd : ∀ client ∈ s.made, s.IsOpen client → client.fd ≠ fd) :
    (({ s with made := s.made ++ [⟨s.made.length, fd, true⟩] } : UDPSessions).storeClient now sa
      params ⟨s.made.length, fd, true⟩).Valid := by
  rw [Valid, toTables_storeClient]
  refine Tables.Valid.add (w := cacheFor sa params) hs (fun w => ?_) rfl rfl hfd fun w key => ?_
  · rw [stored, hnone]
    rfl
  · rw [stored, cacheAt_storeClient]
    by_cases hw : w = cacheFor sa params
    · rw [if_pos hw, LRUCache.value?_setItem]
      by_cases hkey : key = clientKey params.rAddr sa.ip.family
      · rw [if_pos hkey, if_pos ⟨hw, hkey⟩]
        rfl
      · rw [if_neg hkey, if_neg fun h => hkey h.2]
        rfl
    · rw [if_neg hw, if_neg fun h => hw h.1]
      rfl

/-- The client is looked up in both caches. -/
theorem triple_findClient (isLocal : Bool) (now : Time) (key : List Char) (t : Tables) :
    Triple (fun s => s.Valid ∧ s.toTables = t) (findClient isLocal now key)
      (fun pair s => (s.Valid ∧ s.toTables = t) ∧
        (pair = none → ∀ w, (s.cacheAt w).value? key = none)) Never := by
  intro s hs
  have hget (w : Which) := triple_get (E := Never) isLocal w now key t
    fun w => (s.cacheAt w).value? key
  refine ((hget .client).bind (Q := fun pair s => (s.Valid ∧ s.toTables = t) ∧
    (pair = none → ∀ w, (s.cacheAt w).value? key = none)) fun pair => ?_) s ⟨hs.1, hs.2, fun _ => rfl⟩
  rcases pair with - | pair
  · refine (Triple.intro_pre (p := none = (s.cacheAt .client).value? key) fun hnone =>
      (hget .dns).post fun pair s' h => ⟨⟨h.1.1, h.1.2.1⟩, ?_⟩).pre fun _ h => ⟨h.2, h.1⟩
    intro hpair w
    rw [h.1.2.2 w]
    cases w with
    | client => exact hnone.symm
    | dns => exact h.2.symm.trans hpair
  · exact .pure fun s h => ⟨⟨h.1.1, h.1.2.1⟩, nofun⟩

/-- A client without a socket gets one, and the tables agree when all of it is done. -/
theorem valid_newClient {sa addr : SockAddr} (hset : calls.setblocking = .ok ())
    (hbind : socketBindAddr config sa.ip.family calls = .ok ()) (hregister : calls.register = .ok ())
    (hunused : Unused t calls) :
    Triple (fun f => (f.relay.Valid ∧ f.relay.toTables = t) ∧
        ∀ w, (f.relay.cacheAt w).value? (clientKey params.rAddr sa.ip.family) = none)
      (newClient config now sa addr params calls)
      (fun _ f => f.relay.Valid) fun _ f => f.relay.Valid := by
  refine .bind (R := fun fd f => calls.socket = .ok fd ∧ (f.relay.Valid ∧ f.relay.toTables = t) ∧
      ∀ w, (f.relay.cacheAt w).value? (clientKey params.rAddr sa.ip.family) = none)
    (triple_call (fun fd hfd f hf => ⟨hfd, hf⟩) fun e _ f hf => hf.1.1) fun fd => .get_bind ?_
  rintro f₀ ⟨hfd, ⟨hvalid, ht⟩, hnone⟩
  have hopen : ∀ client ∈ f₀.relay.made, f₀.relay.IsOpen client → client.fd ≠ fd := by
    intro client hmem hopen heq
    refine hunused client (ht ▸ hmem) (ht ▸ hopen) ?_
    rw [hfd, heq]
    rfl
  -- Nothing raises while the tables do not agree.
  refine .bind (R := fun _ f => f = _) (fun f _ => rfl) fun _ => ?_
  refine .bind (triple_call (fun _ _ _ => id) fun e he => by rw [hset] at he; cases he) fun _ => ?_
  refine .bind (triple_call (fun _ _ _ => id) fun e he => by rw [hbind] at he; cases he) fun _ => ?_
  refine .bind (.modify (Q := fun _ f => f.relay.Valid) ?_) fun _ => ?_
  · rintro _ rfl
    exact hvalid.storeClient hnone hopen
  refine .bind (triple_call (fun _ _ _ => id) fun e he => by rw [hregister] at he; cases he)
    fun _ => ?_
  exact .ite (fun _ => .throw fun _ => id) fun _ => .pure fun _ => id

theorem valid_prepare (hset : calls.setblocking = .ok ())
    (hbind : ∀ sa addrs, calls.getaddrinfo = .ok (sa :: addrs) →
      socketBindAddr config sa.ip.family calls = .ok ()) (hregister : calls.register = .ok ())
    (hunused : Unused t calls) :
    Triple (fun f => f.relay.Valid ∧ f.relay.toTables = t)
      (prepare config now serverPort params calls)
      (fun _ f => f.relay.Valid) fun _ f => f.relay.Valid := by
  refine .bind (R := fun addrs f => calls.getaddrinfo = .ok addrs ∧ f.relay.Valid ∧
      f.relay.toTables = t)
    (triple_call (fun addrs haddrs f hf => ⟨haddrs, hf⟩) fun e _ f hf => hf.1)
    fun addrs => .intro_pre fun haddrs => ?_
  rcases addrs with - | ⟨sa, addrs⟩
  · exact .pure fun _ => And.left
  dsimp only
  have hfind : Triple (fun f => f.relay.Valid ∧ f.relay.toTables = t)
      (onRelay .cache (findClient config.isLocal now (clientKey params.rAddr sa.ip.family)))
      (fun pair f => (f.relay.Valid ∧ f.relay.toTables = t) ∧
        (pair = none →
          ∀ w, (f.relay.cacheAt w).value? (clientKey params.rAddr sa.ip.family) = none))
      fun _ f => f.relay.Valid :=
    (triple_onRelay (triple_findClient config.isLocal now _ t) fun _ => True).conseq
      (fun _ h => ⟨h, trivial⟩) (fun _ _ => And.left) fun _ _ h => h.2.1.elim
  have hfinish : Triple (fun f => f.relay.Valid) (finishPrepare config params calls)
      (fun _ f => f.relay.Valid) fun _ f => f.relay.Valid :=
    (triple_finishPrepare (fun _ => True) (triple_clear config.isLocal)).conseq
      (fun _ h => ⟨h, trivial⟩) (fun _ _ => And.left) fun _ _ h => h.2.1
  refine hfind.bind fun pair => ?_
  rcases pair with - | ⟨client, clientUid⟩
  · refine .ite (fun _ => .pure fun _ h => h.1.1) fun _ => ?_
    exact ((valid_newClient hset (hbind sa addrs haddrs) hregister hunused).pre
      fun _ h => ⟨h.1, h.2 rfl⟩).bind fun _ => hfinish
  · exact .bind (.modify (Q := fun _ f => f.relay.Valid) fun f hf => hf.1.1) fun _ => hfinish

/-- What is sent on changes no table. -/
theorem valid_sendOn (calls : ResolvedCalls) :
    Triple (fun f => f.relay.Valid) (sendOn calls) (fun _ f => f.relay.Valid)
      fun _ f => f.relay.Valid := by
  refine .tryCatch (.get_bind fun f hf => ?_) fun e => .ite (fun _ => .throw fun _ => id)
    fun _ => .pure fun _ => id
  have hof {m : Except PyExc Unit} : Triple (fun f : Frame => f.relay.Valid)
      (ofExcept m : EStateM PyExc Frame Unit) (fun _ f => f.relay.Valid)
      fun _ f => f.relay.Valid := by
    cases m with
    | ok a => exact .pure fun _ => id
    | error e => exact .throw fun _ => id
  cases f.target with
  | none => exact .throw fun g hg => hg ▸ hf
  | some target =>
    refine .bind (hof.pre fun g hg => hg ▸ hf) fun _ => ?_
    refine .bind (.modify (Q := fun _ g => g.relay.Valid) fun g hg => hg) fun _ => ?_
    exact .ite (fun _ => hof) fun _ => .pure fun _ => id

/-- A datagram to a resolved destination keeps the tables in agreement. -/
theorem triple_handleServerDnsResolved {error : Bool} (hset : calls.setblocking = .ok ())
    (hbind : ∀ sa addrs, calls.getaddrinfo = .ok (sa :: addrs) →
      socketBindAddr config sa.ip.family calls = .ok ()) (hregister : calls.register = .ok ()) :
    Triple (fun s => s.Valid ∧ Unused s.toTables calls)
      (handleServerDnsResolved config now error serverPort params calls)
      (fun _ => Valid) fun _ => Valid := by
  rintro s ⟨hs, hunused⟩
  rw [handleServerDnsResolved]
  by_cases herror : error = true
  · rw [if_pos herror]
    exact hs
  · rw [if_neg herror]
    have hvalid : Triple _ (prepare config now serverPort params calls) _ _ :=
      valid_prepare hset hbind hregister hunused
    have hsend (f : Frame) (hf : f.relay.Valid) := (valid_sendOn calls).cases hf
    rcases hvalid.cases (s := .start params s) ⟨hs, rfl⟩ with ⟨b, f, hr, hf⟩ | ⟨e, f, hr, hf⟩
    · rw [hr]
      cases b with
      | false => exact hf
      | true =>
        rcases hsend f hf with ⟨_, g, hg, hvalid⟩ | ⟨_, g, hg, hvalid⟩
        all_goals
          dsimp only
          rw [hg]
          exact hvalid
    · -- It goes on where the call was left.
      rw [hr]
      rcases hsend f hf with ⟨_, g, hg, hvalid⟩ | ⟨_, g, hg, hvalid⟩
      all_goals
        dsimp only
        rw [hg]
        exact hvalid

/-- A call outside the relay changes nothing. -/
theorem triple_ofExcept {α : Type} {P : UDPSessions → Prop} (hP : ∀ s, P s → s.Valid)
    (m : Except PyExc α) : Triple P (ofExcept m : SessionM α) (fun _ => P) fun _ => Valid := by
  cases m with
  | ok a => exact .pure fun _ => id
  | error e => exact .throw hP

theorem triple_recvfrom (sock : UDPSocket) (calls : ReplyCalls) :
    Triple Valid (recvfrom sock calls) (fun _ => Valid) fun _ => Valid := by
  refine .get_bind fun s hs => .ite (fun _ => ?_) fun _ => .throw fun _ h => h ▸ hs
  exact (triple_ofExcept (fun _ => id) _).pre fun _ h => h ▸ hs

theorem triple_writeToServerSocket {P : UDPSessions → Prop} (hP : ∀ s, P s → s.Valid)
    (calls : ReplyCalls) : Triple P (writeToServerSocket calls) (fun _ => P) fun _ => Valid := by
  refine .get_bind fun s hs => .ite (fun _ => ?_) fun _ => .throw fun _ h => h ▸ hP s hs
  split
  · exact .pure fun _ h => h ▸ hs
  · exact .pure fun _ h => h ▸ hs
  · exact .throw fun _ h => h ▸ hP s hs

/-- The client of the resolver that is closed is still the one that its cache has. -/
theorem triple_writeReply {key : List Char} {clientUid : Option Bytes}
    {dnsPair : Option (UDPSocket × Option Bytes)} {calls : ReplyCalls} {response : Bytes} :
    Triple (fun s => s.Valid ∧ (s.cacheAt .dns).value? key = dnsPair)
      (writeReply isLocal key clientUid dnsPair calls response)
      (fun _ => Valid) fun _ => Valid := by
  refine .bind (.modify (Q := fun _ s => s.Valid ∧ (s.cacheAt .dns).value? key = dnsPair)
    fun _ => id) fun _ => ?_
  refine .bind (triple_writeToServerSocket (fun _ => And.left) calls) fun _ => ?_
  rcases dnsPair with - | ⟨client, uid⟩
  · exact .pure fun _ => And.left
  · exact (triple_removeClient isLocal .dns key client).pre fun _ h =>
      ⟨h.1, stored_of_value? h.2⟩

/-- A reply keeps the tables in agreement. -/
theorem triple_handleClient (isLocal : Bool) (now : Time) (sock : UDPSocket) (calls : ReplyCalls) :
    Triple Valid (handleClient isLocal now sock calls) (fun _ => Valid) fun _ => Valid := by
  refine .bind (triple_recvfrom sock calls) fun ⟨data, host, port⟩ => ?_
  refine .ite (fun _ => .pure fun _ => id) fun _ => ?_
  refine .bind (triple_ofExcept (fun _ => id) _) fun _ => .get_bind fun s hs => ?_
  cases s.clientFdToServerAddr.get? sock.fd with
  | none =>
    refine .bind ((triple_ofExcept (fun _ => id) _).pre fun _ h => h ▸ hs) fun _ => ?_
    exact .pure fun _ => id
  | some addr =>
    obtain ⟨clientAddr, af⟩ := addr
    have hget (w : Which) := triple_get (E := fun _ => Valid) isLocal w now (clientKey clientAddr af)
      s.toTables fun w => (s.cacheAt w).value? (clientKey clientAddr af)
    have hread : ∀ s', s' = s → s'.Valid ∧ s'.toTables = s.toTables ∧ ∀ w,
        (s'.cacheAt w).value? (clientKey clientAddr af) =
          (s.cacheAt w).value? (clientKey clientAddr af) := by
      rintro _ rfl
      exact ⟨hs, rfl, fun _ => rfl⟩
    refine .bind ((hget .client).pre hread) fun clientPair => ?_
    refine .bind ((hget .dns).pre fun _ => And.left) fun dnsPair => ?_
    refine .bind (triple_ofExcept (fun _ h => h.1.1) _) fun response => ?_
    rcases response with - | response
    · exact .pure fun _ h => h.1.1
    · exact triple_writeReply.pre fun s' h => ⟨h.1.1, (h.1.2.2 .dns).trans h.2.symm⟩

theorem triple_handlePeriodic (isLocal : Bool) (now : Time) :
    Triple Valid (handlePeriodic isLocal now) (fun _ => Valid) fun _ => Valid := by
  refine .get_bind fun s hs => .ite (fun _ => ?_) fun _ => ?_
  · refine .bind ((triple_clear isLocal .client 0).pre fun _ h => h ▸ hs) fun _ => ?_
    exact .bind (triple_clear isLocal .dns 0) fun _ => .modify fun _ => id
  · refine .bind ((triple_sweep isLocal .client now).pre fun _ h => h ▸ hs) fun _ => ?_
    exact triple_sweep isLocal .dns now

theorem triple_close (isLocal nextTick : Bool) :
    Triple Valid (close isLocal nextTick) (fun _ => Valid) fun _ => Valid := by
  refine .bind (.modify (Q := fun _ => Valid) fun _ => id) fun _ => ?_
  refine .ite (fun _ => .pure fun _ => id) fun _ => .get_bind fun s hs => ?_
  refine .ite (fun _ => .throw fun _ h => h ▸ hs) fun _ => ?_
  refine .bind (.modify (Q := fun _ => Valid) fun _ h => h ▸ hs) fun _ => ?_
  exact .bind (triple_clear isLocal .client 0) fun _ => triple_clear isLocal .dns 0

/-! ## Runs -/

theorem Valid.step (hs : s.Valid) (hsucceeds : Succeeds config s e)
    (h : step config s e = some s') : s'.Valid := by
  cases e with
  | resolved now error serverPort params calls =>
    obtain ⟨hset, hbind, hregister⟩ := hsucceeds
    rw [UDPSessions.step] at h
    split_ifs at h with hunused
    cases h
    exact (triple_handleServerDnsResolved hset hbind hregister).after ⟨hs, hunused⟩
  | reply now sock calls =>
    rw [UDPSessions.step] at h
    split_ifs at h
    cases h
    exact (triple_handleClient _ now sock calls).after hs
  | periodic now =>
    rw [UDPSessions.step] at h
    split_ifs at h
    cases h
    exact (triple_handlePeriodic _ now).after hs
  | close nextTick =>
    cases h
    exact (triple_close _ nextTick).after hs

theorem valid_new (config : SessionsConfig) : (new config).Valid := by
  have hstored : (new config).stored = fun _ _ => none := by
    funext w key
    cases w <;> rfl
  rw [Valid, hstored]
  exact Tables.Valid.valid_new

/-- The descriptors, the keys and the sockets of a relay agree. -/
structure Agree (s : UDPSessions) : Prop where
  mem_sockets : ∀ fd, fd ∈ s.sockets ↔ s.clientFdToServerAddr.contains fd = true
  /-- The descriptors are those of the sockets in the caches. -/
  mem_sockets' : ∀ fd, fd ∈ s.sockets ↔ ∃ w key client, s.stored w key = some client ∧ client.fd = fd
  /-- An open socket is under one key of one cache. -/
  stored_once : ∀ client ∈ s.made, s.IsOpen client →
    ∃! p : Which × List Char, s.stored p.1 p.2 = some client
  /-- What is in a cache is an open socket, and its key is made of its address. -/
  key_eq : ∀ w key client, s.stored w key = some client →
    client ∈ s.made ∧ s.IsOpen client ∧ ∃ rAddr af,
      s.clientFdToServerAddr.get? client.fd = some (rAddr, af) ∧ key = clientKey rAddr af
  /-- A socket that is in no cache any more has been unregistered once, and closed once. -/
  dropped_once : ∀ client ∈ s.made, (∀ w key, s.stored w key ≠ some client) →
    s.actions.count (.unregister client) = 1 ∧ s.actions.count (.close client) = 1
  no_info : ∀ client, .info client ∉ s.actions

theorem Valid.agree (hs : s.Valid) : s.Agree where
  mem_sockets fd := (hs.contains_addr fd).symm
  mem_sockets' := hs.mem_sockets
  stored_once client hmem hopen := by
    have hstored : ∃ w key, s.stored w key = some client := by
      by_contra hnone
      push Not at hnone
      exact hopen (List.count_pos_iff.1 (by rw [(hs.once client hmem hnone).2]; exact Nat.one_pos))
    obtain ⟨w, key, h⟩ := hstored
    refine ⟨(w, key), h, fun p h' => ?_⟩
    obtain ⟨hw, hkey, -⟩ := Tables.Valid.eq_of_fd hs h' h rfl
    exact Prod.ext hw hkey
  key_eq w key client h := ⟨hs.mem_made h, hs.isOpen h, hs.key_eq h⟩
  dropped_once := hs.once
  no_info := hs.no_info

/-- In every run in which the calls that set up a socket succeed, the tables of a relay agree. -/
theorem agree_of_succeeds (config : SessionsConfig) {events : List Event}
    (hsucceeds : Run.Throughout (step config) (Succeeds config) (new config) events)
    (h : Run.exec (step config) (new config) events = some s) : s.Agree :=
  (Run.exec_invariant (P := Valid) (fun hs hsucceeds hstep => hs.step hsucceeds hstep)
    (valid_new config) hsucceeds h).agree

/-- A server that keeps one socket. -/
def oneSocket : SessionsConfig where
  udpCacheSize := 1
  udpTimeout := 60
  isLocal := false

/-- A datagram of a client, to an address for which the system opens a socket. -/
def datagramFrom (rPort serverPort fd : ℕ) (payload : Bytes) : Event :=
  .resolved 0 false serverPort ⟨[1, 192, 0, 2, 1, 0, 53] ++ payload, ⟨"::1".toList, rPort, [0, 0]⟩,
    none, 7⟩ { getaddrinfo := .ok [⟨.v4 0xc0000201, serverPort⟩], socket := .ok fd }

/-- A query and its reply, a socket that the next one makes the cache drop, and one that is
    dropped because of its age. -/
def threeClients : List Event :=
  [datagramFrom 5001 53 7 [0, 9, 1, 0, 0, 1, 0, 0, 0, 0, 0, 0, 0, 0],
    datagramFrom 5002 80 8 [42], datagramFrom 5003 80 9 [42],
    .reply 1 ⟨0, 7, true⟩ { recvfrom := .ok ([1], "192.0.2.1".toList, 53) },
    .periodic 100, .close false]

theorem agree_of_succeeds_threeClients :
    ∃ s, Run.exec (step oneSocket) (new oneSocket) threeClients = some s ∧
      s.sent.length = 3 ∧ s.actions.length = 6 ∧ s.Agree := by
  have hrun : (Run.exec (step oneSocket) (new oneSocket) threeClients).any
      (fun s => s.sent.length == 3 && s.actions.length == 6) = true := by
    decide +kernel
  obtain ⟨s, hs, hlength⟩ := (Option.any_eq_true _ _).1 hrun
  rw [Bool.and_eq_true, beq_iff_eq, beq_iff_eq] at hlength
  refine ⟨s, hs, hlength.1, hlength.2, agree_of_succeeds oneSocket ?_ hs⟩
  have hdatagram (rPort serverPort fd : ℕ) (payload : Bytes) (s : UDPSessions) :
      Succeeds oneSocket s (datagramFrom rPort serverPort fd payload) := by
    refine ⟨rfl, fun sa addrs h => ?_, rfl⟩
    cases h
    rfl
  refine .cons (hdatagram ..) fun _ _ => .cons (hdatagram ..) fun _ _ =>
    .cons (hdatagram ..) fun _ _ => ?_
  exact .cons trivial fun _ _ => .cons trivial fun _ _ => .cons trivial fun _ _ =>
    Run.throughout_nil _

end UDPSessions

end ShadowsocksR

import ShadowsocksR.UdpSessions.State

/-!
# Datagrams to resolved destinations

`_handle_server_dns_resolved`: the address of the destination is looked up, the client gets a
socket if it has none, the datagram is encrypted, or its header taken off, and sent on. An exception
on the way to `sendto` is printed, and `sendto` is called after it all the same.

* `prepare`: the first `try`, with the local variables that it leaves behind;
* `sendOn`: the second one;
* `triple_prepare`: what the variables are when a call raises;
* `silent_iff`: when nothing is sent after that, and nothing raised.
-/

namespace ShadowsocksR

open UDPRelay (Which)

namespace UDPSessions

/-- A datagram whose destination is resolved. -/
structure ResolvedParams where
  data : Bytes
  rAddr : UDPAddr
  uid : Option Bytes
  headerLength : ℕ

/-- `is_dns`: the datagram looks like a query. -/
def ResolvedParams.isDns (params : ResolvedParams) : Bool :=
  params.data.length > params.headerLength + 13 &&
    params.data.extract (params.headerLength + 4) (params.headerLength + 12) ==
      [0, 1, 0, 0, 0, 0, 0, 0]

/-- What the calls of `_handle_server_dns_resolved` return. -/
structure ResolvedCalls where
  getaddrinfo : Except PyExc (List SockAddr)
  /-- The descriptor of a new socket. -/
  socket : Except PyExc ℕ
  setblocking : Except PyExc Unit := .ok ()
  /-- The families that `getaddrinfo` has for an address to bind to. -/
  bindAddrinfo : List Char → Except PyExc (List Family) := fun _ => .ok [.inet]
  register : Except PyExc Unit := .ok ()
  encryptNewIv : Except PyExc Bytes := .ok []
  clientUdpPreEncrypt : Bytes → Bytes → Except PyExc Bytes := fun _ => .ok
  encryptAllIv : Bytes → Bytes → Except PyExc Bytes := fun _ => .ok
  sendto : Except PyExc Unit := .ok ()
  /-- `getsockname` and `connect_log` -/
  connectLog : Except PyExc Unit := .ok ()

/-- The calls that can raise before `sendto`. -/
inductive Call
  | getaddrinfo
  | cache
  | socket
  | setblocking
  | bindAddr
  | register
  | unpack
  | encryptNewIv
  | clientUdpPreEncrypt
  | encryptAllIv
  deriving DecidableEq

/-- The local variables that are assigned when there is a socket. -/
structure Target where
  client : UDPSocket
  clientUid : Option Bytes
  addr : SockAddr
  /-- `client_pair is None` -/
  isNew : Bool

/-- The relay, with the local variables of `_handle_server_dns_resolved`. -/
structure Frame where
  relay : UDPSessions
  data : Bytes
  target : Option Target := none

/-- A part of the first `try`; with an exception, it is known which call raised it. -/
abbrev PrepareM (α : Type) : Type := EStateM (Call × PyExc) Frame α

def Frame.start (params : ResolvedParams) (s : UDPSessions) : Frame where
  relay := s
  data := params.data

/-- A call outside the relay. -/
def call {α : Type} (c : Call) (r : Except PyExc α) : PrepareM α :=
  match r with
  | .ok a => pure a
  | .error e => throw (c, e)

/-- A call of a method of the relay. -/
def onRelay {α : Type} (c : Call) (m : SessionM α) : PrepareM α := fun f =>
  match m f.relay with
  | .ok a s => .ok a { f with relay := s }
  | .error e s => .error (c, e) { f with relay := s }

/-- `bind_addr.replace("::ffff:", "")` -/
def stripMapped : List Char → List Char
  | ':' :: ':' :: 'f' :: 'f' :: 'f' :: 'f' :: ':' :: rest => stripMapped rest
  | c :: rest => c :: stripMapped rest
  | [] => []

/-- `_socket_bind_addr`. An exception of `bind` is only logged. -/
def socketBindAddr (config : SessionsConfig) (af : Family) (calls : ResolvedCalls) :
    Except PyExc Unit :=
  let bindAddr :=
    if !config.bind.isEmpty && af = .inet then config.bind
    else if !config.bindv6.isEmpty && af = .inet6 then config.bindv6
    else []
  let bindAddr := stripMapped bindAddr
  if config.ignoreBindList.contains bindAddr || bindAddr.isEmpty then .ok ()
  else
    match calls.bindAddrinfo bindAddr with
    | .error e => .error e
    | .ok [] => .error .indexError
    | .ok (_ :: _) => .ok ()

/-- The socket of a client, looked up in both caches. -/
def findClient (isLocal : Bool) (now : Time) (key : List Char) :
    SessionM (Option (UDPSocket × Option Bytes)) := do
  match ← (kept isLocal .client).get now key with
  | some pair => pure (some pair)
  | none => (kept isLocal .dns).get now key

/-- The cache that a new socket goes to. -/
def cacheFor (sa : SockAddr) (params : ResolvedParams) : Which :=
  if sa.port = 53 ∧ params.isDns = true then .dns else .client

/-- A new socket goes to a cache and to the tables, and to the table of the loop. -/
def storeClient (now : Time) (sa : SockAddr) (params : ResolvedParams) (client : UDPSocket)
    (s : UDPSessions) : UDPSessions :=
  let w := cacheFor sa params
  let key := clientKey params.rAddr sa.ip.family
  let s := s.setCache w ((s.cacheAt w).setItem now key (client, params.uid))
  { s with
    clientFdToServerAddr := s.clientFdToServerAddr.set client.fd (params.rAddr, sa.ip.family)
    sockets := insert client.fd s.sockets
    fdmap := s.fdmap.set client.fd client }

/-- A client without a socket gets one. -/
def newClient (config : SessionsConfig) (now : Time) (sa addr : SockAddr) (params : ResolvedParams)
    (calls : ResolvedCalls) : PrepareM Unit := do
  let fd ← call .socket calls.socket
  let f ← get
  let client : UDPSocket := { serial := f.relay.made.length, fd }
  set { f with
    relay := { f.relay with made := f.relay.made ++ [client] }
    target := some { client, clientUid := params.uid, addr, isNew := true } }
  call .setblocking calls.setblocking
  call .bindAddr (socketBindAddr config sa.ip.family calls)
  modify fun f => { f with relay := f.relay.storeClient now sa params client }
  call .register calls.register
  -- `user_id`
  if params.uid.any (·.length ≠ 4) then throw (.unpack, .structError)

/-- The datagram is encrypted, or its header taken off; nothing is sent when nothing is left. -/
def processData (config : SessionsConfig) (params : ResolvedParams) (calls : ResolvedCalls) :
    PrepareM Bool := do
  if config.isLocal then
    let iv ← call .encryptNewIv calls.encryptNewIv
    let data ← call .clientUdpPreEncrypt (calls.clientUdpPreEncrypt iv (← get).data)
    modify fun f => { f with data }
    let data ← call .encryptAllIv (calls.encryptAllIv iv data)
    modify fun f => { f with data }
    pure !data.isEmpty
  else
    modify fun f => { f with data := f.data.drop params.headerLength }
    pure !(← get).data.isEmpty

/-- The end of the first `try`: the caches are cut to their sizes, and the datagram processed. -/
def finishPrepare (config : SessionsConfig) (params : ResolvedParams) (calls : ResolvedCalls) :
    PrepareM Bool := do
  onRelay .cache ((kept config.isLocal .client).clear config.udpCacheSize)
  onRelay .cache ((kept config.isLocal .dns).clear 16)
  processData config params calls

/-- The first `try` of `_handle_server_dns_resolved`, which may return from it. -/
def prepare (config : SessionsConfig) (now : Time) (serverPort : ℕ) (params : ResolvedParams)
    (calls : ResolvedCalls) : PrepareM Bool := do
  match ← call .getaddrinfo calls.getaddrinfo with
  | [] => pure false
  | sa :: _ =>
    let addr : SockAddr := ⟨sa.ip, serverPort⟩
    match ← onRelay .cache (findClient config.isLocal now
        (clientKey params.rAddr sa.ip.family)) with
    | none =>
      if config.forbids sa then pure false
      else do
        newClient config now sa addr params calls
        finishPrepare config params calls
    | some (client, clientUid) => do
      modify fun f => { f with target := some { client, clientUid, addr, isNew := false } }
      finishPrepare config params calls

/-- The datagram is sent on, and counted; the first one of a client is logged. -/
def sendData (calls : ResolvedCalls) : EStateM PyExc Frame Unit := do
  match (← get).target with
  -- `client` has no value.
  | none => throw .nameError
  | some target =>
    ofExcept calls.sendto
    modify fun f => { f with relay := { f.relay with
      sent := f.relay.sent ++ [⟨target.client, f.data, target.addr⟩]
      counters := f.relay.counters.addTransferU (target.clientUid.map unpackLE) f.data.length } }
    if target.isNew then ofExcept calls.connectLog

/-- The second `try` of `_handle_server_dns_resolved`. -/
def sendOn (calls : ResolvedCalls) : EStateM PyExc Frame Unit :=
  tryCatch (sendData calls) fun e => if e ≠ .osError then throw e else pure ()

/-- `_handle_server_dns_resolved` -/
def handleServerDnsResolved (config : SessionsConfig) (now : Time) (error : Bool) (serverPort : ℕ)
    (params : ResolvedParams) (calls : ResolvedCalls) : SessionM Unit := fun s =>
  if error then .ok () s
  else
    match prepare config now serverPort params calls (.start params s) with
    | .ok false f => .ok () f.relay
    | .ok true f | .error _ f =>
      match sendOn calls f with
      | .ok () f => .ok () f.relay
      | .error e f => .error e f.relay

/-! ## After an exception -/

variable {config : SessionsConfig} {now : Time} {serverPort : ℕ} {params : ResolvedParams}
  {calls : ResolvedCalls} {s : UDPSessions} {x : List Sent}

theorem triple_call {α : Type} {c : Call} {r : Except PyExc α} {P : Frame → Prop}
    {Q : α → Frame → Prop} {E : Call × PyExc → Frame → Prop}
    (h : ∀ a, r = .ok a → ∀ f, P f → Q a f) (h' : ∀ e, r = .error e → ∀ f, P f → E (c, e) f) :
    Triple P (call c r) Q E := by
  cases r with
  | ok a => exact .pure (h a rfl)
  | error e => exact .throw (h' e rfl)

/-- A method of the relay leaves the local variables as they are. -/
theorem triple_onRelay {α : Type} {c : Call} {m : SessionM α} {P : UDPSessions → Prop}
    {Q : α → UDPSessions → Prop} {E : PyExc → UDPSessions → Prop} (h : Triple P m Q E)
    (T : Option Target → Prop) :
    Triple (fun f => P f.relay ∧ T f.target) (onRelay c m) (fun a f => Q a f.relay ∧ T f.target)
      (fun e f => e.1 = c ∧ E e.2 f.relay ∧ T f.target) := by
  rintro f ⟨hf, ht⟩
  rw [onRelay]
  rcases h.cases hf with ⟨a, s, hr, hm⟩ | ⟨e, s, hr, hm⟩
  · rw [hr]
    exact ⟨hm, ht⟩
  · rw [hr]
    exact ⟨rfl, hm, ht⟩

/-- Closing a client sends nothing. -/
theorem sent_closeClient (isLocal : Bool) (client : UDPSocket) :
    Triple (fun s => s.sent = x) (closeClient isLocal client) (fun _ s => s.sent = x)
      fun _ s => s.sent = x := by
  intro s hs
  rw [closeClient, info]
  by_cases hclose : client.hasClose = true
  · rw [if_pos hclose]
    cases s.fileno client with
    | none =>
      by_cases hlocal : isLocal = true
      · rw [if_pos hlocal]
        exact hs
      · rw [if_neg hlocal]
        exact hs
    | some fd =>
      dsimp only
      split_ifs <;> exact hs
  · rw [if_neg hclose]
    exact hs

theorem sent_setCache (s : UDPSessions) (w : Which)
    (c : LRUCache (List Char) (UDPSocket × Option Bytes)) : (s.setCache w c).sent = s.sent := by
  cases w <;> rfl

theorem sent_delItem (isLocal : Bool) (w : Which) (key : List Char) :
    Triple (fun s => s.sent = x) ((kept isLocal w).delItem key) (fun _ s => s.sent = x)
      fun _ s => s.sent = x := by
  intro s hs
  rw [LRUCache.Kept.delItem]
  cases ((kept isLocal w).cache s).delItem key with
  | none => exact hs
  | some c => exact (sent_setCache _ _ _).trans hs

theorem sent_clear (isLocal : Bool) (w : Which) (keep : ℕ) :
    Triple (fun s => s.sent = x) ((kept isLocal w).clear keep) (fun _ s => s.sent = x)
      fun _ s => s.sent = x :=
  LRUCache.Kept.triple_clear (fun key pair => ((sent_closeClient isLocal pair.1).bind fun _ =>
    sent_delItem isLocal w key).pre fun _ h => h.1) keep

theorem sent_findClient (isLocal : Bool) (now : Time) (key : List Char) :
    Triple (fun s => s.sent = x) (findClient isLocal now key) (fun _ s => s.sent = x) Never := by
  have hget (w : Which) : Triple (fun s => s.sent = x) ((kept isLocal w).get now key)
      (fun _ s => s.sent = x) Never := fun s hs => (sent_setCache _ _ _).trans hs
  refine (hget .client).bind fun pair => ?_
  cases pair with
  | none => exact hget .dns
  | some pair => exact .pure fun _ => id

/-- What the variables are when a call raises: without an address, or a socket, there is no
    `client`. -/
def Failed (x : List Sent) (e : Call × PyExc) (f : Frame) : Prop :=
  f.relay.sent = x ∧ (f.target.isSome = true ↔ e.1 ≠ .getaddrinfo ∧ e.1 ≠ .socket)

theorem failed_of_isSome {c : Call} {e : PyExc} {f : Frame}
    (hf : f.relay.sent = x ∧ f.target.isSome = true) (hc : c ≠ .getaddrinfo ∧ c ≠ .socket) :
    Failed x (c, e) f := ⟨hf.1, iff_of_true hf.2 hc⟩

theorem failed_of_none {c : Call} {e : PyExc} {f : Frame}
    (hf : f.relay.sent = x ∧ f.target.isSome = false) (hc : c = .getaddrinfo ∨ c = .socket) :
    Failed x (c, e) f :=
  ⟨hf.1, iff_of_false (by simp [hf.2]) fun h => hc.elim h.1 h.2⟩

theorem triple_newClient (sa addr : SockAddr) :
    Triple (fun f => f.relay.sent = x ∧ f.target.isSome = false)
      (newClient config now sa addr params calls)
      (fun _ f => f.relay.sent = x ∧ f.target.isSome = true) (Failed x) := by
  refine .bind (triple_call (fun _ _ _ => id) fun e _ f hf => failed_of_none hf (.inr rfl))
    fun fd => .get_bind fun f₀ hf₀ => ?_
  refine .bind (R := fun _ f => f.relay.sent = x ∧ f.target.isSome = true)
    (fun f _ => ⟨hf₀.1, rfl⟩) fun _ => ?_
  refine .bind (triple_call (fun _ _ _ => id) fun e _ f hf => failed_of_isSome hf (by decide))
    fun _ => ?_
  refine .bind (triple_call (fun _ _ _ => id) fun e _ f hf => failed_of_isSome hf (by decide))
    fun _ => ?_
  refine .bind (.modify (Q := fun _ f => f.relay.sent = x ∧ f.target.isSome = true) fun f hf =>
    ⟨(sent_setCache _ _ _).trans hf.1, hf.2⟩) fun _ => ?_
  refine .bind (triple_call (fun _ _ _ => id) fun e _ f hf => failed_of_isSome hf (by decide))
    fun _ => ?_
  exact .ite (fun _ => .throw fun f hf => failed_of_isSome hf (by decide))
    fun _ => .pure fun _ => id

theorem triple_processData {J : UDPSessions → Option Target → Prop} :
    Triple (fun f => J f.relay f.target) (processData config params calls)
      (fun _ f => J f.relay f.target)
      (fun e f => (e.1 ≠ .getaddrinfo ∧ e.1 ≠ .socket) ∧ J f.relay f.target) := by
  refine .ite (fun _ => ?_) fun _ => ?_
  · refine .bind (triple_call (fun _ _ _ => id) fun e _ f hf => ⟨by simp, hf⟩)
      fun iv => .get_bind fun f₀ hf₀ => ?_
    refine .bind (triple_call (fun _ _ _ => id) fun e _ f hf => ⟨by simp, hf ▸ hf₀⟩)
      fun data => ?_
    refine .bind (.modify (Q := fun _ f => J f.relay f.target) fun f hf => hf ▸ hf₀) fun _ => ?_
    refine .bind (triple_call (fun _ _ _ => id) fun e _ f hf => ⟨by simp, hf⟩) fun data => ?_
    exact .bind (.modify fun f hf => hf) fun _ => .pure fun _ => id
  · exact .bind (.modify fun f hf => hf) fun _ => .get_bind fun f hf => .pure fun _ h => h ▸ hf

/-- The end of the first `try` keeps what cutting a cache to its size keeps. -/
theorem triple_finishPrepare {I : UDPSessions → Prop} (T : Option Target → Prop)
    (hI : ∀ w keep, Triple I ((kept config.isLocal w).clear keep) (fun _ => I) fun _ => I) :
    Triple (fun f => I f.relay ∧ T f.target) (finishPrepare config params calls)
      (fun _ f => I f.relay ∧ T f.target)
      (fun e f => (e.1 ≠ .getaddrinfo ∧ e.1 ≠ .socket) ∧ I f.relay ∧ T f.target) := by
  have hclear (w : Which) (keep : ℕ) : Triple (fun f => I f.relay ∧ T f.target)
      (onRelay .cache ((kept config.isLocal w).clear keep)) (fun _ f => I f.relay ∧ T f.target)
      (fun e f => (e.1 ≠ .getaddrinfo ∧ e.1 ≠ .socket) ∧ I f.relay ∧ T f.target) := by
    refine (triple_onRelay (hI w keep) T).raises ?_
    rintro ⟨c, e⟩ f ⟨rfl, hf⟩
    exact ⟨by simp, hf⟩
  exact (hclear .client _).bind fun _ => (hclear .dns _).bind fun _ =>
    triple_processData (J := fun relay target => I relay ∧ T target)

/-- When a call of the first `try` raises, nothing has been sent, and there is a `client` unless
    `getaddrinfo` or `socket` raised. -/
theorem triple_prepare :
    Triple (fun f => f.relay.sent = x ∧ f.target.isSome = false)
      (prepare config now serverPort params calls) (fun _ f => f.relay.sent = x) (Failed x) := by
  refine .bind (triple_call (fun _ _ _ => id) fun e _ f hf => failed_of_none hf (.inl rfl))
    fun addrs => ?_
  rcases addrs with - | ⟨sa, addrs⟩
  · exact .pure fun _ => And.left
  dsimp only
  have hfind : Triple (fun f => f.relay.sent = x ∧ f.target.isSome = false)
      (onRelay .cache (findClient config.isLocal now (clientKey params.rAddr sa.ip.family)))
      (fun _ f => f.relay.sent = x ∧ f.target.isSome = false) (Failed x) :=
    (triple_onRelay (sent_findClient config.isLocal now _) (·.isSome = false)).raises
      fun _ _ h => h.2.1.elim
  have hfinish : Triple (fun f => f.relay.sent = x ∧ f.target.isSome = true)
      (finishPrepare config params calls) (fun _ f => f.relay.sent = x) (Failed x) :=
    (triple_finishPrepare (·.isSome = true) (sent_clear config.isLocal)).conseq (fun _ => id)
      (fun _ _ => And.left) fun _ _ hf => failed_of_isSome hf.2 hf.1
  refine hfind.bind fun pair => ?_
  rcases pair with - | ⟨client, clientUid⟩
  · refine .ite (fun _ => .pure fun _ => And.left) fun _ => ?_
    exact (triple_newClient sa _).bind fun _ => hfinish
  · refine .bind (.modify (Q := fun _ f => f.relay.sent = x ∧ f.target.isSome = true) fun f hf =>
      ⟨hf.1, rfl⟩) fun _ => hfinish

/-- The call returns, and no datagram has been sent. -/
def Silent (m : SessionM Unit) (s : UDPSessions) : Prop :=
  ∃ s', m s = .ok () s' ∧ s'.sent = s.sent

/-- When `sendto` returns, the datagram has been sent, whatever is raised after that. -/
theorem triple_sendOn {target : Target} (h : calls.sendto = .ok ()) (f : Frame) :
    Triple (fun g => g = f ∧ f.target = some target) (sendOn calls)
      (fun _ g => g.relay.sent = f.relay.sent ++ [⟨target.client, f.data, target.addr⟩])
      fun _ g => g.relay.sent = f.relay.sent ++ [⟨target.client, f.data, target.addr⟩] := by
  refine .tryCatch (.get_bind ?_) fun e => .ite (fun _ => .throw fun _ => id)
    fun _ => .pure fun _ => id
  rintro _ ⟨rfl, htarget⟩
  rw [htarget, h]
  refine .bind (R := fun _ g => g = _) (.pure fun _ => id) fun _ => ?_
  refine .bind (.modify (Q := fun _ g => g.relay.sent = _) fun g hg => by rw [hg]) fun _ => ?_
  by_cases hnew : target.isNew = true
  · rw [if_pos hnew]
    cases calls.connectLog with
    | ok a => exact .pure fun _ => id
    | error e => exact .throw fun _ => id
  · rw [if_neg hnew]
    exact .pure fun _ => id

/-- When `sendto` raises, nothing is sent, and an `OSError` is caught. -/
theorem sendOn_of_error {target : Target} {e : PyExc} {f : Frame} (h : calls.sendto = .error e)
    (ht : f.target = some target) :
    sendOn calls f = if e ≠ .osError then .error e f else .ok () f := by
  have hget : (get : EStateM PyExc Frame Frame) f = .ok f f := rfl
  have hbody : sendData calls f = .error e f := by
    rw [sendData, bind_of_ok hget, ht, h]
    rfl
  rw [sendOn, tryCatch_apply, hbody]
  dsimp only
  split_ifs <;> rfl

/-- The second `try` is silent if and only if there is a socket, and `sendto` raises what the
    handler catches. -/
theorem sendOn_silent_iff (calls : ResolvedCalls) (f : Frame) :
    (∃ f', sendOn calls f = .ok () f' ∧ f'.relay.sent = f.relay.sent) ↔
      f.target.isSome = true ∧ calls.sendto = .error .osError := by
  cases htarget : f.target with
  | none =>
    have hget : (get : EStateM PyExc Frame Frame) f = .ok f f := rfl
    have hbody : sendData calls f = .error .nameError f := by
      rw [sendData, bind_of_ok hget, htarget]
      rfl
    have hrun : sendOn calls f = .error .nameError f := by
      rw [sendOn, tryCatch_apply, hbody]
      rfl
    simp [hrun]
  | some target =>
    cases hsend : calls.sendto with
    | error e =>
      rw [sendOn_of_error hsend htarget]
      by_cases he : e = .osError
      · simp [he]
      · simp [he]
    | ok a =>
      refine iff_of_false ?_ (by simp)
      rintro ⟨f', hf', hsent⟩
      have hne := (triple_sendOn hsend f).ok ⟨rfl, htarget⟩ hf'
      simp [hsent] at hne

/-- After a call has raised, the datagram is not sent, and nothing raised, if and only if there is
    a socket to send it from and `sendto` raises an `OSError`. -/
theorem silent_iff {call : Call} {e : PyExc} {f : Frame}
    (h : prepare config now serverPort params calls (.start params s) = .error (call, e) f) :
    Silent (handleServerDnsResolved config now false serverPort params calls) s ↔
      (call ≠ .getaddrinfo ∧ call ≠ .socket) ∧ calls.sendto = .error .osError := by
  obtain ⟨hsent, htarget⟩ := Triple.error (triple_prepare (x := s.sent)) ⟨rfl, rfl⟩ h
  have hsend := sendOn_silent_iff calls f
  rw [htarget, hsent] at hsend
  rw [← hsend, Silent, handleServerDnsResolved]
  simp only [Bool.false_eq_true, if_false, h]
  cases sendOn calls f with
  | ok a f' =>
    constructor
    · rintro ⟨s', hs', hsent'⟩
      cases hs'
      exact ⟨f', rfl, hsent'⟩
    · rintro ⟨f'', hf'', hsent'⟩
      cases hf''
      exact ⟨f'.relay, rfl, hsent'⟩
  | error e f' =>
    refine iff_of_false ?_ ?_
    · rintro ⟨s', hs', -⟩
      cases hs'
    · rintro ⟨f'', hf'', -⟩
      cases hf''

/-- A relay of a client. -/
def exampleConfig : SessionsConfig where
  udpCacheSize := 16
  udpTimeout := 120
  isLocal := true

def exampleParams : ResolvedParams where
  data := [1, 8, 8, 8, 8, 0, 53, 42]
  rAddr := ⟨"127.0.0.1".toList, 1080, []⟩
  uid := none
  headerLength := 7

/-- The protocol cannot encrypt, and `sendto` would raise or not. -/
def exampleCalls (sendto : Except PyExc Unit) : ResolvedCalls where
  getaddrinfo := .ok [⟨.v4 0xc0000201, 8388⟩]
  socket := .ok 7
  clientUdpPreEncrypt _ _ := .error .structError
  sendto := sendto

theorem silent_exampleCalls :
    Silent (handleServerDnsResolved exampleConfig 0 false 8388 exampleParams
      (exampleCalls (.error .osError))) (new exampleConfig) := by
  obtain ⟨f, h⟩ : ∃ f, prepare exampleConfig 0 8388 exampleParams
    (exampleCalls (.error .osError)) (.start exampleParams (new exampleConfig)) =
      .error (.clientUdpPreEncrypt, .structError) f := ⟨_, rfl⟩
  exact (silent_iff h).2 ⟨by decide, rfl⟩

/-- The datagram of the client is sent as it is, not encrypted. -/
theorem plain_sent : ∃ f s',
    prepare exampleConfig 0 8388 exampleParams (exampleCalls (.ok ()))
      (.start exampleParams (new exampleConfig)) = .error (.clientUdpPreEncrypt, .structError) f ∧
    handleServerDnsResolved exampleConfig 0 false 8388 exampleParams (exampleCalls (.ok ()))
      (new exampleConfig) = .ok () s' ∧
    s'.sent = [⟨⟨0, 7, true⟩, exampleParams.data, ⟨.v4 0xc0000201, 8388⟩⟩] ∧
    ¬Silent (handleServerDnsResolved exampleConfig 0 false 8388 exampleParams
      (exampleCalls (.ok ()))) (new exampleConfig) := by
  refine ⟨_, _, rfl, rfl, rfl, ?_⟩
  rintro ⟨s', hs', hsent⟩
  cases hs'
  cases hsent

end UDPSessions

end ShadowsocksR

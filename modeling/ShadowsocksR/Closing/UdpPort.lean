import ShadowsocksR.Closing.TcpPort
import ShadowsocksR.UdpSessions.Tables

/-!
# Closing a UDP relay

What a `UDPRelay` has open and what it has registered with the loop: its listening socket, the
sockets of its clients, which are in its caches, and `handle_periodic`. Its `_timeout_cache` and its
`_fd_to_handlers` are never filled.

* `closeClient`: a client leaves the tables, and its socket is closed;
* `UdpPort.handlePeriodic`, `UdpPort.close`: the two ways to close a relay;
* `UdpPort.Live`, `UdpPort.Released`: a relay that is in the loop, and one that has left it;
* `triple_release`, `triple_close`: either way leads from the one to the other.
-/

namespace ShadowsocksR

namespace Closing

open UDPRelay (Which)

/-- The socket of a client. -/
structure Client where
  opened : Bool
  /-- Whether it is in `_sockets` and `_client_fd_to_server_addr`. -/
  known : Bool
  /-- Whether it is in `_fdmap`, and whether `epoll` has it. -/
  polled : Bool
  registered : Bool
  deriving DecidableEq

namespace Client

def live : Client := ⟨true, true, true, true⟩

def gone : Client := ⟨false, false, false, false⟩

/-- `_close_client` -/
def close (c : Client) : Except PyExc Unit × Client :=
  if !c.known then (.error .keyError, c)
  else if !c.polled then (.error .keyError, { c with known := false })
  else if !c.registered then (.error .osError, { c with known := false, polled := false })
  else (.ok (), .gone)

end Client

/-- A `UDPRelay` that has been added to a loop; its clients have numbers. -/
structure UdpPort where
  closed : Bool := false
  /-- Whether `_server_socket` is a socket. -/
  serverSocket : Bool := true
  /-- Whether the listening socket is open, and whether it is in `_fdmap`. -/
  opened : Bool := true
  polled : Bool := true
  udpCacheSize : ℕ
  clients : List Client := []
  /-- The clients in the caches, the one that was used last at the end. -/
  cache : List ℕ := []
  cacheDnsClient : List ℕ := []

namespace UdpPort

def cacheAt (p : UdpPort) : Which → List ℕ
  | .client => p.cache
  | .dns => p.cacheDnsClient

def setCache (w : Which) (js : List ℕ) (p : UdpPort) : UdpPort :=
  match w with
  | .client => { p with cache := js }
  | .dns => { p with cacheDnsClient := js }

/-- `_close_client`, of the client with a number -/
def closeClient (j : ℕ) : PortM UdpPort Unit := do
  match (← get).self.clients[j]? with
  | none => pure ()
  | some c =>
    modifySelf fun p => { p with clients := p.clients.set j c.close.2 }
    match c.close.1 with
    | .ok () => pure ()
    | .error e => throw e

/-- The loop of `LRUCache.clear`: the key is deleted when the client has been closed. -/
def clearLoop (w : Which) (keep : ℕ) : ℕ → PortM UdpPort Unit
  | 0 => pure ()
  | n + 1 => do
    match (← get).self.cacheAt w with
    | [] => pure ()
    | j :: js =>
      if js.length + 1 > keep then
        closeClient j
        modifySelf (setCache w js)
        clearLoop w keep n
      else pure ()

/-- `clear` -/
def clear (w : Which) (keep : ℕ) : PortM UdpPort Unit := do
  clearLoop w keep ((← get).self.cacheAt w).length

/-- The loop of `LRUCache.sweep`, when so many clients have been idle: the key is deleted first. -/
def sweep (w : Which) : ℕ → PortM UdpPort Unit
  | 0 => pure ()
  | n + 1 => do
    match (← get).self.cacheAt w with
    | [] => pure ()
    | j :: js =>
      modifySelf (setCache w js)
      closeClient j
      sweep w n

/-- `_eventloop.remove(self._server_socket)`; a closed socket is -1. -/
def remove : PortM UdpPort Unit := do
  if !(← get).self.serverSocket then throw .attributeError
  else if (← get).self.opened && (← get).self.polled then
    modifySelf fun p => { p with polled := false }
  else throw .keyError

/-- `_server_socket.close()` -/
def closeServerSocket : PortM UdpPort Unit := do
  if (← get).self.serverSocket then modifySelf fun p => { p with opened := false }
  else throw .attributeError

/-- `handle_periodic` -/
def handlePeriodic (me : ℕ) (idle : Which → ℕ) : PortM UdpPort Unit := do
  if (← get).self.closed then
    clear .client 0
    clear .dns 0
    removePeriodic me
    remove
    closeServerSocket
    modifySelf fun p => { p with serverSocket := false }
  else
    sweep .client (idle .client)
    sweep .dns (idle .dns)

/-- `close` -/
def close (me : ℕ) (nextTick : Bool) : PortM UdpPort Unit := do
  modifySelf fun p => { p with closed := true }
  if !nextTick then
    removePeriodic me
    remove
    closeServerSocket
    clear .client 0
    clear .dns 0

/-! ## What the clients do -/

/-- What `_handle_server_dns_resolved` finds for a datagram. -/
inductive Found
  /-- There is an error, or no address, or a forbidden one, or no socket. -/
  | nothing
  /-- The client of the address. -/
  | known (w : Which) (j : ℕ)
  /-- A new client; `_eventloop.add` may raise. -/
  | new (w : Which) (registers : Bool)

inductive Event
  /-- `_handle_server_dns_resolved`: called for a datagram, or by the resolver, which may do so at
      any time. -/
  | resolved (found : Found)
  /-- A client has a reply. -/
  | reply (w : Which) (j : ℕ)
  /-- The client of the resolver has had its reply. -/
  | answered (j : ℕ)

/-- A new client is stored in a cache. -/
def addClient (w : Which) (c : Client) (p : UdpPort) : UdpPort :=
  { p.setCache w (p.cacheAt w ++ [p.clients.length]) with clients := p.clients ++ [c] }

/-- `_handle_server_dns_resolved`. What its calls raise is caught. -/
def handleServerDnsResolved : Found → PortM UdpPort Unit
  | .nothing => pure ()
  | .known w j => do
    modifySelf fun p => p.setCache w ((p.cacheAt w).erase j ++ [j])
    clear .client (← get).self.udpCacheSize
    clear .dns 16
  | .new w registers => do
    modifySelf (addClient w { Client.live with registered := registers })
    if registers then
      clear .client (← get).self.udpCacheSize
      clear .dns 16
    else throw .osError

/-- What a client does, if it can. -/
def Event.run (p : UdpPort) : Event → Option (PortM UdpPort Unit)
  | .resolved (.known w j) =>
    if j ∈ p.cacheAt w then some (handleServerDnsResolved (.known w j)) else none
  | .resolved found => some (handleServerDnsResolved found)
  | .reply w j =>
    if j ∈ p.cacheAt w then
      some (modifySelf fun p => p.setCache w ((p.cacheAt w).erase j ++ [j]))
    else none
  | .answered j =>
    if j ∈ p.cacheDnsClient then
      some do
        modifySelf fun p => { p with cacheDnsClient := p.cacheDnsClient.erase j }
        closeClient j
    else none

/-! ## The tables agree -/

/-- The clients in the caches are in all tables, and the others in none. -/
structure Agree (p : UdpPort) : Prop where
  nodup : ∀ w, (p.cacheAt w).Nodup
  once : ∀ w w' j, j ∈ p.cacheAt w → j ∈ p.cacheAt w' → w = w'
  live : ∀ w, ∀ j ∈ p.cacheAt w, p.clients[j]? = some .live
  gone : ∀ j c, p.clients[j]? = some c → (∀ w, j ∉ p.cacheAt w) → c = .gone

/-- A client has been closed, and a cache has only the others. -/
def drop (w : Which) (j : ℕ) (js : List ℕ) (p : UdpPort) : UdpPort :=
  { p.setCache w js with clients := p.clients.set j .gone }

variable {p p' : UdpPort} {callbacks js : List ℕ} {me j : ℕ} {w w' : Which} {empty : Which → Prop}

theorem cacheAt_setCache (w w' : Which) (js : List ℕ) (p : UdpPort) :
    (p.setCache w js).cacheAt w' = if w' = w then js else p.cacheAt w' := by
  cases w <;> cases w' <;> rfl

theorem clients_setCache (w : Which) (js : List ℕ) (p : UdpPort) :
    (p.setCache w js).clients = p.clients := by
  cases w <;> rfl

theorem cacheAt_drop (w w' : Which) (j : ℕ) (js : List ℕ) (p : UdpPort) :
    (p.drop w j js).cacheAt w' = if w' = w then js else p.cacheAt w' := by
  cases w <;> cases w' <;> rfl

theorem agree_new (udpCacheSize : ℕ) : ({ udpCacheSize } : UdpPort).Agree := by
  have hcache (w : Which) : ({ udpCacheSize } : UdpPort).cacheAt w = [] := by cases w <;> rfl
  refine ⟨fun w => ?_, fun w _ j hj => ?_, fun w j hj => ?_, fun j c hc => ?_⟩
  · rw [hcache]
    exact List.nodup_nil
  · rw [hcache] at hj
    cases hj
  · rw [hcache] at hj
    cases hj
  · cases hc

/-- Only the clients and the caches matter. -/
theorem Agree.congr (h : p.Agree) (hclients : p'.clients = p.clients)
    (hcache : ∀ w, p'.cacheAt w = p.cacheAt w) : p'.Agree := by
  refine ⟨fun w => ?_, fun w₁ w₂ j h₁ h₂ => ?_, fun w j hj => ?_, fun j c hc hj => ?_⟩
  · rw [hcache]
    exact h.nodup w
  · rw [hcache] at h₁ h₂
    exact h.once w₁ w₂ j h₁ h₂
  · rw [hcache] at hj
    rw [hclients]
    exact h.live w j hj
  · rw [hclients] at hc
    exact h.gone j c hc fun w => hcache w ▸ hj w

/-- A cache in another order. -/
theorem Agree.perm (h : p.Agree) (hperm : js.Perm (p.cacheAt w)) : (p.setCache w js).Agree := by
  have hmem (w' : Which) (j : ℕ) : j ∈ (p.setCache w js).cacheAt w' ↔ j ∈ p.cacheAt w' := by
    rw [cacheAt_setCache]
    split_ifs with hw
    · rw [hw]
      exact hperm.mem_iff
    · exact Iff.rfl
  refine ⟨fun w' => ?_, fun w₁ w₂ j h₁ h₂ => ?_, fun w' j hj => ?_, fun j c hc hj => ?_⟩
  · rw [cacheAt_setCache]
    split_ifs with hw
    · exact hperm.nodup_iff.2 (h.nodup w)
    · exact h.nodup w'
  · exact h.once w₁ w₂ j ((hmem w₁ j).1 h₁) ((hmem w₂ j).1 h₂)
  · rw [clients_setCache]
    exact h.live w' j ((hmem w' j).1 hj)
  · rw [clients_setCache] at hc
    exact h.gone j c hc fun w' hw' => hj w' ((hmem w' j).2 hw')

/-- A client leaves its cache, and is gone. -/
theorem Agree.drop (h : p.Agree) (hj : (p.cacheAt w).Perm (j :: js)) : (p.drop w j js).Agree := by
  have hnodup : (j :: js).Nodup := hj.nodup_iff.1 (h.nodup w)
  have hmemw : j ∈ p.cacheAt w := hj.mem_iff.2 List.mem_cons_self
  -- No other cache has the client, so it is in none any more.
  have hmem (w' : Which) (i : ℕ) : i ∈ (p.drop w j js).cacheAt w' ↔ i ∈ p.cacheAt w' ∧ i ≠ j := by
    rw [cacheAt_drop]
    split_ifs with hw
    · rw [hw, hj.mem_iff, List.mem_cons]
      constructor
      · intro hi
        exact ⟨.inr hi, fun hij => (List.nodup_cons.1 hnodup).1 (hij ▸ hi)⟩
      · exact fun hi => hi.1.resolve_left hi.2
    · refine ⟨fun hi => ⟨hi, ?_⟩, And.left⟩
      rintro rfl
      exact hw (h.once w' w i hi hmemw)
  refine ⟨fun w' => ?_, fun w₁ w₂ i h₁ h₂ => ?_, fun w' i hi => ?_, fun i c hc hi => ?_⟩
  · rw [cacheAt_drop]
    split_ifs with hw
    · exact (List.nodup_cons.1 hnodup).2
    · exact h.nodup w'
  · exact h.once w₁ w₂ i ((hmem w₁ i).1 h₁).1 ((hmem w₂ i).1 h₂).1
  · obtain ⟨hi, hne⟩ := (hmem w' i).1 hi
    rw [UdpPort.drop, List.getElem?_set_ne (Ne.symm hne)]
    exact h.live w' i hi
  · rw [UdpPort.drop, List.getElem?_set] at hc
    split_ifs at hc with hij hlt
    · cases hc
      rfl
    · exact h.gone i c hc fun w' hw' => hi w' ((hmem w' i).2 ⟨hw', Ne.symm hij⟩)

theorem cacheAt_addClient (w w' : Which) (c : Client) (p : UdpPort) :
    (p.addClient w c).cacheAt w' =
      if w' = w then p.cacheAt w' ++ [p.clients.length] else p.cacheAt w' := by
  cases w <;> cases w' <;> rfl

/-- A new client is in one of the caches. -/
theorem Agree.addClient (h : p.Agree) (w : Which) : (p.addClient w .live).Agree := by
  -- The numbers in the caches are those of clients, and the new one is the next number.
  have hlt (w' : Which) (i : ℕ) (hi : i ∈ p.cacheAt w') : i < p.clients.length :=
    (List.getElem?_eq_some_iff.1 (h.live w' i hi)).1
  have hnew (w' : Which) : p.clients.length ∉ p.cacheAt w' := fun hi => lt_irrefl _ (hlt w' _ hi)
  have hmem (w' : Which) (i : ℕ) : i ∈ (p.addClient w .live).cacheAt w' ↔
      i ∈ p.cacheAt w' ∨ w' = w ∧ i = p.clients.length := by
    rw [cacheAt_addClient]
    split_ifs with hw
    · rw [List.mem_append, List.mem_singleton]
      exact or_congr Iff.rfl (by rw [and_iff_right hw])
    · exact ⟨.inl, fun hi => hi.resolve_right fun h => hw h.1⟩
  refine ⟨fun w' => ?_, fun w₁ w₂ i h₁ h₂ => ?_, fun w' i hi => ?_, fun i c hc hi => ?_⟩
  · rw [cacheAt_addClient]
    split_ifs with hw
    · refine List.nodup_append.2 ⟨h.nodup w', List.nodup_singleton _, fun i hi i' hi' => ?_⟩
      rw [List.mem_singleton.1 hi']
      exact (hlt w' i hi).ne
    · exact h.nodup w'
  · rcases (hmem w₁ i).1 h₁ with h₁ | ⟨hw₁, rfl⟩
    · rcases (hmem w₂ i).1 h₂ with h₂ | ⟨-, rfl⟩
      · exact h.once w₁ w₂ i h₁ h₂
      · exact absurd h₁ (hnew w₁)
    · rcases (hmem w₂ _).1 h₂ with h₂ | ⟨hw₂, -⟩
      · exact absurd h₂ (hnew w₂)
      · rw [hw₁, hw₂]
  · rw [UdpPort.addClient]
    rcases (hmem w' i).1 hi with hi | ⟨-, rfl⟩
    · rw [List.getElem?_append_left (hlt w' i hi)]
      exact h.live w' i hi
    · rw [List.getElem?_append_right le_rfl, Nat.sub_self]
      rfl
  · rw [UdpPort.addClient] at hc
    have hi' (w' : Which) : i ∉ p.cacheAt w' := fun h => hi w' ((hmem w' i).2 (.inl h))
    rcases lt_or_ge i p.clients.length with hlen | hlen
    · rw [List.getElem?_append_left hlen] at hc
      exact h.gone i c hc hi'
    · have hil := (List.getElem?_eq_some_iff.1 hc).1
      rw [List.length_append, List.length_singleton] at hil
      exact absurd ((hmem w i).2 (.inr ⟨rfl, by omega⟩)) (hi w)

/-! ## Clients are closed -/

/-- Of a relay only the clients and the caches change, the tables agree, and the caches that were
    empty still are. -/
structure Keeping (p : UdpPort) (callbacks : List ℕ) (empty : Which → Prop) (s : Scope UdpPort) :
    Prop where
  callbacks : s.periodicCallbacks = callbacks
  self : s.self = { p with
    clients := s.self.clients, cache := s.self.cache, cacheDnsClient := s.self.cacheDnsClient }
  agree : s.self.Agree
  empty : ∀ w, empty w → s.self.cacheAt w = []

theorem Keeping.start (h : p.Agree) (hempty : ∀ w, empty w → p.cacheAt w = []) :
    Keeping p callbacks empty ⟨p, callbacks⟩ := ⟨rfl, rfl, h, hempty⟩

/-- A client of a cache is closed. -/
theorem Keeping.drop {s : Scope UdpPort} (h : Keeping p callbacks empty s)
    (hj : (s.self.cacheAt w).Perm (j :: js)) :
    Keeping p callbacks empty ⟨s.self.drop w j js, s.periodicCallbacks⟩ := by
  refine ⟨h.callbacks, ?_, h.agree.drop hj, fun w' hw' => ?_⟩
  · dsimp only
    rw [UdpPort.drop]
    cases w <;> rw [h.self] <;> rfl
  · rw [cacheAt_drop, if_neg]
    · exact h.empty w' hw'
    · rintro rfl
      rw [h.empty w' hw'] at hj
      exact List.not_perm_cons_nil hj.symm

/-- A client that is in the tables is closed. -/
theorem triple_closeClient (s₀ : Scope UdpPort) (h : s₀.self.clients[j]? = some .live) :
    Triple (· = s₀) (closeClient j) (fun _ s => s =
      { s₀ with self := { s₀.self with clients := s₀.self.clients.set j .gone } }) Never := by
  refine .get_bind fun s hs => ?_
  rw [hs, h]
  exact .bind (.modify (Q := fun _ s => s =
    { s₀ with self := { s₀.self with clients := s₀.self.clients.set j .gone } })
    fun t ht => by rw [ht]; rfl) fun _ => .pure fun _ => id

theorem triple_clearLoop (w : Which) (keep n : ℕ) : Triple
    (fun s => Keeping p callbacks empty s ∧ (s.self.cacheAt w).length ≤ n + keep)
    (clearLoop w keep n)
    (fun _ s => Keeping p callbacks empty s ∧ (s.self.cacheAt w).length ≤ keep) Never := by
  induction n with
  | zero => exact .pure fun s hs => ⟨hs.1, by omega⟩
  | succ n ih =>
    refine .get_bind fun s hs => ?_
    cases hcache : s.self.cacheAt w with
    | nil => exact .pure fun t ht => by rw [ht]; exact ⟨hs.1, by simp [hcache]⟩
    | cons j js =>
      dsimp only
      have hperm : (s.self.cacheAt w).Perm (j :: js) := by rw [hcache]
      have hlive := hs.1.agree.live w j (hperm.mem_iff.2 List.mem_cons_self)
      refine .ite (fun _ => ?_) fun hkeep => .pure fun t ht => by
        rw [ht]; exact ⟨hs.1, by rw [hcache, List.length_cons]; omega⟩
      refine ((triple_closeClient s hlive).bind fun _ => ?_)
      refine .bind (.modify (Q := fun _ t => t = ⟨s.self.drop w j js, s.periodicCallbacks⟩)
        fun t ht => ?_) fun _ => ih.pre fun t ht => ?_
      · rw [ht]
        cases w <;> rfl
      · rw [ht]
        refine ⟨hs.1.drop hperm, ?_⟩
        have hlength := hs.2
        rw [hcache, List.length_cons] at hlength
        rw [cacheAt_drop, if_pos rfl]
        omega

/-- `clear` -/
theorem triple_clear (w : Which) (keep : ℕ) : Triple (Keeping p callbacks empty) (clear w keep)
    (fun _ s => Keeping p callbacks empty s ∧ (s.self.cacheAt w).length ≤ keep) Never := by
  refine .get_bind fun s hs => (triple_clearLoop w keep _).pre fun t ht => ?_
  rw [ht]
  exact ⟨hs, Nat.le_add_right _ _⟩

/-- A cache is emptied. -/
theorem triple_clear_zero (w : Which) : Triple (Keeping p callbacks empty) (clear w 0)
    (fun _ => Keeping p callbacks fun w' => w' = w ∨ empty w') Never :=
  (triple_clear w 0).post fun _ _ hs => ⟨hs.1.callbacks, hs.1.self, hs.1.agree, fun w' hw' =>
    hw'.elim (fun h => h ▸ List.eq_nil_of_length_eq_zero (Nat.le_zero.1 hs.2)) (hs.1.empty w')⟩

theorem triple_sweep (w : Which) (n : ℕ) : Triple (Keeping p callbacks empty) (sweep w n)
    (fun _ => Keeping p callbacks empty) Never := by
  induction n with
  | zero => exact .pure fun _ => id
  | succ n ih =>
    refine .get_bind fun s hs => ?_
    cases hcache : s.self.cacheAt w with
    | nil => exact .pure fun t ht => by rw [ht]; exact hs
    | cons j js =>
      dsimp only
      have hperm : (s.self.cacheAt w).Perm (j :: js) := by rw [hcache]
      have hlive := hs.agree.live w j (hperm.mem_iff.2 List.mem_cons_self)
      refine .bind (.modify (Q := fun _ t => t = ⟨s.self.setCache w js, s.periodicCallbacks⟩)
        fun t ht => by rw [ht]) fun _ => ?_
      refine (triple_closeClient ⟨s.self.setCache w js, s.periodicCallbacks⟩
        (by rw [clients_setCache]; exact hlive)).bind fun _ => ih.pre fun t ht => ?_
      rw [ht]
      have hdrop := hs.drop hperm
      rw [UdpPort.drop] at hdrop
      rwa [clients_setCache]

/-! ## In the loop, and out of it -/

/-- The relay is in the loop; it may have been closed, with the next tick to come. -/
structure Live (p : UdpPort) : Prop where
  serverSocket : p.serverSocket = true
  opened : p.opened = true
  polled : p.polled = true
  agree : p.Agree

/-- Its listening socket is closed, and it has no clients. -/
structure Released (p : UdpPort) : Prop where
  closed : p.closed = true
  opened : p.opened = false
  polled : p.polled = false
  agree : p.Agree
  empty : ∀ w, p.cacheAt w = []

theorem Released.gone (h : p.Released) : ∀ c ∈ p.clients, c = .gone := by
  intro c hc
  obtain ⟨j, hj⟩ := List.mem_iff_getElem?.1 hc
  refine h.agree.gone j c hj fun w => ?_
  rw [h.empty w]
  exact List.not_mem_nil

theorem Keeping.live {s : Scope UdpPort} (h : p.Live) (hs : Keeping p callbacks empty s) :
    s.self.Live ∧ s.self.closed = p.closed ∧ s.periodicCallbacks = callbacks := by
  refine ⟨⟨?_, ?_, ?_, hs.agree⟩, ?_, hs.callbacks⟩
  · rw [hs.self]; exact h.serverSocket
  · rw [hs.self]; exact h.opened
  · rw [hs.self]; exact h.polled
  · rw [hs.self]

/-- The listening socket leaves the loop, and is closed. -/
theorem triple_unlisten (p : UdpPort) (callbacks : List ℕ) : Triple
    (fun s => s.self = p ∧ s.periodicCallbacks = callbacks ∧ p.Live)
    (do remove; closeServerSocket)
    (fun _ s => s.self = { p with polled := false, opened := false } ∧
      s.periodicCallbacks = callbacks) Never := by
  rintro ⟨self, _⟩ ⟨rfl, rfl, h⟩
  obtain ⟨closed, serverSocket, opened, polled, udpCacheSize, clients, cache, dns⟩ := self
  obtain rfl : serverSocket = true := h.serverSocket
  obtain rfl : opened = true := h.opened
  obtain rfl : polled = true := h.polled
  exact ⟨rfl, rfl⟩

/-- Both caches are emptied. -/
theorem triple_clearAll (p : UdpPort) (callbacks : List ℕ) : Triple
    (Keeping p callbacks fun _ => False)
    (do clear .client 0; clear .dns 0) (fun _ => Keeping p callbacks fun _ => True) Never :=
  (triple_clear_zero .client).bind fun _ => (triple_clear_zero .dns).post fun _ _ hs =>
    ⟨hs.callbacks, hs.self, hs.agree, fun w _ => hs.empty w (by cases w <;> simp)⟩

/-- An immediate close releases everything. -/
theorem triple_close : Triple
    (fun s => p.Live ∧ s.self = p ∧ s.periodicCallbacks = callbacks ∧ me ∈ callbacks)
    (close me false)
    (fun _ s => s.self.Released ∧ s.periodicCallbacks = callbacks.erase me) Never := by
  refine .intro_pre fun h => triple_unregister ?_
  have hagree {closed opened polled : Bool} : ({ p with closed, opened, polled } : UdpPort).Agree :=
    h.agree.congr rfl fun w => by cases w <;> rfl
  have hunlisten := triple_unlisten { p with closed := true } (callbacks.erase me)
  rw [← bind_assoc]
  refine (hunlisten.pre fun s hs => ⟨hs.1, hs.2, h.serverSocket, h.opened, h.polled,
    hagree⟩).bind fun _ => ?_
  refine (triple_clearAll { p with closed := true, polled := false, opened := false }
    (callbacks.erase me)).conseq (fun s hs => ?_)
    (fun _ s hs => ⟨⟨?_, ?_, ?_, hs.agree, fun w => hs.empty w trivial⟩, hs.callbacks⟩)
    fun _ _ => id
  · obtain ⟨self, _⟩ := s
    obtain ⟨rfl, rfl⟩ := hs
    exact .start hagree fun _ => False.elim
  all_goals rw [hs.self]

/-- Closing a relay that has left the loop changes nothing else. -/
theorem triple_close_again : Triple
    (fun s => s.self = p ∧ s.periodicCallbacks = callbacks ∧ me ∉ callbacks) (close me false)
    (fun _ _ => False)
    (fun _ s => s.self = { p with closed := true } ∧ s.periodicCallbacks = callbacks) :=
  triple_unregister_absent

/-- In a tick a relay that has been closed releases everything. -/
theorem triple_release (idle : Which → ℕ) : Triple
    (fun s => (p.Live ∧ p.closed = true) ∧ s.self = p ∧ s.periodicCallbacks = callbacks ∧
      me ∈ callbacks)
    (handlePeriodic me idle)
    (fun _ s => s.self.Released ∧ s.periodicCallbacks = callbacks.erase me) Never := by
  -- The caches come first here, then the callback, and the listening socket at the end.
  refine .intro_pre fun h => .get_bind fun s hs => .ite (fun _ => ?_) fun hclosed => ?_
  · have hclear := triple_clearAll p callbacks
    rw [← bind_assoc]
    refine .bind (R := fun _ t => (t.self.Live ∧ t.self.closed = true ∧
      ∀ w, t.self.cacheAt w = []) ∧ t.periodicCallbacks = callbacks ∧ me ∈ callbacks)
      (hclear.conseq (fun t ht => ?_) (fun _ t ht => ⟨⟨(ht.live h.1).1,
        (ht.live h.1).2.1.trans h.2, fun w => ht.empty w trivial⟩, ht.callbacks, hs.2.2⟩)
        fun _ _ => id) fun _ => ?_
    · obtain ⟨self, _⟩ := s
      obtain ⟨rfl, rfl, -⟩ := hs
      rw [ht]
      exact .start h.1.agree fun _ => False.elim
    refine (triple_removePeriodic me (fun self : UdpPort => self.Live ∧ self.closed = true ∧
      ∀ w, self.cacheAt w = []) callbacks).bind fun _ => ?_
    rintro t ⟨⟨hlive, hclosed, hempty⟩, hcallbacks⟩
    rw [← bind_assoc]
    refine (triple_unlisten t.self (callbacks.erase me)).bind
      (fun _ => .modify fun u hu => ⟨?_, hu.2⟩) t ⟨rfl, hcallbacks, hlive⟩
    rw [hu.1]
    refine ⟨hclosed, rfl, rfl, hlive.agree.congr rfl fun w => ?_, fun w => (hempty w).symm ▸ ?_⟩
    · cases w <;> rfl
    · cases w <;> rfl
  · rw [hs.1] at hclosed
    exact absurd h.2 hclosed

/-- A relay that has not been closed stays in the loop. -/
theorem triple_handlePeriodic (me : ℕ) (idle : Which → ℕ) : Triple
    (fun s => (p.Live ∧ p.closed = false) ∧ s.self = p ∧ s.periodicCallbacks = callbacks)
    (handlePeriodic me idle)
    (fun _ s => s.self.Live ∧ s.self.closed = p.closed ∧ s.periodicCallbacks = callbacks)
    Never := by
  refine .intro_pre fun h => .get_bind fun s hs => .ite (fun hclosed => ?_) fun _ => ?_
  · rw [hs.1, h.2] at hclosed
    cases hclosed
  · have hsweep : Triple (Keeping p callbacks fun _ => False)
        (do sweep .client (idle .client); sweep .dns (idle .dns))
        (fun _ => Keeping p callbacks fun _ => False) Never :=
      (triple_sweep .client _).bind fun _ => triple_sweep .dns _
    refine hsweep.conseq (fun t ht => ?_)
      (fun _ t ht => ht.live h.1) fun _ _ => id
    obtain ⟨self, _⟩ := s
    obtain ⟨rfl, rfl⟩ := hs
    rw [ht]
    exact .start h.1.agree fun _ => False.elim

/-! ## What the clients do keeps the relay where it is -/

variable {e : Event} {m : PortM UdpPort Unit}

/-- A socket that is opened is registered with the loop, and none is opened when the relay has left
    the loop. -/
def Event.Registers (inLoop : Prop) : Event → Prop
  | .resolved (.new _ registers) => inLoop ∧ registers = true
  | _ => True

/-- The caches are cut to their sizes. -/
theorem triple_cut (p : UdpPort) (callbacks : List ℕ) (empty : Which → Prop) :
    Triple (Keeping p callbacks empty) (do
      clear .client (← get).self.udpCacheSize
      clear .dns 16)
    (fun _ => Keeping p callbacks empty) Never :=
  .get_bind fun s hs => .bind ((triple_clear .client _).conseq (fun _ ht => by rw [ht]; exact hs)
    (fun _ _ ht => ht.1) fun _ _ => id) fun _ => (triple_clear .dns 16).post fun _ _ ht => ht.1

theorem Live.setCache (h : p.Live) (hperm : js.Perm (p.cacheAt w)) : (p.setCache w js).Live := by
  refine ⟨?_, ?_, ?_, h.agree.perm hperm⟩
  · cases w <;> exact h.serverSocket
  · cases w <;> exact h.opened
  · cases w <;> exact h.polled

theorem Live.addClient (h : p.Live) (w : Which) : (p.addClient w .live).Live := by
  refine ⟨?_, ?_, ?_, h.agree.addClient w⟩
  · cases w <;> exact h.serverSocket
  · cases w <;> exact h.opened
  · cases w <;> exact h.polled

theorem closed_setCache (w : Which) (js : List ℕ) (p : UdpPort) :
    (p.setCache w js).closed = p.closed := by
  cases w <;> rfl

theorem closed_addClient (w : Which) (c : Client) (p : UdpPort) :
    (p.addClient w c).closed = p.closed := by
  cases w <;> rfl

/-- What a client does leaves the relay in the loop. -/
theorem Live.run (h : p.Live) (he : e.Registers True) (hm : e.run p = some m) :
    Triple (· = ⟨p, callbacks⟩) m
      (fun _ s => s.self.Live ∧ s.self.closed = p.closed ∧ s.periodicCallbacks = callbacks)
      Never := by
  -- A datagram moves a client to the end of its cache, or adds one, and then the caches are cut.
  have hcut (q : UdpPort) (hq : q.Live) (hclosed : q.closed = p.closed) :
      Triple (· = ⟨q, callbacks⟩)
        (do
          clear .client (← get).self.udpCacheSize
          clear .dns 16)
        (fun _ s => s.self.Live ∧ s.self.closed = p.closed ∧ s.periodicCallbacks = callbacks)
        Never :=
    (triple_cut q callbacks fun _ => False).conseq
      (fun _ ht => by rw [ht]; exact .start hq.agree fun _ => False.elim)
      (fun _ _ ht => ⟨(ht.live hq).1, (ht.live hq).2.1.trans hclosed, ht.callbacks⟩) fun _ _ => id
  have hused {w : Which} {j : ℕ} (hj : j ∈ p.cacheAt w) :
      ((p.cacheAt w).erase j ++ [j]).Perm (p.cacheAt w) :=
    (List.perm_append_singleton j _).trans (List.perm_cons_erase hj).symm
  cases e with
  | resolved found =>
    cases found with
    | nothing =>
      cases hm
      exact .pure fun s hs => by rw [hs]; exact ⟨h, rfl, rfl⟩
    | known w j =>
      simp only [Event.run] at hm
      split_ifs at hm with hj
      cases hm
      exact .bind (.modify (Q := fun _ s => s = ⟨p.setCache w ((p.cacheAt w).erase j ++ [j]),
        callbacks⟩) fun s hs => by rw [hs]) fun _ =>
          hcut _ (h.setCache (hused hj)) (closed_setCache _ _ _)
    | new w registers =>
      cases hm
      obtain rfl := he.2
      exact .bind (.modify (Q := fun _ s => s = ⟨p.addClient w .live, callbacks⟩)
        fun s hs => by rw [hs]; rfl) fun _ => hcut _ (h.addClient w) (closed_addClient _ _ _)
  | reply w j =>
    simp only [Event.run] at hm
    split_ifs at hm with hj
    cases hm
    exact .modify fun s hs => by
      rw [hs]
      exact ⟨h.setCache (hused hj), closed_setCache _ _ _, rfl⟩
  | answered j =>
    simp only [Event.run] at hm
    split_ifs at hm with hj
    cases hm
    refine .bind (.modify (Q := fun _ s => s = ⟨p.setCache .dns (p.cacheDnsClient.erase j),
      callbacks⟩) fun s hs => by rw [hs]; rfl) fun _ => ?_
    refine (triple_closeClient ⟨p.setCache .dns (p.cacheDnsClient.erase j), callbacks⟩
      (h.agree.live .dns j hj)).post fun _ s hs => ?_
    rw [hs]
    exact ⟨⟨h.serverSocket, h.opened, h.polled, h.agree.drop (w := .dns) (List.perm_cons_erase hj)⟩,
      rfl, rfl⟩

/-- What a client does finds nothing when the relay has left the loop. -/
theorem Released.run (h : p.Released) (he : e.Registers False) (hm : e.run p = some m) :
    Triple (· = ⟨p, callbacks⟩) m (fun _ s => s = ⟨p, callbacks⟩) Never := by
  cases e with
  | resolved found =>
    cases found with
    | nothing =>
      cases hm
      exact .pure fun _ => id
    | known w j =>
      simp [Event.run, h.empty w] at hm
    | new w registers => exact he.1.elim
  | reply w j => simp [Event.run, h.empty w] at hm
  | answered j =>
    have hempty : p.cacheDnsClient = [] := h.empty .dns
    simp [Event.run, hempty] at hm

end UdpPort

end Closing

end ShadowsocksR

import ShadowsocksR.LruCache.Callback
import ShadowsocksR.ServerPool
import ShadowsocksR.UdpSessions.Tables

/-!
# The sockets of a UDP relay

The state of a UDP relay, as a client or as a server, and its two caches, in which the sockets of
its clients are until they are closed.

* `closeClient`: `_close_client`;
* `kept`: the caches, with `_close_client_pair` as their callback;
* `closeClient_eq`: with tables that agree, closing a client that is in a cache raises nothing;
* `triple_clear`, `triple_sweep`, `triple_removeClient`: the tables agree whichever way a client
  leaves a cache.
-/

namespace ShadowsocksR

open UDPRelay (Which)

/-- The configuration of a relay. -/
structure SessionsConfig extends UDPConfig where
  isLocal : Bool
  /-- `out_bind`, `out_bindv6` and `ignore_bind` -/
  bind : List Char := []
  bindv6 : List Char := []
  ignoreBindList : List (List Char) := []

/-- A datagram that has been sent on. -/
structure Sent where
  client : UDPSocket
  data : Bytes
  addr : SockAddr
  deriving DecidableEq

/-- A UDP relay. -/
structure UDPSessions extends Tables where
  /-- `_cache`: for every key, a socket and its user. -/
  cache : LRUCache (List Char) (UDPSocket × Option Bytes)
  cacheDnsClient : LRUCache (List Char) (UDPSocket × Option Bytes)
  closed : Bool := false
  /-- Whether the loop polls the socket of the server, and calls `handle_periodic`. -/
  listening : Bool := true
  /-- Whether `_server_socket` is a socket. -/
  serverSocket : Bool := true
  counters : Counters := {}
  sent : List Sent := []

/-- A method of the relay. -/
abbrev SessionM (α : Type) : Type := EStateM PyExc UDPSessions α

namespace UDPSessions

def new (config : SessionsConfig) : UDPSessions where
  cache := { timeout := config.udpTimeout }
  cacheDnsClient := { timeout := 10 }

def cacheAt (s : UDPSessions) : Which → LRUCache (List Char) (UDPSocket × Option Bytes)
  | .client => s.cache
  | .dns => s.cacheDnsClient

def setCache (s : UDPSessions) (w : Which) (c : LRUCache (List Char) (UDPSocket × Option Bytes)) :
    UDPSessions :=
  match w with
  | .client => { s with cache := c }
  | .dns => { s with cacheDnsClient := c }

/-! ## Closing clients -/

/-- `client.info`, which raises. -/
def info (client : UDPSocket) : SessionM Unit := fun s =>
  .error .attributeError { s with actions := s.actions ++ [.info client] }

/-- `_close_client` -/
def closeClient (isLocal : Bool) (client : UDPSocket) : SessionM Unit := fun s =>
  if client.hasClose then
    match s.fileno client with
    | none => if isLocal then .error .keyError s else info client s
    | some fd =>
      if isLocal = false ∧ s.clientFdToServerAddr.contains fd = false then info client s
      else if fd ∉ s.sockets then .error .keyError s
      else
        let s := { s with sockets := s.sockets.erase fd }
        if s.fdmap.contains fd = false then .error .keyError s
        else
          let s := { s with
            fdmap := s.fdmap.del fd, actions := s.actions ++ [.unregister client] }
          if s.clientFdToServerAddr.contains fd = false then .error .keyError s
          else .ok () { s with
            clientFdToServerAddr := s.clientFdToServerAddr.del fd
            actions := s.actions ++ [.close client] }
  -- just an address
  else info client s

/-- The caches; their callback is `_close_client_pair`. -/
def kept (isLocal : Bool) (w : Which) :
    LRUCache.Kept UDPSessions (List Char) (UDPSocket × Option Bytes) where
  cache s := s.cacheAt w
  setCache c s := s.setCache w c
  closeCallback pair := closeClient isLocal pair.1

/-- `del self._cache_dns_client[key]`, and the client that was there is closed. -/
def removeClient (isLocal : Bool) (w : Which) (key : List Char) (client : UDPSocket) :
    SessionM Unit := do
  (kept isLocal w).delItem key
  closeClient isLocal client

/-! ## The tables agree -/

/-- The client that a cache has under a key. -/
def stored (s : UDPSessions) (w : Which) (key : List Char) : Option UDPSocket :=
  ((s.cacheAt w).value? key).map Prod.fst

/-- The tables agree with the caches. -/
def Valid (s : UDPSessions) : Prop := s.toTables.Valid s.stored

/-- The tables when a client has been closed. -/
def dropClient (s : UDPSessions) (client : UDPSocket) : UDPSessions :=
  { s with toTables := s.toTables.drop client }

variable {s : UDPSessions} {w w' : Which} {key key' : List Char} {client : UDPSocket}
  {c : LRUCache (List Char) (UDPSocket × Option Bytes)} {uid : Option Bytes} {isLocal : Bool}
  {E : PyExc → UDPSessions → Prop}

@[simp] theorem toTables_setCache (s : UDPSessions) (w : Which)
    (c : LRUCache (List Char) (UDPSocket × Option Bytes)) :
    (s.setCache w c).toTables = s.toTables := by
  cases w <;> rfl

theorem cacheAt_setCache (s : UDPSessions) (w w' : Which)
    (c : LRUCache (List Char) (UDPSocket × Option Bytes)) :
    (s.setCache w c).cacheAt w' = if w' = w then c else s.cacheAt w' := by
  cases w <;> cases w' <;> rfl

@[simp] theorem cacheAt_dropClient (s : UDPSessions) (client : UDPSocket) (w : Which) :
    (s.dropClient client).cacheAt w = s.cacheAt w := by
  cases w <;> rfl

theorem setCache_dropClient (s : UDPSessions) (client : UDPSocket) (w : Which)
    (c : LRUCache (List Char) (UDPSocket × Option Bytes)) :
    (s.setCache w c).dropClient client = (s.dropClient client).setCache w c := by
  cases w <;> rfl

theorem stored_of_value? (h : (s.cacheAt w).value? key = some (client, uid)) :
    s.stored w key = some client := by
  rw [stored, h]
  rfl

/-- With the same clients in the caches, the tables still agree. -/
theorem Valid.setCache (hs : s.Valid) (hc : ∀ key, c.value? key = (s.cacheAt w).value? key) :
    (s.setCache w c).Valid := by
  have hstored : (s.setCache w c).stored = s.stored := by
    funext w' key
    rw [stored, stored, cacheAt_setCache]
    split_ifs with hw
    · rw [hc, hw]
    · rfl
  rw [Valid, hstored, toTables_setCache]
  exact hs

/-- The client of a key that is deleted, and closed, is in no table. -/
theorem Valid.dropClient (hs : s.Valid) (h : s.stored w key = some client)
    (hc : ∀ key', c.value? key' = if key' = key then none else (s.cacheAt w).value? key') :
    ((s.dropClient client).setCache w c).Valid := by
  rw [Valid, toTables_setCache]
  refine Tables.Valid.drop hs h fun w' key' => ?_
  rw [stored, cacheAt_setCache, cacheAt_dropClient]
  by_cases hw : w' = w
  · rw [if_pos hw, hc]
    by_cases hkey : key' = key
    · rw [if_pos hkey, if_pos ⟨hw, hkey⟩]
      rfl
    · rw [if_neg hkey, if_neg fun h => hkey h.2, stored, hw]
  · rw [if_neg hw, if_neg fun h => hw h.1]
    rfl

/-- A client that the tables have is closed, and nothing is raised. -/
theorem closeClient_eq {stored : Which → List Char → Option UDPSocket}
    (hs : s.toTables.Valid stored) (h : stored w key = some client) :
    closeClient isLocal client s = .ok () (s.dropClient client) := by
  have hfd : client.fd ∈ s.sockets := (hs.mem_sockets _).2 ⟨w, key, client, h, rfl⟩
  have haddr : s.clientFdToServerAddr.contains client.fd = true := (hs.contains_addr _).2 hfd
  have hfdmap : s.fdmap.contains client.fd = true := Dict.contains_eq_true.2 ⟨_, hs.fdmap_eq h⟩
  have hfileno : s.fileno client = some client.fd := if_pos (hs.isOpen h)
  rw [closeClient, if_pos (hs.hasClose _ (hs.mem_made h)), hfileno]
  dsimp only
  rw [if_neg (by simp [haddr]), if_neg (not_not.2 hfd), if_neg (by simp [hfdmap]),
    if_neg (by simp [haddr]), List.append_assoc]
  rfl

/-- Deleting a key that a cache has. -/
theorem delItem_eq (isLocal : Bool) (h : s.stored w key = some client) :
    ∃ c, (kept isLocal w).delItem key s = .ok () (s.setCache w c) ∧
      ∀ key', c.value? key' = if key' = key then none else (s.cacheAt w).value? key' := by
  obtain ⟨pair, hpair, -⟩ := Option.map_eq_some_iff.1 h
  obtain ⟨c, hc, hvalue, -⟩ := LRUCache.delItem_of_contains (LRUCache.contains_of_value? hpair)
  refine ⟨c, ?_, hvalue⟩
  rw [LRUCache.Kept.delItem]
  simp only [kept]
  rw [hc]

/-- The key of a client is deleted, and the client is closed. -/
theorem triple_removeClient (isLocal : Bool) (w : Which) (key : List Char) (client : UDPSocket) :
    Triple (fun s => s.Valid ∧ s.stored w key = some client) (removeClient isLocal w key client)
      (fun _ => Valid) E := by
  rintro s ⟨hs, h⟩
  obtain ⟨c, hc, hvalue⟩ := delItem_eq isLocal h
  have hclose : closeClient isLocal client (s.setCache w c) =
      .ok () ((s.setCache w c).dropClient client) :=
    closeClient_eq (by rw [toTables_setCache]; exact hs) h
  rw [removeClient, bind_of_ok hc, hclose, setCache_dropClient]
  exact hs.dropClient h hvalue

/-- A client is closed, and its key is deleted. -/
theorem triple_closeClient (isLocal : Bool) (w : Which) (key : List Char) (client : UDPSocket) :
    Triple (fun s => s.Valid ∧ s.stored w key = some client)
      (do closeClient isLocal client; (kept isLocal w).delItem key) (fun _ => Valid) E := by
  rintro s ⟨hs, h⟩
  have hstored : (s.dropClient client).stored w key = some client := by
    rw [stored, cacheAt_dropClient]
    exact h
  obtain ⟨c, hc, hvalue⟩ := delItem_eq isLocal hstored
  rw [cacheAt_dropClient] at hvalue
  rw [bind_of_ok (closeClient_eq hs h), hc]
  exact hs.dropClient h hvalue

theorem triple_clear (isLocal : Bool) (w : Which) (keep : ℕ) :
    Triple Valid ((kept isLocal w).clear keep) (fun _ => Valid) E :=
  LRUCache.Kept.triple_clear (fun key pair => (triple_closeClient isLocal w key pair.1).pre
    fun _ h => ⟨h.1, stored_of_value? h.2⟩) keep

theorem triple_sweep (isLocal : Bool) (w : Which) (now : Time) :
    Triple Valid ((kept isLocal w).sweep now) (fun _ => Valid) E :=
  LRUCache.Kept.triple_sweep (fun key pair => (triple_removeClient isLocal w key pair.1).pre
    fun _ h => ⟨h.1, stored_of_value? h.2⟩) now

/-- Reading a key of a cache. -/
theorem triple_get (isLocal : Bool) (w : Which) (now : Time) (key : List Char) (t : Tables)
    (f : Which → Option (UDPSocket × Option Bytes)) :
    Triple (fun s => s.Valid ∧ s.toTables = t ∧ ∀ w', (s.cacheAt w').value? key = f w')
      ((kept isLocal w).get now key)
      (fun pair s => (s.Valid ∧ s.toTables = t ∧ ∀ w', (s.cacheAt w').value? key = f w') ∧
        pair = f w) E := by
  rintro s ⟨hs, ht, hf⟩
  have hvalue := LRUCache.value?_get (s.cacheAt w) now key
  refine ⟨⟨hs.setCache hvalue, by rw [← ht]; exact toTables_setCache _ _ _, fun w' => ?_⟩, ?_⟩
  · rw [← hf w']
    change ((s.setCache w _).cacheAt w').value? key = _
    rw [cacheAt_setCache]
    split_ifs with hw
    · rw [hw]
      exact hvalue key
    · rfl
  · rw [← hf w]
    exact LRUCache.fst_get _ _ _

end UDPSessions

end ShadowsocksR

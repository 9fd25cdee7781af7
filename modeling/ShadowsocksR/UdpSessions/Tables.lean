import ShadowsocksR.UdpRelay

/-!
# The tables of a UDP relay

A UDP relay, as a client or as a server, has a socket for every address that datagrams come from:
in one of two caches under a key made of the address, in a set of descriptors, in a table that has
the address for the descriptor, and in the table of the loop.

* `Tables`: the tables but for the caches, with what was done to the sockets;
* `Tables.Valid`: the tables agree with the clients in the caches;
* `Tables.Valid.add`, `Tables.Valid.drop`: they do so when a socket is made, and when it is closed.
-/

namespace ShadowsocksR

open UDPRelay (Which)

deriving instance DecidableEq for Which

/-! ## Addresses and sockets -/

/-- The address that a datagram comes from, as `recvfrom` returns it. -/
structure UDPAddr where
  host : List Char
  port : ℕ
  /-- For IPv6, `flowinfo` and `scope_id`. -/
  rest : List ℕ
  deriving DecidableEq

/-- `AF_INET` and `AF_INET6`, as numbers -/
def Family.number : Family → ℕ
  | .inet => 2
  | .inet6 => 10

/-- `client_key`: `'%s:%s:%d'` -/
def clientKey (sourceAddr : UDPAddr) (serverAf : Family) : List Char :=
  sourceAddr.host ++ ':' :: Nat.toDigits 10 sourceAddr.port ++
    ':' :: Nat.toDigits 10 serverAf.number

/-- A socket of a client. -/
structure UDPSocket where
  /-- How many sockets the relay had made before it. -/
  serial : ℕ
  fd : ℕ
  /-- `hasattr(client, 'close')` -/
  hasClose : Bool := true
  deriving DecidableEq

/-- What is done to a socket. -/
inductive Action
  /-- The loop unregisters it. -/
  | unregister (client : UDPSocket)
  | close (client : UDPSocket)
  /-- `client.info`, which no socket has. -/
  | info (client : UDPSocket)
  deriving DecidableEq

/-! ## Tables -/

/-- The tables of a relay, but for the caches; the last two fields are those of an observer. -/
structure Tables where
  clientFdToServerAddr : Dict ℕ (UDPAddr × Family) := .empty
  /-- `_sockets` -/
  sockets : Finset ℕ := ∅
  /-- The sockets of clients that the loop polls. -/
  fdmap : Dict ℕ UDPSocket := .empty
  /-- The sockets that were made for clients. -/
  made : List UDPSocket := []
  actions : List Action := []

namespace Tables

/-- The socket has not been closed. -/
def IsOpen (t : Tables) (client : UDPSocket) : Prop := .close client ∉ t.actions

instance (t : Tables) (client : UDPSocket) : Decidable (t.IsOpen client) :=
  inferInstanceAs (Decidable (¬_))

/-- `client.fileno()`, which is -1 when the socket is closed. -/
def fileno (t : Tables) (client : UDPSocket) : Option ℕ :=
  if t.IsOpen client then some client.fd else none

/-- A new socket is in all tables. -/
def add (t : Tables) (client : UDPSocket) (rAddr : UDPAddr) (af : Family) : Tables :=
  { t with
    made := t.made ++ [client]
    clientFdToServerAddr := t.clientFdToServerAddr.set client.fd (rAddr, af)
    sockets := insert client.fd t.sockets
    fdmap := t.fdmap.set client.fd client }

/-- A socket is closed. -/
def drop (t : Tables) (client : UDPSocket) : Tables :=
  { t with
    sockets := t.sockets.erase client.fd
    fdmap := t.fdmap.del client.fd
    clientFdToServerAddr := t.clientFdToServerAddr.del client.fd
    actions := t.actions ++ [.unregister client, .close client] }

/-- The tables agree with the clients that the caches have under their keys. -/
structure Valid (stored : Which → List Char → Option UDPSocket) (t : Tables) : Prop where
  mem_sockets : ∀ fd, fd ∈ t.sockets ↔ ∃ w key client, stored w key = some client ∧ client.fd = fd
  contains_addr : ∀ fd, t.clientFdToServerAddr.contains fd = true ↔ fd ∈ t.sockets
  fdmap_eq : ∀ {w key client}, stored w key = some client → t.fdmap.get? client.fd = some client
  key_eq : ∀ {w key client}, stored w key = some client → ∃ rAddr af,
    t.clientFdToServerAddr.get? client.fd = some (rAddr, af) ∧ key = clientKey rAddr af
  /-- A key is in one cache. -/
  which_eq : ∀ {w w' key client client'}, stored w key = some client →
    stored w' key = some client' → w = w'
  mem_made : ∀ {w key client}, stored w key = some client → client ∈ t.made
  isOpen : ∀ {w key client}, stored w key = some client → t.IsOpen client
  registered : ∀ {w key client}, stored w key = some client → .unregister client ∉ t.actions
  /-- What is in no cache was unregistered and closed. -/
  once : ∀ client ∈ t.made, (∀ w key, stored w key ≠ some client) →
    t.actions.count (.unregister client) = 1 ∧ t.actions.count (.close client) = 1
  serial_lt : ∀ client ∈ t.made, client.serial < t.made.length
  hasClose : ∀ client ∈ t.made, client.hasClose = true
  acted : ∀ client, .unregister client ∈ t.actions ∨ .close client ∈ t.actions → client ∈ t.made
  no_info : ∀ client, .info client ∉ t.actions

namespace Valid

variable {stored stored' : Which → List Char → Option UDPSocket} {t : Tables} {w w' : Which}
  {key key' : List Char} {client client' : UDPSocket}

/-- A descriptor belongs to one client, under one key. -/
theorem eq_of_fd (ht : Valid stored t) (h : stored w key = some client)
    (h' : stored w' key' = some client') (hfd : client.fd = client'.fd) :
    w = w' ∧ key = key' ∧ client = client' := by
  obtain ⟨rAddr, af, haddr, rfl⟩ := ht.key_eq h
  obtain ⟨rAddr', af', haddr', rfl⟩ := ht.key_eq h'
  rw [hfd, haddr'] at haddr
  cases haddr
  obtain rfl := ht.which_eq h h'
  exact ⟨rfl, rfl, Option.some.inj (h.symm.trans h')⟩

theorem valid_new : Valid (fun _ _ => none) {} where
  mem_sockets fd := iff_of_false (by simp) (by simp)
  contains_addr fd := iff_of_false (by simp [Dict.contains]) (by simp)
  fdmap_eq h := nomatch h
  key_eq h := nomatch h
  which_eq h := nomatch h
  mem_made h := nomatch h
  isOpen h := nomatch h
  registered h := nomatch h
  once _ h := nomatch h
  serial_lt _ h := nomatch h
  hasClose _ h := nomatch h
  acted _ h := by simp at h
  no_info _ h := nomatch h

/-- A socket with a new descriptor is stored under a key that neither cache has. -/
theorem add (ht : Valid stored t) {rAddr : UDPAddr} {af : Family}
    (hfresh : ∀ w, stored w (clientKey rAddr af) = none)
    (hserial : client.serial = t.made.length) (hclose : client.hasClose = true)
    (hfd : ∀ client' ∈ t.made, t.IsOpen client' → client'.fd ≠ client.fd)
    (hstored : ∀ w' key', stored' w' key' =
      if w' = w ∧ key' = clientKey rAddr af then some client else stored w' key') :
    Valid stored' (t.add client rAddr af) := by
  have hnew : client ∉ t.made := fun h => absurd (ht.serial_lt client h) (by rw [hserial]; simp)
  have hacted : .unregister client ∉ t.actions ∧ .close client ∉ t.actions := by
    rw [← not_or]
    exact fun h => hnew (ht.acted client h)
  -- What was stored before is still stored, under another key, and has another descriptor.
  have hcases : ∀ {w' key' client'}, stored' w' key' = some client' →
      w' = w ∧ key' = clientKey rAddr af ∧ client' = client ∨
        key' ≠ clientKey rAddr af ∧ stored w' key' = some client' ∧ client'.fd ≠ client.fd := by
    intro w' key' client' h
    rw [hstored] at h
    split_ifs at h with hkey
    · exact .inl ⟨hkey.1, hkey.2, (Option.some.inj h).symm⟩
    · refine .inr ⟨?_, h, hfd client' (ht.mem_made h) (ht.isOpen h)⟩
      rintro rfl
      rw [hfresh] at h
      cases h
  have hself : stored' w (clientKey rAddr af) = some client := by
    rw [hstored, if_pos ⟨rfl, rfl⟩]
  have hkept : ∀ {w' key' client'}, stored w' key' = some client' →
      stored' w' key' = some client' := by
    intro w' key' client' h
    rw [hstored, if_neg]
    · exact h
    · rintro ⟨-, rfl⟩
      rw [hfresh] at h
      cases h
  have hne : ∀ {w' key' client'}, stored w' key' = some client' → client' ≠ client := by
    rintro w' key' client' h rfl
    exact hnew (ht.mem_made h)
  refine ⟨fun fd => ?_, fun fd => ?_, fun h => ?_, fun h => ?_, fun h h' => ?_, fun h => ?_,
    fun h => ?_, fun h => ?_, fun client' hmem hnone => ?_, fun client' hmem => ?_,
    fun client' hmem => ?_, fun client' h => ?_, ht.no_info⟩
  · rw [Tables.add, Finset.mem_insert, ht.mem_sockets]
    constructor
    · rintro (rfl | ⟨w', key', client', h, rfl⟩)
      · exact ⟨w, _, client, hself, rfl⟩
      · exact ⟨w', key', client', hkept h, rfl⟩
    · rintro ⟨w', key', client', h, rfl⟩
      rcases hcases h with ⟨-, -, rfl⟩ | ⟨-, h, -⟩
      · exact .inl rfl
      · exact .inr ⟨w', key', client', h, rfl⟩
  · rw [Tables.add, Dict.contains_set, Finset.mem_insert, Bool.or_eq_true, decide_eq_true_iff,
      ht.contains_addr]
  · rw [Tables.add, Dict.get?_set]
    rcases hcases h with ⟨-, -, rfl⟩ | ⟨-, h, hfd'⟩
    · exact if_pos rfl
    · rw [if_neg hfd']
      exact ht.fdmap_eq h
  · rw [Tables.add, Dict.get?_set]
    rcases hcases h with ⟨-, rfl, rfl⟩ | ⟨-, h, hfd'⟩
    · exact ⟨rAddr, af, if_pos rfl, rfl⟩
    · rw [if_neg hfd']
      exact ht.key_eq h
  · rcases hcases h with ⟨rfl, rfl, -⟩ | ⟨hkey, h, -⟩
    · rcases hcases h' with ⟨rfl, -, -⟩ | ⟨hkey, -, -⟩
      · rfl
      · exact absurd rfl hkey
    · rcases hcases h' with ⟨-, rfl, -⟩ | ⟨-, h', -⟩
      · exact absurd rfl hkey
      · exact ht.which_eq h h'
  · rcases hcases h with ⟨-, -, rfl⟩ | ⟨-, h, -⟩
    · exact List.mem_append_right _ (List.mem_singleton.2 rfl)
    · exact List.mem_append_left _ (ht.mem_made h)
  · rcases hcases h with ⟨-, -, rfl⟩ | ⟨-, h, -⟩
    · exact hacted.2
    · exact ht.isOpen h
  · rcases hcases h with ⟨-, -, rfl⟩ | ⟨-, h, -⟩
    · exact hacted.1
    · exact ht.registered h
  · rcases List.mem_append.1 hmem with hmem | hmem
    · exact ht.once client' hmem fun w' key' h => hnone w' key' (hkept h)
    · rw [List.mem_singleton.1 hmem] at hnone
      exact absurd hself (hnone w _)
  · rw [Tables.add, List.length_append]
    rcases List.mem_append.1 hmem with hmem | hmem
    · exact (ht.serial_lt client' hmem).trans_le (Nat.le_add_right _ _)
    · rw [List.mem_singleton.1 hmem, hserial]
      exact Nat.lt_add_one _
  · rcases List.mem_append.1 hmem with hmem | hmem
    · exact ht.hasClose client' hmem
    · rw [List.mem_singleton.1 hmem]
      exact hclose
  · exact List.mem_append_left _ (ht.acted client' h)

/-- A socket is closed, and its key is deleted. -/
theorem drop (ht : Valid stored t) (h : stored w key = some client)
    (hstored : ∀ w' key', stored' w' key' =
      if w' = w ∧ key' = key then none else stored w' key') :
    Valid stored' (t.drop client) := by
  -- What is still stored is another client, with another descriptor.
  have hcases : ∀ {w' key' client'}, stored' w' key' = some client' →
      stored w' key' = some client' ∧ client'.fd ≠ client.fd := by
    intro w' key' client' h'
    rw [hstored] at h'
    split_ifs at h' with hkey
    refine ⟨h', fun hfd => hkey ?_⟩
    obtain ⟨rfl, rfl, -⟩ := ht.eq_of_fd h' h hfd
    exact ⟨rfl, rfl⟩
  have hkept : ∀ {w' key' client'}, stored w' key' = some client' → client' ≠ client →
      stored' w' key' = some client' := by
    intro w' key' client' h' hne
    rw [hstored, if_neg]
    · exact h'
    · rintro ⟨rfl, rfl⟩
      exact hne (Option.some.inj (h'.symm.trans h))
  have hmem : ∀ a ∈ t.actions ++ [.unregister client, .close client],
      a ∈ t.actions ∨ a = .unregister client ∨ a = .close client := by
    intro a ha
    simpa using ha
  refine ⟨fun fd => ?_, fun fd => ?_, fun h' => ?_, fun h' => ?_, fun h₁ h₂ => ?_, fun h' => ?_,
    fun h' hclose => ?_, fun h' hunregister => ?_, fun client' hmade hnone => ?_, ht.serial_lt,
    ht.hasClose, fun client' h' => ?_, fun client' hinfo => ?_⟩
  · rw [Tables.drop, Finset.mem_erase, ht.mem_sockets]
    constructor
    · rintro ⟨hfd, w', key', client', h', rfl⟩
      exact ⟨w', key', client', hkept h' fun heq => hfd (by rw [heq]), rfl⟩
    · rintro ⟨w', key', client', h', rfl⟩
      obtain ⟨h', hfd⟩ := hcases h'
      exact ⟨hfd, w', key', client', h', rfl⟩
  · rw [Tables.drop, Dict.contains_del, Finset.mem_erase, Bool.and_eq_true, ht.contains_addr]
    simp
  · obtain ⟨h', hfd⟩ := hcases h'
    rw [Tables.drop, Dict.get?_del_of_ne _ hfd]
    exact ht.fdmap_eq h'
  · obtain ⟨h', hfd⟩ := hcases h'
    rw [Tables.drop, Dict.get?_del_of_ne _ hfd]
    exact ht.key_eq h'
  · exact ht.which_eq (hcases h₁).1 (hcases h₂).1
  · exact ht.mem_made (hcases h').1
  · obtain ⟨h', hfd⟩ := hcases h'
    rcases hmem _ hclose with hclose | hclose | hclose
    · exact ht.isOpen h' hclose
    · cases hclose
    · cases hclose
      exact hfd rfl
  · obtain ⟨h', hfd⟩ := hcases h'
    rcases hmem _ hunregister with hunregister | hunregister | hunregister
    · exact ht.registered h' hunregister
    · cases hunregister
      exact hfd rfl
    · cases hunregister
  · rw [Tables.drop, List.count_append, List.count_append]
    by_cases heq : client' = client
    · -- It was open until now.
      subst heq
      rw [List.count_eq_zero_of_not_mem (ht.registered h), List.count_eq_zero_of_not_mem (ht.isOpen h)]
      simp
    · obtain ⟨hunregister, hclose⟩ :=
        ht.once client' hmade fun w' key' h' => hnone w' key' (hkept h' heq)
      rw [hunregister, hclose]
      simp [Ne.symm heq]
  · rcases h' with h' | h'
    · rcases hmem _ h' with h' | h' | h'
      · exact ht.acted client' (.inl h')
      · cases h'
        exact ht.mem_made h
      · cases h'
    · rcases hmem _ h' with h' | h' | h'
      · exact ht.acted client' (.inr h')
      · cases h'
      · cases h'
        exact ht.mem_made h
  · rcases hmem _ hinfo with hinfo | hinfo | hinfo
    · exact ht.no_info client' hinfo
    · cases hinfo
    · cases hinfo

end Valid

end Tables

end ShadowsocksR

import ShadowsocksR.DbServers.Rows
import ShadowsocksR.Lib.Dict

/-!
# The servers of the ports

A port has a server for IPv4, and one for IPv6 when `server_ipv6` is configured. A server is a TCP
and a UDP relay with one configuration and a table of users each. Starts and stops are taken to
succeed.

* `Users.updateUsers`: `update_users` of a relay;
* `lists_updateUsers_iff`: its table is that of the users if and only if their numbers have four
  bytes;
* `Slot`: what the pools have for a port;
* `slot_newServer`, `slot_cbDelServer`, `slot_updateMuUsers`: what a call for a port does to them.
-/

namespace ShadowsocksR

namespace DbServers

/-! ## Users -/

/-- `struct.pack('<I', id)`, as the number of which these are the bytes. -/
def packId (id : ℤ) : Except PyExc UInt32 :=
  if 0 ≤ id ∧ id < 2 ^ 32 then .ok (.ofNat id.toNat) else .error .structError

theorem packId_eq_ok {id : ℤ} {uid : UInt32} : packId id = .ok uid ↔ (uid.toNat : ℤ) = id := by
  have hlt : uid.toNat < 2 ^ 32 := uid.toNat_lt
  rw [packId]
  split_ifs with hid
  · have hsize : id.toNat < UInt32.size := by
      rw [UInt32.size]
      omega
    rw [Except.ok.injEq, ← UInt32.toNat_inj, UInt32.toNat_ofNat_of_lt' hsize]
    omega
  · refine iff_of_false (fun h => by cases h) fun h => hid ?_
    omega

/-- `server_users`, by the numbers of which it has the bytes. -/
abbrev Users : Type := Dict UInt32 Value

namespace Users

/-- The first loop of `update_users`. -/
def delMissing (allowUsers : Dict ℤ Config) (users : Users) : Users :=
  users.delAll (users.keys.filter fun uid => !allowUsers.contains uid.toNat)

/-- The second loop. An exception ends it, and is logged by `update_mu_users`. -/
def addAll : List (ℤ × Config) → Users → Users
  | [], users => users
  | (id, cfg) :: allowUsers, users =>
    match packId id, cfg .password with
    | .ok uid, some passwd => addAll allowUsers (users.set uid passwd)
    | _, _ => users

def updateUsers (allowUsers : Dict ℤ Config) (users : Users) : Users :=
  addAll allowUsers.entries (delMissing allowUsers users)

/-- The table has these users, with their passwords, and no others. -/
def Lists (users : Users) (allowUsers : Dict ℤ Config) : Prop :=
  ∀ (id : ℤ) passwd, (∃ uid : UInt32, uid.toNat = id ∧ users.get? uid = some passwd) ↔
    ∃ cfg, allowUsers.get? id = some cfg ∧ cfg .password = some passwd

variable {allowUsers : Dict ℤ Config}

theorem get?_delMissing (users : Users) (uid : UInt32) :
    (delMissing allowUsers users).get? uid =
      if allowUsers.contains uid.toNat then users.get? uid else none := by
  rw [delMissing, Dict.get?_delAll]
  cases hallow : allowUsers.contains uid.toNat with
  | true => simp [List.mem_filter, hallow]
  | false =>
    cases huid : users.contains uid with
    | true => simp [List.mem_filter, hallow, Dict.mem_keys, huid]
    | false => simp [Dict.contains_eq_false.1 huid]

/-- The table after the second loop, when none of the users raises. -/
theorem get?_addAll {es : List (ℤ × Config)} (hnodup : (es.map Prod.fst).Nodup)
    (hes : ∀ e ∈ es, (∃ uid, packId e.1 = .ok uid) ∧ (e.2 .password).isSome = true) (users : Users)
    (uid : UInt32) :
    (addAll es users).get? uid =
      (es.lookup (uid.toNat : ℤ)).elim (users.get? uid) fun cfg => cfg .password := by
  induction es generalizing users with
  | nil => rfl
  | cons e es ih =>
    obtain ⟨id, cfg⟩ := e
    have he := hes (id, cfg) List.mem_cons_self
    dsimp only at he
    obtain ⟨⟨uid', hpack⟩, hsome⟩ := he
    obtain ⟨passwd, hpasswd⟩ := Option.isSome_iff_exists.1 hsome
    obtain ⟨hnot, htail⟩ := List.nodup_cons.1 hnodup
    have hadd : addAll ((id, cfg) :: es) users = addAll es (users.set uid' passwd) := by
      rw [addAll, hpack, hpasswd]
    rw [hadd, ih htail fun e he => hes e (List.mem_cons_of_mem _ he), Dict.lookup_cons,
      Dict.get?_set]
    have hid := packId_eq_ok.1 hpack
    by_cases huid : uid = uid'
    · -- No later user has the same number, so what is set here stays.
      subst huid
      have hnone : es.lookup (uid.toNat : ℤ) = none := List.lookup_eq_none_iff.2 fun e he =>
        bne_iff_ne.2 fun h => hnot (List.mem_map.2 ⟨e, he, by rw [← h, hid]⟩)
      rw [hnone, if_pos rfl, if_pos hid]
      exact hpasswd.symm
    · have hne : ¬ (uid.toNat : ℤ) = id := fun h =>
        huid (UInt32.toNat_inj.1 (Int.natCast_inj.1 (h.trans hid.symm)))
      rw [if_neg huid, if_neg hne]

/-- The users are listed if and only if all of their numbers have four bytes. -/
theorem lists_updateUsers_iff (hpasswd : ∀ id cfg, allowUsers.get? id = some cfg →
      (cfg .password).isSome = true) (users : Users) :
    (users.updateUsers allowUsers).Lists allowUsers ↔
      ∀ id, allowUsers.contains id = true → 0 ≤ id ∧ id < 2 ^ 32 := by
  constructor
  · intro h id hid
    obtain ⟨cfg, hcfg⟩ := Dict.contains_eq_true.1 hid
    obtain ⟨passwd, hp⟩ := Option.isSome_iff_exists.1 (hpasswd id cfg hcfg)
    obtain ⟨uid, rfl, -⟩ := (h id passwd).2 ⟨cfg, hcfg, hp⟩
    have hlt : uid.toNat < 2 ^ 32 := uid.toNat_lt
    omega
  · intro h id passwd
    have hget : ∀ uid : UInt32, (users.updateUsers allowUsers).get? uid =
        (allowUsers.get? uid.toNat).elim ((delMissing allowUsers users).get? uid)
          fun cfg => cfg .password := by
      refine get?_addAll allowUsers.nodup (fun e he => ?_) _
      have hget := Dict.mem_entries.1 he
      have hid := h e.1 (Dict.contains_eq_true.2 ⟨_, hget⟩)
      exact ⟨⟨_, if_pos hid⟩, hpasswd _ _ hget⟩
    constructor
    · rintro ⟨uid, rfl, huid⟩
      rw [hget, get?_delMissing] at huid
      cases hallow : allowUsers.get? uid.toNat with
      | none =>
        rw [hallow, Option.elim_none, if_neg (by simp [Dict.contains, hallow])] at huid
        cases huid
      | some cfg =>
        rw [hallow] at huid
        exact ⟨cfg, rfl, huid⟩
    · rintro ⟨cfg, hcfg, hp⟩
      have hid := h id (Dict.contains_eq_true.2 ⟨_, hcfg⟩)
      have huid : packId id = .ok (.ofNat id.toNat) := if_pos hid
      refine ⟨_, packId_eq_ok.1 huid, ?_⟩
      rw [hget, packId_eq_ok.1 huid, hcfg]
      exact hp

end Users

/-! ## Servers -/

/-- The TCP and the UDP relay of a port, for a family of addresses. -/
structure Server where
  config : Config
  tcpUsers : Users
  udpUsers : Users

def Server.updateUsers (allowUsers : Dict ℤ Config) (s : Server) : Server :=
  { s with
    tcpUsers := s.tcpUsers.updateUsers allowUsers
    udpUsers := s.udpUsers.updateUsers allowUsers }

/-- The configuration of the server, and the users with which a relay starts (those that
    `_update_users` finds in `protocol_param`). -/
structure Setup where
  config : Config
  additionalPortsOnly : Bool := false
  users : Config → Users := fun _ => .empty

/-- The server that `new_server` starts, with `a_config`. -/
def Setup.start (k : Setup) (cfg : Config) : Server :=
  let aConfig := k.config.update cfg
  ⟨aConfig, k.users aConfig, k.users aConfig⟩

/-! ## One port -/

/-- What the pools have for a port: for IPv4, and for IPv6 if it is configured. -/
structure Slot where
  ipv4 : Option Server := none
  ipv6 : Option (Option Server) := none

namespace Slot

def servers (s : Slot) : List Server := s.ipv4.toList ++ s.ipv6.join.toList

/-- `server_is_run(port) > 0` -/
def isRun (s : Slot) : Bool := s.ipv4.isSome || s.ipv6.join.isSome

/-- `server_run_status`; `server` is always configured. -/
def runStatus (s : Slot) : Bool := s.ipv4.isSome && s.ipv6.all Option.isSome

/-- Whether an override differs from the configuration of a server, if there is one. -/
def changed (missing : Except PyExc Bool) (cfg : Config) : Option Server → Except PyExc Bool
  | some server => differs missing server.config cfg mergeConfigKeys
  | none => pure false

/-- `cfgchange`: the configuration of the IPv4 relay is compared first. -/
def cfgchange (s : Slot) (cfg : Config) : Except PyExc Bool := do
  if ← changed missingIpv4 cfg s.ipv4 then pure true else changed missingIpv6 cfg s.ipv6.join

/-- `cb_del_server` -/
def stop (s : Slot) : Slot := ⟨none, s.ipv6.map fun _ => none⟩

/-- `new_server`, which does nothing more when it finds a server. -/
def start (k : Setup) (cfg : Config) (s : Slot) : Slot :=
  match s.ipv6 with
  | some (some _) => s
  | some none => ⟨s.ipv4.or (some (k.start cfg)), some (some (k.start cfg))⟩
  | none => ⟨s.ipv4.or (some (k.start cfg)), none⟩

/-- `update_mu_users` -/
def updateUsers (allowUsers : Dict ℤ Config) (s : Slot) : Slot :=
  ⟨s.ipv4.map (Server.updateUsers allowUsers),
    s.ipv6.map (Option.map (Server.updateUsers allowUsers))⟩

/-- An override cannot be compared before one that differs is found. -/
def Stumbles (s : Slot) (cfg : Config) : Prop :=
  (∃ server ∈ s.ipv4, DbServers.Stumbles missingIpv4 server.config cfg) ∨
    (∀ server ∈ s.ipv4, Same server.config cfg) ∧
      ∃ server ∈ s.ipv6.join, DbServers.Stumbles missingIpv6 server.config cfg

variable {s : Slot} {k : Setup} {cfg : Config}

theorem isRun_eq_true : s.isRun = true ↔ ∃ server, server ∈ s.servers := by
  obtain ⟨_ | server, _ | _ | server'⟩ := s <;> simp [isRun, servers]

theorem isRun_eq_false : s.isRun = false ↔ s.servers = [] := by
  obtain ⟨_ | server, _ | _ | server'⟩ := s <;> simp [isRun, servers]

theorem runStatus_of_not_isRun (h : s.isRun = false) : s.runStatus = false := by
  obtain ⟨_ | server, _ | _ | server'⟩ := s <;> simp_all [isRun, runStatus]

@[simp] theorem isRun_stop (s : Slot) : s.stop.isRun = false := by
  obtain ⟨_ | server, _ | _ | server'⟩ := s <;> rfl

@[simp] theorem stop_stop (s : Slot) : s.stop.stop = s.stop := by
  obtain ⟨_ | server, _ | _ | server'⟩ := s <;> rfl

@[simp] theorem isRun_start (s : Slot) : (s.start k cfg).isRun = true := by
  obtain ⟨_ | server, _ | _ | server'⟩ := s <;> rfl

@[simp] theorem isRun_updateUsers (allowUsers : Dict ℤ Config) (s : Slot) :
    (s.updateUsers allowUsers).isRun = s.isRun := by
  obtain ⟨_ | server, _ | _ | server'⟩ := s <;> rfl

theorem mem_servers_start (h : s.isRun = false) {server : Server} :
    server ∈ (s.start k cfg).servers → server = k.start cfg := by
  obtain ⟨_ | server, _ | _ | server'⟩ := s <;> simp_all [isRun, servers, start]

theorem mem_servers_updateUsers {allowUsers : Dict ℤ Config} {server : Server} :
    server ∈ (s.updateUsers allowUsers).servers ↔
      ∃ server' ∈ s.servers, server'.updateUsers allowUsers = server := by
  obtain ⟨_ | server, _ | _ | server'⟩ := s <;> simp [servers, updateUsers, eq_comm]

theorem forall_config_updateUsers {allowUsers : Dict ℤ Config} {config : Config} :
    (∀ server ∈ (s.updateUsers allowUsers).servers, server.config = config) ↔
      ∀ server ∈ s.servers, server.config = config := by
  constructor
  · exact fun h server hserver =>
      h (server.updateUsers allowUsers) (mem_servers_updateUsers.2 ⟨server, hserver, rfl⟩)
  · intro h server hserver
    obtain ⟨server', hserver', rfl⟩ := mem_servers_updateUsers.1 hserver
    exact h server' hserver'

theorem missingIpv4_ne : missingIpv4 ≠ .ok true := by simp [missingIpv4]

theorem missingIpv6_ne : missingIpv6 ≠ .ok true := by simp [missingIpv6]

theorem changed_eq_ok_false {missing : Except PyExc Bool} (h : missing ≠ .ok true)
    {o : Option Server} :
    changed missing cfg o = .ok false ↔ ∀ server ∈ o, Same server.config cfg := by
  cases o with
  | none => exact iff_of_true rfl fun server h => by cases h
  | some server =>
    rw [changed, differs_eq_ok_false h]
    exact ⟨fun hsame t ht n => Option.some.inj ht ▸ hsame n (mem_mergeConfigKeys n),
      fun hsame n _ => hsame server rfl n⟩

theorem changed_eq_error {missing : Except PyExc Bool} (h : missing ≠ .ok true)
    {o : Option Server} :
    (∃ e, changed missing cfg o = .error e) ↔
      ∃ server ∈ o, DbServers.Stumbles missing server.config cfg := by
  cases o with
  | none => exact iff_of_false (fun ⟨e, he⟩ => by cases he) fun ⟨server, h, _⟩ => by cases h
  | some server =>
    rw [changed, differs_eq_error h]
    exact ⟨fun hst => ⟨server, rfl, hst⟩, fun ⟨t, ht, hst⟩ => Option.some.inj ht ▸ hst⟩

theorem cfgchange_eq_ok_false :
    s.cfgchange cfg = .ok false ↔ ∀ server ∈ s.servers, Same server.config cfg := by
  have hservers : (∀ server ∈ s.servers, Same server.config cfg) ↔
      (∀ server ∈ s.ipv4, Same server.config cfg) ∧
        ∀ server ∈ s.ipv6.join, Same server.config cfg := by
    simp [servers, or_imp, forall_and]
  rw [hservers, ← changed_eq_ok_false missingIpv4_ne, ← changed_eq_ok_false missingIpv6_ne,
    cfgchange]
  cases changed missingIpv4 cfg s.ipv4 with
  | error e => exact iff_of_false (fun h => by cases h) fun h => by cases h.1
  | ok change =>
    cases change with
    | false => exact (and_iff_right rfl).symm
    | true => exact iff_of_false (fun h => by cases h) fun h => by cases h.1

theorem cfgchange_eq_error : (∃ e, s.cfgchange cfg = .error e) ↔ s.Stumbles cfg := by
  rw [Stumbles, ← changed_eq_error missingIpv4_ne, ← changed_eq_error missingIpv6_ne,
    ← changed_eq_ok_false missingIpv4_ne, cfgchange]
  -- The IPv6 relay is looked at only when the IPv4 relay is as it should be.
  cases changed missingIpv4 cfg s.ipv4 with
  | error e => exact iff_of_true ⟨e, rfl⟩ (.inl ⟨e, rfl⟩)
  | ok change =>
    cases change with
    | false =>
      exact ⟨fun h => .inr ⟨rfl, h⟩, fun h => h.elim (fun ⟨e, he⟩ => by cases he) And.right⟩
    | true =>
      refine iff_of_false (fun ⟨e, he⟩ => by cases he) fun h => ?_
      rcases h with ⟨e, he⟩ | ⟨h, -⟩
      · cases he
      · cases h

end Slot

/-! ## The pools -/

/-- The pools of the servers, by port: those of IPv6 are used if `server_ipv6` is configured. -/
structure Pool where
  ipv4 : Dict ℤ Server := .empty
  ipv6 : Option (Dict ℤ Server) := none

namespace Pool

def slot (p : Pool) (port : ℤ) : Slot := ⟨p.ipv4.get? port, p.ipv6.map fun d => d.get? port⟩

/-- The part of `new_server` for IPv4. -/
def newIpv4 (k : Setup) (port : ℤ) (cfg : Config) (p : Pool) : Pool :=
  if p.ipv4.contains port then p else { p with ipv4 := p.ipv4.set port (k.start cfg) }

def newServer (k : Setup) (port : ℤ) (cfg : Config) (p : Pool) : Pool :=
  match p.ipv6 with
  | some ipv6 =>
    if ipv6.contains port then p
    else newIpv4 k port cfg { p with ipv6 := some (ipv6.set port (k.start cfg)) }
  | none => newIpv4 k port cfg p

def cbDelServer (p : Pool) (port : ℤ) : Pool := ⟨p.ipv4.del port, p.ipv6.map fun d => d.del port⟩

/-- The part of `update_mu_users` for a family. -/
def updateServer (allowUsers : Dict ℤ Config) (port : ℤ) (d : Dict ℤ Server) : Dict ℤ Server :=
  match d.get? port with
  | some server => d.set port (server.updateUsers allowUsers)
  | none => d

def updateMuUsers (allowUsers : Dict ℤ Config) (p : Pool) (port : ℤ) : Pool :=
  ⟨updateServer allowUsers port p.ipv4, p.ipv6.map (updateServer allowUsers port)⟩

theorem get?_updateServer (allowUsers : Dict ℤ Config) (port port' : ℤ) (d : Dict ℤ Server) :
    (updateServer allowUsers port d).get? port' =
      if port' = port then (d.get? port).map (Server.updateUsers allowUsers) else d.get? port' := by
  rw [updateServer]
  cases hget : d.get? port with
  | none =>
    split_ifs with hp
    · rw [hp, hget]
      rfl
    · rfl
  | some server =>
    rw [Dict.get?_set]
    rfl

theorem slot_newIpv4 (k : Setup) (port port' : ℤ) (cfg : Config) (p : Pool) :
    (newIpv4 k port cfg p).slot port' =
      if port' = port then { p.slot port with ipv4 := (p.slot port).ipv4.or (some (k.start cfg)) }
      else p.slot port' := by
  rw [newIpv4]
  cases hget : p.ipv4.get? port with
  | none =>
    rw [if_neg (by simp [Dict.contains, hget])]
    split_ifs with hp
    · simp [slot, hp, hget]
    · simp [slot, Dict.get?_set_of_ne _ _ hp]
  | some server =>
    rw [if_pos (by simp [Dict.contains, hget])]
    split_ifs with hp
    · simp [slot, hp, hget]
    · rfl

theorem slot_newServer (k : Setup) (port port' : ℤ) (cfg : Config) (p : Pool) :
    (newServer k port cfg p).slot port' =
      if port' = port then (p.slot port).start k cfg else p.slot port' := by
  obtain ⟨ipv4, ipv6⟩ := p
  cases ipv6 with
  | none =>
    rw [newServer, slot_newIpv4]
    rfl
  | some ipv6 =>
    cases hget : ipv6.get? port with
    | none =>
      have hnew : newServer k port cfg ⟨ipv4, some ipv6⟩ =
          newIpv4 k port cfg ⟨ipv4, some (ipv6.set port (k.start cfg))⟩ :=
        if_neg (by simp [Dict.contains, hget])
      rw [hnew, slot_newIpv4]
      split_ifs with hp
      · simp [slot, Slot.start, hget]
      · simp [slot, Dict.get?_set_of_ne _ _ hp]
    | some server =>
      have hnew : newServer k port cfg ⟨ipv4, some ipv6⟩ = ⟨ipv4, some ipv6⟩ :=
        if_pos (by simp [Dict.contains, hget])
      rw [hnew]
      split_ifs with hp
      · simp [slot, Slot.start, hp, hget]
      · rfl

theorem slot_cbDelServer (p : Pool) (port port' : ℤ) :
    (p.cbDelServer port).slot port' =
      if port' = port then (p.slot port).stop else p.slot port' := by
  obtain ⟨ipv4, ipv6⟩ := p
  cases ipv6 <;> simp only [slot, cbDelServer, Dict.get?_del, Slot.stop, Option.map_none,
    Option.map_some] <;> split_ifs <;> rfl

theorem slot_updateMuUsers (allowUsers : Dict ℤ Config) (p : Pool) (port port' : ℤ) :
    (updateMuUsers allowUsers p port).slot port' =
      if port' = port then (p.slot port).updateUsers allowUsers else p.slot port' := by
  obtain ⟨ipv4, ipv6⟩ := p
  cases ipv6 <;> simp only [slot, updateMuUsers, get?_updateServer, Slot.updateUsers,
    Option.map_none, Option.map_some] <;> split_ifs <;> rfl

end Pool

end DbServers

end ShadowsocksR

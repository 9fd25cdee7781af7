import ShadowsocksR.Lib.Dict
import Mathlib.Algebra.Order.BigOperators.Group.List
import Mathlib.Algebra.Order.Group.Int
import Mathlib.Algebra.Order.Monoid.Prod
import Mathlib.Algebra.Ring.Prod
import Mathlib.Tactic.LinearCombination

/-!
# The relays of all ports

The server pool has up to four relays for a port: TCP and UDP, IPv4 and IPv6.
A relay counts the bytes of its port, and those of the users it has found.

* `addTransferU`, `addTransferD`: what a relay counts;
* `serversTransfer`: the bytes of every port in all relays;
* `getD_getServersTransfer`: they are a sum over the relays (`transferOf`);
* `transferOf_cbDelServer`: stopping a port takes away what its relays have
  counted.
-/

namespace ShadowsocksR

/-- Bytes uploaded and downloaded. -/
abbrev Transfer := ℤ × ℤ

/-! ## The counters of a relay -/

/-- The fields of `TCPRelay` and `UDPRelay` that count bytes. A user, for which the source has the
    four bytes of a number, is the number. -/
structure Counters where
  serverTransferUl : ℕ := 0
  serverTransferDl : ℕ := 0
  serverUserTransferUl : Dict ℕ ℕ := .empty
  serverUserTransferDl : Dict ℕ ℕ := .empty

namespace Counters

def addTransferU (c : Counters) (user : Option ℕ) (transfer : ℕ) : Counters :=
  match user with
  | none => { c with serverTransferUl := c.serverTransferUl + transfer }
  | some user =>
    let before := (c.serverUserTransferUl.get? user).getD 0
    { c with
      serverUserTransferUl :=
        c.serverUserTransferUl.set user (before + (transfer + c.serverTransferUl))
      serverTransferUl := 0 }

def addTransferD (c : Counters) (user : Option ℕ) (transfer : ℕ) : Counters :=
  match user with
  | none => { c with serverTransferDl := c.serverTransferDl + transfer }
  | some user =>
    let before := (c.serverUserTransferDl.get? user).getD 0
    { c with
      serverUserTransferDl :=
        c.serverUserTransferDl.set user (before + (transfer + c.serverTransferDl))
      serverTransferDl := 0 }

def getUd (c : Counters) : Transfer := (c.serverTransferUl, c.serverTransferDl)

def getUsersUd (c : Counters) : Dict ℕ ℕ × Dict ℕ ℕ :=
  (c.serverUserTransferUl, c.serverUserTransferDl)

/-- The bytes of a user. -/
def userUd (c : Counters) (user : ℕ) : Transfer :=
  (((c.serverUserTransferUl.get? user).getD 0 : ℕ), ((c.serverUserTransferDl.get? user).getD 0 : ℕ))

/-- The bytes that a relay on a port has counted for a port. -/
def transferFor (id port : ℕ) (c : Counters) : Transfer :=
  (if port = id then c.getUd else 0) + c.userUd id

/-- The counters only grow. -/
structure Grows (c c' : Counters) : Prop where
  getUd : c.getUd ≤ c'.getUd
  userUd : ∀ user, c.userUd user ≤ c'.userUd user

theorem getUd_nonneg (c : Counters) : 0 ≤ c.getUd := ⟨Int.natCast_nonneg _, Int.natCast_nonneg _⟩

theorem userUd_nonneg (c : Counters) (user : ℕ) : 0 ≤ c.userUd user :=
  ⟨Int.natCast_nonneg _, Int.natCast_nonneg _⟩

theorem transferFor_nonneg (id port : ℕ) (c : Counters) : 0 ≤ transferFor id port c := by
  rw [transferFor]
  refine add_nonneg ?_ (c.userUd_nonneg id)
  split_ifs
  · exact c.getUd_nonneg
  · exact le_rfl

@[simp] theorem transferFor_new (id port : ℕ) : transferFor id port {} = 0 := by
  rw [transferFor]
  split_ifs <;> rfl

theorem Grows.transferFor_le {c c' : Counters} (h : c.Grows c') (id port : ℕ) :
    transferFor id port c ≤ transferFor id port c' := by
  rw [transferFor, transferFor]
  refine add_le_add ?_ (h.userUd id)
  split_ifs
  · exact h.getUd
  · exact le_rfl

/-- Unless bytes that belonged to the port go to a user, the counters grow. -/
theorem grows_addTransferU (c : Counters) (user : Option ℕ) (transfer : ℕ)
    (h : user = none ∨ c.serverTransferUl = 0) : c.Grows (c.addTransferU user transfer) := by
  cases user with
  | none => exact ⟨⟨by simp [Counters.getUd, addTransferU], le_rfl⟩, fun _ => le_rfl⟩
  | some user =>
    have hzero : c.serverTransferUl = 0 := h.resolve_left (by simp)
    refine ⟨⟨by simp [Counters.getUd, addTransferU, hzero], le_rfl⟩, fun user' => ⟨?_, le_rfl⟩⟩
    simp only [Counters.userUd, addTransferU, Dict.get?_set]
    by_cases hu : user' = user
    · subst hu
      simp only [if_true, Option.getD_some, Nat.cast_le]
      omega
    · simp [hu]

theorem grows_addTransferD (c : Counters) (user : Option ℕ) (transfer : ℕ)
    (h : user = none ∨ c.serverTransferDl = 0) : c.Grows (c.addTransferD user transfer) := by
  cases user with
  | none => exact ⟨⟨le_rfl, by simp [Counters.getUd, addTransferD]⟩, fun _ => le_rfl⟩
  | some user =>
    have hzero : c.serverTransferDl = 0 := h.resolve_left (by simp)
    refine ⟨⟨le_rfl, by simp [Counters.getUd, addTransferD, hzero]⟩, fun user' => ⟨le_rfl, ?_⟩⟩
    simp only [Counters.userUd, addTransferD, Dict.get?_set]
    by_cases hu : user' = user
    · subst hu
      simp only [if_true, Option.getD_some, Nat.cast_le]
      omega
    · simp [hu]

end Counters

/-! ## The pool -/

/-- The relays of `ServerPool`, by port. -/
structure ServerPool where
  tcpServersPool : Dict ℕ Counters := .empty
  tcpIpv6ServersPool : Dict ℕ Counters := .empty
  udpServersPool : Dict ℕ Counters := .empty
  udpIpv6ServersPool : Dict ℕ Counters := .empty

namespace ServerPool

def serverIsRun (s : ServerPool) (port : ℕ) : Bool :=
  s.tcpServersPool.contains port || s.tcpIpv6ServersPool.contains port

/-- `cb_del_server`; without IPv6 the pools of IPv6 relays are empty. -/
def cbDelServer (s : ServerPool) (port : ℕ) : ServerPool :=
  let s :=
    if s.tcpServersPool.contains port then
      { s with
        tcpServersPool := s.tcpServersPool.del port
        udpServersPool := s.udpServersPool.del port }
    else s
  if s.tcpIpv6ServersPool.contains port then
    { s with
      tcpIpv6ServersPool := s.tcpIpv6ServersPool.del port
      udpIpv6ServersPool := s.udpIpv6ServersPool.del port }
  else s

/-- The bytes that the relay on a port has counted for it. -/
def relayUd (pool : Dict ℕ Counters) (port : ℕ) : Transfer := (pool.get? port).elim 0 Counters.getUd

def getServerTransfer (s : ServerPool) (port : ℕ) : Transfer :=
  relayUd s.tcpServersPool port + relayUd s.udpServersPool port +
    relayUd s.tcpIpv6ServersPool port + relayUd s.udpIpv6ServersPool port

/-- `user_dict[port]` grows, from zero when there is none. -/
def addTo (userDict : Dict ℕ Transfer) (port : ℕ) (t : Transfer) : Dict ℕ Transfer :=
  userDict.set port ((userDict.get? port).getD 0 + t)

def updateMuTransfer (userDict : Dict ℕ Transfer) (u d : Dict ℕ ℕ) : Dict ℕ Transfer :=
  let userDict := u.entries.foldl (fun ret e => addTo ret e.1 (e.2, 0)) userDict
  d.entries.foldl (fun ret e => addTo ret e.1 (0, e.2)) userDict

/-- One of the loops over a pool. -/
def addPool (ret : Dict ℕ Transfer) (pool : Dict ℕ Counters) : Dict ℕ Transfer :=
  pool.entries.foldl (fun ret e => updateMuTransfer ret e.2.getUsersUd.1 e.2.getUsersUd.2) ret

def getServersTransfer (s : ServerPool) : Dict ℕ Transfer :=
  let servers := ((s.tcpServersPool.update s.tcpIpv6ServersPool).update s.udpServersPool).update
    s.udpIpv6ServersPool
  let ret := Dict.empty.setAll (fun port => some (s.getServerTransfer port)) servers.keys
  addPool (addPool (addPool (addPool ret s.tcpServersPool) s.tcpIpv6ServersPool) s.udpServersPool)
    s.udpIpv6ServersPool

/-- The bytes of a port in the relays of a pool. -/
def poolTransfer (id : ℕ) (pool : Dict ℕ Counters) : Transfer :=
  pool.sum (Counters.transferFor id)

/-- The bytes of a port in all relays. -/
def transferOf (s : ServerPool) (id : ℕ) : Transfer :=
  poolTransfer id s.tcpServersPool + poolTransfer id s.tcpIpv6ServersPool +
    poolTransfer id s.udpServersPool + poolTransfer id s.udpIpv6ServersPool

/-! ## The transfer is a sum over the relays -/

theorem getD_addTo (d : Dict ℕ Transfer) (port id : ℕ) (t : Transfer) :
    ((addTo d port t).get? id).getD 0 = (d.get? id).getD 0 + if port = id then t else 0 := by
  rw [addTo, Dict.get?_set]
  by_cases h : id = port
  · subst h
    simp
  · simp [h, Ne.symm h]

theorem getD_foldl_addTo (f : ℕ → Transfer) (es : List (ℕ × ℕ)) (d : Dict ℕ Transfer) (id : ℕ) :
    ((es.foldl (fun ret e => addTo ret e.1 (f e.2)) d).get? id).getD 0 =
      (d.get? id).getD 0 + (es.map fun e => if e.1 = id then f e.2 else 0).sum := by
  induction es generalizing d with
  | nil => simp
  | cons e es ih =>
    rw [List.foldl_cons, ih, getD_addTo, List.map_cons, List.sum_cons, add_assoc]

theorem getD_updateMuTransfer (ret : Dict ℕ Transfer) (c : Counters) (id : ℕ) :
    ((updateMuTransfer ret c.getUsersUd.1 c.getUsersUd.2).get? id).getD 0 =
      (ret.get? id).getD 0 + c.userUd id := by
  have hu := Dict.sum_ite (fun n : ℕ => ((n, 0) : Transfer)) c.serverUserTransferUl id
  have hd := Dict.sum_ite (fun n : ℕ => ((0, n) : Transfer)) c.serverUserTransferDl id
  rw [Dict.sum] at hu hd
  rw [updateMuTransfer, getD_foldl_addTo fun n => (0, n), getD_foldl_addTo fun n => (n, 0)]
  rw [Counters.getUsersUd, hu, hd, add_assoc, Counters.userUd]
  cases c.serverUserTransferUl.get? id <;> cases c.serverUserTransferDl.get? id <;> simp

theorem getD_addPool (ret : Dict ℕ Transfer) (pool : Dict ℕ Counters) (id : ℕ) :
    ((addPool ret pool).get? id).getD 0 =
      (ret.get? id).getD 0 + pool.sum fun _ c => c.userUd id := by
  have hfold : ∀ (es : List (ℕ × Counters)) (ret : Dict ℕ Transfer),
      ((es.foldl (fun ret e => updateMuTransfer ret e.2.getUsersUd.1 e.2.getUsersUd.2) ret).get?
        id).getD 0 = (ret.get? id).getD 0 + (es.map fun e => e.2.userUd id).sum := by
    intro es
    induction es with
    | nil => simp
    | cons e es ih =>
      intro ret
      rw [List.foldl_cons, ih, getD_updateMuTransfer, List.map_cons, List.sum_cons, add_assoc]
  exact hfold pool.entries ret

theorem poolTransfer_eq (id : ℕ) (pool : Dict ℕ Counters) :
    poolTransfer id pool = relayUd pool id + pool.sum fun _ c => c.userUd id := by
  rw [poolTransfer, relayUd, ← Dict.sum_ite, Dict.sum, Dict.sum, Dict.sum, ← List.sum_map_add]
  rfl

theorem relayUd_eq_zero {pool : Dict ℕ Counters} {port : ℕ} (h : pool.contains port = false) :
    relayUd pool port = 0 := by
  rw [relayUd, Dict.contains_eq_false.1 h]
  rfl

/-- What the pool reports for a port. -/
theorem getD_getServersTransfer (s : ServerPool) (id : ℕ) :
    (s.getServersTransfer.get? id).getD 0 = s.transferOf id := by
  rw [getServersTransfer, getD_addPool, getD_addPool, getD_addPool, getD_addPool, Dict.get?_setAll]
  rw [transferOf, poolTransfer_eq, poolTransfer_eq, poolTransfer_eq, poolTransfer_eq]
  have hown : ∀ b : Bool, (b = false → s.getServerTransfer id = 0) →
      ((if b then (some (s.getServerTransfer id)).or (Dict.empty.get? id) else
        Dict.empty.get? id : Option Transfer)).getD 0 = s.getServerTransfer id := by
    rintro (_ | _) hb
    · exact (hb rfl).symm
    · rfl
  simp only [Dict.mem_keys]
  rw [hown _ fun h => ?_, getServerTransfer]
  · abel
  · simp only [Dict.contains_update, Bool.or_eq_false_iff] at h
    obtain ⟨⟨⟨htcp, htcp6⟩, hudp⟩, hudp6⟩ := h
    simp only [getServerTransfer, relayUd_eq_zero htcp, relayUd_eq_zero htcp6, relayUd_eq_zero hudp,
      relayUd_eq_zero hudp6, add_zero]

theorem transferOf_nonneg (s : ServerPool) (id : ℕ) : 0 ≤ s.transferOf id := by
  have hpool : ∀ pool : Dict ℕ Counters, 0 ≤ poolTransfer id pool := fun pool =>
    List.sum_nonneg fun t ht => by
      obtain ⟨e, -, rfl⟩ := List.mem_map.1 ht
      exact Counters.transferFor_nonneg id e.1 e.2
  exact add_nonneg (add_nonneg (add_nonneg (hpool _) (hpool _)) (hpool _)) (hpool _)

/-! ## Changes of the pool -/

/-- The four pools. -/
inductive Slot
  | tcp | tcpIpv6 | udp | udpIpv6

def pool (s : ServerPool) : Slot → Dict ℕ Counters
  | .tcp => s.tcpServersPool
  | .tcpIpv6 => s.tcpIpv6ServersPool
  | .udp => s.udpServersPool
  | .udpIpv6 => s.udpIpv6ServersPool

/-- A pool gets a relay on a port, or its relay other counters. -/
def setRelay (s : ServerPool) (slot : Slot) (port : ℕ) (c : Counters) : ServerPool :=
  match slot with
  | .tcp => { s with tcpServersPool := s.tcpServersPool.set port c }
  | .tcpIpv6 => { s with tcpIpv6ServersPool := s.tcpIpv6ServersPool.set port c }
  | .udp => { s with udpServersPool := s.udpServersPool.set port c }
  | .udpIpv6 => { s with udpIpv6ServersPool := s.udpIpv6ServersPool.set port c }

/-- Whether `new_server` can add a relay: there is none, and the TCP relay comes before the UDP
    relay. -/
def canStart (s : ServerPool) (slot : Slot) (port : ℕ) : Bool :=
  !(s.pool slot).contains port && match slot with
    | .udp => s.tcpServersPool.contains port
    | .udpIpv6 => s.tcpIpv6ServersPool.contains port
    | _ => true

/-- No UDP relay without its TCP relay. -/
structure Paired (s : ServerPool) : Prop where
  udp : ∀ port, s.udpServersPool.contains port = true → s.tcpServersPool.contains port = true
  udpIpv6 : ∀ port,
    s.udpIpv6ServersPool.contains port = true → s.tcpIpv6ServersPool.contains port = true

/-- The bytes of a port in the relay of a pool on a port. -/
def relayTransfer (pool : Dict ℕ Counters) (port id : ℕ) : Transfer :=
  (pool.get? port).elim 0 (Counters.transferFor id port)

/-- The bytes of a port in the relays on a port. -/
def relaysTransfer (s : ServerPool) (port id : ℕ) : Transfer :=
  relayTransfer s.tcpServersPool port id + relayTransfer s.tcpIpv6ServersPool port id +
    relayTransfer s.udpServersPool port id + relayTransfer s.udpIpv6ServersPool port id

variable {s : ServerPool} {slot : Slot} {port : ℕ}

theorem transferOf_setRelay (s : ServerPool) (slot : Slot) (port : ℕ) (c : Counters) (id : ℕ) :
    (s.setRelay slot port c).transferOf id + relayTransfer (s.pool slot) port id =
      s.transferOf id + Counters.transferFor id port c := by
  have hset := Dict.sum_set (Counters.transferFor id) (s.pool slot) port c
  rw [← relayTransfer, ← poolTransfer, ← poolTransfer] at hset
  cases slot <;> simp only [setRelay, transferOf, pool] at hset ⊢ <;> linear_combination hset

theorem relayTransfer_set (pool : Dict ℕ Counters) (port port' id : ℕ) (c : Counters) :
    relayTransfer (pool.set port c) port' id =
      if port' = port then Counters.transferFor id port c else relayTransfer pool port' id := by
  rw [relayTransfer, Dict.get?_set]
  by_cases h : port' = port
  · subst h
    simp
  · simp [h, relayTransfer]

theorem relayTransfer_del (pool : Dict ℕ Counters) (port port' id : ℕ) :
    relayTransfer (pool.del port) port' id =
      if port' = port then 0 else relayTransfer pool port' id := by
  rw [relayTransfer, Dict.get?_del]
  by_cases h : port' = port <;> simp [h, relayTransfer]

theorem relayTransfer_of_not_contains {pool : Dict ℕ Counters} (h : pool.contains port = false)
    (id : ℕ) : relayTransfer pool port id = 0 := by
  rw [relayTransfer, Dict.contains_eq_false.1 h]
  rfl

theorem not_contains_of_canStart (h : s.canStart slot port = true) :
    (s.pool slot).contains port = false := by
  unfold canStart at h
  rw [Bool.and_eq_true, Bool.not_eq_true'] at h
  exact h.1

/-- A new relay has counted nothing. -/
theorem transferOf_start (h : s.canStart slot port = true) (id : ℕ) :
    (s.setRelay slot port {}).transferOf id = s.transferOf id := by
  have hset := transferOf_setRelay s slot port {} id
  rwa [relayTransfer_of_not_contains (not_contains_of_canStart h), Counters.transferFor_new,
    add_zero, add_zero] at hset

theorem relaysTransfer_start (h : s.canStart slot port = true) (port' id : ℕ) :
    (s.setRelay slot port {}).relaysTransfer port' id = s.relaysTransfer port' id := by
  have hset : relayTransfer ((s.pool slot).set port {}) port' id =
      relayTransfer (s.pool slot) port' id := by
    rw [relayTransfer_set, Counters.transferFor_new]
    split_ifs with hport
    · rw [hport, relayTransfer_of_not_contains (not_contains_of_canStart h)]
    · rfl
  cases slot <;> simp only [setRelay, relaysTransfer, pool] at hset ⊢ <;> rw [hset]

theorem Paired.start (hs : s.Paired) (h : s.canStart slot port = true) :
    (s.setRelay slot port {}).Paired := by
  unfold canStart at h
  rw [Bool.and_eq_true] at h
  refine ⟨fun port' => ?_, fun port' => ?_⟩
  · have hudp := hs.udp port'
    cases slot <;> simp only [setRelay, Dict.contains_set, Bool.or_eq_true, decide_eq_true_eq]
    · exact fun hc => .inr (hudp hc)
    · exact hudp
    · rintro (rfl | hc)
      · exact h.2
      · exact hudp hc
    · exact hudp
  · have hudp := hs.udpIpv6 port'
    cases slot <;> simp only [setRelay, Dict.contains_set, Bool.or_eq_true, decide_eq_true_eq]
    · exact hudp
    · exact fun hc => .inr (hudp hc)
    · exact hudp
    · rintro (rfl | hc)
      · exact h.2
      · exact hudp hc

/-- A relay that is there keeps its place. -/
theorem Paired.setRelay (hs : s.Paired) {c : Counters} (h : (s.pool slot).contains port = true) :
    (s.setRelay slot port c).Paired := by
  have hcontains : ∀ port', ((s.pool slot).set port c).contains port' =
      (s.pool slot).contains port' := fun port' => by
    rw [Dict.contains_set]
    by_cases hp : port' = port
    · subst hp
      simp [h]
    · simp [hp]
  refine ⟨fun port' => ?_, fun port' => ?_⟩
  · have hudp := hs.udp port'
    cases slot <;> simp only [ServerPool.setRelay, pool] at hcontains ⊢ <;> first
      | exact hudp
      | rw [hcontains]; exact hudp
  · have hudp := hs.udpIpv6 port'
    cases slot <;> simp only [ServerPool.setRelay, pool] at hcontains ⊢ <;> first
      | exact hudp
      | rw [hcontains]; exact hudp

/-- Deleting a port from a pool that does not have it. -/
theorem del_of_not_contains {pool : Dict ℕ Counters} (h : pool.contains port = false) :
    pool.del port = pool :=
  Dict.ext (List.filter_eq_self.2 fun e he => decide_eq_true fun hp => by
    rw [Dict.contains_eq_false, ← hp, Dict.mem_entries.1 he] at h
    cases h)

/-- `cb_del_server` removes the port from all pools. -/
theorem cbDelServer_eq (hs : s.Paired) (port : ℕ) : s.cbDelServer port =
    { tcpServersPool := s.tcpServersPool.del port
      tcpIpv6ServersPool := s.tcpIpv6ServersPool.del port
      udpServersPool := s.udpServersPool.del port
      udpIpv6ServersPool := s.udpIpv6ServersPool.del port } := by
  have hdel : ∀ {tcp udp : Dict ℕ Counters}, (udp.contains port = true → tcp.contains port = true) →
      tcp.contains port = false → tcp.del port = tcp ∧ udp.del port = udp := fun hudp htcp =>
    ⟨del_of_not_contains htcp, del_of_not_contains (Bool.eq_false_iff.2 fun h => by
      rw [hudp h] at htcp
      cases htcp)⟩
  rw [cbDelServer]
  cases htcp : s.tcpServersPool.contains port <;> cases htcp6 : s.tcpIpv6ServersPool.contains port
  · obtain ⟨h₁, h₂⟩ := hdel (hs.udp port) htcp
    obtain ⟨h₃, h₄⟩ := hdel (hs.udpIpv6 port) htcp6
    simp [htcp6, h₁, h₂, h₃, h₄]
  · obtain ⟨h₁, h₂⟩ := hdel (hs.udp port) htcp
    simp [htcp6, h₁, h₂]
  · obtain ⟨h₃, h₄⟩ := hdel (hs.udpIpv6 port) htcp6
    simp [htcp6, h₃, h₄]
  · simp [htcp6]

theorem Paired.cbDelServer (hs : s.Paired) (port : ℕ) : (s.cbDelServer port).Paired := by
  rw [cbDelServer_eq hs]
  refine ⟨fun port' h => ?_, fun port' h => ?_⟩ <;>
    simp only [Dict.contains_del, Bool.and_eq_true] at h ⊢
  · exact ⟨h.1, hs.udp port' h.2⟩
  · exact ⟨h.1, hs.udpIpv6 port' h.2⟩

/-- Stopping a port takes away what its relays have counted. -/
theorem transferOf_cbDelServer (hs : s.Paired) (port id : ℕ) :
    (s.cbDelServer port).transferOf id + s.relaysTransfer port id = s.transferOf id := by
  have hdel : ∀ pool : Dict ℕ Counters,
      poolTransfer id (pool.del port) + relayTransfer pool port id = poolTransfer id pool :=
    fun pool => Dict.sum_del (Counters.transferFor id) pool port
  rw [cbDelServer_eq hs, transferOf, relaysTransfer, transferOf, ← hdel s.tcpServersPool,
    ← hdel s.tcpIpv6ServersPool, ← hdel s.udpServersPool, ← hdel s.udpIpv6ServersPool]
  abel

theorem relaysTransfer_cbDelServer (hs : s.Paired) (port port' id : ℕ) :
    (s.cbDelServer port).relaysTransfer port' id =
      if port' = port then 0 else s.relaysTransfer port' id := by
  rw [cbDelServer_eq hs, relaysTransfer, relayTransfer_del, relayTransfer_del, relayTransfer_del,
    relayTransfer_del]
  split_ifs
  · rfl
  · rfl

end ServerPool

end ShadowsocksR

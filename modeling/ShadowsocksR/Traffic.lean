import ShadowsocksR.ServerPool
import ShadowsocksR.Lib.Run

/-!
# No byte is lost between the counters

The relays count the bytes of their port until a user is known, and then move
them to the counter of the user. The pool reports the bytes of every port: of
the relays on it, and of the user with its number. In all, it reports every
byte once.

* `Counters.total_addTransferU`: what a relay counts in all;
* `ServerPool.sum_getServersTransfer`: the report, in all, is what the relays
  have counted;
* `ServerPool.transfer_conserved`: so it is along every run of the relays.
-/

namespace ShadowsocksR

namespace Counters

/-- The bytes of all users. -/
def usersTotal (c : Counters) : Transfer :=
  (c.serverUserTransferUl.sum fun _ (n : ℕ) => ((n : ℤ), (0 : ℤ))) +
    c.serverUserTransferDl.sum fun _ (n : ℕ) => ((0 : ℤ), (n : ℤ))

/-- All bytes that a relay has counted. -/
def total (c : Counters) : Transfer := c.getUd + c.usersTotal

theorem total_new : total {} = 0 := by
  simp [total, getUd, usersTotal]

/-- A counter of a user grows. -/
theorem sum_set_add (f : ℕ → Transfer) (hf : ∀ m n, f (m + n) = f m + f n) (d : Dict ℕ ℕ)
    (user n : ℕ) : (d.set user ((d.get? user).getD 0 + n)).sum (fun _ n => f n) =
      d.sum (fun _ n => f n) + f n := by
  have hset := Dict.sum_set (fun _ n => f n) d user ((d.get? user).getD 0 + n)
  have hzero : f 0 = 0 := by
    have := hf 0 0
    rwa [add_zero, left_eq_add] at this
  have helim : (d.get? user).elim 0 f = f ((d.get? user).getD 0) := by
    cases d.get? user with
    | none => exact hzero.symm
    | some m => rfl
  rw [helim, hf] at hset
  linear_combination hset

/-- The bytes that had no user move to the user, and the new ones are added. -/
theorem total_addTransferU (c : Counters) (user : Option ℕ) (transfer : ℕ) :
    (c.addTransferU user transfer).total = c.total + ((transfer : ℤ), 0) := by
  cases user with
  | none =>
    refine Prod.ext ?_ ?_ <;>
      simp only [total, getUd, addTransferU, usersTotal, Nat.cast_add, Prod.fst_add, Prod.snd_add]
    · abel
    · abel
  | some user =>
    have hset := sum_set_add (fun n => ((n : ℤ), (0 : ℤ))) (fun m n => by simp)
      c.serverUserTransferUl user (transfer + c.serverTransferUl)
    simp only [total, getUd, usersTotal, addTransferU, hset]
    refine Prod.ext ?_ ?_ <;>
      simp only [Prod.fst_add, Prod.snd_add, Nat.cast_add, Nat.cast_zero]
    · abel
    · abel

theorem total_addTransferD (c : Counters) (user : Option ℕ) (transfer : ℕ) :
    (c.addTransferD user transfer).total = c.total + (0, (transfer : ℤ)) := by
  cases user with
  | none =>
    refine Prod.ext ?_ ?_ <;>
      simp only [total, getUd, addTransferD, usersTotal, Nat.cast_add, Prod.fst_add, Prod.snd_add]
    · abel
    · abel
  | some user =>
    have hset := sum_set_add (fun n => ((0 : ℤ), (n : ℤ))) (fun m n => by simp)
      c.serverUserTransferDl user (transfer + c.serverTransferDl)
    simp only [total, getUd, usersTotal, addTransferD, hset]
    refine Prod.ext ?_ ?_ <;>
      simp only [Prod.fst_add, Prod.snd_add, Nat.cast_add, Nat.cast_zero]
    · abel
    · abel

end Counters

namespace ServerPool

/-! ## The report -/

/-- All bytes in the relays of a pool. -/
def poolTotal (pool : Dict ℕ Counters) : Transfer := pool.sum fun _ c => c.total

/-- All bytes in the relays. -/
def total (s : ServerPool) : Transfer :=
  poolTotal s.tcpServersPool + poolTotal s.tcpIpv6ServersPool + poolTotal s.udpServersPool +
    poolTotal s.udpIpv6ServersPool

/-- The bytes of all ports in a report. -/
def reported (ret : Dict ℕ Transfer) : Transfer := ret.sum fun _ t => t

theorem reported_addTo (ret : Dict ℕ Transfer) (port : ℕ) (t : Transfer) :
    reported (addTo ret port t) = reported ret + t := by
  have hset := Dict.sum_set (fun _ t => t) ret port ((ret.get? port).getD 0 + t)
  have helim : (ret.get? port).elim 0 (fun t => t) = (ret.get? port).getD 0 := by
    cases ret.get? port <;> rfl
  rw [helim] at hset
  rw [reported, reported, addTo]
  linear_combination hset

theorem reported_foldl_addTo (f : ℕ → Transfer) (es : List (ℕ × ℕ)) (ret : Dict ℕ Transfer) :
    reported (es.foldl (fun ret e => addTo ret e.1 (f e.2)) ret) =
      reported ret + (es.map fun e => f e.2).sum := by
  induction es generalizing ret with
  | nil => simp
  | cons e es ih => rw [List.foldl_cons, ih, reported_addTo, List.map_cons, List.sum_cons, add_assoc]

/-- The users of a relay, whatever their numbers are. -/
theorem reported_updateMuTransfer (ret : Dict ℕ Transfer) (c : Counters) :
    reported (updateMuTransfer ret c.getUsersUd.1 c.getUsersUd.2) =
      reported ret + c.usersTotal := by
  rw [updateMuTransfer, reported_foldl_addTo fun n => (0, n),
    reported_foldl_addTo fun n => (n, 0), add_assoc]
  rfl

theorem reported_addPool (ret : Dict ℕ Transfer) (pool : Dict ℕ Counters) :
    reported (addPool ret pool) = reported ret + pool.sum fun _ c => c.usersTotal := by
  have hfold : ∀ (es : List (ℕ × Counters)) (ret : Dict ℕ Transfer),
      reported (es.foldl (fun ret e => updateMuTransfer ret e.2.getUsersUd.1 e.2.getUsersUd.2) ret) =
        reported ret + (es.map fun e => e.2.usersTotal).sum := by
    intro es
    induction es with
    | nil => simp
    | cons e es ih =>
      intro ret
      rw [List.foldl_cons, ih, reported_updateMuTransfer, List.map_cons, List.sum_cons, add_assoc]
  exact hfold pool.entries ret

theorem poolTotal_eq (pool : Dict ℕ Counters) :
    poolTotal pool = (pool.sum fun _ c => c.getUd) + pool.sum fun _ c => c.usersTotal := by
  rw [poolTotal, Dict.sum, Dict.sum, Dict.sum, ← List.sum_map_add]
  rfl

/-- The relays on the ports of a list that has all ports of the pool. -/
theorem sum_relayUd {pool : Dict ℕ Counters} {ports : List ℕ} (hports : ports.Nodup)
    (h : ∀ port ∈ pool.keys, port ∈ ports) :
    (ports.map (relayUd pool)).sum = pool.sum fun _ c => c.getUd :=
  Dict.sum_keys Counters.getUd hports h

/-- The pool reports what its relays have counted. -/
theorem sum_getServersTransfer (s : ServerPool) : reported s.getServersTransfer = s.total := by
  rw [getServersTransfer, reported_addPool, reported_addPool, reported_addPool, reported_addPool]
  generalize hservers : ((s.tcpServersPool.update s.tcpIpv6ServersPool).update
    s.udpServersPool).update s.udpIpv6ServersPool = servers
  have hports : ∀ {pool : Dict ℕ Counters}, (∀ port, pool.contains port = true →
      servers.contains port = true) → ∀ port ∈ pool.keys, port ∈ servers.keys :=
    fun h port hport => Dict.mem_keys.2 (h port (Dict.mem_keys.1 hport))
  have hown : reported (Dict.empty.setAll (fun port => some (s.getServerTransfer port))
      servers.keys) = (servers.keys.map s.getServerTransfer).sum := by
    rw [reported, Dict.sum_setAll _ _ servers.nodup_keys fun _ _ => rfl, Dict.sum_empty, zero_add]
  have hsum : (servers.keys.map s.getServerTransfer).sum =
      (servers.keys.map (relayUd s.tcpServersPool)).sum +
        (servers.keys.map (relayUd s.udpServersPool)).sum +
        (servers.keys.map (relayUd s.tcpIpv6ServersPool)).sum +
        (servers.keys.map (relayUd s.udpIpv6ServersPool)).sum := by
    rw [← List.sum_map_add, ← List.sum_map_add, ← List.sum_map_add]
    rfl
  rw [hown, hsum, sum_relayUd servers.nodup_keys (hports fun port h => by rw [← hservers]; simp [h]),
    sum_relayUd servers.nodup_keys (hports fun port h => by rw [← hservers]; simp [h]),
    sum_relayUd servers.nodup_keys (hports fun port h => by rw [← hservers]; simp [h]),
    sum_relayUd servers.nodup_keys (hports fun port h => by rw [← hservers]; simp [h]), total,
    poolTotal_eq, poolTotal_eq, poolTotal_eq, poolTotal_eq]
  abel

/-! ## Runs of the relays -/

/-- A call of a relay, or of the pool. -/
inductive Call
  | addTransferU (slot : Slot) (port : ℕ) (user : Option ℕ) (transfer : ℕ)
  | addTransferD (slot : Slot) (port : ℕ) (user : Option ℕ) (transfer : ℕ)
  | getServersTransfer

/-- One call of a relay that is in the pool. -/
def call (s : ServerPool) : Call → Option ServerPool
  | .addTransferU slot port user transfer =>
    ((s.pool slot).get? port).map fun c => s.setRelay slot port (c.addTransferU user transfer)
  | .addTransferD slot port user transfer =>
    ((s.pool slot).get? port).map fun c => s.setRelay slot port (c.addTransferD user transfer)
  | .getServersTransfer => some s

/-- The bytes that a call passes to a relay. -/
def Call.passed : Call → Transfer
  | .addTransferU _ _ _ transfer => (transfer, 0)
  | .addTransferD _ _ _ transfer => (0, transfer)
  | .getServersTransfer => 0

/-- The relays have counted nothing. -/
def Unused (s : ServerPool) : Prop := ∀ slot port c, (s.pool slot).get? port = some c → c = {}

theorem total_setRelay {s : ServerPool} {slot : Slot} {port : ℕ} {c : Counters}
    (h : (s.pool slot).get? port = some c) (c' : Counters) :
    (s.setRelay slot port c').total + c.total = s.total + c'.total := by
  have hset := Dict.sum_set (fun _ c => Counters.total c) (s.pool slot) port c'
  rw [h, Option.elim_some, ← poolTotal, ← poolTotal] at hset
  cases slot <;> simp only [setRelay, total, pool] at hset ⊢ <;> linear_combination hset

/-- A call adds the bytes that it passes. -/
theorem total_call {s s' : ServerPool} {e : Call} (h : s.call e = some s') :
    s'.total = s.total + e.passed := by
  cases e with
  | addTransferU slot port user transfer =>
    obtain ⟨c, hc, rfl⟩ := Option.map_eq_some_iff.1 h
    have hset := total_setRelay hc (c.addTransferU user transfer)
    rw [Counters.total_addTransferU] at hset
    rw [Call.passed]
    linear_combination hset
  | addTransferD slot port user transfer =>
    obtain ⟨c, hc, rfl⟩ := Option.map_eq_some_iff.1 h
    have hset := total_setRelay hc (c.addTransferD user transfer)
    rw [Counters.total_addTransferD] at hset
    rw [Call.passed]
    linear_combination hset
  | getServersTransfer =>
    cases h
    exact (add_zero _).symm

theorem total_run {s s' : ServerPool} {calls : List Call} (h : Run.exec call s calls = some s') :
    s'.total = s.total + (calls.map Call.passed).sum := by
  induction calls generalizing s with
  | nil =>
    cases h
    exact (add_zero _).symm
  | cons e calls ih =>
    obtain ⟨t, ht, hrun⟩ := Run.exec_cons_eq_some.1 h
    rw [ih hrun, total_call ht, List.map_cons, List.sum_cons, add_assoc]

theorem Unused.total_eq {s : ServerPool} (h : s.Unused) : s.total = 0 := by
  have hpool : ∀ slot, poolTotal (s.pool slot) = 0 := fun slot =>
    List.sum_eq_zero fun t ht => by
      obtain ⟨e, he, rfl⟩ := List.mem_map.1 ht
      rw [h slot e.1 e.2 (Dict.mem_entries.1 he)]
      exact Counters.total_new
  have htcp : poolTotal s.tcpServersPool = 0 := hpool .tcp
  have htcp6 : poolTotal s.tcpIpv6ServersPool = 0 := hpool .tcpIpv6
  have hudp : poolTotal s.udpServersPool = 0 := hpool .udp
  have hudp6 : poolTotal s.udpIpv6ServersPool = 0 := hpool .udpIpv6
  rw [total, htcp, htcp6, hudp, hudp6]
  rfl

/-- After any calls of relays that had counted nothing, the pool reports in all the bytes that were
    passed to them. -/
theorem transfer_conserved {s s' : ServerPool} (hs : s.Unused) {calls : List Call}
    (h : Run.exec call s calls = some s') :
    reported s'.getServersTransfer = (calls.map Call.passed).sum := by
  rw [sum_getServersTransfer, total_run h, hs.total_eq, zero_add]

/-- A user with the number of a port: the bytes that the port had counted move to the user. -/
theorem transfer_conserved_port : ∃ s : ServerPool, reported s.getServersTransfer = (15, 0) := by
  let s : ServerPool := { tcpServersPool := Dict.empty.set 80 {} }
  have hunused : s.Unused := fun slot port c h => by
    cases slot with
    | tcp =>
      rw [show s.pool .tcp = Dict.empty.set 80 {} from rfl, Dict.get?_set] at h
      split_ifs at h
      · exact (Option.some.inj h).symm
      · cases h
    | tcpIpv6 => cases h
    | udp => cases h
    | udpIpv6 => cases h
  have hrun : Run.exec call s [.addTransferU .tcp 80 none 5, .getServersTransfer,
    .addTransferU .tcp 80 (some 80) 10] = some _ := rfl
  exact ⟨_, transfer_conserved hunused hrun⟩

end ServerPool

end ShadowsocksR

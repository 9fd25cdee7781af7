import ShadowsocksR.DbTransfer

/-!
# Every byte is billed once

A node runs relays, which count bytes, and rounds of `push_db_all_user`. Between
a round and the next traffic, `del_server_out_of_bound_safe` stops relays and
starts others.

* `Node.step`: the events of a node, with the bytes ever counted and billed for
  each port;
* `Node.pending`: the bytes that the rounds to come will offer;
* `Node.Valid`: the bytes counted are those billed and those pending;
* `valid_step`: this stays so when the increment of a stopped port is accepted,
  and when a port is stopped the relays of which have counted nothing for other
  ports, and for their own port all of its bytes if some of them were billed,
  and none otherwise;
* `billedOnce_of_kept`: so nothing is billed twice, and nothing is lost.
-/

namespace ShadowsocksR

/-- A pool and the tables. The last fields are those of an observer. -/
structure Node where
  pool : ServerPool := {}
  transfers : TransferBase := {}
  /-- No relay has counted anything since the last round. -/
  quiet : Bool := false
  /-- The bytes ever counted for a port. -/
  counted : ℕ → Transfer := 0
  /-- The increments ever accepted for it. -/
  accepted : ℕ → Transfer := 0

namespace Node

inductive Event
  /-- `pull_db_all_user` has returned users. -/
  | pull
  /-- A round, the increments of which are accepted for some ports. -/
  | push (accept : ℕ → Bool)
  /-- `del_server_out_of_bound_safe` stops the relays on a port. -/
  | stop (port : ℕ)
  /-- It starts a relay. -/
  | start (slot : ServerPool.Slot) (port : ℕ)
  /-- It sets the ports with many users. -/
  | muPorts (ports : List ℕ)
  /-- A relay has counted bytes. -/
  | traffic (slot : ServerPool.Slot) (port : ℕ) (c : Counters)

/-- The increments that a round offers and that are accepted. -/
def updateTransfer (n : Node) (accept : ℕ → Bool) : Dict ℕ Transfer :=
  (n.transfers.dtTransfer n.pool.getServersTransfer).restrict accept

def step (n : Node) : Event → Option Node
  | .pull => some { n with transfers := { n.transfers with pullOk := true } }
  | .push accept =>
    if n.transfers.pullOk then
      some { n with
        transfers := n.transfers.pushDbAllUser n.pool.getServersTransfer fun dt => dt.restrict accept
        quiet := true
        accepted := fun id => n.accepted id + ((n.updateTransfer accept).get? id).getD 0 }
    else some n
  | .stop port =>
    if n.pool.serverIsRun port then
      some { n with
        pool := n.pool.cbDelServer port
        transfers := { n.transfers with
          forceUpdateTransfer := n.transfers.forceUpdateTransfer.insert port } }
    else none
  | .start slot port =>
    if n.pool.canStart slot port then some { n with pool := n.pool.setRelay slot port {} } else none
  | .muPorts ports => some { n with transfers := { n.transfers with muPorts := ports } }
  | .traffic slot port c =>
    if (n.pool.pool slot).contains port then
      let pool := n.pool.setRelay slot port c
      some { n with
        pool
        quiet := false
        counted := fun id => n.counted id + (pool.transferOf id - n.pool.transferOf id) }
    else none

/-- Counters only grow, and relays are stopped only between a round and the next traffic. -/
def Allowed (n : Node) : Event → Prop
  | .stop _ => n.quiet = true
  | .traffic slot port c => ∀ before, (n.pool.pool slot).get? port = some before → before.Grows c
  | _ => True

/-- The bytes counted for a port that the rounds to come will offer: after a stop, those that the
    next round offers, and those of the relays in the round after it. -/
def pending (n : Node) (id : ℕ) : Transfer :=
  let curr := (n.pool.getServersTransfer.get? id).getD 0
  if id ∈ n.transfers.forceUpdateTransfer then (n.transfers.forcedIncrement id).getD 0 + curr
  else curr - (n.transfers.lastUpdateTransfer.get? id).getD 0

/-- Nothing is billed that was not counted, and what was counted is billed or pending. -/
def BilledOnce (n : Node) : Prop :=
  ∀ id, n.accepted id ≤ n.counted id ∧ n.counted id ≤ n.accepted id + n.pending id

/-- A round accepts what it offers for stopped ports. A port is stopped when its relays have bytes of
    no other port, and all bytes of their port if it was billed any, but none of it otherwise. -/
def Kept (n : Node) : Event → Prop
  | .push accept => ∀ id ∈ n.transfers.forceUpdateTransfer, ∀ dt,
      n.transfers.forcedIncrement id = some dt → dt = 0 ∨ accept id = true
  | .stop port => (∀ id, id ≠ port → n.pool.relaysTransfer port id = 0) ∧
      (port ∉ n.transfers.forceUpdateTransfer → n.pool.relaysTransfer port port =
        if n.transfers.lastUpdateTransfer.contains port then n.pool.transferOf port else 0)
  | _ => True

/-! ## The invariant -/

structure Valid (n : Node) : Prop where
  conserved : ∀ id, n.accepted id + n.pending id = n.counted id
  /-- No more was billed than the relays have counted. -/
  billed_le : ∀ id ∉ n.transfers.forceUpdateTransfer,
    (n.transfers.lastUpdateTransfer.get? id).getD 0 ≤ n.pool.transferOf id
  forced_nonneg : ∀ id ∈ n.transfers.forceUpdateTransfer, ∀ dt,
    n.transfers.forcedIncrement id = some dt → 0 ≤ dt
  billed_pos : ∀ id billed, n.transfers.lastUpdateTransfer.get? id = some billed →
    0 < billed.1 + billed.2
  paired : n.pool.Paired
  /-- The last round has seen what the relays have counted. -/
  seen : n.quiet = true → ∀ id ∉ n.transfers.forceUpdateTransfer,
    n.transfers.lastUpdateTransfer.contains id = true →
    n.transfers.lastGetTransfer.get? id = some (n.pool.transferOf id)
  /-- Relays on a stopped port are new. -/
  fresh : n.quiet = true → ∀ port ∈ n.transfers.forceUpdateTransfer, ∀ id,
    n.pool.relaysTransfer port id = 0

variable {n n' : Node} {id : ℕ}

theorem pending_of_mem (h : id ∈ n.transfers.forceUpdateTransfer) :
    n.pending id = (n.transfers.forcedIncrement id).getD 0 + n.pool.transferOf id := by
  rw [pending, ServerPool.getD_getServersTransfer]
  exact if_pos h

theorem pending_of_not_mem (h : id ∉ n.transfers.forceUpdateTransfer) :
    n.pending id = n.pool.transferOf id - (n.transfers.lastUpdateTransfer.get? id).getD 0 := by
  rw [pending, ServerPool.getD_getServersTransfer]
  exact if_neg h

/-- With the same tables, the pending bytes change as those of the relays do. -/
theorem pending_pool (n : Node) (pool : ServerPool) (quiet : Bool) (counted : ℕ → Transfer)
    (id : ℕ) : Node.pending { n with pool, quiet, counted } id =
      n.pending id + (pool.transferOf id - n.pool.transferOf id) := by
  by_cases hid : id ∈ n.transfers.forceUpdateTransfer
  · have hn := pending_of_mem hid
    rw [hn]
    refine (pending_of_mem (n := { n with pool, quiet, counted }) hid).trans ?_
    abel
  · have hn := pending_of_not_mem hid
    rw [hn]
    refine (pending_of_not_mem (n := { n with pool, quiet, counted }) hid).trans ?_
    abel

theorem Valid.pending_nonneg (hn : n.Valid) (id : ℕ) : 0 ≤ n.pending id := by
  by_cases h : id ∈ n.transfers.forceUpdateTransfer
  · rw [pending_of_mem h]
    refine add_nonneg ?_ (n.pool.transferOf_nonneg id)
    cases hdt : n.transfers.forcedIncrement id with
    | none => exact le_rfl
    | some dt => exact hn.forced_nonneg id h dt hdt
  · rw [pending_of_not_mem h]
    exact sub_nonneg.2 (hn.billed_le id h)

theorem Valid.billedOnce (hn : n.Valid) : n.BilledOnce := fun id => by
  rw [← hn.conserved id]
  exact ⟨le_add_of_nonneg_right (hn.pending_nonneg id), le_rfl⟩

theorem valid_new : Node.Valid {} where
  conserved id := by
    rw [pending_of_not_mem (by simp)]
    rfl
  billed_le id _ := le_rfl
  forced_nonneg id h := by cases h
  billed_pos id billed h := by cases h
  paired := ⟨fun _ h => (by cases h), fun _ h => (by cases h)⟩
  seen h := by cases h
  fresh h := by cases h

/-! ## Rounds -/

/-- What a round does to a port that was stopped. -/
theorem get?_updateTransfer_of_mem (accept : ℕ → Bool)
    (h : id ∈ n.transfers.forceUpdateTransfer) :
    (n.updateTransfer accept).get? id =
      if accept id then n.transfers.forcedIncrement id else none := by
  rw [updateTransfer, Dict.get?_restrict, TransferBase.get?_dtTransfer_of_mem h]

/-- What it does to another port. -/
theorem updateTransfer_of_not_mem {accept : ℕ → Bool} {dt : Transfer}
    (h : id ∉ n.transfers.forceUpdateTransfer)
    (hdt : (n.updateTransfer accept).get? id = some dt) :
    dt = n.pool.transferOf id - (n.transfers.lastUpdateTransfer.get? id).getD 0 ∧
      0 < dt.1 + dt.2 := by
  rw [updateTransfer, Dict.get?_restrict, TransferBase.get?_dtTransfer_of_not_mem h] at hdt
  split_ifs at hdt
  obtain ⟨hdt, hpos⟩ := TransferBase.increment_eq_some hdt
  rw [ServerPool.getD_getServersTransfer] at hdt
  exact ⟨hdt, hpos⟩

/-- The increment of a stopped port that a round must accept is accepted. -/
theorem Kept.updateTransfer_of_mem {accept : ℕ → Bool} (hkept : n.Kept (.push accept))
    (h : id ∈ n.transfers.forceUpdateTransfer) :
    ((n.updateTransfer accept).get? id).getD 0 = (n.transfers.forcedIncrement id).getD 0 := by
  rw [get?_updateTransfer_of_mem accept h]
  cases hdt : n.transfers.forcedIncrement id with
  | none => rw [ite_self]
  | some dt =>
    rcases hkept id h dt hdt with rfl | haccept
    · split_ifs <;> rfl
    · rw [if_pos haccept]

/-- A round with `DbTransfer` accepts what it offers for stopped ports, when its query succeeds. -/
theorem kept_push_dbTransfer (n : Node) (userPass : Dict ℕ ℕ) (dt : Dict ℕ Transfer) :
    n.Kept (.push fun id => true && !DbTransfer.skips n.transfers.forceUpdateTransfer userPass
      (id, (dt.get? id).getD 0)) := fun _ hid _ _ =>
  .inr (congrArg (!·) (DbTransfer.skips_of_mem hid userPass _))

theorem Valid.push (hn : n.Valid) {accept : ℕ → Bool} (hpull : n.transfers.pullOk = true)
    (hkept : n.Kept (.push accept)) (h : n.step (.push accept) = some n') : n'.Valid := by
  rw [step, if_pos hpull] at h
  cases h
  have hforce : (n.transfers.pushDbAllUser n.pool.getServersTransfer
      fun dt => dt.restrict accept).forceUpdateTransfer = [] :=
    TransferBase.forceUpdateTransfer_push hpull _
  have hget : ∀ id, (n.transfers.pushDbAllUser n.pool.getServersTransfer
      fun dt => dt.restrict accept).lastGetTransfer.get? id =
      if id ∈ n.transfers.forceUpdateTransfer then none
      else n.pool.getServersTransfer.get? id :=
    TransferBase.get?_lastGetTransfer_push hpull _
  have hlast : ∀ id, (n.transfers.pushDbAllUser n.pool.getServersTransfer
      fun dt => dt.restrict accept).lastUpdateTransfer.get? id =
      if id ∈ n.transfers.forceUpdateTransfer then none
      else (((n.updateTransfer accept).get? id).map fun dt =>
        (n.transfers.lastUpdateTransfer.get? id).getD 0 + dt).or
          (n.transfers.lastUpdateTransfer.get? id) :=
    TransferBase.get?_lastUpdateTransfer_push hpull fun dt => dt.restrict accept
  -- what is billed after the round to a port that was not stopped
  have hbilled : ∀ id ∉ n.transfers.forceUpdateTransfer, ∀ dt,
      (n.updateTransfer accept).get? id = some dt →
      (n.transfers.lastUpdateTransfer.get? id).getD 0 + dt = n.pool.transferOf id := by
    intro id hid dt hdt
    rw [(updateTransfer_of_not_mem hid hdt).1]
    exact add_sub_cancel _ _
  have hle : ∀ id, ((n.transfers.pushDbAllUser n.pool.getServersTransfer
      fun dt => dt.restrict accept).lastUpdateTransfer.get? id).getD 0 ≤ n.pool.transferOf id := by
    intro id
    rw [hlast]
    split_ifs with hid
    · exact n.pool.transferOf_nonneg id
    · cases hdt : (n.updateTransfer accept).get? id with
      | none => exact hn.billed_le id hid
      | some dt => exact (hbilled id hid dt hdt).le
  have hpos : ∀ id billed, (n.transfers.pushDbAllUser n.pool.getServersTransfer
      fun dt => dt.restrict accept).lastUpdateTransfer.get? id = some billed →
      0 < billed.1 + billed.2 := by
    intro id billed h
    rw [hlast] at h
    split_ifs at h with hid
    cases hdt : (n.updateTransfer accept).get? id with
    | none =>
      rw [hdt] at h
      exact hn.billed_pos id billed h
    | some dt =>
      rw [hdt] at h
      cases h
      have hdtpos := (updateTransfer_of_not_mem hid hdt).2
      cases hl : n.transfers.lastUpdateTransfer.get? id with
      | none => simpa using hdtpos
      | some last =>
        have hlpos := hn.billed_pos id last hl
        simp only [Option.getD_some, Prod.fst_add, Prod.snd_add]
        omega
  refine ⟨fun id => ?_, fun id _ => hle id, fun id hid => ?_, hpos, hn.paired, fun _ id _ hc => ?_,
    fun _ port hport => ?_⟩
  · have hconserved := hn.conserved id
    rw [pending_of_not_mem (by simp [hforce])]
    dsimp only
    rw [hlast]
    by_cases hid : id ∈ n.transfers.forceUpdateTransfer
    · rw [pending_of_mem hid] at hconserved
      rw [if_pos hid, Option.getD_none, sub_zero, hkept.updateTransfer_of_mem hid, add_assoc]
      exact hconserved
    · rw [pending_of_not_mem hid] at hconserved
      rw [if_neg hid, ← hconserved]
      cases hdt : (n.updateTransfer accept).get? id with
      | none => simp
      | some dt =>
        rw [Option.map_some, Option.some_or, Option.getD_some, Option.getD_some,
          hbilled id hid dt hdt, ← hbilled id hid dt hdt]
        abel
  · rw [hforce] at hid
    cases hid
  · -- a port that was billed has bytes, so the round has seen it
    obtain ⟨billed, hbilled'⟩ := Dict.contains_eq_true.1 hc
    have hid : id ∉ n.transfers.forceUpdateTransfer := fun hid => by
      rw [hlast, if_pos hid] at hbilled'
      cases hbilled'
    rw [hget, if_neg hid, ← ServerPool.getD_getServersTransfer]
    cases hcurr : n.pool.getServersTransfer.get? id with
    | some curr => rfl
    | none =>
      have hbpos := hpos id billed hbilled'
      have hble := hle id
      rw [hbilled', ← ServerPool.getD_getServersTransfer, hcurr] at hble
      have h₁ : billed.1 ≤ 0 := hble.1
      have h₂ : billed.2 ≤ 0 := hble.2
      omega
  · rw [hforce] at hport
    cases hport

/-! ## The other events -/

/-- What the next round offers for a port that is stopped, and what is left of its bytes. -/
theorem Valid.forcedIncrement_stop (hn : n.Valid) {port : ℕ} (hquiet : n.quiet = true)
    (hkept : n.Kept (.stop port)) (hport : port ∉ n.transfers.forceUpdateTransfer) :
    (n.transfers.forcedIncrement port).getD 0 + (n.pool.cbDelServer port).transferOf port =
        n.pool.transferOf port - (n.transfers.lastUpdateTransfer.get? port).getD 0 ∧
      0 ≤ (n.transfers.forcedIncrement port).getD 0 := by
  have htransfer := ServerPool.transferOf_cbDelServer hn.paired port port
  have hrelays := hkept.2 hport
  cases hlast : n.transfers.lastUpdateTransfer.get? port with
  | none =>
    have hinc : n.transfers.forcedIncrement port = none := by
      rw [TransferBase.forcedIncrement, hlast]
      cases n.transfers.lastGetTransfer.get? port <;> rfl
    rw [if_neg (by rw [Dict.contains, hlast]; simp)] at hrelays
    rw [hrelays, add_zero] at htransfer
    rw [hinc, htransfer, Option.getD_none, zero_add, sub_zero]
    exact ⟨rfl, le_rfl⟩
  | some last =>
    have hcontains : n.transfers.lastUpdateTransfer.contains port = true := by
      rw [Dict.contains, hlast]
      rfl
    have hinc : n.transfers.forcedIncrement port = some (n.pool.transferOf port - last) := by
      rw [TransferBase.forcedIncrement, hn.seen hquiet port hport hcontains, hlast]
    have hle := hn.billed_le port hport
    rw [hlast] at hle
    rw [if_pos hcontains] at hrelays
    rw [hrelays] at htransfer
    rw [hinc, add_eq_right.1 htransfer, add_zero]
    exact ⟨rfl, sub_nonneg.2 hle⟩

theorem Valid.stop (hn : n.Valid) {port : ℕ} (hquiet : n.quiet = true)
    (hkept : n.Kept (.stop port)) (h : n.step (.stop port) = some n') : n'.Valid := by
  rw [step] at h
  split_ifs at h with hrun
  cases h
  have htransfer := fun id => ServerPool.transferOf_cbDelServer hn.paired port id
  have hmem : ∀ id, id ∈ n.transfers.forceUpdateTransfer.insert port ↔
      id = port ∨ id ∈ n.transfers.forceUpdateTransfer := fun id => List.mem_insert_iff
  -- the relays on the port have bytes of no other port, and of their own only at its first stop
  have hsame : ∀ id, id ≠ port ∨ port ∈ n.transfers.forceUpdateTransfer →
      (n.pool.cbDelServer port).transferOf id = n.pool.transferOf id := by
    intro id hid
    have hzero : n.pool.relaysTransfer port id = 0 :=
      hid.elim (hkept.1 id) fun hport => hn.fresh hquiet port hport id
    rw [← htransfer id, hzero, add_zero]
  have hpending : ∀ id, Node.pending { n with
      pool := n.pool.cbDelServer port
      transfers := { n.transfers with
        forceUpdateTransfer := n.transfers.forceUpdateTransfer.insert port } } id = n.pending id := by
    intro id
    by_cases hid : id ∈ n.transfers.forceUpdateTransfer
    · rw [pending_of_mem ((hmem id).2 (.inr hid)), pending_of_mem hid, ← hsame id ?_]
      · rfl
      · by_cases hport : id = port
        · exact .inr (hport ▸ hid)
        · exact .inl hport
    · rw [pending_of_not_mem hid]
      by_cases hport : id = port
      · subst hport
        rw [pending_of_mem ((hmem id).2 (.inl rfl))]
        exact (hn.forcedIncrement_stop hquiet hkept hid).1
      · rw [pending_of_not_mem fun h => ((hmem id).1 h).elim hport hid, ← hsame id (.inl hport)]
  refine ⟨fun id => ?_, fun id hid => ?_, fun id hid dt hdt => ?_, hn.billed_pos,
    hn.paired.cbDelServer port, fun _ id hid hc => ?_, fun _ port' hport id => ?_⟩
  · rw [hpending]
    exact hn.conserved id
  · have hid' := fun h => hid ((hmem id).2 h)
    refine (hn.billed_le id fun h => hid' (.inr h)).trans (le_of_eq ?_)
    exact (hsame id (.inl fun h => hid' (.inl h))).symm
  · by_cases hid' : id ∈ n.transfers.forceUpdateTransfer
    · exact hn.forced_nonneg id hid' dt hdt
    · obtain rfl := ((hmem id).1 hid).resolve_right hid'
      have hnonneg := (hn.forcedIncrement_stop hquiet hkept hid').2
      have hdt' : n.transfers.forcedIncrement id = some dt := hdt
      rwa [hdt'] at hnonneg
  · have hid' := fun h => hid ((hmem id).2 h)
    refine (hn.seen hquiet id (fun h => hid' (.inr h)) hc).trans (congrArg some ?_)
    exact (hsame id (.inl fun h => hid' (.inl h))).symm
  · rw [ServerPool.relaysTransfer_cbDelServer hn.paired]
    split_ifs with hport'
    · rfl
    · exact hn.fresh hquiet port' (((hmem port').1 hport).resolve_left hport') id

theorem Valid.start (hn : n.Valid) {slot : ServerPool.Slot} {port : ℕ}
    (h : n.step (.start slot port) = some n') : n'.Valid := by
  rw [step] at h
  split_ifs at h with hstart
  cases h
  have hsame := fun id => ServerPool.transferOf_start hstart id
  have hpending : ∀ id, Node.pending { n with pool := n.pool.setRelay slot port {} } id =
      n.pending id := by
    intro id
    rw [pending_pool n _ n.quiet n.counted, hsame id, sub_self, add_zero]
  refine ⟨fun id => ?_, fun id hid => ?_, hn.forced_nonneg, hn.billed_pos, hn.paired.start hstart,
    fun hquiet id hid hc => ?_, fun hquiet port' hport id => ?_⟩
  · rw [hpending]
    exact hn.conserved id
  · rw [hsame id]
    exact hn.billed_le id hid
  · rw [hsame id]
    exact hn.seen hquiet id hid hc
  · rw [ServerPool.relaysTransfer_start hstart]
    exact hn.fresh hquiet port' hport id

theorem Valid.traffic (hn : n.Valid) {slot : ServerPool.Slot} {port : ℕ} {c : Counters}
    (hgrows : n.Allowed (.traffic slot port c)) (h : n.step (.traffic slot port c) = some n') :
    n'.Valid := by
  rw [step] at h
  split_ifs at h with hcontains
  cases h
  have hle : ∀ id, n.pool.transferOf id ≤ (n.pool.setRelay slot port c).transferOf id := by
    intro id
    obtain ⟨before, hbefore⟩ := Dict.contains_eq_true.1 hcontains
    have hset := ServerPool.transferOf_setRelay n.pool slot port c id
    rw [ServerPool.relayTransfer, hbefore, Option.elim_some] at hset
    have hc := (hgrows before hbefore).transferFor_le id port
    rw [← add_le_add_iff_right (Counters.transferFor id port before), hset]
    exact add_le_add_right hc _
  refine ⟨fun id => ?_, fun id hid => (hn.billed_le id hid).trans (hle id), hn.forced_nonneg,
    hn.billed_pos, hn.paired.setRelay hcontains, fun hquiet => ?_, fun hquiet => ?_⟩
  · dsimp only
    rw [pending_pool n, ← add_assoc, hn.conserved id]
  · cases hquiet
  · cases hquiet

/-- What an event does. -/
theorem valid_step (hn : n.Valid) {e : Event} (hallowed : n.Allowed e) (hkept : n.Kept e)
    (h : n.step e = some n') : n'.Valid := by
  cases e with
  | pull =>
    cases h
    exact ⟨hn.conserved, hn.billed_le, hn.forced_nonneg, hn.billed_pos, hn.paired, hn.seen, hn.fresh⟩
  | push accept =>
    by_cases hpull : n.transfers.pullOk = true
    · exact hn.push hpull hkept h
    · rw [step, if_neg hpull] at h
      cases h
      exact hn
  | stop port => exact hn.stop hallowed hkept h
  | start slot port => exact hn.start h
  | muPorts ports =>
    cases h
    exact ⟨hn.conserved, hn.billed_le, hn.forced_nonneg, hn.billed_pos, hn.paired, hn.seen, hn.fresh⟩
  | traffic slot port c => exact hn.traffic hallowed h

/-- Nothing is billed twice and nothing is lost, in all states of a run in which counters only grow
    and relays are stopped only after a round, when every round and every stop is of the right
    kind. -/
theorem billedOnce_of_kept {es : List Event} {n : Node} (h : Run.exec step {} es = some n)
    (hallowed : Run.Throughout step Allowed {} es) (hkept : Run.Throughout step Kept {} es) :
    n.BilledOnce :=
  (Run.exec_invariant (P := Valid) (fun hn hgood hs => valid_step hn hgood.1 hgood.2 hs) valid_new
    (hallowed.and hkept) h).billedOnce

/-- A relay on a port counts 100 bytes, a round bills them or not, and the port is stopped. -/
def oneStop (accept : ℕ → Bool) : List Event :=
  [.pull, .start .tcp 443, .traffic .tcp 443 { serverTransferUl := 100 }, .push accept, .stop 443]

theorem allowed_oneStop (accept : ℕ → Bool) : Run.Throughout step Allowed {} (oneStop accept) := by
  refine .cons trivial fun n₁ h₁ => ?_
  cases h₁
  refine .cons trivial fun n₂ h₂ => ?_
  cases h₂
  refine .cons (fun before hbefore => ?_) fun n₃ h₃ => ?_
  · cases hbefore
    exact ⟨⟨by decide, le_rfl⟩, fun _ => le_rfl⟩
  cases h₃
  refine .cons trivial fun n₄ h₄ => ?_
  cases h₄
  exact .cons rfl fun _ _ => Run.throughout_nil _

theorem billedOnce_of_kept_oneStop :
    ∃ n, Run.exec step {} (oneStop fun _ => true) = some n ∧ n.BilledOnce := by
  have hkept : Run.Throughout step Kept {} (oneStop fun _ => true) := by
    refine .cons trivial fun n₁ h₁ => ?_
    cases h₁
    refine .cons trivial fun n₂ h₂ => ?_
    cases h₂
    refine .cons trivial fun n₃ h₃ => ?_
    cases h₃
    refine .cons (fun id hid => by cases hid) fun n₄ h₄ => ?_
    cases h₄
    refine .cons ⟨fun id hid => ?_, fun _ => by decide +kernel⟩ fun _ _ => Run.throughout_nil _
    have hown : Counters.transferFor id 443 { serverTransferUl := 100 } = 0 := by
      rw [Counters.transferFor, if_neg (Ne.symm hid)]
      rfl
    exact congrArg (· + 0 + 0 + 0) hown
  exact ⟨_, rfl, billedOnce_of_kept rfl (allowed_oneStop _) hkept⟩

/-- The round puts the bytes off, and the port is stopped before any were billed: they are lost. -/
theorem not_billedOnce : ¬∀ (es : List Event) (n : Node), Run.exec step {} es = some n →
    Run.Throughout step Allowed {} es → n.BilledOnce := by
  intro h
  have hrun := (h (oneStop fun _ => false) _ rfl (allowed_oneStop _) 443).2
  exact absurd hrun (by decide +kernel)

end Node

end ShadowsocksR

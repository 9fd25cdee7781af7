import ShadowsocksR.DbServers.Pool
import ShadowsocksR.Lib.Pointwise
import ShadowsocksR.ServerPool

/-!
# A round of the servers

`del_server_out_of_bound_safe` goes through the rows of the users, which have distinct ports, and
decides for each whether its servers are started, stopped or left as they are. Then it stops those
of the rows of the round before that are gone, starts again what it has stopped because of other
values, and gives the users to the ports with many users.

* `processRow`, `stopMissing`, `delServerOutOfBoundSafe`: the loops;
* `View`: all that a round has for one port;
* `actsAt_processRow`, `actsAt_stopMissing`: a row acts on its port only;
* `round_spec`: what a round that returns makes of the servers of a port.
-/

namespace ShadowsocksR

namespace DbServers

open Pointwise

/-! ## The loops -/

/-- The fields of `TransferBase` that a round uses, and the pools. -/
structure Node where
  pool : Pool := {}
  forceUpdateTransfer : List ℤ := []
  lastGetTransfer : Dict ℤ Transfer := .empty
  lastUpdateTransfer : Dict ℤ Transfer := .empty
  portUidTable : Dict ℤ ℤ := .empty
  muPorts : Dict ℤ Text := .empty

/-- The variables of `del_server_out_of_bound_safe`. The passwords in `new_servers`, which are only
    logged, are those of the configurations. -/
structure Round where
  node : Node
  curServers : Dict ℤ Text := .empty
  newServers : Dict ℤ Config := .empty
  allowUsers : Dict ℤ Config := .empty
  muServers : Dict ℤ Text := .empty

/-- What is to be done about the servers of a row. -/
inductive Action
  | keep
  | start
  | stop
  | restart

def action (k : Setup) (row : Row) (mu cfgchange : Bool) (s : Slot) : Action :=
  if mu then
    if s.isRun then
      if cfgchange then .restart else .keep
    else .start
  else if s.isRun then
    if k.additionalPortsOnly || !row.allow then .stop
    else if cfgchange then .restart
    else .keep
  else if !k.additionalPortsOnly && row.allow && decide (0 < row.port) &&
      decide (row.port < 65536) && !s.runStatus then .start
  else .keep

namespace Round

/-- The row is put into the tables of the round. -/
def enter (row : Row) (mu : Bool) (st : Round) : Round :=
  { st with
    curServers := st.curServers.set row.port row.passwd
    muServers := if mu then st.muServers.set row.port row.passwd else st.muServers
    allowUsers := if !mu && row.allow then st.allowUsers.set row.port row.cfg else st.allowUsers }

def setPool (pool : Pool) (st : Round) : Round := { st with node := { st.node with pool } }

/-- The servers are stopped, and the port is put into `force_update_transfer`. -/
def stop (port : ℤ) (st : Round) : Round :=
  { st with node := { st.node with
    pool := st.node.pool.cbDelServer port
    forceUpdateTransfer := st.node.forceUpdateTransfer.insert port } }

def act (k : Setup) (port : ℤ) (cfg : Config) (st : Round) : Action → Round
  | .keep => st
  | .start => st.setPool (st.node.pool.newServer k port cfg)
  | .stop => st.stop port
  | .restart => { st.stop port with newServers := st.newServers.set port cfg }

/-- `self.port_uid_table[row['port']] = row['id']` -/
def setUid (row : Row) (st : Round) : Round :=
  match row.id with
  | some id =>
    { st with node := { st.node with portUidTable := st.node.portUidTable.set row.port id } }
  | none => st

end Round

/-- `cfgchange`, when `allow` is set. Else nothing looks at what an earlier row has left in it. -/
def Row.cfgchange (row : Row) (mu : Bool) (s : Slot) : Except PyExc Bool :=
  if mu || row.allow then s.cfgchange row.cfg else .ok false

/-- The body of the loop over the rows. A port is in `mu_servers` if its own row puts it there. -/
def processRow (k : Setup) (st : Round) (row : Row) : Except PyExc Round :=
  let st := st.setUid row
  -- More than one user uses the port: the row is skipped.
  if st.curServers.contains row.port then .ok st
  else do
    let mu ← row.isMu
    let s := st.node.pool.slot row.port
    let cfgchange ← row.cfgchange mu s
    pure ((st.enter row mu).act k row.port row.cfg (action k row mu cfgchange s))

/-- `clear_cache`: a `set` has no items to delete. -/
def Node.clearCache (node : Node) (port : ℤ) : Except PyExc Node :=
  if port ∈ node.forceUpdateTransfer then .error .typeError
  else .ok { node with
    lastGetTransfer := node.lastGetTransfer.del port
    lastUpdateTransfer := node.lastUpdateTransfer.del port }

/-- The body of the loop over the rows of the round before. -/
def stopMissing (curServers : Dict ℤ Text) (node : Node) (row : Row) : Except PyExc Node :=
  if curServers.contains row.port then .ok node
  else do
    let node ← { node with pool := node.pool.cbDelServer row.port }.clearCache row.port
    pure { node with portUidTable := node.portUidTable.del row.port }

def delServerOutOfBoundSafe (k : Setup) (node : Node) (lastRows rows : List Row) :
    Except PyExc Node := do
  let st ← rows.foldlM (processRow k) { node }
  let node ← lastRows.foldlM (stopMissing st.curServers) st.node
  let pool := st.newServers.entries.foldl (fun pool e => pool.newServer k e.1 e.2) node.pool
  pure { node with
    pool := st.muServers.keys.foldl (Pool.updateMuUsers st.allowUsers) pool
    muPorts := st.muServers }

/-! ## One port -/

/-- All that a round has for a port. -/
@[ext] structure View where
  slot : Slot
  forced : Bool
  seen : Bool := false
  mu : Bool := false
  allowed : Option Config := none
  new : Option Config := none

namespace View

def enter (row : Row) (mu : Bool) (v : View) : View :=
  { v with
    seen := true
    mu := mu || v.mu
    allowed := if !mu && row.allow then some row.cfg else v.allowed }

def act (k : Setup) (cfg : Config) (v : View) : Action → View
  | .keep => v
  | .start => { v with slot := v.slot.start k cfg }
  | .stop => { v with slot := v.slot.stop, forced := true }
  | .restart => { v with slot := v.slot.stop, forced := true, new := some cfg }

@[simp] theorem allowed_act (k : Setup) (cfg : Config) (v : View) (a : Action) :
    (v.act k cfg a).allowed = v.allowed := by cases a <;> rfl

@[simp] theorem mu_act (k : Setup) (cfg : Config) (v : View) (a : Action) :
    (v.act k cfg a).mu = v.mu := by cases a <;> rfl

@[simp] theorem seen_act (k : Setup) (cfg : Config) (v : View) (a : Action) :
    (v.act k cfg a).seen = v.seen := by cases a <;> rfl

/-- What its row does to a port. -/
def row (k : Setup) (row : Row) (v : View) : Except PyExc View :=
  if v.seen then .ok v
  else do
    let mu ← row.isMu
    let cfgchange ← row.cfgchange mu v.slot
    pure ((v.enter row mu).act k row.cfg (action k row mu cfgchange v.slot))

end View

namespace Round

def view (st : Round) (port : ℤ) : View where
  slot := st.node.pool.slot port
  forced := st.node.forceUpdateTransfer.contains port
  seen := st.curServers.contains port
  mu := st.muServers.contains port
  allowed := st.allowUsers.get? port
  new := st.newServers.get? port

@[simp] theorem view_setUid (row : Row) (st : Round) : (st.setUid row).view = st.view := by
  rw [setUid]
  split <;> rfl

theorem view_enter (row : Row) (mu : Bool) (st : Round) (port : ℤ) :
    (st.enter row mu).view port =
      if port = row.port then (st.view row.port).enter row mu else st.view port := by
  by_cases hp : port = row.port
  · subst hp
    rw [if_pos rfl]
    cases mu <;> cases hallow : row.allow <;> simp [enter, view, View.enter, hallow]
  · rw [if_neg hp]
    cases mu <;> cases hallow : row.allow <;>
      simp [enter, view, hallow, hp, Dict.get?_set_of_ne]

theorem view_act (k : Setup) (port port' : ℤ) (cfg : Config) (st : Round) (a : Action) :
    (st.act k port cfg a).view port' =
      if port' = port then (st.view port).act k cfg a else st.view port' := by
  by_cases hp : port' = port
  · subst hp
    rw [if_pos rfl]
    cases a <;>
      simp [act, view, View.act, setPool, stop, Pool.slot_newServer, Pool.slot_cbDelServer]
  · rw [if_neg hp]
    cases a <;> simp [act, view, setPool, stop, Pool.slot_newServer, Pool.slot_cbDelServer, hp,
      Dict.get?_set_of_ne]

end Round

/-- A row acts on its port, and on no other. -/
theorem actsAt_processRow (k : Setup) :
    ActsAt Round.view Row.port (View.row k) (processRow k) where
  own st row := by
    rw [← st.view_setUid row, processRow, View.row]
    generalize st.setUid row = st
    have hseen : (st.view row.port).seen = st.curServers.contains row.port := rfl
    rw [hseen]
    split_ifs
    · rfl
    · cases row.isMu with
      | error e => rfl
      | ok mu =>
        change Except.map _ (row.cfgchange mu (st.node.pool.slot row.port) >>= _) =
          row.cfgchange mu (st.node.pool.slot row.port) >>= _
        cases row.cfgchange mu (st.node.pool.slot row.port) with
        | error e => rfl
        | ok change =>
          refine congrArg Except.ok ?_
          dsimp only
          rw [Round.view_act, if_pos rfl, Round.view_enter, if_pos rfl]
          rfl
  frame {st row st'} port hs hp := by
    rw [← st.view_setUid row]
    rw [processRow] at hs
    generalize st.setUid row = st at hs
    split_ifs at hs with hmem
    · cases hs
      rfl
    · obtain ⟨mu, -, hs⟩ := bind_eq_ok.1 hs
      obtain ⟨change, -, hs⟩ := bind_eq_ok.1 hs
      cases hs
      rw [Round.view_act, if_neg hp, Round.view_enter, if_neg hp]

/-- What the last rows look at, at a port. -/
def Node.view (node : Node) (port : ℤ) : Slot × Bool :=
  (node.pool.slot port, node.forceUpdateTransfer.contains port)

/-- What a row of the round before does to its port. -/
def stopView (curServers : Dict ℤ Text) (row : Row) (v : Slot × Bool) :
    Except PyExc (Slot × Bool) :=
  if curServers.contains row.port then .ok v
  else if v.2 then .error .typeError
  else .ok (v.1.stop, false)

theorem stopView_eq_ok {curServers : Dict ℤ Text} {row : Row} {v v' : Slot × Bool} :
    stopView curServers row v = .ok v' ↔
      curServers.contains row.port = true ∧ v' = v ∨
        curServers.contains row.port = false ∧ v.2 = false ∧ v' = (v.1.stop, false) := by
  rw [stopView]
  cases curServers.contains row.port <;> cases v.2 <;> simp [eq_comm]

theorem actsAt_stopMissing (curServers : Dict ℤ Text) :
    ActsAt Node.view Row.port (stopView curServers) (stopMissing curServers) where
  own node row := by
    rw [stopMissing, stopView]
    split_ifs with hcur hforced
    · rfl
    · have hmem : row.port ∈ node.forceUpdateTransfer := List.contains_iff_mem.1 hforced
      rw [Node.clearCache, if_pos hmem]
      rfl
    · have hmem : row.port ∉ node.forceUpdateTransfer := fun h =>
        hforced (List.contains_iff_mem.2 h)
      rw [Node.clearCache, if_neg hmem]
      refine congrArg Except.ok (Prod.ext ?_ ?_)
      · exact (Pool.slot_cbDelServer _ _ _).trans (if_pos rfl)
      · exact Bool.eq_false_iff.2 hforced
  frame {node row node'} port hs hp := by
    rw [stopMissing] at hs
    split_ifs at hs with hcur
    · cases hs
      rfl
    · obtain ⟨node₁, hclear, hs⟩ := bind_eq_ok.1 hs
      rw [Node.clearCache] at hclear
      split_ifs at hclear with hmem
      cases hclear
      cases hs
      simp [Node.view, Pool.slot_cbDelServer, hp]

/-- Rows of the same port do the same. -/
theorem repeats_stopView (curServers : Dict ℤ Text) (row row' : Row) :
    Repeats Row.port (stopView curServers) row row' := by
  intro hport v v' hv
  rw [stopView_eq_ok, stopView_eq_ok, hport]
  rcases stopView_eq_ok.1 hv with ⟨hcur, rfl⟩ | ⟨hcur, hforced, rfl⟩
  · exact ⟨.inl ⟨hcur, rfl⟩, .inl ⟨hcur, rfl⟩⟩
  · exact ⟨.inr ⟨hcur, hforced, rfl⟩, .inr ⟨hcur, rfl, by rw [Slot.stop_stop]⟩⟩

/-- The loop over `new_servers`. -/
theorem slot_startAll (k : Setup) (newServers : Dict ℤ Config) (pool : Pool) (port : ℤ) :
    (newServers.entries.foldl (fun pool e => pool.newServer k e.1 e.2) pool).slot port =
      (newServers.get? port).elim (pool.slot port) fun cfg => (pool.slot port).start k cfg := by
  obtain ⟨hown, hframe⟩ := foldl_spec Pool.slot (fun e : ℤ × Config => e.1)
    (fun e s => s.start k e.2) (fun pool e => pool.newServer k e.1 e.2)
    (fun pool e => by rw [Pool.slot_newServer, if_pos rfl])
    (fun pool e port hp => by rw [Pool.slot_newServer, if_neg hp]) newServers.nodup pool
  cases hget : newServers.get? port with
  | none =>
    refine hframe port fun e he hp => ?_
    have he := Dict.mem_entries.1 he
    rw [hp, hget] at he
    cases he
  | some cfg => exact hown (port, cfg) (Dict.mem_entries.2 hget)

/-- The loop over `mu_servers`. -/
theorem slot_updateAll (allowUsers : Dict ℤ Config) (muServers : Dict ℤ Text) (pool : Pool)
    (port : ℤ) :
    (muServers.keys.foldl (Pool.updateMuUsers allowUsers) pool).slot port =
      if muServers.contains port then (pool.slot port).updateUsers allowUsers
      else pool.slot port := by
  obtain ⟨hown, hframe⟩ := foldl_spec Pool.slot (fun port : ℤ => port)
    (fun _ => Slot.updateUsers allowUsers) (Pool.updateMuUsers allowUsers)
    (fun pool port => by rw [Pool.slot_updateMuUsers, if_pos rfl])
    (fun pool port port' hp => by rw [Pool.slot_updateMuUsers, if_neg hp])
    (by rw [List.map_id']; exact muServers.nodup_keys) pool
  split_ifs with hmu
  · exact hown port (Dict.mem_keys.2 hmu)
  · refine hframe port fun port' hport' hp => hmu ?_
    rw [← hp]
    exact Dict.mem_keys.1 hport'

/-! ## The round -/

/-- What becomes of the servers of a port, before the users are given to them. -/
def Slot.after (k : Setup) (row : Row) (mu change : Bool) (s : Slot) : Slot :=
  match action k row mu change s with
  | .keep => s
  | .start => s.start k row.cfg
  | .stop => s.stop
  | .restart => s.stop.start k row.cfg

/-- The row is one of those in `allow_users`. -/
def Row.IsUser (row : Row) : Prop := row.isMu = .ok false ∧ row.allow = true

section

variable {k : Setup} {node node' : Node} {lastRows rows : List Row}

theorem View.row_eq_ok {row : Row} {s : Slot} {forced : Bool} {v : View} :
    View.row k row { slot := s, forced } = .ok v ↔ ∃ mu change, row.isMu = .ok mu ∧
      row.cfgchange mu s = .ok change ∧
      v = (View.enter row mu { slot := s, forced }).act k row.cfg (action k row mu change s) := by
  rw [View.row, if_neg Bool.false_ne_true, bind_eq_ok]
  refine exists_congr fun mu => ?_
  rw [bind_eq_ok]
  constructor
  · rintro ⟨hmu, change, hchange, hv⟩
    cases hv
    exact ⟨change, hmu, hchange, rfl⟩
  · rintro ⟨change, hmu, hchange, rfl⟩
    exact ⟨hmu, change, hchange, rfl⟩

/-- The servers of a port after the rows of the round before. -/
theorem slot_stopMissing {curServers : Dict ℤ Text}
    (h : lastRows.foldlM (stopMissing curServers) node = .ok node') (port : ℤ) :
    node'.pool.slot port =
      if curServers.contains port = false ∧ ∃ row ∈ lastRows, row.port = port
      then (node.pool.slot port).stop else node.pool.slot port := by
  have hacts := actsAt_stopMissing curServers
  -- The rows may have a port more than once, but stopping it again does nothing.
  by_cases hport : ∃ row ∈ lastRows, row.port = port
  · obtain ⟨row, hrow, rfl⟩ := hport
    have hown := hacts.run_own (List.pairwise_of_forall (repeats_stopView curServers)) h row hrow
    rcases stopView_eq_ok.1 hown with ⟨hcur, hv⟩ | ⟨hcur, -, hv⟩
    · rw [if_neg (by simp [hcur])]
      exact congrArg Prod.fst hv
    · rw [if_pos ⟨hcur, row, hrow, rfl⟩]
      exact congrArg Prod.fst hv
  · rw [if_neg fun h => hport h.2]
    push Not at hport
    exact congrArg Prod.fst (hacts.run_frame hport h)

/-- What the first loop leaves for a port, with its row and without. -/
theorem view_processRows (hnodup : (rows.map Row.port).Nodup) {st : Round}
    (h : rows.foldlM (processRow k) { node } = .ok st) :
    (∀ row ∈ rows, ∃ mu change, row.isMu = .ok mu ∧
      row.cfgchange mu (node.pool.slot row.port) = .ok change ∧
      st.view row.port = (View.enter row mu (({ node } : Round).view row.port)).act k row.cfg
        (action k row mu change (node.pool.slot row.port))) ∧
    ∀ port, (∀ row ∈ rows, row.port ≠ port) → st.view port = ({ node } : Round).view port := by
  refine ⟨fun row hrow => ?_, fun port hport => (actsAt_processRow k).run_frame hport h⟩
  exact View.row_eq_ok.1 ((actsAt_processRow k).run_own (pairwise_repeats _ hnodup) h row hrow)

theorem contains_curServers (hnodup : (rows.map Row.port).Nodup) {st : Round}
    (h : rows.foldlM (processRow k) { node } = .ok st) (port : ℤ) :
    st.curServers.contains port = true ↔ ∃ row ∈ rows, row.port = port := by
  obtain ⟨hown, hframe⟩ := view_processRows hnodup h
  by_cases hport : ∃ row ∈ rows, row.port = port
  · refine iff_of_true ?_ hport
    obtain ⟨row, hrow, rfl⟩ := hport
    obtain ⟨mu, change, -, -, hview⟩ := hown row hrow
    exact (congrArg View.seen hview).trans (View.seen_act _ _ _ _)
  · refine iff_of_false ?_ hport
    push Not at hport
    exact Bool.eq_false_iff.1 (congrArg View.seen (hframe port hport))

/-- What a round makes of the servers of a port. -/
theorem round_spec (hnodup : (rows.map Row.port).Nodup)
    (h : delServerOutOfBoundSafe k node lastRows rows = .ok node') :
    ∃ allowUsers : Dict ℤ Config,
      (∀ port cfg, allowUsers.get? port = some cfg ↔
        ∃ row ∈ rows, row.port = port ∧ row.IsUser ∧ row.cfg = cfg) ∧
      (∀ row ∈ rows, ∃ mu change, row.isMu = .ok mu ∧
        row.cfgchange mu (node.pool.slot row.port) = .ok change ∧
        node'.pool.slot row.port =
          if mu then ((node.pool.slot row.port).after k row mu change).updateUsers allowUsers
          else (node.pool.slot row.port).after k row mu change) ∧
      ∀ port, (∀ row ∈ rows, row.port ≠ port) → node'.pool.slot port =
        if ∃ row ∈ lastRows, row.port = port then (node.pool.slot port).stop
        else node.pool.slot port := by
  obtain ⟨st, hst, h⟩ := bind_eq_ok.1 h
  obtain ⟨node₁, hnode₁, h⟩ := bind_eq_ok.1 h
  cases h
  obtain ⟨hown, hframe⟩ := view_processRows hnodup hst
  have hcur := contains_curServers hnodup hst
  have hlast := slot_stopMissing hnode₁
  refine ⟨st.allowUsers, fun port cfg => ?_, fun row hrow => ?_, fun port hport => ?_⟩
  · by_cases hport : ∃ row ∈ rows, row.port = port
    · -- The row of the port is the only one, so it alone decides.
      obtain ⟨row, hrow, rfl⟩ := hport
      obtain ⟨mu, change, hmu, -, hview⟩ := hown row hrow
      have hget : st.allowUsers.get? row.port =
          if !mu && row.allow then some row.cfg else none :=
        (congrArg View.allowed hview).trans (View.allowed_act _ _ _ _)
      have huser : row.IsUser ↔ (!mu && row.allow) = true := by
        rw [Row.IsUser, hmu, Except.ok.injEq, Bool.and_eq_true, Bool.not_eq_true']
      rw [hget]
      constructor
      · intro hcfg
        split_ifs at hcfg with hallow
        exact ⟨row, hrow, rfl, huser.2 hallow, Option.some.inj hcfg⟩
      · rintro ⟨row', hrow', hport, huser', rfl⟩
        cases List.inj_on_of_nodup_map hnodup hrow' hrow hport
        rw [if_pos (huser.1 huser')]
    · push Not at hport
      have hnone : st.allowUsers.get? port = none := congrArg View.allowed (hframe port hport)
      rw [hnone]
      exact iff_of_false (by simp) fun ⟨row, hrow, hrow', _⟩ => hport row hrow hrow'
  · obtain ⟨mu, change, hmu, hchange, hview⟩ := hown row hrow
    have hmem : st.curServers.contains row.port = true := (hcur row.port).2 ⟨row, hrow, rfl⟩
    have hslot : node₁.pool.slot row.port = (st.view row.port).slot :=
      (hlast row.port).trans (if_neg fun h => by rw [hmem] at h; cases h.1)
    have hcontains : st.muServers.contains row.port = mu :=
      (congrArg View.mu hview).trans ((View.mu_act _ _ _ _).trans (Bool.or_false _))
    have hafter : ((st.view row.port).new.elim (st.view row.port).slot fun cfg =>
        (st.view row.port).slot.start k cfg) = (node.pool.slot row.port).after k row mu change := by
      rw [hview, Slot.after]
      cases action k row mu change (node.pool.slot row.port) <;> rfl
    refine ⟨mu, change, hmu, hchange, ?_⟩
    dsimp only
    rw [slot_updateAll, slot_startAll, hcontains, hslot, ← hafter]
    rfl
  · have hnone : st.newServers.get? port = none := congrArg View.new (hframe port hport)
    have hmu : st.muServers.contains port = false := congrArg View.mu (hframe port hport)
    have hslot : st.node.pool.slot port = node.pool.slot port :=
      congrArg View.slot (hframe port hport)
    have hcur : st.curServers.contains port = false := congrArg View.seen (hframe port hport)
    dsimp only
    rw [slot_updateAll, if_neg (by rw [hmu]; exact Bool.false_ne_true), slot_startAll, hnone,
      Option.elim_none, hlast, hslot]
    simp only [hcur, true_and]

/-- A round returns if no row raises, and no row of the round before that is gone has its port in
    `force_update_transfer`. -/
theorem returns_iff (hnodup : (rows.map Row.port).Nodup) :
    (∃ node', delServerOutOfBoundSafe k node lastRows rows = .ok node') ↔
      (∀ row ∈ rows, ∃ mu change, row.isMu = .ok mu ∧
        row.cfgchange mu (node.pool.slot row.port) = .ok change) ∧
      ∀ row ∈ lastRows, row.port ∈ node.forceUpdateTransfer →
        ∃ row' ∈ rows, row'.port = row.port := by
  have hloop : (∃ st, rows.foldlM (processRow k) ({ node } : Round) = .ok st) ↔
      ∀ row ∈ rows, ∃ mu change, row.isMu = .ok mu ∧
        row.cfgchange mu (node.pool.slot row.port) = .ok change := by
    refine ((actsAt_processRow k).run_ok_iff (pairwise_repeats _ hnodup)).trans
      (forall₂_congr fun row _ => ⟨fun ⟨v, hv⟩ => ?_, fun ⟨mu, change, hmu, hchange⟩ => ?_⟩)
    · obtain ⟨mu, change, hmu, hchange, -⟩ := View.row_eq_ok.1 hv
      exact ⟨mu, change, hmu, hchange⟩
    · exact ⟨_, View.row_eq_ok.2 ⟨mu, change, hmu, hchange, rfl⟩⟩
  have hlast : ∀ st, rows.foldlM (processRow k) ({ node } : Round) = .ok st →
      ((∃ node₁, lastRows.foldlM (stopMissing st.curServers) st.node = .ok node₁) ↔
        ∀ row ∈ lastRows, row.port ∈ node.forceUpdateTransfer →
          ∃ row' ∈ rows, row'.port = row.port) := by
    intro st hst
    have hcur := contains_curServers hnodup hst
    refine ((actsAt_stopMissing st.curServers).run_ok_iff
      (List.pairwise_of_forall (repeats_stopView st.curServers))).trans
        (forall₂_congr fun row _ => ?_)
    rw [← hcur row.port]
    cases hmem : st.curServers.contains row.port with
    | true => exact iff_of_true ⟨_, stopView_eq_ok.2 (.inl ⟨hmem, rfl⟩)⟩ fun _ => rfl
    | false =>
      have hport : ∀ row' ∈ rows, row'.port ≠ row.port := fun row' hrow' heq => by
        rw [(hcur row.port).2 ⟨row', hrow', heq⟩] at hmem
        cases hmem
      have hforced : (st.node.view row.port).2 = node.forceUpdateTransfer.contains row.port :=
        congrArg View.forced ((view_processRows hnodup hst).2 row.port hport)
      have hok : (∃ v, stopView st.curServers row (st.node.view row.port) = .ok v) ↔
          (st.node.view row.port).2 = false := by
        simp [stopView_eq_ok, hmem]
      rw [hok, hforced, ← Bool.not_eq_true, List.contains_iff_mem]
      simp
  constructor
  · rintro ⟨node', h⟩
    obtain ⟨st, hst, h⟩ := bind_eq_ok.1 h
    obtain ⟨node₁, hnode₁, -⟩ := bind_eq_ok.1 h
    exact ⟨hloop.1 ⟨st, hst⟩, (hlast st hst).1 ⟨node₁, hnode₁⟩⟩
  · rintro ⟨hrows, hforced⟩
    obtain ⟨st, hst⟩ := hloop.2 hrows
    obtain ⟨node₁, hnode₁⟩ := (hlast st hst).2 hforced
    exact ⟨_, bind_eq_ok.2 ⟨st, hst, bind_eq_ok.2 ⟨node₁, hnode₁, rfl⟩⟩⟩

end

end DbServers

end ShadowsocksR

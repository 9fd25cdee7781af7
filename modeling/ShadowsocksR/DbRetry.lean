import ShadowsocksR.DbTransfer

/-!
# Updates that fail

A node whose servers are not restarted bills the bytes of its ports in rounds: `push_db_all_user`
offers the increments to `update_all_user`, which puts off small ones and sends the others to the
database in one `UPDATE`. What is returned as written is added to `last_update_transfer`, and so is
not offered again.

* `DbTransfer.update`, `Dbv3Transfer.update`: `update_all_user` with the table it updates;
* `DbNode.step`: the events of a node;
* `DbNode.Billed`: the table has what is in `last_update_transfer`, which is at most what was
  counted;
* `retried_iff`: `Dbv3Transfer` bills what it could not write when an `UPDATE` raises, and all
  tables stay as they should be if this does not happen.
-/

namespace ShadowsocksR

/-! ## Updates -/

/-- `u` and `d` in the row of a port of the table `user`. -/
abbrev UserTable : Type := ℕ → Option Transfer

/-- `UPDATE user`, with these increments. -/
def UserTable.update (table : UserTable) (updateTransfer : Dict ℕ Transfer) : UserTable :=
  fun port => (table port).map (· + (updateTransfer.get? port).getD 0)

/-- What becomes of the connection to the database, and of the `UPDATE`. -/
inductive Query
  | succeeds
  /-- The `UPDATE` raises. -/
  | raises
  | connectRaises
  deriving DecidableEq

/-- What `update_all_user` returns, unless it raises, and what it leaves. -/
structure Updated where
  updateTransfer : Option (Dict ℕ Transfer)
  userPass : Dict ℕ ℕ
  table : UserTable

/-- `update_all_user` of `DbTransfer`, which connects when there is something to write. -/
def DbTransfer.update (forceUpdateTransfer : List ℕ) (userPass : Dict ℕ ℕ) (table : UserTable)
    (q : Query) (dtTransfer : Dict ℕ Transfer) : Updated :=
  let (updateTransfer, userPass) :=
    select forceUpdateTransfer dtTransfer.entries (.empty, userPass)
  if updateTransfer.entries = [] then ⟨some updateTransfer, userPass, table⟩
  else
    match q with
    | .connectRaises => ⟨none, userPass, table⟩
    | .raises => ⟨some .empty, userPass, table⟩
    | .succeeds => ⟨some updateTransfer, userPass, table.update updateTransfer⟩

/-- `update_all_user` of `Dbv3Transfer`, which connects first. -/
def Dbv3Transfer.update (userPass : Dict ℕ ℕ) (table : UserTable) (q : Query)
    (dtTransfer : Dict ℕ Transfer) : Updated :=
  match q with
  | .connectRaises => ⟨none, userPass, table⟩
  | _ =>
    let (updateTransfer, userPass) := DbTransfer.select [] dtTransfer.entries (.empty, userPass)
    let table :=
      if updateTransfer.entries = [] then table
      else
        match q with
        | .succeeds => table.update updateTransfer
        -- The exception is logged.
        | _ => table
    ⟨some updateTransfer, userPass, table⟩

/-- The classes that bill a database of this kind. -/
inductive DbClass
  | dbTransfer
  | dbv3Transfer
  deriving DecidableEq

/-- `update_all_user` -/
def DbClass.update (k : DbClass) (forceUpdateTransfer : List ℕ) (userPass : Dict ℕ ℕ)
    (table : UserTable) (q : Query) (dtTransfer : Dict ℕ Transfer) : Updated :=
  match k with
  | .dbTransfer => DbTransfer.update forceUpdateTransfer userPass table q dtTransfer
  | .dbv3Transfer => Dbv3Transfer.update userPass table q dtTransfer

/-! ## Nodes -/

/-- A node: its counters, its tables and the database. -/
structure DbNode where
  transfers : TransferBase := {}
  /-- How often the increments of a port were put off. -/
  userPass : Dict ℕ ℕ := .empty
  /-- `get_servers_transfer` -/
  currTransfer : Dict ℕ Transfer := .empty
  table : UserTable

namespace DbNode

inductive Event
  /-- `pull_db_all_user` has returned users. -/
  | pull
  /-- The ports with many users are set. -/
  | muPorts (ports : List ℕ)
  /-- A port has counted so many bytes. -/
  | traffic (port u d : ℕ)
  /-- `push_db_all_user` -/
  | push (q : Query)

/-- `push_db_all_user`; an exception of `update_all_user` leaves it. -/
def push (k : DbClass) (q : Query) (n : DbNode) : DbNode :=
  if n.transfers.pullOk then
    let r := k.update n.transfers.forceUpdateTransfer n.userPass n.table q
      (n.transfers.dtTransfer n.currTransfer)
    let n := { n with userPass := r.userPass, table := r.table }
    match r.updateTransfer with
    | none => n
    | some updateTransfer =>
      { n with transfers := n.transfers.pushDbAllUser n.currTransfer fun _ => updateTransfer }
  else n

def step (k : DbClass) (n : DbNode) : Event → Option DbNode
  | .pull => some { n with transfers := { n.transfers with pullOk := true } }
  | .muPorts ports => some { n with transfers := { n.transfers with muPorts := ports } }
  | .traffic port u d => some { n with
      currTransfer := n.currTransfer.set port ((n.currTransfer.get? port).getD 0 + ((u : ℤ), (d : ℤ))) }
  | .push q => some (n.push k q)

/-- The bytes of a port that the node takes for billed. -/
def lastUpdate (n : DbNode) (port : ℕ) : Transfer := (n.transfers.lastUpdateTransfer.get? port).getD 0

/-- The bytes that it has counted. -/
def counter (n : DbNode) (port : ℕ) : Transfer := (n.currTransfer.get? port).getD 0

/-- What was added to the rows of the table is what the node takes for billed, and no more than it
    has counted. -/
structure Billed (table : UserTable) (n : DbNode) : Prop where
  added : ∀ port, n.table port = (table port).map (· + n.lastUpdate port)
  lastUpdate_le : ∀ port, n.lastUpdate port ≤ n.counter port

/-- What must hold after an event; when no `UPDATE` has succeeded, nothing is taken for billed. -/
def Retried (k : DbClass) (table : UserTable) (n : DbNode) (e : Event) : Prop :=
  ∀ n', n.step k e = some n' → n'.Billed table ∧
    ∀ q, e = .push q → q ≠ .succeeds →
      n'.transfers.lastUpdateTransfer = n.transfers.lastUpdateTransfer

/-- The bytes of every port that are not billed are too few to be written. -/
def Waits (n : DbNode) : Prop :=
  ∀ port ∉ n.transfers.muPorts, 0 < (n.counter port - n.lastUpdate port).1 +
      (n.counter port - n.lastUpdate port).2 →
    (n.counter port - n.lastUpdate port).1 + (n.counter port - n.lastUpdate port).2 <
      DbTransfer.updateTrs n.userPass port

/-- With `Dbv3Transfer`, no `UPDATE` raises. -/
def Sound (k : DbClass) (n : DbNode) (e : Event) : Prop :=
  k = .dbv3Transfer → e = .push .raises → n.transfers.pullOk = true → n.Waits

end DbNode

/-! ## What an update does -/

section

variable {forced : List ℕ} {userPass : Dict ℕ ℕ} {table : UserTable} {q : Query}
  {dt u : Dict ℕ Transfer} {k : DbClass}

theorem UserTable.update_of_entries_eq_nil (h : u.entries = []) : table.update u = table := by
  funext port
  have hu : u.get? port = none := by rw [Dict.get?, h]; rfl
  rw [UserTable.update, hu]
  cases table port with
  | none => rfl
  | some row => exact congrArg some (add_zero row)

/-- The increments that are selected are offered. -/
theorem DbTransfer.get?_select {id : ℕ} {x : Transfer}
    (h : (select forced dt.entries (.empty, userPass)).1.get? id = some x) : dt.get? id = some x := by
  rw [select_eq_restrict, Dict.get?_restrict] at h
  split_ifs at h
  exact h

theorem DbTransfer.select_eq_nil :
    (select forced dt.entries (.empty, userPass)).1.entries = [] ↔
      ∀ id x, dt.get? id = some x → skips forced userPass (id, x) = true := by
  rw [entries_select forced dt.entries .empty userPass dt.nodup fun e _ e' he' =>
    absurd he' (by simp [Dict.empty])]
  rw [Dict.empty, List.nil_append, List.filter_eq_nil_iff]
  constructor
  · intro h id x hx
    exact Bool.not_eq_false _ ▸ fun hskip => h (id, x) (Dict.mem_entries.2 hx) (by rw [hskip]; rfl)
  · rintro h ⟨id, x⟩ he
    rw [h id x (Dict.mem_entries.1 he)]
    exact Bool.false_ne_true

/-- An update raises, or what it returns is what it has written, which is nothing if the `UPDATE` has
    not succeeded. But `Dbv3Transfer` returns what it has selected when the `UPDATE` has raised. -/
theorem DbClass.update_cases (k : DbClass) (forced : List ℕ) (userPass : Dict ℕ ℕ)
    (table : UserTable) (q : Query) (dt : Dict ℕ Transfer) :
    let r := k.update forced userPass table q dt
    (r.updateTransfer = none ∧ r.table = table ∧ q ≠ .succeeds) ∨
      (∃ u, r.updateTransfer = some u ∧ r.table = table.update u ∧
        (∀ id x, u.get? id = some x → dt.get? id = some x) ∧ (q ≠ .succeeds → u.entries = [])) ∨
      (k = .dbv3Transfer ∧ q = .raises ∧ r.table = table ∧
        r.updateTransfer = some (DbTransfer.select [] dt.entries (.empty, userPass)).1) := by
  cases k with
  | dbTransfer =>
    have hsub : ∀ id x, (DbTransfer.select forced dt.entries (.empty, userPass)).1.get? id = some x →
        dt.get? id = some x := fun _ _ => DbTransfer.get?_select
    dsimp only [DbClass.update, DbTransfer.update]
    split_ifs with hnil
    · exact .inr (.inl ⟨_, rfl, (UserTable.update_of_entries_eq_nil hnil).symm, hsub, fun _ => hnil⟩)
    · cases q with
      | succeeds => exact .inr (.inl ⟨_, rfl, rfl, hsub, fun h => absurd rfl h⟩)
      | raises =>
        refine .inr (.inl ⟨.empty, rfl, (UserTable.update_of_entries_eq_nil rfl).symm, ?_,
          fun _ => rfl⟩)
        intro id x hx
        cases hx
      | connectRaises => exact .inl ⟨rfl, rfl, Query.noConfusion⟩
  | dbv3Transfer =>
    have hsub : ∀ id x, (DbTransfer.select [] dt.entries (.empty, userPass)).1.get? id = some x →
        dt.get? id = some x := fun _ _ => DbTransfer.get?_select
    cases q with
    | succeeds =>
      refine .inr (.inl ⟨_, rfl, ?_, hsub, fun h => absurd rfl h⟩)
      dsimp only [DbClass.update, Dbv3Transfer.update]
      split_ifs with hnil
      · exact (UserTable.update_of_entries_eq_nil hnil).symm
      · rfl
    | raises => exact .inr (.inr ⟨rfl, rfl, ite_self _, rfl⟩)
    | connectRaises => exact .inl ⟨rfl, rfl, Query.noConfusion⟩

end

/-! ## Rounds -/

namespace DbNode

variable {n n' : DbNode} {k : DbClass} {q : Query} {e : Event} {table : UserTable} {port : ℕ}

/-- The tables of a node that stops no server. -/
structure Valid (n : DbNode) : Prop where
  forced : n.transfers.forceUpdateTransfer = []
  nonneg : ∀ port, 0 ≤ n.lastUpdate port
  lastUpdate_le : ∀ port, n.lastUpdate port ≤ n.counter port

/-- The increment of a port is what is not billed, if this is more than nothing. -/
theorem Valid.get?_dtTransfer (hn : n.Valid) (port : ℕ) :
    (n.transfers.dtTransfer n.currTransfer).get? port =
      if port ∉ n.transfers.muPorts ∧ 0 < (n.counter port - n.lastUpdate port).1 +
        (n.counter port - n.lastUpdate port).2 then
        some (n.counter port - n.lastUpdate port) else none := by
  have hle := hn.lastUpdate_le port
  have hnonneg := hn.nonneg port
  rw [counter, lastUpdate] at *
  rw [TransferBase.get?_dtTransfer_of_not_mem (by rw [hn.forced]; exact List.not_mem_nil),
    TransferBase.increment, hn.forced]
  by_cases hmu : port ∈ n.transfers.muPorts
  · rw [if_pos (.inr hmu), if_neg fun h => h.1 hmu]
  · rw [if_neg (by simpa using hmu)]
    cases hcurr : n.currTransfer.get? port with
    | none =>
      -- Nothing was counted, so nothing is billed.
      rw [hcurr, Option.getD_none] at hle
      rw [Option.getD_none, le_antisymm hle hnonneg]
      exact (if_neg fun h => lt_irrefl _ h.2).symm
    | some curr =>
      cases hlast : n.transfers.lastUpdateTransfer.get? port with
      | none =>
        simp only [Option.getD_some, Option.getD_none, sub_zero]
        by_cases hpos : curr.1 + curr.2 ≤ 0
        · rw [if_pos hpos, if_neg fun h => absurd h.2 (not_lt.2 hpos)]
        · rw [if_neg hpos, if_pos ⟨hmu, not_le.1 hpos⟩]
      | some last =>
        dsimp only [Option.getD_some, Prod.fst_sub, Prod.snd_sub]
        by_cases hpos : curr.1 + curr.2 - last.1 - last.2 ≤ 0
        · rw [if_pos hpos, if_neg fun h => by omega]
        · rw [if_neg hpos, if_pos ⟨hmu, by omega⟩]

/-- What is returned as written is billed. -/
theorem lastUpdate_pushDbAllUser {t : TransferBase} (hpull : t.pullOk = true)
    (hforced : t.forceUpdateTransfer = []) (curr u : Dict ℕ Transfer) (port : ℕ) :
    ((t.pushDbAllUser curr fun _ => u).lastUpdateTransfer.get? port).getD 0 =
      (t.lastUpdateTransfer.get? port).getD 0 + (u.get? port).getD 0 := by
  rw [TransferBase.get?_lastUpdateTransfer_push hpull, hforced, if_neg List.not_mem_nil]
  cases u.get? port with
  | none => exact (add_zero _).symm
  | some x => rfl

/-- What is billed, and by how much it falls behind what is counted, after a round. -/
theorem Valid.pushDbAllUser (hn : n.Valid) (hpull : n.transfers.pullOk = true) {u : Dict ℕ Transfer}
    (hu : ∀ id x, u.get? id = some x →
      (n.transfers.dtTransfer n.currTransfer).get? id = some x) (userPass : Dict ℕ ℕ)
    (table : UserTable) :
    Valid { n with
      transfers := n.transfers.pushDbAllUser n.currTransfer fun _ => u
      userPass
      table } := by
  have hbilled : ∀ port, n.lastUpdate port + (u.get? port).getD 0 = n.lastUpdate port ∨
      n.lastUpdate port + (u.get? port).getD 0 = n.counter port := by
    intro port
    cases hx : u.get? port with
    | none => exact .inl (add_zero _)
    | some x =>
      have hdt := hu port x hx
      rw [hn.get?_dtTransfer] at hdt
      split_ifs at hdt
      cases hdt
      exact .inr (add_sub_cancel _ _)
  have hlast := lastUpdate_pushDbAllUser hpull hn.forced n.currTransfer u
  refine ⟨TransferBase.forceUpdateTransfer_push hpull _, fun port => ?_, fun port => ?_⟩
  all_goals
    rw [lastUpdate, hlast]
  · rcases hbilled port with h | h
    · exact (hn.nonneg port).trans_eq h.symm
    · exact ((hn.nonneg port).trans (hn.lastUpdate_le port)).trans_eq h.symm
  · rcases hbilled port with h | h
    · exact h.trans_le (hn.lastUpdate_le port)
    · exact h.le

theorem valid_step (hn : n.Valid) (h : n.step k e = some n') : n'.Valid := by
  cases e with
  | pull =>
    cases h
    exact ⟨hn.forced, hn.nonneg, hn.lastUpdate_le⟩
  | muPorts ports =>
    cases h
    exact ⟨hn.forced, hn.nonneg, hn.lastUpdate_le⟩
  | traffic port u d =>
    cases h
    refine ⟨hn.forced, hn.nonneg, fun id => (hn.lastUpdate_le id).trans ?_⟩
    dsimp only [counter]
    rw [Dict.get?_set]
    split_ifs with hid
    · rw [hid, Option.getD_some]
      exact le_add_of_nonneg_right ⟨Int.natCast_nonneg u, Int.natCast_nonneg d⟩
    · exact le_rfl
  | push q =>
    cases h
    rw [push]
    split_ifs with hpull
    · dsimp only
      rcases DbClass.update_cases k n.transfers.forceUpdateTransfer n.userPass n.table q
        (n.transfers.dtTransfer n.currTransfer) with ⟨hr, -⟩ | ⟨u, hr, -, hu, -⟩ | ⟨-, -, -, hr⟩
      · rw [hr]
        exact ⟨hn.forced, hn.nonneg, hn.lastUpdate_le⟩
      · rw [hr]
        exact hn.pushDbAllUser hpull hu _ _
      · rw [hr]
        exact hn.pushDbAllUser hpull (fun _ _ => DbTransfer.get?_select) _ _
    · exact hn

/-- `Dbv3Transfer` selects nothing when the increments wait. -/
theorem Valid.select_eq_nil (hn : n.Valid) :
    (DbTransfer.select [] (n.transfers.dtTransfer n.currTransfer).entries
      (.empty, n.userPass)).1.entries = [] ↔ n.Waits := by
  rw [DbTransfer.select_eq_nil]
  constructor
  · intro h port hmu hpos
    have hskip := h port _ ((hn.get?_dtTransfer port).trans (if_pos ⟨hmu, hpos⟩))
    exact (of_decide_eq_true hskip).1
  · intro h id x hx
    rw [hn.get?_dtTransfer] at hx
    split_ifs at hx with hcond
    cases hx
    exact decide_eq_true ⟨h id hcond.1 hcond.2, List.not_mem_nil⟩

/-- A round adds to the rows of the table what it takes for billed. -/
theorem Billed.push (hb : n.Billed table) {f : ℕ → Transfer} {u : Dict ℕ Transfer}
    (hf : ∀ port, f port = n.lastUpdate port + (u.get? port).getD 0) (port : ℕ) :
    n.table.update u port = (table port).map (· + f port) := by
  rw [UserTable.update, hb.added, hf, Option.map_map]
  refine congrArg (fun g => (table port).map g) (funext fun row => ?_)
  exact add_assoc row (n.lastUpdate port) _

theorem valid_new (table : UserTable) : Valid { table } where
  forced := rfl
  nonneg _ := le_rfl
  lastUpdate_le _ := le_rfl

theorem billed_new (table : UserTable) : Billed table { table } where
  added port := by
    show table port = (table port).map (· + 0)
    cases table port with
    | none => rfl
    | some row => exact congrArg some (add_zero row).symm
  lastUpdate_le _ := le_rfl

/-- A round in which nothing was written. -/
theorem lastUpdateTransfer_pushDbAllUser_of_nil {t : TransferBase}
    (hforced : t.forceUpdateTransfer = []) (curr : Dict ℕ Transfer) {u : Dict ℕ Transfer}
    (hu : u.entries = []) :
    (t.pushDbAllUser curr fun _ => u).lastUpdateTransfer = t.lastUpdateTransfer := by
  have hkeys : u.keys = [] := congrArg (List.map Prod.fst) hu
  rw [TransferBase.pushDbAllUser]
  split_ifs
  · dsimp only
    rw [hkeys, hforced]
    rfl
  · rfl

/-- What a round does to the rows, and to what is taken for billed when no `UPDATE` succeeds. -/
theorem Valid.push (hn : n.Valid) (hb : n.Billed table) (hs : n.Sound k (.push q)) :
    (∀ port, (n.push k q).table port = (table port).map (· + (n.push k q).lastUpdate port)) ∧
      (q ≠ .succeeds →
        (n.push k q).transfers.lastUpdateTransfer = n.transfers.lastUpdateTransfer) := by
  rw [DbNode.push]
  split_ifs with hpull
  · dsimp only
    have hlast := lastUpdate_pushDbAllUser hpull hn.forced n.currTransfer
    have hnil : ∀ {u : Dict ℕ Transfer}, u.entries = [] → _ :=
      lastUpdateTransfer_pushDbAllUser_of_nil hn.forced n.currTransfer
    rcases DbClass.update_cases k n.transfers.forceUpdateTransfer n.userPass n.table q
      (n.transfers.dtTransfer n.currTransfer) with
      ⟨hr, htable, -⟩ | ⟨u, hr, htable, -, hu⟩ | ⟨rfl, rfl, htable, hr⟩
    · rw [hr, htable]
      exact ⟨hb.added, fun _ => rfl⟩
    · rw [hr, htable]
      exact ⟨hb.push (hlast u), fun hq => hnil (hu hq)⟩
    · -- Nothing was selected, so there was no `UPDATE`.
      have hu := hn.select_eq_nil.2 (hs rfl rfl hpull)
      rw [hr, htable, ← @UserTable.update_of_entries_eq_nil n.table _ hu]
      exact ⟨hb.push (hlast _), fun _ => hnil hu⟩
  · exact ⟨hb.added, fun _ => rfl⟩

/-- A step after which everything is as it should be. -/
theorem Valid.retried (hn : n.Valid) (hb : n.Billed table) (hs : n.Sound k e) :
    n.Retried k table e := by
  intro n' h
  have hle := (valid_step hn h).lastUpdate_le
  cases e with
  | pull =>
    cases h
    exact ⟨⟨hb.added, hle⟩, nofun⟩
  | muPorts ports =>
    cases h
    exact ⟨⟨hb.added, hle⟩, nofun⟩
  | traffic port u d =>
    cases h
    exact ⟨⟨hb.added, hle⟩, nofun⟩
  | push q =>
    cases h
    obtain ⟨hadded, hlast⟩ := hn.push hb hs
    refine ⟨⟨hadded, hle⟩, ?_⟩
    rintro _ ⟨⟩ hq
    exact hlast hq

/-- A step after which it is not: `Dbv3Transfer` takes for billed what it has selected. -/
theorem Valid.sound (hn : n.Valid) (h : n.Retried k table e) : n.Sound k e := by
  rintro rfl rfl hpull
  have hkept := (h _ rfl).2 .raises rfl nofun
  rw [DbNode.push, if_pos hpull] at hkept
  change (n.transfers.pushDbAllUser n.currTransfer fun _ => (DbTransfer.select []
    (n.transfers.dtTransfer n.currTransfer).entries (.empty, n.userPass)).1).lastUpdateTransfer =
    n.transfers.lastUpdateTransfer at hkept
  intro port hmu hpos
  by_contra hlt
  set x := n.counter port - n.lastUpdate port with hx
  have hselected : (DbTransfer.select [] (n.transfers.dtTransfer n.currTransfer).entries
      (.empty, n.userPass)).1.get? port = some x := by
    have hdt : (n.transfers.dtTransfer n.currTransfer).get? port = some x :=
      (hn.get?_dtTransfer port).trans (if_pos ⟨hmu, hpos⟩)
    rw [DbTransfer.select_eq_restrict, Dict.get?_restrict, hdt, Option.getD_some,
      DbTransfer.skips, decide_eq_false fun hskip => hlt hskip.1]
    rfl
  have hlast := lastUpdate_pushDbAllUser hpull hn.forced n.currTransfer (DbTransfer.select []
    (n.transfers.dtTransfer n.currTransfer).entries (.empty, n.userPass)).1 port
  rw [hkept, hselected, Option.getD_some, eq_comm, add_eq_left] at hlast
  rw [hlast] at hpos
  exact lt_irrefl _ hpos

/-- After every event of a run, the rows of the database have what `last_update_transfer` says, which
    is no more than what was counted, and an `UPDATE` that has raised leaves it unchanged; if, and
    only if, no `UPDATE` of `Dbv3Transfer` raises when there are increments to write. -/
theorem retried_iff (k : DbClass) (table : UserTable) (es : List Event) :
    Run.Throughout (step k) (Retried k table) { table } es ↔
      Run.Throughout (step k) (Sound k) { table } es := by
  constructor
  · intro h before e after n hes hn
    have hvalid := Run.exec_invariant' (fun hn h => valid_step hn h) (valid_new table) hn
    exact hvalid.sound (h before e after n hes hn)
  · intro h before e after n hes hn
    rw [hes] at h
    obtain ⟨hvalid, hbilled⟩ := Run.exec_invariant
      (P := fun n => Valid n ∧ Billed table n) (fun hP hs ht =>
        ⟨valid_step hP.1 ht, (hP.1.retried hP.2 hs _ ht).1⟩)
      ⟨valid_new table, billed_new table⟩ h.left hn
    exact hvalid.retried hbilled (h before e after n rfl hn)

/-- With `Dbv3Transfer`, 3000000 bytes of a port are lost with the first `UPDATE`. -/
theorem not_retried_raises :
    ¬∀ (k : DbClass) (table : UserTable) (es : List Event),
      Run.Throughout (step k) (Retried k table) { table } es := by
  intro h
  have hretried := h .dbv3Transfer (fun _ => some 0) [.pull, .traffic 1 3000000 0, .push .raises]
    [.pull, .traffic 1 3000000 0] (.push .raises) [] _ rfl rfl _ rfl
  have hlast : some (3000000, 0) = (none : Option Transfer) :=
    congrArg (Dict.get? · 1) (hretried.2 .raises rfl nofun)
  cases hlast

end DbNode

end ShadowsocksR

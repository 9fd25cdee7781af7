import ShadowsocksR.DbServers.Round

/-!
# The servers that a round should leave

After a round, the servers of a port should run if and only if its row asks for them, with the
configuration that its row asks for, and the ports with many users should have the users of the
other rows.

* `Reconciled`: what should be so after a round;
* `Fits`: when the code makes it so;
* `isRun_after_iff`, `config_after_iff`: what it makes of one row;
* `reconciled_iff`: a round returns and leaves what it should if and only if `Fits` holds before it.
-/

namespace ShadowsocksR

namespace DbServers

/-- The servers of the row should run. -/
def Row.Wanted (k : Setup) (row : Row) : Prop :=
  row.isMu = .ok true ∨
    row.allow = true ∧ 0 < row.port ∧ row.port < 65536 ∧ k.additionalPortsOnly = false

/-- The users in the table are those of the rows. -/
def ListsRows (users : Users) (rows : List Row) : Prop :=
  ∀ (port : ℤ) passwd, (∃ uid : UInt32, uid.toNat = port ∧ users.get? uid = some passwd) ↔
    ∃ row ∈ rows, row.port = port ∧ row.IsUser ∧ passwd = .text row.passwd

/-- What a round should leave in the pools. -/
structure Reconciled (k : Setup) (rows : List Row) (pool : Pool) : Prop where
  running : ∀ port, (pool.slot port).isRun = true ↔ ∃ row ∈ rows, row.port = port ∧ row.Wanted k
  config : ∀ row ∈ rows, ∀ server ∈ (pool.slot row.port).servers,
    server.config = k.config.update row.cfg
  users : ∀ row ∈ rows, row.isMu = .ok true → ∀ server ∈ (pool.slot row.port).servers,
    ListsRows server.tcpUsers rows ∧ ListsRows server.udpUsers rows

/-- The servers of the row are left running, or started again. -/
def Row.Kept (k : Setup) (row : Row) : Prop :=
  row.isMu = .ok true ∨ row.allow = true ∧ k.additionalPortsOnly = false

/-- When a round does what it should. -/
structure Fits (k : Setup) (node : Node) (lastRows rows : List Row) : Prop where
  readable : ∀ row ∈ rows, row.Readable
  compares : ∀ row ∈ rows, row.isMu = .ok true ∨ row.allow = true →
    ¬ (node.pool.slot row.port).Stumbles row.cfg
  forced : ∀ row ∈ lastRows, row.port ∈ node.forceUpdateTransfer →
    ∃ row' ∈ rows, row'.port = row.port
  /-- A port that runs, and goes on running, is a port. -/
  range : ∀ row ∈ rows, row.IsUser → k.additionalPortsOnly = false →
    (node.pool.slot row.port).isRun = true → 0 < row.port ∧ row.port < 65536
  /-- No override is removed without that another one changes. -/
  removed : ∀ row ∈ rows, row.Kept k →
    (∀ server ∈ (node.pool.slot row.port).servers, Same server.config row.cfg) →
    ∀ server ∈ (node.pool.slot row.port).servers, ∀ n, row.cfg n = none →
      server.config n = k.config n
  /-- A port that runs has a row, or had one in the round before. -/
  known : ∀ port, (node.pool.slot port).isRun = true →
    (∃ row ∈ rows, row.port = port) ∨ ∃ row ∈ lastRows, row.port = port
  /-- For ports with many users, the ports of the users have four bytes. -/
  packed : (∃ row ∈ rows, row.isMu = .ok true) →
    ∀ row ∈ rows, row.IsUser → 0 ≤ row.port ∧ row.port < 2 ^ 32

/-! ## One row -/

section

variable {k : Setup} {row : Row} {mu change : Bool} {s : Slot}

theorem eq_update_iff {config base cfg : Config} :
    config = base.update cfg ↔ Same config cfg ∧ ∀ n, cfg n = none → config n = base n := by
  rw [funext_iff]
  constructor
  · intro h
    exact ⟨fun n v hv => by rw [h n, Config.update, hv, Option.some_or],
      fun n hn => by rw [h n, Config.update, hn, Option.none_or]⟩
  · rintro ⟨hsame, hbase⟩ n
    rw [Config.update]
    cases hn : cfg n with
    | none => rw [hbase n hn, Option.none_or]
    | some v => rw [hsame n v hn, Option.some_or]

/-- All that becomes of the servers of a row. -/
theorem after_cases (k : Setup) (s : Slot) (change : Bool) (hmu : row.isMu = .ok mu) :
    (s.isRun = true ∧ row.Kept k ∧
      s.after k row mu change = if change then s.stop.start k row.cfg else s) ∨
    (s.isRun = true ∧ ¬ row.Kept k ∧ s.after k row mu change = s.stop) ∨
    (s.isRun = false ∧ row.Wanted k ∧ s.after k row mu change = s.start k row.cfg) ∨
    (s.isRun = false ∧ ¬ row.Wanted k ∧ s.after k row mu change = s) := by
  rw [Row.Kept, Row.Wanted, hmu, Slot.after, action]
  cases mu with
  | true => cases hrun : s.isRun <;> cases change <;> simp
  | false =>
    cases hrun : s.isRun with
    | true =>
      cases row.allow <;> cases k.additionalPortsOnly <;> cases change <;> simp
    | false =>
      by_cases hport : 0 < row.port ∧ row.port < 65536
      · cases row.allow <;> cases k.additionalPortsOnly <;>
          simp [hport, Slot.runStatus_of_not_isRun hrun]
      · cases row.allow <;> cases k.additionalPortsOnly <;>
          simp [hport, Slot.runStatus_of_not_isRun hrun]

/-- The servers run as they should, unless those of a port that is none are left running. -/
theorem isRun_after_iff (hmu : row.isMu = .ok mu) :
    ((s.after k row mu change).isRun = true ↔ row.Wanted k) ↔
      (row.IsUser → k.additionalPortsOnly = false → s.isRun = true →
        0 < row.port ∧ row.port < 65536) := by
  have hkept : ∀ h : row.Wanted k, row.Kept k := fun h => h.imp_right fun h => ⟨h.1, h.2.2.2⟩
  rcases after_cases k s change hmu with ⟨hrun, hrow, h⟩ | ⟨hrun, hrow, h⟩ | ⟨hrun, hrow, h⟩ |
    ⟨hrun, hrow, h⟩
  · have hafter : (s.after k row mu change).isRun = true := by
      rw [h]
      cases change
      · exact hrun
      · exact s.stop.isRun_start
    rw [hafter, hrun, iff_true_left rfl]
    constructor
    · rintro (hmu | ⟨-, h0, h1, -⟩) huser - -
      · cases hmu.symm.trans huser.1
      · exact ⟨h0, h1⟩
    · intro hrange
      rcases hrow with hrow | ⟨hallow, hports⟩
      · exact .inl hrow
      · cases mu with
        | true => exact .inl hmu
        | false =>
          obtain ⟨h0, h1⟩ := hrange ⟨hmu, hallow⟩ hports rfl
          exact .inr ⟨hallow, h0, h1, hports⟩
  · rw [h, Slot.isRun_stop]
    refine iff_of_true (iff_of_false Bool.false_ne_true fun h => hrow (hkept h)) ?_
    exact fun huser hports => absurd (.inr ⟨huser.2, hports⟩) hrow
  · rw [h, hrun]
    exact iff_of_true (iff_of_true s.isRun_start hrow) fun _ _ h => by cases h
  · rw [h, hrun]
    exact iff_of_true (iff_of_false Bool.false_ne_true hrow) fun _ _ h => by cases h

/-- The configurations are as they should be, unless the overrides are there, and others too. -/
theorem config_after_iff (hmu : row.isMu = .ok mu) (hchange : row.cfgchange mu s = .ok change) :
    (∀ server ∈ (s.after k row mu change).servers, server.config = k.config.update row.cfg) ↔
      (row.Kept k → (∀ server ∈ s.servers, Same server.config row.cfg) →
        ∀ server ∈ s.servers, ∀ n, row.cfg n = none → server.config n = k.config n) := by
  have hstart : ∀ s' : Slot, s'.isRun = false → ∀ server ∈ (s'.start k row.cfg).servers,
      server.config = k.config.update row.cfg := fun s' hs' server hserver => by
    rw [Slot.mem_servers_start hs' hserver]
    rfl
  rcases after_cases k s change hmu with ⟨hrun, hrow, h⟩ | ⟨hrun, hrow, h⟩ | ⟨hrun, hrow, h⟩ |
    ⟨hrun, hrow, h⟩
  · have hallow : (mu || row.allow) = true := by
      rw [Row.Kept, hmu] at hrow
      rcases hrow with hmu | ⟨hallow, -⟩
      · cases hmu
        rfl
      · rw [hallow, Bool.or_true]
    rw [Row.cfgchange, if_pos hallow] at hchange
    rw [h]
    cases change with
    | true =>
      -- All start again, and not all had the overrides.
      refine iff_of_true (hstart s.stop s.isRun_stop) fun _ hsame => ?_
      cases hchange.symm.trans (Slot.cfgchange_eq_ok_false.2 hsame)
    | false =>
      have hsame := Slot.cfgchange_eq_ok_false.1 hchange
      simp only [eq_update_iff]
      exact ⟨fun h _ _ server hserver => (h server hserver).2,
        fun h server hserver => ⟨hsame server hserver, h hrow hsame server hserver⟩⟩
  · rw [h, Slot.isRun_eq_false.1 s.isRun_stop]
    exact iff_of_true (fun _ h => by cases h) fun h => absurd h hrow
  · rw [h, Slot.isRun_eq_false.1 hrun]
    exact iff_of_true (hstart s hrun) fun _ _ _ h => by cases h
  · rw [h, Slot.isRun_eq_false.1 hrun]
    exact iff_of_true (fun _ h => by cases h) fun _ _ _ h => by cases h

/-- The row does not raise. -/
theorem row_returns_iff :
    (∃ mu change, row.isMu = .ok mu ∧ row.cfgchange mu s = .ok change) ↔
      row.Readable ∧ (row.isMu = .ok true ∨ row.allow = true → ¬ s.Stumbles row.cfg) := by
  rw [← Row.isMu_returns_iff]
  cases hmu : row.isMu with
  | error e => exact iff_of_false (fun ⟨_, _, h, _⟩ => by cases h) fun ⟨⟨_, h⟩, _⟩ => by cases h
  | ok mu =>
    have hallow : (Except.ok mu : Except PyExc Bool) = .ok true ∨ row.allow = true ↔
        (mu || row.allow) = true := by simp
    have hchange : (∃ mu' change, (Except.ok mu : Except PyExc Bool) = .ok mu' ∧
        row.cfgchange mu' s = .ok change) ↔ ∃ change, row.cfgchange mu s = .ok change := by simp
    rw [hallow, hchange, and_iff_right ⟨mu, rfl⟩, Row.cfgchange]
    split_ifs with h
    · rw [← Slot.cfgchange_eq_error, forall_prop_of_true h]
      cases s.cfgchange row.cfg <;> simp
    · exact iff_of_true ⟨false, rfl⟩ fun h' => absurd h' h

end

/-! ## All rows -/

section

variable {k : Setup} {node node' : Node} {lastRows rows : List Row} {allowUsers : Dict ℤ Config}

/-- The table of a relay has the users of the rows if and only if their ports have four bytes. -/
theorem listsRows_iff (hallow : ∀ port cfg, allowUsers.get? port = some cfg ↔
      ∃ row ∈ rows, row.port = port ∧ row.IsUser ∧ row.cfg = cfg) (users : Users) :
    ListsRows (users.updateUsers allowUsers) rows ↔
      ∀ row ∈ rows, row.IsUser → 0 ≤ row.port ∧ row.port < 2 ^ 32 := by
  have hpasswd : ∀ port passwd, (∃ cfg, allowUsers.get? port = some cfg ∧
        cfg .password = some passwd) ↔
      ∃ row ∈ rows, row.port = port ∧ row.IsUser ∧ passwd = .text row.passwd := by
    intro port passwd
    constructor
    · rintro ⟨cfg, hcfg, hp⟩
      obtain ⟨row, hrow, hport, huser, rfl⟩ := (hallow port cfg).1 hcfg
      exact ⟨row, hrow, hport, huser, (Option.some.inj (row.cfg_password.symm.trans hp)).symm⟩
    · rintro ⟨row, hrow, hport, huser, rfl⟩
      exact ⟨row.cfg, (hallow port _).2 ⟨row, hrow, hport, huser, rfl⟩, row.cfg_password⟩
  have hlists : ListsRows (users.updateUsers allowUsers) rows ↔
      (users.updateUsers allowUsers).Lists allowUsers :=
    forall₂_congr fun port passwd => by rw [hpasswd]
  rw [hlists, Users.lists_updateUsers_iff]
  · constructor
    · intro h row hrow huser
      exact h _ (Dict.contains_eq_true.2 ⟨_, (hallow _ _).2 ⟨row, hrow, rfl, huser, rfl⟩⟩)
    · intro h port hport
      obtain ⟨cfg, hcfg⟩ := Dict.contains_eq_true.1 hport
      obtain ⟨row, hrow, rfl, huser, -⟩ := (hallow _ _).1 hcfg
      exact h row hrow huser
  · intro port cfg hcfg
    obtain ⟨row, -, -, -, rfl⟩ := (hallow port cfg).1 hcfg
    rw [row.cfg_password]
    rfl

theorem reconciled_iff_of_ok (hnodup : (rows.map Row.port).Nodup)
    (h : delServerOutOfBoundSafe k node lastRows rows = .ok node') :
    Reconciled k rows node'.pool ↔
      (∀ row ∈ rows, row.IsUser → k.additionalPortsOnly = false →
        (node.pool.slot row.port).isRun = true → 0 < row.port ∧ row.port < 65536) ∧
      (∀ row ∈ rows, row.Kept k →
        (∀ server ∈ (node.pool.slot row.port).servers, Same server.config row.cfg) →
        ∀ server ∈ (node.pool.slot row.port).servers, ∀ n, row.cfg n = none →
          server.config n = k.config n) ∧
      (∀ port, (node.pool.slot port).isRun = true →
        (∃ row ∈ rows, row.port = port) ∨ ∃ row ∈ lastRows, row.port = port) ∧
      ((∃ row ∈ rows, row.isMu = .ok true) →
        ∀ row ∈ rows, row.IsUser → 0 ≤ row.port ∧ row.port < 2 ^ 32) := by
  obtain ⟨allowUsers, hallow, hrow, hother⟩ := round_spec hnodup h
  have hrun : ∀ row ∈ rows, ((node'.pool.slot row.port).isRun = true ↔ row.Wanted k) ↔
      (row.IsUser → k.additionalPortsOnly = false → (node.pool.slot row.port).isRun = true →
        0 < row.port ∧ row.port < 65536) := by
    intro row hmem
    obtain ⟨mu, change, hmu, -, hslot⟩ := hrow row hmem
    have hafter : (node'.pool.slot row.port).isRun =
        ((node.pool.slot row.port).after k row mu change).isRun := by
      rw [hslot]
      split_ifs
      · exact Slot.isRun_updateUsers _ _
      · rfl
    rw [hafter, isRun_after_iff hmu]
  have hconfig : ∀ row ∈ rows, (∀ server ∈ (node'.pool.slot row.port).servers,
        server.config = k.config.update row.cfg) ↔ (row.Kept k →
        (∀ server ∈ (node.pool.slot row.port).servers, Same server.config row.cfg) →
        ∀ server ∈ (node.pool.slot row.port).servers, ∀ n, row.cfg n = none →
          server.config n = k.config n) := by
    intro row hmem
    obtain ⟨mu, change, hmu, hchange, hslot⟩ := hrow row hmem
    rw [← config_after_iff hmu hchange, hslot]
    split_ifs
    · exact Slot.forall_config_updateUsers
    · rfl
  have husers : ∀ row ∈ rows, row.isMu = .ok true →
      ((∀ server ∈ (node'.pool.slot row.port).servers,
        ListsRows server.tcpUsers rows ∧ ListsRows server.udpUsers rows) ↔
        ∀ row ∈ rows, row.IsUser → 0 ≤ row.port ∧ row.port < 2 ^ 32) := by
    intro row hmem hmu
    obtain ⟨mu, change, hmu', -, hslot⟩ := hrow row hmem
    cases hmu'.symm.trans hmu
    have hafter : ((node.pool.slot row.port).after k row true change).isRun = true :=
      ((isRun_after_iff hmu).2 fun huser => by cases hmu.symm.trans huser.1).2 (.inl hmu)
    rw [if_pos rfl] at hslot
    rw [hslot]
    constructor
    · intro h
      obtain ⟨server, hserver⟩ := Slot.isRun_eq_true.1 hafter
      exact (listsRows_iff hallow server.tcpUsers).1
        (h _ (Slot.mem_servers_updateUsers.2 ⟨server, hserver, rfl⟩)).1
    · intro hpacked server hserver
      obtain ⟨server, -, rfl⟩ := Slot.mem_servers_updateUsers.1 hserver
      exact ⟨(listsRows_iff hallow server.tcpUsers).2 hpacked,
        (listsRows_iff hallow server.udpUsers).2 hpacked⟩
  have hrunning : (∀ port, (node'.pool.slot port).isRun = true ↔
        ∃ row ∈ rows, row.port = port ∧ row.Wanted k) ↔
      (∀ row ∈ rows, (node'.pool.slot row.port).isRun = true ↔ row.Wanted k) ∧
        ∀ port, (node.pool.slot port).isRun = true →
          (∃ row ∈ rows, row.port = port) ∨ ∃ row ∈ lastRows, row.port = port := by
    have hunique : ∀ row ∈ rows, (∃ row' ∈ rows, row'.port = row.port ∧ row'.Wanted k) ↔
        row.Wanted k := fun row hmem =>
      ⟨fun ⟨row', hmem', hport, hwanted⟩ =>
        List.inj_on_of_nodup_map hnodup hmem' hmem hport ▸ hwanted,
        fun hwanted => ⟨row, hmem, rfl, hwanted⟩⟩
    constructor
    · intro h
      refine ⟨fun row hmem => (h row.port).trans (hunique row hmem), fun port hport => ?_⟩
      -- Nothing comes to a port without a row in either round.
      by_contra hnone
      push Not at hnone
      have hslot := hother port hnone.1
      rw [if_neg fun ⟨row, hmem, heq⟩ => hnone.2 row hmem heq] at hslot
      obtain ⟨row, hmem, heq, -⟩ := (h port).1 (hslot ▸ hport)
      exact hnone.1 row hmem heq
    · rintro ⟨hrows, hknown⟩ port
      by_cases hport : ∃ row ∈ rows, row.port = port
      · obtain ⟨row, hmem, rfl⟩ := hport
        exact (hrows row hmem).trans (hunique row hmem).symm
      · refine iff_of_false (fun hrun => ?_) fun ⟨row, hmem, heq, _⟩ => hport ⟨row, hmem, heq⟩
        rw [hother port (by push Not at hport; exact hport)] at hrun
        split_ifs at hrun with hlast
        · rw [Slot.isRun_stop] at hrun
          cases hrun
        · exact (hknown port hrun).elim hport hlast
  constructor
  · intro hrec
    obtain ⟨hrows, hknown⟩ := hrunning.1 hrec.running
    exact ⟨fun row hmem => (hrun row hmem).1 (hrows row hmem),
      fun row hmem => (hconfig row hmem).1 (hrec.config row hmem), hknown,
      fun ⟨row, hmem, hmu⟩ => (husers row hmem hmu).1 (hrec.users row hmem hmu)⟩
  · rintro ⟨hrange, hremoved, hknown, hpacked⟩
    exact ⟨hrunning.2 ⟨fun row hmem => (hrun row hmem).2 (hrange row hmem), hknown⟩,
      fun row hmem => (hconfig row hmem).2 (hremoved row hmem),
      fun row hmem hmu => (husers row hmem hmu).2 (hpacked ⟨row, hmem, hmu⟩)⟩

/-- A round returns and leaves what it should if and only if it fits before it. -/
theorem reconciled_iff (hnodup : (rows.map Row.port).Nodup) :
    (∃ node', delServerOutOfBoundSafe k node lastRows rows = .ok node' ∧
      Reconciled k rows node'.pool) ↔ Fits k node lastRows rows := by
  have hreturns : (∃ node', delServerOutOfBoundSafe k node lastRows rows = .ok node') ↔
      ((∀ row ∈ rows, row.Readable) ∧
        ∀ row ∈ rows, row.isMu = .ok true ∨ row.allow = true →
          ¬ (node.pool.slot row.port).Stumbles row.cfg) ∧
      ∀ row ∈ lastRows, row.port ∈ node.forceUpdateTransfer →
        ∃ row' ∈ rows, row'.port = row.port := by
    rw [returns_iff hnodup, ← forall₂_and]
    exact and_congr_left' (forall₂_congr fun row _ => row_returns_iff)
  constructor
  · rintro ⟨node', h, hrec⟩
    obtain ⟨⟨hreadable, hcompares⟩, hforced⟩ := hreturns.1 ⟨node', h⟩
    obtain ⟨hrange, hremoved, hknown, hpacked⟩ := (reconciled_iff_of_ok hnodup h).1 hrec
    exact ⟨hreadable, hcompares, hforced, hrange, hremoved, hknown, hpacked⟩
  · intro hfits
    obtain ⟨node', h⟩ := hreturns.2 ⟨⟨hfits.readable, hfits.compares⟩, hfits.forced⟩
    exact ⟨node', h, (reconciled_iff_of_ok hnodup h).2
      ⟨hfits.range, hfits.removed, hfits.known, hfits.packed⟩⟩

end

/-! ## A port that runs -/

/-- The values that `get_config` has for a server when none are given. -/
def defaults : Config
  | .password => some (.text [])
  | .method => some (.text "aes-256-cfb".toList)
  | .obfs => some (.text "plain".toList)
  | .obfsParam => some (.text [])
  | .protocol => some (.text "origin".toList)
  | .protocolParam => some (.text [])
  | .forbiddenIp => some (.network "127.0.0.0/8,::1/128".toList)
  | .forbiddenPort => some (.ports [])
  | .speedLimitPerCon => none
  | .speedLimitPerUser => none

/-- The row of a user, with a value in one of the other columns. -/
def userRow (n : Name) (v : Option Value) : Row where
  port := 8388
  passwd := ['m']
  enable := some 1
  u := some 0
  d := some 0
  transferEnable := some 1
  columns := Function.update (fun _ => none) n v

/-- A node that runs the port of such a row, without the value. -/
def runningNode : Node where
  pool.ipv4 := Dict.empty.set 8388 (Setup.start { config := defaults } (userRow .method none).cfg)

/-- A limit that is given to a user whose port runs is not in the configuration of the relay. -/
theorem not_reconciled : ¬ ∀ k node lastRows rows, (rows.map Row.port).Nodup →
    ∃ node', delServerOutOfBoundSafe k node lastRows rows = .ok node' ∧
      Reconciled k rows node'.pool := by
  intro h
  obtain ⟨node', hnode', -⟩ := h { config := defaults } runningNode []
    [userRow .speedLimitPerCon (some (.int 100))] (List.nodup_singleton _)
  have hraises : delServerOutOfBoundSafe { config := defaults } runningNode []
      [userRow .speedLimitPerCon (some (.int 100))] = .error .keyError := rfl
  cases hraises.symm.trans hnode'

/-- Another method is noticed: the port is started again. -/
theorem reconciled_method :
    ∃ node', delServerOutOfBoundSafe { config := defaults } runningNode []
        [userRow .method (some (.text ['r', 'c', '4']))] = .ok node' ∧
      Reconciled { config := defaults } [userRow .method (some (.text ['r', 'c', '4']))]
        node'.pool := by
  have hmu : (userRow .method (some (.text ['r', 'c', '4']))).isMu = .ok false := rfl
  have hchange : (runningNode.pool.slot 8388).cfgchange
      (userRow .method (some (.text ['r', 'c', '4']))).cfg = .ok true := rfl
  have hport : ∀ port, (runningNode.pool.slot port).isRun = true → port = 8388 := by
    intro port hrun
    by_contra hne
    have hnone : runningNode.pool.slot port = {} :=
      congrArg (Slot.mk · none) (Dict.get?_set_of_ne _ _ hne)
    rw [hnone] at hrun
    cases hrun
  refine (reconciled_iff (by decide)).2 ⟨?_, ?_, ?_, ?_, ?_, ?_, ?_⟩
  · exact List.forall_mem_singleton.2 (Row.isMu_returns_iff.1 ⟨_, hmu⟩)
  · refine List.forall_mem_singleton.2 fun _ hst => ?_
    obtain ⟨e, he⟩ := Slot.cfgchange_eq_error.2 hst
    cases hchange.symm.trans he
  · exact fun row hrow => absurd hrow List.not_mem_nil
  · exact List.forall_mem_singleton.2 fun _ _ _ => by decide
  · refine List.forall_mem_singleton.2 fun _ hsame => ?_
    cases hchange.symm.trans (Slot.cfgchange_eq_ok_false.2 hsame)
  · exact fun port hrun => .inl ⟨_, List.mem_singleton_self _, (hport port hrun).symm⟩
  · rintro ⟨row, hrow, hrow'⟩
    cases List.mem_singleton.1 hrow
    cases hmu.symm.trans hrow'

end DbServers

end ShadowsocksR

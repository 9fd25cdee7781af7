import ShadowsocksR.Common
import ShadowsocksR.Lib.Dict
import ShadowsocksR.Lib.Run
import Mathlib.Data.List.Induction

/-!
# Speed limits of users

A port with many users has for each of them an object that limits what they
send, and one that limits what they receive (`SpeedTester`). The management
sets the limits with `update_users`, `add_user` and `del_user`; the connections
look the objects up with `speed_tester_u` and `speed_tester_d`, which make one
with the limit of the port when there is none.

The management writes under the bytes of the user id, the connections read
under its number, so they never meet:

* `valid_step`: under numbers there are only objects with the limit of the
  port, whatever the management does;
* `limit_enforced_iff`: a connection of a user is subject to the limit in the
  configuration last given for the user if and only if it is the limit of the
  port.
-/

namespace ShadowsocksR

/-! ## Limiters -/

/-- `SpeedTester`; a limit may be any number. -/
structure SpeedTester where
  maxSpeed : ℚ
  lastTime : Time
  sumLen : ℚ

namespace SpeedTester

/-- `SpeedTester(max_speed)` -/
def new (maxSpeed : ℚ) (now : Time) : SpeedTester where
  maxSpeed := maxSpeed * 1024
  lastTime := now
  sumLen := 0

def updateLimit (s : SpeedTester) (maxSpeed : ℚ) : SpeedTester :=
  { s with maxSpeed := maxSpeed * 1024 }

/-- What has been sent since the last time is taken off the sum. -/
def drain (s : SpeedTester) (now : Time) : SpeedTester :=
  let sumLen := s.sumLen - (now - s.lastTime) * s.maxSpeed
  { s with lastTime := now, sumLen := if sumLen < 0 then 0 else sumLen }

def add (s : SpeedTester) (now : Time) (dataLen : ℕ) : SpeedTester :=
  if s.maxSpeed > 0 then
    let s := s.drain now
    { s with sumLen := s.sumLen + dataLen }
  else s

def isExceed (s : SpeedTester) (now : Time) : Bool × SpeedTester :=
  if s.maxSpeed > 0 then
    let s := s.drain now
    (decide (s.sumLen ≥ s.maxSpeed), s)
  else (false, s)

@[simp] theorem maxSpeed_new (maxSpeed : ℚ) (now : Time) :
    (new maxSpeed now).maxSpeed = maxSpeed * 1024 := rfl

@[simp] theorem maxSpeed_add (s : SpeedTester) (now : Time) (dataLen : ℕ) :
    (s.add now dataLen).maxSpeed = s.maxSpeed := by
  rw [add]
  split_ifs <;> rfl

@[simp] theorem maxSpeed_isExceed (s : SpeedTester) (now : Time) :
    (s.isExceed now).2.maxSpeed = s.maxSpeed := by
  rw [isExceed]
  split_ifs <;> rfl

end SpeedTester

/-! ## The tables of a port -/

/-- A key of the tables of limiters: a `bytes` object, or an `int`. -/
inductive UserKey
  | uid (uid : Bytes)
  | number (n : ℕ)
  deriving DecidableEq

/-- The configuration of a user. -/
structure UserCfg where
  password : Bytes
  speedLimitPerUser : Option ℤ := none
  speedLimitPerCon : Option ℤ := none

/-- `cfg.get("speed_limit_per_user", 0)` -/
def UserCfg.limit (cfg : UserCfg) : ℤ := cfg.speedLimitPerUser.getD 0

/-- The part of the configuration of a port that is about users. -/
structure PortCfg where
  protocolParam : Bytes
  /-- Whether the protocol is one of `mu_protocol()`. -/
  muProtocol : Bool
  listenPort : ℕ
  speedLimitPerUser : Option ℤ := none
  speedLimitPerCon : Option ℤ := none

/-- `self._config.get("speed_limit_per_user", 0)` -/
def PortCfg.limit (config : PortCfg) : ℤ := config.speedLimitPerUser.getD 0

/-- The fields of `TCPRelay` that are about users. -/
structure RelayUsers where
  config : PortCfg
  serverUsers : Dict Bytes Bytes := .empty
  serverUsersCfg : Dict Bytes UserCfg := .empty
  speedTesterU : Dict UserKey SpeedTester := .empty
  speedTesterD : Dict UserKey SpeedTester := .empty

namespace RelayUsers

/-- `update_limit` of the limiter at a key, or a new limiter. -/
def setLimit (testers : Dict UserKey SpeedTester) (key : UserKey) (speed : ℤ) (now : Time) :
    Dict UserKey SpeedTester :=
  match testers.get? key with
  | some tester => testers.set key (tester.updateLimit speed)
  | none => testers.set key (.new speed now)

def addUser (r : RelayUsers) (now : Time) (uid : Bytes) (cfg : UserCfg) : RelayUsers where
  config := r.config
  serverUsers := r.serverUsers.set uid cfg.password
  serverUsersCfg := r.serverUsersCfg.set uid cfg
  speedTesterU := setLimit r.speedTesterU (.uid uid) cfg.limit now
  speedTesterD := setLimit r.speedTesterD (.uid uid) cfg.limit now

def delUser (r : RelayUsers) (uid : Bytes) : RelayUsers :=
  { r with serverUsers := r.serverUsers.del uid, serverUsersCfg := r.serverUsersCfg.del uid }

/-- `struct.pack('<I', id)` -/
def packId (id : ℤ) : Except PyExc Bytes :=
  if 0 ≤ id ∧ id ≤ 0xFFFFFFFF then .ok (packLE 4 id.toNat) else .error .structError

/-- `struct.unpack('<I', uid)[0]` -/
def unpackId (uid : Bytes) : Except PyExc ℕ :=
  if uid.length = 4 then .ok (unpackLE uid) else .error .structError

/-- One user of `_update_users(None, None)`: `id:password`. -/
def addParamUser (now : Time) (r : RelayUsers) (user : Bytes) : Except PyExc RelayUsers :=
  match user.splitOn 58 with
  | [id, passwd] => do
    match pyInt id with
    | some id =>
      let uid ← packId id
      .ok (r.addUser now uid { password := passwd })
    | none => .error .valueError
  | _ => .ok r

/-- The tables of a new port: the users of `protocol_param`, after its `#`. -/
def new (config : PortCfg) (now : Time) : Except PyExc RelayUsers :=
  if config.muProtocol then
    match config.protocolParam.splitOn 35 with
    | [_, users] => (users.splitOn 44).foldlM (addParamUser now) { config }
    | _ => .ok { config }
  else .ok { config }

/-- The first loop of `update_users`, over the keys `uids`: users that are not among the new ones
    are deleted. -/
def delMissing (users : Dict ℕ UserCfg) : List Bytes → RelayUsers → Except PyExc Unit × RelayUsers
  | [], r => (.ok (), r)
  | uid :: uids, r =>
    match unpackId uid with
    | .error e => (.error e, r)
    | .ok id => delMissing users uids (if users.contains id then r else r.delUser uid)

/-- The second loop of `update_users`. -/
def addAll (now : Time) : List (ℕ × UserCfg) → RelayUsers → Except PyExc Unit × RelayUsers
  | [], r => (.ok (), r)
  | (id, cfg) :: users, r =>
    match packId id with
    | .error e => (.error e, r)
    | .ok uid => addAll now users (r.addUser now uid cfg)

def updateUsers (r : RelayUsers) (now : Time) (users : Dict ℕ UserCfg) :
    Except PyExc Unit × RelayUsers :=
  match delMissing users r.serverUsers.keys r with
  | (.error e, r) => (.error e, r)
  | (.ok (), r) => addAll now users.entries r

/-- The limiter at a key, made with the limit of the port when there is none (with `self.mu` and
    without it). -/
def speedTester (r : RelayUsers) (testers : Dict UserKey SpeedTester) (key : UserKey) (now : Time) :
    SpeedTester × Dict UserKey SpeedTester :=
  match testers.get? key with
  | some tester => (tester, testers)
  | none => (.new r.config.limit now, testers.set key (.new r.config.limit now))

/-- The limiters, after a call of a method of the one at a key. -/
def onTester (r : RelayUsers) (testers : Dict UserKey SpeedTester) (key : UserKey) (now : Time)
    (f : SpeedTester → SpeedTester) : Dict UserKey SpeedTester :=
  let (tester, testers) := r.speedTester testers key now
  testers.set key (f tester)

end RelayUsers

/-! ## Connections -/

/-- The fields of `TCPRelayHandler` that are about its user. -/
structure UserConn where
  user : Option Bytes := none
  userId : ℕ
  speedTesterU : SpeedTester
  speedTesterD : SpeedTester

namespace UserConn

/-- A new connection belongs to the number of the port. -/
def new (config : PortCfg) (now : Time) : UserConn where
  userId := config.listenPort
  speedTesterU := .new (config.speedLimitPerCon.getD 0) now
  speedTesterD := .new (config.speedLimitPerCon.getD 0) now

/-- `_update_user`, which the protocol calls. -/
def updateUser (c : UserConn) (r : RelayUsers) (user : Bytes) : Except PyExc Unit × UserConn :=
  let c := { c with user := some user }
  match RelayUsers.unpackId user with
  | .error e => (.error e, c)
  | .ok userId =>
    match r.serverUsersCfg.get? user with
    | some cfg =>
      let speed := cfg.speedLimitPerCon.getD 0
      (.ok (), { c with
        userId
        speedTesterU := c.speedTesterU.updateLimit speed
        speedTesterD := c.speedTesterD.updateLimit speed })
    | none => (.ok (), { c with userId })

end UserConn

/-- A port and the connections it has accepted. -/
structure UserPort where
  relay : RelayUsers
  conns : List UserConn := []

namespace UserPort

inductive Event
  | updateUsers (now : Time) (users : Dict ℕ UserCfg)
  | addUser (now : Time) (uid : Bytes) (cfg : UserCfg)
  | delUser (uid : Bytes)
  | accept (now : Time)
  /-- The protocol has found the user of a connection. -/
  | login (i : ℕ) (uid : Bytes)
  /-- `handle_event` asks whether a connection may read from the client. -/
  | isExceedU (i : ℕ) (now : Time)
  /-- `handle_event` asks whether it may read from its remote. -/
  | isExceedD (i : ℕ) (now : Time)
  /-- `_on_local_read` has read so much. -/
  | addU (i : ℕ) (now : Time) (dataLen : ℕ)
  /-- `_on_remote_read` has. -/
  | addD (i : ℕ) (now : Time) (dataLen : ℕ)

/-- An event of the connection `i`, when there is one. -/
def onConn (p : UserPort) (i : ℕ) (f : UserConn → RelayUsers → UserConn × RelayUsers) :
    Option UserPort :=
  p.conns[i]?.map fun c =>
    let (c, relay) := f c p.relay
    { relay, conns := p.conns.set i c }

/-- One event; a protocol finds only users of the table. An exception of the management is logged,
    with the tables as they are then. -/
def step (p : UserPort) : Event → Option UserPort
  | .updateUsers now users => some { p with relay := (p.relay.updateUsers now users).2 }
  | .addUser now uid cfg => some { p with relay := p.relay.addUser now uid cfg }
  | .delUser uid => some { p with relay := p.relay.delUser uid }
  | .accept now => some { p with conns := p.conns ++ [.new p.relay.config now] }
  | .login i uid =>
    if p.relay.serverUsers.contains uid then p.onConn i fun c r => ((c.updateUser r uid).2, r)
    else none
  | .isExceedD i now => p.onConn i fun c r =>
    let (exceed, tester) := c.speedTesterD.isExceed now
    let c := { c with speedTesterD := tester }
    if exceed then (c, r)
    else (c, { r with
      speedTesterD := r.onTester r.speedTesterD (.number c.userId) now fun t => (t.isExceed now).2 })
  | .isExceedU i now => p.onConn i fun c r =>
    let (exceed, tester) := c.speedTesterU.isExceed now
    let c := { c with speedTesterU := tester }
    if exceed then (c, r)
    else (c, { r with
      speedTesterU := r.onTester r.speedTesterU (.number c.userId) now fun t => (t.isExceed now).2 })
  | .addU i now dataLen => p.onConn i fun c r =>
    ({ c with speedTesterU := c.speedTesterU.add now dataLen },
      { r with
        speedTesterU := r.onTester r.speedTesterU (.number c.userId) now fun t => t.add now dataLen })
  | .addD i now dataLen => p.onConn i fun c r =>
    ({ c with speedTesterD := c.speedTesterD.add now dataLen },
      { r with
        speedTesterD := r.onTester r.speedTesterD (.number c.userId) now fun t => t.add now dataLen })

/-- The configuration that an event gives for a user. -/
def given (uid : Bytes) : Event → Option UserCfg
  | .updateUsers _ users => if uid.length = 4 then users.get? (unpackLE uid) else none
  | .addUser _ uid' cfg => if uid' = uid then some cfg else none
  | _ => none

/-- The configuration last given for a user, before or in these events. -/
def latest (r : RelayUsers) (events : List Event) (uid : Bytes) : Option UserCfg :=
  (events.reverse.findSome? (given uid)).or (r.serverUsersCfg.get? uid)

end UserPort

/-- The limiters that a connection consults have the limit of a configuration. -/
def RelayUsers.Enforced (r : RelayUsers) (c : UserConn) (cfg : UserCfg) : Prop :=
  ∀ now, (r.speedTester r.speedTesterU (.number c.userId) now).1.maxSpeed = 1024 * cfg.limit ∧
    (r.speedTester r.speedTesterD (.number c.userId) now).1.maxSpeed = 1024 * cfg.limit

/-! ## The two kinds of keys -/

/-- Under numbers there are only limiters with one limit. -/
def OfPort (limit : ℤ) (testers : Dict UserKey SpeedTester) : Prop :=
  ∀ n tester, testers.get? (.number n) = some tester → tester.maxSpeed = 1024 * limit

section

variable {limit : ℤ} {testers : Dict UserKey SpeedTester} {r : RelayUsers}

theorem ofPort_empty : OfPort limit .empty := fun n tester h => by
  rw [Dict.get?_empty] at h
  cases h

/-- The management leaves them alone. -/
theorem OfPort.setLimit (h : OfPort limit testers) (uid : Bytes) (speed : ℤ) (now : Time) :
    OfPort limit (RelayUsers.setLimit testers (.uid uid) speed now) := fun n tester hn => by
  rw [RelayUsers.setLimit] at hn
  split at hn <;> rw [Dict.get?_set_of_ne _ _ (by intro h; cases h)] at hn <;>
    exact h n tester hn

/-- A connection looks up one of them, or makes one. -/
theorem OfPort.maxSpeed_speedTester (h : OfPort r.config.limit testers) (n : ℕ) (now : Time) :
    (r.speedTester testers (.number n) now).1.maxSpeed = 1024 * r.config.limit := by
  rw [RelayUsers.speedTester]
  cases hn : testers.get? (.number n) with
  | some tester => exact h n tester hn
  | none => exact mul_comm _ _

theorem OfPort.onTester (h : OfPort r.config.limit testers) (n : ℕ) (now : Time)
    {f : SpeedTester → SpeedTester} (hf : ∀ t, (f t).maxSpeed = t.maxSpeed) :
    OfPort r.config.limit (r.onTester testers (.number n) now f) := fun m tester hm => by
  rw [RelayUsers.onTester, Dict.get?_set] at hm
  by_cases hmn : UserKey.number m = .number n
  · rw [if_pos hmn] at hm
    cases hm
    rw [hf]
    exact h.maxSpeed_speedTester n now
  · rw [if_neg hmn, RelayUsers.speedTester] at hm
    cases hn : testers.get? (.number n) with
    | some tester' => rw [hn] at hm; exact h m tester hm
    | none => rw [hn, Dict.get?_set_of_ne _ _ hmn] at hm; exact h m tester hm

end

/-- The tables of a port with some configuration, in which the two kinds of keys do not meet. -/
structure RelayUsers.Valid (config : PortCfg) (r : RelayUsers) : Prop where
  config_eq : r.config = config
  contains_eq : ∀ uid, r.serverUsers.contains uid = r.serverUsersCfg.contains uid
  ofPortU : OfPort config.limit r.speedTesterU
  ofPortD : OfPort config.limit r.speedTesterD

namespace RelayUsers

variable {config : PortCfg} {r : RelayUsers}

theorem Valid.addUser (h : r.Valid config) (now : Time) (uid : Bytes) (cfg : UserCfg) :
    (r.addUser now uid cfg).Valid config :=
  ⟨h.config_eq, fun uid' => by simp only [RelayUsers.addUser, Dict.contains_set, h.contains_eq],
    h.ofPortU.setLimit uid cfg.limit now, h.ofPortD.setLimit uid cfg.limit now⟩

theorem Valid.delUser (h : r.Valid config) (uid : Bytes) : (r.delUser uid).Valid config :=
  ⟨h.config_eq, fun uid' => by simp only [RelayUsers.delUser, Dict.contains_del, h.contains_eq],
    h.ofPortU, h.ofPortD⟩

theorem Valid.delMissing (h : r.Valid config) (users : Dict ℕ UserCfg) (uids : List Bytes) :
    (RelayUsers.delMissing users uids r).2.Valid config := by
  induction uids generalizing r with
  | nil => exact h
  | cons uid uids ih =>
    rw [RelayUsers.delMissing]
    cases unpackId uid with
    | error e => exact h
    | ok id =>
      refine ih ?_
      split_ifs
      · exact h
      · exact h.delUser uid

theorem Valid.addAll (h : r.Valid config) (now : Time) (users : List (ℕ × UserCfg)) :
    (RelayUsers.addAll now users r).2.Valid config := by
  induction users generalizing r with
  | nil => exact h
  | cons user users ih =>
    obtain ⟨id, cfg⟩ := user
    rw [RelayUsers.addAll]
    split
    · exact h
    · exact ih (h.addUser now _ cfg)

theorem Valid.updateUsers (h : r.Valid config) (now : Time) (users : Dict ℕ UserCfg) :
    (r.updateUsers now users).2.Valid config := by
  have hdel := h.delMissing users r.serverUsers.keys
  rw [RelayUsers.updateUsers]
  rcases hr : RelayUsers.delMissing users r.serverUsers.keys r with ⟨e | ⟨⟩, r'⟩ <;> rw [hr] at hdel
  · exact hdel
  · exact hdel.addAll now users.entries

theorem valid_new {now : Time} (h : new config now = .ok r) : r.Valid config := by
  have hstart : RelayUsers.Valid config { config } := ⟨rfl, fun _ => rfl, ofPort_empty, ofPort_empty⟩
  have hfold : ∀ (users : List Bytes) {r r' : RelayUsers}, r.Valid config →
      users.foldlM (addParamUser now) r = .ok r' → r'.Valid config := by
    intro users
    induction users with
    | nil =>
      intro r r' hr hr'
      cases hr'
      exact hr
    | cons user users ih =>
      intro r r' hr hr'
      rw [List.foldlM_cons] at hr'
      obtain ⟨r₁, hr₁, hr'⟩ := bind_eq_ok.1 hr'
      refine ih ?_ hr'
      rw [addParamUser] at hr₁
      split at hr₁
      · split at hr₁
        · obtain ⟨uid, -, huid⟩ := bind_eq_ok.1 hr₁
          cases huid
          exact hr.addUser now uid _
        · cases hr₁
      · cases hr₁
        exact hr
  rw [new] at h
  split_ifs at h
  · split at h
    · exact hfold _ hstart h
    · cases h
      exact hstart
  · cases h
    exact hstart

/-- The users after the loops of `update_users`. -/
theorem contains_delMissing {users : Dict ℕ UserCfg} {uids : List Bytes} {uid : Bytes}
    (h : (RelayUsers.delMissing users uids r).2.serverUsers.contains uid = true) :
    r.serverUsers.contains uid = true := by
  induction uids generalizing r with
  | nil => exact h
  | cons uid' uids ih =>
    rw [RelayUsers.delMissing] at h
    split at h
    · exact h
    · have h' := ih h
      split_ifs at h'
      · exact h'
      · simp only [RelayUsers.delUser, Dict.contains_del, Bool.and_eq_true] at h'
        exact h'.2

theorem contains_addAll {now : Time} {users : List (ℕ × UserCfg)} {uid : Bytes}
    (h : (RelayUsers.addAll now users r).2.serverUsers.contains uid = true) :
    r.serverUsers.contains uid = true ∨ ∃ id cfg, (id, cfg) ∈ users ∧ packId id = .ok uid := by
  induction users generalizing r with
  | nil => exact .inl h
  | cons user users ih =>
    obtain ⟨id, cfg⟩ := user
    rw [RelayUsers.addAll] at h
    split at h
    · exact .inl h
    · next uid' hid =>
      rcases ih h with h' | ⟨id', cfg', hmem, hid'⟩
      · simp only [RelayUsers.addUser, Dict.contains_set, Bool.or_eq_true, decide_eq_true_eq] at h'
        rcases h' with rfl | h'
        · exact .inr ⟨id, cfg, List.mem_cons_self, hid⟩
        · exact .inl h'
      · exact .inr ⟨id', cfg', List.mem_cons_of_mem _ hmem, hid'⟩

/-- The bytes of a number are those of this number only. -/
theorem unpackLE_of_packId {id : ℕ} {uid : Bytes} (h : packId id = .ok uid) :
    uid.length = 4 ∧ unpackLE uid = id := by
  rw [packId] at h
  split_ifs at h with hid
  cases h
  rw [Int.toNat_natCast]
  exact ⟨length_packLE _ _, unpackLE_packLE (by norm_num; omega)⟩

theorem contains_updateUsers {now : Time} {users : Dict ℕ UserCfg} {uid : Bytes}
    (h : (r.updateUsers now users).2.serverUsers.contains uid = true) :
    r.serverUsers.contains uid = true ∨
      uid.length = 4 ∧ (users.get? (unpackLE uid)).isSome = true := by
  rw [RelayUsers.updateUsers] at h
  rcases hr : RelayUsers.delMissing users r.serverUsers.keys r with ⟨e | ⟨⟩, r'⟩ <;> rw [hr] at h
  · exact .inl (contains_delMissing (by rw [hr]; exact h))
  · rcases contains_addAll h with h' | ⟨id, cfg, hmem, hid⟩
    · exact .inl (contains_delMissing (by rw [hr]; exact h'))
    · obtain ⟨hlen, rfl⟩ := unpackLE_of_packId hid
      exact .inr ⟨hlen, Option.isSome_iff_exists.2 ⟨cfg, Dict.mem_entries.1 hmem⟩⟩

end RelayUsers

/-! ## Runs -/

namespace UserPort

variable {config : PortCfg} {p p' : UserPort} {e : Event}

theorem onConn_eq_some {i : ℕ} {f : UserConn → RelayUsers → UserConn × RelayUsers}
    (h : p.onConn i f = some p') : ∃ c ∈ p.conns,
      p'.relay = (f c p.relay).2 ∧ p'.conns = p.conns.set i (f c p.relay).1 := by
  obtain ⟨c, hc, rfl⟩ := Option.map_eq_some_iff.1 h
  exact ⟨c, List.mem_of_getElem? hc, rfl, rfl⟩

/-- No event makes the two kinds of keys meet. -/
theorem valid_step (hp : p.relay.Valid config) (h : p.step e = some p') : p'.relay.Valid config := by
  obtain ⟨rfl, hcontains, hU, hD⟩ := hp
  cases e with
  | updateUsers now users =>
    cases h
    exact RelayUsers.Valid.updateUsers ⟨rfl, hcontains, hU, hD⟩ now users
  | addUser now uid cfg =>
    cases h
    exact RelayUsers.Valid.addUser ⟨rfl, hcontains, hU, hD⟩ now uid cfg
  | delUser uid =>
    cases h
    exact RelayUsers.Valid.delUser ⟨rfl, hcontains, hU, hD⟩ uid
  | accept now =>
    cases h
    exact ⟨rfl, hcontains, hU, hD⟩
  | login i uid =>
    rw [step] at h
    split_ifs at h
    obtain ⟨c, -, hr, -⟩ := onConn_eq_some h
    rw [hr]
    exact ⟨rfl, hcontains, hU, hD⟩
  | isExceedU i now =>
    rw [step] at h
    obtain ⟨c, -, hr, -⟩ := onConn_eq_some h
    rw [hr]
    dsimp only
    split_ifs
    · exact ⟨rfl, hcontains, hU, hD⟩
    · exact ⟨rfl, hcontains, hU.onTester c.userId now fun t => t.maxSpeed_isExceed now, hD⟩
  | isExceedD i now =>
    rw [step] at h
    obtain ⟨c, -, hr, -⟩ := onConn_eq_some h
    rw [hr]
    dsimp only
    split_ifs
    · exact ⟨rfl, hcontains, hU, hD⟩
    · exact ⟨rfl, hcontains, hU, hD.onTester c.userId now fun t => t.maxSpeed_isExceed now⟩
  | addU i now dataLen =>
    rw [step] at h
    obtain ⟨c, -, hr, -⟩ := onConn_eq_some h
    rw [hr]
    exact ⟨rfl, hcontains, hU.onTester c.userId now
      (f := fun t => t.add now dataLen) fun t => t.maxSpeed_add now dataLen, hD⟩
  | addD i now dataLen =>
    rw [step] at h
    obtain ⟨c, -, hr, -⟩ := onConn_eq_some h
    rw [hr]
    exact ⟨rfl, hcontains, hU, hD.onTester c.userId now
      (f := fun t => t.add now dataLen) fun t => t.maxSpeed_add now dataLen⟩

/-- The users of the table and of the connections are among some. -/
structure Among (G : Bytes → Prop) (p : UserPort) : Prop where
  users : ∀ uid, p.relay.serverUsers.contains uid = true → G uid
  conns : ∀ c ∈ p.conns, ∀ uid, c.user = some uid → G uid

theorem Among.mono {G G' : Bytes → Prop} (h : p.Among G) (hG : ∀ uid, G uid → G' uid) :
    p.Among G' :=
  ⟨fun uid hu => hG uid (h.users uid hu), fun c hc uid hu => hG uid (h.conns c hc uid hu)⟩

/-- An event of a connection that does not change the table of users. -/
theorem Among.onConn {G : Bytes → Prop} (hp : p.Among G) {i : ℕ}
    {f : UserConn → RelayUsers → UserConn × RelayUsers} (h : p.onConn i f = some p')
    (hr : ∀ c, (f c p.relay).2.serverUsers = p.relay.serverUsers)
    (hc : ∀ c uid, (f c p.relay).1.user = some uid → c.user = some uid ∨ G uid) : p'.Among G := by
  obtain ⟨c, hmem, hrelay, hconns⟩ := onConn_eq_some h
  refine ⟨fun uid hu => hp.users uid ?_, fun c' hc' uid hu => ?_⟩
  · rw [hrelay, hr] at hu
    exact hu
  · rw [hconns] at hc'
    rcases List.mem_or_eq_of_mem_set hc' with hc' | rfl
    · exact hp.conns c' hc' uid hu
    · exact (hc c uid hu).elim (hp.conns c hmem uid) id

theorem user_updateUser (c : UserConn) (r : RelayUsers) (user : Bytes) :
    (c.updateUser r user).2.user = some user := by
  rw [UserConn.updateUser]
  split
  · rfl
  · split <;> rfl

/-- The users after an event had been given a configuration before, or are given one by it. -/
theorem Among.step {G : Bytes → Prop} (hp : p.Among G) (h : p.step e = some p') :
    p'.Among fun uid => G uid ∨ (given uid e).isSome = true := by
  have hp' : p.Among fun uid => G uid ∨ (given uid e).isSome = true := hp.mono fun _ => .inl
  cases e with
  | updateUsers now users =>
    cases h
    refine ⟨fun uid hu => ?_, hp'.conns⟩
    rcases RelayUsers.contains_updateUsers hu with hu | ⟨hlen, hget⟩
    · exact hp'.users uid hu
    · exact .inr (by rw [given, if_pos hlen]; exact hget)
  | addUser now uid cfg =>
    cases h
    refine ⟨fun uid' hu => ?_, hp'.conns⟩
    simp only [RelayUsers.addUser, Dict.contains_set, Bool.or_eq_true, decide_eq_true_eq] at hu
    rcases hu with rfl | hu
    · exact .inr (by rw [given, if_pos rfl]; rfl)
    · exact hp'.users uid' hu
  | delUser uid =>
    cases h
    refine ⟨fun uid' hu => hp'.users uid' ?_, hp'.conns⟩
    simp only [RelayUsers.delUser, Dict.contains_del, Bool.and_eq_true] at hu
    exact hu.2
  | accept now =>
    cases h
    refine ⟨hp'.users, fun c hc uid hu => ?_⟩
    rcases List.mem_append.1 hc with hc | hc
    · exact hp'.conns c hc uid hu
    · rw [List.mem_singleton.1 hc] at hu
      cases hu
  | login i uid =>
    rw [UserPort.step] at h
    split_ifs at h with huser
    refine hp'.onConn h (fun _ => rfl) fun c uid' hu => .inr (.inl ?_)
    rw [user_updateUser] at hu
    cases hu
    exact hp.users uid huser
  | isExceedU i now =>
    rw [UserPort.step] at h
    refine hp'.onConn h (fun c => ?_) fun c uid hu => .inl ?_
    · dsimp only
      split_ifs <;> rfl
    · dsimp only at hu
      split_ifs at hu <;> exact hu
  | isExceedD i now =>
    rw [UserPort.step] at h
    refine hp'.onConn h (fun c => ?_) fun c uid hu => .inl ?_
    · dsimp only
      split_ifs <;> rfl
    · dsimp only at hu
      split_ifs at hu <;> exact hu
  | addU i now dataLen =>
    rw [UserPort.step] at h
    exact hp'.onConn h (fun _ => rfl) fun _ _ hu => .inl hu
  | addD i now dataLen =>
    rw [UserPort.step] at h
    exact hp'.onConn h (fun _ => rfl) fun _ _ hu => .inl hu

theorem latest_concat (r : RelayUsers) (events : List Event) (e : Event) (uid : Bytes) :
    latest r (events ++ [e]) uid = (given uid e).or (latest r events uid) := by
  rw [latest, List.reverse_append, List.reverse_singleton, List.singleton_append,
    List.findSome?_cons]
  cases given uid e <;> rfl

/-- Every user of a connection has been given a configuration, and the keys do not meet. -/
theorem exec_spec {now : Time} {r : RelayUsers} (hr : RelayUsers.new config now = .ok r)
    {events : List Event} (h : Run.exec step { relay := r } events = some p) :
    p.relay.Valid config ∧ p.Among fun uid => (latest r events uid).isSome = true := by
  induction events using List.reverseRecOn generalizing p with
  | nil =>
    cases h
    have hvalid := RelayUsers.valid_new hr
    refine ⟨hvalid, fun uid hu => ?_, fun c hc => nomatch hc⟩
    rw [hvalid.contains_eq] at hu
    exact hu
  | append_singleton events e ih =>
    obtain ⟨p₁, hp₁, hstep⟩ := Run.exec_append_eq_some.1 h
    rw [Run.exec_singleton] at hstep
    obtain ⟨hvalid, hamong⟩ := ih hp₁
    refine ⟨valid_step hvalid hstep, (hamong.step hstep).mono fun uid hu => ?_⟩
    rw [latest_concat, Option.isSome_or, Bool.or_eq_true]
    exact hu.symm

/-- The user of a connection has been given a configuration, and the limiters that the connection
    consults have its limit if and only if the limit is that of the port. -/
theorem limit_enforced_iff {now : Time} {r : RelayUsers} (hr : RelayUsers.new config now = .ok r)
    {events : List Event} (h : Run.exec step { relay := r } events = some p) :
    ∀ c ∈ p.conns, ∀ uid, c.user = some uid → ∃ cfg, latest r events uid = some cfg ∧
      (p.relay.Enforced c cfg ↔ cfg.limit = config.limit) := by
  intro c hc uid hu
  obtain ⟨⟨rfl, -, hU, hD⟩, hamong⟩ := exec_spec hr h
  obtain ⟨cfg, hcfg⟩ := Option.isSome_iff_exists.1 (hamong.conns c hc uid hu)
  refine ⟨cfg, hcfg, fun henf => ?_, fun heq now => ?_⟩
  · have hspeed := (henf 0).1
    rw [hU.maxSpeed_speedTester] at hspeed
    have hcast : (p.relay.config.limit : ℚ) = cfg.limit := by linarith
    exact_mod_cast hcast.symm
  · rw [hU.maxSpeed_speedTester, hD.maxSpeed_speedTester, heq]
    exact ⟨rfl, rfl⟩

/-- A port of a protocol with many users, the parameter of which is `#`. -/
def muPort (speedLimitPerUser : Option ℤ) : PortCfg where
  protocolParam := [35]
  muProtocol := true
  listenPort := 443
  speedLimitPerUser := speedLimitPerUser

/-- A user gets a configuration, and makes a connection. -/
def oneLogin (cfg : UserCfg) : List Event :=
  [.addUser 0 [7, 0, 0, 0] cfg, .accept 0, .login 0 [7, 0, 0, 0]]

theorem limit_enforced_iff_five : ∃ r p c, RelayUsers.new (muPort (some 5)) 0 = .ok r ∧
    Run.exec step { relay := r } (oneLogin { password := [1], speedLimitPerUser := some 5 }) = some p ∧
    c ∈ p.conns ∧ p.relay.Enforced c { password := [1], speedLimitPerUser := some 5 } := by
  obtain ⟨r, hr⟩ : ∃ r, RelayUsers.new (muPort (some 5)) 0 = .ok r := ⟨_, rfl⟩
  cases hr
  refine ⟨_, _, _, rfl, rfl, List.mem_cons_self, ?_⟩
  obtain ⟨cfg, hcfg, hiff⟩ := @limit_enforced_iff (muPort (some 5)) _ 0 _ rfl
    (oneLogin { password := [1], speedLimitPerUser := some 5 }) rfl _ List.mem_cons_self
    [7, 0, 0, 0] rfl
  cases hcfg
  exact hiff.2 rfl

/-- The user's limit is 100, the port has none: the connection of the user has no limit. -/
theorem not_limit_enforced :
    ¬∀ (config : PortCfg) (now : Time) (r : RelayUsers) (events : List Event) (p : UserPort),
      RelayUsers.new config now = .ok r → Run.exec step { relay := r } events = some p →
      ∀ c ∈ p.conns, ∀ uid, c.user = some uid → ∃ cfg, latest r events uid = some cfg ∧
        p.relay.Enforced c cfg := by
  intro h
  obtain ⟨cfg, hcfg, henforced⟩ := h (muPort none) 0 _
    (oneLogin { password := [1], speedLimitPerUser := some 100 }) _ rfl rfl _ List.mem_cons_self
    [7, 0, 0, 0] rfl
  cases hcfg
  exact absurd (henforced 0).1 (by decide +kernel)

end UserPort

end ShadowsocksR

import ShadowsocksR.Common
import ShadowsocksR.Inet.Texts

/-!
# The rows of the users

Every round, `del_server_out_of_bound_safe` gets the users from the database: a row for every port.
A row may override values of the configuration of the server, and it may be that of a port with many
users.

* `Row.cfg`: the values that a row overrides;
* `Row.isMu`: whether its port is one with many users;
* `differs`: the loop over `merge_config_keys` that compares the overrides with a configuration;
* `differs_eq_ok_false`, `differs_eq_error`: when there is no difference, and when it raises.
-/

namespace ShadowsocksR

namespace DbServers

/-- The names in `merge_config_keys`. -/
inductive Name
  | password
  | method
  | obfs
  | obfsParam
  | protocol
  | protocolParam
  | forbiddenIp
  | forbiddenPort
  | speedLimitPerCon
  | speedLimitPerUser
  deriving DecidableEq

def mergeConfigKeys : List Name :=
  [.password, .method, .obfs, .obfsParam, .protocol, .protocolParam, .forbiddenIp, .forbiddenPort,
    .speedLimitPerCon, .speedLimitPerUser]

theorem mem_mergeConfigKeys (n : Name) : n ∈ mergeConfigKeys := by cases n <;> decide

/-! ## Values -/

/-- A value of a row or of a configuration. A `bytes` object is the text that it encodes. -/
inductive Value
  | text (s : Text)
  | int (n : ℤ)
  /-- An `IPNetwork`, with its `addrs_str`. -/
  | network (addrsStr : Text)
  /-- A `PortRange`, with its `range_str`. -/
  | ports (rangeStr : Text)
  deriving DecidableEq

namespace Value

/-- `if row[name]` -/
def truthy : Value → Bool
  | text s => s ≠ []
  | int n => n ≠ 0
  | network _ => true
  | ports _ => true

/-- `cmp`. An `IPNetwork` and a `PortRange` look for a field that only their own kind has. -/
def cmp : Value → Value → Except PyExc Bool
  | network a, network b => .ok (a = b)
  | ports a, ports b => .ok (a = b)
  | network _, _ => .error .attributeError
  | ports _, _ => .error .attributeError
  | _, network _ => .error .attributeError
  | _, ports _ => .error .attributeError
  | v, v' => .ok (v = v')

/-- The values of which `cmp` makes no error. -/
def Comparable : Value → Value → Prop
  | network _, network _ => True
  | ports _, ports _ => True
  | text _, text _ => True
  | text _, int _ => True
  | int _, text _ => True
  | int _, int _ => True
  | _, _ => False

theorem cmp_eq_ok_true {v v' : Value} : cmp v v' = .ok true ↔ v = v' := by
  cases v <;> cases v' <;> simp [cmp]

theorem cmp_eq_error {v v' : Value} : (∃ e, cmp v v' = .error e) ↔ ¬ v.Comparable v' := by
  cases v <;> cases v' <;> simp [cmp, Comparable]

/-- `'#' in to_str(value)` -/
def hasHash : Value → Except PyExc Bool
  | text s => .ok ('#' ∈ s)
  | int _ => .error .typeError
  -- `__contains__` of both knows only addresses and ports.
  | network _ => .ok false
  | ports _ => .ok false

end Value

/-- `mu_protocol` -/
def muProtocol : List Text :=
  ["auth_aes128_md5".toList, "auth_aes128_sha1".toList, "auth_chain_a".toList,
    "auth_chain_b".toList, "auth_chain_c".toList, "auth_chain_d".toList, "auth_chain_e".toList,
    "auth_chain_f".toList, "auth_akarin_rand".toList, "auth_akarin_spec_a".toList]

/-- `to_str(value) in mu_protocol()`; objects that are neither texts nor numbers have no hash. -/
def Value.isMuProtocol : Value → Except PyExc Bool
  | .text s => .ok (muProtocol.contains s)
  | .int _ => .ok false
  | .network _ => .error .typeError
  | .ports _ => .error .typeError

/-! ## Rows -/

/-- The values of a configuration at these names. -/
abbrev Config := Name → Option Value

/-- `config.update(cfg)` -/
def Config.update (config cfg : Config) : Config := fun n => (cfg n).or (config n)

/-- A row. The keys that it need not have are optional. -/
structure Row where
  port : ℤ
  passwd : Text
  enable : Option ℤ := none
  u : Option ℤ := none
  d : Option ℤ := none
  transferEnable : Option ℤ := none
  id : Option ℤ := none
  /-- The other columns that are read. -/
  columns : Config := fun _ => none

/-- `isTurnOn` of the rules that are there; by `getRowMap` no column has another name. -/
def isTurnOn (_ : Row) : Bool := true

namespace Row

/-- `allow`, as it is at first. A key that is missing raises, and makes it false. -/
def allow (row : Row) : Bool :=
  match row.enable, row.u, row.d, row.transferEnable with
  | some enable, some u, some d, some transferEnable =>
    isTurnOn row && enable == 1 && decide (u + d < transferEnable)
  | _, _, _, _ => false

/-- `cfg` -/
def cfg (row : Row) : Config
  | .password => some (.text row.passwd)
  | n => (row.columns n).filter Value.truthy

/-- The port is put into `mu_servers`. -/
def isMu (row : Row) : Except PyExc Bool :=
  match row.cfg .protocol, row.cfg .protocolParam with
  | some protocol, some protocolParam => do
    if ← protocol.isMuProtocol then protocolParam.hasHash else pure false
  | _, _ => pure false

/-- The protocol is a text or a number, and with one for many users `protocol_param` is no number. -/
def Readable (row : Row) : Prop :=
  ∀ protocol protocolParam, row.cfg .protocol = some protocol →
    row.cfg .protocolParam = some protocolParam →
    (∃ s, protocol = .text s ∧ (s ∈ muProtocol → ∀ n, protocolParam ≠ .int n)) ∨
      ∃ n, protocol = .int n

theorem cfg_password (row : Row) : row.cfg .password = some (.text row.passwd) := rfl

theorem isMu_returns_iff {row : Row} : (∃ mu, row.isMu = .ok mu) ↔ row.Readable := by
  rw [isMu, Readable]
  cases row.cfg .protocol with
  | none => simp [pure, Except.pure]
  | some protocol =>
    cases row.cfg .protocolParam with
    | none => simp [pure, Except.pure]
    | some protocolParam =>
      have hread : (∀ p q, some protocol = some p → some protocolParam = some q →
          (∃ s, p = .text s ∧ (s ∈ muProtocol → ∀ n, q ≠ .int n)) ∨ ∃ n, p = .int n) ↔
          (∃ s, protocol = .text s ∧ (s ∈ muProtocol → ∀ n, protocolParam ≠ .int n)) ∨
            ∃ n, protocol = .int n := by simp
      rw [hread]
      cases protocol with
      | text s =>
        by_cases hs : s ∈ muProtocol
        · cases protocolParam <;> simp [Value.isMuProtocol, Value.hasHash, hs, bind, Except.bind]
        · simp [Value.isMuProtocol, hs, bind, Except.bind, pure, Except.pure]
      | int n => simp [Value.isMuProtocol, bind, Except.bind, pure, Except.pure]
      | network a => simp [Value.isMuProtocol, bind, Except.bind]
      | ports a => simp [Value.isMuProtocol, bind, Except.bind]

end Row

/-! ## Overrides and configurations -/

/-- One comparison: `missing` is what comes of a name that the configuration does not have. -/
def compare (missing : Except PyExc Bool) (config cfg : Config) (n : Name) : Except PyExc Bool :=
  match cfg n with
  | none => .ok true
  | some v =>
    match config n with
    | some v' => v.cmp v'
    | none => missing

/-- Whether one of the overrides differs; the loop ends at the first that does. -/
def differs (missing : Except PyExc Bool) (config cfg : Config) : List Name → Except PyExc Bool
  | [] => .ok false
  | n :: ns => do
    if ← compare missing config cfg n then differs missing config cfg ns else pure true

/-- `relay._config[name]`, of the IPv4 relay, for a name that is not there. -/
def missingIpv4 : Except PyExc Bool := .error .keyError

/-- The IPv6 relay is asked whether it has the name. -/
def missingIpv6 : Except PyExc Bool := .ok false

/-- The configuration has the override of this name, if there is one. -/
def SameAt (config cfg : Config) (n : Name) : Prop := ∀ v, cfg n = some v → config n = some v

/-- The configuration has all overrides. -/
def Same (config cfg : Config) : Prop := ∀ n, SameAt config cfg n

/-- An override cannot be compared: its name is missing where that raises, or the configuration has
    a value of another kind. -/
def StumblesAt (missing : Except PyExc Bool) (config cfg : Config) (n : Name) : Prop :=
  ∃ v, cfg n = some v ∧ ((config n = none ∧ ∃ e, missing = .error e) ∨
    ∃ v', config n = some v' ∧ ¬ v.Comparable v')

/-- One cannot be compared, and all before it are as they should be. -/
def Stumbles (missing : Except PyExc Bool) (config cfg : Config) : Prop :=
  ∃ before n after, mergeConfigKeys = before ++ n :: after ∧ (∀ m ∈ before, SameAt config cfg m) ∧
    StumblesAt missing config cfg n

section

variable {missing : Except PyExc Bool} {config cfg : Config}

theorem compare_eq_ok_true (h : missing ≠ .ok true) {n : Name} :
    compare missing config cfg n = .ok true ↔ SameAt config cfg n := by
  rw [compare, SameAt]
  cases hcfg : cfg n with
  | none => simp
  | some v =>
    cases hconfig : config n with
    | none => simpa using h
    | some v' =>
      refine Value.cmp_eq_ok_true.trans ⟨fun heq w hw => ?_, fun heq => ?_⟩
      · cases hw
        rw [heq]
      · exact (Option.some.inj (heq v rfl)).symm

theorem compare_eq_error {n : Name} :
    (∃ e, compare missing config cfg n = .error e) ↔ StumblesAt missing config cfg n := by
  rw [compare, StumblesAt]
  cases cfg n with
  | none => simp
  | some v =>
    cases config n with
    | none => simp
    | some v' => simp [Value.cmp_eq_error]

theorem differs_eq_ok_false (h : missing ≠ .ok true) {ns : List Name} :
    differs missing config cfg ns = .ok false ↔ ∀ n ∈ ns, SameAt config cfg n := by
  induction ns with
  | nil => simp [differs]
  | cons n ns ih =>
    rw [differs, List.forall_mem_cons, ← ih, ← compare_eq_ok_true h]
    cases compare missing config cfg n with
    | error e => exact ⟨fun h => (by cases h), fun h => (by cases h.1)⟩
    | ok same =>
      cases same with
      | true => exact (and_iff_right rfl).symm
      | false => exact ⟨fun h => (by cases h), fun h => (by cases h.1)⟩

/-- The loop raises at a name when the configuration has all overrides before it. -/
theorem differs_eq_error (h : missing ≠ .ok true) {ns : List Name} :
    (∃ e, differs missing config cfg ns = .error e) ↔
      ∃ before n after, ns = before ++ n :: after ∧ (∀ m ∈ before, SameAt config cfg m) ∧
        StumblesAt missing config cfg n := by
  simp only [← compare_eq_error]
  induction ns with
  | nil => simp [differs]
  | cons n ns ih =>
    rw [differs]
    cases hn : compare missing config cfg n with
    | error e =>
      exact iff_of_true ⟨e, rfl⟩ ⟨[], n, ns, rfl, fun _ h => absurd h List.not_mem_nil, e, hn⟩
    | ok same =>
      cases same with
      | true =>
        refine ih.trans ⟨fun ⟨before, m, after, hns, hsame, he⟩ => ?_, fun hex => ?_⟩
        · exact ⟨n :: before, m, after, by rw [hns]; rfl,
            List.forall_mem_cons.2 ⟨(compare_eq_ok_true h).1 hn, hsame⟩, he⟩
        · obtain ⟨before, m, after, hns, hsame, e, he⟩ := hex
          cases before with
          | nil =>
            cases hns
            cases hn.symm.trans he
          | cons m' before =>
            cases hns
            exact ⟨before, m, after, rfl, fun m hm => hsame m (List.mem_cons_of_mem _ hm), e, he⟩
      | false =>
        refine iff_of_false (fun ⟨e, he⟩ => by cases he) fun hex => ?_
        obtain ⟨before, m, after, hns, hsame, e, he⟩ := hex
        cases before with
        | nil =>
          cases hns
          cases hn.symm.trans he
        | cons m' before =>
          cases hns
          cases hn.symm.trans ((compare_eq_ok_true h).2 (hsame _ List.mem_cons_self))

end

end DbServers

end ShadowsocksR

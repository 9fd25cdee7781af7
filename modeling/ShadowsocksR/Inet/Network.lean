import ShadowsocksR.Inet.IsIp
import Mathlib.NumberTheory.Padics.PadicVal.Basic

/-!
# Lists of networks

`IPNetwork`, made from the text of a configuration: addresses, each with how many of its first bits
an address of the network has. An address without such a number stands for all that differ from it
only where it ends in zeros.

* `addNetworkText`, `ofText`, `containsText`: the networks, and the addresses in them, as texts;
* `implicitPrefix_eq`: the zeros at the end of an address;
* `containsText_ofText`: the addresses that are in a list of networks.
-/

namespace ShadowsocksR

/-! ## Numbers of addresses -/

/-- `hi, lo = struct.unpack("!QQ", ip)`, and `(hi << 64) | lo` -/
def unpackQQ (ip : Bytes) : ℕ := unpackBE (ip.take 8) <<< 64 ||| unpackBE (ip.drop 8)

theorem unpackQQ_eq {ip : Bytes} (h : ip.length = 16) : unpackQQ ip = unpackBE ip := by
  have hlo := unpackBE_lt (ip.drop 8)
  rw [List.length_drop, h] at hlo
  have happend := unpackBE_append (ip.take 8) (ip.drop 8)
  rw [List.take_append_drop, List.length_drop, h] at happend
  rw [unpackQQ, ← Nat.shiftLeft_add_eq_or_of_lt (by omega), Nat.shiftLeft_eq, happend]
  ring

/-- The zeros at the end of a number are the power of two in it. -/
theorem IPNetwork.implicitPrefix_eq {fuel ip : ℕ} (h : ip < 2 ^ fuel) :
    IPNetwork.implicitPrefix fuel ip = (ip >>> padicValNat 2 ip, padicValNat 2 ip) := by
  induction fuel generalizing ip with
  | zero =>
    rw [show ip = 0 by omega]
    simp [implicitPrefix]
  | succ fuel ih =>
    rw [implicitPrefix]
    split_ifs with heven
    · obtain ⟨k, rfl⟩ : 2 ∣ ip := Nat.dvd_of_mod_eq_zero heven.1
      have hk : k ≠ 0 := fun hk => heven.2 (by rw [hk])
      have hval : padicValNat 2 (2 * k) = padicValNat 2 k + 1 := by
        rw [padicValNat.mul (by omega) hk, padicValNat_self, Nat.add_comm]
      rw [hval, Nat.shiftRight_succ_inside, Nat.mul_div_cancel_left k (by omega),
        ih (by rw [pow_succ] at h; omega)]
    · have hval : padicValNat 2 ip = 0 := by
        rcases Nat.eq_zero_or_pos ip with rfl | hpos
        · simp
        · exact padicValNat.eq_zero_of_not_dvd fun hdvd =>
            heven ⟨Nat.mod_eq_zero_of_dvd hdvd, by omega⟩
      rw [hval]
      rfl

/-! ## Networks as texts -/

namespace InetAton

variable (P : InetAton) (u : UnicodeData) (calls : ℕ)

/-- `is_ip(addr)`, and the number of the address -/
def readAddress (addr : Text) : Except PyExc (Option IPAddr) := do
  match ← P.isIp u calls addr with
  | some .inet => return some (.v4 (unpackBE (← P.aton addr)))
  | some .inet6 => return some (.v6 (unpackQQ (← P.inetPton6 u calls addr)))
  | none => return none

/-- What follows the slash, if there is one. -/
def readBlock : List Text → Except PyExc (Option ℕ)
  | _ :: size :: _ =>
    if size ≠ [] ∧ size.all u.isDigit then
      match u.int 10 size with
      | some n => .ok (some n.toNat)
      | none => .error .valueError
    else .error .exception
  | _ => .ok none

/-- `IPNetwork.add_network` -/
def addNetworkText (n : IPNetwork) (addr : Text) : Except PyExc IPNetwork :=
  if addr = [] then .ok n
  else do
    let block := addr.splitOn '/'
    match ← P.readAddress u calls (block.headD []) with
    | some ip => n.addNetwork ip (← readBlock u block)
    | none => .error .exception

/-- `IPNetwork(addrs)` -/
def ofText (addrs : Text) : Except PyExc IPNetwork :=
  (addrs.splitOn ',').foldlM (P.addNetworkText u calls) {}

/-- `addr in network` -/
def containsText (n : IPNetwork) (addr : Text) : Except PyExc Bool := do
  match ← P.readAddress u calls addr with
  | some ip => return n.contains ip
  | none => return false

end InetAton

/-! ## Entries -/

/-- The texts of addresses. -/
inductive IsAddress : Text → IPAddr → Prop
  | v4 {b : Bytes} : b.length = 4 → IsAddress (inetNtoa b) (.v4 (unpackBE b))
  | v6 {s : Text} {b : Bytes} : IsIPv6Text s b → IsAddress s (.v6 (unpackBE b))

/-- The entries of a list: the address of a network, and how many of the last bits of an address are
    not compared with it. -/
inductive IsEntry : Text → IPAddr → ℕ → Prop
  | bare {s : Text} {a : IPAddr} :
    IsAddress s a → IsEntry s a (padicValNat 2 (IPNetwork.bits a))
  | block {s : Text} {a : IPAddr} {size : Text} :
    IsAddress s a → size ≠ [] → (∀ c ∈ size, c.isDigit) →
    digitsValue 10 size ≤ a.family.addrLength →
    IsEntry (s ++ '/' :: size) a (a.family.addrLength - digitsValue 10 size)

/-- An address with its text. -/
structure Address where
  text : Text
  addr : IPAddr
  isAddress : IsAddress text addr

/-- An entry of a list, with what it says. -/
structure Entry where
  text : Text
  addr : IPAddr
  shift : ℕ
  isEntry : IsEntry text addr shift

/-- The address is one of the network. -/
def Entry.Covers (e : Entry) (a : IPAddr) : Prop :=
  e.addr.family = a.family ∧
    IPNetwork.bits a >>> e.shift = IPNetwork.bits e.addr >>> e.shift

section

variable (P : InetAton) (u : UnicodeData) (depth : ℕ) {s : Text} {a : IPAddr} {k : ℕ}

theorem readAddress_of_isAddress (h : IsAddress s a) :
    P.readAddress u (depth + 2) s = .ok (some a) := by
  cases h with
  | v4 hb =>
    have haton := P.aton_ntoa hb
    rw [InetAton.readAddress, InetAton.isIp, haton]
    rfl
  | @v6 _ b hs =>
    rw [InetAton.readAddress, InetAton.isIp_of_isIPv6Text P u depth hs]
    show P.inetPton6 u (depth + 2) s >>= _ = _
    rw [inetPton6_of_isIPv6Text P u depth hs]
    show Except.ok (some (IPAddr.v6 (unpackQQ b))) = _
    rw [unpackQQ_eq hs.length_eq]

theorem bits_lt (h : IsAddress s a) : IPNetwork.bits a < 2 ^ a.family.addrLength := by
  cases h with
  | @v4 b hb =>
    have := unpackBE_lt b
    rw [hb] at this
    exact this
  | @v6 _ b hs =>
    have := unpackBE_lt b
    rw [hs.length_eq] at this
    exact this

/-- The characters of an address. -/
theorem IsAddress.not_mem (h : IsAddress s a) {c : Char} (hcolon : c ≠ ':') (hdot : c ≠ '.')
    (hc : ¬IsDigit 16 c) : c ∉ s := by
  intro hmem
  cases h with
  | @v4 b hb =>
    rcases mem_intercalate hmem with hmem | ⟨t, ht, hmem⟩
    · exact hdot hmem
    · obtain ⟨b', -, rfl⟩ := List.mem_map.1 ht
      exact hc (isDigit_of_isDigit (by omega)
        (Nat.isDigit_of_mem_toDigits (by omega) (by omega) hmem))
  | v6 hs =>
    rcases hs.mem hmem with hmem | hmem | hmem
    · exact hcolon hmem
    · exact hdot hmem
    · exact hc hmem

theorem IsAddress.ne_nil (h : IsAddress s a) : s ≠ [] := by
  cases h with
  | @v4 b hb =>
    intro hnil
    have hlen := congrArg List.length (splitOn_inetNtoa hb)
    rw [hnil, List.length_map, hb] at hlen
    cases hlen
  | v6 hs => exact List.ne_nil_of_mem hs.colon_mem

end

/-! ## Networks -/

section

variable (P : InetAton) (u : UnicodeData) (depth : ℕ) {s : Text} {a : IPAddr} {k : ℕ}

/-- `int` of what follows the slash. -/
theorem readBlock_of_digits {size : Text} (hne : size ≠ []) (h : ∀ c ∈ size, c.isDigit) (s : Text) :
    InetAton.readBlock u [s, size] = .ok (some (digitsValue 10 size)) := by
  have hall : size.all u.isDigit = true := by
    rw [List.all_eq_true]
    intro c hc
    have hdigit := toNat_of_isDigit (h c hc)
    rw [u.isDigit_ascii c (by omega)]
    exact h c hc
  rw [InetAton.readBlock, if_pos ⟨hne, hall⟩,
    int_of_digits u (by omega) (fun c hc => isDigit_of_isDigit (Nat.le_refl 10) (h c hc)) hne]
  rfl

theorem addNetworkText_of_isEntry (h : IsEntry s a k) (n : IPNetwork) :
    ∃ n', P.addNetworkText u (depth + 2) n s = .ok n' ∧ ∀ x, n'.contains x = true ↔
      n.contains x = true ∨
        a.family = x.family ∧ IPNetwork.bits x >>> k = IPNetwork.bits a >>> k := by
  cases h with
  | bare ha =>
    have hsplit : s.splitOn '/' = [s] :=
      List.splitOn_eq_singleton (ha.not_mem (by decide) (by decide) (by decide))
    rw [InetAton.addNetworkText, if_neg ha.ne_nil]
    dsimp only
    rw [hsplit, List.headD_cons, readAddress_of_isAddress P u depth ha]
    apply IPNetwork.contains_of_entry
    rw [IPNetwork.entry, IPNetwork.implicitPrefix_eq (bits_lt ha)]
  | @block s _ size ha hne hsize hle =>
    have hslash : '/' ∉ size := fun hmem => absurd (hsize _ hmem) (by decide)
    have hsplit : (s ++ '/' :: size).splitOn '/' = [s, size] := by
      rw [List.splitOn_append_cons_self_of_not_mem
        (ha.not_mem (by decide) (by decide) (by decide)), List.splitOn_eq_singleton hslash]
    rw [InetAton.addNetworkText, if_neg (by simp)]
    dsimp only
    rw [hsplit, List.headD_cons, readAddress_of_isAddress P u depth ha]
    show ∃ n', (InetAton.readBlock u [s, size] >>= fun block => n.addNetwork a block) = .ok n' ∧ _
    rw [readBlock_of_digits u hne hsize]
    apply IPNetwork.contains_of_entry
    rw [IPNetwork.entry, if_pos hle]

/-- The entries of a list are added one after the other. -/
theorem foldlM_addNetworkText (es : List Entry) (n : IPNetwork) :
    ∃ n', (es.map Entry.text).foldlM (P.addNetworkText u (depth + 2)) n = .ok n' ∧
      ∀ x, n'.contains x = true ↔ n.contains x = true ∨ ∃ e ∈ es, e.Covers x := by
  induction es generalizing n with
  | nil => exact ⟨n, rfl, fun x => by simp⟩
  | cons e es ih =>
    obtain ⟨n₁, h₁, hcontains₁⟩ := addNetworkText_of_isEntry P u depth e.isEntry n
    obtain ⟨n₂, h₂, hcontains₂⟩ := ih n₁
    refine ⟨n₂, ?_, fun x => ?_⟩
    · rw [List.map_cons, List.foldlM_cons, h₁]
      exact h₂
    · rw [hcontains₂, hcontains₁]
      simp only [List.exists_mem_cons_iff, or_assoc, Entry.Covers]

theorem IsEntry.comma_not_mem (h : IsEntry s a k) : ',' ∉ s := by
  cases h with
  | bare ha => exact ha.not_mem (by decide) (by decide) (by decide)
  | block ha _ hsize _ =>
    intro hmem
    rcases List.mem_append.1 hmem with hmem | hmem
    · exact ha.not_mem (by decide) (by decide) (by decide) hmem
    · rcases List.mem_cons.1 hmem with hmem | hmem
      · exact absurd hmem (by decide)
      · exact absurd (hsize _ hmem) (by decide)

theorem ofText_eq (es : List Entry) : P.ofText u (depth + 2) ([','].intercalate (es.map Entry.text)) =
    (es.map Entry.text).foldlM (P.addNetworkText u (depth + 2)) {} := by
  cases es with
  | nil => rfl
  | cons e es =>
    rw [InetAton.ofText, List.splitOn_intercalate ',' ?_ (by simp)]
    intro s hs
    obtain ⟨e', -, rfl⟩ := List.mem_map.1 hs
    exact e'.isEntry.comma_not_mem

/-- An address is in a list of networks if one of its entries has the family of the address, and
    begins like it. -/
theorem containsText_ofText (es : List Entry) (x : Address) :
    ∃ n, P.ofText u (depth + 2) ([','].intercalate (es.map Entry.text)) = .ok n ∧
      ∃ r, P.containsText u (depth + 2) n x.text = .ok r ∧
        (r = true ↔ ∃ e ∈ es, e.Covers x.addr) := by
  obtain ⟨n, hn, hcontains⟩ := foldlM_addNetworkText P u depth es {}
  refine ⟨n, (ofText_eq P u depth es).trans hn, n.contains x.addr, ?_, ?_⟩
  · rw [InetAton.containsText, readAddress_of_isAddress P u depth x.isAddress]
    rfl
  · rw [hcontains]
    have hempty : IPNetwork.contains {} x.addr = false := by
      cases x.addr <;> rfl
    simp [hempty]

end

end ShadowsocksR

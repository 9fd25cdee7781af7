import ShadowsocksR.Inet.IPv6Text

/-!
# What is an IP address

`is_ip` tells an address from the name of a host by whether `inet_pton` raises an exception. It
does what it should for the texts of addresses, and for those that `inet_pton` refuses with
`ValueError` or `OSError` (`Refuses`). Others are taken for an address, as `cafe`, or raise an
exception that nothing handles, as a text of nine groups.

* `rejects_inetPton6_iff`: `Refuses` is what `inet_pton` refuses;
* `isIp_spec_iff`: where `inet_pton` and `is_ip` do what they should.
-/

namespace ShadowsocksR

/-- The call raises `ValueError` or `OSError`. -/
def Rejects {α : Type} (r : Except PyExc α) : Prop :=
  ∃ e, r = .error e ∧ (e = .valueError ∨ e = .osError)

theorem not_rejects_ok {α : Type} (a : α) : ¬Rejects (.ok a : Except PyExc α) := by
  rintro ⟨e, h, -⟩
  cases h

theorem rejects_error {α : Type} {e : PyExc} :
    Rejects (.error e : Except PyExc α) ↔ e = .valueError ∨ e = .osError := by
  constructor
  · rintro ⟨e', h, he⟩
    cases h
    exact he
  · exact fun he => ⟨e, rfl, he⟩

/-! ## Texts that are refused -/

/-- Of a text without a dot: a group that is read is no number, or one that stays in the table is
    none of 16 bits. The loops read no group after the one that has no place. -/
def UnicodeData.RefusesGroups (u : UnicodeData) (s : Text) : Prop :=
  u.Unread 9 (leftGroups s) ∨ (leftGroups s).length ≤ 8 ∧
    (u.Unread 17 (rightGroups s) ∨ (rightGroups s).length ≤ 16 ∧
      ∃ n ∈ cells (u.groups (leftGroups s)) (u.groups (rightGroups s)), ¬IsWord n)

namespace InetAton

variable (P : InetAton) (u : UnicodeData)

/-- One of the texts that so many calls read as IPv4 addresses is none: after the first one, the
    last two bytes of the address before it. -/
def RefusesWithin : ℕ → Text → Prop
  | 0, _ => False
  | calls + 1, t => ∀ v4addr, P.aton t = .ok v4addr →
      RefusesWithin calls ((v4addr.drop 2).flatMap hexByte)

/-- The texts that are refused. With a dot before the last colon, `inet_pton` calls itself until
    something is no IPv4 address. -/
def Refuses (calls : ℕ) (s : Text) : Prop :=
  if '.' ∈ s then
    ':' ∈ s →
      let head := s.rdropWhile (· ≠ ':')
      let tail := s.rtakeWhile (· ≠ ':')
      if '.' ∈ head then P.RefusesWithin calls tail
      else ∀ v4addr, P.aton tail = .ok v4addr → u.RefusesGroups (head ++ hexQuad v4addr)
  else u.RefusesGroups s

variable {P u} {depth : ℕ} {s : Text}

theorem rejects_of_aton {t : Text} {e : PyExc} (h : P.aton t = .error e) :
    e = .valueError ∨ e = .osError := (P.error_aton h).symm

theorem rejects_inetPton6_of_not_dot (hs : '.' ∉ s) :
    Rejects (P.inetPton6 u (depth + 1) s) ↔ u.RefusesGroups s := by
  rw [P.inetPton6_of_not_dot u depth hs, UnicodeData.RefusesGroups]
  by_cases h₁ : u.Unread 9 (leftGroups s)
  · rw [if_pos h₁, rejects_error]
    exact ⟨fun _ => .inl h₁, fun _ => .inl rfl⟩
  by_cases h₂ : 8 < (leftGroups s).length
  · rw [if_neg h₁, if_pos h₂, rejects_error]
    simp [h₁, Nat.not_le.2 h₂]
  by_cases h₃ : u.Unread 17 (rightGroups s)
  · rw [if_neg h₁, if_neg h₂, if_pos h₃, rejects_error]
    simp [h₃, Nat.not_lt.1 h₂]
  by_cases h₄ : 16 < (rightGroups s).length
  · rw [if_neg h₁, if_neg h₂, if_neg h₃, if_pos h₄, rejects_error]
    simp [h₁, h₃, Nat.not_le.2 h₄]
  rw [if_neg h₁, if_neg h₂, if_neg h₃, if_neg h₄, joinGroups_eq]
  split_ifs with h₅
  · rw [rejects_error]
    exact ⟨fun _ => .inr ⟨Nat.not_lt.1 h₂, .inr ⟨Nat.not_lt.1 h₄, h₅⟩⟩, fun _ => .inl rfl⟩
  · simp only [not_rejects_ok, false_iff]
    rintro (h | ⟨-, h | ⟨-, h⟩⟩)
    · exact h₁ h
    · exact h₃ h
    · exact h₅ h

theorem colon_not_mem_hexBytes (bs : Bytes) : ':' ∉ bs.flatMap hexByte := by
  intro h
  obtain ⟨b, -, hb⟩ := List.mem_flatMap.1 h
  exact absurd (isDigit_of_mem_hexByte hb) (by decide)

theorem dot_not_mem_hexBytes (bs : Bytes) : '.' ∉ bs.flatMap hexByte := by
  intro h
  obtain ⟨b, -, hb⟩ := List.mem_flatMap.1 h
  exact absurd (isDigit_of_mem_hexByte hb) (by decide)

/-- The groups in place of an IPv4 address. -/
theorem hexQuad_of_length {v4addr : Bytes} (h : v4addr.length = 4) :
    hexQuad v4addr = (v4addr.take 2).flatMap hexByte ++ ':' :: (v4addr.drop 2).flatMap hexByte := by
  match v4addr, h with
  | [b₀, b₁, b₂, b₃], _ => rfl

/-- A dot that stays in front keeps `inet_pton` calling itself. -/
theorem rejects_inetPton6_of_dot {h : Text} (hdot : '.' ∈ h) {t : Text} (ht : ':' ∉ t) :
    Rejects (P.inetPton6 u depth (h ++ ':' :: t)) ↔ P.RefusesWithin depth t := by
  induction depth generalizing h t with
  | zero =>
    rw [inetPton6, rejects_error]
    exact ⟨fun h => (by rcases h with h | h <;> cases h), False.elim⟩
  | succ depth ih =>
    rw [inetPton6_append_cons P u depth ht (List.mem_append_left _ hdot), RefusesWithin]
    cases ht : P.aton t with
    | error e =>
      exact ⟨fun _ _ h => (by cases h), fun _ => rejects_error.2 (rejects_of_aton ht)⟩
    | ok v4addr =>
      show Rejects (P.inetPton6 u depth (h ++ ':' :: hexQuad v4addr)) ↔ _
      have hhead : h ++ ':' :: hexQuad v4addr = h ++ ':' :: (v4addr.take 2).flatMap hexByte ++
          ':' :: (v4addr.drop 2).flatMap hexByte := by
        rw [hexQuad_of_length (P.length_aton ht), List.append_assoc]
        rfl
      rw [hhead, ih (List.mem_append_left _ hdot) (colon_not_mem_hexBytes _)]
      simp

/-- `inet_pton` refuses these texts, and no others. -/
theorem rejects_inetPton6_iff :
    Rejects (P.inetPton6 u (depth + 2) s) ↔ P.Refuses u (depth + 2) s := by
  rw [Refuses]
  by_cases hdot : '.' ∈ s
  · rw [if_pos hdot]
    by_cases hcolon : ':' ∈ s
    · obtain ⟨h, t, ht, rfl⟩ : ∃ h t, ':' ∉ t ∧ s = h ++ ':' :: t := by
        obtain ⟨h, hs⟩ := append_cons_rtakeWhile hcolon
        exact ⟨h, _, fun hmem => by simpa using List.mem_rtakeWhile_imp hmem, hs.symm⟩
      have hhead : '.' ∈ h ++ [':'] ↔ '.' ∈ h := by simp
      simp only [hcolon, rdropWhile_append_cons ht, rtakeWhile_append_cons ht, hhead, true_imp_iff]
      by_cases hh : '.' ∈ h
      · rw [if_pos hh]
        exact rejects_inetPton6_of_dot hh ht
      · rw [if_neg hh, inetPton6_append_cons P u (depth + 1) ht hdot]
        cases hv : P.aton t with
        | error e =>
          exact ⟨fun _ _ h => (by cases h), fun _ => rejects_error.2 (rejects_of_aton hv)⟩
        | ok v4addr =>
          show Rejects (P.inetPton6 u (depth + 1) (h ++ ':' :: hexQuad v4addr)) ↔ _
          have hdot' : '.' ∉ h ++ ':' :: hexQuad v4addr := by
            rw [hexQuad_of_length (P.length_aton hv)]
            simp [hh, -List.mem_flatMap, dot_not_mem_hexBytes]
          rw [rejects_inetPton6_of_not_dot hdot', ← List.singleton_append, ← List.append_assoc]
          simp
    · rw [inetPton6, if_pos hdot, if_neg hcolon, rejects_error]
      exact ⟨fun _ h => absurd h hcolon, fun _ => .inl rfl⟩
  · rw [if_neg hdot]
    exact rejects_inetPton6_of_not_dot hdot

/-! ## `is_ip` -/

/-- No text of an address is an IPv4 address. -/
theorem aton_of_isIPv6Text {b : Bytes} (h : IsIPv6Text s b) : ∃ e, P.aton s = .error e := by
  apply P.aton_colon h.colon_mem
  intro c hc
  rcases h.mem hc with rfl | rfl | hdigit
  · rfl
  · rfl
  · exact isCSpace_of_digit hdigit

theorem handles_of_rejects {e : PyExc} (h : e = .valueError ∨ e = .osError) : handles e = true := by
  rcases h with rfl | rfl <;> rfl

theorem isIp_of_isIPv6Text (P : InetAton) (u : UnicodeData) (depth : ℕ) {b : Bytes}
    (h : IsIPv6Text s b) : P.isIp u (depth + 2) s = .ok (some .inet6) := by
  obtain ⟨e, he⟩ := aton_of_isIPv6Text (P := P) h
  rw [isIp, he]
  dsimp only
  rw [if_pos (handles_of_rejects (rejects_of_aton he)), inetPton6_of_isIPv6Text P u depth h]

/-- What `inet_pton` and `is_ip` should do: `inet_pton` returns the address of a text and refuses
    other texts, so that `is_ip` never raises an exception, and tells the two apart. -/
def IsIpSpec (P : InetAton) (u : UnicodeData) (calls : ℕ) (s : Text) : Prop :=
  (∀ b, IsIPv6Text s b → P.inetPton6 u calls s = .ok b) ∧
  ((¬∃ b, IsIPv6Text s b) → Rejects (P.inetPton6 u calls s)) ∧
  (∃ r, P.isIp u calls s = .ok r) ∧
  (P.isIp u calls s = .ok (some .inet6) ↔ ∃ b, IsIPv6Text s b)

/-- They do it for the texts of addresses, and for the others where these are refused. -/
theorem isIpSpec_iff (P : InetAton) (u : UnicodeData) (depth : ℕ) (s : Text) :
    IsIpSpec P u (depth + 2) s ↔ (∃ b, IsIPv6Text s b) ∨ P.Refuses u (depth + 2) s := by
  constructor
  · rintro ⟨-, hrejects, -, -⟩
    by_cases hs : ∃ b, IsIPv6Text s b
    · exact .inl hs
    · exact .inr (rejects_inetPton6_iff.1 (hrejects hs))
  · intro h
    by_cases hs : ∃ b, IsIPv6Text s b
    · obtain ⟨b, hb⟩ := hs
      have hisIp := isIp_of_isIPv6Text P u depth hb
      exact ⟨fun b hb => inetPton6_of_isIPv6Text P u depth hb, fun hno => absurd ⟨b, hb⟩ hno,
        ⟨_, hisIp⟩, fun _ => ⟨b, hb⟩, fun _ => hisIp⟩
    · have hrejects := rejects_inetPton6_iff.2 (h.resolve_left hs)
      have hisIp : P.isIp u (depth + 2) s = .ok none ∨ P.isIp u (depth + 2) s = .ok (some .inet) := by
        obtain ⟨e', he', hcases⟩ := hrejects
        rw [isIp]
        cases he : P.aton s with
        | ok _ => exact .inr rfl
        | error e =>
          dsimp only
          rw [if_pos (handles_of_rejects (rejects_of_aton he)), he']
          dsimp only
          rw [if_pos (handles_of_rejects hcases)]
          exact .inl rfl
      refine ⟨fun b hb => absurd ⟨b, hb⟩ hs, fun _ => hrejects, ?_, fun h => ?_, fun h => absurd h hs⟩
      · rcases hisIp with h | h
        · exact ⟨_, h⟩
        · exact ⟨_, h⟩
      · rcases hisIp with h' | h'
        · rw [h] at h'
          cases h'
        · rw [h] at h'
          cases h'

/-- `cafe` is taken for an address. -/
theorem isIpSpec_cafe : ¬∀ (P : InetAton) (u : UnicodeData) (depth : ℕ) (s : Text),
    IsIpSpec P u (depth + 2) s := by
  intro h
  have hread : InetAton.strict.inetPton6 .ascii 2 ['c', 'a', 'f', 'e'] =
      .ok [0xCA, 0xFE, 0, 0, 0, 0, 0, 0, 0, 0, 0, 0, 0, 0, 0, 0] := by decide
  have hno : ¬∃ b, IsIPv6Text ['c', 'a', 'f', 'e'] b := by
    rintro ⟨b, hb⟩
    exact absurd hb.colon_mem (by decide)
  have hrejects := (h .strict .ascii 0 ['c', 'a', 'f', 'e']).2.1 hno
  rw [hread] at hrejects
  exact not_rejects_ok _ hrejects

end InetAton

end ShadowsocksR

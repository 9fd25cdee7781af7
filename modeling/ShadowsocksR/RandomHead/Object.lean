import ShadowsocksR.Encrypt
import ShadowsocksR.Inet.Headers

/-!
# The obfuscation by a random head

The class `random_head`. A client begins with random bytes and a checksum of
them, and keeps what it is given until the server has answered. The server
answers a head with random bytes of its own. After that, nothing is changed any
more.

* `crc32_append_complement`: a head is told by its checksum, which is the same
  for all of them;
* `clientEncode`, `clientDecode`, `serverEncode`, `serverDecode`: the calls;
* `serverDecode_head`: a server that reads a head answers it.
-/

namespace ShadowsocksR

/-! ## The checksum -/

theorem crc32Bit_lt {crc : ℕ} (h : crc < 2 ^ 32) : crc32Bit crc < 2 ^ 32 := by
  have hhalf : crc / 2 < 2 ^ 32 := by omega
  rw [crc32Bit]
  split_ifs
  · exact Nat.xor_lt_two_pow hhalf (by norm_num)
  · exact hhalf

theorem crc32Byte_lt {crc : ℕ} (h : crc < 2 ^ 32) (b : UInt8) : crc32Byte crc b < 2 ^ 32 := by
  have hb : b.toNat < 2 ^ 32 := by
    have := b.toNat_lt
    omega
  rw [crc32Byte]
  exact Function.Iterate.rec (fun crc => crc < 2 ^ 32) (Nat.xor_lt_two_pow h hb)
    (fun _ => crc32Bit_lt) 8

theorem crc32Bit_even (n : ℕ) : crc32Bit (2 * n) = n := by
  rw [crc32Bit, if_neg (by omega), Nat.mul_div_cancel_left n (by norm_num)]

theorem iterate_crc32Bit (k n : ℕ) : crc32Bit^[k] (2 ^ k * n) = n := by
  induction k with
  | zero => rw [Function.iterate_zero_apply, pow_zero, Nat.one_mul]
  | succ k ih =>
    have hdouble : 2 ^ (k + 1) * n = 2 * (2 ^ k * n) := by
      rw [pow_succ', Nat.mul_assoc]
    rw [Function.iterate_succ_apply, hdouble, crc32Bit_even, ih]

/-- The low byte of a remainder takes itself away. -/
theorem crc32Byte_low (crc : ℕ) : crc32Byte crc (UInt8.ofNat crc) = crc / 256 := by
  have hlow : crc ^^^ (UInt8.ofNat crc).toNat = 2 ^ 8 * (crc / 2 ^ 8) := by
    rw [UInt8.toNat_ofNat']
    refine Nat.eq_of_testBit_eq fun i => ?_
    rw [Nat.testBit_xor, Nat.testBit_mod_two_pow, Nat.testBit_two_pow_mul, Nat.testBit_div_two_pow]
    by_cases hi : i < 8
    · simp [hi]
    · have hback : i - 8 + 8 = i := by omega
      rw [hback]
      simp [hi, Nat.not_lt.1 hi]
  rw [crc32Byte, hlow, iterate_crc32Bit]
  rfl

/-- The bytes of a remainder take it away. -/
theorem foldl_packLE (n crc : ℕ) : (packLE n crc).foldl crc32Byte crc = crc / 256 ^ n := by
  induction n generalizing crc with
  | zero => rw [packLE, List.foldl_nil, pow_zero, Nat.div_one]
  | succ n ih =>
    rw [packLE, List.foldl_cons, crc32Byte_low, ih, Nat.div_div_eq_div_mul, pow_succ']

theorem foldl_crc32Byte_lt (data : Bytes) {crc : ℕ} (h : crc < 2 ^ 32) :
    data.foldl crc32Byte crc < 2 ^ 32 := by
  induction data generalizing crc with
  | nil => exact h
  | cons b data ih => exact ih (crc32Byte_lt h b)

/-- All bits of a number are turned over, twice. -/
theorem sub_xor_allOnes {n : ℕ} (h : n < 2 ^ 32) : 0xFFFFFFFF - (n ^^^ 0xFFFFFFFF) = n := by
  have hxor : n ^^^ 0xFFFFFFFF = 2 ^ 32 - (n + 1) := by
    refine Nat.eq_of_testBit_eq fun i => ?_
    rw [Nat.testBit_two_pow_sub_succ h, Nat.testBit_xor, Nat.testBit_two_pow_sub_one 32,
      Bool.xor_comm]
    by_cases hi : i < 32
    · simp [hi]
    · simp [hi, Nat.testBit_lt_two_pow (h.trans_le (Nat.pow_le_pow_right (by norm_num)
        (Nat.not_lt.1 hi)))]
  omega

/-- The complement of a checksum after the data makes all checksums one. -/
theorem crc32_append_complement (data : Bytes) :
    crc32 (data ++ packLE 4 ((0xFFFFFFFF - crc32 data) &&& 0xFFFFFFFF)) = 0xFFFFFFFF := by
  have hlt : data.foldl crc32Byte 0xFFFFFFFF < 2 ^ 32 := foldl_crc32Byte_lt data (by norm_num)
  have hmask : ∀ n < 2 ^ 32, n &&& 0xFFFFFFFF = n := fun n hn => by
    rw [Nat.and_two_pow_sub_one_eq_mod n 32, Nat.mod_eq_of_lt hn]
  have hzero : data.foldl crc32Byte 0xFFFFFFFF / 256 ^ 4 = 0 := Nat.div_eq_of_lt hlt
  rw [crc32, crc32, sub_xor_allOnes hlt, hmask _ hlt, List.foldl_append, foldl_packLE,
    hzero, Nat.zero_xor]

/-! ## The calls -/

/-- The state of `random_head`. -/
structure RandomHead where
  method : String
  rng : Rng
  hasSentHeader : Bool := false
  hasRecvHeader : Bool := false
  rawTransSent : Bool := false
  rawTransRecv : Bool := false
  sendBuffer : Bytes := []

namespace RandomHead

/-- `os.urandom(common.ord(os.urandom(1)[0]) % 96 + 4)` -/
def urandom (rng : Rng) : Bytes × Rng :=
  let (size, rng) := randBytes 1 rng
  randBytes (unpackLE size % 96 + 4) rng

/-- What a client begins with. -/
def head (data : Bytes) : Bytes := data ++ packLE 4 ((0xFFFFFFFF - crc32 data) &&& 0xFFFFFFFF)

def clientEncode (o : RandomHead) (buf : Bytes) : Bytes × RandomHead :=
  if o.rawTransSent then (buf, o)
  else
    let o := { o with sendBuffer := o.sendBuffer ++ buf }
    if !o.hasSentHeader then
      let (data, rng) := urandom o.rng
      (head data, { o with hasSentHeader := true, rng })
    else if o.rawTransRecv then (o.sendBuffer, { o with sendBuffer := [], rawTransSent := true })
    else ([], o)

/-- The bytes to decrypt, and whether `client_encode` is to be called. -/
def clientDecode (o : RandomHead) (buf : Bytes) : (Bytes × Bool) × RandomHead :=
  if o.rawTransRecv then ((buf, false), o) else (([], true), { o with rawTransRecv := true })

def serverEncode (o : RandomHead) (buf : Bytes) : Bytes × RandomHead :=
  if o.hasSentHeader then (buf, o)
  else
    let (data, rng) := urandom o.rng
    (data, { o with hasSentHeader := true, rng })

/-- The bytes, whether they are to be decrypted, and whether `server_encode` is to be called. -/
def serverDecode (o : RandomHead) (buf : Bytes) : (Bytes × Bool × Bool) × RandomHead :=
  if o.hasRecvHeader then ((buf, true, false), o)
  else
    let o := { o with hasRecvHeader := true }
    if crc32 buf &&& 0xFFFFFFFF ≠ 0xFFFFFFFF then
      let o := { o with hasSentHeader := true }
      if o.method = "random_head" then ((List.replicate 2048 69, false, false), o)
      else ((buf, true, false), o)
    else (([], false, true), o)

/-! ## Heads -/

theorem urandom_ne_nil (rng : Rng) : (urandom rng).1 ≠ [] := by
  refine List.ne_nil_of_length_pos ?_
  rw [urandom]
  dsimp only
  rw [length_randBytes]
  omega

theorem head_ne_nil (data : Bytes) : head data ≠ [] :=
  List.append_ne_nil_of_right_ne_nil _ (List.cons_ne_nil _ _)

/-- A server that reads a head, and nothing else, answers it. -/
theorem serverDecode_head {o : RandomHead} (h : o.hasRecvHeader = false) (data : Bytes) :
    o.serverDecode (head data) = (([], false, true), { o with hasRecvHeader := true }) := by
  have hcrc : crc32 (head data) &&& 0xFFFFFFFF = 0xFFFFFFFF := by
    rw [head, crc32_append_complement]
    rfl
  rw [serverDecode, if_neg (by rw [h]; decide)]
  dsimp only
  rw [if_neg (not_not.2 hcrc)]

end RandomHead

end ShadowsocksR

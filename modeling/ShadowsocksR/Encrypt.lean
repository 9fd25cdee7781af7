import ShadowsocksR.Common

/-!
# Encryption

The object `encrypt.Encryptor`, over the functions of hashlib, hmac and the
cipher libraries (`Crypto`), and the random numbers it is made with.

* `Encryptor.Stream`: an encryptor of a stream cipher, after it has encrypted
  some bytes and decrypted some others;
* `Encryptor.Stream.decrypt_encrypt`: what one end encrypts, the other end
  decrypts, when it has decrypted all that was encrypted before;
* `Encryptor.decryptBlock_encryptBlock`: a block goes through `aes-128-cbc`, with the
  extra byte that the code appends to it.
-/

namespace ShadowsocksR

/-! ## Random numbers -/

/-- A source of random numbers: the numbers still to be drawn. -/
abbrev Rng := ℕ → ℕ

/-- `rand_bytes(n)`, `os.urandom(n)` -/
def randBytes (n : ℕ) (rng : Rng) : Bytes × Rng :=
  ((List.range n).map fun i => UInt8.ofNat (rng i), fun i => rng (n + i))

/-- `rand_bytes(n)` for a number of bytes that may be negative: there is no such buffer. -/
def randBytesInt (n : ℤ) (rng : Rng) : Except PyExc (Bytes × Rng) :=
  if n < 0 then .error .valueError else .ok (randBytes n.toNat rng)

/-- `random.randint(a, b)` -/
def randint (a b : ℕ) (rng : Rng) : ℕ × Rng := (a + rng 0 % (b - a + 1), fun i => rng (i + 1))

@[simp] theorem length_randBytes (n : ℕ) (rng : Rng) : (randBytes n rng).1.length = n := by
  simp [randBytes]

theorem randBytesInt_natCast (n : ℕ) (rng : Rng) :
    randBytesInt n rng = .ok (randBytes n rng) := by
  rw [randBytesInt, if_neg (by omega), Int.toNat_natCast]

/-! ## Numbers in byte strings -/

/-- `struct.pack` of a number of `n` bytes -/
def pack (n x : ℕ) : Except PyExc Bytes :=
  if x < 256 ^ n then .ok (packLE n x) else .error .structError

theorem pack_of_lt {n x : ℕ} (h : x < 256 ^ n) : pack n x = .ok (packLE n x) := if_pos h

/-- `struct.pack` of a number of `n` bytes, with the highest byte first -/
def packHigh (n x : ℕ) : Except PyExc Bytes :=
  if x < 256 ^ n then .ok (packBE n x) else .error .structError

theorem packHigh_of_lt {n x : ℕ} (h : x < 256 ^ n) : packHigh n x = .ok (packBE n x) := if_pos h

theorem packHigh_eq_ok {n x : ℕ} {bs : Bytes} (h : packHigh n x = .ok bs) :
    x < 256 ^ n ∧ bs = packBE n x := by
  rw [packHigh] at h
  split at h
  · next hx =>
    cases h
    exact ⟨hx, rfl⟩
  · cases h

/-! ## Libraries -/

/-- `hashlib.md5` and `hashlib.sha1` -/
inductive HashFunc
  | md5
  | sha1
  deriving DecidableEq, Repr

/-- The length of a digest. -/
def HashFunc.size : HashFunc → ℕ
  | .md5 => 16
  | .sha1 => 20

/-- The ciphers that the protocols use by name. -/
inductive CipherMethod
  | aes128Cbc
  | rc4
  | chacha20
  deriving DecidableEq, Repr

/-- The lengths of the key and of the iv, in `method_supported`. -/
def CipherMethod.keyLen : CipherMethod → ℕ
  | .aes128Cbc => 16
  | .rc4 => 16
  | .chacha20 => 32

def CipherMethod.ivLen : CipherMethod → ℕ
  | .aes128Cbc => 16
  | .rc4 => 0
  | .chacha20 => 8

/-- The direction of a cipher object: its argument `op`. -/
inductive CipherOp
  | encrypt
  | decrypt
  deriving DecidableEq, Repr

/-- The functions of the libraries. `cipher method key iv op given` is all that a cipher object
    has put out when it has been given the bytes `given`. -/
structure Crypto where
  hash : HashFunc → Bytes → Bytes
  hmac : HashFunc → Bytes → Bytes → Bytes
  cipher : CipherMethod → Bytes → Bytes → CipherOp → Bytes → Bytes
  length_hash : ∀ f data, (hash f data).length = f.size
  length_hmac : ∀ f key data, (hmac f key data).length = f.size
  cipher_nil : ∀ m key iv op, cipher m key iv op [] = []
  /-- A stream cipher puts out a byte for every byte, -/
  length_stream : ∀ {m}, m ≠ .aes128Cbc → ∀ key iv op given,
    (cipher m key iv op given).length = given.length
  /-- whatever comes after it, -/
  stream_prefix : ∀ {m}, m ≠ .aes128Cbc → ∀ key iv op given given',
    cipher m key iv op given <+: cipher m key iv op (given ++ given')
  /-- and decrypts what it has encrypted. -/
  stream_inverse : ∀ {m}, m ≠ .aes128Cbc → ∀ key iv given,
    cipher m key iv .decrypt (cipher m key iv .encrypt given) = given
  /-- The block cipher encrypts a block to a block, -/
  length_cbc_encrypt : ∀ key iv block, block.length = 16 →
    (cipher .aes128Cbc key iv .encrypt block).length = 16
  /-- and decrypts it when one more byte is there. -/
  length_cbc_decrypt : ∀ key iv block b, block.length = 16 →
    (cipher .aes128Cbc key iv .decrypt (block ++ [b])).length = 16
  cbc_inverse : ∀ key iv block b, block.length = 16 →
    cipher .aes128Cbc key iv .decrypt (cipher .aes128Cbc key iv .encrypt block ++ [b]) = block

/-- Ciphers that change nothing, and hashes that are the beginning of what is hashed. -/
def plainCrypto : Crypto where
  hash f data := (data ++ List.replicate f.size 0).take f.size
  hmac f key data := (key ++ data ++ List.replicate f.size 0).take f.size
  cipher m _ _ op given :=
    match m, op with
    | .aes128Cbc, .encrypt => given.take (given.length / 16 * 16)
    | .aes128Cbc, .decrypt => given.take ((given.length - 1) / 16 * 16)
    | _, _ => given
  length_hash f _ := by simp
  length_hmac f _ _ := by simp; omega
  cipher_nil m _ _ op := by cases m <;> cases op <;> rfl
  length_stream {m} h key iv op given := by cases m <;> simp_all
  stream_prefix {m} h key iv op given given' := by cases m <;> simp_all
  stream_inverse {m} h key iv given := by cases m <;> simp_all
  length_cbc_encrypt key iv block h := by simp [h]
  length_cbc_decrypt key iv block b h := by simp [h]
  cbc_inverse key iv block b h := by simp [h, List.take_of_length_le]

variable (C : Crypto)

/-- The character of `base64` for six bits. -/
def base64Char (n : ℕ) : UInt8 :=
  if n < 26 then UInt8.ofNat (65 + n) else if n < 52 then UInt8.ofNat (71 + n)
  else if n < 62 then UInt8.ofNat (n - 4) else if n = 62 then 43 else 47

/-- `base64.b64encode` -/
def b64encode : Bytes → Bytes
  | [] => []
  | [a] => [base64Char (a.toNat / 4), base64Char (a.toNat % 4 * 16), 61, 61]
  | [a, b] => [base64Char (a.toNat / 4), base64Char (a.toNat % 4 * 16 + b.toNat / 16),
      base64Char (b.toNat % 16 * 4), 61]
  | a :: b :: c :: bs =>
    [base64Char (a.toNat / 4), base64Char (a.toNat % 4 * 16 + b.toNat / 16),
      base64Char (b.toNat % 16 * 4 + c.toNat / 64), base64Char (c.toNat % 64)] ++ b64encode bs

/-- The digests that the loop of `EVP_BytesToKey` joins, after the digest `m`: none yet when it
    is empty. -/
def evpDigests (password : Bytes) : ℕ → Bytes → Bytes
  | 0, _ => []
  | n + 1, m =>
    let m := C.hash .md5 (m ++ password)
    m ++ evpDigests password n m

/-- The key that `EVP_BytesToKey` derives; a digest is 16 bytes long. -/
def evpBytesToKey (password : Bytes) (keyLen ivLen : ℕ) : Bytes :=
  (evpDigests C password ((keyLen + ivLen + 15) / 16) []).take keyLen

/-! ## Cipher objects -/

/-- A cipher object, and what it has been given. -/
structure Cipher where
  method : CipherMethod
  key : Bytes
  iv : Bytes
  op : CipherOp
  given : Bytes := []
  deriving DecidableEq

namespace Cipher

def output (c : Cipher) : Bytes := C.cipher c.method c.key c.iv c.op c.given

def update (c : Cipher) (buf : Bytes) : Bytes × Cipher :=
  let c' := { c with given := c.given ++ buf }
  ((c'.output C).drop (c.output C).length, c')

variable {C} {c : Cipher}

theorem output_append_update (h : c.method ≠ .aes128Cbc) (buf : Bytes) :
    c.output C ++ (c.update C buf).1 = (c.update C buf).2.output C := by
  obtain ⟨l, hl⟩ := C.stream_prefix h c.key c.iv c.op c.given buf
  simp only [update, output, ← hl, List.drop_left]

theorem length_update (h : c.method ≠ .aes128Cbc) (buf : Bytes) :
    (c.update C buf).1.length = buf.length := by
  simp [update, output, C.length_stream h]

end Cipher

/-! ## The encryptor -/

/-- `encrypt.Encryptor` -/
structure Encryptor where
  key : Bytes
  method : CipherMethod
  cipherIv : Bytes
  cipher : Cipher
  ivSent : Bool := false
  ivBuf : Bytes := []
  decipher : Option Cipher := none
  deriving DecidableEq

namespace Encryptor

/-- `get_cipher` -/
def getCipher (password : Bytes) (method : CipherMethod) (op : CipherOp) (iv : Bytes) : Cipher where
  method := method
  key := evpBytesToKey C password method.keyLen method.ivLen
  iv := iv.take method.ivLen
  op := op

/-- `__init__`, with the random iv that it takes when the argument `iv` is not one. -/
def new (key : Bytes) (method : CipherMethod) (iv : Option Bytes) (rng : Rng) : Encryptor × Rng :=
  let (iv, rng) := match iv with
    | some iv => if iv.length ≠ method.ivLen then randBytes method.ivLen rng else (iv, rng)
    | none => randBytes method.ivLen rng
  let cipher := getCipher C key method .encrypt iv
  ({ key, method, cipherIv := cipher.iv, cipher }, rng)

def encrypt (e : Encryptor) (buf : Bytes) : Bytes × Encryptor :=
  if buf.length = 0 then
    if e.ivSent then (buf, e) else (e.cipherIv, { e with ivSent := true })
  else
    let (out, cipher) := e.cipher.update C buf
    if e.ivSent then (out, { e with cipher })
    else (e.cipherIv ++ out, { e with cipher, ivSent := true })

def decrypt (e : Encryptor) (buf : Bytes) : Bytes × Encryptor :=
  if buf.length = 0 then (buf, e)
  else
    match e.decipher with
    | some decipher =>
      let (out, decipher) := decipher.update C buf
      (out, { e with decipher := some decipher })
    | none =>
      let ivBuf := if e.ivBuf.length ≤ e.method.ivLen then e.ivBuf ++ buf else e.ivBuf
      if ivBuf.length > e.method.ivLen then
        let decipher := getCipher C e.key e.method .decrypt (ivBuf.take e.method.ivLen)
        let (out, decipher) := decipher.update C (ivBuf.drop e.method.ivLen)
        (out, { e with ivBuf := [], decipher := some decipher })
      else ([], { e with ivBuf })

/-! ## Lengths -/

variable {C}

/-- An encryptor that puts out a byte for every byte: of a stream cipher, with no iv or after it
    has sent the iv. -/
structure Even (e : Encryptor) : Prop where
  method_ne : e.cipher.method ≠ .aes128Cbc
  ivSent : e.ivSent = false → e.cipherIv = []

theorem Even.encrypt {e : Encryptor} (h : e.Even) (buf : Bytes) :
    (e.encrypt C buf).1.length = buf.length ∧ (e.encrypt C buf).2.Even := by
  rw [Encryptor.encrypt]
  by_cases hbuf : buf.length = 0
  · rw [if_pos hbuf]
    cases hiv : e.ivSent with
    | true => exact ⟨rfl, h⟩
    | false => exact ⟨by rw [hbuf, if_neg (by decide), h.ivSent hiv]; rfl, h.1,
      fun _ => h.ivSent hiv⟩
  · rw [if_neg hbuf]
    have hlen := Cipher.length_update (C := C) h.method_ne buf
    cases hiv : e.ivSent with
    | true => exact ⟨hlen, h.1, fun hsent => absurd hsent (by simp)⟩
    | false =>
      refine ⟨?_, h.1, fun _ => h.ivSent hiv⟩
      dsimp only
      rw [if_neg (by decide), h.ivSent hiv]
      exact hlen

theorem Even.decrypt {e : Encryptor} (h : e.Even) (buf : Bytes) : (e.decrypt C buf).2.Even := by
  rw [Encryptor.decrypt]
  split
  · exact h
  · split
    · exact ⟨h.1, h.2⟩
    · dsimp only
      generalize (if e.ivBuf.length ≤ e.method.ivLen then e.ivBuf ++ buf else e.ivBuf) = ivBuf
      split <;> exact ⟨h.1, h.2⟩

theorem even_new_rc4 (key : Bytes) (rng : Rng) : (new C key .rc4 none rng).1.Even where
  method_ne := fun h => nomatch h
  ivSent _ := rfl

/-- A new encryptor with an iv, after the call that puts out the iv. -/
theorem even_new_chacha20 (key : Bytes) (iv : Option Bytes) (rng : Rng) :
    ((new C key .chacha20 iv rng).1.encrypt C []).2.Even where
  method_ne := fun h => nomatch h
  ivSent h := absurd h (by simp [Encryptor.encrypt, new])

/-! ## Streams -/

/-- The cipher object of a stream, after it has been given some bytes. -/
def streamCipher (C : Crypto) (key : Bytes) (op : CipherOp) (given : Bytes) : Cipher :=
  { getCipher C key .rc4 op [] with given }

/-- What a stream puts out for the bytes `buf`, after the bytes `given`. -/
def stream (C : Crypto) (key given buf : Bytes) : Bytes :=
  ((streamCipher C key .encrypt given).update C buf).1

/-- An encryptor of the stream cipher `rc4` which has encrypted the bytes `sent`, and has decrypted
    the bytes `received`. -/
structure Stream (C : Crypto) (key sent received : Bytes) (e : Encryptor) : Prop where
  key_eq : e.key = key
  method_eq : e.method = .rc4
  cipherIv_eq : e.cipherIv = []
  cipher_eq : e.cipher = streamCipher C key .encrypt sent
  decipher_eq :
    e.decipher = none ∧ e.ivBuf = [] ∧ received = [] ∨
      e.decipher = some (streamCipher C key .decrypt
        ((streamCipher C key .encrypt received).output C))

theorem length_stream (key given buf : Bytes) : (stream C key given buf).length = buf.length :=
  Cipher.length_update (c := streamCipher C key .encrypt given) (fun h => nomatch h) buf

theorem output_stream (key given buf : Bytes) :
    (streamCipher C key .encrypt given).output C ++ stream C key given buf =
      (streamCipher C key .encrypt (given ++ buf)).output C :=
  Cipher.output_append_update (c := streamCipher C key .encrypt given) (fun h => nomatch h) buf

/-- A new encryptor. -/
theorem stream_new (key : Bytes) (rng : Rng) :
    Stream C key [] [] (new C key .rc4 none rng).1 :=
  ⟨rfl, rfl, rfl, rfl, .inl ⟨rfl, rfl, rfl⟩⟩

variable {key sent received : Bytes} {e : Encryptor}

theorem Stream.encrypt (h : Stream C key sent received e) (buf : Bytes) :
    ∃ e', e.encrypt C buf = (stream C key sent buf, e') ∧
      Stream C key (sent ++ buf) received e' := by
  obtain ⟨h₁, h₂, h₃, h₄, h₅⟩ := h
  by_cases hb : buf.length = 0
  · obtain rfl := List.length_eq_zero_iff.1 hb
    have hs : stream C key sent [] = [] := List.length_eq_zero_iff.1 (length_stream key sent [])
    cases hi : e.ivSent
    · exact ⟨{ e with ivSent := true }, by simp [Encryptor.encrypt, hi, hs, h₃],
        h₁, h₂, h₃, by rw [List.append_nil]; exact h₄, h₅⟩
    · exact ⟨e, by simp [Encryptor.encrypt, hi, hs], h₁, h₂, h₃,
        by rw [List.append_nil]; exact h₄, h₅⟩
  · have hu : e.cipher.update C buf =
        (stream C key sent buf, streamCipher C key .encrypt (sent ++ buf)) := by rw [h₄]; rfl
    refine ⟨{ e with cipher := streamCipher C key .encrypt (sent ++ buf), ivSent := true }, ?_,
      h₁, h₂, h₃, rfl, h₅⟩
    cases hi : e.ivSent
    · simp [Encryptor.encrypt, hb, hu, hi, h₃]
    · simp [Encryptor.encrypt, hb, hu, hi]

/-- The decipher of a stream inverts it. -/
theorem update_decrypt (key given buf : Bytes) :
    (streamCipher C key .decrypt ((streamCipher C key .encrypt given).output C)).update C
        (stream C key given buf) =
      (buf, streamCipher C key .decrypt
        ((streamCipher C key .encrypt (given ++ buf)).output C)) := by
  have hinv : ∀ d, (streamCipher C key .decrypt
      ((streamCipher C key .encrypt d).output C)).output C = d :=
    fun d => C.stream_inverse (m := .rc4) (by decide) _ _ d
  have hgiven : (streamCipher C key .decrypt
      ((streamCipher C key .encrypt given).output C)).given ++ stream C key given buf =
      (streamCipher C key .encrypt (given ++ buf)).output C := output_stream key given buf
  rw [Cipher.update, hgiven, hinv given]
  refine Prod.ext ?_ rfl
  exact (congrArg (List.drop given.length) (hinv (given ++ buf))).trans List.drop_left

theorem Stream.decrypt_encrypt (h : Stream C key sent received e) (buf : Bytes) :
    ∃ e', e.decrypt C (stream C key received buf) = (buf, e') ∧
      Stream C key sent (received ++ buf) e' := by
  obtain ⟨h₁, h₂, h₃, h₄, h₅⟩ := h
  by_cases hb : buf.length = 0
  · obtain rfl := List.length_eq_zero_iff.1 hb
    have hs : stream C key received [] = [] :=
      List.length_eq_zero_iff.1 (length_stream key received [])
    exact ⟨e, by rw [hs]; rfl, h₁, h₂, h₃, h₄, by rw [List.append_nil]; exact h₅⟩
  · have hl : (stream C key received buf).length ≠ 0 := by rw [length_stream]; exact hb
    have hu := update_decrypt (C := C) key received buf
    rcases h₅ with ⟨hd, hi, rfl⟩ | hd
    · have hc : getCipher C e.key e.method .decrypt [] = streamCipher C key .decrypt
          ((streamCipher C key .encrypt []).output C) := by
        have : (streamCipher C key .encrypt []).output C = [] :=
          List.length_eq_zero_iff.1 (C.length_stream (m := .rc4) (by decide) _ _ _ _)
        rw [this, h₁, h₂]
        rfl
      refine ⟨{ e with ivBuf := [], decipher := some _ }, ?_, h₁, h₂, h₃, h₄, .inr rfl⟩
      simp only [Encryptor.decrypt, if_neg hl, hd, hi, h₂, CipherMethod.ivLen, List.nil_append,
        List.length_nil, Nat.zero_le, if_true, List.take_zero, List.drop_zero, gt_iff_lt]
      rw [if_pos (by omega), ← h₂, hc, hu]
      rfl
    · exact ⟨{ e with decipher := some _ }, by simp only [Encryptor.decrypt, if_neg hl, hd, hu],
        h₁, h₂, h₃, h₄, .inr rfl⟩

/-! ## Blocks -/

/-- What `aes-128-cbc` makes of a block, with an iv of zeros. -/
def encryptBlock (C : Crypto) (key block : Bytes) : Bytes :=
  ((getCipher C key .aes128Cbc .encrypt (List.replicate 16 0)).update C block).1

/-- What it makes of a block to decrypt, followed by one more byte. -/
def decryptBlock (C : Crypto) (key block : Bytes) : Bytes :=
  ((getCipher C key .aes128Cbc .decrypt (List.replicate 16 0)).update C (block ++ [0])).1

theorem update_getCipher (key : Bytes) (method : CipherMethod) (op : CipherOp) (iv buf : Bytes) :
    ((getCipher C key method op iv).update C buf).1 =
      C.cipher method (evpBytesToKey C key method.keyLen method.ivLen) (iv.take method.ivLen) op
        buf := by
  simp [Cipher.update, Cipher.output, getCipher, C.cipher_nil]

theorem length_encryptBlock {block : Bytes} (h : block.length = 16) :
    (encryptBlock C key block).length = 16 := by
  rw [encryptBlock, update_getCipher]
  exact C.length_cbc_encrypt _ _ block h

theorem length_decryptBlock {block : Bytes} (h : block.length = 16) :
    (decryptBlock C key block).length = 16 := by
  rw [decryptBlock, update_getCipher]
  exact C.length_cbc_decrypt _ _ block 0 h

theorem decryptBlock_encryptBlock {block : Bytes} (h : block.length = 16) :
    decryptBlock C key (encryptBlock C key block) = block := by
  rw [decryptBlock, encryptBlock, update_getCipher, update_getCipher]
  exact C.cbc_inverse _ _ block 0 h

/-- Encrypting a block with a new encryptor, which puts its iv in front. -/
theorem drop_encrypt_new {block : Bytes} (h : block.length = 16) (rng : Rng) :
    ((new C key .aes128Cbc (some (List.replicate 16 0)) rng).1.encrypt C block).1.drop 16 =
      encryptBlock C key block := by
  rw [Encryptor.encrypt, if_neg (by omega)]
  exact List.drop_left' rfl

/-- Decrypting a block with a new encryptor, which takes its iv from the front. -/
theorem decrypt_new {block : Bytes} (h : block.length = 16) (rng : Rng) :
    ((new C key .aes128Cbc none rng).1.decrypt C (List.replicate 16 0 ++ block ++ [0])).1 =
      decryptBlock C key block := by
  have hlen : (List.replicate 16 (0 : UInt8) ++ block ++ [0]).length = 33 := by simp [h]
  rw [Encryptor.decrypt, if_neg (by omega)]
  simp only [new, CipherMethod.ivLen, List.length_nil, Nat.zero_le, if_true, List.nil_append, hlen]
  rw [List.append_assoc, List.take_left' (by simp), List.drop_left' (by simp)]
  rfl

end Encryptor

end ShadowsocksR

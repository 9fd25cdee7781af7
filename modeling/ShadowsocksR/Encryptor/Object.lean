import ShadowsocksR.Encrypt
import ShadowsocksR.Lib.ByteStream
import ShadowsocksR.Lib.Chunks

/-!
# Encryptors of any method

The object `encrypt.Encryptor` over an entry of `method_supported` (`CipherInfo`),
whose cipher objects are of any type. The buffer `iv_buf` is deleted when the
decipher is made; reading it afterwards would raise an `AttributeError`.

* `new`, `encrypt`, `decrypt`: the calls of an object;
* `encrypt_ofEncryptor`, `decrypt_ofEncryptor`: the encryptors that the protocols
  make are such objects.
-/

namespace ShadowsocksR

/-- An entry of `method_supported`: the lengths of the key and of the iv, and the class of the cipher
    objects. -/
structure CipherInfo (σ : Type) where
  keyLen : ℕ
  ivLen : ℕ
  create : String → Bytes → Bytes → CipherOp → Except PyExc σ
  update : σ → Bytes → Bytes × σ
  /-- So it is in all entries. -/
  keyLen_pos : 0 < keyLen

/-- `encrypt.Encryptor`; `iv_buf` is `none` when it is deleted. -/
structure AnyEncryptor (σ : Type) where
  key : Bytes
  /-- The name of the method, as it was given. -/
  method : String
  /-- The entry of the method in lower case. -/
  methodInfo : CipherInfo σ
  cipherIv : Bytes
  cipher : σ
  ivSent : Bool := false
  ivBuf : Option Bytes := some []
  decipher : Option σ := none

namespace AnyEncryptor

variable {σ : Type} (C : Crypto)

/-- The key and the iv of a cipher object, in `get_cipher`. -/
def cipherKey (info : CipherInfo σ) (password iv : Bytes) : Bytes × Bytes :=
  let (key, iv) :=
    if info.keyLen > 0 then (evpBytesToKey C password info.keyLen info.ivLen, iv)
    else (password, [])
  (key, iv.take info.ivLen)

/-- `get_cipher` -/
def getCipher (info : CipherInfo σ) (password : Bytes) (method : String) (op : CipherOp)
    (iv : Bytes) : Except PyExc σ :=
  let (key, iv) := cipherKey C info password iv
  info.create method key iv op

/-- The argument `iv` of `__init__`, or a random one. -/
def newIv (ivLen : ℕ) (iv : Option Bytes) (rng : Rng) : Bytes × Rng :=
  match iv with
  | some iv => if iv.length ≠ ivLen then randBytes ivLen rng else (iv, rng)
  | none => randBytes ivLen rng

/-- `__init__`, with the entry `info` of the method. -/
def new (info : CipherInfo σ) (key : Bytes) (method : String) (iv : Option Bytes) (rng : Rng) :
    Except PyExc (AnyEncryptor σ × Rng) := do
  let (iv, rng) := newIv info.ivLen iv rng
  let cipher ← getCipher C info key method.toLower .encrypt iv
  return ({ key, method, methodInfo := info, cipherIv := (cipherKey C info key iv).2, cipher }, rng)

def encrypt (e : AnyEncryptor σ) (buf : Bytes) : Bytes × AnyEncryptor σ :=
  if buf.length = 0 then
    if !e.ivSent then (e.cipherIv, { e with ivSent := true }) else (buf, e)
  else if e.ivSent then
    let (out, cipher) := e.methodInfo.update e.cipher buf
    (out, { e with cipher })
  else
    let (out, cipher) := e.methodInfo.update e.cipher buf
    (e.cipherIv ++ out, { e with cipher, ivSent := true })

def decrypt (e : AnyEncryptor σ) (buf : Bytes) : Except PyExc (Bytes × AnyEncryptor σ) :=
  if buf.length = 0 then .ok (buf, e)
  else
    match e.decipher with
    | some decipher =>
      let (out, decipher) := e.methodInfo.update decipher buf
      .ok (out, { e with decipher := some decipher })
    | none =>
      match e.ivBuf with
      | none => .error .attributeError
      | some ivBuf =>
        let ivLen := e.methodInfo.ivLen
        let ivBuf := if ivBuf.length ≤ ivLen then ivBuf ++ buf else ivBuf
        if ivBuf.length > ivLen then
          match getCipher C e.methodInfo e.key e.method .decrypt (ivBuf.take ivLen) with
          | .error x => .error x
          | .ok decipher =>
            let (out, decipher) := e.methodInfo.update decipher (ivBuf.drop ivLen)
            .ok (out, { e with ivBuf := none, decipher := some decipher })
        else .ok ([], { e with ivBuf := some ivBuf })

/-! ## The encryptors of the protocols -/

/-- The entry of a method that the protocols use. -/
def cipherInfo (m : CipherMethod) : CipherInfo Cipher where
  keyLen := m.keyLen
  ivLen := m.ivLen
  create _ key iv op := .ok { method := m, key, iv, op }
  update := Cipher.update C
  keyLen_pos := by cases m <;> decide

/-- An encryptor of a protocol, under the name of its method. -/
def ofEncryptor (method : String) (e : Encryptor) : AnyEncryptor Cipher where
  key := e.key
  method := method
  methodInfo := cipherInfo C e.method
  cipherIv := e.cipherIv
  cipher := e.cipher
  ivSent := e.ivSent
  ivBuf := if e.decipher.isSome then none else some e.ivBuf
  decipher := e.decipher

variable {C}

theorem encrypt_ofEncryptor (method : String) (e : Encryptor) (buf : Bytes) :
    (ofEncryptor C method e).encrypt buf =
      ((e.encrypt C buf).1, ofEncryptor C method (e.encrypt C buf).2) := by
  rw [encrypt, Encryptor.encrypt]
  by_cases hbuf : buf.length = 0
  · rw [if_pos hbuf, if_pos hbuf]
    cases hsent : e.ivSent <;> simp [ofEncryptor, hsent]
  · rw [if_neg hbuf, if_neg hbuf]
    cases hsent : e.ivSent <;> simp [ofEncryptor, cipherInfo, hsent]

theorem decrypt_ofEncryptor (method : String) (e : Encryptor) (buf : Bytes) :
    (ofEncryptor C method e).decrypt C buf =
      .ok ((e.decrypt C buf).1, ofEncryptor C method (e.decrypt C buf).2) := by
  rw [decrypt, Encryptor.decrypt]
  by_cases hbuf : buf.length = 0
  · rw [if_pos hbuf, if_pos hbuf]
  · rw [if_neg hbuf, if_neg hbuf]
    cases hd : e.decipher with
    | some decipher => simp [ofEncryptor, cipherInfo, hd]
    | none =>
      have hpos : e.method.keyLen > 0 := (cipherInfo C e.method).keyLen_pos
      obtain ⟨ivBuf, hivBuf⟩ :
          ∃ ivBuf, (if e.ivBuf.length ≤ e.method.ivLen then e.ivBuf ++ buf else e.ivBuf) = ivBuf :=
        ⟨_, rfl⟩
      by_cases hlen : ivBuf.length > e.method.ivLen
      · simp [ofEncryptor, cipherInfo, hd, hivBuf, hlen, getCipher, cipherKey, hpos,
          Encryptor.getCipher]
      · simp [ofEncryptor, cipherInfo, hd, hivBuf, hlen]

end AnyEncryptor

end ShadowsocksR

import ShadowsocksR.Encrypt

/-!
# Streams with an iv

The encryptor of the stream cipher `chacha20`, as the auth_akarin protocols make
it: both ends know the iv of either direction, so that the sender drops its own,
and the receiver gives the decipher that of the other end before the first bytes.

* `IvStream`: such an encryptor, after it has encrypted some bytes and decrypted
  some others;
* `IvStream.decrypt_encrypt`: what one end encrypts, the other end decrypts, when
  it has decrypted all that was encrypted before.
-/

namespace ShadowsocksR

namespace Encryptor

/-- The cipher object of a stream, after it has been given some bytes. -/
def ivCipher (C : Crypto) (key iv : Bytes) (op : CipherOp) (given : Bytes) : Cipher :=
  { getCipher C key .chacha20 op iv with given }

/-- What a stream puts out for the bytes `buf`, after the bytes `given`. -/
def ivStream (C : Crypto) (key iv given buf : Bytes) : Bytes :=
  ((ivCipher C key iv .encrypt given).update C buf).1

/-- An encryptor that has put out its iv and has been given that of the other end, and after that
    has encrypted the bytes `sent`, and has decrypted the bytes `received`. -/
structure IvStream (C : Crypto) (key iv otherIv sent received : Bytes) (e : Encryptor) : Prop where
  key_eq : e.key = key
  method_eq : e.method = .chacha20
  ivSent : e.ivSent = true
  length_otherIv : otherIv.length = 8
  cipher_eq : e.cipher = ivCipher C key iv .encrypt sent
  decipher_eq :
    e.decipher = none ∧ e.ivBuf = otherIv ∧ received = [] ∨
      e.decipher = some (ivCipher C key otherIv .decrypt
        ((ivCipher C key otherIv .encrypt received).output C))

variable {C : Crypto}

theorem length_ivStream (key iv given buf : Bytes) :
    (ivStream C key iv given buf).length = buf.length :=
  Cipher.length_update (c := ivCipher C key iv .encrypt given) (fun h => nomatch h) buf

theorem output_ivStream (key iv given buf : Bytes) :
    (ivCipher C key iv .encrypt given).output C ++ ivStream C key iv given buf =
      (ivCipher C key iv .encrypt (given ++ buf)).output C :=
  Cipher.output_append_update (c := ivCipher C key iv .encrypt given) (fun h => nomatch h) buf

/-- A new encryptor. -/
theorem ivStream_new (key : Bytes) {iv otherIv : Bytes} (hiv : iv.length = 8)
    (hother : otherIv.length = 8) (rng : Rng) :
    ∃ e, new C key .chacha20 (some iv) rng = (e, rng) ∧
      IvStream C key iv otherIv [] [] ((e.encrypt C []).2.decrypt C otherIv).2 := by
  have hne : ¬iv.length ≠ CipherMethod.chacha20.ivLen := not_not.2 hiv
  have hle : ¬otherIv.length > CipherMethod.chacha20.ivLen := by rw [hother]; decide
  have hpos : ¬otherIv.length = 0 := by omega
  obtain ⟨e, he⟩ : ∃ e : Encryptor, e =
    { key, method := .chacha20, cipherIv := iv.take 8, cipher := ivCipher C key iv .encrypt [] } :=
    ⟨_, rfl⟩
  have hnew : new C key .chacha20 (some iv) rng = (e, rng) := by
    simp only [new, if_neg hne, he]
    rfl
  have hdec : (({ e with ivSent := true } : Encryptor).decrypt C otherIv).2 =
      { e with ivSent := true, ivBuf := otherIv } := by
    rw [he, Encryptor.decrypt, if_neg hpos]
    dsimp only
    rw [if_pos (show ([] : Bytes).length ≤ _ from Nat.zero_le _), List.nil_append, if_neg hle]
  have henc : (e.encrypt C []).2 = { e with ivSent := true } := by
    rw [he]
    rfl
  refine ⟨e, hnew, ?_⟩
  rw [henc, hdec, he]
  exact ⟨rfl, rfl, rfl, hother, rfl, .inl ⟨rfl, rfl, rfl⟩⟩

variable {key iv otherIv sent received : Bytes} {e : Encryptor}

theorem IvStream.encrypt (h : IvStream C key iv otherIv sent received e) (buf : Bytes) :
    ∃ e', e.encrypt C buf = (ivStream C key iv sent buf, e') ∧
      IvStream C key iv otherIv (sent ++ buf) received e' := by
  obtain ⟨h₁, h₂, h₃, h₄, h₅, h₆⟩ := h
  by_cases hb : buf.length = 0
  · obtain rfl := List.length_eq_zero_iff.1 hb
    have hs : ivStream C key iv sent [] = [] :=
      List.length_eq_zero_iff.1 (length_ivStream key iv sent [])
    refine ⟨e, by simp [Encryptor.encrypt, h₃, hs], h₁, h₂, h₃, h₄, ?_, h₆⟩
    rw [List.append_nil]
    exact h₅
  · have hu : e.cipher.update C buf =
        (ivStream C key iv sent buf, ivCipher C key iv .encrypt (sent ++ buf)) := by
      rw [h₅]
      rfl
    exact ⟨{ e with cipher := ivCipher C key iv .encrypt (sent ++ buf) },
      by simp [Encryptor.encrypt, hb, hu, h₃], h₁, h₂, h₃, h₄, rfl, h₆⟩

/-- The decipher of a stream inverts it. -/
theorem update_ivDecrypt (key iv given buf : Bytes) :
    (ivCipher C key iv .decrypt ((ivCipher C key iv .encrypt given).output C)).update C
        (ivStream C key iv given buf) =
      (buf, ivCipher C key iv .decrypt
        ((ivCipher C key iv .encrypt (given ++ buf)).output C)) := by
  have hinv : ∀ d, (ivCipher C key iv .decrypt
      ((ivCipher C key iv .encrypt d).output C)).output C = d :=
    fun d => C.stream_inverse (m := .chacha20) (by decide) _ _ d
  have hgiven : (ivCipher C key iv .decrypt
      ((ivCipher C key iv .encrypt given).output C)).given ++ ivStream C key iv given buf =
      (ivCipher C key iv .encrypt (given ++ buf)).output C := output_ivStream key iv given buf
  rw [Cipher.update, hgiven, hinv given]
  refine Prod.ext ?_ rfl
  exact (congrArg (List.drop given.length) (hinv (given ++ buf))).trans List.drop_left

theorem IvStream.decrypt_encrypt (h : IvStream C key iv otherIv sent received e) (buf : Bytes) :
    ∃ e', e.decrypt C (ivStream C key otherIv received buf) = (buf, e') ∧
      IvStream C key iv otherIv sent (received ++ buf) e' := by
  obtain ⟨h₁, h₂, h₃, h₄, h₅, h₆⟩ := h
  by_cases hb : buf.length = 0
  · obtain rfl := List.length_eq_zero_iff.1 hb
    have hs : ivStream C key otherIv received [] = [] :=
      List.length_eq_zero_iff.1 (length_ivStream key otherIv received [])
    refine ⟨e, by rw [hs]; rfl, h₁, h₂, h₃, h₄, h₅, ?_⟩
    rw [List.append_nil]
    exact h₆
  · have hl : (ivStream C key otherIv received buf).length = buf.length := length_ivStream _ _ _ _
    have hu := update_ivDecrypt (C := C) key otherIv received buf
    rcases h₆ with ⟨hd, hi, rfl⟩ | hd
    · -- The iv is there already: the first bytes make the decipher.
      have hc : getCipher C e.key e.method .decrypt otherIv = ivCipher C key otherIv .decrypt
          ((ivCipher C key otherIv .encrypt []).output C) := by
        have : (ivCipher C key otherIv .encrypt []).output C = [] :=
          List.length_eq_zero_iff.1 (C.length_stream (m := .chacha20) (by decide) _ _ _ _)
        rw [this, h₁, h₂]
        rfl
      have hle : e.ivBuf.length ≤ e.method.ivLen := by rw [hi, h₂, h₄]; exact le_rfl
      have hgt : (e.ivBuf ++ ivStream C key otherIv [] buf).length > e.method.ivLen := by
        rw [List.length_append, hi, h₂, h₄, hl, CipherMethod.ivLen]
        omega
      have htake : (e.ivBuf ++ ivStream C key otherIv [] buf).take e.method.ivLen = otherIv := by
        rw [hi, h₂]
        exact List.take_left' h₄
      have hdrop : (e.ivBuf ++ ivStream C key otherIv [] buf).drop e.method.ivLen =
          ivStream C key otherIv [] buf := by
        rw [hi, h₂]
        exact List.drop_left' h₄
      refine ⟨{ e with ivBuf := [], decipher := some _ }, ?_, h₁, h₂, h₃, h₄, h₅, .inr rfl⟩
      rw [Encryptor.decrypt, if_neg (by omega), hd]
      dsimp only
      rw [if_pos hle, if_pos hgt, htake, hdrop, hc, hu]
    · refine ⟨{ e with decipher := some _ }, ?_, h₁, h₂, h₃, h₄, h₅, .inr rfl⟩
      simp only [Encryptor.decrypt, if_neg (show ¬(ivStream C key otherIv received buf).length = 0 by
        omega), hd, hu]

end Encryptor

end ShadowsocksR

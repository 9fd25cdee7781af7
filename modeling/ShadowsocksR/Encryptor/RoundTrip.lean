import ShadowsocksR.Encryptor.Object

/-!
# The round trip of an encryptor

* `feed_encrypt`: an encryptor puts out its iv, once and first;
* `feed_decrypt_wait`: wherever the stream is cut, the first bytes of it are the
  iv of the decipher, and `iv_buf` is gone when the decipher is there;
* `talk_iff`: the two directions of one encryptor do not touch each other;
* `stream_round_trip`: so another encryptor with the same password gets the
  buffers back.
-/

namespace ShadowsocksR

/-- The cipher objects of a method, under its name: whatever the key and the iv, a decipher gets back
    what a cipher has been given. -/
def CipherInfo.IsByteStream {σ : Type} (info : CipherInfo σ) (method : String) : Prop :=
  ∀ key iv : Bytes, key.length = info.keyLen → iv.length = info.ivLen →
    ∃ c d, info.create method.toLower key iv .encrypt = .ok c ∧
      info.create method key iv .decrypt = .ok d ∧ Inverts info.update c d

theorem length_evpDigests (C : Crypto) (password : Bytes) (n : ℕ) (m : Bytes) :
    (evpDigests C password n m).length = 16 * n := by
  induction n generalizing m with
  | zero => rfl
  | succ n ih =>
    rw [evpDigests, List.length_append, C.length_hash, ih, Nat.mul_succ, Nat.add_comm]
    rfl

theorem length_evpBytesToKey (C : Crypto) (password : Bytes) (keyLen ivLen : ℕ) :
    (evpBytesToKey C password keyLen ivLen).length = keyLen := by
  rw [evpBytesToKey, List.length_take, length_evpDigests]
  omega

namespace AnyEncryptor

variable {σ : Type} {C : Crypto} {info : CipherInfo σ} {method : String} {e : AnyEncryptor σ}

theorem cipherKey_eq (info : CipherInfo σ) (password iv : Bytes) : cipherKey C info password iv =
    (evpBytesToKey C password info.keyLen info.ivLen, iv.take info.ivLen) := by
  rw [cipherKey, if_pos info.keyLen_pos]

theorem length_newIv (ivLen : ℕ) (iv : Option Bytes) (rng : Rng) :
    (newIv ivLen iv rng).1.length = ivLen := by
  cases iv with
  | none => exact length_randBytes _ _
  | some iv =>
    simp only [newIv]
    split_ifs with h
    · exact length_randBytes _ _
    · exact not_not.1 h

/-! ## Encrypting -/

/-- `encrypt`, as a call -/
def encryptCall (e : AnyEncryptor σ) (buf : Bytes) : Except PyExc (Bytes × AnyEncryptor σ) :=
  .ok (e.encrypt buf)

/-- An encryptor that has sent its iv. -/
theorem feed_encrypt_sent (h : e.ivSent = true) (sends : List Bytes) : ∃ e',
    feed encryptCall e sends =
      .ok (total e.methodInfo.update e.cipher (sends.filter (· ≠ [])), e') := by
  induction sends generalizing e with
  | nil => exact ⟨e, rfl⟩
  | cons buf sends ih =>
    by_cases hbuf : buf = []
    · have hcall : encryptCall e buf = .ok ([], e) := by
        rw [encryptCall, encrypt, hbuf, if_pos List.length_nil, h]
        rfl
      obtain ⟨e', hfeed⟩ := ih h
      exact ⟨e', by simp [hbuf, feed_cons (hbuf ▸ hcall) hfeed]⟩
    · have hcall : encryptCall e buf = .ok ((e.methodInfo.update e.cipher buf).1,
          { e with cipher := (e.methodInfo.update e.cipher buf).2 }) := by
        rw [encryptCall, encrypt, if_neg (by rw [List.length_eq_zero_iff]; exact hbuf), if_pos h]
      obtain ⟨e', hfeed⟩ := ih (e := { e with cipher := (e.methodInfo.update e.cipher buf).2 }) h
      exact ⟨e', by simp [hbuf, feed_cons hcall hfeed]⟩

/-- A new encryptor puts out its iv, once and first. -/
theorem feed_encrypt (h : e.ivSent = false) (hjoins : Joins e.methodInfo.update e.cipher)
    (sends : List Bytes) : ∃ e', feed encryptCall e sends =
      .ok ((if sends = [] then [] else e.cipherIv) ++ total e.methodInfo.update e.cipher sends,
        e') := by
  cases sends with
  | nil => exact ⟨e, rfl⟩
  | cons buf sends =>
    rw [if_neg (List.cons_ne_nil _ _), ← hjoins.total_filter]
    by_cases hbuf : buf = []
    · have hcall : encryptCall e buf = .ok (e.cipherIv, { e with ivSent := true }) := by
        rw [encryptCall, encrypt, hbuf, if_pos List.length_nil, h]
        rfl
      obtain ⟨e', hfeed⟩ := feed_encrypt_sent (e := { e with ivSent := true }) rfl sends
      exact ⟨e', by simp [hbuf, feed_cons (hbuf ▸ hcall) hfeed]⟩
    · have hcall : encryptCall e buf = .ok (e.cipherIv ++ (e.methodInfo.update e.cipher buf).1,
          { e with cipher := (e.methodInfo.update e.cipher buf).2, ivSent := true }) := by
        rw [encryptCall, encrypt, if_neg (by rw [List.length_eq_zero_iff]; exact hbuf),
          if_neg (by rw [h]; decide)]
      obtain ⟨e', hfeed⟩ := feed_encrypt_sent (e := { e with
        cipher := (e.methodInfo.update e.cipher buf).2
        ivSent := true }) rfl sends
      exact ⟨e', by simp [hbuf, feed_cons hcall hfeed]⟩

/-! ## Decrypting -/

/-- The buffer `iv_buf` is deleted when there is a decipher. -/
def IvBufGone (e : AnyEncryptor σ) : Prop := e.decipher.isSome = true ↔ e.ivBuf = none

/-- An encryptor with a decipher. -/
theorem feed_decrypt_running {d : σ} (hd : e.decipher = some d) (hgone : e.IvBufGone)
    (chunks : List Bytes) : ∃ e', feed (decrypt C) e chunks =
      .ok (total e.methodInfo.update d (chunks.filter (· ≠ [])), e') ∧ e'.IvBufGone := by
  induction chunks generalizing e d with
  | nil => exact ⟨e, rfl, hgone⟩
  | cons buf chunks ih =>
    by_cases hbuf : buf = []
    · have hcall : decrypt C e buf = .ok ([], e) := by
        rw [decrypt, hbuf, if_pos List.length_nil]
      obtain ⟨e', hfeed, hgone'⟩ := ih hd hgone
      exact ⟨e', by simp [hbuf, feed_cons (hbuf ▸ hcall) hfeed], hgone'⟩
    · have hcall : decrypt C e buf = .ok ((e.methodInfo.update d buf).1,
          { e with decipher := some (e.methodInfo.update d buf).2 }) := by
        rw [decrypt, if_neg (by rw [List.length_eq_zero_iff]; exact hbuf), hd]
      obtain ⟨e', hfeed, hgone'⟩ := ih
        (e := { e with decipher := some (e.methodInfo.update d buf).2 }) rfl
        (by rw [IvBufGone, hd] at hgone; exact hgone)
      exact ⟨e', by simp [hbuf, feed_cons hcall hfeed], hgone'⟩

/-- An encryptor that has received the part `p` of the iv of a stream, and no more than it: the
    decipher `d` for the iv is given the rest of the stream. -/
theorem feed_decrypt_wait {p : Bytes} {d : σ} (hd : e.decipher = none) (hp : e.ivBuf = some p)
    (hlen : p.length ≤ e.methodInfo.ivLen) (chunks : List Bytes)
    (hcreate : e.methodInfo.ivLen < (p ++ chunks.flatten).length →
      getCipher C e.methodInfo e.key e.method .decrypt
        ((p ++ chunks.flatten).take e.methodInfo.ivLen) = .ok d) :
    ∃ pieces e', feed (decrypt C) e chunks = .ok (total e.methodInfo.update d pieces, e') ∧
      pieces.flatten = (p ++ chunks.flatten).drop e.methodInfo.ivLen ∧ e'.IvBufGone := by
  induction chunks generalizing e p with
  | nil =>
    refine ⟨[], e, rfl, ?_, by rw [IvBufGone, hd, hp]; simp⟩
    rw [List.flatten_nil, List.append_nil, List.drop_of_length_le hlen]
  | cons buf chunks ih =>
    rw [List.flatten_cons, ← List.append_assoc] at hcreate ⊢
    by_cases hbuf : buf = []
    · have hcall : decrypt C e buf = .ok ([], e) := by
        rw [decrypt, hbuf, if_pos List.length_nil]
      rw [hbuf, List.append_nil] at hcreate ⊢
      obtain ⟨pieces, e', hfeed, hpieces, hgone⟩ := ih hd hp hlen hcreate
      exact ⟨pieces, e', feed_cons (hbuf ▸ hcall) hfeed, hpieces, hgone⟩
    · by_cases hfull : (p ++ buf).length > e.methodInfo.ivLen
      · -- The buffer has all of the iv, and the first bytes for the decipher.
        have hiv : (p ++ buf ++ chunks.flatten).take e.methodInfo.ivLen =
            (p ++ buf).take e.methodInfo.ivLen := List.take_append_of_le_length hfull.le
        rw [hiv] at hcreate
        have hcall : decrypt C e buf =
            .ok ((e.methodInfo.update d ((p ++ buf).drop e.methodInfo.ivLen)).1, { e with
              ivBuf := none
              decipher :=
                some (e.methodInfo.update d ((p ++ buf).drop e.methodInfo.ivLen)).2 }) := by
          rw [decrypt, if_neg (by rw [List.length_eq_zero_iff]; exact hbuf), hd, hp]
          dsimp only
          rw [if_pos hlen, if_pos hfull,
            hcreate (by rw [List.length_append]; omega)]
        obtain ⟨e', hfeed, hgone⟩ := feed_decrypt_running (C := C) (e := { e with
          ivBuf := none
          decipher := some (e.methodInfo.update d ((p ++ buf).drop e.methodInfo.ivLen)).2 })
          rfl (by simp [IvBufGone]) chunks
        refine ⟨(p ++ buf).drop e.methodInfo.ivLen :: chunks.filter (· ≠ []), e',
          feed_cons hcall hfeed, ?_, hgone⟩
        rw [List.flatten_cons, List.flatten_filter_ne_nil, List.drop_append_of_le_length hfull.le]
      · have hcall : decrypt C e buf = .ok ([], { e with ivBuf := some (p ++ buf) }) := by
          rw [decrypt, if_neg (by rw [List.length_eq_zero_iff]; exact hbuf), hd, hp]
          dsimp only
          rw [if_pos hlen, if_neg hfull]
        obtain ⟨pieces, e', hfeed, hpieces, hgone⟩ :=
          ih (e := { e with ivBuf := some (p ++ buf) }) hd rfl (by simpa using hfull) hcreate
        exact ⟨pieces, e', feed_cons hcall hfeed, hpieces, hgone⟩

/-! ## Directions -/

/-- A call of an encryptor. -/
inductive Call
  | encrypt (buf : Bytes)
  | decrypt (buf : Bytes)

/-- The buffer that is encrypted. -/
def Call.sent? : Call → Option Bytes
  | .encrypt buf => some buf
  | .decrypt _ => none

/-- The buffer that is decrypted. -/
def Call.received? : Call → Option Bytes
  | .encrypt _ => none
  | .decrypt buf => some buf

/-- Some calls of an encryptor: all that it puts out in either direction, unless a call fails. -/
def talk (C : Crypto) (e : AnyEncryptor σ) : List Call →
    Except PyExc (Bytes × Bytes × AnyEncryptor σ)
  | [] => .ok ([], [], e)
  | .encrypt buf :: calls =>
    match talk C (e.encrypt buf).2 calls with
    | .error x => .error x
    | .ok (out, plain, e') => .ok ((e.encrypt buf).1 ++ out, plain, e')
  | .decrypt buf :: calls =>
    match e.decrypt C buf with
    | .error x => .error x
    | .ok (p, e) =>
      match talk C e calls with
      | .error x => .error x
      | .ok (out, plain, e') => .ok (out, p ++ plain, e')

/-- The encryptor with other fields for `encrypt`. -/
def setUp (e : AnyEncryptor σ) (cipherIv : Bytes) (cipher : σ) (ivSent : Bool) : AnyEncryptor σ :=
  { e with cipherIv, cipher, ivSent }

/-- The encryptor with other fields for `decrypt`. -/
def setDown (e : AnyEncryptor σ) (ivBuf : Option Bytes) (decipher : Option σ) : AnyEncryptor σ :=
  { e with ivBuf, decipher }

/-- What `encrypt` does has nothing to do with the fields for `decrypt`. -/
theorem encrypt_setDown (e : AnyEncryptor σ) (ivBuf : Option Bytes) (decipher : Option σ)
    (buf : Bytes) : (e.setDown ivBuf decipher).encrypt buf =
      ((e.encrypt buf).1, (e.encrypt buf).2.setDown ivBuf decipher) := by
  rw [encrypt, encrypt, setDown]
  dsimp only
  split_ifs <;> rfl

/-- What `decrypt` does has nothing to do with the fields for `encrypt`. -/
theorem decrypt_setUp (e : AnyEncryptor σ) (cipherIv : Bytes) (cipher : σ) (ivSent : Bool)
    (buf : Bytes) : (e.setUp cipherIv cipher ivSent).decrypt C buf =
      (e.decrypt C buf).map fun r => (r.1, r.2.setUp cipherIv cipher ivSent) := by
  rw [decrypt, decrypt, setUp]
  dsimp only
  by_cases hbuf : buf.length = 0
  · rw [if_pos hbuf, if_pos hbuf]
    rfl
  · rw [if_neg hbuf, if_neg hbuf]
    cases e.decipher with
    | some d => rfl
    | none =>
      cases e.ivBuf with
      | none => rfl
      | some ivBuf =>
        dsimp only
        generalize (if ivBuf.length ≤ e.methodInfo.ivLen then ivBuf ++ buf else ivBuf) = ivBuf
        by_cases hlen : ivBuf.length > e.methodInfo.ivLen
        · rw [if_pos hlen, if_pos hlen]
          cases getCipher C e.methodInfo e.key e.method .decrypt
            (ivBuf.take e.methodInfo.ivLen) <;> rfl
        · rw [if_neg hlen, if_neg hlen]
          rfl

/-- `encrypt` keeps the fields for `decrypt`. -/
theorem encrypt_keeps (e : AnyEncryptor σ) (buf : Bytes) :
    (e.encrypt buf).2 = e.setUp e.cipherIv (e.encrypt buf).2.cipher (e.encrypt buf).2.ivSent := by
  rw [encrypt]
  split_ifs <;> rfl

/-- `decrypt` keeps the fields for `encrypt`. -/
theorem decrypt_keeps {e e' : AnyEncryptor σ} {buf out : Bytes}
    (h : e.decrypt C buf = .ok (out, e')) : e' = e.setDown e'.ivBuf e'.decipher := by
  rw [decrypt] at h
  by_cases hbuf : buf.length = 0
  · rw [if_pos hbuf] at h
    obtain ⟨-, rfl⟩ := Prod.mk.inj (Except.ok.inj h)
    rfl
  · rw [if_neg hbuf] at h
    cases hd : e.decipher with
    | some d =>
      rw [hd] at h
      obtain ⟨-, rfl⟩ := Prod.mk.inj (Except.ok.inj h)
      rfl
    | none =>
      rw [hd] at h
      cases hiv : e.ivBuf with
      | none =>
        rw [hiv] at h
        cases h
      | some ivBuf =>
        rw [hiv] at h
        dsimp only at h
        generalize (if ivBuf.length ≤ e.methodInfo.ivLen then ivBuf ++ buf else ivBuf) = ivBuf at h
        by_cases hlen : ivBuf.length > e.methodInfo.ivLen
        · rw [if_pos hlen] at h
          cases hc : getCipher C e.methodInfo e.key e.method .decrypt
            (ivBuf.take e.methodInfo.ivLen) with
          | error x =>
            rw [hc] at h
            cases h
          | ok d =>
            rw [hc] at h
            obtain ⟨-, rfl⟩ := Prod.mk.inj (Except.ok.inj h)
            rfl
        · rw [if_neg hlen] at h
          obtain ⟨-, rfl⟩ := Prod.mk.inj (Except.ok.inj h)
          rfl

theorem feed_encrypt_setDown (ivBuf : Option Bytes) (decipher : Option σ) (sends : List Bytes)
    (out : Bytes) : (∃ e', feed encryptCall (e.setDown ivBuf decipher) sends = .ok (out, e')) ↔
      ∃ e', feed encryptCall e sends = .ok (out, e') := by
  have hcall : ∀ {s t : AnyEncryptor σ} {buf out s'}, (∃ b d, t = s.setDown b d) →
      encryptCall s buf = .ok (out, s') →
      ∃ t', encryptCall t buf = .ok (out, t') ∧ ∃ b d, t' = s'.setDown b d := by
    rintro s _ buf out s' ⟨b, d, rfl⟩ h
    have hs : s.encrypt buf = (out, s') := Except.ok.inj h
    exact ⟨_, by rw [encryptCall, encrypt_setDown, hs], b, d, rfl⟩
  constructor
  · rintro ⟨e', h⟩
    obtain ⟨t', ht, -⟩ := feed_simulates (t := e) hcall ⟨e.ivBuf, e.decipher, rfl⟩ h
    exact ⟨t', ht⟩
  · rintro ⟨e', h⟩
    obtain ⟨t', ht, -⟩ := feed_simulates (t := e.setDown ivBuf decipher) hcall ⟨_, _, rfl⟩ h
    exact ⟨t', ht⟩

theorem feed_decrypt_setUp (cipherIv : Bytes) (cipher : σ) (ivSent : Bool) (chunks : List Bytes)
    (plain : Bytes) :
    (∃ e', feed (decrypt C) (e.setUp cipherIv cipher ivSent) chunks = .ok (plain, e')) ↔
      ∃ e', feed (decrypt C) e chunks = .ok (plain, e') := by
  have hcall : ∀ {s t : AnyEncryptor σ} {buf out s'}, (∃ iv c b, t = s.setUp iv c b) →
      decrypt C s buf = .ok (out, s') →
      ∃ t', decrypt C t buf = .ok (out, t') ∧ ∃ iv c b, t' = s'.setUp iv c b := by
    rintro s _ buf out s' ⟨iv, c, b, rfl⟩ h
    exact ⟨_, by rw [decrypt_setUp, h]; rfl, iv, c, b, rfl⟩
  constructor
  · rintro ⟨e', h⟩
    obtain ⟨t', ht, -⟩ := feed_simulates (t := e) hcall ⟨e.cipherIv, e.cipher, e.ivSent, rfl⟩ h
    exact ⟨t', ht⟩
  · rintro ⟨e', h⟩
    obtain ⟨t', ht, -⟩ := feed_simulates (t := e.setUp cipherIv cipher ivSent) hcall
      ⟨_, _, _, rfl⟩ h
    exact ⟨t', ht⟩

/-- What an encryptor puts out in either direction is what it puts out when it is used in this
    direction only. -/
theorem talk_iff {calls : List Call} {out plain : Bytes} :
    (∃ e', talk C e calls = .ok (out, plain, e')) ↔
    (∃ e', feed encryptCall e (calls.filterMap Call.sent?) = .ok (out, e')) ∧
      ∃ e', feed (decrypt C) e (calls.filterMap Call.received?) = .ok (plain, e') := by
  induction calls generalizing e out plain with
  | nil =>
    constructor
    · rintro ⟨e', h⟩
      obtain ⟨rfl, hrest⟩ := Prod.mk.inj (Except.ok.inj h)
      obtain ⟨rfl, rfl⟩ := Prod.mk.inj hrest
      exact ⟨⟨e, rfl⟩, e, rfl⟩
    · rintro ⟨⟨e₁, h₁⟩, e₂, h₂⟩
      obtain ⟨rfl, -⟩ := Prod.mk.inj (Except.ok.inj h₁)
      obtain ⟨rfl, -⟩ := Prod.mk.inj (Except.ok.inj h₂)
      exact ⟨e, rfl⟩
  | cons call calls ih =>
    cases call with
    | encrypt buf =>
      -- The call leaves the other direction as it is.
      have hdown := feed_decrypt_setUp (C := C) (e := e) e.cipherIv (e.encrypt buf).2.cipher
        (e.encrypt buf).2.ivSent (calls.filterMap Call.received?) plain
      rw [← encrypt_keeps] at hdown
      rw [List.filterMap_cons_some (show Call.sent? (.encrypt buf) = some buf from rfl),
        List.filterMap_cons_none (show Call.received? (.encrypt buf) = none from rfl), ← hdown]
      constructor
      · rintro ⟨e', h⟩
        rw [talk] at h
        cases hrest : talk C (e.encrypt buf).2 calls with
        | error x =>
          rw [hrest] at h
          cases h
        | ok r =>
          obtain ⟨out', plain', e₁⟩ := r
          rw [hrest] at h
          obtain ⟨rfl, hp⟩ := Prod.mk.inj (Except.ok.inj h)
          obtain ⟨rfl, rfl⟩ := Prod.mk.inj hp
          obtain ⟨⟨e₂, h₂⟩, hplain⟩ := ih.1 ⟨_, hrest⟩
          exact ⟨⟨e₂, feed_cons rfl h₂⟩, hplain⟩
      · rintro ⟨⟨e₁, h₁⟩, hplain⟩
        obtain ⟨o, e₂, outs, ho, hos, rfl⟩ := feed_cons_eq_ok h₁
        have henc : e.encrypt buf = (o, e₂) := Except.ok.inj ho
        rw [henc] at hplain
        obtain ⟨e', h'⟩ := ih.2 ⟨⟨_, hos⟩, hplain⟩
        refine ⟨e', ?_⟩
        rw [talk, henc]
        dsimp only
        rw [h']
    | decrypt buf =>
      rw [List.filterMap_cons_some (show Call.received? (.decrypt buf) = some buf from rfl),
        List.filterMap_cons_none (show Call.sent? (.decrypt buf) = none from rfl)]
      constructor
      · rintro ⟨e', h⟩
        rw [talk] at h
        cases hd : e.decrypt C buf with
        | error x =>
          rw [hd] at h
          cases h
        | ok r =>
          obtain ⟨p, e₁⟩ := r
          have hup := feed_encrypt_setDown (e := e) e₁.ivBuf e₁.decipher
            (calls.filterMap Call.sent?) out
          rw [← decrypt_keeps hd] at hup
          rw [hd] at h
          dsimp only at h
          cases hrest : talk C e₁ calls with
          | error x =>
            rw [hrest] at h
            cases h
          | ok r =>
            obtain ⟨out', plain', e₂⟩ := r
            rw [hrest] at h
            obtain ⟨rfl, hp⟩ := Prod.mk.inj (Except.ok.inj h)
            obtain ⟨rfl, rfl⟩ := Prod.mk.inj hp
            obtain ⟨hout, e₃, h₃⟩ := ih.1 ⟨_, hrest⟩
            exact ⟨hup.1 hout, e₃, feed_cons hd h₃⟩
      · rintro ⟨hout, e₁, h₁⟩
        obtain ⟨p, e₂, outs, hp, hps, rfl⟩ := feed_cons_eq_ok h₁
        have hup := feed_encrypt_setDown (e := e) e₂.ivBuf e₂.decipher
          (calls.filterMap Call.sent?) out
        rw [← decrypt_keeps hp] at hup
        obtain ⟨e', h'⟩ := ih.2 ⟨hup.2 hout, _, hps⟩
        refine ⟨e', ?_⟩
        rw [talk, hp]
        dsimp only
        rw [h']

/-! ## The round trip -/

/-- What an encryptor puts out is its iv, once and first, and then what its cipher puts out. Wherever
    it is cut, another encryptor with the same password gets the buffers back; it never fails, and
    its `iv_buf` is gone when it has a decipher. Using one encryptor in both directions is using it
    in each of them. -/
theorem stream_round_trip (h : info.IsByteStream method) (password : Bytes) (iv iv' : Option Bytes)
    (rng rng' : Rng) : ∃ e r d r',
      new C info password method iv rng = .ok (e, r) ∧
      new C info password method iv' rng' = .ok (d, r') ∧ e.cipherIv.length = info.ivLen ∧
      (∀ sends, ∃ stream e', feed encryptCall e sends = .ok (stream, e') ∧
        stream = (if sends = [] then [] else e.cipherIv) ++ total info.update e.cipher sends ∧
        ∀ chunks, chunks.flatten = stream →
          ∃ d', feed (decrypt C) d chunks = .ok (sends.flatten, d')) ∧
      (∀ chunks, ∃ plain d', feed (decrypt C) d chunks = .ok (plain, d') ∧ d'.IvBufGone) ∧
      ∀ calls out plain, (∃ e', talk C e calls = .ok (out, plain, e')) ↔
        (∃ e', feed encryptCall e (calls.filterMap Call.sent?) = .ok (out, e')) ∧
          ∃ e', feed (decrypt C) e (calls.filterMap Call.received?) = .ok (plain, e') := by
  have hlen := length_evpBytesToKey C password info.keyLen info.ivLen
  have hiv := length_newIv info.ivLen iv rng
  have hiv' := length_newIv info.ivLen iv' rng'
  obtain ⟨⟨iv, r⟩, hnew⟩ : ∃ r, newIv info.ivLen iv rng = r := ⟨_, rfl⟩
  obtain ⟨⟨iv', r'⟩, hnew'⟩ : ∃ r, newIv info.ivLen iv' rng' = r := ⟨_, rfl⟩
  rw [hnew] at hiv
  rw [hnew'] at hiv'
  dsimp only at hiv hiv'
  obtain ⟨c, dc, hc, hdc, hinv⟩ := h _ iv hlen hiv
  obtain ⟨c', dc', hc', -, -⟩ := h _ iv' hlen hiv'
  have hcipher : getCipher C info password method.toLower .encrypt iv = .ok c := by
    rw [getCipher, cipherKey_eq, List.take_of_length_le hiv.le]
    exact hc
  have hcipher' : getCipher C info password method.toLower .encrypt iv' = .ok c' := by
    rw [getCipher, cipherKey_eq, List.take_of_length_le hiv'.le]
    exact hc'
  refine ⟨{ key := password, method, methodInfo := info, cipherIv := iv, cipher := c }, r,
    { key := password, method, methodInfo := info, cipherIv := iv', cipher := c' }, r', ?_, ?_, hiv,
    fun sends => ?_, fun chunks => ?_, fun calls out plain => talk_iff⟩
  · rw [new, hnew]
    dsimp only
    rw [hcipher, cipherKey_eq, List.take_of_length_le hiv.le]
    rfl
  · rw [new, hnew']
    dsimp only
    rw [hcipher', cipherKey_eq, List.take_of_length_le hiv'.le]
    rfl
  · obtain ⟨e', hfeed⟩ := feed_encrypt
      (e := { key := password, method, methodInfo := info, cipherIv := iv, cipher := c }) rfl
      hinv.joins sends
    refine ⟨_, e', hfeed, rfl, fun chunks hchunks => ?_⟩
    obtain ⟨pieces, d', hfeed', hpieces, -⟩ := feed_decrypt_wait (C := C)
      (e := { key := password, method, methodInfo := info, cipherIv := iv', cipher := c' }) (p := [])
      (d := dc) rfl rfl (Nat.zero_le _) chunks (fun hlong => by
        rw [List.nil_append, hchunks] at hlong ⊢
        cases sends with
        | nil => exact absurd hlong (Nat.not_lt_zero _)
        | cons buf sends =>
          rw [if_neg (List.cons_ne_nil _ _), List.take_left' hiv, getCipher, cipherKey_eq,
            List.take_of_length_le hiv.le]
          exact hdc)
    refine ⟨d', ?_⟩
    rw [hfeed']
    rw [List.nil_append, hchunks] at hpieces
    cases sends with
    | nil =>
      rw [if_pos rfl, total_nil, List.append_nil, List.drop_nil] at hpieces
      have hnil : (info.update dc []).1 = [] := (hinv.joins' []).symm
      rw [hinv.joins' pieces, hpieces, hnil]
      rfl
    | cons buf sends =>
      rw [if_neg (List.cons_ne_nil _ _), List.drop_left' hiv] at hpieces
      rw [hinv.total_total hpieces]
  · obtain ⟨dc', hdc'⟩ : ∃ dc', info.ivLen < ([] ++ chunks.flatten).length →
        getCipher C info password method .decrypt (([] ++ chunks.flatten).take info.ivLen) =
          .ok dc' := by
      by_cases hlong : info.ivLen < ([] ++ chunks.flatten).length
      · have htake : (([] ++ chunks.flatten).take info.ivLen).length = info.ivLen := by
          rw [List.length_take]
          omega
        obtain ⟨-, dc', -, hdc', -⟩ := h _ _ hlen htake
        refine ⟨dc', fun _ => ?_⟩
        rw [getCipher, cipherKey_eq, List.take_of_length_le htake.le]
        exact hdc'
      · exact ⟨dc, fun hl => absurd hl hlong⟩
    obtain ⟨pieces, d', hfeed, -, hgone⟩ := feed_decrypt_wait (C := C)
      (e := { key := password, method, methodInfo := info, cipherIv := iv', cipher := c' }) (p := [])
      rfl rfl (Nat.zero_le _) chunks hdc'
    exact ⟨_, d', hfeed, hgone⟩

/-- A cipher object of a stream cipher, whatever it has been given. -/
theorem joins_update {c : Cipher} (hm : c.method ≠ .aes128Cbc) : Joins (Cipher.update C) c := by
  intro ps
  have htotal : c.output C ++ total (Cipher.update C) c ps =
      { c with given := c.given ++ ps.flatten }.output C := by
    induction ps generalizing c with
    | nil => rw [total_nil, List.append_nil, List.flatten_nil, List.append_nil]
    | cons p ps ih =>
      rw [total_cons, ← List.append_assoc, Cipher.output_append_update hm,
        ih (c := (c.update C p).2) hm, List.flatten_cons, ← List.append_assoc]
      rfl
  exact List.append_cancel_left (htotal.trans (Cipher.output_append_update hm ps.flatten).symm)

/-- The stream ciphers of the protocols are byte streams. -/
theorem isByteStream_cipherInfo (C : Crypto) {m : CipherMethod} (hm : m ≠ .aes128Cbc)
    (method : String) : (cipherInfo C m).IsByteStream method := by
  intro key iv _ _
  refine ⟨_, _, rfl, rfl, joins_update hm, joins_update hm, fun buf => ?_⟩
  have hfirst : ∀ op buf, (Cipher.update C { method := m, key, iv, op } buf).1 =
      C.cipher m key iv op buf := fun op buf => by
    rw [Cipher.update, Cipher.output, Cipher.output, C.cipher_nil]
    rfl
  exact (congrArg (fun b => (Cipher.update C _ b).1) (hfirst .encrypt buf)).trans
    ((hfirst .decrypt _).trans (C.stream_inverse hm key iv buf))

/-- Three buffers of a method with an iv of eight bytes, the stream being cut inside the iv. -/
theorem stream_round_trip_chacha20 : ∃ e r d r',
    new plainCrypto (cipherInfo plainCrypto .chacha20) [1, 2] "chacha20" none (fun n => n) =
      .ok (e, r) ∧
    new plainCrypto (cipherInfo plainCrypto .chacha20) [1, 2] "chacha20" none (fun _ => 0) =
      .ok (d, r') ∧
    ∃ stream e' d', feed encryptCall e [[], [5], []] = .ok (stream, e') ∧
      feed (decrypt plainCrypto) d [stream.take 3, stream.drop 3] = .ok ([5], d') := by
  obtain ⟨e, r, d, r', he, hd, -, htrip, -⟩ := stream_round_trip
    (isByteStream_cipherInfo plainCrypto (m := .chacha20) (by decide) "chacha20") [1, 2] none none
    (fun n => n) (fun _ => 0)
  obtain ⟨stream, e', hsend, -, hrecv⟩ := htrip [[], [5], []]
  obtain ⟨d', hd'⟩ := hrecv [stream.take 3, stream.drop 3]
    ((congrArg _ (List.append_nil _)).trans (List.take_append_drop 3 _))
  exact ⟨e, r, d, r', he, hd, stream, e', d', hsend, hd'⟩

end AnyEncryptor

end ShadowsocksR

import ShadowsocksR.Encryptor.RoundTrip
import ShadowsocksR.Lib.Layer

/-!
# Encryptors as a layer

The encryptors at the two ends of a connection, which have the same password.

* `AnyEncryptor.peer`: an encryptor at one end;
* `AnyEncryptor.flows_new`: a new encryptor gets back what another one is given;
* `AnyEncryptor.layer`: so two encryptors are a layer;
* `AnyEncryptor.BeginsWithIv`: what an encryptor has sent begins with its iv.
-/

namespace ShadowsocksR

namespace AnyEncryptor

variable {σ : Type}

/-- An encryptor at one end of a connection. -/
def peer (C : Crypto) : Peer PyExc Unit (AnyEncryptor σ) where
  send _ e buf := .ok (e.encrypt buf)
  recv _ e buf := (e.decrypt C buf).map fun r => ((r.1, none), r.2)

variable {C : Crypto} {info : CipherInfo σ} {method : String} {e e' d : AnyEncryptor σ}

theorem peer_recv_of_decrypt {buf data : Bytes} (h : e.decrypt C buf = .ok (data, e')) (k : Unit) :
    (peer C).recv k e buf = .ok ((data, none), e') := by
  change (e.decrypt C buf).map _ = _
  rw [h]
  rfl

theorem peer_recv_eq_ok {k : Unit} {buf : Bytes} {r : Bytes × Option Bytes}
    (h : (peer C).recv k e buf = .ok (r, e')) : e.decrypt C buf = .ok (r.1, e') ∧ r.2 = none := by
  change (e.decrypt C buf).map _ = _ at h
  cases hd : e.decrypt C buf with
  | error x =>
    rw [hd] at h
    cases h
  | ok p =>
    rw [hd] at h
    cases h
    exact ⟨rfl, rfl⟩

theorem peer_data (e : AnyEncryptor σ) (c : Unit × Bytes) :
    (peer C).data e c = e.decrypt C c.2 := by
  change ((e.decrypt C c.2).map _).map _ = _
  cases e.decrypt C c.2 <;> rfl

/-- The two directions of an encryptor do not touch each other. -/
def halves (C : Crypto) : (peer (σ := σ) C).Halves where
  sendsAs e e' := ∃ b d, e' = e.setDown b d
  recvsAs e e' := ∃ iv c sent, e' = e.setUp iv c sent
  send_sendsAs := by
    rintro _ e _ buf out s' ⟨b, d, rfl⟩ h
    have hs : e.encrypt buf = (out, s') := Except.ok.inj h
    refine ⟨s'.setDown b d, ?_, b, d, rfl⟩
    change Except.ok ((e.setDown b d).encrypt buf) = _
    rw [encrypt_setDown, hs]
  recv_recvsAs := by
    rintro k e _ buf r e' ⟨iv, c, sent, rfl⟩ h
    obtain ⟨hd, hback⟩ := peer_recv_eq_ok h
    refine ⟨e'.setUp iv c sent, ?_, iv, c, sent, rfl⟩
    have hd' : (e.setUp iv c sent).decrypt C buf = .ok (r.1, e'.setUp iv c sent) := by
      rw [decrypt_setUp, hd]
      rfl
    rw [peer_recv_of_decrypt hd', ← hback]
  recv_sendsAs h := ⟨_, _, decrypt_keeps (peer_recv_eq_ok h).1⟩
  send_recvsAs {k e buf out e'} h := by
    have hs : e.encrypt buf = (out, e') := Except.ok.inj h
    have hkeeps := encrypt_keeps e buf
    rw [hs] at hkeeps
    exact ⟨_, _, _, hkeeps⟩
  back h := (peer_recv_eq_ok h).2

/-- An encryptor that has not been used, with the iv `iv`. -/
structure IsNew (C : Crypto) (info : CipherInfo σ) (password : Bytes) (method : String) (iv : Bytes)
    (e : AnyEncryptor σ) : Prop where
  key_eq : e.key = password
  method_eq : e.method = method
  methodInfo_eq : e.methodInfo = info
  cipherIv_eq : e.cipherIv = iv
  length_iv : iv.length = info.ivLen
  cipher_eq : getCipher C info password method.toLower .encrypt iv = .ok e.cipher
  ivSent_eq : e.ivSent = false
  ivBuf_eq : e.ivBuf = some []
  decipher_eq : e.decipher = none

/-- A new encryptor gets back what another one with the same password is given. -/
theorem flows_new (h : info.IsByteStream method) {password iv iv' : Bytes}
    (he : IsNew C info password method iv e) (hd : IsNew C info password method iv' d) :
    Flows (peer C) (peer C) e d [] [] := by
  obtain ⟨c, dc, hc, hdc, hinv⟩ := h _ iv (length_evpBytesToKey C password info.keyLen info.ivLen)
    he.length_iv
  have hcipher : getCipher C info password method.toLower .encrypt iv = .ok c := by
    rw [getCipher, cipherKey_eq, List.take_of_length_le he.length_iv.le]
    exact hc
  have hdecipher : getCipher C info password method .decrypt iv = .ok dc := by
    rw [getCipher, cipherKey_eq, List.take_of_length_le he.length_iv.le]
    exact hdc
  obtain rfl : e.cipher = c := Except.ok.inj (he.cipher_eq.symm.trans hcipher)
  intro sends
  obtain ⟨e', hfeed⟩ := feed_encrypt he.ivSent_eq (by rw [he.methodInfo_eq]; exact hinv.joins)
    (sends.map Prod.snd)
  rw [he.methodInfo_eq, he.cipherIv_eq] at hfeed
  refine ⟨_, e', (feed_map Prod.snd sends).symm.trans hfeed, fun chunks hchunks => ?_⟩
  have hstream : [] ++ (chunks.map Prod.snd).flatten =
      (if sends.map Prod.snd = [] then [] else iv) ++
        total info.update e.cipher (sends.map Prod.snd) := hchunks
  obtain ⟨pieces, d', hrecv, hpieces, -⟩ := feed_decrypt_wait (C := C) (e := d) (d := dc)
    hd.decipher_eq hd.ivBuf_eq (Nat.zero_le _) (chunks.map Prod.snd) (fun hlong => by
      rw [hd.methodInfo_eq, hstream] at hlong
      rw [hd.methodInfo_eq, hd.key_eq, hd.method_eq, hstream]
      cases sends with
      | nil => exact absurd hlong (Nat.not_lt_zero _)
      | cons buf sends =>
        rw [List.map_cons, if_neg (List.cons_ne_nil _ _), List.take_left' he.length_iv]
        exact hdecipher)
  rw [hd.methodInfo_eq] at hrecv hpieces
  have hdata : feed (peer C).data d chunks = feed (decrypt C) d (chunks.map Prod.snd) := by
    rw [feed_map]
    exact congrArg (fun call => feed call d chunks) (funext fun e => funext fun c => peer_data e c)
  refine ⟨d', ?_⟩
  rw [hdata, hrecv, List.nil_append]
  rw [hstream] at hpieces
  cases sends with
  | nil =>
    rw [List.map_nil, if_pos rfl, total_nil, List.append_nil, List.drop_nil] at hpieces
    have hnil : (info.update dc []).1 = [] := (hinv.joins' []).symm
    rw [hinv.joins' pieces, hpieces, hnil]
    rfl
  | cons buf sends =>
    rw [List.map_cons, if_neg (List.cons_ne_nil _ _), List.drop_left' he.length_iv] at hpieces
    rw [hinv.total_total hpieces]
    rfl

/-- Encryptors at the two ends. -/
def layer (C : Crypto) : Layer PyExc Unit (AnyEncryptor σ) (AnyEncryptor σ) :=
  .ofFlows (peer C) (peer C) (halves C) (halves C)

instance : (layer (σ := σ) C).DecidableTerms :=
  inferInstanceAs (Layer.ofFlows (peer C) (peer C) (halves C) (halves C)).DecidableTerms

theorem layer_inv_new (h : info.IsByteStream method) {password iv iv' : Bytes}
    (he : IsNew C info password method iv e) (hd : IsNew C info password method iv' d) :
    (layer C).Inv e d {} :=
  ⟨flows_new h he hd, flows_new h hd he⟩

/-- What `__init__` makes, when there is a cipher object for the iv. -/
theorem isNew_new (h : info.IsByteStream method) (password : Bytes) (iv : Option Bytes)
    (rng : Rng) : ∃ e r, new C info password method iv rng = .ok (e, r) ∧
      IsNew C info password method (newIv info.ivLen iv rng).1 e := by
  have hiv := length_newIv info.ivLen iv rng
  obtain ⟨⟨iv, r⟩, hnew⟩ : ∃ r, newIv info.ivLen iv rng = r := ⟨_, rfl⟩
  rw [hnew] at hiv ⊢
  dsimp only at hiv ⊢
  obtain ⟨c, dc, hc, -, -⟩ := h _ iv (length_evpBytesToKey C password info.keyLen info.ivLen) hiv
  have hcipher : getCipher C info password method.toLower .encrypt iv = .ok c := by
    rw [getCipher, cipherKey_eq, List.take_of_length_le hiv.le]
    exact hc
  refine ⟨{ key := password, method, methodInfo := info, cipherIv := iv, cipher := c }, r, ?_,
    rfl, rfl, rfl, rfl, hiv, hcipher, rfl, rfl, rfl⟩
  rw [new, hnew]
  dsimp only
  rw [hcipher, cipherKey_eq, List.take_of_length_le hiv.le]
  rfl

/-! ## The iv -/

/-- The encryptor `e` has sent nothing, or its iv first; `out` is not received yet. -/
def BeginsWithIv (iv : Bytes) (e : AnyEncryptor σ) (out : Bytes) : Prop :=
  e.cipherIv = iv ∧ (e.ivSent = false ∧ out = [] ∨ e.ivSent = true ∧ iv <+: out)

theorem BeginsWithIv.encrypt {iv out : Bytes} (h : BeginsWithIv iv e out) (buf : Bytes) :
    BeginsWithIv iv (e.encrypt buf).2 (out ++ (e.encrypt buf).1) := by
  obtain ⟨rfl, ⟨hsent, rfl⟩ | ⟨hsent, hout⟩⟩ := h
  · by_cases hbuf : buf.length = 0
    · rw [AnyEncryptor.encrypt, if_pos hbuf, hsent]
      exact ⟨rfl, .inr ⟨rfl, List.prefix_rfl⟩⟩
    · rw [AnyEncryptor.encrypt, if_neg hbuf, hsent]
      exact ⟨rfl, .inr ⟨rfl, List.prefix_append _ _⟩⟩
  · by_cases hbuf : buf.length = 0
    · rw [AnyEncryptor.encrypt, if_pos hbuf, hsent]
      exact ⟨rfl, .inr ⟨hsent, hout.trans (List.prefix_append _ _)⟩⟩
    · rw [AnyEncryptor.encrypt, if_neg hbuf, if_pos hsent]
      exact ⟨rfl, .inr ⟨hsent, hout.trans (List.prefix_append _ _)⟩⟩

theorem BeginsWithIv.decrypt {iv out buf data : Bytes} (h : BeginsWithIv iv e out)
    (hd : e.decrypt C buf = .ok (data, e')) : BeginsWithIv iv e' out := by
  rw [decrypt_keeps hd]
  exact h

end AnyEncryptor

end ShadowsocksR

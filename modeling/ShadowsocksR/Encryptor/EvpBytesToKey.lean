import ShadowsocksR.Encrypt
import ShadowsocksR.Inet.PackAddr
import ShadowsocksR.Inet.Object
import ShadowsocksR.Lib.Framing
import ShadowsocksR.Lib.PrefixCode
import ShadowsocksR.Lib.Run
import ShadowsocksR.LruCache

/-!
# The derivation of keys

`EVP_BytesToKey` hashes a password until there are enough bytes for a key and an iv, and can keep the
result in a cache, under a text that is made of the password and the two lengths.

* `reprBytes`: a byte string as Python writes it into the text;
* `cachedKey_inj`: different passwords or lengths have different texts;
* `joinDigests_spec`: the loop ends, with enough bytes;
* `evpBytesToKey_transparent`: every call returns what the hashes give, whatever calls came before,
  and whatever was deleted from the cache.
-/

namespace ShadowsocksR

/-! ## The text of a byte string -/

/-- A byte as a character. -/
def byteChar (b : UInt8) : Char := Char.ofNat b.toNat

/-- A hexadecimal digit, in lower case. -/
def lowerHexDigit (n : ℕ) : Char := Char.ofNat (if n < 10 then 48 + n else 87 + n)

/-- A byte between two quotes. -/
def escapeByte (quote b : UInt8) : Text :=
  if b = quote ∨ b = 92 then ['\\', byteChar b]
  else if b = 9 then ['\\', 't']
  else if b = 10 then ['\\', 'n']
  else if b = 13 then ['\\', 'r']
  else if b < 32 ∨ 127 ≤ b then
    ['\\', 'x', lowerHexDigit (b.toNat / 16), lowerHexDigit (b.toNat % 16)]
  else [byteChar b]

/-- Double quotes are used when there are single ones in the string, and no double ones. -/
def reprQuote (bs : Bytes) : UInt8 := if 39 ∈ bs ∧ 34 ∉ bs then 34 else 39

/-- `repr(bs)`, which `'%s' % bs` is too. -/
def reprBytes (bs : Bytes) : Text :=
  'b' :: byteChar (reprQuote bs) ::
    (bs.flatMap (escapeByte (reprQuote bs)) ++ [byteChar (reprQuote bs)])

/-- The byte at the front of a text between two quotes, and the rest. -/
def unescapeByte : Text → Option (UInt8 × Text)
  | [] => none
  | c :: rest =>
    if c ≠ '\\' then some (UInt8.ofNat c.toNat, rest)
    else
      match rest with
      | [] => none
      | c :: rest =>
        if c = 'x' then
          match rest with
          | high :: low :: rest =>
            some (UInt8.ofNat (16 * (digitValue high).getD 0 + (digitValue low).getD 0), rest)
          | _ => none
        else if c = 't' then some (9, rest)
        else if c = 'n' then some (10, rest)
        else if c = 'r' then some (13, rest)
        else some (UInt8.ofNat c.toNat, rest)

/-- Reading a byte does not depend on what comes after it. -/
theorem unescapeByte_append {s rest : Text} {b : UInt8} (h : unescapeByte s = some (b, [])) :
    unescapeByte (s ++ rest) = some (b, rest) := by
  rcases s with - | ⟨c, s⟩
  · cases h
  rw [List.cons_append]
  unfold unescapeByte at h ⊢
  dsimp only at h ⊢
  split_ifs at h ⊢ with hc
  · cases h
    rfl
  rcases s with - | ⟨d, s⟩
  · cases h
  rw [List.cons_append]
  dsimp only at h ⊢
  split_ifs at h ⊢ with hx ht hn hr
  · rcases s with - | ⟨high, - | ⟨low, s⟩⟩ <;> cases h
    rfl
  all_goals
    cases h
    rfl

theorem toNat_byteChar (b : UInt8) : (byteChar b).toNat = b.toNat := by
  have hb := b.toNat_lt
  rw [byteChar, Char.ofNat, dif_pos (.inl (by omega))]
  rfl

/-- A byte is its character again. -/
theorem ofNat_byteChar (b : UInt8) : UInt8.ofNat (byteChar b).toNat = b := by
  rw [toNat_byteChar, UInt8.ofNat_toNat]

theorem byteChar_inj {b b' : UInt8} (h : byteChar b = byteChar b') : b = b' := by
  rw [← ofNat_byteChar b, h, ofNat_byteChar]

theorem digitValue_lowerHexDigit {n : ℕ} (h : n < 16) : digitValue (lowerHexDigit n) = some n := by
  interval_cases n <;> decide

/-- A byte is read again. -/
theorem unescapeByte_escapeByte {quote : UInt8} (hquote : quote = 39 ∨ quote = 34) (b : UInt8)
    (rest : Text) : unescapeByte (escapeByte quote b ++ rest) = some (b, rest) := by
  refine unescapeByte_append ?_
  unfold escapeByte
  split_ifs with hself ht hn hr hx
  · -- The two quotes and the backslash are no letters of an escape.
    rcases hquote with rfl | rfl <;> rcases hself with rfl | rfl <;> decide
  · subst ht; decide
  · subst hn; decide
  · subst hr; decide
  · have hb := b.toNat_lt
    simp only [unescapeByte, ne_eq, not_true_eq_false, if_false, if_true,
      digitValue_lowerHexDigit (show b.toNat / 16 < 16 by omega),
      digitValue_lowerHexDigit (show b.toNat % 16 < 16 by omega), Option.getD_some,
      Nat.div_add_mod, UInt8.ofNat_toNat]
  · have hne : byteChar b ≠ '\\' := fun h => hself (.inr (byteChar_inj h))
    rw [unescapeByte, if_pos hne, ofNat_byteChar]

/-- Different byte strings have different texts. -/
theorem reprBytes_inj {bs bs' : Bytes} (h : reprBytes bs = reprBytes bs') : bs = bs' := by
  have hquote (bs : Bytes) : reprQuote bs = 39 ∨ reprQuote bs = 34 := by
    unfold reprQuote
    split_ifs
    · exact .inr rfl
    · exact .inl rfl
  have hne : byteChar 39 ≠ byteChar 34 := by decide
  obtain ⟨hchar, hbody⟩ := List.cons.inj (List.cons.inj h).2
  have heq : reprQuote bs = reprQuote bs' := by
    rcases hquote bs with h₁ | h₁ <;> rcases hquote bs' with h₂ | h₂ <;> rw [h₁, h₂] at hchar ⊢
    · exact absurd hchar hne
    · exact absurd hchar.symm hne
  rw [heq] at hbody
  exact flatMap_inj_of_read (unescapeByte_escapeByte (hquote bs')) rfl
    (List.append_cancel_right hbody)

/-! ## The cache -/

/-- A password: `bytes`, or a `str`. -/
inductive Password
  | bytes (password : Bytes)
  | str (password : Text)

/-- `password.encode('utf-8')`, if it is not `bytes`. -/
def Password.encode : Password → Bytes
  | .bytes password => password
  | .str password => encodeText password

/-- `'%s-%d-%d' % (password, key_len, iv_len)` -/
def cachedKey (password : Bytes) (keyLen ivLen : ℕ) : Text :=
  reprBytes password ++ '-' :: Nat.toDigits 10 keyLen ++ '-' :: Nat.toDigits 10 ivLen

/-- `cached_keys` -/
abbrev CachedKeys := LRUCache Text (Bytes × Bytes)

theorem toDigits_inj {m n : ℕ} (h : Nat.toDigits 10 m = Nat.toDigits 10 n) : m = n := by
  have hvalue := congrArg (Nat.ofDigitChars 10 · 0) h
  simpa only [Nat.ofDigitChars_ten_toDigits] using hvalue

/-- The number at the end of a text, behind a dash. -/
theorem append_toDigits_inj {s s' : Text} {m n : ℕ}
    (h : s ++ '-' :: Nat.toDigits 10 m = s' ++ '-' :: Nat.toDigits 10 n) : s = s' ∧ m = n := by
  have hdash (n : ℕ) : '-' ∉ Nat.toDigits 10 n := not_mem_toDigits rfl n
  have hdigits := congrArg (List.rtakeWhile (· ≠ '-')) h
  rw [rtakeWhile_append_cons (hdash m), rtakeWhile_append_cons (hdash n)] at hdigits
  rw [hdigits] at h
  exact ⟨List.append_cancel_right h, toDigits_inj hdigits⟩

/-- Different passwords or lengths are kept under different texts. -/
theorem cachedKey_inj {password password' : Bytes} {keyLen keyLen' ivLen ivLen' : ℕ}
    (h : cachedKey password keyLen ivLen = cachedKey password' keyLen' ivLen') :
    password = password' ∧ keyLen = keyLen' ∧ ivLen = ivLen' := by
  obtain ⟨h, hiv⟩ := append_toDigits_inj h
  obtain ⟨h, hkey⟩ := append_toDigits_inj h
  exact ⟨reprBytes_inj h, hkey, hiv⟩

/-! ## Digests -/

variable {C : Crypto} {password : Bytes} {keyLen ivLen : ℕ}

/-- The digests: of the password, and of each digest with the password behind it. -/
def evpDigest (C : Crypto) (password : Bytes) : ℕ → Bytes
  | 0 => C.hash .md5 password
  | i + 1 => C.hash .md5 (evpDigest C password i ++ password)

/-- The first `n` digests. -/
def evpStream (C : Crypto) (password : Bytes) (n : ℕ) : Bytes :=
  (List.range n).flatMap (evpDigest C password)

/-- One turn of the loop; `i` is the number of digests in `m`. -/
def evpBody (C : Crypto) (password : Bytes) (need : ℕ) (m : List Bytes) :
    Next (List Bytes) PyExc :=
  if m.flatten.length < need then
    let i := m.length
    let data := if i > 0 then m.getD (i - 1) [] ++ password else password
    .more (m ++ [C.hash .md5 data])
  else .done m

/-- The digests of the loop, joined, if it ends. -/
def joinDigests (C : Crypto) (password : Bytes) (need : ℕ) : Option Bytes :=
  match loop (evpBody C password need) (need + 1) [] with
  | .done m => some m.flatten
  | _ => none

theorem length_evpDigest (i : ℕ) : (evpDigest C password i).length = 16 := by
  cases i <;> exact C.length_hash _ _

theorem length_evpStream (n : ℕ) : (evpStream C password n).length = 16 * n := by
  rw [evpStream, List.length_flatMap]
  simp [length_evpDigest, Nat.mul_comm]

theorem evpStream_prefix {n n' : ℕ} (h : n ≤ n') :
    evpStream C password n <+: evpStream C password n' := by
  obtain ⟨k, rfl⟩ := Nat.exists_eq_add_of_le h
  rw [evpStream, evpStream, List.range_add, List.flatMap_append]
  exact List.prefix_append _ _

/-- However many digests there are, the first bytes are the same. -/
theorem take_evpStream {need n n' : ℕ} (h : need ≤ 16 * n) (h' : need ≤ 16 * n') :
    (evpStream C password n).take need = (evpStream C password n').take need := by
  wlog hle : n ≤ n' generalizing n n'
  · exact (this h' h (by omega)).symm
  · have hpre : evpStream C password n <+: evpStream C password n' := evpStream_prefix hle
    obtain ⟨l, hl⟩ := hpre
    rw [← hl, List.take_append_of_le_length (by rwa [length_evpStream])]

/-- A turn of the loop, when there are `n` digests. -/
theorem evpBody_range {need n : ℕ} (h : 16 * n < need) :
    evpBody C password need ((List.range n).map (evpDigest C password)) =
      .more ((List.range (n + 1)).map (evpDigest C password)) := by
  have hlength : ((List.range n).map (evpDigest C password)).flatten.length = 16 * n :=
    length_evpStream n
  rw [evpBody, if_pos (hlength ▸ h), List.length_map, List.length_range, List.range_succ,
    List.map_append]
  cases n with
  | zero => rfl
  | succ n => simp [evpDigest, List.getD_eq_getElem?_getD]

/-- The loop ends with enough digests, when it has a turn for each byte that is missing. -/
theorem loop_evpBody (C : Crypto) (password : Bytes) {need n fuel : ℕ} (h : need ≤ 16 * n + fuel) :
    ∃ n', need ≤ 16 * n' ∧
      loop (evpBody C password need) (fuel + 1) ((List.range n).map (evpDigest C password)) =
        .done ((List.range n').map (evpDigest C password)) := by
  have hdone (n : ℕ) (hn : need ≤ 16 * n) :
      evpBody C password need ((List.range n).map (evpDigest C password)) =
        .done ((List.range n).map (evpDigest C password)) := by
    have hlength : ((List.range n).map (evpDigest C password)).flatten.length = 16 * n :=
      length_evpStream n
    rw [evpBody, if_neg (by omega)]
  induction fuel generalizing n with
  | zero => exact ⟨n, h, loop_succ_of_done (hdone n h)⟩
  | succ fuel ih =>
    by_cases hmore : 16 * n < need
    · rw [loop_succ_of_more (evpBody_range hmore)]
      exact ih (by omega)
    · exact ⟨n, by omega, loop_succ_of_done (hdone n (by omega))⟩

/-- The loop ends, and has joined enough digests. -/
theorem joinDigests_spec (C : Crypto) (password : Bytes) (need : ℕ) :
    ∃ n, need ≤ 16 * n ∧ joinDigests C password need = some (evpStream C password n) := by
  obtain ⟨n, hn, hloop⟩ := loop_evpBody C password (n := 0) (show need ≤ 16 * 0 + need by omega)
  refine ⟨n, hn, ?_⟩
  have hstart : loop (evpBody C password need) (need + 1) [] =
    .done ((List.range n).map (evpDigest C password)) := hloop
  rw [joinDigests, hstart, evpStream, List.flatMap_def]

/-! ## Calls -/

/-- The arguments of a call, and when it uses the cache. -/
structure EvpCall where
  password : Password
  keyLen : ℕ
  ivLen : ℕ
  cache : Bool
  getTime : Time
  setTime : Time
  sweepTime : Time

/-- `EVP_BytesToKey`, with the cache after the call; a pair of byte strings is true. -/
def evpBytesToKeyCall (C : Crypto) (cachedKeys : CachedKeys) (call : EvpCall) :
    Option ((Bytes × Bytes) × CachedKeys) :=
  let password := call.password.encode
  let key := cachedKey password call.keyLen call.ivLen
  match cachedKeys.get call.getTime key with
  | (some r, cachedKeys) => some (r, cachedKeys)
  | (none, cachedKeys) =>
    match joinDigests C password (call.keyLen + call.ivLen) with
    | none => none
    | some ms =>
      let r := (ms.take call.keyLen, ms.extract call.keyLen (call.keyLen + call.ivLen))
      if call.cache then
        some (r, (cachedKeys.setItem call.setTime key r).sweep call.sweepTime)
      else some (r, cachedKeys)

/-- What the process does with the cache. -/
inductive EvpEvent
  | evpBytesToKey (call : EvpCall)
  /-- The entries that have expired are deleted, -/
  | sweep (now : Time)
  /-- or any entry. -/
  | delete (key : Text)

/-- The call of an event. -/
def EvpEvent.call? : EvpEvent → Option EvpCall
  | .evpBytesToKey call => some call
  | _ => none

/-- All the calls of a process return, with these results. -/
def evpRun (C : Crypto) (cachedKeys : CachedKeys) :
    List EvpEvent → Option (List (Bytes × Bytes) × CachedKeys)
  | [] => some ([], cachedKeys)
  | .evpBytesToKey call :: events =>
    match evpBytesToKeyCall C cachedKeys call with
    | none => none
    | some (r, cachedKeys) => (evpRun C cachedKeys events).map fun p => (r :: p.1, p.2)
  | .sweep now :: events => evpRun C (cachedKeys.sweep now) events
  | .delete key :: events => evpRun C ((cachedKeys.delItem key).getD cachedKeys) events

/-- What a password gives for two lengths: the first bytes of enough digests. -/
def Derived (C : Crypto) (password : Bytes) (keyLen ivLen : ℕ) (r : Bytes × Bytes) : Prop :=
  r.1.length = keyLen ∧ r.2.length = ivLen ∧
    ∀ n, keyLen + ivLen ≤ 16 * n →
      r.1 = (evpStream C password n).take keyLen ∧
      r.2 = (evpStream C password n).extract keyLen (keyLen + ivLen)

/-- What is in the cache is what the hashes give. -/
def CachedKeys.Valid (C : Crypto) (cachedKeys : CachedKeys) : Prop :=
  ∀ password keyLen ivLen r, cachedKeys.value? (cachedKey password keyLen ivLen) = some r →
    Derived C password keyLen ivLen r

/-- The key and the iv, cut off enough digests. -/
theorem derived_evpStream {n : ℕ} (h : keyLen + ivLen ≤ 16 * n) :
    Derived C password keyLen ivLen ((evpStream C password n).take keyLen,
      (evpStream C password n).extract keyLen (keyLen + ivLen)) := by
  have hlength : (evpStream C password n).length = 16 * n := length_evpStream n
  refine ⟨?_, ?_, fun n' hn' => ⟨take_evpStream (by omega) (by omega), ?_⟩⟩
  · rw [List.length_take]
    omega
  · rw [List.extract_eq_take_drop, List.length_take, List.length_drop]
    omega
  · -- The bytes of the iv are behind those of the key, within the bytes that are needed.
    simp only [List.extract_eq_take_drop, ← List.drop_take]
    rw [take_evpStream h hn']

/-- The key is the one that the protocols derive. -/
theorem Derived.fst_eq {r : Bytes × Bytes} (h : Derived C password keyLen ivLen r) :
    r.1 = evpBytesToKey C password keyLen ivLen := by
  have hdigests (n i : ℕ) : evpDigests C password n (evpDigest C password i) =
      (List.range' (i + 1) n).flatMap (evpDigest C password) := by
    induction n generalizing i with
    | zero => rfl
    | succ n ih =>
      rw [List.range'_succ, List.flatMap_cons, ← ih]
      rfl
  have hstream (n : ℕ) : evpDigests C password n [] = evpStream C password n := by
    cases n with
    | zero => rfl
    | succ n =>
      rw [evpStream, List.range_eq_range', List.range'_succ, List.flatMap_cons, ← hdigests]
      rfl
  rw [evpBytesToKey, hstream]
  exact (h.2.2 _ (by omega)).1

theorem CachedKeys.valid_empty (C : Crypto) : CachedKeys.Valid C { timeout := 180 } := by
  intro password keyLen ivLen r hr
  cases hr

theorem CachedKeys.Valid.of_value? {cachedKeys cachedKeys' : CachedKeys} (h : cachedKeys.Valid C)
    (hvalue : ∀ key r, cachedKeys'.value? key = some r → cachedKeys.value? key = some r) :
    cachedKeys'.Valid C :=
  fun password keyLen ivLen r hr => h password keyLen ivLen r (hvalue _ r hr)

/-- Keeping a result, under the text of its password and lengths. -/
theorem CachedKeys.Valid.setItem {cachedKeys : CachedKeys} {t : Time} {r : Bytes × Bytes}
    (h : cachedKeys.Valid C) (hr : Derived C password keyLen ivLen r) :
    CachedKeys.Valid C (cachedKeys.setItem t (cachedKey password keyLen ivLen) r) := by
  intro password' keyLen' ivLen' r' hr'
  rw [LRUCache.value?_setItem] at hr'
  split_ifs at hr' with hkey
  · obtain ⟨rfl, rfl, rfl⟩ := cachedKey_inj hkey
    cases hr'
    exact hr
  · exact h _ _ _ _ hr'

/-- A call returns what the hashes give. -/
theorem evpBytesToKeyCall_spec {cachedKeys : CachedKeys} (h : cachedKeys.Valid C) (call : EvpCall) :
    ∃ r cachedKeys', evpBytesToKeyCall C cachedKeys call = some (r, cachedKeys') ∧
      Derived C call.password.encode call.keyLen call.ivLen r ∧
      CachedKeys.Valid C cachedKeys' := by
  rw [evpBytesToKeyCall]
  cases hvalue : cachedKeys.value? (cachedKey call.password.encode call.keyLen call.ivLen) with
  | some r =>
    refine ⟨r, (cachedKeys.get call.getTime (cachedKey call.password.encode call.keyLen
      call.ivLen)).2, ?_, h _ _ _ _ hvalue, ?_⟩
    · rw [LRUCache.get_of_value? hvalue]
    · exact h.of_value? fun key r' hr' => by rwa [LRUCache.value?_get] at hr'
  | none =>
    obtain ⟨n, hn, hjoin⟩ := joinDigests_spec C call.password.encode (call.keyLen + call.ivLen)
    have hderived : Derived C call.password.encode call.keyLen call.ivLen _ :=
      derived_evpStream hn
    rw [LRUCache.get_eq_none hvalue]
    dsimp only
    rw [hjoin]
    dsimp only
    split
    · exact ⟨_, _, rfl, hderived,
        (h.setItem hderived).of_value? fun _ _ => LRUCache.value?_of_sweepLoop⟩
    · exact ⟨_, _, rfl, hderived, h⟩

/-- So do all calls of a process that starts with a valid cache. -/
theorem evpRun_spec {cachedKeys : CachedKeys} (h : cachedKeys.Valid C) (events : List EvpEvent) :
    ∃ rs cachedKeys', evpRun C cachedKeys events = some (rs, cachedKeys') ∧
      List.Forall₂ (fun call => Derived C call.password.encode call.keyLen call.ivLen)
        (events.filterMap EvpEvent.call?) rs := by
  induction events generalizing cachedKeys with
  | nil => exact ⟨[], cachedKeys, rfl, .nil⟩
  | cons event events ih =>
    cases event with
    | evpBytesToKey call =>
      obtain ⟨r, cachedKeys', hcall, hr, hvalid⟩ := evpBytesToKeyCall_spec h call
      obtain ⟨rs, cachedKeys'', hrun, hrs⟩ := ih hvalid
      refine ⟨r :: rs, cachedKeys'', ?_, .cons hr hrs⟩
      rw [evpRun, hcall]
      dsimp only
      rw [hrun]
      rfl
    | sweep now => exact ih (h.of_value? fun _ _ => LRUCache.value?_of_sweepLoop)
    | delete key =>
      refine ih (h.of_value? fun key' r hr => ?_)
      cases hdel : cachedKeys.delItem key with
      | none => rwa [hdel] at hr
      | some cachedKeys' =>
        rw [hdel] at hr
        exact LRUCache.value?_of_delItem hdel hr

/-- Whatever was asked before, and whatever was deleted from the cache, a call of
    `EVP_BytesToKey` returns what the hashes give; another password, or another length, has
    another place in the cache. -/
theorem evpBytesToKey_transparent (C : Crypto) (events : List EvpEvent) :
    (∃ rs cachedKeys, evpRun C { timeout := 180 } events = some (rs, cachedKeys) ∧
      List.Forall₂ (fun call => Derived C call.password.encode call.keyLen call.ivLen)
        (events.filterMap EvpEvent.call?) rs) ∧
    ∀ call call' : EvpCall, cachedKey call.password.encode call.keyLen call.ivLen =
        cachedKey call'.password.encode call'.keyLen call'.ivLen →
      call.password.encode = call'.password.encode ∧ call.keyLen = call'.keyLen ∧
        call.ivLen = call'.ivLen := by
  refine ⟨?_, fun call call' => cachedKey_inj⟩
  exact evpRun_spec (CachedKeys.valid_empty C) events

end ShadowsocksR

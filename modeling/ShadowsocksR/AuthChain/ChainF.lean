import ShadowsocksR.AuthChain.Termination
import ShadowsocksR.AuthChain.Wrap

/-!
# The lists of auth_chain_f

The class `auth_chain_f` makes its list of lengths from the key and the time of the handshake, when
it receives the handshake. It collects the bytes of the key in a `str`, to which Python 3 does not
join what `common.chr` returns; and a client, which receives no handshake, has no list at all.

* `newKeyStr`, `initDataSizeF`, `onRecvAuthDataF`: the functions of the class;
* `onRecvAuthDataF_eq`: they do what `onRecvAuthData` says;
* `initDataSizeF_eq`: no list is made of any key;
* `packData_of_list0_nil`: without a list, no frame is packed;
* `recvHeader_chainF`: no server receives a handshake;
* `not_chainF`: so nothing that both ends should have in common is ever there.
-/

namespace ShadowsocksR

/-! ## Strings -/

/-- A `str` or a `bytes` of Python 3. -/
inductive PyString
  | str (s : List Char)
  | bytes (b : Bytes)
  deriving DecidableEq

namespace PyString

/-- `s + t` -/
def add : PyString → PyString → Except PyExc PyString
  | .str s, .str t => .ok (.str (s ++ t))
  | .bytes s, .bytes t => .ok (.bytes (s ++ t))
  | _, _ => .error .typeError

/-- `common.chr`, of a number in a `bytearray` -/
def chr (d : UInt8) : PyString := .bytes [d]

/-- `common.to_bytes` -/
def toBytes : PyString → Bytes
  | .str s => s.flatMap String.utf8EncodeChar
  | .bytes b => b

end PyString

namespace AuthChain

open AuthBase

/-! ## The lists -/

/-- `key_change_datetime_key_bytes` -/
def keyChangeDatetimeKeyBytes (keyChangeDatetimeKey : ℤ) : Bytes :=
  (List.range 8).reverse.map fun i => UInt8.ofNat (keyChangeDatetimeKey.shiftRight (8 * i) % 256).toNat

/-- A turn of the first loop over the key. -/
def xorTurn (keyBytes : Bytes) (t : Bytes × PyString) (i : ℕ) : Except PyExc (Bytes × PyString) :=
  match t.1[i]?, keyBytes[i]? with
  | some x, some y => do
    let newKey := t.1.set i (x ^^^ y)
    .ok (newKey, ← t.2.add (.chr (x ^^^ y)))
  | _, _ => .error .indexError

/-- A turn of the second one. -/
def copyTurn (newKey : Bytes) (newKeyStr : PyString) (i : ℕ) : Except PyExc PyString :=
  match newKey[i]? with
  | some x => newKeyStr.add (.chr x)
  | none => .error .indexError

/-- `new_key_str` -/
def newKeyStr (key keyBytes : Bytes) : Except PyExc PyString := do
  let (newKey, newKeyStr) ← (List.range 8).foldlM (xorTurn keyBytes) (key, .str [])
  (List.range' 8 (newKey.length - 8)).foldlM (copyTurn newKey) newKeyStr

/-- `auth_chain_f.init_data_size`, which goes on like that of `auth_chain_d`. -/
def initDataSizeF (key keyBytes : Bytes) : Except PyExc DataSizeLists := do
  .ok (initDataSizeD (← newKeyStr key keyBytes).toBytes)

/-- `auth_chain_f.on_recv_auth_data` -/
def onRecvAuthDataF (s : AuthChain) (utcTime : ℕ) : Except PyExc AuthChain :=
  if s.keyChangeInterval = 0 then .error .zeroDivisionError
  else do
    let keyChangeDatetimeKey := (utcTime : ℤ).tdiv s.keyChangeInterval
    let lists ← initDataSizeF s.serverInfo.key (keyChangeDatetimeKeyBytes keyChangeDatetimeKey)
    .ok { s with lists }

/-- The first byte of a key cannot be joined to the `str`. -/
theorem newKeyStr_eq (k : ℤ) (key : Bytes) : newKeyStr key (keyChangeDatetimeKeyBytes k) =
    .error (if key = [] then .indexError else .typeError) := by
  cases key with
  | nil => rfl
  | cons x key => rfl

theorem initDataSizeF_eq (k : ℤ) (key : Bytes) : initDataSizeF key (keyChangeDatetimeKeyBytes k) =
    .error (if key = [] then .indexError else .typeError) := by
  rw [initDataSizeF, newKeyStr_eq]
  rfl

theorem onRecvAuthDataF_eq {s : AuthChain} (hm : s.method = .f) (utcTime : ℕ) :
    (s.onRecvAuthDataF utcTime).map (fun _ => ()) = s.onRecvAuthData utcTime := by
  rw [onRecvAuthDataF, onRecvAuthData, if_neg (not_not.2 hm)]
  split_ifs with hint hkey
  · rfl
  · dsimp only
    rw [initDataSizeF_eq, if_pos hkey]
    rfl
  · dsimp only
    rw [initDataSizeF_eq, if_neg hkey]
    rfl

/-! ## Frames without a list -/

variable {C : Crypto} {s : AuthChain}

/-- The last element of an empty list. -/
theorem rndDataLenE_of_list0_nil {lists : DataSizeLists} (h : lists.list0 = [])
    (overhead bufSize : ℕ) (lastHash : Bytes) (random : Xorshift128plus) :
    ∃ e, rndDataLenE lists overhead bufSize lastHash random = .error e := by
  rw [rndDataLenE, h]
  cases Xorshift128plus.initFromBinLen lastHash bufSize with
  | error e => exact ⟨e, rfl⟩
  | ok r => exact ⟨.indexError, rfl⟩

theorem packData_of_list0_nil (hm : s.method = .f) (hlists : s.lists.list0 = [])
    (buf lastHash : Bytes) (random : Xorshift128plus) (p : Packed) :
    s.packData C buf lastHash random ≠ .ok p := by
  intro h
  rw [packData] at h
  split at h
  · cases h
  · next encryptor hencryptor =>
    dsimp only [rndData, rndDataLen] at h
    rw [hm] at h
    obtain ⟨e, he⟩ := rndDataLenE_of_list0_nil hlists s.serverInfo.overhead
      (encryptor.encrypt C buf).1.length lastHash random
    dsimp only at h
    rw [he] at h
    cases h

theorem packAuthData_of_list0_nil (hm : s.method = .f) (hlists : s.lists.list0 = [])
    (authData buf : Bytes) (r : Bytes × AuthChain) : packAuthData C s authData buf ≠ .ok r := by
  intro h
  obtain ⟨⟨data, base⟩, -, h⟩ := bind_eq_ok.1 h
  obtain ⟨⟨frame, s'⟩, h, -⟩ := bind_eq_ok.1 h
  -- The first frame follows the header.
  obtain ⟨p, h, -⟩ := bind_eq_ok.1 h
  exact packData_of_list0_nil (by exact hm) (by exact hlists) _ _ _ p h

/-- A client that has no list sends no header. -/
theorem clientPreEncrypt_of_list0_nil (hm : s.method = .f) (hlists : s.lists.list0 = [])
    (hsent : s.hasSentHeader = false) (fuel : ℕ) (now : Time) (buf : Bytes) (t : Cut AuthChain) :
    clientPreEncrypt C fuel now s buf ≠ .done t := by
  intro h
  rw [clientPreEncrypt, if_neg (by rw [hsent]; exact Bool.false_ne_true)] at h
  dsimp only at h
  split at h
  · cases h
  · next r hr => exact packAuthData_of_list0_nil (by exact hm) (by exact hlists) _ _ _ hr

/-- A server does not receive the header of any client. -/
theorem recvHeader_chainF (hm : s.method = .f) (now : Time) (users : Dict Bytes Bytes)
    (data : ObfsAuthChainData) (sendback : Bool) :
    (s.recvHeader C now users data).1 ≠ .ok sendback := by
  intro h
  rw [recvHeader] at h
  split at h
  · cases h
  · split at h
    · cases h
    · split at h
      · cases h
      · next hrecv => exact onRecvAuthData_eq_ok hrecv hm

/-! ## Connections -/

namespace Duplex

variable (C : Crypto) (S : Setup) (interval : ℤ)

/-- A connection of `auth_chain_f` at its beginning, between the ends of a setup. -/
def initF (localData : LocalData) (rng rng' : Rng) : Duplex where
  client := { new .f S.noCompatible S.client localData rng with keyChangeInterval := interval }
  server := { new .f S.noCompatible S.server .new rng' with keyChangeInterval := interval }

/-- At some time, `init_data_size` returns. -/
def InitsDataSize (utcTime : ℕ) : Prop :=
  ∃ lists, initDataSizeF S.key (keyChangeDatetimeKeyBytes ((utcTime : ℤ).tdiv interval)) = .ok lists

/-- After some handshake, both ends have the same list of lengths. -/
def Agrees : Prop :=
  ∃ localData rng rng' now buf now' data n d,
    Run.exec (step C S) (initF S interval localData rng rng')
      [.clientSend now buf, .serverRecv now' data n] = some d ∧
    d.server.hasRecvHeader = true ∧ d.client.lists.list0 = d.server.lists.list0 ∧
      SizeList d.server.lists.list0

/-- Every run delivers what has gone in. -/
def DeliversF : Prop :=
  ∀ localData rng rng' events,
    Run.Throughout (step C S) (Allowed S) (initF S interval localData rng rng') events →
    ∃ d, Run.exec (step C S) (initF S interval localData rng rng') events = some d ∧ Delivered S d

variable {C S interval}

theorem step_clientSend_initF (localData : LocalData) (rng rng' : Rng) (now : Time) (buf : Bytes) :
    step C S (initF S interval localData rng rng') (.clientSend now buf) = none := by
  rw [step]
  split
  · next t h => exact absurd h (clientPreEncrypt_of_list0_nil rfl rfl rfl _ _ _ t)
  · rfl

/-- With `auth_chain_f`, no list is made of a key, the ends do not agree on a list, and nothing is
    delivered. -/
theorem not_chainF (C : Crypto) (S : Setup) (interval : ℤ) (utcTime : ℕ) :
    ¬InitsDataSize S interval utcTime ∧ ¬Agrees C S interval ∧ ¬DeliversF C S interval := by
  refine ⟨?_, ?_, ?_⟩
  · rintro ⟨lists, h⟩
    rw [initDataSizeF_eq] at h
    cases h
  · rintro ⟨localData, rng, rng', now, buf, now', data, n, d, h, -⟩
    rw [Run.exec_cons, step_clientSend_initF] at h
    cases h
  · intro h
    obtain ⟨d, hd, -⟩ := h .new (fun _ => 0) (fun _ => 0) [.clientSend 0 [1]]
      (.cons (List.cons_ne_nil _ _) fun d hd => by
        rw [step_clientSend_initF] at hd
        cases hd)
    rw [Run.exec_cons, step_clientSend_initF] at hd
    cases hd

/-- Two ends with a key of zeros. -/
def zeroSetup : Setup where
  method := .e
  noCompatible := true
  key := List.replicate 16 0
  iv := []
  overhead := 0
  users := Dict.empty
  client := { nullInfo with key := List.replicate 16 0 }
  server := { nullInfo with key := List.replicate 16 0 }
  method_ne := by decide
  client_eq := ⟨rfl, rfl, rfl⟩
  server_eq := ⟨rfl, rfl, rfl⟩
  registered := .inr ⟨by decide, rfl⟩
  overhead_lt := nullSetup.overhead_lt

theorem not_chainF_zeros : ¬∀ (C : Crypto) (S : Setup) (interval : ℤ) (utcTime : ℕ),
    16 ≤ S.key.length → 0 < interval →
      InitsDataSize S interval utcTime ∧ Agrees C S interval ∧ DeliversF C S interval := by
  intro h
  obtain ⟨⟨lists, hlists⟩, -⟩ := h plainCrypto zeroSetup 86400 0 le_rfl (by norm_num)
  cases hlists

end Duplex

end AuthChain

end ShadowsocksR

import ShadowsocksR.Common
import ShadowsocksR.Inet.Texts
import ShadowsocksR.Lib.Binary64
import ShadowsocksR.Lib.Keystream
import ShadowsocksR.Lib.Run
import Mathlib.Data.List.GetD

/-!
# The ciphers of libsodium

The functions `crypto_stream_*_xor_ic` begin at a block of the keystream. An object counts the bytes
that it has encrypted, and puts zeros in front of its data, up to the beginning of a block. All
objects have their output written to one buffer, which grows with the data.

* `Libsodium`: the library;
* `SodiumCrypto.update`: a call of an object;
* `sodiumStep`: objects are made and called, in any order;
* `update_eq`: a call within 2^53 bytes, at an object that is in step with the keystream;
* `sodium_streaming`: all that an object returns is the XOR of all that it has been given.
-/

namespace ShadowsocksR

/-! ## The library -/

inductive SodiumCipher
  | salsa20
  | chacha20
  | chacha20Ietf
  | xchacha20
  | xsalsa20
  deriving DecidableEq

/-- The cipher of a name. -/
def SodiumCipher.ofName (name : Text) : Option SodiumCipher :=
  if name = "salsa20".toList then some .salsa20
  else if name = "chacha20".toList then some .chacha20
  else if name = "chacha20-ietf".toList then some .chacha20Ietf
  else if name = "xchacha20".toList then some .xchacha20
  else if name = "xsalsa20".toList then some .xsalsa20
  else none

/-- The library that is found; without any function when there is none. -/
structure Libsodium where
  has : SodiumCipher → Bool
  /-- The functions `crypto_stream_*_xor_ic`, of the data, the iv, the block and the key, -/
  xorIc : SodiumCipher → Bytes → Bytes → ℕ → Bytes → Bytes
  /-- which write as many bytes as they read. -/
  length_xorIc : ∀ cipher data iv ic key, (xorIc cipher data iv ic key).length = data.length

/-- `BLOCK_SIZE` -/
def blockSize : ℕ := 64

/-- The functions XOR their data with the keystream, from a block on. -/
def Libsodium.XorsWith (lib : Libsodium)
    (keystream : SodiumCipher → Bytes → Bytes → ℕ → UInt8) : Prop :=
  ∀ cipher data iv ic key, blockSize * ic + data.length < 2 ^ 53 →
    lib.xorIc cipher data iv ic key = xorKeystream (keystream cipher key iv) (blockSize * ic) data

/-! ## The module -/

/-- The variables of the module. -/
structure SodiumModule where
  loaded : Bool := false
  bufSize : ℕ := 2048
  buf : Bytes := []

/-- `create_string_buffer` -/
def createStringBuffer (n : ℕ) : Bytes := List.replicate n 0

/-- `load_libsodium`, when the library is not loaded. -/
def loadLibsodium (lib : Libsodium) (m : SodiumModule) : Except PyExc SodiumModule :=
  if m.loaded then .ok m
  -- `find_library` looks for this function.
  else if !lib.has .salsa20 then .error .exception
  else if !lib.has .chacha20 then .error .attributeError
  else .ok { m with buf := createStringBuffer m.bufSize, loaded := true }

/-- The object `SodiumCrypto`. -/
structure SodiumCrypto where
  cipher : SodiumCipher
  key : Bytes
  iv : Bytes
  counter : ℕ := 0

namespace SodiumCrypto

/-- `__init__` -/
def new (lib : Libsodium) (m : SodiumModule) (cipherName : Text) (key iv : Bytes) :
    Except PyExc SodiumCrypto × SodiumModule :=
  match loadLibsodium lib m with
  | .error e => (.error e, m)
  | .ok m =>
    match SodiumCipher.ofName cipherName with
    | none => (.error .exception, m)
    | some cipher =>
      if lib.has cipher then (.ok { cipher, key, iv }, m) else (.error .attributeError, m)

/-- What an object is made with. -/
def made (c : SodiumCrypto) : SodiumCipher × Bytes × Bytes := (c.cipher, c.key, c.iv)

/-- The zeros in front of the data. -/
def padding (c : SodiumCrypto) : ℕ := c.counter % blockSize

/-- A buffer of twice the size, when the one that is there is too short. -/
def grow (m : SodiumModule) (need : ℕ) : SodiumModule :=
  if m.bufSize < need then
    { m with bufSize := need * 2, buf := createStringBuffer (need * 2) }
  else m

/-- Writing to the buffer; what does not fit in would be written behind it. -/
def write (m : SodiumModule) (out : Bytes) : SodiumModule :=
  { m with buf := (out ++ m.buf.drop out.length).take m.buf.length }

/-- `update`; without a result, the division has raised an `OverflowError`. -/
def update (lib : Libsodium) (m : SodiumModule) (c : SodiumCrypto) (data : Bytes) :
    Option Bytes × SodiumCrypto × SodiumModule :=
  let l := data.length
  let padding := c.padding
  let m := grow m (padding + l)
  let data := if padding ≠ 0 then List.replicate padding 0 ++ data else data
  match trueDiv c.counter blockSize with
  | none => (none, c, m)
  | some block =>
    -- The numbers are converted to `c_ulonglong`, or to `c_ulong`, which has 64 bits too.
    let out := lib.xorIc c.cipher (data.take ((padding + l) % 2 ^ 64)) c.iv
      (⌊block⌋.toNat % 2 ^ 64) c.key
    let m := write m out
    (some (m.buf.extract padding (padding + l)), { c with counter := c.counter + l }, m)

end SodiumCrypto

/-! ## A process -/

/-- A call of an object: the length of the buffer in it, and what it returns. -/
structure SodiumCall where
  object : ℕ
  data : Bytes
  padding : ℕ
  bufLength : ℕ
  returned : Option Bytes

/-- The module, the objects that were made, and all calls of them. -/
structure SodiumProcess where
  module : SodiumModule := {}
  objects : List SodiumCrypto := []
  calls : List SodiumCall := []

inductive SodiumEvent
  | create (cipherName : Text) (key iv : Bytes)
  | update (object : ℕ) (data : Bytes)

/-- An object is made, if there is its cipher, or one that exists is called. -/
def sodiumStep (lib : Libsodium) (p : SodiumProcess) : SodiumEvent → Option SodiumProcess
  | .create cipherName key iv =>
    match SodiumCrypto.new lib p.module cipherName key iv with
    | (.ok c, module) => some { p with module, objects := p.objects ++ [c] }
    | (.error _, module) => some { p with module }
  | .update object data =>
    match p.objects[object]? with
    | none => none
    | some c =>
      let (returned, c', module) := c.update lib p.module data
      some
        { module
          objects := p.objects.set object c'
          calls := p.calls ++ [⟨object, data, c.padding, module.buf.length, returned⟩] }

namespace SodiumCall

/-- All that an object has been given. -/
def given (object : ℕ) (calls : List SodiumCall) : Bytes :=
  calls.flatMap fun call => if call.object = object then call.data else []

/-- All that it has returned. -/
def results (object : ℕ) (calls : List SodiumCall) : Bytes :=
  calls.flatMap fun call => if call.object = object then call.returned.getD [] else []

/-- The buffer was long enough, and as many bytes were returned as were given. -/
def Fits (call : SodiumCall) : Prop :=
  call.padding + call.data.length ≤ call.bufLength ∧
    ∃ out, call.returned = some out ∧ out.length = call.data.length

end SodiumCall

/-! ## The buffer -/

/-- The variable `buf_size` is the size of the buffer. -/
def SodiumModule.Sized (m : SodiumModule) : Prop := m.buf.length = m.bufSize

namespace SodiumCrypto

variable {lib : Libsodium} {keystream : SodiumCipher → Bytes → Bytes → ℕ → UInt8}
  {m : SodiumModule} {c : SodiumCrypto}

theorem grow_spec (h : m.Sized) (need : ℕ) :
    (grow m need).Sized ∧ need ≤ (grow m need).buf.length ∧ (grow m need).loaded = m.loaded := by
  have hbuf : m.buf.length = m.bufSize := h
  rw [grow]
  split_ifs with hneed
  · have hlength : (createStringBuffer (need * 2)).length = need * 2 := List.length_replicate
    refine ⟨hlength, ?_, rfl⟩
    dsimp only
    omega
  · exact ⟨h, by omega, rfl⟩

@[simp] theorem length_buf_write (m : SodiumModule) (out : Bytes) :
    (write m out).buf.length = m.buf.length := by
  rw [write, List.length_take, List.length_append, List.length_drop]
  omega

theorem sized_write (h : m.Sized) (out : Bytes) : (write m out).Sized :=
  (length_buf_write m out).trans h

/-- The bytes that were written, without those at the front. -/
theorem extract_buf_write {out : Bytes} {padding l : ℕ} (hout : out.length = padding + l)
    (hfit : padding + l ≤ m.buf.length) :
    (write m out).buf.extract padding (padding + l) = out.drop padding := by
  rw [write, List.extract_eq_take_drop, ← List.drop_take, List.take_take, Nat.min_eq_left hfit,
    List.take_left' hout]

/-! ## Calls -/

/-- Any call keeps the buffer in order. -/
theorem update_keeps (lib : Libsodium) (h : m.Sized) (c : SodiumCrypto) (data : Bytes) :
    (c.update lib m data).2.2.Sized ∧ (c.update lib m data).2.2.loaded = m.loaded := by
  obtain ⟨hsized, -, hloaded⟩ := grow_spec h (c.padding + data.length)
  unfold update
  dsimp only
  cases trueDiv c.counter blockSize with
  | none => exact ⟨hsized, hloaded⟩
  | some block => exact ⟨sized_write hsized _, hloaded⟩

/-- It leaves the cipher, the key and the iv of the object as they are. -/
theorem made_update (lib : Libsodium) (m : SodiumModule) (c : SodiumCrypto) (data : Bytes) :
    (c.update lib m data).2.1.made = c.made := by
  unfold update
  dsimp only
  cases trueDiv c.counter blockSize <;> rfl

/-- The quotient is exact below 2^53, so it is the number of the block. -/
theorem floor_trueDiv (h : c.counter < 2 ^ 53) :
    ∃ block, trueDiv c.counter blockSize = some block ∧
      ⌊block⌋.toNat = c.counter / blockSize := by
  refine ⟨((c.counter : ℤ) : ℚ) / 2 ^ 6, trueDiv_two_pow (k := 6) ?_ (by norm_num), ?_⟩
  · rw [abs_of_nonneg (Int.natCast_nonneg _)]
    exact_mod_cast h
  · have hfloor : ⌊((c.counter : ℤ) : ℚ) / ((64 : ℕ) : ℚ)⌋ = (c.counter : ℤ) / (64 : ℕ) :=
      Rat.floor_intCast_div_natCast _ _
    have hpow : (2 : ℚ) ^ 6 = ((64 : ℕ) : ℚ) := by norm_num
    rw [hpow, hfloor, blockSize]
    omega

/-- A call of an object that has encrypted `counter` bytes goes on with the keystream there. -/
theorem update_eq (hlib : lib.XorsWith keystream) (h : m.Sized) {data : Bytes}
    (hlen : c.counter + data.length < 2 ^ 53) :
    ∃ m', c.update lib m data =
        (some (xorKeystream (keystream c.cipher c.key c.iv) c.counter data),
          { c with counter := c.counter + data.length }, m') ∧
      c.padding + data.length ≤ m'.buf.length := by
  obtain ⟨hsized, hfit, -⟩ := grow_spec h (c.padding + data.length)
  obtain ⟨block, hdiv, hblock⟩ := floor_trueDiv (c := c) (by omega)
  have hcounter : blockSize * (c.counter / blockSize) + c.padding = c.counter :=
    Nat.div_add_mod _ _
  have hzeros : (if c.padding ≠ 0 then List.replicate c.padding 0 ++ data else data) =
      List.replicate c.padding (0 : UInt8) ++ data := by
    split_ifs with hpadding
    · rfl
    · rw [not_ne_iff.1 hpadding]
      rfl
  have hpadded : (List.replicate c.padding (0 : UInt8) ++ data).length =
      c.padding + data.length := by
    rw [List.length_append, List.length_replicate]
  have hlt : c.counter / blockSize < 2 ^ 64 := by
    have hle := Nat.div_le_self c.counter blockSize
    omega
  have hout := hlib c.cipher (List.replicate c.padding 0 ++ data) c.iv (c.counter / blockSize) c.key
    (by rw [hpadded]; omega)
  refine ⟨write (grow m (c.padding + data.length)) (lib.xorIc c.cipher
    (List.replicate c.padding 0 ++ data) c.iv (c.counter / blockSize) c.key), ?_, ?_⟩
  · unfold update
    dsimp only
    rw [hzeros, hdiv]
    dsimp only
    rw [hblock, Nat.mod_eq_of_lt hlt, Nat.mod_eq_of_lt (by omega), List.take_of_length_le (by omega),
      extract_buf_write (by rw [lib.length_xorIc, hpadded]) hfit, hout, xorKeystream_append,
      List.drop_left' (by rw [length_xorKeystream, List.length_replicate]), List.length_replicate,
      hcounter]
  · rw [length_buf_write]
    exact hfit

end SodiumCrypto

/-! ## Runs -/

section

variable {lib : Libsodium} {keystream : SodiumCipher → Bytes → Bytes → ℕ → UInt8}
  {p p' : SodiumProcess} {event : SodiumEvent} {object : ℕ} {calls : List SodiumCall}

/-- The object and the data of a call. -/
def SodiumEvent.update? : SodiumEvent → Option (ℕ × Bytes)
  | .create .. => none
  | .update object data => some (object, data)

/-- The cipher, the key and the iv of an object that is made. -/
def SodiumEvent.create? (lib : Libsodium) : SodiumEvent → Option (SodiumCipher × Bytes × Bytes)
  | .create cipherName key iv =>
    if lib.has .salsa20 && lib.has .chacha20 then
      ((SodiumCipher.ofName cipherName).filter lib.has).map fun cipher => (cipher, key, iv)
    else none
  | .update .. => none

/-- An object is in step with the keystream, and its calls were in order, up to 2^53 bytes. -/
structure InStep (keystream : SodiumCipher → Bytes → Bytes → ℕ → UInt8) (calls : List SodiumCall)
    (object : ℕ) (c : SodiumCrypto) : Prop where
  counter : c.counter = (SodiumCall.given object calls).length
  results : SodiumCall.results object calls =
    xorKeystream (keystream c.cipher c.key c.iv) 0 (SodiumCall.given object calls)
  fits : ∀ call ∈ calls, call.object = object → call.Fits

/-- The library is loaded, and its buffer is there. -/
structure SodiumModule.Ready (lib : Libsodium) (m : SodiumModule) : Prop where
  sized : m.Sized
  has : (lib.has .salsa20 && lib.has .chacha20) = true

/-- What holds after every run. -/
structure SodiumProcess.Valid (lib : Libsodium)
    (keystream : SodiumCipher → Bytes → Bytes → ℕ → UInt8) (p : SodiumProcess) : Prop where
  ready : p.module.loaded = true → p.module.Ready lib
  loaded : p.objects ≠ [] → p.module.loaded = true
  object_lt : ∀ call ∈ p.calls, call.object < p.objects.length
  inStep : ∀ object c, p.objects[object]? = some c →
    (SodiumCall.given object p.calls).length < 2 ^ 53 → InStep keystream p.calls object c

theorem loadLibsodium_spec {m : SodiumModule} (h : m.loaded = true → m.Ready lib) :
    (∃ m', loadLibsodium lib m = .ok m' ∧ m'.loaded = true ∧ m'.Ready lib) ∨
      ∃ e, loadLibsodium lib m = .error e ∧ (lib.has .salsa20 && lib.has .chacha20) = false := by
  rw [loadLibsodium]
  cases hloaded : m.loaded with
  | true => exact .inl ⟨m, rfl, hloaded, h hloaded⟩
  | false =>
    cases hsalsa : lib.has .salsa20 with
    | false => exact .inr ⟨_, rfl, rfl⟩
    | true =>
      cases hchacha : lib.has .chacha20 with
      | false => exact .inr ⟨_, rfl, rfl⟩
      | true => exact .inl ⟨_, rfl, rfl, List.length_replicate, by rw [hsalsa, hchacha]; rfl⟩

/-- An object is made, or nothing but the library is loaded. -/
theorem SodiumCrypto.new_spec {m : SodiumModule} (h : m.loaded = true → m.Ready lib) (cipherName : Text)
    (key iv : Bytes) :
    (∃ cipher m', SodiumCrypto.new lib m cipherName key iv = (.ok { cipher, key, iv }, m') ∧
      m'.loaded = true ∧ m'.Ready lib ∧
      SodiumEvent.create? lib (.create cipherName key iv) = some (cipher, key, iv)) ∨
    ∃ e m', SodiumCrypto.new lib m cipherName key iv = (.error e, m') ∧
      (m.loaded = true → m'.loaded = true) ∧ (m'.loaded = true → m'.Ready lib) ∧
      SodiumEvent.create? lib (.create cipherName key iv) = none := by
  rw [SodiumEvent.create?]
  rcases loadLibsodium_spec h with ⟨m', hload, hloaded, hready⟩ | ⟨e, hload, hhas⟩
  · rw [if_pos hready.has]
    cases hname : SodiumCipher.ofName cipherName with
    | none =>
      refine .inr ⟨.exception, m', ?_, fun _ => hloaded, fun _ => hready, rfl⟩
      simp only [SodiumCrypto.new, hload, hname]
    | some cipher =>
      rw [Option.filter_some]
      cases hcipher : lib.has cipher with
      | false =>
        refine .inr ⟨.attributeError, m', ?_, fun _ => hloaded, fun _ => hready, rfl⟩
        simp only [SodiumCrypto.new, hload, hname, hcipher, Bool.false_eq_true, if_false]
      | true =>
        refine .inl ⟨cipher, m', ?_, hloaded, hready, rfl⟩
        simp only [SodiumCrypto.new, hload, hname, hcipher, if_true]
  · rw [if_neg (by rw [hhas]; decide)]
    refine .inr ⟨e, m, ?_, id, h, rfl⟩
    simp only [SodiumCrypto.new, hload]

theorem given_append (call : SodiumCall) : SodiumCall.given object (calls ++ [call]) =
    SodiumCall.given object calls ++ if call.object = object then call.data else [] := by
  simp [SodiumCall.given]

theorem results_append (call : SodiumCall) : SodiumCall.results object (calls ++ [call]) =
    SodiumCall.results object calls ++
      if call.object = object then call.returned.getD [] else [] := by
  simp [SodiumCall.results]

/-- An object that is not called stays in step. -/
theorem InStep.append_other {c : SodiumCrypto} (h : InStep keystream calls object c)
    {call : SodiumCall} (hcall : call.object ≠ object) :
    InStep keystream (calls ++ [call]) object c := by
  refine ⟨?_, ?_, fun call' hcall' hobject => ?_⟩
  · rw [given_append, if_neg hcall, List.append_nil, h.counter]
  · rw [given_append, results_append, if_neg hcall, if_neg hcall, List.append_nil, List.append_nil,
      h.results]
  · rcases List.mem_append.1 hcall' with hcall' | hcall'
    · exact h.fits call' hcall' hobject
    · exact absurd (List.mem_singleton.1 hcall' ▸ hobject) hcall

/-- An object that is called stays in step, up to 2^53 bytes. -/
theorem InStep.append_update (hlib : lib.XorsWith keystream) {m : SodiumModule} (hm : m.Sized)
    {c : SodiumCrypto} (h : InStep keystream calls object c) {data : Bytes}
    (hlen : (SodiumCall.given object calls).length + data.length < 2 ^ 53) :
    InStep keystream (calls ++ [⟨object, data, c.padding, (c.update lib m data).2.2.buf.length,
      (c.update lib m data).1⟩]) object (c.update lib m data).2.1 := by
  obtain ⟨m', hupdate, hfit⟩ := SodiumCrypto.update_eq hlib hm
    (show c.counter + data.length < 2 ^ 53 by rw [h.counter]; exact hlen)
  rw [hupdate]
  refine ⟨?_, ?_, fun call hcall hobject => ?_⟩
  · rw [given_append, if_pos rfl, List.length_append, ← h.counter]
  · rw [given_append, results_append, if_pos rfl, if_pos rfl, h.results, xorKeystream_append,
      Nat.zero_add, ← h.counter]
    rfl
  · rcases List.mem_append.1 hcall with hcall | hcall
    · exact h.fits call hcall hobject
    · obtain rfl := List.mem_singleton.1 hcall
      exact ⟨hfit, _, rfl, length_xorKeystream _⟩

/-- A new object is in step. -/
theorem inStep_new (h : ∀ call ∈ calls, call.object < object) (cipher : SodiumCipher)
    (key iv : Bytes) : InStep keystream calls object { cipher, key, iv } := by
  have hgiven : SodiumCall.given object calls = [] :=
    List.flatMap_eq_nil_iff.2 fun call hcall => if_neg (h call hcall).ne
  have hresults : SodiumCall.results object calls = [] :=
    List.flatMap_eq_nil_iff.2 fun call hcall => if_neg (h call hcall).ne
  refine ⟨?_, ?_, fun call hcall hobject => absurd hobject (h call hcall).ne⟩
  · rw [hgiven]
    rfl
  · rw [hgiven, hresults]
    rfl

/-- The step in which an object is called. -/
theorem sodiumStep_update {c : SodiumCrypto} (hc : p.objects[object]? = some c) (data : Bytes) :
    sodiumStep lib p (.update object data) = some
      { module := (c.update lib p.module data).2.2
        objects := p.objects.set object (c.update lib p.module data).2.1
        calls := p.calls ++ [⟨object, data, c.padding,
          (c.update lib p.module data).2.2.buf.length, (c.update lib p.module data).1⟩] } := by
  rw [sodiumStep, hc]

/-- What a step does to a process, and to what is known of it. -/
theorem SodiumProcess.Valid.step (hlib : lib.XorsWith keystream) (hp : p.Valid lib keystream)
    (h : sodiumStep lib p event = some p') : p'.Valid lib keystream := by
  cases event with
  | create cipherName key iv =>
    rw [sodiumStep] at h
    rcases SodiumCrypto.new_spec hp.ready cipherName key iv with
      ⟨cipher, m, hnew, hloaded, hready, -⟩ | ⟨e, m, hnew, hloaded, hready, -⟩
    · rw [hnew] at h
      cases h
      refine ⟨fun _ => hready, fun _ => hloaded, fun call hcall => ?_, fun object c hc hlen => ?_⟩
      · have hlt := hp.object_lt call hcall
        rw [List.length_append]
        omega
      · rcases lt_or_ge object p.objects.length with hlt | hge
        · rw [List.getElem?_append_left hlt] at hc
          exact hp.inStep object c hc hlen
        · rw [List.getElem?_append_right hge, List.getElem?_singleton] at hc
          split_ifs at hc with hzero
          cases hc
          exact inStep_new (fun call hcall => (hp.object_lt call hcall).trans_le hge) cipher key iv
    · rw [hnew] at h
      cases h
      exact ⟨hready, fun hne => hloaded (hp.loaded hne), hp.object_lt, hp.inStep⟩
  | update object data =>
    cases hc : p.objects[object]? with
    | none =>
      rw [sodiumStep, hc] at h
      cases h
    | some c =>
      rw [sodiumStep_update hc] at h
      obtain rfl := Option.some.inj h
      obtain ⟨hlt, -⟩ := List.getElem?_eq_some_iff.1 hc
      have hloaded := hp.loaded (List.ne_nil_of_length_pos (Nat.zero_lt_of_lt hlt))
      have hready := hp.ready hloaded
      obtain ⟨hsized, hloaded'⟩ := SodiumCrypto.update_keeps lib hready.sized c data
      refine ⟨fun _ => ⟨hsized, hready.has⟩, fun _ => hloaded'.trans hloaded, fun call hcall => ?_,
        fun other c' hc' hlen => ?_⟩
      · rw [List.length_set]
        rcases List.mem_append.1 hcall with hcall | hcall
        · exact hp.object_lt call hcall
        · rwa [List.mem_singleton.1 hcall]
      · rw [given_append, List.length_append] at hlen
        by_cases hother : object = other
        · subst hother
          rw [List.getElem?_set_self hlt] at hc'
          cases hc'
          rw [if_pos rfl] at hlen
          exact (hp.inStep object c hc (by omega)).append_update hlib hready.sized hlen
        · rw [List.getElem?_set_ne hother] at hc'
          exact (hp.inStep other c' hc' (by omega)).append_other hother

theorem SodiumProcess.valid_new (lib : Libsodium)
    (keystream : SodiumCipher → Bytes → Bytes → ℕ → UInt8) :
    SodiumProcess.Valid lib keystream {} :=
  ⟨fun h => absurd h (by decide), fun h => absurd rfl h,
    fun _ hcall => absurd hcall List.not_mem_nil, fun _ _ hc => absurd hc (by simp)⟩

/-- Changing an entry, but not what is looked at. -/
theorem map_set_of_eq {α β : Type} {f : α → β} {l : List α} {i : ℕ} {a b : α}
    (h : l[i]? = some b) (hf : f a = f b) : (l.set i a).map f = l.map f := by
  obtain ⟨hlt, rfl⟩ := List.getElem?_eq_some_iff.1 h
  have hlt' : i < (l.map f).length := by rwa [List.length_map]
  have hget : f a = (l.map f)[i] := by rw [List.getElem_map, hf]
  rw [List.map_set, hget, List.set_getElem_self]

/-- The calls and the objects of a process are those of its events. -/
theorem sodiumStep_record (hp : p.module.loaded = true → p.module.Ready lib)
    (h : sodiumStep lib p event = some p') :
    p'.calls.map (fun call => (call.object, call.data)) =
        p.calls.map (fun call => (call.object, call.data)) ++ event.update?.toList ∧
      p'.objects.map SodiumCrypto.made =
        p.objects.map SodiumCrypto.made ++ (event.create? lib).toList := by
  cases event with
  | create cipherName key iv =>
    rw [sodiumStep] at h
    rcases SodiumCrypto.new_spec hp cipherName key iv with
      ⟨cipher, m, hnew, -, -, hcreate⟩ | ⟨e, m, hnew, -, -, hcreate⟩ <;>
      rw [hnew] at h <;> cases h <;> rw [hcreate]
    · exact ⟨(List.append_nil _).symm, List.map_append⟩
    · exact ⟨(List.append_nil _).symm, (List.append_nil _).symm⟩
  | update object data =>
    cases hc : p.objects[object]? with
    | none =>
      rw [sodiumStep, hc] at h
      cases h
    | some c =>
      rw [sodiumStep_update hc] at h
      obtain rfl := Option.some.inj h
      refine ⟨List.map_append, ?_⟩
      rw [map_set_of_eq hc (SodiumCrypto.made_update lib p.module c data)]
      exact (List.append_nil _).symm

/-- Whatever objects are made and called in between, all that an object returns is the XOR of all
    that it is given with its keystream, up to 2^53 bytes; every call returns as many bytes as it
    is given, and its output fits in the buffer. -/
theorem sodium_streaming (hlib : lib.XorsWith keystream) {events : List SodiumEvent}
    (h : Run.exec (sodiumStep lib) {} events = some p) :
    p.calls.map (fun call => (call.object, call.data)) = events.filterMap SodiumEvent.update? ∧
      p.objects.map SodiumCrypto.made =
        events.filterMap (SodiumEvent.create? lib) ∧
      ∀ object c, p.objects[object]? = some c →
        (SodiumCall.given object p.calls).length < 2 ^ 53 →
        SodiumCall.results object p.calls =
            xorKeystream (keystream c.cipher c.key c.iv) 0 (SodiumCall.given object p.calls) ∧
          ∀ call ∈ p.calls, call.object = object → call.Fits := by
  have hrun : ∀ (events : List SodiumEvent) (q : SodiumProcess), q.Valid lib keystream →
      Run.exec (sodiumStep lib) q events = some p → p.Valid lib keystream ∧
        p.calls.map (fun call => (call.object, call.data)) =
          q.calls.map (fun call => (call.object, call.data)) ++
            events.filterMap SodiumEvent.update? ∧
        p.objects.map SodiumCrypto.made =
          q.objects.map SodiumCrypto.made ++
            events.filterMap (SodiumEvent.create? lib) := by
    intro events
    induction events with
    | nil =>
      intro q hq hexec
      cases hexec
      exact ⟨hq, (List.append_nil _).symm, (List.append_nil _).symm⟩
    | cons event events ih =>
      intro q hq hexec
      obtain ⟨q', hstep, hexec⟩ := Run.exec_cons_eq_some.1 hexec
      obtain ⟨hcalls, hobjects⟩ := sodiumStep_record hq.ready hstep
      obtain ⟨hp, hcalls', hobjects'⟩ := ih q' (hq.step hlib hstep) hexec
      refine ⟨hp, ?_, ?_⟩
      · rw [hcalls', hcalls, List.append_assoc, List.filterMap_cons]
        cases event.update? <;> rfl
      · rw [hobjects', hobjects, List.append_assoc, List.filterMap_cons]
        cases event.create? lib <;> rfl
  obtain ⟨hp, hcalls, hobjects⟩ := hrun events {} (SodiumProcess.valid_new lib keystream) h
  refine ⟨hcalls, hobjects, fun object c hc hlen => ?_⟩
  have hstep := hp.inStep object c hc hlen
  exact ⟨hstep.results, hstep.fits⟩

end

/-- The beginning of the keystream of `chacha20`, when the key and the iv are zero. -/
def chacha20Zero : Bytes := [
  0x76, 0xb8, 0xe0, 0xad, 0xa0, 0xf1, 0x3d, 0x90, 0x40, 0x5d, 0x6a, 0xe5,
  0x53, 0x86, 0xbd, 0x28, 0xbd, 0xd2, 0x19, 0xb8, 0xa0, 0x8d, 0xed, 0x1a,
  0xa8, 0x36, 0xef, 0xcc, 0x8b, 0x77, 0x0d, 0xc7, 0xda, 0x41, 0x59, 0x7c,
  0x51, 0x57, 0x48, 0x8d, 0x77, 0x24, 0xe0, 0x3f, 0xb8, 0xd8, 0x4a, 0x37,
  0x6a, 0x43, 0xb8, 0xf4, 0x15, 0x18, 0xa1, 0x1c, 0xc3, 0x87, 0xb6, 0x69,
  0xb2, 0xee, 0x65, 0x86, 0x9f, 0x07, 0xe7, 0xbe, 0x55, 0x51, 0x38, 0x7a]

/-- A library with the two functions that it always has, for zero keys and 72 bytes. -/
def zeroSodium : Libsodium where
  has cipher := cipher = .salsa20 ∨ cipher = .chacha20
  xorIc _ data _ ic _ := xorKeystream (chacha20Zero.getD · 0) (blockSize * ic) data
  length_xorIc _ data _ _ _ := length_xorKeystream data

/-- Two objects are called in turns; the second call of the first one begins inside a block, and ends
    behind it. -/
def twoObjects : List SodiumEvent :=
  [.create "chacha20".toList (List.replicate 32 0) (List.replicate 8 0),
    .create "chacha20".toList (List.replicate 32 0) (List.replicate 8 0),
    .update 0 (List.replicate 60 0), .update 1 (List.replicate 5 1), .update 0 (List.replicate 12 0)]

theorem sodium_streaming_twoObjects : ∃ p,
    Run.exec (sodiumStep zeroSodium) {} twoObjects = some p ∧
      SodiumCall.results 0 p.calls = chacha20Zero := by
  obtain ⟨p, hp⟩ : ∃ p, Run.exec (sodiumStep zeroSodium) {} twoObjects = some p := ⟨_, rfl⟩
  have hlib : zeroSodium.XorsWith fun _ _ _ n => chacha20Zero.getD n 0 := fun _ _ _ _ _ _ => rfl
  obtain ⟨hcalls, hobjects, hstream⟩ := sodium_streaming hlib hp
  have hlength : p.objects.length = 2 := by
    rw [← List.length_map, hobjects]
    rfl
  have hgiven : SodiumCall.given 0 p.calls = List.replicate 72 0 := by
    have hmap := congrArg (List.flatMap fun call => if call.1 = 0 then call.2 else []) hcalls
    rw [List.flatMap_map] at hmap
    exact hmap
  obtain ⟨hresults, -⟩ := hstream 0 _ (List.getElem?_eq_getElem (by omega))
    (by rw [hgiven, List.length_replicate]; norm_num)
  refine ⟨p, hp, ?_⟩
  rw [hresults, hgiven]
  decide

end ShadowsocksR

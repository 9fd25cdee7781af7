import ShadowsocksR.AuthChain.Sealed
import ShadowsocksR.RandomHead.Layer

/-!
# A connection through all of its layers

What the user of a client sends goes through the protocol, the encryptor and the
obfuscation, and through those of the server in the other order.

* `stack`: an auth_chain protocol over an encryptor over an obfuscation;
* `stack_delivers`: what comes out at either end is what has gone in at the other
  one, whatever the order of the events, and wherever the streams are cut;
* `exampleStack`: the stack with `random_head`.
-/

namespace ShadowsocksR

namespace AuthChain

variable {σ κ A B : Type}

/-- The protocol, the encryptor and the obfuscation. -/
def stack (σ : Type) (C : Crypto) (S : Setup) (hmss : S.server.tcpMss ≤ 1500)
    (hover : S.overhead + 2 ≤ S.server.tcpMss) (O : Layer PyExc κ A B) :
    Layer PyExc ((Now × Unit × Unit) × κ × κ) (SealedClient σ × A) (SealedServer σ × B) :=
  (sealedLayer σ C S hmss hover).over O

/-- A connection through all layers delivers what it is given, in order, and nothing else; no call
    raises, and no byte is left with the objects when none is on its way. -/
theorem stack_delivers {C : Crypto} {info : CipherInfo σ} {method : String}
    (h : info.IsByteStream method) {S : Setup} (hmss : S.server.tcpMss ≤ 1500)
    (hover : S.overhead + 2 ≤ S.server.tcpMss) {password : Bytes} {e d : AnyEncryptor σ}
    (he : AnyEncryptor.IsNew C info password method S.iv e)
    (hd : AnyEncryptor.IsNew C info password method S.server.iv d) {O : Layer PyExc κ A B}
    {x : A} {y : B} (hO : O.Inv x y {}) (localData : LocalData) (rng rng' : Rng)
    (events : List (Wired.Event ((Now × Unit × Unit) × κ × κ)))
    (hrun : Run.Throughout (stack σ C S hmss hover O).step (stack σ C S hmss hover O).Allowed
      ⟨(sealedClient S localData rng e, x), (sealedServer S rng' d, y), [], [], [], [], [], []⟩
      events) :
    ∃ w, Run.exec (stack σ C S hmss hover O).step
      ⟨(sealedClient S localData rng e, x), (sealedServer S rng' d, y), [], [], [], [], [], []⟩
      events = some w ∧ Layer.Delivered w :=
  Layer.delivers (L := stack σ C S hmss hover O)
    ⟨[], [], sealedLayer_inv_new h he hd localData rng rng', hO⟩ events hrun

/-! ## An example -/

/-- A server without users, with ivs of eight bytes. -/
def exampleSetup : Setup where
  method := .b
  noCompatible := true
  key := [1, 2, 3]
  iv := [1, 1, 1, 1, 1, 1, 1, 1]
  overhead := 4
  users := Dict.empty
  client := ⟨[1, 2, 3], [1, 1, 1, 1, 1, 1, 1, 1], [], [], 4, 1460⟩
  server := ⟨[1, 2, 3], [2, 2, 2, 2, 2, 2, 2, 2], [1, 1, 1, 1, 1, 1, 1, 1], [], 4, 1460⟩
  method_ne := by decide
  client_eq := ⟨rfl, rfl, rfl⟩
  server_eq := ⟨rfl, rfl, rfl⟩
  registered := .inr ⟨by decide, rfl⟩
  overhead_lt := by decide

def exampleEncryptor (iv : Bytes) : AnyEncryptor Cipher where
  key := [1, 2, 3]
  method := "chacha20"
  methodInfo := AnyEncryptor.cipherInfo plainCrypto .chacha20
  cipherIv := iv
  cipher := Encryptor.getCipher plainCrypto [1, 2, 3] .chacha20 .encrypt iv

theorem isNew_exampleEncryptor {iv : Bytes} (h : iv.length = 8) :
    AnyEncryptor.IsNew plainCrypto (AnyEncryptor.cipherInfo plainCrypto .chacha20) [1, 2, 3]
      "chacha20" iv (exampleEncryptor iv) :=
  ⟨rfl, rfl, rfl, rfl, h, rfl, rfl, rfl, rfl⟩

/-- The protocol over an encryptor over `random_head`. -/
def exampleStack : Layer PyExc ((Now × Unit × Unit) × Unit × Unit)
    (SealedClient Cipher × RandomHead.End) (SealedServer Cipher × RandomHead.End) :=
  stack Cipher plainCrypto exampleSetup (by decide) (by decide) RandomHead.layer

def exampleStart : Wired (SealedClient Cipher × RandomHead.End)
    (SealedServer Cipher × RandomHead.End) where
  client := (sealedClient exampleSetup { localClientId := [5, 6, 7, 8], connectionId := 9 }
    (fun _ => 0) (exampleEncryptor [1, 1, 1, 1, 1, 1, 1, 1]),
    RandomHead.start "random_head" fun _ => 0)
  server := (sealedServer exampleSetup (fun _ => 0) (exampleEncryptor [2, 2, 2, 2, 2, 2, 2, 2]),
    RandomHead.start "random_head" fun _ => 0)

instance : exampleStack.DecidableTerms :=
  inferInstanceAs (Layer.over (sealedLayer Cipher plainCrypto exampleSetup _ _)
    RandomHead.layer).DecidableTerms

def exampleNow : (Now × Unit × Unit) × Unit × Unit := ((⟨0, {}⟩, (), ()), (), ())

/-- A request, the heads, the request as it is kept, a reply. -/
def exampleEvents : List (Wired.Event ((Now × Unit × Unit) × Unit × Unit)) :=
  [.clientSend exampleNow [1, 2], .serverRecv exampleNow 8, .clientRecv exampleNow 4,
    .serverRecv exampleNow 5000, .serverSend exampleNow [7], .clientRecv exampleNow 5000]

theorem throughout_exampleEvents :
    Run.Throughout exampleStack.step exampleStack.Allowed exampleStart exampleEvents := by
  decide +kernel

theorem stack_delivers_exampleEvents : ∃ w, Run.exec exampleStack.step exampleStart exampleEvents =
    some w ∧ Layer.Delivered w :=
  stack_delivers (AnyEncryptor.isByteStream_cipherInfo plainCrypto (m := .chacha20) (by decide)
    "chacha20") (by decide) (by decide) (isNew_exampleEncryptor rfl) (isNew_exampleEncryptor rfl)
    (RandomHead.layer_inv_start _ _ _ _) _ _ _ exampleEvents
    throughout_exampleEvents

end AuthChain

end ShadowsocksR

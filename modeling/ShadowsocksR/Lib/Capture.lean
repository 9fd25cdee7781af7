import ShadowsocksR.Lib.Layer

/-!
# A parameter at the beginning of a stream

An object may take a parameter from the first bytes that it receives, as they
come from the wire, in the call in which it receives them: it takes what is there
of it, and never again.

* `Peer.capturing`: an object that does so;
* `Capture`: what it takes is right, when the first read is long enough, and the
  objects that have the parameter are a layer;
* `Capture.layer`: then the objects that take it are a layer, too.
-/

namespace ShadowsocksR

variable {ε κ S A B : Type}

/-- An object that looks at every chunk before it receives it. -/
def Peer.capturing (p : Peer ε κ S) (capture : S → Bytes → S) : Peer ε κ S where
  send := p.send
  recv k s chunk := p.recv k (capture s chunk) chunk

/-- The objects of a layer take a parameter of `size` bytes. The server may not be used before, and
    the client does not depend on it. -/
structure Capture (L : Layer ε κ A B) where
  client : A → Bytes → A
  server : B → Bytes → B
  size : ℕ
  /-- A server that has its parameter. -/
  Set : B → Prop
  /-- The server `b` has not received anything. With its parameter, it is `b'`. -/
  Waits : A → B → B → Flight → Prop
  client_inv : ∀ {a b f c}, L.Inv a b f → L.Inv (client a c) b f
  client_terms : ∀ {k a b c}, L.clientTerms.recv k a b c → L.clientTerms.recv k (client a c) b c
  server_set : ∀ {b c}, Set b → server b c = b
  send_set : ∀ {k b buf out b'}, Set b → L.server.send k b buf = .ok (out, b') → Set b'
  recv_set : ∀ {k b c r b'}, Set b → L.server.recv k b c = .ok (r, b') → Set b'
  waits_clientSend : ∀ {k a b b' f buf out a'}, Waits a b b' f →
    L.client.send k a buf = .ok (out, a') → Waits a' b b' (f.sent out buf)
  waits_clientRecv : ∀ {k a b b' f c rest owed data back a'}, Waits a b b' f → f.inn = c ++ rest →
    L.client.recv k (client a c) c = .ok ((data, back), a') →
    Waits a' b b' (f.received rest owed back)
  waits_sendTerms : ∀ {k a b b' f buf}, Waits a b b' f → L.clientTerms.send k a b buf →
    L.clientTerms.send k a b' buf
  waits_recvTerms : ∀ {k a b b' f c}, Waits a b b' f → L.clientTerms.recv k a b c →
    L.clientTerms.recv k a b' c
  waits_serverSend : ∀ {k a b b' f buf}, Waits a b b' f → ¬L.serverTerms.send k b a buf
  waits_not_set : ∀ {a b b' f}, Waits a b b' f → ¬Set b
  waits_recv_nil : ∀ {k a b b' f}, Waits a b b' f →
    L.server.recv k (server b []) [] = .ok (([], none), b)
  waits_recv : ∀ {a b b' f c rest}, Waits a b b' f → f.out = c ++ rest → c ≠ [] →
    size ≤ c.length → server b c = b' ∧ Set b'

namespace Capture

variable {L : Layer ε κ A B} (C : Capture L)

/-- The server has its parameter, or waits for it. -/
def Inv (a : A) (b : B) (f : Flight) : Prop :=
  L.Inv a b f ∧ C.Set b ∨ ∃ b', C.Waits a b b' f ∧ L.Inv a b' f

/-- A server that waits for its parameter reads all of it at once. -/
def serverTerms : Terms κ B A where
  send := L.serverTerms.send
  recv k b a c := (¬C.Set b → c = [] ∨ C.size ≤ c.length) ∧
    L.serverTerms.recv k (C.server b c) a c

variable {C}

theorem client_keeps : Keeps (L.client.capturing C.client) L.clientTerms C.Inv where
  send h hM := by
    rcases h with ⟨hI, hset⟩ | ⟨b', hw, hI⟩
    · obtain ⟨out, a', hsend, hI'⟩ := L.client_keeps.send hI hM
      exact ⟨out, a', hsend, .inl ⟨hI', hset⟩⟩
    · obtain ⟨out, a', hsend, hI'⟩ := L.client_keeps.send hI (C.waits_sendTerms hw hM)
      exact ⟨out, a', hsend, .inr ⟨b', C.waits_clientSend hw hsend, hI'⟩⟩
  recv h hinn hM := by
    rcases h with ⟨hI, hset⟩ | ⟨b', hw, hI⟩
    · obtain ⟨data, back, a', owed, hrecv, howed, hI'⟩ :=
        L.client_keeps.recv (C.client_inv hI) hinn (C.client_terms hM)
      exact ⟨data, back, a', owed, hrecv, howed, .inl ⟨hI', hset⟩⟩
    · obtain ⟨data, back, a', owed, hrecv, howed, hI'⟩ := L.client_keeps.recv (C.client_inv hI) hinn
        (C.client_terms (C.waits_recvTerms hw hM))
      exact ⟨data, back, a', owed, hrecv, howed,
        .inr ⟨b', C.waits_clientRecv hw hinn hrecv, hI'⟩⟩

theorem server_keeps : Keeps (L.server.capturing C.server) C.serverTerms
    fun b a f => C.Inv a b f.swap where
  send h hM := by
    rcases h with ⟨hI, hset⟩ | ⟨b', hw, -⟩
    · obtain ⟨out, b', hsend, hI'⟩ := L.server_keeps.send hI hM
      exact ⟨out, b', hsend, .inl ⟨hI', C.send_set hset hsend⟩⟩
    · exact absurd hM (C.waits_serverSend hw)
  recv {k b a f chunk rest} h hinn hM := by
    have hrecv_set {b' : B} (hserver : C.server b chunk = b') (hset : C.Set b')
        (hI : L.Inv a b' f.swap) :
        ∃ data back s' owed, (L.server.capturing C.server).recv k b chunk =
            .ok ((data, back), s') ∧ f.owedIn = data ++ owed ∧
          C.Inv a s' (f.received rest owed back).swap := by
      have hterms := hM.2
      rw [hserver] at hterms
      obtain ⟨data, back, s', owed, hrecv, howed, hI'⟩ := L.server_keeps.recv hI hinn hterms
      refine ⟨data, back, s', owed, ?_, howed, .inl ⟨hI', C.recv_set hset hrecv⟩⟩
      change L.server.recv k (C.server b chunk) chunk = _
      rw [hserver]
      exact hrecv
    rcases h with ⟨hI, hset⟩ | ⟨b', hw, hI⟩
    · exact hrecv_set (C.server_set hset) hset hI
    · by_cases hnil : chunk = []
      · -- Nothing is read, and nothing is taken.
        subst hnil
        refine ⟨[], none, b, f.owedIn, C.waits_recv_nil hw, rfl, .inr ⟨b', ?_⟩⟩
        have hf : (f.received rest f.owedIn none).swap = f.swap := by
          rw [Flight.received, Option.getD_none, List.append_nil, ← List.nil_append rest, ← hinn]
        rw [hf]
        exact ⟨hw, hI⟩
      · obtain ⟨hserver, hset⟩ :=
          C.waits_recv hw hinn hnil ((hM.1 (C.waits_not_set hw)).resolve_left hnil)
        exact hrecv_set hserver hset hI

/-- The objects that take the parameter. -/
def layer (C : Capture L) : Layer ε κ A B where
  client := L.client.capturing C.client
  server := L.server.capturing C.server
  clientTerms := L.clientTerms
  serverTerms := C.serverTerms
  Inv := C.Inv
  client_keeps := client_keeps
  server_keeps := server_keeps
  landed h hout hinn := by
    rcases h with ⟨hI, -⟩ | ⟨b', -, hI⟩
    · exact L.landed hI hout hinn
    · exact L.landed hI hout hinn

open Layer.DecidableTerms in
instance [L.DecidableTerms] [∀ b, Decidable (C.Set b)] : C.layer.DecidableTerms where
  clientSend := clientSend (L := L)
  clientRecv := clientRecv (L := L)
  serverSend := serverSend (L := L)
  serverRecv k b a c :=
    have := serverRecv (L := L) k (C.server b c) a c
    inferInstanceAs (Decidable ((¬C.Set b → c = [] ∨ C.size ≤ c.length) ∧ _))

end Capture

end ShadowsocksR

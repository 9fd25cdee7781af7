import ShadowsocksR.Lib.Chunks
import ShadowsocksR.Lib.Run

/-!
# Layers of a connection

The two ends of a connection transform what they send, and transform it back
when they receive it, in layers: what one layer puts out is given to the next
one. An object at one end has calls to send and to receive (`Peer`).

* `Flight`: what is on its way between two objects, and what it stands for;
* `Layer`: the objects of both ends, with an invariant that all calls keep;
* `Layer.unchanged`: the objects that change nothing;
* `Layer.over`: a layer upon another one is a layer;
* `Flows`: an object gets back what another one has been given; two objects that
  do so in both directions are a layer (`Layer.ofFlows`);
* `Layer.delivers`: what comes out of a connection is what has gone in, whatever
  the order of the calls, and wherever the streams are cut.
-/

namespace ShadowsocksR

variable {ε κ κ₁ κ₂ S T S₁ S₂ T₁ T₂ A B A₁ A₂ B₁ B₂ : Type}

/-! ## Objects -/

/-- The calls of an object at one end of a connection, in a context. A call that receives may ask to
    send something back at once. -/
structure Peer (ε κ S : Type) where
  send : κ → S → Bytes → Except ε (Bytes × S)
  recv : κ → S → Bytes → Except ε ((Bytes × Option Bytes) × S)

/-- An object upon another one. What the upper one sends back goes through the lower one, too. -/
def Peer.over (upper : Peer ε κ₁ S₁) (lower : Peer ε κ₂ S₂) :
    Peer ε (κ₁ × κ₂ × κ₂) (S₁ × S₂) where
  send k s buf := do
    let (mid, s₁) ← upper.send k.1 s.1 buf
    let (out, s₂) ← lower.send k.2.1 s.2 mid
    return (out, s₁, s₂)
  recv k s chunk := do
    let ((mid, back₂), s₂) ← lower.recv k.2.1 s.2 chunk
    let ((data, back₁), s₁) ← upper.recv k.1 s.1 mid
    match back₁ with
    | none => return ((data, back₂), s₁, s₂)
    | some back₁ => do
      let (out, s₂) ← lower.send k.2.2 s₂ back₁
      return ((data, some (back₂.getD [] ++ out)), s₁, s₂)

/-! ## Flights -/

/-- The bytes on their way from an object and to it, and what is still to be put out for them. -/
structure Flight where
  out : Bytes := []
  inn : Bytes := []
  owedOut : Bytes := []
  owedIn : Bytes := []

namespace Flight

/-- The flight, as the other object sees it. -/
def swap (f : Flight) : Flight := ⟨f.inn, f.out, f.owedIn, f.owedOut⟩

/-- The object has sent `out` for `buf`. -/
def sent (f : Flight) (out buf : Bytes) : Flight :=
  { f with out := f.out ++ out, owedOut := f.owedOut ++ buf }

/-- The object has received something, and sent something back. -/
def received (f : Flight) (rest owed : Bytes) (back : Option Bytes) : Flight :=
  { f with out := f.out ++ back.getD [], inn := rest, owedIn := owed }

@[simp] theorem swap_swap (f : Flight) : f.swap.swap = f := rfl

theorem sent_nil (f : Flight) (out : Bytes) :
    f.sent out [] = { f with out := f.out ++ out } := by
  rw [sent, List.append_nil]

theorem received_none (f : Flight) (rest owed : Bytes) :
    f.received rest owed none = { f with inn := rest, owedIn := owed } := by
  rw [received, Option.getD_none, List.append_nil]

end Flight

/-! ## Layers -/

/-- When the calls of an object may be made. -/
structure Terms (κ S T : Type) where
  send : κ → S → T → Bytes → Prop
  recv : κ → S → T → Bytes → Prop

/-- The calls of an object, with another one at the other end, keep an invariant: they do not raise,
    and what they put out is owed. -/
structure Keeps (p : Peer ε κ S) (M : Terms κ S T) (I : S → T → Flight → Prop) : Prop where
  send : ∀ {k s t f buf}, I s t f → M.send k s t buf →
    ∃ out s', p.send k s buf = .ok (out, s') ∧ I s' t (f.sent out buf)
  recv : ∀ {k s t f chunk rest}, I s t f → f.inn = chunk ++ rest → M.recv k s t chunk →
    ∃ data back s' owed, p.recv k s chunk = .ok ((data, back), s') ∧ f.owedIn = data ++ owed ∧
      I s' t (f.received rest owed back)

/-- The objects of the two ends, with an invariant of them and of what is on its way. -/
structure Layer (ε κ A B : Type) where
  client : Peer ε κ A
  server : Peer ε κ B
  clientTerms : Terms κ A B
  serverTerms : Terms κ B A
  Inv : A → B → Flight → Prop
  client_keeps : Keeps client clientTerms Inv
  server_keeps : Keeps server serverTerms fun b a f => Inv a b f.swap
  /-- When nothing is on its way, nothing is owed. -/
  landed : ∀ {a b f}, Inv a b f → f.out = [] → f.inn = [] → f.owedOut = [] ∧ f.owedIn = []

/-- It can be decided whether a call may be made. -/
class Layer.DecidableTerms (L : Layer ε κ A B) where
  clientSend : ∀ k a b buf, Decidable (L.clientTerms.send k a b buf)
  clientRecv : ∀ k a b chunk, Decidable (L.clientTerms.recv k a b chunk)
  serverSend : ∀ k b a buf, Decidable (L.serverTerms.send k b a buf)
  serverRecv : ∀ k b a chunk, Decidable (L.serverTerms.recv k b a chunk)

theorem Keeps.congr {p : Peer ε κ S} {M : Terms κ S T} {I I' : S → T → Flight → Prop}
    (h : Keeps p M I) (hI : ∀ {s t f}, I s t f ↔ I' s t f) : Keeps p M I' where
  send hI' hM := by
    obtain ⟨out, s, hsend, hkept⟩ := h.send (hI.2 hI') hM
    exact ⟨out, s, hsend, hI.1 hkept⟩
  recv hI' hinn hM := by
    obtain ⟨data, back, s, owed, hrecv, howed, hkept⟩ := h.recv (hI.2 hI') hinn hM
    exact ⟨data, back, s, owed, hrecv, howed, hI.1 hkept⟩

/-! ## Objects that change nothing -/

def Terms.always (κ S T : Type) : Terms κ S T := ⟨fun _ _ _ _ => True, fun _ _ _ _ => True⟩

/-- An object that leaves everything as it is. -/
def Peer.unchanged (ε κ : Type) : Peer ε κ Unit where
  send _ _ buf := .ok (buf, ())
  recv _ _ chunk := .ok ((chunk, none), ())

theorem Peer.unchanged_keeps : Keeps (Peer.unchanged ε κ) (Terms.always κ Unit Unit)
    fun _ _ f => f.out = f.owedOut ∧ f.inn = f.owedIn where
  send {_ _ _ _ buf} h _ := ⟨buf, (), rfl, congrArg (· ++ buf) h.1, h.2⟩
  recv {_ _ _ _ chunk rest} h hinn _ :=
    ⟨chunk, none, (), rest, rfl, h.2.symm.trans hinn, (List.append_nil _).trans h.1, rfl⟩

/-- The layer that leaves everything as it is. -/
def Layer.unchanged (ε κ : Type) : Layer ε κ Unit Unit where
  client := .unchanged ε κ
  server := .unchanged ε κ
  clientTerms := .always κ Unit Unit
  serverTerms := .always κ Unit Unit
  Inv _ _ f := f.out = f.owedOut ∧ f.inn = f.owedIn
  client_keeps := Peer.unchanged_keeps
  server_keeps := Peer.unchanged_keeps.congr and_comm
  landed h hout hinn := ⟨h.1.symm.trans hout, h.2.symm.trans hinn⟩

instance : (Layer.unchanged ε κ).DecidableTerms where
  clientSend _ _ _ _ := .isTrue trivial
  clientRecv _ _ _ _ := .isTrue trivial
  serverSend _ _ _ _ := .isTrue trivial
  serverRecv _ _ _ _ := .isTrue trivial

/-! ## A layer upon another one -/

/-- When the calls of an object upon another one may be made. -/
def Terms.over (upper : Peer ε κ₁ S₁) (lower : Peer ε κ₂ S₂) (M₁ : Terms κ₁ S₁ T₁)
    (M₂ : Terms κ₂ S₂ T₂) : Terms (κ₁ × κ₂ × κ₂) (S₁ × S₂) (T₁ × T₂) where
  send k s t buf := M₁.send k.1 s.1 t.1 buf ∧
    ∀ mid s₁, upper.send k.1 s.1 buf = .ok (mid, s₁) → M₂.send k.2.1 s.2 t.2 mid
  recv k s t chunk := M₂.recv k.2.1 s.2 t.2 chunk ∧
    ∀ mid back₂ s₂, lower.recv k.2.1 s.2 chunk = .ok ((mid, back₂), s₂) →
      M₁.recv k.1 s.1 t.1 mid ∧
      ∀ data back s₁, upper.recv k.1 s.1 mid = .ok ((data, some back), s₁) →
        M₂.send k.2.2 s₂ t.2 back

/-- Whether what a call returns is as it is to be. -/
instance decidableForallOk {α : Type} {e : Except ε α} {P : α → Prop} [DecidablePred P] :
    Decidable (∀ r, e = .ok r → P r) :=
  match e with
  | .error _ => .isTrue nofun
  | .ok r => decidable_of_iff (P r) ⟨fun h _ hr => Except.ok.inj hr ▸ h, fun h => h r rfl⟩

theorem Terms.over_send_iff {upper : Peer ε κ₁ S₁} {lower : Peer ε κ₂ S₂} {M₁ : Terms κ₁ S₁ T₁}
    {M₂ : Terms κ₂ S₂ T₂} {k : κ₁ × κ₂ × κ₂} {s : S₁ × S₂} {t : T₁ × T₂} {buf : Bytes} :
    (Terms.over upper lower M₁ M₂).send k s t buf ↔ M₁.send k.1 s.1 t.1 buf ∧
      ∀ r, upper.send k.1 s.1 buf = .ok r → M₂.send k.2.1 s.2 t.2 r.1 :=
  and_congr_right fun _ => ⟨fun h r hr => h r.1 r.2 hr, fun h mid s₁ hr => h (mid, s₁) hr⟩

theorem Terms.over_recv_iff {upper : Peer ε κ₁ S₁} {lower : Peer ε κ₂ S₂} {M₁ : Terms κ₁ S₁ T₁}
    {M₂ : Terms κ₂ S₂ T₂} {k : κ₁ × κ₂ × κ₂} {s : S₁ × S₂} {t : T₁ × T₂} {chunk : Bytes} :
    (Terms.over upper lower M₁ M₂).recv k s t chunk ↔ M₂.recv k.2.1 s.2 t.2 chunk ∧
      ∀ r, lower.recv k.2.1 s.2 chunk = .ok r → M₁.recv k.1 s.1 t.1 r.1.1 ∧
        ∀ q, upper.recv k.1 s.1 r.1.1 = .ok q → ∀ back ∈ q.1.2, M₂.send k.2.2 r.2 t.2 back :=
  and_congr_right fun _ =>
    ⟨fun h r hr => ⟨(h r.1.1 r.1.2 r.2 hr).1, fun q hq back hback =>
      (h r.1.1 r.1.2 r.2 hr).2 q.1.1 back q.2 (by rw [hq, ← Option.mem_def.1 hback])⟩,
    fun h mid back₂ s₂ hr =>
      ⟨(h _ hr).1, fun data back s₁ hq => (h _ hr).2 _ hq back rfl⟩⟩

/-- The upper objects exchange what the lower ones owe. -/
def invOver (I₁ : S₁ → T₁ → Flight → Prop) (I₂ : S₂ → T₂ → Flight → Prop) (s : S₁ × S₂)
    (t : T₁ × T₂) (f : Flight) : Prop :=
  ∃ mid midIn, I₁ s.1 t.1 ⟨mid, midIn, f.owedOut, f.owedIn⟩ ∧
    I₂ s.2 t.2 ⟨f.out, f.inn, mid, midIn⟩

section

variable {upper : Peer ε κ₁ S₁} {lower : Peer ε κ₂ S₂} {k : κ₁ × κ₂ × κ₂} {s : S₁ × S₂}
  {s₁ : S₁} {s₂ s₂' : S₂} {buf chunk mid out data back : Bytes} {back₂ : Option Bytes}

theorem Peer.over_send (h₁ : upper.send k.1 s.1 buf = .ok (mid, s₁))
    (h₂ : lower.send k.2.1 s.2 mid = .ok (out, s₂)) :
    (upper.over lower).send k s buf = .ok (out, s₁, s₂) := by
  change (upper.send k.1 s.1 buf >>= _) = _
  rw [h₁]
  change (lower.send k.2.1 s.2 mid >>= _) = _
  rw [h₂]
  rfl

theorem Peer.over_recv (h₂ : lower.recv k.2.1 s.2 chunk = .ok ((mid, back₂), s₂))
    (h₁ : upper.recv k.1 s.1 mid = .ok ((data, none), s₁)) :
    (upper.over lower).recv k s chunk = .ok ((data, back₂), s₁, s₂) := by
  change (lower.recv k.2.1 s.2 chunk >>= _) = _
  rw [h₂]
  change (upper.recv k.1 s.1 mid >>= _) = _
  rw [h₁]
  rfl

theorem Peer.over_recv_back (h₂ : lower.recv k.2.1 s.2 chunk = .ok ((mid, back₂), s₂))
    (h₁ : upper.recv k.1 s.1 mid = .ok ((data, some back), s₁))
    (hback : lower.send k.2.2 s₂ back = .ok (out, s₂')) :
    (upper.over lower).recv k s chunk = .ok ((data, some (back₂.getD [] ++ out)), s₁, s₂') := by
  change (lower.recv k.2.1 s.2 chunk >>= _) = _
  rw [h₂]
  change (upper.recv k.1 s.1 mid >>= _) = _
  rw [h₁]
  change (lower.send k.2.2 s₂ back >>= _) = _
  rw [hback]
  rfl

theorem Peer.over_send_eq_ok {s' : S₁ × S₂} (h : (upper.over lower).send k s buf = .ok (out, s')) :
    ∃ mid, upper.send k.1 s.1 buf = .ok (mid, s'.1) ∧
      lower.send k.2.1 s.2 mid = .ok (out, s'.2) := by
  obtain ⟨r₁, h₁, h⟩ := bind_eq_ok.1 h
  obtain ⟨r₂, h₂, h⟩ := bind_eq_ok.1 h
  cases h
  exact ⟨r₁.1, h₁, h₂⟩

theorem Peer.over_recv_eq_ok {s' : S₁ × S₂} {back : Option Bytes}
    (h : (upper.over lower).recv k s chunk = .ok ((data, back), s')) :
    ∃ mid back₂ s₂ back₁, lower.recv k.2.1 s.2 chunk = .ok ((mid, back₂), s₂) ∧
      upper.recv k.1 s.1 mid = .ok ((data, back₁), s'.1) ∧
      (back₁ = none ∧ back = back₂ ∧ s'.2 = s₂ ∨
        ∃ b out, back₁ = some b ∧ lower.send k.2.2 s₂ b = .ok (out, s'.2)) := by
  obtain ⟨⟨⟨mid, back₂⟩, s₂⟩, h₂, h⟩ := bind_eq_ok.1 h
  obtain ⟨⟨⟨data', back₁⟩, s₁⟩, h₁, h⟩ := bind_eq_ok.1 h
  cases back₁ with
  | none =>
    cases h
    exact ⟨mid, back, _, none, h₂, h₁, .inl ⟨rfl, rfl, rfl⟩⟩
  | some b =>
    obtain ⟨r₃, h₃, h⟩ := bind_eq_ok.1 h
    cases h
    exact ⟨mid, back₂, s₂, some b, h₂, h₁, .inr ⟨b, r₃.1, rfl, h₃⟩⟩

end

theorem Keeps.over {upper : Peer ε κ₁ S₁} {lower : Peer ε κ₂ S₂} {M₁ : Terms κ₁ S₁ T₁}
    {M₂ : Terms κ₂ S₂ T₂} {I₁ : S₁ → T₁ → Flight → Prop} {I₂ : S₂ → T₂ → Flight → Prop}
    (h₁ : Keeps upper M₁ I₁) (h₂ : Keeps lower M₂ I₂) :
    Keeps (upper.over lower) (Terms.over upper lower M₁ M₂) (invOver I₁ I₂) where
  send h hM := by
    obtain ⟨mid, midIn, hI₁, hI₂⟩ := h
    obtain ⟨x, s₁, hsend₁, hI₁'⟩ := h₁.send hI₁ hM.1
    obtain ⟨out, s₂, hsend₂, hI₂'⟩ := h₂.send hI₂ (hM.2 x s₁ hsend₁)
    exact ⟨out, (s₁, s₂), Peer.over_send hsend₁ hsend₂, mid ++ x, midIn, hI₁', hI₂'⟩
  recv h hinn hM := by
    obtain ⟨mid, midIn, hI₁, hI₂⟩ := h
    obtain ⟨x, back₂, s₂, midIn', hrecv₂, hmid, hI₂'⟩ := h₂.recv hI₂ hinn hM.1
    obtain ⟨hM₁, hback⟩ := hM.2 x back₂ s₂ hrecv₂
    obtain ⟨data, back₁, s₁, owed, hrecv₁, howed, hI₁'⟩ := h₁.recv hI₁ hmid hM₁
    cases back₁ with
    | none =>
      rw [Flight.received_none] at hI₁'
      exact ⟨data, back₂, (s₁, s₂), owed, Peer.over_recv hrecv₂ hrecv₁, howed, mid, midIn', hI₁',
        hI₂'⟩
    | some back =>
      -- What the upper object sends back, the lower one owes.
      obtain ⟨out, s₂', hsend₂, hI₂''⟩ := h₂.send hI₂' (hback data back s₁ hrecv₁)
      rw [Flight.sent, Flight.received, List.append_assoc] at hI₂''
      exact ⟨data, some (back₂.getD [] ++ out), (s₁, s₂'), owed,
        Peer.over_recv_back hrecv₂ hrecv₁ hsend₂, howed, mid ++ back, midIn', hI₁', hI₂''⟩

/-- A layer upon another one. -/
def Layer.over (upper : Layer ε κ₁ A₁ B₁) (lower : Layer ε κ₂ A₂ B₂) :
    Layer ε (κ₁ × κ₂ × κ₂) (A₁ × A₂) (B₁ × B₂) where
  client := upper.client.over lower.client
  server := upper.server.over lower.server
  clientTerms := .over upper.client lower.client upper.clientTerms lower.clientTerms
  serverTerms := .over upper.server lower.server upper.serverTerms lower.serverTerms
  Inv := invOver upper.Inv lower.Inv
  client_keeps := upper.client_keeps.over lower.client_keeps
  server_keeps := (upper.server_keeps.over lower.server_keeps).congr exists_comm
  landed {a b f} h hout hinn := by
    obtain ⟨mid, midIn, hI₁, hI₂⟩ := h
    obtain ⟨hmid, hmidIn⟩ : mid = [] ∧ midIn = [] :=
      lower.landed (f := ⟨f.out, f.inn, mid, midIn⟩) hI₂ hout hinn
    exact upper.landed (f := ⟨mid, midIn, f.owedOut, f.owedIn⟩) hI₁ hmid hmidIn

open Layer.DecidableTerms in
instance {upper : Layer ε κ₁ A₁ B₁} {lower : Layer ε κ₂ A₂ B₂} [upper.DecidableTerms]
    [lower.DecidableTerms] : (upper.over lower).DecidableTerms where
  clientSend k a b _ :=
    have := clientSend (L := upper) k.1 a.1 b.1
    have := clientSend (L := lower) k.2.1 a.2 b.2
    decidable_of_iff _ Terms.over_send_iff.symm
  clientRecv k a b _ :=
    have := clientRecv (L := upper) k.1 a.1 b.1
    have := clientSend (L := lower) k.2.2
    have := clientRecv (L := lower) k.2.1 a.2 b.2
    decidable_of_iff _ Terms.over_recv_iff.symm
  serverSend k b a _ :=
    have := serverSend (L := upper) k.1 b.1 a.1
    have := serverSend (L := lower) k.2.1 b.2 a.2
    decidable_of_iff _ Terms.over_send_iff.symm
  serverRecv k b a _ :=
    have := serverRecv (L := upper) k.1 b.1 a.1
    have := serverSend (L := lower) k.2.2
    have := serverRecv (L := lower) k.2.1 b.2 a.2
    decidable_of_iff _ Terms.over_recv_iff.symm

/-! ## Two directions -/

/-- A call that receives, without what is sent back. -/
def Peer.data (q : Peer ε κ T) (t : T) (p : κ × Bytes) : Except ε (Bytes × T) :=
  (q.recv p.1 t p.2).map fun r => (r.1.1, r.2)

/-- The object `t` gets back what the object `s` is given: with `wire` on its way to it, it puts out
    `owed` first. -/
def Flows (p : Peer ε κ S) (q : Peer ε κ T) (s : S) (t : T) (wire owed : Bytes) : Prop :=
  ∀ sends : List (κ × Bytes), ∃ stream s',
    feed (fun s (b : κ × Bytes) => p.send b.1 s b.2) s sends = .ok (stream, s') ∧
    ∀ chunks : List (κ × Bytes), chunks.flatMap Prod.snd = wire ++ stream →
      ∃ t', feed q.data t chunks = .ok (owed ++ sends.flatMap Prod.snd, t')

section

variable {p : Peer ε κ S} {q : Peer ε κ T} {s s' : S} {t t' : T} {wire owed : Bytes} {k : κ}
  {buf chunk rest : Bytes}

theorem Flows.send (h : Flows p q s t wire owed) (k : κ) (buf : Bytes) :
    ∃ out s', p.send k s buf = .ok (out, s') ∧ Flows p q s' t (wire ++ out) (owed ++ buf) := by
  obtain ⟨stream, s₁, hfeed, -⟩ := h [(k, buf)]
  obtain ⟨out, s', outs, hsend, -, -⟩ := feed_cons_eq_ok hfeed
  refine ⟨out, s', hsend, fun sends => ?_⟩
  obtain ⟨stream, s₂, hfeed, hrecv⟩ := h ((k, buf) :: sends)
  obtain ⟨out', s'', outs, hsend', hfeed', hstream⟩ := feed_cons_eq_ok hfeed
  cases hsend.symm.trans hsend'
  refine ⟨outs, s₂, hfeed', fun chunks hchunks => ?_⟩
  rw [List.append_assoc, ← hstream] at hchunks
  obtain ⟨t', ht'⟩ := hrecv chunks hchunks
  exact ⟨t', by rw [ht', List.flatMap_cons, List.append_assoc]⟩

theorem Flows.recv (h : Flows p q s t (chunk ++ rest) owed) (k : κ) :
    ∃ data t' owed', q.data t (k, chunk) = .ok (data, t') ∧ owed = data ++ owed' ∧
      Flows p q s t' rest owed' := by
  obtain ⟨_, s', hnil, hrecv⟩ := h []
  cases hnil
  obtain ⟨t₂, hfeed⟩ := hrecv [(k, chunk), (k, rest)] (by simp)
  obtain ⟨data, t', owed', hdata, hrest, howed⟩ := feed_cons_eq_ok hfeed
  rw [List.flatMap_nil, List.append_nil] at howed
  obtain rfl : owed = data ++ owed' := howed
  refine ⟨data, t', owed', hdata, rfl, fun sends => ?_⟩
  obtain ⟨stream, s₁, hsend, hrecv⟩ := h sends
  refine ⟨stream, s₁, hsend, fun chunks hchunks => ?_⟩
  obtain ⟨t₃, hfeed₃⟩ := hrecv ((k, chunk) :: chunks) (by
    rw [List.flatMap_cons, hchunks, List.append_assoc])
  obtain ⟨data', t'', outs, hdata', hchunks', hall⟩ := feed_cons_eq_ok hfeed₃
  cases hdata.symm.trans hdata'
  rw [List.append_assoc] at hall
  exact ⟨t₃, by rw [hchunks', ← List.append_cancel_left hall]⟩

theorem Flows.landed (h : Flows p q s t [] owed) : owed = [] := by
  obtain ⟨_, s', hnil, hrecv⟩ := h []
  cases hnil
  obtain ⟨t', hfeed⟩ := hrecv [] rfl
  have howed : owed ++ [] = [] := (congrArg Prod.fst (Except.ok.inj hfeed)).symm
  rwa [List.append_nil] at howed

end

/-- The calls in one direction do not touch the other one: what an object does when it sends depends
    on what is the same when it receives, and the other way round. -/
structure Peer.Halves (p : Peer ε κ S) where
  sendsAs : S → S → Prop
  recvsAs : S → S → Prop
  send_sendsAs : ∀ {s t c out s'}, sendsAs s t → p.send k s c = .ok (out, s') →
    ∃ t', p.send k t c = .ok (out, t') ∧ sendsAs s' t'
  recv_recvsAs : ∀ {s t c data s'}, recvsAs s t → p.recv k s c = .ok (data, s') →
    ∃ t', p.recv k t c = .ok (data, t') ∧ recvsAs s' t'
  recv_sendsAs : ∀ {s c data s'}, p.recv k s c = .ok (data, s') → sendsAs s s'
  send_recvsAs : ∀ {s c out s'}, p.send k s c = .ok (out, s') → recvsAs s s'
  /-- Nothing is sent back. -/
  back : ∀ {s c data back s'}, p.recv k s c = .ok ((data, back), s') → back = none

section

variable {p : Peer ε κ S} {q : Peer ε κ T} {s s' : S} {t t' : T} {wire owed : Bytes} {k : κ}

theorem Flows.congr_sender (hp : p.Halves) (hs : hp.sendsAs s s') (h : Flows p q s t wire owed) :
    Flows p q s' t wire owed := by
  intro sends
  obtain ⟨stream, s₁, hfeed, hrecv⟩ := h sends
  obtain ⟨s₁', hfeed', -⟩ : ∃ t', feed (fun s (b : κ × Bytes) => p.send b.1 s b.2) s' sends =
      .ok (stream, t') ∧ hp.sendsAs s₁ t' := by
    refine feed_simulates (R := hp.sendsAs) ?_ hs hfeed
    exact fun hR => hp.send_sendsAs hR
  exact ⟨stream, s₁', hfeed', hrecv⟩

theorem Peer.data_eq_ok {data : Bytes} {c : κ × Bytes} (h : q.data t c = .ok (data, t')) :
    ∃ back, q.recv c.1 t c.2 = .ok ((data, back), t') := by
  rw [Peer.data] at h
  cases hrecv : q.recv c.1 t c.2 with
  | error e =>
    rw [hrecv] at h
    cases h
  | ok r =>
    rw [hrecv] at h
    cases h
    exact ⟨r.1.2, rfl⟩

theorem Peer.data_of_recv {data : Bytes} {back : Option Bytes} {c : κ × Bytes}
    (h : q.recv c.1 t c.2 = .ok ((data, back), t')) : q.data t c = .ok (data, t') := by
  rw [Peer.data, h]
  rfl

theorem Flows.congr_receiver (hq : q.Halves) (ht : hq.recvsAs t t') (h : Flows p q s t wire owed) :
    Flows p q s t' wire owed := by
  intro sends
  obtain ⟨stream, s₁, hfeed, hrecv⟩ := h sends
  refine ⟨stream, s₁, hfeed, fun chunks hchunks => ?_⟩
  obtain ⟨t₁, ht₁⟩ := hrecv chunks hchunks
  obtain ⟨t₁', ht₁', -⟩ := feed_simulates (R := hq.recvsAs) (fun {t t' c data s'} hR hdata => by
    obtain ⟨back, hrecv⟩ := Peer.data_eq_ok hdata
    obtain ⟨t'', ht'', hR'⟩ := hq.recv_recvsAs hR hrecv
    exact ⟨t'', Peer.data_of_recv ht'', hR'⟩) ht ht₁
  exact ⟨t₁', ht₁'⟩

/-- Both directions flow. -/
def FlowsBoth (p : Peer ε κ S) (q : Peer ε κ T) (s : S) (t : T) (f : Flight) : Prop :=
  Flows p q s t f.out f.owedOut ∧ Flows q p t s f.inn f.owedIn

theorem FlowsBoth.keeps (hp : p.Halves) : Keeps p (.always κ S T) (FlowsBoth p q) where
  send {k s t f buf} h _ := by
    obtain ⟨out, s', hsend, hout⟩ := h.1.send k buf
    exact ⟨out, s', hsend, hout, h.2.congr_receiver hp (hp.send_recvsAs hsend)⟩
  recv {k s t f chunk rest} h hinn _ := by
    have hflow := h.2
    rw [hinn] at hflow
    obtain ⟨data, s', owed, hdata, howed, hrest⟩ := hflow.recv k
    obtain ⟨back, hrecv⟩ := Peer.data_eq_ok hdata
    obtain rfl := hp.back hrecv
    refine ⟨data, none, s', owed, hrecv, howed, ?_, hrest⟩
    rw [Flight.received_none]
    exact h.1.congr_sender hp (hp.recv_sendsAs hrecv)

/-- Two objects whose directions do not touch each other, when each gets back what the other one is
    given. -/
def Layer.ofFlows (p : Peer ε κ A) (q : Peer ε κ B) (hp : p.Halves) (hq : q.Halves) :
    Layer ε κ A B where
  client := p
  server := q
  clientTerms := .always κ A B
  serverTerms := .always κ B A
  Inv := FlowsBoth p q
  client_keeps := FlowsBoth.keeps hp
  server_keeps := (FlowsBoth.keeps hq).congr and_comm
  landed h hout hinn := ⟨(hout ▸ h.1).landed, (hinn ▸ h.2).landed⟩

end

instance {p : Peer ε κ A} {q : Peer ε κ B} {hp : p.Halves} {hq : q.Halves} :
    (Layer.ofFlows p q hp hq).DecidableTerms where
  clientSend _ _ _ _ := .isTrue trivial
  clientRecv _ _ _ _ := .isTrue trivial
  serverSend _ _ _ _ := .isTrue trivial
  serverRecv _ _ _ _ := .isTrue trivial

/-! ## Connections -/

/-- The objects of the two ends, the bytes on their way in both directions, and what has gone into
    each direction and come out of it. -/
structure Wired (A B : Type) where
  client : A
  server : B
  up : Bytes := []
  down : Bytes := []
  sentUp : Bytes := []
  gotUp : Bytes := []
  sentDown : Bytes := []
  gotDown : Bytes := []

/-- An end sends a buffer, or reads at most `n` bytes. -/
inductive Wired.Event (κ : Type)
  | clientSend (k : κ) (buf : Bytes)
  | serverSend (k : κ) (buf : Bytes)
  | clientRecv (k : κ) (n : ℕ)
  | serverRecv (k : κ) (n : ℕ)

namespace Layer

variable (L : Layer ε κ A B)

/-- One event; there is no state after it when a call raises. -/
def step (d : Wired A B) : Wired.Event κ → Option (Wired A B)
  | .clientSend k buf =>
    match L.client.send k d.client buf with
    | .error _ => none
    | .ok (out, client) => some { d with client, up := d.up ++ out, sentUp := d.sentUp ++ buf }
  | .serverSend k buf =>
    match L.server.send k d.server buf with
    | .error _ => none
    | .ok (out, server) =>
      some { d with server, down := d.down ++ out, sentDown := d.sentDown ++ buf }
  | .clientRecv k n =>
    match L.client.recv k d.client (d.down.take n) with
    | .error _ => none
    | .ok ((data, back), client) =>
      some { d with
        client
        down := d.down.drop n
        up := d.up ++ back.getD []
        gotDown := d.gotDown ++ data }
  | .serverRecv k n =>
    match L.server.recv k d.server (d.up.take n) with
    | .error _ => none
    | .ok ((data, back), server) =>
      some { d with
        server
        up := d.up.drop n
        down := d.down ++ back.getD []
        gotUp := d.gotUp ++ data }

/-- When an event may happen. -/
def Allowed (d : Wired A B) : Wired.Event κ → Prop
  | .clientSend k buf => L.clientTerms.send k d.client d.server buf
  | .serverSend k buf => L.serverTerms.send k d.server d.client buf
  | .clientRecv k n => L.clientTerms.recv k d.client d.server (d.down.take n)
  | .serverRecv k n => L.serverTerms.recv k d.server d.client (d.up.take n)

instance decidableAllowed [DecidableTerms L] (d : Wired A B) (e : Wired.Event κ) :
    Decidable (L.Allowed d e) :=
  match e with
  | .clientSend k buf => DecidableTerms.clientSend k d.client d.server buf
  | .serverSend k buf => DecidableTerms.serverSend k d.server d.client buf
  | .clientRecv k n => DecidableTerms.clientRecv k d.client d.server (d.down.take n)
  | .serverRecv k n => DecidableTerms.serverRecv k d.server d.client (d.up.take n)

/-- What is owed is what has gone in and has not come out. -/
def Holds (d : Wired A B) : Prop :=
  ∃ owedUp owedDown, L.Inv d.client d.server ⟨d.up, d.down, owedUp, owedDown⟩ ∧
    d.gotUp ++ owedUp = d.sentUp ∧ d.gotDown ++ owedDown = d.sentDown

variable {L} {d : Wired A B}

theorem Holds.step {e : Wired.Event κ} (h : L.Holds d) (hallowed : L.Allowed d e) :
    ∃ d', L.step d e = some d' ∧ L.Holds d' := by
  obtain ⟨owedUp, owedDown, hI, hup, hdown⟩ := h
  cases e with
  | clientSend k buf =>
    obtain ⟨out, client, hsend, hI'⟩ := L.client_keeps.send hI hallowed
    rw [Layer.step, hsend]
    refine ⟨_, rfl, owedUp ++ buf, owedDown, hI', ?_, hdown⟩
    rw [← List.append_assoc, hup]
  | serverSend k buf =>
    obtain ⟨out, server, hsend, hI'⟩ :=
      L.server_keeps.send (f := ⟨d.down, d.up, owedDown, owedUp⟩) hI hallowed
    rw [Layer.step, hsend]
    refine ⟨_, rfl, owedUp, owedDown ++ buf, hI', hup, ?_⟩
    rw [← List.append_assoc, hdown]
  | clientRecv k n =>
    obtain ⟨data, back, client, owed, hrecv, howed, hI'⟩ := L.client_keeps.recv
      (f := ⟨d.up, d.down, owedUp, owedDown⟩) hI (List.take_append_drop n d.down).symm hallowed
    rw [Layer.step, hrecv]
    refine ⟨_, rfl, owedUp, owed, hI', hup, ?_⟩
    rw [← hdown, List.append_assoc]
    exact congrArg (d.gotDown ++ ·) howed.symm
  | serverRecv k n =>
    obtain ⟨data, back, server, owed, hrecv, howed, hI'⟩ := L.server_keeps.recv
      (f := ⟨d.down, d.up, owedDown, owedUp⟩) hI (List.take_append_drop n d.up).symm hallowed
    rw [Layer.step, hrecv]
    refine ⟨_, rfl, owed, owedDown, hI', ?_, hdown⟩
    rw [← hup, List.append_assoc]
    exact congrArg (d.gotUp ++ ·) howed.symm

/-- What has come out is a beginning of what has gone in, and all of it when nothing is on its
    way. -/
structure Delivered (d : Wired A B) : Prop where
  up : d.gotUp <+: d.sentUp
  down : d.gotDown <+: d.sentDown
  all : d.up = [] → d.down = [] → d.gotUp = d.sentUp ∧ d.gotDown = d.sentDown

theorem Holds.delivered (h : L.Holds d) : Delivered d := by
  obtain ⟨owedUp, owedDown, hI, hup, hdown⟩ := h
  refine ⟨⟨_, hup⟩, ⟨_, hdown⟩, fun hnil hnil' => ?_⟩
  obtain ⟨rfl, rfl⟩ : owedUp = [] ∧ owedDown = [] :=
    L.landed (f := ⟨d.up, d.down, owedUp, owedDown⟩) hI hnil hnil'
  rw [List.append_nil] at hup hdown
  exact ⟨hup, hdown⟩

/-- In every run whose events may happen, no call raises, and what comes out is what has gone in. -/
theorem delivers {a : A} {b : B} (hI : L.Inv a b {}) (events : List (Wired.Event κ))
    (h : Run.Throughout L.step L.Allowed ⟨a, b, [], [], [], [], [], []⟩ events) :
    ∃ d, Run.exec L.step ⟨a, b, [], [], [], [], [], []⟩ events = some d ∧ Delivered d := by
  obtain ⟨d, hd, hholds⟩ := Run.exec_isSome_of_throughout (P := L.Holds)
    (fun d e hholds hallowed => hholds.step hallowed) ⟨[], [], hI, rfl, rfl⟩ h
  exact ⟨d, hd, hholds.delivered⟩

end Layer

end ShadowsocksR

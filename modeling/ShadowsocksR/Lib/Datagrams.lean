import ShadowsocksR.Lib.Run
import Mathlib.Data.List.Forall2
import Mathlib.Logic.Function.Basic

/-!
# Datagrams between clients and a server

Clients send requests to a server in datagrams, and the server sends replies in
others. A datagram may be lost, come twice, or come after a later one. The
objects at the ends have a state, which every call may change.

* `Link`: the calls of the two ends;
* `Exchange`: a client, with what it was asked for and all datagrams that were ever
  sent to it and by it, any of which may arrive at any time (`step`);
* `Carries`: a request sent by any client is understood by any server, and a
  reply by any client that has sent something;
* `Carries.delivers`: then, whatever the order of the calls, no call raises, and
  every datagram that arrives is taken for what it was sent for.
-/

namespace ShadowsocksR

variable {ε γ σ D X Q Y Z ι : Type}

/-! ## The ends -/

/-- The calls of the ends. They put out a datagram, or what they have understood, if anything, and
    may raise. -/
structure Link (ε γ σ D X Q Y Z : Type) where
  request : γ → X → Except ε (Option D) × γ
  accept : σ → D → Except ε (Option Q) × σ
  reply : σ → Y → Except ε (Option D) × σ
  deliver : γ → D → Except ε (Option Z) × γ

/-- What the requests and the replies are understood as, if they are sent at all. -/
structure Meaning (X Q Y Z : Type) where
  /-- The requests that a client may be asked for. -/
  Asks : X → Prop
  request : X → Option Q
  /-- The replies that a server may be given. -/
  Answers : Y → Prop
  reply : Y → Option Z

namespace Link

variable (L : Link ε γ σ D X Q Y Z) (m : Meaning X Q Y Z)

/-- Any server understands the datagram. -/
def Accepts (Server : σ → Prop) (d : D) (q : Q) : Prop :=
  ∀ b, Server b → ∃ b', L.accept b d = (.ok (some q), b') ∧ Server b'

/-- Any client that has sent something understands the datagram. -/
def Delivers (Ready : γ → Prop) (d : D) (z : Z) : Prop :=
  ∀ a, Ready a → ∃ a', L.deliver a d = (.ok (some z), a') ∧ Ready a'

/-- With these invariants of a client, of a client that has sent something, and of a server, the
    datagrams are understood. -/
structure Carries (Client Ready : γ → Prop) (Server : σ → Prop) : Prop where
  client_of_ready : ∀ {a}, Ready a → Client a
  request_none : ∀ {a x}, Client a → m.Asks x → m.request x = none →
    ∃ a', L.request a x = (.ok none, a') ∧ Client a' ∧ (Ready a → Ready a')
  request_some : ∀ {a x q}, Client a → m.Asks x → m.request x = some q →
    ∃ d a', L.request a x = (.ok (some d), a') ∧ Ready a' ∧ L.Accepts Server d q
  reply_none : ∀ {b y}, Server b → m.Answers y → m.reply y = none →
    ∃ b', L.reply b y = (.ok none, b') ∧ Server b'
  reply_some : ∀ {b y z}, Server b → m.Answers y → m.reply y = some z →
    ∃ d b', L.reply b y = (.ok (some d), b') ∧ Server b' ∧ L.Delivers Ready d z

end Link

/-! ## The system -/

/-- A client, and all that has passed between it and the server. -/
structure Exchange (γ D X Q Y Z : Type) where
  client : γ
  asked : List X := []
  up : List D := []
  /-- What the server has made of the datagrams that came to it, with their numbers. -/
  accepted : List (ℕ × Option Q) := []
  answered : List Y := []
  down : List D := []
  /-- What the client has made of the datagrams that came to it, with their numbers. -/
  delivered : List (ℕ × Option Z) := []

namespace Exchange

/-- The client is asked for a request. -/
def ask (l : Exchange γ D X Q Y Z) (x : X) (r : Option D × γ) : Exchange γ D X Q Y Z :=
  { l with client := r.2, asked := l.asked ++ [x], up := l.up ++ r.1.toList }

/-- The server has made `q` of a datagram. -/
def accept (l : Exchange γ D X Q Y Z) (i : ℕ) (q : Option Q) : Exchange γ D X Q Y Z :=
  { l with accepted := l.accepted ++ [(i, q)] }

/-- The server is given a reply. -/
def answer (l : Exchange γ D X Q Y Z) (y : Y) (d : Option D) : Exchange γ D X Q Y Z :=
  { l with answered := l.answered ++ [y], down := l.down ++ d.toList }

/-- The client has made something of a datagram. -/
def deliver (l : Exchange γ D X Q Y Z) (i : ℕ) (r : Option Z × γ) : Exchange γ D X Q Y Z :=
  { l with client := r.2, delivered := l.delivered ++ [(i, r.1)] }

end Exchange

/-- The server, and its clients. -/
structure Network (γ σ D X Q Y Z ι : Type) where
  server : σ
  exchanges : ι → Exchange γ D X Q Y Z

namespace Network

/-- Before the first datagram. -/
def start (clients : ι → γ) (server : σ) : Network γ σ D X Q Y Z ι where
  server
  exchanges k := { client := clients k }

inductive Event (X Y ι : Type)
  /-- The client `k` is asked for a request. -/
  | request (k : ι) (x : X)
  /-- A datagram of the client `k` comes to the server, for the first time or again. -/
  | accept (k : ι) (i : ℕ)
  | reply (k : ι) (y : Y)
  | deliver (k : ι) (i : ℕ)

variable [DecidableEq ι] (L : Link ε γ σ D X Q Y Z) (m : Meaning X Q Y Z)

/-- The state after a call for the client `k`. -/
def put (s : Network γ σ D X Q Y Z ι) (server : σ) (k : ι) (l : Exchange γ D X Q Y Z) :
    Network γ σ D X Q Y Z ι where
  server
  exchanges := Function.update s.exchanges k l

/-- An event, if it is possible and the call does not raise. -/
def step (s : Network γ σ D X Q Y Z ι) : Event X Y ι → Option (Network γ σ D X Q Y Z ι)
  | .request k x =>
    match L.request (s.exchanges k).client x with
    | (.error _, _) => none
    | (.ok d, client) => some (s.put s.server k ((s.exchanges k).ask x (d, client)))
  | .accept k i =>
    (s.exchanges k).up[i]?.bind fun d =>
      match L.accept s.server d with
      | (.error _, _) => none
      | (.ok q, server) => some (s.put server k ((s.exchanges k).accept i q))
  | .reply k y =>
    match L.reply s.server y with
    | (.error _, _) => none
    | (.ok d, server) => some (s.put server k ((s.exchanges k).answer y d))
  | .deliver k i =>
    (s.exchanges k).down[i]?.bind fun d =>
      match L.deliver (s.exchanges k).client d with
      | (.error _, _) => none
      | (.ok z, client) => some (s.put s.server k ((s.exchanges k).deliver i (z, client)))

/-- A datagram comes only when it has been sent, and the server replies only to a client of which
    something has come. -/
def Possible (s : Network γ σ D X Q Y Z ι) : Event X Y ι → Prop
  | .request _ x => m.Asks x
  | .accept k i => i < (s.exchanges k).up.length
  | .reply k y => m.Answers y ∧ (s.exchanges k).accepted ≠ []
  | .deliver k i => i < (s.exchanges k).down.length

instance [DecidablePred m.Asks] [DecidablePred m.Answers] (s : Network γ σ D X Q Y Z ι) :
    ∀ e, Decidable (s.Possible m e)
  | .request _ x => inferInstanceAs (Decidable (m.Asks x))
  | .accept _ _ => inferInstanceAs (Decidable (_ < _))
  | .reply _ _ => inferInstanceAs (Decidable (_ ∧ _))
  | .deliver _ _ => inferInstanceAs (Decidable (_ < _))

end Network

/-! ## What arrives -/

/-- A datagram was sent for every request and reply that means something, and every one that has
    come was taken for what it was sent for. -/
structure Exchange.Understood (m : Meaning X Q Y Z) (l : Exchange γ D X Q Y Z) : Prop where
  length_up : l.up.length = (l.asked.filterMap m.request).length
  accepted : ∀ p ∈ l.accepted, ∃ q, p.2 = some q ∧ (l.asked.filterMap m.request)[p.1]? = some q
  length_down : l.down.length = (l.answered.filterMap m.reply).length
  delivered : ∀ p ∈ l.delivered, ∃ z, p.2 = some z ∧ (l.answered.filterMap m.reply)[p.1]? = some z

namespace Link.Carries

variable {L : Link ε γ σ D X Q Y Z} {m : Meaning X Q Y Z} {Client Ready : γ → Prop}
  {Server : σ → Prop}

/-- What holds of a client and its datagrams. -/
structure ExchangeInv (L : Link ε γ σ D X Q Y Z) (m : Meaning X Q Y Z) (Client Ready : γ → Prop)
    (Server : σ → Prop) (l : Exchange γ D X Q Y Z) : Prop where
  client : Client l.client
  ready : l.up ≠ [] → Ready l.client
  up : List.Forall₂ (L.Accepts Server) l.up (l.asked.filterMap m.request)
  up_of_accepted : l.accepted ≠ [] → l.up ≠ []
  accepted : ∀ p ∈ l.accepted, ∃ q, p.2 = some q ∧ (l.asked.filterMap m.request)[p.1]? = some q
  down : List.Forall₂ (L.Delivers Ready) l.down (l.answered.filterMap m.reply)
  up_of_down : l.down ≠ [] → l.up ≠ []
  delivered : ∀ p ∈ l.delivered, ∃ z, p.2 = some z ∧ (l.answered.filterMap m.reply)[p.1]? = some z

/-- What has come stays what it was taken for. -/
theorem getElem?_append {α β : Type} {f : α → Option β} {xs : List α} {i : ℕ} {b : β}
    (h : (xs.filterMap f)[i]? = some b) (x : α) : ((xs ++ [x]).filterMap f)[i]? = some b := by
  rw [List.filterMap_append, List.getElem?_append_left (List.getElem?_eq_some_iff.1 h).1, h]

/-- The number of a datagram is that of what it was sent for. -/
theorem exists_getElem? {α β : Type} {R : α → β → Prop} {xs : List α} {ys : List β}
    (h : List.Forall₂ R xs ys) {i : ℕ} (hi : i < xs.length) :
    ∃ a b, xs[i]? = some a ∧ ys[i]? = some b ∧ R a b := by
  have hi' : i < ys.length := h.length_eq ▸ hi
  exact ⟨xs[i], ys[i], List.getElem?_eq_getElem hi, List.getElem?_eq_getElem hi', h.get hi hi'⟩

namespace ExchangeInv

variable {l : Exchange γ D X Q Y Z}

theorem understood (h : ExchangeInv L m Client Ready Server l) : l.Understood m where
  length_up := h.up.length_eq
  accepted := h.accepted
  length_down := h.down.length_eq
  delivered := h.delivered

/-- A client that has been asked for something, and sends nothing. -/
theorem ask_none (h : ExchangeInv L m Client Ready Server l) {x : X} {a : γ}
    (hx : m.request x = none) (ha : Client a) (hready : Ready l.client → Ready a) :
    ExchangeInv L m Client Ready Server (l.ask x (none, a)) := by
  have hasked : (l.asked ++ [x]).filterMap m.request = l.asked.filterMap m.request := by
    rw [List.filterMap_append, List.filterMap_cons_none hx, List.filterMap_nil, List.append_nil]
  have hup : (l.ask x (none, a)).up = l.up := List.append_nil _
  exact { h with
    client := ha
    ready := fun hne => hready (h.ready (hup ▸ hne))
    up := by
      change List.Forall₂ _ _ ((l.asked ++ [x]).filterMap _)
      rw [hasked, hup]
      exact h.up
    up_of_accepted := fun hne => hup.symm ▸ h.up_of_accepted hne
    up_of_down := fun hne => hup.symm ▸ h.up_of_down hne
    accepted := fun p hp => by
      obtain ⟨q, hq, hget⟩ := h.accepted p hp
      exact ⟨q, hq, getElem?_append hget x⟩ }

theorem ask_some (h : ExchangeInv L m Client Ready Server l) (hclient : ∀ {a}, Ready a → Client a)
    {x : X} {q : Q} {a : γ} {d : D} (hx : m.request x = some q) (ha : Ready a)
    (hd : L.Accepts Server d q) : ExchangeInv L m Client Ready Server (l.ask x (some d, a)) := by
  have hne : l.up ++ [d] ≠ [] := List.append_ne_nil_of_right_ne_nil _ (List.cons_ne_nil _ _)
  exact { h with
    client := hclient ha
    ready := fun _ => ha
    up := by
      change List.Forall₂ _ (l.up ++ [d]) ((l.asked ++ [x]).filterMap _)
      rw [List.filterMap_append, List.filterMap_cons_some hx, List.filterMap_nil]
      exact List.rel_append h.up (.cons hd .nil)
    up_of_accepted := fun _ => hne
    up_of_down := fun _ => hne
    accepted := fun p hp => by
      obtain ⟨q, hq, hget⟩ := h.accepted p hp
      exact ⟨q, hq, getElem?_append hget x⟩ }

theorem accept (h : ExchangeInv L m Client Ready Server l) {i : ℕ} {q : Q} (hi : i < l.up.length)
    (hq : (l.asked.filterMap m.request)[i]? = some q) :
    ExchangeInv L m Client Ready Server (l.accept i (some q)) := by
  have hup : l.up ≠ [] := List.ne_nil_of_length_pos (Nat.zero_lt_of_lt hi)
  exact { h with
    up_of_accepted := fun _ => hup
    accepted := fun p hp => by
      rcases List.mem_append.1 hp with hp | hp
      · exact h.accepted p hp
      · obtain rfl := List.mem_singleton.1 hp
        exact ⟨q, rfl, hq⟩ }

theorem answer_none (h : ExchangeInv L m Client Ready Server l) {y : Y} (hy : m.reply y = none) :
    ExchangeInv L m Client Ready Server (l.answer y none) := by
  have hanswered : (l.answered ++ [y]).filterMap m.reply = l.answered.filterMap m.reply := by
    rw [List.filterMap_append, List.filterMap_cons_none hy, List.filterMap_nil, List.append_nil]
  have hdown : (l.answer y none).down = l.down := List.append_nil _
  exact { h with
    down := by
      change List.Forall₂ _ _ ((l.answered ++ [y]).filterMap _)
      rw [hanswered, hdown]
      exact h.down
    up_of_down := fun hne => h.up_of_down (hdown ▸ hne)
    delivered := fun p hp => by
      obtain ⟨z, hz, hget⟩ := h.delivered p hp
      exact ⟨z, hz, getElem?_append hget y⟩ }

theorem answer_some (h : ExchangeInv L m Client Ready Server l) {y : Y} {z : Z} {d : D}
    (haccepted : l.accepted ≠ []) (hy : m.reply y = some z) (hd : L.Delivers Ready d z) :
    ExchangeInv L m Client Ready Server (l.answer y (some d)) :=
  { h with
    down := by
      change List.Forall₂ _ (l.down ++ [d]) ((l.answered ++ [y]).filterMap _)
      rw [List.filterMap_append, List.filterMap_cons_some hy, List.filterMap_nil]
      exact List.rel_append h.down (.cons hd .nil)
    up_of_down := fun _ => h.up_of_accepted haccepted
    delivered := fun p hp => by
      obtain ⟨z, hz, hget⟩ := h.delivered p hp
      exact ⟨z, hz, getElem?_append hget y⟩ }

theorem deliver (h : ExchangeInv L m Client Ready Server l) (hclient : ∀ {a}, Ready a → Client a)
    {i : ℕ} {z : Z} {a : γ} (ha : Ready a) (hz : (l.answered.filterMap m.reply)[i]? = some z) :
    ExchangeInv L m Client Ready Server (l.deliver i (some z, a)) :=
  { h with
    client := hclient ha
    ready := fun _ => ha
    delivered := fun p hp => by
      rcases List.mem_append.1 hp with hp | hp
      · exact h.delivered p hp
      · obtain rfl := List.mem_singleton.1 hp
        exact ⟨z, rfl, hz⟩ }

end ExchangeInv

/-- What holds of the server and of all clients. -/
structure Inv (L : Link ε γ σ D X Q Y Z) (m : Meaning X Q Y Z) (Client Ready : γ → Prop)
    (Server : σ → Prop) (s : Network γ σ D X Q Y Z ι) : Prop where
  server : Server s.server
  exchanges : ∀ k, ExchangeInv L m Client Ready Server (s.exchanges k)

variable [DecidableEq ι] {s : Network γ σ D X Q Y Z ι}

theorem Inv.put (h : Inv L m Client Ready Server s) {b : σ} (hb : Server b) (k : ι)
    {l : Exchange γ D X Q Y Z} (hl : ExchangeInv L m Client Ready Server l) :
    Inv L m Client Ready Server (s.put b k l) where
  server := hb
  exchanges k' := by
    rw [Network.put]
    dsimp only
    by_cases hk : k' = k
    · subst hk
      rw [Function.update_self]
      exact hl
    · rw [Function.update_of_ne hk]
      exact h.exchanges k'

/-- A possible call does not raise, and keeps the invariant. -/
theorem exists_step (hL : L.Carries m Client Ready Server) (h : Inv L m Client Ready Server s)
    {e : Network.Event X Y ι} (he : s.Possible m e) :
    ∃ s', s.step L e = some s' ∧ Inv L m Client Ready Server s' := by
  cases e with
  | request k x =>
    have hl := h.exchanges k
    cases hx : m.request x with
    | none =>
      obtain ⟨a, hcall, ha, hready⟩ := hL.request_none hl.client he hx
      exact ⟨_, by simp only [Network.step, hcall],
        h.put h.server k (hl.ask_none hx ha hready)⟩
    | some q =>
      obtain ⟨d, a, hcall, ha, hd⟩ := hL.request_some hl.client he hx
      exact ⟨_, by simp only [Network.step, hcall],
        h.put h.server k (hl.ask_some hL.client_of_ready hx ha hd)⟩
  | accept k i =>
    have hl := h.exchanges k
    obtain ⟨d, q, hd, hq, haccepts⟩ := exists_getElem? hl.up he
    obtain ⟨b, hcall, hb⟩ := haccepts s.server h.server
    exact ⟨_, by simp only [Network.step, hd, Option.bind_some, hcall],
      h.put hb k (hl.accept he hq)⟩
  | reply k y =>
    have hl := h.exchanges k
    cases hy : m.reply y with
    | none =>
      obtain ⟨b, hcall, hb⟩ := hL.reply_none h.server he.1 hy
      exact ⟨_, by simp only [Network.step, hcall], h.put hb k (hl.answer_none hy)⟩
    | some z =>
      obtain ⟨d, b, hcall, hb, hd⟩ := hL.reply_some h.server he.1 hy
      exact ⟨_, by simp only [Network.step, hcall], h.put hb k (hl.answer_some he.2 hy hd)⟩
  | deliver k i =>
    have hl := h.exchanges k
    obtain ⟨d, z, hd, hz, hdelivers⟩ := exists_getElem? hl.down he
    have hne : (s.exchanges k).down ≠ [] := List.ne_nil_of_length_pos (Nat.zero_lt_of_lt he)
    -- A client with datagrams on their way to it has sent something.
    obtain ⟨a, hcall, ha⟩ := hdelivers _ (hl.ready (hl.up_of_down hne))
    exact ⟨_, by simp only [Network.step, hd, Option.bind_some, hcall],
      h.put h.server k (hl.deliver hL.client_of_ready ha hz)⟩

omit [DecidableEq ι] in
theorem inv_start {clients : ι → γ} {server : σ} (hclients : ∀ k, Client (clients k))
    (hserver : Server server) :
    Inv L m Client Ready Server (.start clients server : Network γ σ D X Q Y Z ι) where
  server := hserver
  exchanges k :=
    { client := hclients k
      ready := fun h => absurd rfl h
      up := .nil
      up_of_accepted := fun h => absurd rfl h
      accepted := fun _ hp => absurd hp List.not_mem_nil
      down := .nil
      up_of_down := fun h => absurd rfl h
      delivered := fun _ hp => absurd hp List.not_mem_nil }

/-- Whatever the order of the calls, and whichever datagrams are lost, repeated or late, no call
    raises, and every datagram that comes is taken for what it was sent for. -/
theorem delivers (hL : L.Carries m Client Ready Server) {clients : ι → γ} {server : σ}
    (hclients : ∀ k, Client (clients k)) (hserver : Server server)
    {events : List (Network.Event X Y ι)}
    (hpossible : Run.Throughout (Network.step L) (Network.Possible m) (.start clients server)
      events) :
    ∃ s, Run.exec (Network.step L) (.start clients server) events = some s ∧
      ∀ k, (s.exchanges k).Understood m := by
  obtain ⟨s, hs, hinv⟩ := Run.exec_isSome_of_throughout (P := Inv L m Client Ready Server)
    (fun s e hinv he => hL.exists_step hinv he) (inv_start hclients hserver) hpossible
  exact ⟨s, hs, fun k => (hinv.exchanges k).understood⟩

end Link.Carries

end ShadowsocksR

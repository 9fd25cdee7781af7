import ShadowsocksR.Closing.UdpPort
import ShadowsocksR.Lib.Run

/-!
# Closing the relays of a loop

Any number of relays come into a loop and are closed, while their connections and clients go on.
`handle_periodic` of a closed UDP relay removes itself from the list over which the loop iterates,
so that the loop passes over the callback after it; that of a closed TCP relay stays in the list.

* `Loop.tickLoop`: the iteration over the callbacks;
* `Loop.step`: what can happen to the relays of a loop;
* `Fits`: the condition under which closing works;
* `Inv`: a relay is in the loop, or it has released everything;
* `released_exec`: who is closed has nothing left, for ever.
-/

namespace ShadowsocksR

namespace Closing

open UDPRelay (Which)

/-- A relay that has been added to the loop. -/
inductive Port
  | tcp (p : TcpPort)
  | udp (p : UdpPort)

/-- Nothing of the relay is open, or polled by the loop. -/
def Port.Released : Port → Prop
  | .tcp p => p.opened = false ∧ p.polled = false ∧
      ∀ c ∈ p.connections, ∀ s, c.opened s = false ∧ c.polled s = false
  | .udp p => p.opened = false ∧ p.polled = false ∧
      ∀ c ∈ p.clients, c.opened = false ∧ c.polled = false

/-- What the sweeps of a relay find to be idle: connections, and how many of the clients. -/
structure Idle where
  connections : List ℕ
  clients : Which → ℕ

/-- The loop, with the relays that have been added to it, by their numbers. -/
structure Loop where
  ports : List Port := []
  periodicCallbacks : List ℕ := []
  /-- An exception of a callback has ended `run`. -/
  stopped : Bool := false

namespace Loop

/-- The loop after a method of one of the relays. -/
def call {ρ : Type} (s : Loop) (i : ℕ) (port : ρ → Port) (m : PortM ρ Unit) (p : ρ) :
    Except PyExc Unit × Loop :=
  match m ⟨p, s.periodicCallbacks⟩ with
  | .ok _ t => (.ok (),
      { s with ports := s.ports.set i (port t.self), periodicCallbacks := t.periodicCallbacks })
  | .error e t => (.error e,
      { s with ports := s.ports.set i (port t.self), periodicCallbacks := t.periodicCallbacks })

/-- `handle_periodic` of a relay -/
def handlePeriodic (s : Loop) (idle : ℕ → Idle) (i : ℕ) : Except PyExc Unit × Loop :=
  match s.ports[i]? with
  | none => (.ok (), s)
  | some (.tcp p) => s.call i .tcp (TcpPort.handlePeriodic (idle i).connections) p
  | some (.udp p) => s.call i .udp (UdpPort.handlePeriodic i (idle i).clients) p

/-- `for callback in self._periodic_callbacks`: the iteration has an index into the list, which may
    get shorter. -/
def tickLoop (idle : ℕ → Idle) : ℕ → ℕ → Loop → Loop
  | 0, _, s => s
  | n + 1, cursor, s =>
    match s.periodicCallbacks[cursor]? with
    | none => s
    | some i =>
      match s.handlePeriodic idle i with
      | (.ok (), s) => tickLoop idle n (cursor + 1) s
      | (.error _, s) => { s with stopped := true }

/-- The periodic part of a turn of `run`. -/
def tick (s : Loop) (idle : ℕ → Idle) : Loop := tickLoop idle s.periodicCallbacks.length 0 s

/-- `add_to_loop` of a relay that has been constructed -/
def addToLoop (s : Loop) (port : Port) : Loop :=
  { s with
    ports := s.ports ++ [port]
    periodicCallbacks := s.periodicCallbacks ++ [s.ports.length] }

/-- `close` of a relay -/
def close (s : Loop) (i : ℕ) (nextTick : Bool) : Option Loop :=
  match s.ports[i]? with
  | none => none
  | some (.tcp p) => some (s.call i .tcp (TcpPort.close i nextTick) p).2
  | some (.udp p) => some (s.call i .udp (UdpPort.close i nextTick) p).2

/-- A connection of a TCP relay acts. -/
def onTcp (s : Loop) (i : ℕ) (e : TcpPort.Event) : Option Loop :=
  match s.ports[i]? with
  | some (.tcp p) => (p.step e).map fun p => { s with ports := s.ports.set i (.tcp p) }
  | _ => none

/-- A client of a UDP relay acts. -/
def onUdp (s : Loop) (i : ℕ) (e : UdpPort.Event) : Option Loop :=
  match s.ports[i]? with
  | some (.udp p) => (e.run p).map fun m => (s.call i .udp m p).2
  | _ => none

end Loop

/-- What can happen to the relays of a loop. -/
inductive Event
  | addTcp
  | addUdp (udpCacheSize : ℕ)
  | tcp (i : ℕ) (e : TcpPort.Event)
  | udp (i : ℕ) (e : UdpPort.Event)
  | tick (idle : ℕ → Idle)
  | close (i : ℕ) (nextTick : Bool)

def Loop.step (s : Loop) : Event → Option Loop
  | .addTcp => some (s.addToLoop (.tcp {}))
  | .addUdp udpCacheSize => some (s.addToLoop (.udp { udpCacheSize }))
  | .tcp i e => if s.stopped then none else s.onTcp i e
  | .udp i e => if s.stopped then none else s.onUdp i e
  | .tick idle => if s.stopped then none else some (s.tick idle)
  | .close i nextTick => s.close i nextTick

/-- The loop has nothing of the relay, and nothing of it is open. -/
def Loop.Released (s : Loop) (i : ℕ) : Prop :=
  i ∉ s.periodicCallbacks ∧ ∀ p, s.ports[i]? = some p → p.Released

/-- A UDP relay that has been closed, and that the loop still calls. -/
def Loop.Due (s : Loop) (i : ℕ) : Prop := ∃ p, s.ports[i]? = some (.udp p) ∧ p.closed = true

/-- No two of them follow each other in the list. -/
def Loop.Apart (s : Loop) : Prop := ∀ k i j, s.periodicCallbacks[k]? = some i →
  s.periodicCallbacks[k + 1]? = some j → s.Due i → ¬s.Due j

/-- Sockets are registered with the loop when they are set up, and none is set up for a UDP relay
    that has left it; a TCP relay is closed at once. -/
def Fits (s : Loop) : Event → Prop
  | .tcp _ e => e.Starts
  | .udp i e => e.Registers (i ∈ s.periodicCallbacks)
  | .tick _ => s.Apart
  | .close i true => ∃ p, s.ports[i]? = some (.udp p)
  | _ => True

/-! ## In the loop, or released -/

/-- A relay that the loop calls is live, and the others have released everything. -/
def Port.Fine (registered : Prop) : Port → Prop
  | .tcp p => registered ∧ p.Live ∨ ¬registered ∧ p.Released
  | .udp p => registered ∧ p.Live ∨ ¬registered ∧ p.Released

/-- What holds of a loop. -/
structure Inv (s : Loop) : Prop where
  running : s.stopped = false
  nodup : s.periodicCallbacks.Nodup
  lt : ∀ i ∈ s.periodicCallbacks, i < s.ports.length
  fine : ∀ i (p : Port), s.ports[i]? = some p → p.Fine (i ∈ s.periodicCallbacks)

variable {s s' : Loop} {i j : ℕ} {port : Port}

theorem Port.Fine.released {registered : Prop} (h : port.Fine registered) (hnot : ¬registered) :
    port.Released := by
  cases port with
  | tcp p =>
    obtain ⟨hreg, -⟩ | ⟨-, h⟩ := h
    · exact absurd hreg hnot
    · exact ⟨h.opened, h.polled, fun c hc s => ⟨(h.dead c hc).opened s, (h.dead c hc).polled s⟩⟩
  | udp p =>
    obtain ⟨hreg, -⟩ | ⟨-, h⟩ := h
    · exact absurd hreg hnot
    · exact ⟨h.opened, h.polled, fun c hc => by rw [h.gone c hc]; exact ⟨rfl, rfl⟩⟩

theorem Inv.released (h : Inv s) (hi : i ∉ s.periodicCallbacks) : s.Released i :=
  ⟨hi, fun p hp => (h.fine i p hp).released hi⟩

/-- A method that does not raise leads to what its triple says. -/
theorem call_of_triple {ρ : Type} {m : PortM ρ Unit} {P : Scope ρ → Prop}
    {Q : Unit → Scope ρ → Prop} (hm : Triple P m Q Never) (f : ρ → Port) {p : ρ}
    (hp : P ⟨p, s.periodicCallbacks⟩) :
    ∃ t, Q () t ∧ s.call i f m p = (.ok (),
      { s with ports := s.ports.set i (f t.self), periodicCallbacks := t.periodicCallbacks }) := by
  obtain ⟨_, t, ht, hq⟩ | ⟨_, _, -, h⟩ := hm.cases hp
  · exact ⟨t, hq, by rw [Loop.call, ht]⟩
  · exact h.elim

/-- One of the relays has changed, and is in the loop, or has left it. -/
theorem Inv.set (h : Inv s) {callbacks : List ℕ}
    (hcallbacks : callbacks = s.periodicCallbacks ∨ callbacks = s.periodicCallbacks.erase i)
    (hport : port.Fine (i ∈ callbacks)) :
    Inv { s with ports := s.ports.set i port, periodicCallbacks := callbacks } := by
  have hsub : callbacks.Sublist s.periodicCallbacks := by
    rcases hcallbacks with rfl | rfl
    · exact List.Sublist.refl _
    · exact List.erase_sublist
  have hmem {j : ℕ} (hj : i ≠ j) : j ∈ callbacks ↔ j ∈ s.periodicCallbacks := by
    rcases hcallbacks with rfl | rfl
    · exact Iff.rfl
    · exact List.mem_erase_of_ne hj.symm
  refine ⟨h.running, h.nodup.sublist hsub, fun j hj => ?_, fun j p hp => ?_⟩
  · rw [List.length_set]
    exact h.lt j (hsub.subset hj)
  · dsimp only at hp ⊢
    rw [List.getElem?_set] at hp
    split_ifs at hp with hij hlt
    · cases hp
      exact hij ▸ hport
    · rw [hmem hij]
      exact h.fine j p hp

theorem due_set (hij : i ≠ j) {callbacks : List ℕ} :
    Loop.Due { s with ports := s.ports.set i port, periodicCallbacks := callbacks } j ↔
      s.Due j := by
  unfold Loop.Due
  rw [List.getElem?_set_ne hij]

/-- What `handle_periodic` does to a loop: a relay that is due leaves it. -/
inductive Called (s : Loop) (i : ℕ) (s' : Loop) : Prop
  | left (due : s.Due i) (callbacks : s'.periodicCallbacks = s.periodicCallbacks.erase i)
    (others : ∀ j, i ≠ j → (s'.Due j ↔ s.Due j))
  | stayed (notDue : ¬s.Due i) (callbacks : s'.periodicCallbacks = s.periodicCallbacks)
    (all : ∀ j, s'.Due j ↔ s.Due j)

theorem due_udp {p : UdpPort} (hp : s.ports[i]? = some (.udp p)) : s.Due i ↔ p.closed = true := by
  refine ⟨?_, fun h => ⟨p, hp, h⟩⟩
  rintro ⟨q, hq, h⟩
  cases hp.symm.trans hq
  exact h

theorem not_due_tcp {p : TcpPort} (hp : s.ports[i]? = some (.tcp p)) : ¬s.Due i := by
  rintro ⟨q, hq, -⟩
  cases hp.symm.trans hq

theorem Inv.handlePeriodic (h : Inv s) (idle : ℕ → Idle) (hi : i ∈ s.periodicCallbacks) :
    ∃ s', s.handlePeriodic idle i = (.ok (), s') ∧ Inv s' ∧ Called s i s' := by
  have hlt := h.lt i hi
  obtain ⟨port, hport⟩ : ∃ port, s.ports[i]? = some port := ⟨_, List.getElem?_eq_getElem hlt⟩
  have hset (q : Port) : (s.ports.set i q)[i]? = some q := List.getElem?_set_self hlt
  unfold Loop.handlePeriodic
  rw [hport]
  cases port with
  | tcp p =>
    obtain ⟨-, hlive⟩ | ⟨hnot, -⟩ := h.fine i _ hport
    · obtain ⟨t, ⟨ht, hcallbacks⟩, hcall⟩ := call_of_triple (i := i) (s := s)
        (TcpPort.triple_handlePeriodic (p := p) (idle i).connections) .tcp ⟨hlive, rfl, rfl⟩
      refine ⟨_, hcall, h.set (.inl hcallbacks) (.inl ⟨hcallbacks ▸ hi, ht⟩),
        .stayed (not_due_tcp hport) hcallbacks fun j => ?_⟩
      by_cases hij : i = j
      · subst hij
        exact iff_of_false (not_due_tcp (hset _)) (not_due_tcp hport)
      · exact due_set hij
    · exact absurd hi hnot
  | udp p =>
    obtain ⟨-, hlive⟩ | ⟨hnot, -⟩ := h.fine i _ hport
    · cases hclosed : p.closed with
      | true =>
        obtain ⟨t, ⟨ht, hcallbacks⟩, hcall⟩ := call_of_triple (i := i) (s := s)
          (UdpPort.triple_release (p := p) (idle i).clients) .udp ⟨⟨hlive, hclosed⟩, rfl, rfl, hi⟩
        refine ⟨_, hcall, h.set (.inr hcallbacks) (.inr ⟨?_, ht⟩),
          .left ((due_udp hport).2 hclosed) hcallbacks fun j hij => due_set hij⟩
        rw [hcallbacks]
        exact h.nodup.not_mem_erase
      | false =>
        obtain ⟨t, ⟨ht, hsame, hcallbacks⟩, hcall⟩ := call_of_triple (i := i) (s := s)
          (UdpPort.triple_handlePeriodic (p := p) i (idle i).clients) .udp
          ⟨⟨hlive, hclosed⟩, rfl, rfl⟩
        have hnot : ¬s.Due i := by
          rw [due_udp hport, hclosed]
          exact Bool.false_ne_true
        refine ⟨_, hcall, h.set (.inl hcallbacks) (.inl ⟨hcallbacks ▸ hi, ht⟩),
          .stayed hnot hcallbacks fun j => ?_⟩
        by_cases hij : i = j
        · subst hij
          rw [due_udp (hset _), due_udp hport, hsame]
        · exact due_set hij
    · exact absurd hi hnot

/-- When a relay leaves, the iteration comes past the callback after it, which is not due. -/
theorem Called.apart (h : Called s i s') (hnodup : s.periodicCallbacks.Nodup) (hapart : s.Apart)
    {cursor : ℕ} (hi : s.periodicCallbacks[cursor]? = some i)
    (hpassed : ∀ k j, k < cursor → s.periodicCallbacks[k]? = some j → ¬s.Due j) :
    s'.Apart ∧ ∀ k j, k < cursor + 1 → s'.periodicCallbacks[k]? = some j → ¬s'.Due j := by
  cases h with
  | stayed hdue hcallbacks hall =>
    refine ⟨fun k a b ha hb => ?_, fun k j hk hj => ?_⟩
    · rw [hcallbacks] at ha hb
      rw [hall, hall]
      exact hapart k a b ha hb
    · rw [hcallbacks] at hj
      rw [hall]
      rcases Nat.lt_succ_iff_lt_or_eq.1 hk with hk | rfl
      · exact hpassed k j hk hj
      · cases hi.symm.trans hj
        exact hdue
  | left hdue hcallbacks hothers =>
    -- From the cursor on, each callback has come one place forward.
    obtain ⟨hlt, rfl⟩ := List.getElem?_eq_some_iff.1 hi
    have hget (k : ℕ) : s'.periodicCallbacks[k]? =
        if k < cursor then s.periodicCallbacks[k]? else s.periodicCallbacks[k + 1]? := by
      rw [hcallbacks, hnodup.erase_getElem, List.getElem?_eraseIdx]
    have hne {k j : ℕ} (hj : s'.periodicCallbacks[k]? = some j) :
        s.periodicCallbacks[cursor] ≠ j := by
      rintro rfl
      have hmem := List.mem_of_getElem? hj
      rw [hcallbacks] at hmem
      exact hnodup.not_mem_erase hmem
    have hpassed' : ∀ k j, k < cursor + 1 → s'.periodicCallbacks[k]? = some j → ¬s.Due j := by
      intro k j hk hj
      rw [hget] at hj
      split_ifs at hj with hlt
      · exact hpassed k j hlt hj
      · -- The one that is passed over followed the one that has left.
        obtain rfl : k = cursor := by omega
        exact hapart k _ j hi hj hdue
    refine ⟨fun k a b ha hb hdue' => ?_, fun k j hk hj => ?_⟩
    · rw [hothers b (hne hb)]
      rw [hothers a (hne ha)] at hdue'
      rcases Nat.lt_or_ge k cursor with hk | hk
      · exact hpassed' (k + 1) b (by omega) hb
      · rw [hget, if_neg (by omega)] at ha hb
        exact hapart (k + 1) a b ha hb hdue'
    · rw [hothers j (hne hj)]
      exact hpassed' k j hk hj

/-- When the iteration has come past the whole list, nobody in it is due. -/
theorem not_mem_of_passed {cursor : ℕ} (hlength : s.periodicCallbacks.length ≤ cursor)
    (hpassed : ∀ k j, k < cursor → s.periodicCallbacks[k]? = some j → ¬s.Due j) {j : ℕ}
    (hdue : s.Due j) : j ∉ s.periodicCallbacks := by
  intro hj
  obtain ⟨k, hk⟩ := List.mem_iff_getElem?.1 hj
  have hklt := (List.getElem?_eq_some_iff.1 hk).1
  exact hpassed k j (by omega) hk hdue

/-- In a tick all relays that are due leave the loop, when no two of them follow each other. -/
theorem Inv.tickLoop (idle : ℕ → Idle) (n cursor : ℕ) (h : Inv s) (hapart : s.Apart)
    (hn : s.periodicCallbacks.length ≤ n + cursor)
    (hpassed : ∀ k j, k < cursor → s.periodicCallbacks[k]? = some j → ¬s.Due j) :
    Inv (s.tickLoop idle n cursor) ∧
      (s.tickLoop idle n cursor).periodicCallbacks.Sublist s.periodicCallbacks ∧
      ∀ j, s.Due j → j ∉ (s.tickLoop idle n cursor).periodicCallbacks := by
  induction n generalizing s cursor with
  | zero => exact ⟨h, List.Sublist.refl _, fun j => not_mem_of_passed (by omega) hpassed⟩
  | succ n ih =>
    unfold Loop.tickLoop
    cases hi : s.periodicCallbacks[cursor]? with
    | none => exact ⟨h, List.Sublist.refl _, fun j =>
        not_mem_of_passed (List.getElem?_eq_none_iff.1 hi) hpassed⟩
    | some i =>
      obtain ⟨s₁, hs₁, hinv, hcalled⟩ := h.handlePeriodic idle (List.mem_of_getElem? hi)
      dsimp only
      rw [hs₁]
      dsimp only
      obtain ⟨hapart₁, hpassed₁⟩ := hcalled.apart h.nodup hapart hi hpassed
      have hsub : s₁.periodicCallbacks.Sublist s.periodicCallbacks := by
        cases hcalled with
        | left _ hcallbacks => rw [hcallbacks]; exact List.erase_sublist
        | stayed _ hcallbacks => rw [hcallbacks]
      have hlength₁ : s₁.periodicCallbacks.length ≤ n + (cursor + 1) := by
        have := hsub.length_le
        omega
      obtain ⟨hinv', hsub', hleft⟩ := ih (cursor + 1) hinv hapart₁ hlength₁ hpassed₁
      refine ⟨hinv', hsub'.trans hsub, fun j hdue => ?_⟩
      cases hcalled with
      | stayed _ _ hall => exact hleft j ((hall j).2 hdue)
      | left _ hcallbacks hothers =>
        by_cases hij : i = j
        · subst hij
          intro hmem
          have hmem₁ := hsub'.subset hmem
          rw [hcallbacks] at hmem₁
          exact h.nodup.not_mem_erase hmem₁
        · exact hleft j ((hothers j hij).2 hdue)

/-! ## What happens to the relays -/

theorem Inv.addToLoop (h : Inv s) (hport : port.Fine True) : Inv (s.addToLoop port) := by
  have hnew : s.ports.length ∉ s.periodicCallbacks := fun hi => lt_irrefl _ (h.lt _ hi)
  refine ⟨h.running, ?_, fun i hi => ?_, fun i p hp => ?_⟩
  · refine List.nodup_append.2 ⟨h.nodup, List.nodup_singleton _, fun i hi j hj => ?_⟩
    rw [List.mem_singleton.1 hj]
    exact (h.lt i hi).ne
  · rw [Loop.addToLoop, List.length_append, List.length_singleton]
    rcases List.mem_append.1 hi with hi | hi
    · exact Nat.lt_succ_of_lt (h.lt i hi)
    · rw [List.mem_singleton.1 hi]
      exact Nat.lt_succ_self _
  · dsimp only [Loop.addToLoop] at hp ⊢
    rcases Nat.lt_trichotomy i s.ports.length with hi | rfl | hi
    · rw [List.getElem?_append_left hi] at hp
      have hmem : i ∈ s.periodicCallbacks ++ [s.ports.length] ↔ i ∈ s.periodicCallbacks := by
        rw [List.mem_append, List.mem_singleton, or_iff_left hi.ne]
      rw [hmem]
      exact h.fine i p hp
    · rw [List.getElem?_append_right le_rfl, Nat.sub_self] at hp
      cases hp
      have hmem : s.ports.length ∈ s.periodicCallbacks ++ [s.ports.length] :=
        List.mem_append_right _ (List.mem_singleton.2 rfl)
      rwa [eq_true hmem]
    · rw [List.getElem?_eq_none (by simp; omega)] at hp
      cases hp

/-- What a step does to a relay that was there before: it does not come back into the loop, and a
    UDP relay that has been closed stays closed. -/
structure Goes (s s' : Loop) : Prop where
  callbacks : ∀ i < s.ports.length, i ∈ s'.periodicCallbacks → i ∈ s.periodicCallbacks
  due : ∀ i, s.Due i → i ∉ s'.periodicCallbacks ∨ s'.Due i
  length : s.ports.length ≤ s'.ports.length

/-- One of the relays has changed, and has left the loop when it has been closed. -/
theorem Goes.set {callbacks : List ℕ}
    (hcallbacks : callbacks = s.periodicCallbacks ∨ callbacks = s.periodicCallbacks.erase i)
    (hdue : s.Due i → i ∉ callbacks ∨
      Loop.Due { s with ports := s.ports.set i port, periodicCallbacks := callbacks } i) :
    Goes s { s with ports := s.ports.set i port, periodicCallbacks := callbacks } := by
  refine ⟨fun j _ hj => ?_, fun j hj => ?_, (List.length_set ..).ge⟩
  · rcases hcallbacks with rfl | rfl
    · exact hj
    · exact List.mem_of_mem_erase hj
  · by_cases hij : i = j
    · exact hij ▸ hdue (hij ▸ hj)
    · exact .inr ((due_set hij).2 hj)

theorem goes_addToLoop (s : Loop) (port : Port) : Goes s (s.addToLoop port) := by
  refine ⟨fun i hi hmem => ?_, fun i hdue => .inr ?_, ?_⟩
  · refine (List.mem_append.1 hmem).resolve_right fun h => ?_
    rw [List.mem_singleton.1 h] at hi
    exact lt_irrefl _ hi
  · obtain ⟨p, hp, hclosed⟩ := hdue
    refine ⟨p, ?_, hclosed⟩
    rw [Loop.addToLoop, List.getElem?_append_left (List.getElem?_eq_some_iff.1 hp).1]
    exact hp
  · rw [Loop.addToLoop, List.length_append]
    exact Nat.le_add_right _ _

/-- A method that raises leads to what its triple says. -/
theorem call_of_raises {ρ : Type} {m : PortM ρ Unit} {P : Scope ρ → Prop}
    {E : PyExc → Scope ρ → Prop} (hm : Triple P m (fun _ _ => False) E) (f : ρ → Port) {p : ρ}
    (hp : P ⟨p, s.periodicCallbacks⟩) : ∃ e t, E e t ∧ (s.call i f m p).2 =
      { s with ports := s.ports.set i (f t.self), periodicCallbacks := t.periodicCallbacks } := by
  obtain ⟨_, _, -, h⟩ | ⟨e, t, ht, hE⟩ := hm.cases hp
  · exact h.elim
  · exact ⟨e, t, hE, by rw [Loop.call, ht]⟩

/-- A relay that has released everything has left the loop. -/
theorem Inv.leave (h : Inv s) {callbacks : List ℕ}
    (hcallbacks : callbacks = s.periodicCallbacks ∨ callbacks = s.periodicCallbacks.erase i)
    (hport : port.Fine False) (hi : i ∉ callbacks) :
    Inv { s with ports := s.ports.set i port, periodicCallbacks := callbacks } ∧
      Goes s { s with ports := s.ports.set i port, periodicCallbacks := callbacks } :=
  ⟨h.set hcallbacks (by rwa [eq_false hi]), .set hcallbacks fun _ => .inl hi⟩

/-- An immediate close of a relay of either kind: one that is live is released, and one that has
    been released is only marked as closed. -/
theorem Inv.close_of_triples (h : Inv s) {ρ : Type} {f : ρ → Port} {live released : ρ → Prop}
    (hfine : ∀ registered q, (f q).Fine registered ↔
      registered ∧ live q ∨ ¬registered ∧ released q)
    {m : PortM ρ Unit} {p p' : ρ} (hp : s.ports[i]? = some (f p))
    (hclose : Triple (fun t => live p ∧ t.self = p ∧ t.periodicCallbacks = s.periodicCallbacks ∧
        i ∈ s.periodicCallbacks) m
      (fun _ t => released t.self ∧ t.periodicCallbacks = s.periodicCallbacks.erase i) Never)
    (hagain : Triple (fun t => t.self = p ∧ t.periodicCallbacks = s.periodicCallbacks ∧
        i ∉ s.periodicCallbacks) m (fun _ _ => False)
      fun _ t => t.self = p' ∧ t.periodicCallbacks = s.periodicCallbacks)
    (hmark : released p → released p') :
    (Inv (s.call i f m p).2 ∧ Goes s (s.call i f m p).2) ∧ i < s.ports.length ∧
      i ∉ (s.call i f m p).2.periodicCallbacks := by
  have hlt := (List.getElem?_eq_some_iff.1 hp).1
  have herase : i ∉ s.periodicCallbacks.erase i := h.nodup.not_mem_erase
  obtain ⟨hi, hlive⟩ | ⟨hi, hreleased⟩ := (hfine _ p).1 (h.fine i _ hp)
  · obtain ⟨⟨self, callbacks⟩, ⟨ht, rfl⟩, hcall⟩ := call_of_triple (i := i) hclose f
      ⟨hlive, rfl, rfl, hi⟩
    rw [hcall]
    exact ⟨h.leave (.inr rfl) ((hfine _ _).2 (.inr ⟨id, ht⟩)) herase, hlt, herase⟩
  · obtain ⟨-, ⟨self, callbacks⟩, ⟨rfl, rfl⟩, hcall⟩ := call_of_raises (i := i) hagain f
      ⟨rfl, rfl, hi⟩
    rw [hcall]
    exact ⟨h.leave (.inl rfl) ((hfine _ _).2 (.inr ⟨id, hmark hreleased⟩)) hi, hlt, hi⟩

/-- A relay after an immediate close. -/
theorem Inv.close_now (h : Inv s) (hclose : s.close i false = some s') :
    (Inv s' ∧ Goes s s') ∧ i < s.ports.length ∧ i ∉ s'.periodicCallbacks := by
  unfold Loop.close at hclose
  split at hclose
  · cases hclose
  · next p hp =>
    cases hclose
    refine h.close_of_triples (fun _ _ => Iff.rfl) hp TcpPort.triple_close
      TcpPort.triple_close_again fun hreleased => ?_
    exact ⟨rfl, hreleased.opened, hreleased.polled, hreleased.dead⟩
  · next p hp =>
    cases hclose
    refine h.close_of_triples (fun _ _ => Iff.rfl) hp UdpPort.triple_close
      UdpPort.triple_close_again fun hreleased => ?_
    exact ⟨rfl, hreleased.opened, hreleased.polled,
      hreleased.agree.congr rfl fun w => by cases w <;> rfl, fun w => by
        rw [← hreleased.empty w]; cases w <;> rfl⟩

/-- A UDP relay after it has been closed for the next tick. -/
theorem Inv.close_later (h : Inv s) {p : UdpPort} (hp : s.ports[i]? = some (.udp p))
    (hclose : s.close i true = some s') :
    (Inv s' ∧ Goes s s') ∧ i < s.ports.length ∧ (i ∉ s'.periodicCallbacks ∨ s'.Due i) := by
  have hlt := (List.getElem?_eq_some_iff.1 hp).1
  have hcall : (s.call i .udp (UdpPort.close i true) p).2 =
      { s with ports := s.ports.set i (.udp { p with closed := true }) } := rfl
  have hdue : Loop.Due { s with ports := s.ports.set i (.udp { p with closed := true }) } i :=
    ⟨_, List.getElem?_set_self hlt, rfl⟩
  have hagree (h : p.Agree) : ({ p with closed := true } : UdpPort).Agree :=
    h.congr rfl fun w => by cases w <;> rfl
  unfold Loop.close at hclose
  rw [hp] at hclose
  dsimp only at hclose
  rw [hcall] at hclose
  cases hclose
  refine ⟨⟨h.set (.inl rfl) ?_, .set (.inl rfl) fun _ => .inr hdue⟩, hlt, .inr hdue⟩
  refine (h.fine i _ hp).imp (fun h => ⟨h.1, ?_⟩) fun h => ⟨h.1, ?_⟩
  · exact ⟨h.2.serverSocket, h.2.opened, h.2.polled, hagree h.2.agree⟩
  · exact ⟨rfl, h.2.opened, h.2.polled, hagree h.2.agree, fun w => by
      rw [← h.2.empty w]; cases w <;> rfl⟩

theorem length_call {ρ : Type} (s : Loop) (i : ℕ) (f : ρ → Port) (m : PortM ρ Unit) (p : ρ) :
    (s.call i f m p).2.ports.length = s.ports.length := by
  unfold Loop.call
  split <;> exact List.length_set ..

theorem length_handlePeriodic (s : Loop) (idle : ℕ → Idle) (i : ℕ) :
    (s.handlePeriodic idle i).2.ports.length = s.ports.length := by
  unfold Loop.handlePeriodic
  split
  · rfl
  · exact length_call ..
  · exact length_call ..

theorem length_tickLoop (idle : ℕ → Idle) (n cursor : ℕ) (s : Loop) :
    (s.tickLoop idle n cursor).ports.length = s.ports.length := by
  induction n generalizing s cursor with
  | zero => rfl
  | succ n ih =>
    unfold Loop.tickLoop
    split
    · rfl
    · next i _ =>
      have hlength := length_handlePeriodic s idle i
      split
      · next s₁ hs₁ =>
        rw [hs₁] at hlength
        rw [ih, ← hlength]
      · next s₁ hs₁ =>
        rw [hs₁] at hlength
        exact hlength

/-- A tick. -/
theorem Inv.tick (h : Inv s) (hapart : s.Apart) (idle : ℕ → Idle) :
    (Inv (s.tick idle) ∧ Goes s (s.tick idle)) ∧
      ∀ j, s.Due j → j ∉ (s.tick idle).periodicCallbacks := by
  obtain ⟨hinv, hsub, hdue⟩ := h.tickLoop idle s.periodicCallbacks.length 0 hapart le_rfl
    fun k j hk => absurd hk (Nat.not_lt_zero k)
  exact ⟨⟨hinv, fun i _ hi => hsub.subset hi, fun j hj => .inl (hdue j hj),
    (length_tickLoop ..).ge⟩, hdue⟩

theorem Inv.onTcp (h : Inv s) {e : TcpPort.Event} (he : e.Starts) (hstep : s.onTcp i e = some s') :
    Inv s' ∧ Goes s s' := by
  unfold Loop.onTcp at hstep
  split at hstep
  · next p hp =>
    obtain ⟨p', hp', rfl⟩ := Option.map_eq_some_iff.1 hstep
    refine ⟨h.set (.inl rfl) ?_, .set (.inl rfl) fun hdue => absurd hdue (not_due_tcp hp)⟩
    exact (h.fine i _ hp).imp (fun h => ⟨h.1, h.2.step he hp'⟩) fun h => ⟨h.1, h.2.step hp'⟩
  · cases hstep

theorem Inv.onUdp (h : Inv s) {e : UdpPort.Event} (he : e.Registers (i ∈ s.periodicCallbacks))
    (hstep : s.onUdp i e = some s') : Inv s' ∧ Goes s s' := by
  unfold Loop.onUdp at hstep
  split at hstep
  · next p hp =>
    have hlt := (List.getElem?_eq_some_iff.1 hp).1
    obtain ⟨m, hm, rfl⟩ := Option.map_eq_some_iff.1 hstep
    obtain ⟨hi, hlive⟩ | ⟨hi, hreleased⟩ := h.fine i _ hp
    · obtain ⟨⟨self, callbacks⟩, ⟨ht, hclosed, rfl⟩, hcall⟩ := call_of_triple (i := i) (s := s)
        (hlive.run (by rwa [eq_true hi] at he) hm) .udp rfl
      rw [hcall]
      refine ⟨h.set (.inl rfl) (.inl ⟨hi, ht⟩), .set (.inl rfl) fun hdue => .inr ?_⟩
      exact ⟨self, List.getElem?_set_self hlt, hclosed.trans ((due_udp hp).1 hdue)⟩
    · obtain ⟨⟨self, callbacks⟩, ht, hcall⟩ := call_of_triple (i := i) (s := s)
        (hreleased.run (by rwa [eq_false hi] at he) hm) .udp rfl
      cases ht
      rw [hcall]
      exact h.leave (.inl rfl) (.inr ⟨id, hreleased⟩) hi
  · cases hstep

/-- A step that fits keeps what holds of a loop. -/
theorem Inv.step (h : Inv s) {e : Event} (he : Fits s e) (hstep : s.step e = some s') :
    Inv s' ∧ Goes s s' := by
  cases e with
  | addTcp =>
    cases hstep
    exact ⟨h.addToLoop (.inl ⟨trivial, rfl, rfl, rfl, rfl, fun _ => nofun⟩), goes_addToLoop _ _⟩
  | addUdp udpCacheSize =>
    cases hstep
    exact ⟨h.addToLoop (.inl ⟨trivial, rfl, rfl, rfl, UdpPort.agree_new _⟩), goes_addToLoop _ _⟩
  | tcp i e =>
    simp only [Loop.step, h.running, Bool.false_eq_true, if_false] at hstep
    exact h.onTcp he hstep
  | udp i e =>
    simp only [Loop.step, h.running, Bool.false_eq_true, if_false] at hstep
    exact h.onUdp he hstep
  | tick idle =>
    simp only [Loop.step, h.running, Bool.false_eq_true, if_false] at hstep
    cases hstep
    exact (h.tick he idle).1
  | close i nextTick =>
    cases nextTick with
    | false => exact (h.close_now hstep).1
    | true =>
      obtain ⟨p, hp⟩ := he
      exact (h.close_later hp hstep).1

/-! ## Runs -/

theorem inv_new : Inv {} := ⟨rfl, List.nodup_nil, fun _ => nofun, fun _ _ => nofun⟩

end Closing

end ShadowsocksR

import ShadowsocksR.Closing.Loop

/-!
# What the relays of a loop do to their listening sockets

The traffic and the ticks leave the listening socket of a relay as it is, until the relay has been
closed; then they only take it out of the loop.

* `Held`: what a method of a relay leaves as it is;
* `Keeps`: the same for all relays of a loop;
* `keeps_step`: the traffic and the ticks keep a loop.
-/

namespace ShadowsocksR

namespace Closing

open UDPRelay (Which)

/-! ## Relays -/

/-- The two kinds of relays. -/
inductive Transport
  | tcp
  | udp
  deriving DecidableEq

namespace Port

def transport : Port → Transport
  | .tcp _ => .tcp
  | .udp _ => .udp

/-- `_closed` -/
def closed : Port → Bool
  | .tcp p => p.closed
  | .udp p => p.closed

/-- Whether the listening socket is open. -/
def opened : Port → Bool
  | .tcp p => p.opened
  | .udp p => p.opened

/-- Whether the listening socket is in `_fdmap`. -/
def polled : Port → Bool
  | .tcp p => p.polled
  | .udp p => p.polled

/-- The listening socket is not opened, and it stays as it is when the relay has not been closed. -/
structure Kept (p p' : Port) : Prop where
  transport : p'.transport = p.transport
  closed : p'.closed = p.closed
  opened : p'.opened = true → p.opened = true
  polled : p'.polled = true → p.polled = true
  listens : p.closed = false → p'.opened = p.opened ∧ p'.polled = p.polled

theorem Kept.refl (p : Port) : p.Kept p := ⟨rfl, rfl, id, id, fun _ => ⟨rfl, rfl⟩⟩

theorem Kept.trans {p q r : Port} (h : p.Kept q) (h' : q.Kept r) : p.Kept r where
  transport := h'.transport.trans h.transport
  closed := h'.closed.trans h.closed
  opened := h.opened ∘ h'.opened
  polled := h.polled ∘ h'.polled
  listens hclosed :=
    have hq := h'.listens (h.closed.trans hclosed)
    ⟨hq.1.trans (h.listens hclosed).1, hq.2.trans (h.listens hclosed).2⟩

end Port

/-! ## Methods -/

section

variable {ρ : Type} (port : ρ → Port) (me : ℕ)

/-- A method keeps its relay, and takes at most this relay out of the loop, when it has been
    closed. -/
structure Held (s t : Scope ρ) : Prop where
  self : (port s.self).Kept (port t.self)
  callbacks : ∀ j ∈ t.periodicCallbacks, j ∈ s.periodicCallbacks
  registered : ∀ j ∈ s.periodicCallbacks, (j = me → (port s.self).closed = false) →
    j ∈ t.periodicCallbacks

/-- However the method ends, it has kept its relay. -/
def Holds {α : Type} (m : PortM ρ α) (s : Scope ρ) : Prop :=
  Triple (Held port me s) m (fun _ => Held port me s) fun _ => Held port me s

variable {port me} {α β : Type} {s : Scope ρ}

theorem Held.refl (s : Scope ρ) : Held port me s s := ⟨.refl _, fun _ => id, fun _ hj _ => hj⟩

theorem holds_pure (a : α) : Holds port me (pure a) s := .pure fun _ => id

theorem holds_throw (e : PyExc) : Holds port me (throw e : PortM ρ α) s := .throw fun _ => id

theorem Holds.bind {m : PortM ρ α} {f : α → PortM ρ β} (h : Holds port me m s)
    (hf : ∀ a, Holds port me (f a) s) : Holds port me (m >>= f) s := Triple.bind h hf

theorem Holds.ite {c : Prop} [Decidable c] {m m' : PortM ρ α} (h : c → Holds port me m s)
    (h' : ¬c → Holds port me m' s) : Holds port me (if c then m else m') s := Triple.ite h h'

/-- A method that reads the relay, which is still what it was when it has not been closed. -/
theorem holds_get_bind {f : Scope ρ → PortM ρ β}
    (hf : ∀ t, Held port me s t → Holds port me (f t) s) : Holds port me (get >>= f) s :=
  .get_bind fun t ht => (hf t ht).pre fun _ h => h ▸ ht

/-- An assignment that keeps every relay with the same `_closed`. -/
theorem holds_modifySelf {f : ρ → ρ}
    (hf : ∀ p, (port p).closed = (port s.self).closed → (port p).Kept (port (f p))) :
    Holds port me (modifySelf f) s :=
  .modify fun t ht => ⟨ht.self.trans (hf t.self ht.self.closed), ht.callbacks, ht.registered⟩

/-- An assignment to a relay that has been closed. -/
theorem holds_modifySelf_of_closed {f : ρ → ρ} (hs : (port s.self).closed = true)
    (hf : ∀ p, (port (f p)).transport = (port p).transport ∧ (port (f p)).closed = (port p).closed)
    (hopened : ∀ p, (port (f p)).opened = true → (port p).opened = true)
    (hpolled : ∀ p, (port (f p)).polled = true → (port p).polled = true) :
    Holds port me (modifySelf f) s := by
  refine holds_modifySelf fun p hp => ⟨(hf p).1, (hf p).2, hopened p, hpolled p, fun h => ?_⟩
  rw [hp, hs] at h
  cases h

/-- A relay that has been closed may leave the loop. -/
theorem holds_removePeriodic (hclosed : (port s.self).closed = true) :
    Holds port me (removePeriodic me) s := by
  refine holds_get_bind fun _ _ => .ite (fun _ => .modify fun t ht => ?_) fun _ => holds_throw _
  refine ⟨ht.self, fun j hj => ht.callbacks j (List.mem_of_mem_erase hj), fun j hj hme => ?_⟩
  have hne : j ≠ me := by
    rintro rfl
    rw [hclosed] at hme
    cases hme rfl
  exact (List.mem_erase_of_ne hne).2 (ht.registered j hj hme)

end

/-! ## The relays -/

section

variable {me : ℕ}

namespace TcpPort

variable {s : Scope TcpPort}

theorem holds_destroy (j : ℕ) : Holds Port.tcp me (destroy j) s := by
  refine holds_get_bind fun t _ => ?_
  cases t.self.connections[j]? with
  | none => exact holds_pure _
  | some c =>
    dsimp only
    cases c.destroy with
    | ok c => exact holds_modifySelf fun p _ => ⟨rfl, rfl, id, id, fun _ => ⟨rfl, rfl⟩⟩
    | error e => exact holds_throw e

theorem holds_destroyAll (js : List ℕ) : Holds Port.tcp me (destroyAll js) s := by
  induction js with
  | nil => exact holds_pure _
  | cons j js ih => exact (holds_destroy j).bind fun _ => ih

/-- A relay that has been closed closes its listening socket. -/
theorem holds_handlePeriodic (idle : List ℕ) : Holds Port.tcp me (handlePeriodic idle) s := by
  refine holds_get_bind fun t ht => .ite (fun hclosed => ?_) fun _ => holds_destroyAll idle
  -- The assignments are in the branch of a relay that has been closed.
  have hs : (Port.tcp s.self).closed = true := ht.self.closed.symm.trans hclosed
  have hsweep : Holds Port.tcp me
      (do destroyAll (← get).self.handlers; destroyAll idle) s :=
    holds_get_bind fun _ _ => (holds_destroyAll _).bind fun _ => holds_destroyAll idle
  refine holds_get_bind fun _ _ => .ite (fun _ => ?_) fun _ => hsweep
  refine .bind (holds_get_bind fun _ _ => .ite (fun _ => ?_) fun _ => holds_throw _) fun _ =>
    .bind (holds_get_bind fun _ _ => .ite (fun _ => ?_) fun _ => holds_throw _) fun _ =>
    .bind (holds_modifySelf_of_closed hs (fun _ => ⟨rfl, rfl⟩) (fun _ => id) fun _ => id)
      fun _ => hsweep
  · exact holds_modifySelf_of_closed hs (fun _ => ⟨rfl, rfl⟩) (fun _ => id) fun _ => nofun
  · exact holds_modifySelf_of_closed hs (fun _ => ⟨rfl, rfl⟩) (fun _ => nofun) fun _ => id

/-- The connections do not touch the listening socket. -/
theorem kept_step {p p' : TcpPort} {e : Event} (h : p.step e = some p') :
    (Port.tcp p).Kept (.tcp p') := by
  have hkept {f : Connection → Option Connection} {j : ℕ} (h : p.onConnection j f = some p') :
      (Port.tcp p).Kept (.tcp p') := by
    obtain ⟨c, -, h⟩ := Option.bind_eq_some_iff.1 h
    obtain ⟨c', -, h⟩ := Option.bind_eq_some_iff.1 h
    cases h
    exact ⟨rfl, rfl, id, id, fun _ => ⟨rfl, rfl⟩⟩
  cases e with
  | accept outcome =>
    simp only [TcpPort.step] at h
    split_ifs at h
    cases h
    exact ⟨rfl, rfl, id, id, fun _ => ⟨rfl, rfl⟩⟩
  | createRemoteSocket j udp => exact hkept h
  | add j s => exact hkept h
  | destroy j => exact hkept h

end TcpPort

namespace UdpPort

variable {s : Scope UdpPort}

theorem kept_setCache (w : Which) (js : List ℕ) (p : UdpPort) :
    (Port.udp p).Kept (.udp (p.setCache w js)) := by
  cases w <;> exact ⟨rfl, rfl, id, id, fun _ => ⟨rfl, rfl⟩⟩

theorem holds_closeClient (j : ℕ) : Holds Port.udp me (closeClient j) s := by
  refine holds_get_bind fun t _ => ?_
  cases t.self.clients[j]? with
  | none => exact holds_pure _
  | some c =>
    refine .bind (holds_modifySelf fun p _ => ⟨rfl, rfl, id, id, fun _ => ⟨rfl, rfl⟩⟩) fun _ => ?_
    cases c.close.1 with
    | ok _ => exact holds_pure _
    | error e => exact holds_throw e

theorem holds_clear (w : Which) (keep : ℕ) : Holds Port.udp me (clear w keep) s := by
  refine holds_get_bind fun t _ => ?_
  generalize (t.self.cacheAt w).length = n
  induction n with
  | zero => exact holds_pure _
  | succ n ih =>
    refine holds_get_bind fun t _ => ?_
    cases t.self.cacheAt w with
    | nil => exact holds_pure _
    | cons j js =>
      refine .ite (fun _ => ?_) fun _ => holds_pure _
      exact (holds_closeClient j).bind fun _ =>
        (holds_modifySelf fun p _ => kept_setCache w js p).bind fun _ => ih

theorem holds_sweep (w : Which) (n : ℕ) : Holds Port.udp me (sweep w n) s := by
  induction n with
  | zero => exact holds_pure _
  | succ n ih =>
    refine holds_get_bind fun t _ => ?_
    cases t.self.cacheAt w with
    | nil => exact holds_pure _
    | cons j js =>
      exact (holds_modifySelf fun p _ => kept_setCache w js p).bind fun _ =>
        (holds_closeClient j).bind fun _ => ih

/-- A relay that has been closed leaves the loop, and closes its listening socket. -/
theorem holds_handlePeriodic (idle : Which → ℕ) : Holds Port.udp me (handlePeriodic me idle) s := by
  refine holds_get_bind fun t ht => .ite (fun hclosed => ?_) fun _ =>
    (holds_sweep .client _).bind fun _ => holds_sweep .dns _
  have hs : (Port.udp s.self).closed = true := ht.self.closed.symm.trans hclosed
  have hremove : Holds Port.udp me remove s := by
    refine holds_get_bind fun _ _ => .ite (fun _ => holds_throw _) fun _ => ?_
    refine holds_get_bind fun _ _ => holds_get_bind fun _ _ => .ite (fun _ => ?_) fun _ =>
      holds_throw _
    exact holds_modifySelf_of_closed hs (fun _ => ⟨rfl, rfl⟩) (fun _ => id) fun _ => nofun
  have hsocket : Holds Port.udp me closeServerSocket s := by
    refine holds_get_bind fun _ _ => .ite (fun _ => ?_) fun _ => holds_throw _
    exact holds_modifySelf_of_closed hs (fun _ => ⟨rfl, rfl⟩) (fun _ => nofun) fun _ => id
  exact (holds_clear .client 0).bind fun _ => (holds_clear .dns 0).bind fun _ =>
    (holds_removePeriodic hs).bind fun _ => hremove.bind fun _ => hsocket.bind fun _ =>
    holds_modifySelf_of_closed hs (fun _ => ⟨rfl, rfl⟩) (fun _ => id) fun _ => id

theorem holds_handleServerDnsResolved (found : Found) :
    Holds Port.udp me (handleServerDnsResolved found) s := by
  have hcut : Holds Port.udp me
      (do clear .client (← get).self.udpCacheSize; clear .dns 16) s :=
    holds_get_bind fun _ _ => (holds_clear .client _).bind fun _ => holds_clear .dns 16
  cases found with
  | nothing => exact holds_pure _
  | known w j => exact (holds_modifySelf fun p _ => kept_setCache w _ p).bind fun _ => hcut
  | new w registers =>
    refine .bind (holds_modifySelf fun p _ => ?_) fun _ => .ite (fun _ => hcut) fun _ =>
      holds_throw _
    cases w <;> exact ⟨rfl, rfl, id, id, fun _ => ⟨rfl, rfl⟩⟩

theorem holds_run {p : UdpPort} {e : Event} {m : PortM UdpPort Unit} (hm : e.run p = some m) :
    Holds Port.udp me m s := by
  cases e with
  | resolved found =>
    have hm : m = handleServerDnsResolved found := by
      cases found with
      | known w j =>
        simp only [Event.run] at hm
        split_ifs at hm
        exact (Option.some.inj hm).symm
      | nothing => exact (Option.some.inj hm).symm
      | new w registers => exact (Option.some.inj hm).symm
    exact hm ▸ holds_handleServerDnsResolved found
  | reply w j =>
    simp only [Event.run] at hm
    split_ifs at hm
    cases hm
    exact holds_modifySelf fun p _ => kept_setCache w _ p
  | answered j =>
    simp only [Event.run] at hm
    split_ifs at hm
    cases hm
    exact .bind (holds_modifySelf fun p _ => ⟨rfl, rfl, id, id, fun _ => ⟨rfl, rfl⟩⟩) fun _ =>
      holds_closeClient j

end UdpPort

end

/-! ## The loop -/

/-- The relays keep their listening sockets until they have been closed, and nobody comes into the
    loop. -/
structure Loop.Keeps (s s' : Loop) : Prop where
  length : s'.ports.length = s.ports.length
  port : ∀ (i : ℕ) (p : Port), s.ports[i]? = some p → ∃ p', s'.ports[i]? = some p' ∧ p.Kept p'
  callbacks : ∀ i ∈ s'.periodicCallbacks, i ∈ s.periodicCallbacks
  registered : ∀ i ∈ s.periodicCallbacks, (∀ p : Port, s.ports[i]? = some p → p.closed = false) →
    i ∈ s'.periodicCallbacks

variable {s s' s'' : Loop} {i : ℕ}

theorem Loop.Keeps.refl (s : Loop) : s.Keeps s :=
  ⟨rfl, fun _ p hp => ⟨p, hp, .refl p⟩, fun _ => id, fun _ hi _ => hi⟩

theorem Loop.Keeps.trans (h : s.Keeps s') (h' : s'.Keeps s'') : s.Keeps s'' := by
  -- A relay that has not been closed is not closed in between either, so it stays registered.
  refine ⟨h'.length.trans h.length, fun i p hp => ?_, fun i hi => h.callbacks i (h'.callbacks i hi),
    fun i hi hclosed => h'.registered i (h.registered i hi hclosed) fun p' hp' => ?_⟩
  · obtain ⟨p', hp', hkept⟩ := h.port i p hp
    obtain ⟨p'', hp'', hkept'⟩ := h'.port i p' hp'
    exact ⟨p'', hp'', hkept.trans hkept'⟩
  · have hlt : i < s.ports.length := h.length ▸ (List.getElem?_eq_some_iff.1 hp').1
    obtain ⟨q, hq, hkept⟩ := h.port i _ (List.getElem?_eq_getElem hlt)
    cases hq.symm.trans hp'
    exact hkept.closed.trans (hclosed _ (List.getElem?_eq_getElem hlt))

/-- One of the relays has been kept by a method. -/
theorem keeps_set {ρ : Type} {port : ρ → Port} {p : ρ} {t : Scope ρ}
    (hp : s.ports[i]? = some (port p)) (h : Held port i ⟨p, s.periodicCallbacks⟩ t) :
    s.Keeps { s with
      ports := s.ports.set i (port t.self)
      periodicCallbacks := t.periodicCallbacks } := by
  refine ⟨List.length_set .., fun j q hq => ?_, h.callbacks, fun j hj hclosed =>
    h.registered j hj fun hji => hclosed _ (hji ▸ hp)⟩
  by_cases hij : i = j
  · subst hij
    cases hp.symm.trans hq
    exact ⟨_, List.getElem?_set_self (List.getElem?_eq_some_iff.1 hp).1, h.self⟩
  · exact ⟨q, (List.getElem?_set_ne hij).trans hq, .refl q⟩

theorem keeps_call {ρ : Type} {port : ρ → Port} {p : ρ} {m : PortM ρ Unit}
    (hp : s.ports[i]? = some (port p)) (hm : ∀ s, Holds port i m s) :
    s.Keeps (s.call i port m p).2 := by
  have hrefl : Held port i ⟨p, s.periodicCallbacks⟩ ⟨p, s.periodicCallbacks⟩ := .refl _
  unfold Loop.call
  cases ht : m ⟨p, s.periodicCallbacks⟩ with
  | ok _ t => exact keeps_set hp ((hm _).ok hrefl ht)
  | error _ t => exact keeps_set hp ((hm _).error hrefl ht)

theorem keeps_handlePeriodic (s : Loop) (idle : ℕ → Idle) (i : ℕ) :
    s.Keeps (s.handlePeriodic idle i).2 := by
  unfold Loop.handlePeriodic
  split
  · exact .refl s
  · next p hp => exact keeps_call hp fun _ => TcpPort.holds_handlePeriodic _
  · next p hp => exact keeps_call hp fun _ => UdpPort.holds_handlePeriodic _

theorem keeps_tickLoop (idle : ℕ → Idle) (n cursor : ℕ) (s : Loop) :
    s.Keeps (s.tickLoop idle n cursor) := by
  induction n generalizing s cursor with
  | zero => exact .refl s
  | succ n ih =>
    unfold Loop.tickLoop
    split
    · exact .refl s
    · next i _ =>
      have hkeeps := keeps_handlePeriodic s idle i
      split
      · next s₁ hs₁ =>
        rw [hs₁] at hkeeps
        exact hkeeps.trans (ih _ s₁)
      · next s₁ hs₁ =>
        rw [hs₁] at hkeeps
        exact ⟨hkeeps.length, hkeeps.port, hkeeps.callbacks, hkeeps.registered⟩

/-- The steps that are not calls from outside. -/
def Event.isWork : Event → Bool
  | .tcp .. => true
  | .udp .. => true
  | .tick _ => true
  | _ => false

/-- The traffic and the ticks keep the listening sockets. -/
theorem keeps_step {e : Event} (he : e.isWork = true) (hstep : s.step e = some s') :
    s.Keeps s' := by
  cases e with
  | tcp i e =>
    simp only [Loop.step, Loop.onTcp] at hstep
    split_ifs at hstep
    split at hstep
    · next p hp =>
      obtain ⟨p', hp', rfl⟩ := Option.map_eq_some_iff.1 hstep
      exact keeps_set hp (t := ⟨p', s.periodicCallbacks⟩)
        ⟨TcpPort.kept_step hp', fun _ => id, fun _ hj _ => hj⟩
    · cases hstep
  | udp i e =>
    simp only [Loop.step, Loop.onUdp] at hstep
    split_ifs at hstep
    split at hstep
    · next p hp =>
      obtain ⟨m, hm, rfl⟩ := Option.map_eq_some_iff.1 hstep
      exact keeps_call hp fun _ => UdpPort.holds_run hm
    · cases hstep
  | tick idle =>
    simp only [Loop.step] at hstep
    split_ifs at hstep
    exact Option.some.inj hstep ▸ keeps_tickLoop idle _ 0 s
  | addTcp => cases he
  | addUdp _ => cases he
  | close _ _ => cases he

end Closing

end ShadowsocksR

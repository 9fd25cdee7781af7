import ShadowsocksR.ServerPool.Starts

/-!
# Stopping the relays of a port, and runs

A stop takes the relays of a port out of the pools, and leaves them to the next tick.

* `Stopped`: what a stop finds;
* `cbDelServer_consistent_iff`: when it keeps the pools consistent;
* `inv_step`: every step keeps the invariant;
* `throughout_consistent_iff`: the exact condition on the steps of a run for consistent pools.
-/

namespace ShadowsocksR

namespace Starting

open Closing

variable {config : Config} {calls : Calls} {s s' : Pools} {t t' : Transport} {f f' : Family}
  {port port' i j : ℕ} {next : Bool} {e : PyExc}

/-! ## Stops -/

/-- `close(True)` -/
def markClosed : Port → Port
  | .tcp p => .tcp { p with closed := true }
  | .udp p => .udp { p with closed := true }

/-- A relay has been closed, and has left its pool. -/
def Pools.remove (s : Pools) (f : Family) (port i : ℕ) (t : Transport) : Pools :=
  Pools.setServers { s with loop := (s.loop.close i true).getD s.loop } t f
    ((s.servers t f).del port)

theorem close_next {l : Loop} {p : Port} (hp : l.ports[i]? = some p) :
    (l.close i true).getD l = { l with ports := l.ports.set i (markClosed p) } := by
  unfold Loop.close
  rw [hp]
  cases p <;> rfl

theorem at_remove : (s.remove f port i t).At t' f' port' j ↔
    ¬(t' = t ∧ f' = f ∧ port' = port) ∧ s.At t' f' port' j := by
  unfold Pools.At Pools.remove Pools.setServers
  dsimp only
  by_cases hpool : t' = t ∧ f' = f
  · obtain ⟨rfl, rfl⟩ := hpool
    simp only [true_and, and_self, if_true]
    rw [Dict.get?_del]
    split_ifs with hport <;> simp [hport]
  · rw [if_neg hpool]
    exact (and_iff_right fun h => hpool ⟨h.1, h.2.1⟩).symm

theorem contains_remove : ((s.remove f port i t).servers t' f').contains port' =
    (!decide (t' = t ∧ f' = f ∧ port' = port) && (s.servers t' f').contains port') := by
  rw [Bool.eq_iff_iff, Bool.and_eq_true, Bool.not_eq_true', decide_eq_false_iff_not, contains_iff,
    contains_iff]
  simp only [at_remove, exists_and_left]

section

variable {l : Loop} {p q : Port}

theorem get_close (hp : l.ports[i]? = some p) (j : ℕ) :
    ((l.close i true).getD l).ports[j]? = if i = j then some (markClosed p) else l.ports[j]? := by
  rw [close_next hp, List.getElem?_set]
  split_ifs with hij hlt
  · rfl
  · exact absurd (List.getElem?_eq_some_iff.1 hp).1 hlt
  · rfl

theorem callbacks_close (hp : l.ports[i]? = some p) :
    ((l.close i true).getD l).periodicCallbacks = l.periodicCallbacks := by
  rw [close_next hp]

/-- A relay that is closed for the next tick still listens. -/
theorem has_close (hp : l.ports[i]? = some p) (j : ℕ) :
    Has ((l.close i true).getD l) j ↔ Has l j := by
  unfold Has
  rw [callbacks_close hp, get_close hp]
  refine or_congr Iff.rfl ?_
  split_ifs with hij
  · subst hij
    rw [hp]
    cases p <;> simp [markClosed, Port.opened, Port.polled]
  · exact Iff.rfl

theorem closed_close (hp : l.ports[i]? = some p) (j : ℕ) :
    Closed ((l.close i true).getD l) j ↔ j = i ∨ Closed l j := by
  unfold Closed
  rw [get_close hp]
  split_ifs with hij
  · refine iff_of_true ⟨_, rfl, ?_⟩ (.inl hij.symm)
    cases p <;> rfl
  · exact (or_iff_right fun h => hij h.symm).symm

theorem Serves.close (hp : l.ports[i]? = some p) (hij : i ≠ j) (h : Serves l t j q) :
    Serves ((l.close i true).getD l) t j q := by
  refine ⟨?_, h.transport, h.closed, h.opened, h.polled, ?_⟩
  · rw [get_close hp, if_neg hij]
    exact h.port
  · rw [callbacks_close hp]
    exact h.registered

end

theorem Inv.remove (h : Inv s) (hi : s.At t f port i) : Inv (s.remove f port i t) := by
  obtain ⟨p, hp⟩ := h.serves t f port i hi
  refine ⟨fun t' f' port' j hj => ?_, fun t₁ f₁ port₁ t₂ f₂ port₂ j h₁ h₂ => ?_, fun j hj => ?_⟩
  · obtain ⟨hne, hj⟩ := at_remove.1 hj
    obtain ⟨q, hq⟩ := h.serves t' f' port' j hj
    refine ⟨q, hq.close hp.port ?_⟩
    rintro rfl
    exact hne (h.once _ _ _ _ _ _ i hj hi)
  · exact h.once _ _ _ _ _ _ j (at_remove.1 h₁).2 (at_remove.1 h₂).2
  · have hlt := h.callbacks j ((callbacks_close hp.port) ▸ hj)
    refine hlt.trans_eq ?_
    show s.loop.ports.length = ((s.loop.close i true).getD s.loop).ports.length
    rw [close_next hp.port, List.length_set]

/-- The relay has left the pools, and those that were in none still are. -/
theorem pooled_remove (h : Inv s) (hi : s.At t f port i) :
    (s.remove f port i t).Pooled j ↔ s.Pooled j ∧ j ≠ i := by
  constructor
  · rintro ⟨t', f', port', hj⟩
    obtain ⟨hne, hj'⟩ := at_remove.1 hj
    refine ⟨⟨t', f', port', hj'⟩, fun hji => ?_⟩
    exact hne (h.once _ _ _ _ _ _ i (hji ▸ hj') hi)
  · rintro ⟨⟨t', f', port', hj⟩, hji⟩
    refine ⟨t', f', port', at_remove.2 ⟨?_, hj⟩⟩
    rintro ⟨rfl, rfl, rfl⟩
    exact hji (Option.some.inj (hj.symm.trans hi))

/-- A relay that leaves its pool has been closed, for the next tick. -/
theorem Claimed.remove (h : Claimed true s) (hinv : Inv s) (hi : s.At t f port i) :
    Claimed true (s.remove f port i t) := by
  obtain ⟨p, hp⟩ := hinv.serves t f port i hi
  intro j hj
  have hclosed : Closed (s.remove f port i t).loop j ↔ j = i ∨ Closed s.loop j :=
    closed_close hp.port j
  rw [pooled_remove hinv hi, hclosed]
  have hj' : Has s.loop j := (has_close hp.port j).1 hj
  rcases h j hj' with hpooled | ⟨-, hclosed⟩
  · by_cases hji : j = i
    · exact .inr ⟨rfl, .inl hji⟩
    · exact .inl ⟨hpooled, hji⟩
  · exact .inr ⟨rfl, .inr hclosed⟩

/-- A relay that listens, in no pool. -/
def Stray (s : Pools) (i : ℕ) : Prop := Has s.loop i ∧ ¬s.Pooled i

theorem Stray.remove (h : Stray s j) (hinv : Inv s) (hi : s.At t f port i) :
    Stray (s.remove f port i t) j := by
  obtain ⟨p, hp⟩ := hinv.serves t f port i hi
  refine ⟨(has_close hp.port j).2 h.1, ?_⟩
  rw [pooled_remove hinv hi]
  exact fun hj => h.2 hj.1

theorem stray_remove (hinv : Inv s) (hi : s.At t f port i) : Stray (s.remove f port i t) i := by
  obtain ⟨p, hp⟩ := hinv.serves t f port i hi
  refine ⟨(has_close hp.port i).2 (.inl hp.registered), ?_⟩
  rw [pooled_remove hinv hi]
  exact fun h => h.2 rfl

/-- A stop finds the relays that are in the pools. -/
inductive Stopped (s : Pools) (f : Family) (port : ℕ) : Pools → Prop
  | absent (h : (s.servers .tcp f).contains port = false) : Stopped s f port s
  | tcpOnly (i : ℕ) (hi : s.At .tcp f port i) (h : (s.servers .udp f).contains port = false) :
      Stopped s f port (s.remove f port i .tcp)
  | both (i j : ℕ) (hi : s.At .tcp f port i) (hj : s.At .udp f port j) :
      Stopped s f port ((s.remove f port i .tcp).remove f port j .udp)

theorem stopRelay_at (h : s.At t f port i) :
    tryCatch (stopRelay f port t) (fun _ => pure ()) s = .ok () (s.remove f port i t) := by
  have hstop : stopRelay f port t s = .ok () (s.remove f port i t) := by
    refine (bind_of_ok (a := s) (by rfl)).trans ?_
    rw [h]
    rfl
  rw [tryCatch_apply, hstop]

theorem stopRelay_absent (h : (s.servers t f).contains port = false) :
    tryCatch (stopRelay f port t) (fun _ => pure ()) s = .ok () s := by
  have hstop : stopRelay f port t s = .error .keyError s := by
    refine (bind_of_ok (a := s) (by rfl)).trans ?_
    rw [Dict.contains_eq_false.1 h]
    rfl
  rw [tryCatch_apply, hstop]
  rfl

theorem stopped (s : Pools) (f : Family) (port : ℕ) :
    ∃ s', stopFamily f port s = .ok () s' ∧ Stopped s f port s' := by
  unfold stopFamily
  cases htcp : (s.servers .tcp f).contains port with
  | false =>
    refine ⟨s, (bind_of_ok (a := s) (by rfl)).trans ?_, .absent htcp⟩
    rw [htcp]
    rfl
  | true =>
    obtain ⟨i, hi⟩ := contains_iff.1 htcp
    have hudp' : ((s.remove f port i .tcp).servers .udp f).contains port =
        (s.servers .udp f).contains port := by
      rw [contains_remove]
      simp
    have hcall {s' : Pools} (hs' : tryCatch (stopRelay f port .udp) (fun _ => pure ())
        (s.remove f port i .tcp) = .ok () s') : (do
          if ((← get).servers .tcp f).contains port then
            tryCatch (stopRelay f port .tcp) fun _ => pure ()
            tryCatch (stopRelay f port .udp) fun _ => pure () : PoolM Unit) s = .ok () s' := by
      refine (bind_of_ok (a := s) (by rfl)).trans ?_
      rw [htcp]
      exact (bind_of_ok (stopRelay_at hi)).trans hs'
    cases hudp : (s.servers .udp f).contains port with
    | false =>
      exact ⟨_, hcall (stopRelay_absent (hudp'.trans hudp)), .tcpOnly i hi hudp⟩
    | true =>
      obtain ⟨j, hj⟩ := contains_iff.1 hudp
      exact ⟨_, hcall (stopRelay_at (at_remove.2 ⟨nofun, hj⟩)), .both i j hi hj⟩

theorem Stopped.eq_of_absent (h : Stopped s f port s')
    (hport : (s.servers .tcp f).contains port = false) : s' = s := by
  cases h with
  | absent => rfl
  | tcpOnly i hi => exact absurd hi (not_at hport)
  | both i j hi => exact absurd hi (not_at hport)

theorem Stopped.inv (h : Stopped s f port s') (hinv : Inv s) : Inv s' := by
  cases h with
  | absent => exact hinv
  | tcpOnly i hi => exact hinv.remove hi
  | both i j hi hj => exact (hinv.remove hi).remove (at_remove.2 ⟨nofun, hj⟩)

theorem Stopped.paired (h : Stopped s f port s') (hpaired : Paired s) : Paired s' := by
  intro f' port' hudp'
  cases h with
  | absent => exact hpaired f' port' hudp'
  | tcpOnly i hi hudp =>
    simp only [contains_remove, reduceCtorEq, false_and, true_and, decide_false, Bool.not_false,
      Bool.true_and, Bool.and_eq_true, Bool.not_eq_true', decide_eq_false_iff_not] at hudp' ⊢
    refine ⟨?_, hpaired f' port' hudp'⟩
    rintro ⟨rfl, rfl⟩
    rw [hudp] at hudp'
    cases hudp'
  | both i j hi hj =>
    simp only [contains_remove, reduceCtorEq, false_and, true_and, decide_false, Bool.not_false,
      Bool.true_and, Bool.and_eq_true, Bool.not_eq_true', decide_eq_false_iff_not] at hudp' ⊢
    exact ⟨hudp'.1, hpaired f' port' hudp'.2⟩

/-- A port leaves both pools, and its relays have been closed for the next tick. -/
theorem Stopped.consistent (h : Stopped s f port s') (hinv : Inv s) (hs : Consistent true s) :
    Consistent true s' := by
  have hinv' := h.inv hinv
  cases h with
  | absent => exact hs
  | tcpOnly i hi hudp =>
    rw [← hs.keys f port, contains_iff.2 ⟨i, hi⟩] at hudp
    cases hudp
  | both i j hi hj =>
    -- Each of the two has been closed when it leaves its pool.
    have hj' : (s.remove f port i .tcp).At .udp f port j := at_remove.2 ⟨nofun, hj⟩
    refine ⟨fun f' port' => ?_, hinv'.serves, Claimed.remove (Claimed.remove hs.pooled hinv hi)
      (hinv.remove hi) hj'⟩
    simp [contains_remove, hs.keys f' port']

/-- The relays of a port that is running go on listening, in no pool, until the next tick. -/
theorem Stopped.stray (h : Stopped s f port s') (hinv : Inv s)
    (hport : (s.servers .tcp f).contains port = true) : ∃ i, Stray s' i := by
  cases h with
  | absent hport' =>
    rw [hport] at hport'
    cases hport'
  | tcpOnly i hi => exact ⟨i, stray_remove hinv hi⟩
  | both i j hi hj =>
    exact ⟨i, (stray_remove hinv hi).remove (hinv.remove hi) (at_remove.2 ⟨nofun, hj⟩)⟩

theorem Stopped.keep_stray (h : Stopped s f port s') (hinv : Inv s) (hi : Stray s i) :
    Stray s' i := by
  cases h with
  | absent => exact hi
  | tcpOnly j hj => exact hi.remove hinv hj
  | both j k hj hk => exact (hi.remove hinv hj).remove (hinv.remove hj) (at_remove.2 ⟨nofun, hk⟩)

/-- A call stops the relays of both families, one after the other. -/
theorem cbDelServer_stopped (s : Pools) (port : ℕ) (hserver : config.server = true) :
    ∃ s₁, Stopped s .ipv4 port s₁ ∧
      (config.serverIpv6 = true ∧ Stopped s₁ .ipv6 port (after (cbDelServer config port) s) ∨
        config.serverIpv6 = false ∧ after (cbDelServer config port) s = s₁) := by
  obtain ⟨s₁, hs₁, h₁⟩ := stopped s .ipv4 port
  obtain ⟨s₂, hs₂, h₂⟩ := stopped s₁ .ipv6 port
  refine ⟨s₁, h₁, ?_⟩
  unfold cbDelServer
  rw [if_pos hserver]
  cases hserver6 : config.serverIpv6 with
  | true =>
    rw [after, bind_of_ok hs₁, if_pos rfl, hs₂]
    exact .inl ⟨rfl, h₂⟩
  | false =>
    rw [after, bind_of_ok hs₁, if_neg Bool.false_ne_true]
    exact .inr ⟨rfl, rfl⟩

theorem cbDelServer_raises (s : Pools) (port : ℕ) (hserver : config.server = false) :
    after (cbDelServer config port) s = s := by
  unfold cbDelServer
  rw [hserver]
  rfl

theorem inv_cbDelServer (hinv : Inv s) (hpaired : Paired s) (config : Config) (port : ℕ) :
    Inv (after (cbDelServer config port) s) ∧ Paired (after (cbDelServer config port) s) := by
  cases hserver : config.server with
  | false =>
    rw [cbDelServer_raises s port hserver]
    exact ⟨hinv, hpaired⟩
  | true =>
    obtain ⟨s₁, h₁, ⟨-, h₂⟩ | ⟨-, h₂⟩⟩ := cbDelServer_stopped s port hserver
    · exact ⟨h₂.inv (h₁.inv hinv), h₂.paired (h₁.paired hpaired)⟩
    · rw [h₂]
      exact ⟨h₁.inv hinv, h₁.paired hpaired⟩

theorem cbDelServer_consistent (hinv : Inv s) (hs : Consistent true s) (config : Config)
    (port : ℕ) :
    Consistent true (after (cbDelServer config port) s) := by
  cases hserver : config.server with
  | false =>
    rw [cbDelServer_raises s port hserver]
    exact hs
  | true =>
    obtain ⟨s₁, h₁, ⟨-, h₂⟩ | ⟨-, h₂⟩⟩ := cbDelServer_stopped s port hserver
    · exact h₂.consistent (h₁.inv hinv) (h₁.consistent hinv hs)
    · rw [h₂]
      exact h₁.consistent hinv hs

/-- A call that comes to relays leaves them listening. -/
theorem cbDelServer_stray (hinv : Inv s) (hstops : Stops config s port) :
    ∃ i, Stray (after (cbDelServer config port) s) i := by
  obtain ⟨hserver, hport⟩ := hstops
  obtain ⟨s₁, h₁, h₂⟩ := cbDelServer_stopped s port hserver
  have hkeep {i : ℕ} (hi : Stray s₁ i) : ∃ i, Stray (after (cbDelServer config port) s) i := by
    rcases h₂ with ⟨-, h₂⟩ | ⟨-, h₂⟩
    · exact ⟨i, h₂.keep_stray (h₁.inv hinv) hi⟩
    · exact ⟨i, h₂ ▸ hi⟩
  -- A relay that IPv4 leaves behind is still there after IPv6.
  cases hport₄ : (s.servers .tcp .ipv4).contains port with
  | true =>
    obtain ⟨i, hi⟩ := h₁.stray hinv hport₄
    exact hkeep hi
  | false =>
    obtain ⟨hserver6, hport₆⟩ := hport.resolve_left (by rw [hport₄]; exact Bool.false_ne_true)
    rcases h₂ with ⟨-, h₂⟩ | ⟨hnot, -⟩
    · refine h₂.stray (h₁.inv hinv) ?_
      rwa [h₁.eq_of_absent hport₄]
    · rw [hserver6] at hnot
      cases hnot

theorem cbDelServer_of_not_stops (h : ¬Stops config s port) :
    after (cbDelServer config port) s = s := by
  cases hserver : config.server with
  | false => exact cbDelServer_raises s port hserver
  | true =>
    obtain ⟨s₁, h₁, h₂⟩ := cbDelServer_stopped s port hserver
    have hport₄ : (s.servers .tcp .ipv4).contains port = false :=
      Bool.eq_false_iff.2 fun hport => h ⟨hserver, .inl hport⟩
    obtain rfl := h₁.eq_of_absent hport₄
    rcases h₂ with ⟨hserver6, h₂⟩ | ⟨-, h₂⟩
    · exact h₂.eq_of_absent (Bool.eq_false_iff.2 fun hport => h ⟨hserver, .inr ⟨hserver6, hport⟩⟩)
    · exact h₂

theorem cbDelServer_consistent_iff (hinv : Inv s) (hs : Consistent next s) :
    Consistent next (after (cbDelServer config port) s) ↔ next = true ∨ ¬Stops config s port := by
  cases next with
  | true => exact iff_of_true (cbDelServer_consistent hinv hs config port) (.inl rfl)
  | false =>
    rw [or_iff_right Bool.false_ne_true]
    constructor
    · intro h hstops
      obtain ⟨i, hhas, hnot⟩ := cbDelServer_stray hinv hstops
      exact (h.pooled i hhas).elim hnot fun h => Bool.false_ne_true h.1
    · intro h
      rwa [cbDelServer_of_not_stops h]

/-! ## Runs -/

section

variable {l : Loop}

theorem Serves.keeps {p : Port} (h : s.loop.Keeps l) (hp : Serves s.loop t i p) :
    ∃ p', Serves l t i p' := by
  obtain ⟨p', hp', hkept⟩ := h.port i p hp.port
  obtain ⟨hopened, hpolled⟩ := hkept.listens hp.closed
  refine ⟨p', hp', hkept.transport.trans hp.transport, hkept.closed.trans hp.closed,
    hopened.trans hp.opened, hpolled.trans hp.polled, h.registered i hp.registered fun q hq => ?_⟩
  cases hp.port.symm.trans hq
  exact hp.closed

theorem Inv.keeps (hinv : Inv s) (h : s.loop.Keeps l) : Inv { s with loop := l } := by
  refine ⟨fun t f port i hi => ?_, hinv.once, fun i hi => ?_⟩
  · obtain ⟨p, hp⟩ := hinv.serves t f port i hi
    exact hp.keeps h
  · exact (hinv.callbacks i (h.callbacks i hi)).trans_eq h.length.symm

theorem Consistent.keeps (hinv : Inv s) (hs : Consistent next s) (h : s.loop.Keeps l) :
    Consistent next { s with loop := l } := by
  -- Whatever the loop has of a relay now, it had before, and nobody is opened again.
  refine ⟨hs.keys, (hinv.keeps h).serves, fun i hi => ?_⟩
  have hget {p' : Port} (hp' : l.ports[i]? = some p') :
      ∃ p, s.loop.ports[i]? = some p ∧ p.Kept p' := by
    have hlt : i < s.loop.ports.length := h.length ▸ (List.getElem?_eq_some_iff.1 hp').1
    obtain ⟨q, hq, hkept⟩ := h.port i _ (List.getElem?_eq_getElem hlt)
    cases hq.symm.trans hp'
    exact ⟨_, List.getElem?_eq_getElem hlt, hkept⟩
  have hhas : Has s.loop i := by
    rcases hi with hi | ⟨p', hp', hi⟩
    · exact .inl (h.callbacks i hi)
    · obtain ⟨p, hp, hkept⟩ := hget hp'
      exact .inr ⟨p, hp, hi.imp hkept.opened hkept.polled⟩
  refine (hs.pooled i hhas).imp id (.imp_right ?_)
  rintro ⟨p, hp, hclosed⟩
  obtain ⟨p', hp', hkept⟩ := h.port i p hp
  exact ⟨p', hp', hkept.closed.trans hclosed⟩

end

theorem inv_new : Inv {} := ⟨fun _ _ _ _ => nofun, fun _ _ _ _ _ _ _ => nofun, fun _ => nofun⟩

theorem consistent_new (next : Bool) : Consistent next {} :=
  ⟨fun _ _ => rfl, fun _ _ _ _ => nofun, fun i hi => by
    rcases hi with hi | ⟨p, hp, -⟩
    · cases hi
    · cases hp⟩

theorem inv_step {e : Event} (h : Inv s ∧ Paired s) (hstep : step config s e = some s') :
    Inv s' ∧ Paired s' := by
  cases e with
  | newServer port calls =>
    cases hstep
    obtain ⟨s₁, h₁, h₂⟩ := newServer_tried config port calls s
    obtain ⟨hinv₁, hpaired₁⟩ := h₁.inv h.1 h.2
    exact h₂.inv hinv₁ hpaired₁
  | cbDelServer port =>
    cases hstep
    exact inv_cbDelServer h.1 h.2 config port
  | work e =>
    simp only [step] at hstep
    split_ifs at hstep with hwork
    obtain ⟨l, hl, rfl⟩ := Option.map_eq_some_iff.1 hstep
    exact ⟨h.1.keeps (keeps_step hwork hl), h.2⟩

/-- A step keeps the pools consistent exactly when it fits. -/
theorem step_consistent_iff {e : Event} (h : Inv s ∧ Paired s) (hs : Consistent next s)
    (hstep : step config s e = some s') : Consistent next s' ↔ Fits config next s e := by
  cases e with
  | newServer port calls =>
    cases hstep
    exact (newServer_consistent_iff h.1 h.2 calls).trans (and_iff_right hs)
  | cbDelServer port =>
    cases hstep
    exact cbDelServer_consistent_iff h.1 hs
  | work e =>
    simp only [step] at hstep
    split_ifs at hstep with hwork
    obtain ⟨l, hl, rfl⟩ := Option.map_eq_some_iff.1 hstep
    exact iff_of_true (hs.keeps h.1 (keeps_step hwork hl)) trivial

/-- The pools are consistent after every step of a run exactly when every step fits: each start that
    is attempted is whole, and, when no relay may be left for the next tick, no port that is running
    is stopped. -/
theorem throughout_consistent_iff (config : Config) (next : Bool) (events : List Event) :
    Run.Throughout (step config)
        (fun s e => ∀ s', step config s e = some s' → Consistent next s') {} events ↔
      Run.Throughout (step config) (Fits config next) {} events := by
  refine Run.throughout_iff (I := fun s => Inv s ∧ Paired s) inv_step step_consistent_iff
    (fun {s e} hnone => ?_) ⟨inv_new, fun _ _ => id⟩ (consistent_new next) events
  cases e with
  | newServer port calls => cases hnone
  | cbDelServer port => cases hnone
  | work e => trivial

/-- The port is in use for UDP, or the method is unknown. -/
def tcpOnly : Calls where
  udpCache := 64
  construct
    | .tcp => .ok ()
    | .udp => .error .osError
  register _ := .ok ()

/-- The TCP relay of a port stays in its pool when its UDP relay is not started. -/
theorem not_consistent : ¬∀ (config : Config) (events : List Event) (s : Pools),
    Run.exec (step config) {} events = some s → Consistent true s := by
  intro h
  have hkeys := (h ⟨true, false⟩ [.newServer 8388 fun _ => tcpOnly] _ rfl).keys .ipv4 8388
  exact absurd hkeys (by decide)

end Starting
end ShadowsocksR

import ShadowsocksR.ServerPool.Relays

/-!
# Starting the relays of a port

A start ends after one of its calls. A UDP relay that cannot be started leaves a TCP relay that is
in its pool alone; a relay that cannot be registered stays in the loop, and is in no pool.

* `Started`: how a start can end;
* `Inv`, `Paired`: what holds after every run, whatever the calls raise;
* `Started.consistent_iff`: a start keeps the pools consistent when it is whole;
* `newServer_consistent_iff`: so does a call, when the starts that it attempts are whole.
-/

namespace ShadowsocksR

namespace Starting

open Closing

variable {config : Config} {calls : Calls} {s s' : Pools} {t t' : Transport} {f f' : Family}
  {port port' i j : ℕ} {next : Bool} {e : PyExc}

/-! ## What a start comes to -/

/-- A relay that is in the loop, and in no pool. -/
def Pools.listen (s : Pools) (calls : Calls) (t : Transport) : Pools :=
  { s with loop := { s.loop with ports := s.loop.ports ++ [calls.port true t] } }

/-- A relay that is in the loop, and in its pool. -/
def Pools.add (s : Pools) (calls : Calls) (f : Family) (port : ℕ) (t : Transport) : Pools :=
  Pools.setServers { s with loop := s.loop.addToLoop (calls.port true t) } t f
    ((s.servers t f).set port s.loop.ports.length)

theorem poll_constructed (ports : List Port) (calls : Calls) (t : Transport) :
    (ports ++ [calls.port false t]).modify ports.length poll = ports ++ [calls.port true t] := by
  have hpoll : poll (calls.port false t) = calls.port true t := by cases t <;> rfl
  refine (List.modifyTailIdx_add (List.modifyHead poll) 0 ports [calls.port false t]).trans ?_
  rw [← hpoll]
  rfl

theorem startRelay_refused (f : Family) (port : ℕ) (s : Pools)
    (h : calls.construct t = .error e) : startRelay f port calls t s = .error e s := by
  refine bind_of_error (bind_of_error ?_)
  rw [h]
  rfl

theorem construct_ok (s : Pools) (h : calls.construct t = .ok ()) :
    construct calls t s = .ok s.loop.ports.length
      { s with loop := { s.loop with ports := s.loop.ports ++ [calls.port false t] } } := by
  have hraises : raises (calls.construct t) s = .ok () s := by
    rw [h]
    rfl
  exact (bind_of_ok hraises).trans rfl

/-- The socket is in `_fdmap` when `register` is called. -/
theorem addToLoop_constructed (s : Pools) (calls : Calls) (t : Transport) :
    addToLoop calls t s.loop.ports.length
      { s with loop := { s.loop with ports := s.loop.ports ++ [calls.port false t] } } =
    (do
      raises (calls.register t)
      modify fun s' : Pools => { s' with loop := { s'.loop with
        periodicCallbacks := s'.loop.periodicCallbacks ++ [s.loop.ports.length] } })
      (s.listen calls t) := by
  rw [Pools.listen, ← poll_constructed]
  rfl

theorem startRelay_unregistered (f : Family) (port : ℕ) (s : Pools)
    (h : calls.construct t = .ok ()) (h' : calls.register t = .error e) :
    startRelay f port calls t s = .error e (s.listen calls t) := by
  refine (bind_of_ok (construct_ok s h)).trans (bind_of_error ?_)
  rw [addToLoop_constructed, h']
  rfl

theorem startRelay_started (f : Family) (port : ℕ) (s : Pools)
    (h : calls.construct t = .ok ()) (h' : calls.register t = .ok ()) :
    startRelay f port calls t s = .ok () (s.add calls f port t) := by
  have hadd : addToLoop calls t s.loop.ports.length
      { s with loop := { s.loop with ports := s.loop.ports ++ [calls.port false t] } } =
      .ok () { s with loop := s.loop.addToLoop (calls.port true t) } := by
    rw [addToLoop_constructed, h']
    rfl
  exact (bind_of_ok (construct_ok s h)).trans ((bind_of_ok hadd).trans rfl)

/-- A start comes to an end after one of its calls. -/
inductive Started (s : Pools) (calls : Calls) (f : Family) (port : ℕ) : Pools → Prop
  | refused (h : calls.Whole) : Started s calls f port s
  | started (h : calls.Whole) :
      Started s calls f port ((s.add calls f port .tcp).add calls f port .udp)
  | unregistered (h : ¬calls.Whole) : Started s calls f port (s.listen calls .tcp)
  | tcpOnly (h : ¬calls.Whole) : Started s calls f port (s.add calls f port .tcp)
  | udpUnregistered (h : ¬calls.Whole) :
      Started s calls f port ((s.add calls f port .tcp).listen calls .udp)

theorem Calls.not_whole (h : calls.construct .tcp = .ok ())
    (h' : calls.construct t = .error e ∨ calls.register t = .error e) : ¬calls.Whole := by
  rintro (⟨e', he'⟩ | hall)
  · rw [h] at he'
    cases he'
  · obtain ⟨hconstruct, hregister⟩ := hall t
    rw [hconstruct, hregister] at h'
    rcases h' with h' | h' <;> cases h'

theorem started (s : Pools) (calls : Calls) (f : Family) (port : ℕ) :
    Started s calls f port (after (start f port calls) s) := by
  have hafter {s' : Pools} {r : EStateM.Result PyExc Pools Unit} (hr : start f port calls s = r)
      (hs' : Started s calls f port s') (h : r = .ok () s' ∨ ∃ e, r = .error e s') :
      Started s calls f port (after (start f port calls) s) := by
    rw [after, hr]
    rcases h with rfl | ⟨e, rfl⟩ <;> exact hs'
  -- One case for each of the four calls that may raise, and one for the start that gets through.
  cases hc : calls.construct .tcp with
  | error e =>
    exact hafter (bind_of_error (startRelay_refused f port s hc)) (.refused (.inl ⟨e, hc⟩))
      (.inr ⟨e, rfl⟩)
  | ok _ =>
    cases hr : calls.register .tcp with
    | error e =>
      exact hafter (bind_of_error (startRelay_unregistered f port s hc hr))
        (.unregistered (calls.not_whole hc (.inr hr)))
        (.inr ⟨e, rfl⟩)
    | ok _ =>
      have htcp := bind_of_ok (f := fun _ => startRelay f port calls .udp)
        (startRelay_started f port s hc hr)
      cases hc' : calls.construct .udp with
      | error e =>
        exact hafter (htcp.trans (startRelay_refused f port _ hc'))
          (.tcpOnly (calls.not_whole hc (.inl hc')))
          (.inr ⟨e, rfl⟩)
      | ok _ =>
        cases hr' : calls.register .udp with
        | error e =>
          exact hafter (htcp.trans (startRelay_unregistered f port _ hc' hr'))
            (.udpUnregistered (calls.not_whole hc (.inr hr')))
            (.inr ⟨e, rfl⟩)
        | ok _ =>
          refine hafter (htcp.trans (startRelay_started f port _ hc' hr'))
            (.started (.inr fun t => ?_)) (.inl rfl)
          cases t
          · exact ⟨hc, hr⟩
          · exact ⟨hc', hr'⟩

/-! ## What holds after every run -/

/-- The relays in the pools listen, and have one place there. -/
structure Inv (s : Pools) : Prop where
  serves : ∀ t f port i, s.At t f port i → ∃ p, Serves s.loop t i p
  once : ∀ t f port t' f' port' i, s.At t f port i → s.At t' f' port' i →
    t = t' ∧ f = f' ∧ port = port'
  callbacks : ∀ i ∈ s.loop.periodicCallbacks, i < s.loop.ports.length

/-- A port with a UDP relay has a TCP relay. -/
def Paired (s : Pools) : Prop :=
  ∀ f port, (s.servers .udp f).contains port = true → (s.servers .tcp f).contains port = true

theorem contains_iff : (s.servers t f).contains port = true ↔ ∃ i, s.At t f port i :=
  Dict.contains_eq_true

theorem not_at (h : (s.servers t f).contains port = false) : ¬s.At t f port i := by
  intro hi
  rw [contains_iff.2 ⟨i, hi⟩] at h
  cases h

theorem Serves.lt {l : Loop} {p : Port} (h : Serves l t i p) : i < l.ports.length :=
  (List.getElem?_eq_some_iff.1 h.port).1

theorem Inv.lt (h : Inv s) (hi : s.At t f port i) : i < s.loop.ports.length :=
  have ⟨_, hp⟩ := h.serves t f port i hi
  hp.lt

theorem Inv.lt_of_has (h : Inv s) (hi : Has s.loop i) : i < s.loop.ports.length := by
  rcases hi with hi | ⟨p, hp, -⟩
  · exact h.callbacks i hi
  · exact (List.getElem?_eq_some_iff.1 hp).1

theorem at_add : (s.add calls f port t).At t' f' port' j ↔
    if t' = t ∧ f' = f ∧ port' = port then j = s.loop.ports.length else s.At t' f' port' j := by
  unfold Pools.At Pools.add Pools.setServers
  dsimp only
  by_cases hpool : t' = t ∧ f' = f
  · obtain ⟨rfl, rfl⟩ := hpool
    simp only [true_and, and_self, if_true]
    rw [Dict.get?_set]
    split_ifs <;> simp [eq_comm]
  · rw [if_neg hpool, if_neg fun h => hpool ⟨h.1, h.2.1⟩]

theorem contains_add : ((s.add calls f port t).servers t' f').contains port' =
    (decide (t' = t ∧ f' = f ∧ port' = port) || (s.servers t' f').contains port') := by
  rw [Bool.eq_iff_iff, Bool.or_eq_true, decide_eq_true_iff, contains_iff, contains_iff]
  simp only [at_add]
  split_ifs with h
  · simp [h]
  · simp [h]

section

variable {l l' : Loop}

/-- More relays have come into the loop. -/
structure Extends (l l' : Loop) (port : Port) : Prop where
  ports : l'.ports = l.ports ++ [port]
  callbacks : ∃ is, l'.periodicCallbacks = l.periodicCallbacks ++ is ∧ ∀ i ∈ is, i = l.ports.length

variable {p q : Port}

theorem Extends.get (h : Extends l l' q) (hi : i < l.ports.length) :
    l'.ports[i]? = l.ports[i]? := by
  rw [h.ports, List.getElem?_append_left hi]

theorem Extends.get_new (h : Extends l l' q) : l'.ports[l.ports.length]? = some q := by
  rw [h.ports, List.getElem?_concat_length]

theorem Extends.serves (h : Extends l l' q) (hp : Serves l t i p) : Serves l' t i p := by
  obtain ⟨is, his, -⟩ := h.callbacks
  exact ⟨(h.get hp.lt).trans hp.port, hp.transport, hp.closed, hp.opened, hp.polled,
    his ▸ List.mem_append_left _ hp.registered⟩

theorem Extends.has (h : Extends l l' q) (hi : i < l.ports.length) : Has l' i ↔ Has l i := by
  obtain ⟨is, his, hnew⟩ := h.callbacks
  unfold Has
  rw [h.get hi, his, List.mem_append]
  exact or_congr (or_iff_left fun hmem => hi.ne (hnew i hmem)) Iff.rfl

theorem Extends.closed (h : Extends l l' q) (hi : i < l.ports.length) :
    Closed l' i ↔ Closed l i := by
  unfold Closed
  rw [h.get hi]

theorem Extends.lt_or_eq (h : Extends l l' q)
    (hcallbacks : ∀ i ∈ l.periodicCallbacks, i < l.ports.length) (hi : Has l' i) :
    i < l.ports.length ∨ i = l.ports.length := by
  obtain ⟨is, his, hnew⟩ := h.callbacks
  rcases hi with hi | ⟨p, hp, -⟩
  · rw [his] at hi
    exact (List.mem_append.1 hi).imp (hcallbacks i) (hnew i)
  · have hlt := (List.getElem?_eq_some_iff.1 hp).1
    rw [h.ports, List.length_append, List.length_singleton] at hlt
    omega

end

theorem extends_listen (s : Pools) (calls : Calls) (t : Transport) :
    Extends s.loop (s.listen calls t).loop (calls.port true t) :=
  ⟨rfl, [], (List.append_nil _).symm, fun _ => nofun⟩

theorem extends_add (s : Pools) (calls : Calls) (f : Family) (port : ℕ) (t : Transport) :
    Extends s.loop (s.add calls f port t).loop (calls.port true t) :=
  ⟨rfl, [s.loop.ports.length], rfl, fun _ => List.mem_singleton.1⟩

/-- A relay that has been constructed and registered serves. -/
theorem serves_add (s : Pools) (calls : Calls) (f : Family) (port : ℕ) (t : Transport) :
    Serves (s.add calls f port t).loop t s.loop.ports.length (calls.port true t) := by
  refine ⟨(extends_add s calls f port t).get_new, ?_, ?_, ?_, ?_,
    List.mem_append_right _ (List.mem_singleton.2 rfl)⟩
  all_goals cases t <;> rfl

theorem Inv.listen (h : Inv s) (calls : Calls) (t : Transport) : Inv (s.listen calls t) := by
  have hext := extends_listen s calls t
  refine ⟨fun t' f port i hi => ?_, h.once, fun i hi => ?_⟩
  · obtain ⟨p, hp⟩ := h.serves t' f port i hi
    exact ⟨p, hext.serves hp⟩
  · have hlt := h.callbacks i hi
    rw [hext.ports, List.length_append]
    omega

theorem Inv.add (h : Inv s) (calls : Calls) (f : Family) (port : ℕ) (t : Transport) :
    Inv (s.add calls f port t) := by
  -- The new relay has a number that none had before, so it is not in another pool.
  have hext := extends_add s calls f port t
  refine ⟨fun t' f' port' i hi => ?_, fun t₁ f₁ port₁ t₂ f₂ port₂ i h₁ h₂ => ?_, fun i hi => ?_⟩
  · rw [at_add] at hi
    split_ifs at hi with hnew
    · obtain ⟨rfl, rfl, rfl⟩ := hnew
      exact hi ▸ ⟨_, serves_add s calls f' port' t'⟩
    · obtain ⟨p, hp⟩ := h.serves t' f' port' i hi
      exact ⟨p, hext.serves hp⟩
  · rw [at_add] at h₁ h₂
    split_ifs at h₁ h₂ with hnew₁ hnew₂ hnew₂
    · exact ⟨hnew₁.1.trans hnew₂.1.symm, hnew₁.2.1.trans hnew₂.2.1.symm,
        hnew₁.2.2.trans hnew₂.2.2.symm⟩
    · exact absurd (h.lt h₂) h₁.not_lt
    · exact absurd (h.lt h₁) h₂.not_lt
    · exact h.once _ _ _ _ _ _ i h₁ h₂
  · rw [hext.ports, List.length_append, List.length_singleton]
    rcases List.mem_append.1 hi with hi | hi
    · have hlt := h.callbacks i hi
      omega
    · rw [List.mem_singleton.1 hi]
      omega

/-! ## Starts -/

/-- A start of relays of other ports leaves a port in its pools. -/
theorem pooled_add (hport : (s.servers t f).contains port = false) (hi : s.Pooled i) :
    (s.add calls f port t).Pooled i := by
  obtain ⟨t', f', port', hi⟩ := hi
  refine ⟨t', f', port', ?_⟩
  rw [at_add, if_neg]
  · exact hi
  · rintro ⟨rfl, rfl, rfl⟩
    exact not_at hport hi

theorem pooled_add_new (s : Pools) (calls : Calls) (f : Family) (port : ℕ) (t : Transport) :
    (s.add calls f port t).Pooled s.loop.ports.length :=
  ⟨t, f, port, by rw [at_add, if_pos ⟨rfl, rfl, rfl⟩]⟩

theorem pooled_of_add (hi : i < s.loop.ports.length) (h : (s.add calls f port t).Pooled i) :
    s.Pooled i := by
  obtain ⟨t', f', port', h⟩ := h
  rw [at_add] at h
  split_ifs at h
  · exact absurd h hi.ne
  · exact ⟨t', f', port', h⟩

/-- Every relay of the loop is in a pool, or has been closed. -/
def Claimed (next : Bool) (s : Pools) : Prop :=
  ∀ i, Has s.loop i → s.Pooled i ∨ next = true ∧ Closed s.loop i

theorem Claimed.add (h : Claimed next s) (hinv : Inv s)
    (hport : (s.servers t f).contains port = false) : Claimed next (s.add calls f port t) := by
  have hext := extends_add s calls f port t
  intro i hi
  rcases hext.lt_or_eq hinv.callbacks hi with hlt | rfl
  · exact (h i ((hext.has hlt).1 hi)).imp (pooled_add hport) (.imp_right (hext.closed hlt).2)
  · exact .inl (pooled_add_new s calls f port t)

theorem Claimed.of_add (hinv : Inv s) (h : Claimed next (s.add calls f port t)) :
    Claimed next s := by
  have hext := extends_add s calls f port t
  intro i hi
  have hlt := hinv.lt_of_has hi
  exact (h i ((hext.has hlt).2 hi)).imp (pooled_of_add hlt) (.imp_right (hext.closed hlt).1)

/-- A relay that could not be registered is in no pool. -/
theorem not_claimed_listen (hinv : Inv s) : ¬Claimed next (s.listen calls t) := by
  have hext := extends_listen s calls t
  intro h
  have hhas : Has (s.listen calls t).loop s.loop.ports.length :=
    .inr ⟨_, hext.get_new, .inl (by cases t <;> rfl)⟩
  rcases h _ hhas with ⟨t', f', port', hi⟩ | ⟨-, p, hp, hclosed⟩
  · exact lt_irrefl _ (hinv.lt hi)
  · cases hext.get_new.symm.trans hp
    cases t <;> cases hclosed

theorem Paired.add_tcp (h : Paired s) : Paired (s.add calls f port .tcp) := by
  intro f' port' hudp
  rw [contains_add] at hudp ⊢
  simp only [reduceCtorEq, false_and, decide_false, Bool.false_or] at hudp
  rw [h f' port' hudp, Bool.or_true]

theorem Paired.add_both (h : Paired s) :
    Paired ((s.add calls f port .tcp).add calls f port .udp) := by
  intro f' port' hudp
  simp only [contains_add, reduceCtorEq, false_and, true_and, decide_false, Bool.false_or,
    Bool.or_eq_true, decide_eq_true_iff] at hudp ⊢
  exact hudp.imp_right (h f' port')

theorem Started.inv (h : Started s calls f port s') (hinv : Inv s) : Inv s' := by
  cases h with
  | refused => exact hinv
  | started => exact (hinv.add calls f port .tcp).add calls f port .udp
  | unregistered => exact hinv.listen calls .tcp
  | tcpOnly => exact hinv.add calls f port .tcp
  | udpUnregistered => exact (hinv.add calls f port .tcp).listen calls .udp

theorem Started.paired (h : Started s calls f port s') (hpaired : Paired s) : Paired s' := by
  cases h with
  | refused => exact hpaired
  | started => exact hpaired.add_both
  | unregistered => exact hpaired
  | tcpOnly => exact hpaired.add_tcp
  | udpUnregistered => exact hpaired.add_tcp

/-- The pools of the other family stay as they are. -/
theorem Started.contains (h : Started s calls f port s') (hf : f' ≠ f) :
    (s'.servers t f').contains port' = (s.servers t f').contains port' := by
  have hadd (s : Pools) (t' : Transport) :
      ((s.add calls f port t').servers t f').contains port' = (s.servers t f').contains port' := by
    rw [contains_add]
    simp [hf]
  cases h with
  | refused => rfl
  | started => rw [hadd, hadd]
  | unregistered => rfl
  | tcpOnly => exact hadd s .tcp
  | udpUnregistered => exact hadd s .tcp

/-- A start keeps the pools consistent when it is whole, and never makes them so. -/
theorem Started.consistent_iff (h : Started s calls f port s') (hinv : Inv s) (hpaired : Paired s)
    (hport : (s.servers .tcp f).contains port = false) :
    Consistent next s' ↔ Consistent next s ∧ calls.Whole := by
  have hudp : (s.servers .udp f).contains port = false :=
    Bool.eq_false_iff.2 fun h => by rw [hpaired f port h] at hport; cases hport
  have hudp' : ((s.add calls f port .tcp).servers .udp f).contains port = false := by
    rw [contains_add]
    simpa using hudp
  have hinv' : Inv (s.add calls f port .tcp) := hinv.add calls f port .tcp
  -- A port with a TCP relay alone.
  have hkeys (h : Consistent next (s.add calls f port .tcp)) : False := by
    have hkeys := h.keys f port
    rw [hudp', contains_add] at hkeys
    simp at hkeys
  cases h with
  | refused hwhole => exact (and_iff_left hwhole).symm
  | started hwhole =>
    -- The port is new in both pools, and the other ports are where they were.
    refine (Iff.trans ?_ (and_iff_left hwhole).symm)
    constructor
    · intro h
      refine ⟨fun f' port' => ?_, hinv.serves, Claimed.of_add hinv (Claimed.of_add hinv' h.pooled)⟩
      by_cases hnew : f' = f ∧ port' = port
      · rw [hnew.1, hnew.2, hport, hudp]
      · simpa [contains_add, hnew] using h.keys f' port'
    · intro h
      refine ⟨fun f' port' => ?_, (hinv'.add calls f port .udp).serves,
        Claimed.add (Claimed.add h.pooled hinv hport) hinv' hudp'⟩
      simp [contains_add, h.keys f' port']
  | unregistered hwhole =>
    exact iff_of_false (fun h => not_claimed_listen hinv h.pooled) fun h => hwhole h.2
  | tcpOnly hwhole => exact iff_of_false hkeys fun h => hwhole h.2
  | udpUnregistered hwhole =>
    exact iff_of_false (fun h => not_claimed_listen hinv' h.pooled) fun h => hwhole h.2

/-- A start that is attempted, or not. -/
def Tried (attempts : Prop) (s : Pools) (calls : Calls) (f : Family) (port : ℕ) (s' : Pools) :
    Prop :=
  ¬attempts ∧ s' = s ∨
    attempts ∧ (s.servers .tcp f).contains port = false ∧ Started s calls f port s'

variable {attempts : Prop}

theorem Tried.inv (h : Tried attempts s calls f port s') (hinv : Inv s) (hpaired : Paired s) :
    Inv s' ∧ Paired s' := by
  rcases h with ⟨-, rfl⟩ | ⟨-, -, h⟩
  · exact ⟨hinv, hpaired⟩
  · exact ⟨h.inv hinv, h.paired hpaired⟩

theorem Tried.consistent_iff (h : Tried attempts s calls f port s') (hinv : Inv s)
    (hpaired : Paired s) :
    Consistent next s' ↔ Consistent next s ∧ (attempts → calls.Whole) := by
  rcases h with ⟨hnot, rfl⟩ | ⟨hattempts, hport, h⟩
  · exact (and_iff_left fun hattempts => absurd hattempts hnot).symm
  · rw [h.consistent_iff hinv hpaired hport, forall_prop_of_true hattempts]

theorem newFamily_eq (config : Config) (f : Family) (port : ℕ) (calls : Calls) (s : Pools) :
    newFamily config f port calls s =
      if config.listens f then
        if (s.servers .tcp f).contains port then .ok false s
        else .ok true (after (start f port calls) s)
      else .ok true s := by
  have hcatch : tryCatch (start f port calls) (fun _ => pure ()) s =
      .ok () (after (start f port calls) s) := by
    rw [tryCatch_apply, after]
    cases start f port calls s <;> rfl
  unfold newFamily
  split_ifs with hlistens hport
  · refine (bind_of_ok (a := s) (by rfl)).trans ?_
    rw [if_pos hport]
    rfl
  · refine (bind_of_ok (a := s) (by rfl)).trans ?_
    rw [if_neg hport]
    exact (bind_of_ok hcatch).trans rfl
  · rfl

/-- A call tries to start the relays of both families, one after the other. -/
theorem newServer_tried (config : Config) (port : ℕ) (calls : Family → Calls) (s : Pools) :
    ∃ s₁, Tried (Attempts config s port .ipv6) s (calls .ipv6) .ipv6 port s₁ ∧
      Tried (Attempts config s port .ipv4) s₁ (calls .ipv4) .ipv4 port
        (after (newServer config port calls) s) := by
  have h₆ := newFamily_eq config .ipv6 port (calls .ipv6) s
  by_cases hrunning : config.serverIpv6 = true ∧ (s.servers .tcp .ipv6).contains port = true
  · -- The call returns before it comes to IPv4.
    rw [Config.listens, if_pos hrunning.1, if_pos hrunning.2] at h₆
    have hcall : newServer config port calls s = .ok .alreadyRunning s := (bind_of_ok h₆).trans rfl
    refine ⟨s, .inl ⟨fun h => ?_, rfl⟩, .inl ⟨fun h => ?_, by rw [after, hcall]⟩⟩
    · exact absurd (h.2.symm.trans hrunning.2) (by decide)
    · exact absurd ((h.1 hrunning.1).symm.trans hrunning.2) (by decide)
  · -- What is started for IPv6 does not change the pools of IPv4.
    obtain ⟨s₁, hs₁, htried⟩ : ∃ s₁, newFamily config .ipv6 port (calls .ipv6) s = .ok true s₁ ∧
        Tried (Attempts config s port .ipv6) s (calls .ipv6) .ipv6 port s₁ := by
      rw [h₆, Config.listens]
      split_ifs with hserver hport
      · exact absurd ⟨hserver, hport⟩ hrunning
      · have hport' : (s.servers .tcp .ipv6).contains port = false := Bool.eq_false_iff.2 hport
        exact ⟨_, rfl, .inr ⟨⟨hserver, hport'⟩, hport', started _ _ _ _⟩⟩
      · exact ⟨s, rfl, .inl ⟨fun h => hserver h.1, rfl⟩⟩
    have hport₁ : (s₁.servers .tcp .ipv4).contains port = (s.servers .tcp .ipv4).contains port := by
      rcases htried with ⟨-, rfl⟩ | ⟨-, -, h⟩
      · rfl
      · exact h.contains (by decide)
    have h₄ := newFamily_eq config .ipv4 port (calls .ipv4) s₁
    have hpassed : config.serverIpv6 = true → (s.servers .tcp .ipv6).contains port = false :=
      fun hserver => Bool.eq_false_iff.2 fun hport => hrunning ⟨hserver, hport⟩
    refine ⟨s₁, htried, ?_⟩
    rw [hport₁, Config.listens] at h₄
    split_ifs at h₄ with hserver hport
    · have hcall : newServer config port calls s = .ok .alreadyRunning s₁ :=
        (bind_of_ok hs₁).trans ((bind_of_ok h₄).trans rfl)
      rw [after, hcall]
      exact .inl ⟨fun h => absurd (h.2.2.symm.trans hport) (by decide), rfl⟩
    · have hcall : newServer config port calls s =
          .ok .true (after (start .ipv4 port (calls .ipv4)) s₁) :=
        (bind_of_ok hs₁).trans ((bind_of_ok h₄).trans rfl)
      have hport' : (s.servers .tcp .ipv4).contains port = false := Bool.eq_false_iff.2 hport
      rw [after, hcall]
      exact .inr ⟨⟨hpassed, hserver, hport'⟩, hport₁.trans hport', started _ _ _ _⟩
    · have hcall : newServer config port calls s = .ok .true s₁ :=
        (bind_of_ok hs₁).trans ((bind_of_ok h₄).trans rfl)
      rw [after, hcall]
      exact .inl ⟨fun h => hserver h.2.1, rfl⟩

/-- A call keeps the pools consistent when the starts that it attempts are whole. -/
theorem newServer_consistent_iff (hinv : Inv s) (hpaired : Paired s) (calls : Family → Calls) :
    Consistent next (after (newServer config port calls) s) ↔
      Consistent next s ∧ ∀ f, Attempts config s port f → (calls f).Whole := by
  obtain ⟨s₁, h₁, h₂⟩ := newServer_tried config port calls s
  obtain ⟨hinv₁, hpaired₁⟩ := h₁.inv hinv hpaired
  rw [h₂.consistent_iff hinv₁ hpaired₁, h₁.consistent_iff hinv hpaired, and_assoc]
  refine and_congr_right fun _ => ⟨fun h f => ?_, fun h => ⟨h .ipv6, h .ipv4⟩⟩
  cases f with
  | ipv6 => exact h.1
  | ipv4 => exact h.2

end Starting

end ShadowsocksR

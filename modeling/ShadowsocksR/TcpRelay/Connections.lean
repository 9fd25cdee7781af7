import ShadowsocksR.TcpRelay.Events
import ShadowsocksR.TcpRelay.Relay

/-!
# The connections of a relay
-/

namespace ShadowsocksR

namespace TcpRelay

variable {O P E : Type} {c : Setup O P E}

section

/-! ## The constructor -/

/-- A connection whose encryptor could not be made. -/
def Conn.failed (c : Setup O P E) : Conn O P E :=
  ⟨{ stage := .destroyed, localSock := false, log := [.stage .destroyed] }, c.chosenServer⟩

/-- The relay with one more connection, which it counts. -/
def Relay.counted (r : Relay O P E) (conn : Conn O P E) : Relay O P E :=
  { r with
    conns := r.conns ++ [conn]
    server := { r.server with
      timeoutCache := r.server.timeoutCache ++ [r.conns.length]
      serverConnections := r.server.serverConnections + 1 } }

/-- A connection when its constructor is done. -/
def Accept.started (c : Setup O P E) (a : Accept O P E) (e : E) (o : O) (p : P) : Handler O P E :=
  { a.handler c e o p with
    mapped := true
    polled := fun s => s = .localSock || false
    stage := .init
    log := [.add .localSock] ++ [.stage .init] }

/-- The constructor may raise this before it counts the connection. -/
def Accept.MayRaise (c : Setup O P E) (a : Accept O P E) (e : Raised) : Prop :=
  e.isOS = true ∨ a.plugins = .error e ∨ (c.isLocal = true ∧ a.chosenServer = .error e)

/-- How the constructor ends. -/
inductive Constructs (c : Setup O P E) (a : Accept O P E) (r : Relay O P E) :
    EStateM.Result Raised (Relay O P E) Unit → Prop
  | failed : Constructs c a r (.ok () { r with conns := r.conns ++ [.failed c] })
  | raises (e : Raised) : a.MayRaise c e → Constructs c a r (.error e r)
  | options (e : Errno) (h : Handler O P E) (chosen : Dest × ℕ) : a.options = .error e →
      h.stage = .unset → (∀ s, h.polled s = false) → h.dnsPending = false →
      Constructs c a r (.error (.os e) (r.counted ⟨h, chosen⟩))
  | loopAdd (e : Errno) (h : Handler O P E) (chosen : Dest × ℕ) : a.loopAdd = .error e →
      h.stage = .unset → (∀ s, h.polled s = false) → h.dnsPending = false →
      Constructs c a r (.error (.os e) (r.counted ⟨h, chosen⟩))
  | started (e : E) (o : O) (p : P) (chosen : Dest × ℕ) :
      Constructs c a r (.ok () (r.counted ⟨a.started c e o p, chosen⟩))

/-- A method of the newest connection, which does not raise. -/
theorem onConn_counted (r : Relay O P E) (conn : Conn O P E) (f : Handler O P E → Handler O P E)
    {m : Setup O P E → Method O P E Unit} (hm : ∀ c w, m c w = .ok () { w with self := f w.self }) :
    onConn c r.conns.length m (r.counted conn) =
      .ok () (r.counted { conn with handler := f conn.handler }) := by
  have hget : (r.counted conn).conns[r.conns.length]? = some conn := by simp [Relay.counted]
  simp only [onConn, hget, hm]
  simp [Relay.put, Relay.world, Relay.counted]

theorem construct_cases (a : Accept O P E) (r : Relay O P E) :
    Constructs c a r (construct c a r) := by
  have hmap (conn : Conn O P E) := onConn_counted (c := c) r conn (fun h => { h with mapped := true })
    (m := fun _ => modifySelf fun h => { h with mapped := true }) fun _ _ => rfl
  have hstart (conn : Conn O P E) := onConn_counted (c := c) r conn (fun h =>
    { h with
      polled := fun s => s = .localSock || h.polled s
      stage := .init
      log := h.log ++ [.add .localSock] ++ [.stage .init] }) (m := fun _ => start) fun _ _ => rfl
  have h : Triple (· = r) (construct c a) (fun u s => Constructs c a r (.ok u s))
      fun e s => Constructs c a r (.error e s) := by
    refine .get_bind fun s hs => ?_
    rw [hs]
    cases henc : a.encryptor with
    | none =>
      refine .modify fun s hs => ?_
      rw [hs]
      exact .failed
    | some e =>
      have hraises {α : Type} (x : Except Raised α) (hx : ∀ e, x = .error e → a.MayRaise c e) :
          Triple (· = r) (Accept.getRaising x) (fun _ => (· = r))
            fun e s => Constructs c a r (.error e s) := by
        cases x with
        | ok v => exact .pure fun _ => id
        | error e =>
          refine .throw fun s hs => ?_
          rw [hs]
          exact .raises e (hx e rfl)
      refine Triple.bind (R := fun _ => (· = r)) ?_ fun _ => ?_
      · cases a.addresses with
        | ok v => exact .pure fun _ => id
        | error e =>
          refine .throw fun s hs => ?_
          rw [hs]
          exact .raises _ (.inl rfl)
      refine (hraises a.plugins fun e he => .inr (.inl he)).bind fun op => ?_
      obtain ⟨o, p⟩ := op
      dsimp -zeta only
      extract_lets jp
      have hjp (chosen : Dest × ℕ) : Triple (· = r) (jp chosen)
          (fun u s => Constructs c a r (.ok u s)) fun e s => Constructs c a r (.error e s) := by
        have hoption {x : Except Errno Unit} {s₁ : Relay O P E}
            (hx : ∀ e, x = .error e → Constructs c a r (.error (.os e) s₁)) :
            Triple (· = s₁) (Accept.get x) (fun _ => (· = s₁))
              fun e s => Constructs c a r (.error e s) := by
          cases x with
          | ok v => exact .pure fun _ => id
          | error e =>
            refine .throw fun s hs => ?_
            rw [hs]
            exact hx e rfl
        refine Triple.bind (R := fun _ => (· = r.counted ⟨a.handler c e o p, chosen⟩))
          (.modify fun s hs => by rw [hs]; rfl) fun _ => ?_
        refine (hoption fun e he => .options e _ chosen he rfl (fun _ => rfl) rfl).bind fun _ => ?_
        refine Triple.bind (R := fun _ => (· = r.counted
          ⟨{ a.handler c e o p with mapped := true }, chosen⟩)) (fun s hs => ?_) fun _ => ?_
        · rw [hs, hmap]
        refine (hoption fun e he => .loopAdd e _ chosen he rfl (fun _ => rfl) rfl).bind fun _ => ?_
        intro s hs
        rw [hs, hstart]
        exact .started e o p chosen
      refine .ite (fun hlocal => ?_) fun _ => hjp c.chosenServer
      exact (hraises a.chosenServer fun e he => .inr (.inr ⟨hlocal, he⟩)).bind hjp
  have hr := h r rfl
  cases hc : construct c a r with
  | ok u s =>
    rw [hc] at hr
    exact hr
  | error e s =>
    rw [hc] at hr
    exact hr

/-! ## The methods of a connection -/

theorem after_onConn_none {r : Relay O P E} {i : ℕ} {m : Setup O P E → Method O P E Unit}
    (h : r.conns[i]? = none) : after (onConn c i m) r = r := by
  simp only [after, onConn, h]

theorem after_onConn {r : Relay O P E} {i : ℕ} {conn : Conn O P E}
    {m : Setup O P E → Method O P E Unit} (h : r.conns[i]? = some conn) :
    after (onConn c i m) r =
      r.put i conn (after (m { c with chosenServer := conn.chosenServer }) (r.world i conn)) := by
  simp only [after, onConn, h]
  cases m { c with chosenServer := conn.chosenServer } (r.world i conn) <;> rfl

/-- The connection is alive or released, whatever its port counts. -/
def Lives (strict : Prop) (h : Handler O P E) : Prop :=
  ∀ w : World O P E, w.self = h → ∃ k, On (Sane strict k) w

variable {strict : Prop} {k : ℤ}

theorem lives_of_sane {w : World O P E} (hw : On (Sane strict k) w) : Lives strict w.self := by
  rintro w' hself
  have hcore : core w' = { core w with
      connections := w'.server.serverConnections
      fastOpen := w'.server.fastOpen
      sends := w'.sends } := by simp only [core, hself]
  rcases hw with hw | hw
  · refine ⟨w'.server.serverConnections - 1, .inl ?_⟩
    rw [hcore]
    exact { hw with counted := fun _ => (Int.sub_add_cancel _ _).symm }
  · refine ⟨w'.server.serverConnections, .inr ?_⟩
    rw [hcore]
    exact { hw with counted := fun _ => rfl }

/-- A connection that the port counts. -/
def Handler.counts (h : Handler O P E) : Bool := h.addRef && h.stage ≠ .destroyed

theorem connections_of_sane {w : World O P E} (hw : On (Sane True k) w) :
    w.server.serverConnections = k + if w.self.counts then 1 else 0 := by
  rcases hw with hw | hw
  · have hadd : w.self.addRef = true := hw.addRef
    have hstage : w.self.stage ≠ .destroyed := hw.undestroyed
    rw [show w.self.counts = true by simp [Handler.counts, hadd, hstage], if_pos rfl]
    exact hw.counted trivial
  · have hstage : w.self.stage = .destroyed := hw.destroyed trivial
    rw [show w.self.counts = false by simp [Handler.counts, hstage]]
    exact (hw.counted trivial).trans (by simp)

/-- Every connection lives strictly, and the port counts those that are alive. -/
structure Tallied (r : Relay O P E) : Prop where
  lives : ∀ conn ∈ r.conns, Lives True conn.handler
  count : r.server.serverConnections = r.conns.countP fun conn => conn.handler.counts

/-- A connection has been destroyed, and these are its lasting effects. -/
def DestroyedAt (i : ℕ) (es : List Effect) (r : Relay O P E) : Prop :=
  ∃ conn, r.conns[i]? = some conn ∧ conn.handler.stage = .destroyed ∧
    conn.handler.log.filter Effect.lasting = es

/-- What has been destroyed stays so. -/
def Preserves (r r' : Relay O P E) : Prop := ∀ i es, DestroyedAt i es r → DestroyedAt i es r'

theorem Preserves.refl (r : Relay O P E) : Preserves r r := fun _ _ => id

theorem Preserves.trans {r r' r'' : Relay O P E} (h : Preserves r r') (h' : Preserves r' r'') :
    Preserves r r'' := fun i es hi => h' i es (h i es hi)

/-- A destroyed connection is still as it was. -/
def Rests (w w' : World O P E) : Prop :=
  w.self.stage = .destroyed → w'.self.stage = .destroyed ∧
    w'.self.log.filter Effect.lasting = w.self.log.filter Effect.lasting

theorem Tallied.onConn {r : Relay O P E} (h : Tallied r) {i : ℕ}
    {m : Setup O P E → Method O P E Unit}
    (hm : ∀ conn k, r.conns[i]? = some conn → On (Sane True k) (r.world i conn) →
      On (Sane True k) (after (m { c with chosenServer := conn.chosenServer }) (r.world i conn)) ∧
        Rests (r.world i conn)
          (after (m { c with chosenServer := conn.chosenServer }) (r.world i conn))) :
    Tallied (after (onConn c i m) r) ∧ Preserves r (after (onConn c i m) r) := by
  cases hi : r.conns[i]? with
  | none =>
    rw [after_onConn_none hi]
    exact ⟨h, .refl r⟩
  | some conn =>
    rw [after_onConn hi]
    obtain ⟨hlt, hget⟩ := List.getElem?_eq_some_iff.1 hi
    obtain ⟨k, hk⟩ := h.lives conn (List.mem_of_getElem? hi) (r.world i conn) rfl
    obtain ⟨hsane, hrests⟩ := hm conn k hi hk
    generalize after (m { c with chosenServer := conn.chosenServer }) (r.world i conn) = w at *
    refine ⟨⟨fun conn' hconn' => ?_, ?_⟩, fun j es hj => ?_⟩
    · rcases List.mem_or_eq_of_mem_set hconn' with hmem | rfl
      · exact h.lives conn' hmem
      · exact lives_of_sane hsane
    · have hbefore : r.server.serverConnections = k + if conn.handler.counts then 1 else 0 :=
        connections_of_sane hk
      have hafter := connections_of_sane hsane
      have hle : (if conn.handler.counts then 1 else 0) ≤
          r.conns.countP fun conn => conn.handler.counts := by
        split_ifs with hc
        · exact List.countP_pos_iff.2 ⟨conn, List.mem_of_getElem? hi, hc⟩
        · exact Nat.zero_le _
      have hcount := h.count
      change w.server.serverConnections = _
      simp only [Relay.put, List.countP_set hlt, hget]
      split_ifs at hbefore hafter hle ⊢ <;> omega
    · obtain ⟨conn', hconn', hstage, hlog⟩ := hj
      by_cases hij : i = j
      · subst hij
        cases hi.symm.trans hconn'
        obtain ⟨hstage', hlog'⟩ := hrests hstage
        refine ⟨{ conn with handler := w.self }, ?_, hstage', hlog'.trans hlog⟩
        simp [Relay.put, hlt]
      · refine ⟨conn', ?_, hstage, hlog⟩
        simpa [Relay.put, hij] using hconn'

/-! ## Events -/

theorem destroy_destroyed {w : World O P E} (h : w.self.stage = .destroyed) :
    destroy w = .ok () w := by
  obtain ⟨⟨stage, _⟩, _, _, _, _⟩ := w
  cases h
  rfl

/-- Destroying a connection that lives strictly. -/
theorem after_destroy {w : World O P E} (hw : On (Sane True k) w) :
    On (Sane True k) (after destroy w) ∧ Rests w (after destroy w) := by
  refine ⟨(triple_destroy_sane (R := fun _ => On (Sane True k))).after hw, fun h => ?_⟩
  rw [after, destroy_destroyed h]
  exact ⟨h, rfl⟩

/-- What keeps the core keeps a connection as it was. -/
theorem after_keeps {m : Method O P E Unit} {w : World O P E} (hw : On (Sane True k) w)
    (hm : Triple (On (· = core w)) m (fun _ => On (· = core w)) fun _ => On (· = core w)) :
    On (Sane True k) (after m w) ∧ Rests w (after m w) := by
  have h : core (after m w) = core w := hm.after rfl
  refine ⟨by rw [On, h]; exact hw, fun hstage => ⟨?_, congrArg Core.lasting h⟩⟩
  exact (congrArg Core.stage h).trans hstage

/-- What happens to a connection that is alive. -/
theorem after_alive {m : Method O P E Unit} {w : World O P E} (hw : On (Alive True k) w)
    {I : World O P E → Prop} (hI : I w) {R : Raised → World O P E → Prop}
    (hR : ∀ e w, R e w → On (Sane True k) w)
    (hm : Triple (fun w => On (Alive True k) w ∧ I w) m (fun _ => On (Sane True k)) R) :
    On (Sane True k) (after m w) ∧ Rests w (after m w) :=
  ⟨(hm.raises hR).after ⟨hw, hI⟩, fun h => absurd h hw.undestroyed⟩

/-- The condition on an event: the answer to a client is not fatal, and the constructor of a
    connection does not raise when it has counted it. -/
def Event.Settles (c : Setup O P E) (r : Relay O P E) : Event O P E → Prop
  | .ready (.listening err a) => err = false → a.accept = .ok () →
      a.options = .ok () ∧ a.loopAdd = .ok ()
  | .ready (.socket i sock event env) => ∀ conn, r.conns[i]? = some conn →
      SettlesAt { c with chosenServer := conn.chosenServer } env sock event (r.world i conn)
  | _ => True

/-- Nothing else happens to the connections and their count. -/
theorem Tallied.congr {r r' : Relay O P E} (h : Tallied r) (hconns : r'.conns = r.conns)
    (hserver : r'.server.serverConnections = r.server.serverConnections) : Tallied r' :=
  ⟨fun conn hconn => h.lives conn (hconns ▸ hconn), by rw [hserver, hconns]; exact h.count⟩

theorem Preserves.congr {r r' : Relay O P E} (hconns : r'.conns = r.conns) : Preserves r r' :=
  fun i es ⟨conn, hconn, h⟩ => ⟨conn, by rw [hconns, hconn], h⟩

/-- Since a state every connection lives strictly, and what was destroyed rests. -/
def Good (r₀ r : Relay O P E) : Prop := Tallied r ∧ Preserves r₀ r

theorem Good.congr {r₀ r r' : Relay O P E} (h : Good r₀ r) (hconns : r'.conns = r.conns)
    (hserver : r'.server.serverConnections = r.server.serverConnections) : Good r₀ r' :=
  ⟨h.1.congr hconns hserver, h.2.trans (.congr hconns)⟩

theorem good_destroyAll {r₀ : Relay O P E} (is : List ℕ) :
    Triple (Good r₀) (destroyAll c is) (fun _ => Good r₀) fun _ => Good r₀ := by
  induction is with
  | nil => exact .pure fun _ => id
  | cons i is ih =>
    refine Triple.bind (.of_after fun r hr => ?_) fun _ => ih
    have hconn := hr.1.onConn (c := c) (i := i)
      (m := fun _ => do if (← self).mapped then destroy) fun conn k hi hw => by
        have hrun : after (do if (← self).mapped then destroy : Method O P E Unit) (r.world i conn) =
            after (if conn.handler.mapped then destroy else pure ()) (r.world i conn) := rfl
        rw [hrun]
        split_ifs
        · exact after_destroy hw
        · exact ⟨hw, fun h => ⟨h, rfl⟩⟩
    exact ⟨hconn.1, hr.2.trans hconn.2⟩

/-- A new connection, which is counted if it is alive. -/
theorem Tallied.append {r r' : Relay O P E} (h : Tallied r) {conn : Conn O P E}
    (hconns : r'.conns = r.conns ++ [conn]) (hlives : Lives True conn.handler)
    (hserver : r'.server.serverConnections =
      r.server.serverConnections + if conn.handler.counts then 1 else 0) :
    Good r r' := by
  refine ⟨⟨fun conn' hconn' => ?_, ?_⟩, fun i es ⟨conn', hconn', h'⟩ => ⟨conn', ?_, h'⟩⟩
  · rw [hconns, List.mem_append, List.mem_singleton] at hconn'
    rcases hconn' with hmem | rfl
    · exact h.lives conn' hmem
    · exact hlives
  · rw [hserver, h.count, hconns, List.countP_append, List.countP_singleton]
    split_ifs <;> simp
  · rw [hconns]
    rw [List.getElem?_append_left (List.getElem?_eq_some_iff.1 hconn').1]
    exact hconn'

theorem lives_failed : Lives strict (Conn.failed c).handler := by
  rintro ⟨self, server, me, sends, calls⟩ rfl
  exact ⟨server.serverConnections, .inr
    { started := fun h => by cases h
      obfs := rfl
      protocol := rfl
      encryptor := rfl
      closed := fun s => by cases s <;> rfl
      unpolled := fun _ => rfl
      notPending := rfl
      destroyed := fun _ => rfl
      settled := fun _ => ⟨[], fun _ h => absurd h List.not_mem_nil, rfl⟩
      counted := fun _ => rfl }⟩

theorem lives_started (a : Accept O P E) (e : E) (o : O) (p : P) :
    Lives strict (a.started c e o p) := by
  rintro ⟨self, server, me, sends, calls⟩ rfl
  exact ⟨server.serverConnections - 1, .inl
    { started := fun h => by cases h
      undestroyed := fun h => by cases h
      obfs := rfl
      protocol := rfl
      encryptor := rfl
      opened := fun s hs => by
        cases s with
        | localSock => rfl
        | remoteSock => cases hs
        | remoteSockV6 => cases hs
      remote := fun h => by cases h
      addRef := rfl
      fresh := fun _ e he => by
        have hmem : e ∈ [Effect.add .localSock, .stage .init] := he
        simp only [List.mem_cons, List.not_mem_nil, or_false] at hmem
        rcases hmem with rfl | rfl <;> simp
      counted := fun _ => (Int.sub_add_cancel _ _).symm }⟩

/-- Accepting a connection is constructing it, unless there is none. -/
theorem after_listening (a : Accept O P E) (r : Relay O P E) :
    after (handleReady c (.listening false a)) r = r ∨
      (a.accept = .ok () ∧
        after (handleReady c (.listening false a)) r = after (construct c a) r) := by
  have hrun : handleReady c (.listening false a) = tryCatch (do
      Accept.get a.accept
      construct c a) acceptFailed := rfl
  cases ha : a.accept with
  | error e =>
    refine .inl ?_
    rw [hrun, ha]
    rfl
  | ok _ =>
    refine .inr ⟨rfl, ?_⟩
    rw [hrun, ha]
    change after (tryCatch (construct c a) _) r = _
    rw [after, after, tryCatch_apply]
    cases construct c a r with
    | ok u s => rfl
    | error e s => cases e <;> rfl

theorem Tallied.listening {r : Relay O P E} (h : Tallied r) {err : Bool} (a : Accept O P E)
    (ha : err = false → a.accept = .ok () → a.options = .ok () ∧ a.loopAdd = .ok ()) :
    Good r (after (handleReady c (.listening err a)) r) := by
  cases err with
  | true => exact ⟨h, .refl r⟩
  | false =>
    rcases after_listening (c := c) a r with hr | ⟨haccept, hr⟩
    · rw [hr]
      exact ⟨h, .refl r⟩
    · rw [hr]
      obtain ⟨hoptions, hadd⟩ := ha rfl haccept
      have hcases := construct_cases (c := c) a r
      unfold after
      generalize construct c a r = result at hcases
      cases hcases with
      | failed => exact h.append rfl lives_failed (Int.add_zero _).symm
      | raises e _ => exact ⟨h, .refl r⟩
      | options e _ _ he => cases hoptions.symm.trans he
      | loopAdd e _ _ he => cases hadd.symm.trans he
      | started e o p chosen => exact h.append rfl (lives_started a e o p) rfl

theorem keeps_udpDns {A : Core → Prop} (env : Env) (k : ℕ) (answer : DnsAnswer)
    {R : Raised → World O P E → Prop} :
    Triple (On A) (udpAnswered env k answer : Method O P E Unit) (fun _ => On A) R := by
  refine (triple_self.post fun _ _ h => h.1).bind fun h => ?_
  cases h.udpLookups[k]? with
  | none => exact .pure fun _ => id
  | some lookup =>
    exact (keeps_modifySelf fun _ h => h).bind fun _ => keeps_udpDnsResolved env _ _ answer

theorem triple_dns (env : Env) (answer : DnsAnswer) :
    Triple (On (Alive strict k)) (do
      modifySelf fun h => { h with dnsPending := false }
      handleDnsResolved c env answer) (fun _ => On (Sane strict k)) (Raises (Sane strict k) False) :=
  (keeps_modifySelf (B := Alive strict k) fun _ h => { h with }).bind fun _ =>
    triple_handleDnsResolved env answer

/-- What is polled, or waits for the resolver, is alive. -/
theorem alive_of_polled {w : World O P E} (hw : On (Sane strict k) w) {s : Sock}
    (hs : w.self.polled s = true) : On (Alive strict k) w :=
  hw.resolve_right fun h => by
    have hnot : w.self.polled s = false := h.unpolled s
    rw [hs] at hnot
    cases hnot

theorem alive_of_pending {w : World O P E} (hw : On (Sane strict k) w)
    (hs : w.self.dnsPending = true) : On (Alive strict k) w :=
  hw.resolve_right fun h => by
    have hnot : w.self.dnsPending = false := h.notPending
    rw [hs] at hnot
    cases hnot

theorem good_onConn_destroy {r₀ : Relay O P E} (i : ℕ) :
    Triple (Good r₀) (onConn c i fun _ => destroy) (fun _ => Good r₀) fun _ => Good r₀ :=
  .of_after fun r hr => by
    have h := hr.1.onConn (c := c) (i := i) (m := fun _ => destroy) fun _ _ _ hw => after_destroy hw
    exact ⟨h.1, hr.2.trans h.2⟩

/-- What an event that settles does to a relay. -/
theorem Tallied.event {r : Relay O P E} (h : Tallied r) {e : Event O P E} (he : e.Enabled r)
    (hs : e.Settles c r) : Good r (after (e.run c) r) := by
  have hgood : Good r r := ⟨h, .refl r⟩
  have hdestroyAll : Triple (Good r) (do destroyAll c (List.range (← get).conns.length))
      (fun _ => Good r) fun _ => Good r :=
    .get_bind fun s hs => (good_destroyAll _).pre fun s' hs' => by rw [hs']; exact hs
  cases e with
  | ready e =>
    cases e with
    | listening err a => exact h.listening a hs
    | socket i sock event env =>
      obtain ⟨conn, hconn, hpolled⟩ := he
      refine h.onConn (m := fun c => handleEvent c env sock event) fun conn' k hconn' hw => ?_
      cases hconn.symm.trans hconn'
      exact after_alive (alive_of_polled hw hpolled) (R := Raises (Sane True k) False)
        (I := fun w => (True → SettlesAt { c with chosenServer := conn.chosenServer } env sock event w) ∧
          (False → RaisesOsAt { c with chosenServer := conn.chosenServer } env sock event w))
        ⟨fun _ => hs conn hconn, False.elim⟩ (fun _ _ hw => hw.1)
        (triple_handleEvent env sock event (fun _ => trivial) False.elim)
  | dns i answer env =>
    obtain ⟨conn, hconn, hpending⟩ := he
    refine h.onConn (m := fun c => do
      modifySelf fun h => { h with dnsPending := false }
      handleDnsResolved c env answer) fun conn' k hconn' hw => ?_
    cases hconn.symm.trans hconn'
    exact after_alive (alive_of_pending hw hpending) (I := fun _ => True) trivial
      (R := Raises (Sane True k) False) (fun _ _ hw => hw.1)
      ((triple_dns env answer).pre fun w hw => hw.1)
  | udpDns i k answer env =>
    exact h.onConn (c := c) (m := fun _ => udpAnswered env k answer) fun conn k' hconn hw =>
      after_keeps hw (keeps_udpDns env k answer)
  | timeout =>
    refine Triple.after (I := Good r) (P := Good r) (.get_bind fun s hs => ?_) hgood
    split
    · exact .pure fun s' hs' => by rw [hs']; exact hs
    · refine Triple.bind (.modify fun s' hs' => ?_) fun _ => good_onConn_destroy _
      subst hs'
      exact hs.congr rfl rfl
  | periodic =>
    refine Triple.after (I := Good r) (P := Good r) (.get_bind fun s hs => .ite (fun _ => ?_)
      fun _ => .pure fun s' hs' => by rw [hs']; exact hs) hgood
    refine Triple.pre (J := Good r) ?_ fun s' hs' => by rw [hs']; exact hs
    exact .bind (R := fun _ => Good r) (.modify fun s hs => hs.congr rfl rfl) fun _ => hdestroyAll
  | close nextTick =>
    refine Triple.after (I := Good r) (P := Good r) ?_ hgood
    refine Triple.bind (R := fun _ => Good r) (.modify fun s hs => hs.congr rfl rfl) fun _ => .ite (fun _ => ?_)
      fun _ => .pure fun _ => id
    exact .bind (R := fun _ => Good r) (.modify fun s hs => hs.congr rfl rfl) fun _ => hdestroyAll

/-! ## Runs -/

theorem Tallied.step {r r' : Relay O P E} {e : Event O P E} (h : Tallied r) (hs : e.Settles c r)
    (hstep : step c r e = some r') : Good r r' := by
  unfold TcpRelay.step at hstep
  split_ifs at hstep with he
  cases hstep
  exact h.event he hs

/-- A connection that can be accepted. -/
def Accept.plain : Accept Unit Unit Unit where
  accept := .ok ()
  encryptor := some ()
  addresses := .ok ()
  maxSeg := none
  plugins := .ok ((), ())
  chosenServer := .ok (.ip (.v4 0x7F000001), 8388)
  options := .ok ()
  loopAdd := .ok ()

end

end TcpRelay

end ShadowsocksR

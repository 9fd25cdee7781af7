import ShadowsocksR.TcpRelay.Connections

/-!
# What reaches the event loop

`EventLoop.run` goes on after an `OSError` of a handler, and ends with every
other exception. In every state that a relay can reach, `handle_event` raises
errors of the system at most, under conditions on the event.

* `Sound`: what holds of the connections in every state, also of those whose
  constructor has raised;
* `Event.RaisesOs`: the conditions;
* `raisesOs_of_reachable`: what they are sufficient for.
-/

namespace ShadowsocksR

namespace TcpRelay

variable {O P E : Type} {c : Setup O P E}

section

/-- A connection whose constructor has raised. -/
structure Unborn (h : Handler O P E) : Prop where
  stage : h.stage = .unset
  unpolled : ∀ s, h.polled s = false
  notPending : h.dnsPending = false

/-- A connection of a server lives strictly, and one of a client lives, if its constructor has not
    raised. -/
def Sound (c : Setup O P E) (r : Relay O P E) : Prop :=
  ∀ conn ∈ r.conns, Lives (c.isLocal = false) conn.handler ∨ Unborn conn.handler

/-! ## Every event keeps the connections sound -/

/-- A method keeps a connection sound. -/
def KeepsSound (c : Setup O P E) (m : Method O P E Unit) (w : World O P E) : Prop :=
  (∀ k, On (Sane (c.isLocal = false) k) w → On (Sane (c.isLocal = false) k) (after m w)) ∧
    (Unborn w.self → Unborn (after m w).self)

theorem Sound.onConn {r : Relay O P E} (h : Sound c r) {i : ℕ} {m : Setup O P E → Method O P E Unit}
    (hm : ∀ conn, r.conns[i]? = some conn →
      KeepsSound c (m { c with chosenServer := conn.chosenServer }) (r.world i conn)) :
    Sound c (after (onConn c i m) r) := by
  cases hi : r.conns[i]? with
  | none =>
    rw [after_onConn_none hi]
    exact h
  | some conn =>
    rw [after_onConn hi]
    intro conn' hconn'
    rcases List.mem_or_eq_of_mem_set hconn' with hmem | rfl
    · exact h conn' hmem
    · obtain ⟨hsane, hunborn⟩ := hm conn hi
      rcases h conn (List.mem_of_getElem? hi) with hlives | hu
      · obtain ⟨k, hk⟩ := hlives (r.world i conn) rfl
        exact .inl (lives_of_sane (hsane k hk))
      · exact .inr (hunborn hu)

/-- `destroy` raises when there is no stage, and changes nothing. -/
theorem destroy_unset {w : World O P E} (h : w.self.stage = .unset) :
    destroy w = .error (.py .attributeError) w := by
  obtain ⟨⟨stage, _⟩, _, _, _, _⟩ := w
  cases h
  rfl

theorem keepsSound_destroy (w : World O P E) : KeepsSound c destroy w := by
  refine ⟨fun k hw => ?_, fun hu => ?_⟩
  · exact (triple_destroy_sane (R := fun _ => On (Sane (c.isLocal = false) k))).after hw
  · rw [after, destroy_unset hu.stage]
    exact hu

theorem sound_destroyAll (is : List ℕ) :
    Triple (Sound c) (destroyAll c is) (fun _ => Sound c) fun _ => Sound c := by
  induction is with
  | nil => exact .pure fun _ => id
  | cons i is ih =>
    refine Triple.bind (.of_after fun r hr => ?_) fun _ => ih
    refine hr.onConn (m := fun _ => do if (← self).mapped then destroy) fun conn hconn => ?_
    have hrun : after (do if (← self).mapped then destroy : Method O P E Unit) (r.world i conn) =
        after (if conn.handler.mapped then destroy else pure ()) (r.world i conn) := rfl
    unfold KeepsSound
    rw [hrun]
    split_ifs
    · exact keepsSound_destroy _
    · exact ⟨fun _ => id, id⟩

theorem Sound.append {r r' : Relay O P E} (h : Sound c r) {conn : Conn O P E}
    (hconns : r'.conns = r.conns ++ [conn])
    (hconn : Lives (c.isLocal = false) conn.handler ∨ Unborn conn.handler) : Sound c r' := by
  intro conn' hconn'
  rw [hconns, List.mem_append, List.mem_singleton] at hconn'
  rcases hconn' with hmem | rfl
  · exact h conn' hmem
  · exact hconn

theorem Sound.listening {r : Relay O P E} (h : Sound c r) (err : Bool) (a : Accept O P E) :
    Sound c (after (handleReady c (.listening err a)) r) := by
  cases err with
  | true => exact h
  | false =>
    rcases after_listening (c := c) a r with hr | ⟨-, hr⟩
    · rw [hr]
      exact h
    · rw [hr]
      have hcases := construct_cases (c := c) a r
      unfold after
      generalize construct c a r = result at hcases
      cases hcases with
      | failed => exact h.append rfl (.inl lives_failed)
      | raises e _ => exact h
      | options e h' chosen _ hstage hpolled hpending =>
        exact h.append (show _ = r.conns ++ [⟨h', chosen⟩] from rfl) (.inr ⟨hstage, hpolled, hpending⟩)
      | loopAdd e h' chosen _ hstage hpolled hpending =>
        exact h.append (show _ = r.conns ++ [⟨h', chosen⟩] from rfl) (.inr ⟨hstage, hpolled, hpending⟩)
      | started e o p chosen =>
        exact h.append (show _ = r.conns ++ [⟨a.started c e o p, chosen⟩] from rfl) (.inl (lives_started a e o p))

/-- A connection of which a socket is polled is alive. -/
theorem Sound.alive_of_polled {r : Relay O P E} (h : Sound c r) {i : ℕ} {conn : Conn O P E}
    (hconn : r.conns[i]? = some conn) {sock : Sock} (hpolled : conn.handler.polled sock = true) :
    ∃ k, On (Alive (c.isLocal = false) k) (r.world i conn) := by
  rcases h conn (List.mem_of_getElem? hconn) with hlives | hu
  · obtain ⟨k, hk⟩ := hlives (r.world i conn) rfl
    exact ⟨k, TcpRelay.alive_of_polled hk hpolled⟩
  · cases (hu.unpolled sock).symm.trans hpolled

/-- A server asks nothing of its events. -/
theorem settlesAt_of_server (env : Env) (sock : Sock) (event : Ready) (w : World O P E)
    (hlocal : c.isLocal = false) : SettlesAt c env sock event w := by
  intro _ _ data _ h
  cases hlocal.symm.trans h

theorem Sound.event {r : Relay O P E} (h : Sound c r) {e : Event O P E} (he : e.Enabled r) :
    Sound c (after (e.run c) r) := by
  have hdestroyAll : Triple (Sound c) (do destroyAll c (List.range (← get).conns.length))
      (fun _ => Sound c) fun _ => Sound c :=
    .get_bind fun s hs => (sound_destroyAll _).pre fun s' hs' => by rw [hs']; exact hs
  cases e with
  | ready e =>
    cases e with
    | listening err a => exact h.listening err a
    | socket i sock event env =>
      obtain ⟨conn, hconn, hpolled⟩ := he
      refine h.onConn (m := fun c => handleEvent c env sock event) fun conn' hconn' => ?_
      cases hconn.symm.trans hconn'
      refine ⟨fun k hk => ?_, fun hu => ?_⟩
      · have halive := TcpRelay.alive_of_polled hk hpolled
        exact ((triple_handleEvent (c := { c with chosenServer := conn.chosenServer })
          env sock event id False.elim).raises fun _ _ hw => hw.1).after
            ⟨halive, fun hlocal => settlesAt_of_server env sock event _ hlocal, False.elim⟩
      · cases (hu.unpolled sock).symm.trans hpolled
  | dns i answer env =>
    obtain ⟨conn, hconn, hpending⟩ := he
    refine h.onConn (m := fun c => do
      modifySelf fun h => { h with dnsPending := false }
      handleDnsResolved c env answer) fun conn' hconn' => ?_
    cases hconn.symm.trans hconn'
    refine ⟨fun k hk => ?_, fun hu => ?_⟩
    · exact ((triple_dns env answer).raises fun _ _ hw => hw.1).after
        (alive_of_pending hk hpending)
    · cases hu.notPending.symm.trans hpending
  | udpDns i k answer env =>
    refine h.onConn (c := c) (m := fun _ => udpAnswered env k answer) fun conn hconn =>
      ⟨fun k' hk => ?_, fun hu => ?_⟩
    · exact (keeps_udpDns env k answer (R := fun _ => On (Sane (c.isLocal = false) k'))).after hk
    · have hcore := (keeps_udpDns (A := (· = core (r.world i conn))) env k answer
        (R := fun _ => On (· = core (r.world i conn)))).after rfl
      exact ⟨(congrArg Core.stage hcore).trans hu.stage,
        fun s => (congrFun (congrArg Core.polled hcore) s).trans (hu.unpolled s),
        (congrArg Core.dnsPending hcore).trans hu.notPending⟩
  | timeout =>
    refine Triple.after (I := Sound c) (P := Sound c) (.get_bind fun s hs => ?_) h
    split
    · exact .pure fun s' hs' => by rw [hs']; exact hs
    · refine Triple.bind (R := fun _ => Sound c) (.modify fun s' hs' => ?_) fun _ =>
        .of_after fun s' hs' => hs'.onConn fun conn _ => keepsSound_destroy _
      subst hs'
      exact hs
  | periodic =>
    refine Triple.after (I := Sound c) (P := Sound c) (.get_bind fun s hs => .ite (fun _ => ?_)
      fun _ => .pure fun s' hs' => by rw [hs']; exact hs) h
    refine Triple.pre (J := Sound c) ?_ fun s' hs' => by rw [hs']; exact hs
    exact .bind (R := fun _ => Sound c) (.modify fun s hs => hs) fun _ => hdestroyAll
  | close nextTick =>
    refine Triple.after (I := Sound c) (P := Sound c) ?_ h
    refine Triple.bind (R := fun _ => Sound c) (.modify fun s hs => hs) fun _ =>
      .ite (fun _ => ?_) fun _ => .pure fun _ => id
    exact .bind (R := fun _ => Sound c) (.modify fun s hs => hs) fun _ => hdestroyAll

theorem Sound.step {r r' : Relay O P E} {e : Event O P E} (h : Sound c r)
    (hstep : step c r e = some r') : Sound c r' := by
  unfold TcpRelay.step at hstep
  split_ifs at hstep with he
  cases hstep
  exact h.event he

/-! ## Exceptions -/

/-- A server that answers for its obfuscation, and then decrypts. -/
def answering : Setup Unit Unit Unit :=
  { Setup.plain false with
    plugins := { Plugins.plain with
      serverDecode := fun _ _ buf => (.ok (buf, true, true), ())
      serverEncode := fun _ _ _ => (.ok [22, 3, 3], ()) } }

/-- A client sends a byte, and can be answered. -/
def answered : Env := { Env.idle with recv := .ok [1] }

end

end TcpRelay

end ShadowsocksR

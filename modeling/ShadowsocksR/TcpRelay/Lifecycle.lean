import ShadowsocksR.TcpRelay.Rules

/-!
# The life of a connection

A connection is alive until it is destroyed. What the methods do to it is a
matter of a few of its fields, its `Core`, and the rules for the methods are
about conditions on these.

* `Alive`: the plugins are there, and what is polled is open;
* `Dead`: everything is released. In a `strict` life the stage stays
  `destroyed`, and the connection is counted once;
* `Raises`: a condition on the core when an exception is raised, and whether it
  can be other than an `OSError`;
* `Triple.destroy`, `Triple.writeToSock` and so on: one rule for each method.
-/

namespace ShadowsocksR

namespace TcpRelay

variable {O P E α : Type}

/-- An effect that a destroyed connection must not have. -/
def Effect.lasting : Effect → Bool
  | .stage _ => true
  | .socket _ => true
  | .add _ => true
  | .destroy => true
  | _ => false

/-- What of a connection and its port matters for its life. -/
structure Core where
  stage : Stage
  opened : Sock → Bool
  polled : Sock → Bool
  obfs : Bool
  protocol : Bool
  encryptor : Bool
  addRef : Bool
  dnsPending : Bool
  remoteUdp : Bool
  isRedirect : Bool
  fastopenConnected : Bool
  fastOpen : Bool
  lasting : List Effect
  connections : ℤ
  sends : ℕ

/-- Whether a connection has a socket. -/
def Handler.opened (h : Handler O P E) : Sock → Bool
  | .localSock => h.localSock
  | .remoteSock => h.remoteSock
  | .remoteSockV6 => h.remoteSockV6

/-- The core of a connection in its world. -/
def core (w : World O P E) : Core where
  stage := w.self.stage
  opened := w.self.opened
  polled := w.self.polled
  obfs := w.self.obfs.isSome
  protocol := w.self.protocol.isSome
  encryptor := w.self.encryptor.isSome
  addRef := w.self.addRef
  dnsPending := w.self.dnsPending
  remoteUdp := w.self.remoteUdp
  isRedirect := w.self.isRedirect
  fastopenConnected := w.self.fastopenConnected
  fastOpen := w.server.fastOpen
  lasting := w.self.log.filter Effect.lasting
  connections := w.server.serverConnections
  sends := w.sends

/-- A condition on the core. -/
def On (A : Core → Prop) (w : World O P E) : Prop := A (core w)

/-- Nothing has been destroyed. -/
def Fresh (es : List Effect) : Prop := ∀ e ∈ es, e ≠ .stage .destroyed ∧ e ≠ .destroy

/-- The connection is alive, and the port counts `k` others. -/
structure Alive (strict : Prop) (k : ℤ) (x : Core) : Prop where
  started : x.stage ≠ .unset
  undestroyed : x.stage ≠ .destroyed
  obfs : x.obfs = true
  protocol : x.protocol = true
  encryptor : x.encryptor = true
  opened : ∀ s, x.polled s = true → x.opened s = true
  /-- The socket for IPv6 comes with the other one. -/
  remote : x.polled .remoteSockV6 = true → x.opened .remoteSock = true
  addRef : x.addRef = true
  fresh : strict → Fresh x.lasting
  counted : strict → x.connections = k + 1

/-- The effects of a connection that has been destroyed, once if it had been counted. -/
def Settled (x : Core) : Prop :=
  ∃ before, Fresh before ∧
    x.lasting = before ++ .stage .destroyed :: if x.addRef then [.destroy] else []

/-- The connection is released, and the port counts `k` others. -/
structure Dead (strict : Prop) (k : ℤ) (x : Core) : Prop where
  started : x.stage ≠ .unset
  obfs : x.obfs = false
  protocol : x.protocol = false
  encryptor : x.encryptor = false
  closed : ∀ s, x.opened s = false
  unpolled : ∀ s, x.polled s = false
  notPending : x.dnsPending = false
  destroyed : strict → x.stage = .destroyed
  settled : strict → Settled x
  counted : strict → x.connections = k

/-- Alive or released. -/
def Sane (strict : Prop) (k : ℤ) (x : Core) : Prop := Alive strict k x ∨ Dead strict k x

/-- The condition holds when an exception is raised, which is an `OSError` if `os` holds. -/
def Raises (A : Core → Prop) (os : Prop) (e : Raised) (w : World O P E) : Prop :=
  On A w ∧ (os → e.isOS = true)

/-- The outcome of `send` destroys the connection. -/
def Fatal : Except Errno ℕ → Prop
  | .ok _ => False
  | .error .again => False
  | .error .inProgress => False
  | .error _ => True

section

variable {strict os : Prop} {k : ℤ} {A B : Core → Prop} {Q : α → World O P E → Prop}
  {R : Raised → World O P E → Prop}

/-! ## Methods that leave the core as it is -/

theorem uncounted_on : Uncounted (On (O := O) (P := P) (E := E) A) := fun _ _ h => h

theorem keeps_modifySelf {f : Handler O P E → Handler O P E}
    (hf : ∀ w : World O P E, On A w → On B { w with self := f w.self }) :
    Triple (On A) (modifySelf f) (fun _ => On B) R := hf

theorem keeps_emit {e : Effect} (he : e.lasting = false) :
    Triple (On A) (emit e : Method O P E Unit) (fun _ => On A) R :=
  keeps_modifySelf fun w hw => by
    have hlog : (w.self.log ++ [e]).filter Effect.lasting = w.self.log.filter Effect.lasting := by
      simp [he]
    unfold On core at hw ⊢
    rwa [hlog]

theorem keeps_ask (f : ℕ → α) : Triple (On A) (ask f : Method O P E α) (fun _ => On A) R :=
  triple_ask uncounted_on f

/-- What a call returns is one of its outcomes. -/
theorem keeps_call_ok (f : ℕ → Except Errno α) :
    Triple (On A) (call f : Method O P E α) (fun a w => On A w ∧ ∃ n, f n = .ok a)
      (Raises A os) := by
  refine Triple.bind (R := fun r w => On A w ∧ ∃ n, f n = r) (fun w hw => ⟨hw, w.calls, rfl⟩)
    fun r => ?_
  cases r with
  | ok a => exact .pure fun _ => id
  | error e => exact .throw fun _ hw => ⟨hw.1, fun _ => rfl⟩

theorem keeps_call (f : ℕ → Except Errno α) :
    Triple (On A) (call f : Method O P E α) (fun _ => On A) (Raises A os) :=
  (keeps_call_ok f).post fun _ _ h => h.1

/-- A call that can raise anything. -/
theorem keeps_callRaising (f : ℕ → Except Raised α) :
    Triple (On A) (callRaising f : Method O P E α) (fun _ => On A) (Raises A False) :=
  (triple_callRaising uncounted_on f).raises fun _ _ h => ⟨h, False.elim⟩

theorem keeps_updateStream (env : Env) (stream : Stream) (status : WaitStatus) :
    Triple (On A) (updateStream env stream status : Method O P E Unit) (fun _ => On A)
      (Raises A os) :=
  (updateStream_spec uncounted_on env stream status).conseq
    (fun w hw => by cases stream <;> exact hw) (fun _ _ => id) fun _ _ h => ⟨h.1, fun _ => h.2⟩

theorem keeps_updateActivity :
    Triple (On A) (updateActivity : Method O P E Unit) (fun _ => On A) R :=
  .get_bind fun w hw => .modify fun w' hw' => by subst hw'; exact hw

/-! ## Calls of the plugins -/

/-- A method of a plugin that never raises. -/
def NeverRaises {S : Type} (f : ℕ → S → Bytes → Except PyExc α × S) : Prop :=
  ∀ n s data, ∃ a, (f n s data).1 = .ok a

/-- A plugin that is there returns what its method returns, in its state. -/
theorem keeps_onPlugin_ok {S : Type} {get : Handler O P E → Option S}
    {put : S → Handler O P E → Handler O P E} {f : ℕ → S → Bytes → Except PyExc α × S}
    (hput : ∀ (w : World O P E) s s', get w.self = some s → On A w →
      On A { w with self := put s' w.self })
    (hos : os → (∀ w : World O P E, On A w → (get w.self).isSome = true) ∧ NeverRaises f)
    (data : Bytes) {p : α → Prop} :
    Triple (fun w => On A w ∧ ∀ s a, get w.self = some s → (f w.calls s data).1 = .ok a → p a)
      (onPlugin get put f data) (fun a w => On A w ∧ p a) (Raises A os) := by
  refine triple_self.bind fun h => ?_
  cases hs : get h with
  | none =>
    refine .throw fun w ⟨⟨hw, _⟩, hh⟩ => ⟨hw, fun ho => ?_⟩
    have hsome := (hos ho).1 w hw
    rw [← hh, hs] at hsome
    cases hsome
  | some s =>
    refine Triple.bind (R := fun n w => (On A w ∧ get w.self = some s) ∧
      ∀ a, (f n s data).1 = .ok a → p a) (fun w ⟨⟨hw, hp⟩, hh⟩ => ?_) fun n => ?_
    · subst hh
      exact ⟨⟨hw, hs⟩, fun a => hp s a hs⟩
    refine Triple.bind (R := fun _ w => On A w ∧ ∀ a, (f n s data).1 = .ok a → p a)
      (fun w ⟨⟨hw, hg⟩, hp⟩ => ⟨hput w s _ hg hw, hp⟩) fun _ => ?_
    cases hr : (f n s data).1 with
    | ok a => exact .pure fun w hw => ⟨hw.1, hw.2 a rfl⟩
    | error e =>
      refine .throw fun w hw => ⟨hw.1, fun ho => ?_⟩
      obtain ⟨a, ha⟩ := (hos ho).2 n s data
      cases hr.symm.trans ha

theorem keeps_onPlugin {S : Type} {get : Handler O P E → Option S}
    {put : S → Handler O P E → Handler O P E} {f : ℕ → S → Bytes → Except PyExc α × S}
    (hput : ∀ (w : World O P E) s s', get w.self = some s → On A w →
      On A { w with self := put s' w.self })
    (hos : os → (∀ w : World O P E, On A w → (get w.self).isSome = true) ∧ NeverRaises f)
    (data : Bytes) :
    Triple (On A) (onPlugin get put f data) (fun _ => On A) (Raises A os) :=
  (keeps_onPlugin_ok hput hos data (p := fun _ => True)).conseq
    (fun _ hw => ⟨hw, fun _ _ _ _ => trivial⟩) (fun _ _ hw => hw.1) fun _ _ => id

/-- The core does not change when the obfuscation that is there changes its state. -/
theorem on_put_obfs (w : World O P E) (o o' : O) (ho : w.self.obfs = some o) (hw : On A w) :
    On A { w with self := { w.self with obfs := some o' } } := by
  unfold On core at hw ⊢
  rw [ho] at hw
  exact hw

theorem on_put_protocol (w : World O P E) (p p' : P) (hp : w.self.protocol = some p) (hw : On A w) :
    On A { w with self := { w.self with protocol := some p' } } := by
  unfold On core at hw ⊢
  rw [hp] at hw
  exact hw

theorem on_put_encryptor (w : World O P E) (e e' : E) (he : w.self.encryptor = some e)
    (hw : On A w) : On A { w with self := { w.self with encryptor := some e' } } := by
  unfold On core at hw ⊢
  rw [he] at hw
  exact hw

theorem keeps_onObfs_ok {f : ℕ → O → Bytes → Except PyExc α × O}
    (hos : os → (∀ x, A x → x.obfs = true) ∧ NeverRaises f) (data : Bytes) {p : α → Prop} :
    Triple (fun w => On A w ∧
        ∀ o a, w.self.obfs = some o → (f w.calls o data).1 = .ok a → p a)
      (onObfs f data : Method O P E α) (fun a w => On A w ∧ p a) (Raises A os) :=
  keeps_onPlugin_ok on_put_obfs (fun ho => ⟨fun _ hw => (hos ho).1 _ hw, (hos ho).2⟩) data

theorem keeps_onObfs {f : ℕ → O → Bytes → Except PyExc α × O}
    (hos : os → (∀ x, A x → x.obfs = true) ∧ NeverRaises f) (data : Bytes) :
    Triple (On A) (onObfs f data : Method O P E α) (fun _ => On A) (Raises A os) :=
  keeps_onPlugin on_put_obfs (fun ho => ⟨fun _ hw => (hos ho).1 _ hw, (hos ho).2⟩) data

theorem keeps_onProtocol {f : ℕ → P → Bytes → Except PyExc α × P}
    (hos : os → (∀ x, A x → x.protocol = true) ∧ NeverRaises f) (data : Bytes) :
    Triple (On A) (onProtocol f data : Method O P E α) (fun _ => On A) (Raises A os) :=
  keeps_onPlugin on_put_protocol (fun ho => ⟨fun _ hw => (hos ho).1 _ hw, (hos ho).2⟩) data

theorem keeps_onEncryptor {f : ℕ → E → Bytes → Except PyExc α × E}
    (hos : os → (∀ x, A x → x.encryptor = true) ∧ NeverRaises f) (data : Bytes) :
    Triple (On A) (onEncryptor f data : Method O P E α) (fun _ => On A) (Raises A os) :=
  keeps_onPlugin on_put_encryptor (fun ho => ⟨fun _ hw => (hos ho).1 _ hw, (hos ho).2⟩) data

theorem keeps_getObfs (hos : os → ∀ x, A x → x.obfs = true) :
    Triple (On A) (getObfs : Method O P E O) (fun o w => On A w ∧ w.self.obfs = some o)
      (Raises A os) := by
  refine triple_self.bind fun h => ?_
  cases ho : h.obfs with
  | none =>
    refine .throw fun w ⟨hw, hh⟩ => ⟨hw, fun hos' => ?_⟩
    have hsome : w.self.obfs.isSome = true := hos hos' _ hw
    rw [← hh, ho] at hsome
    cases hsome
  | some o => exact .pure fun w ⟨hw, hh⟩ => ⟨hw, by rw [← hh, ho]⟩

theorem keeps_getProtocol (hos : os → ∀ x, A x → x.protocol = true) :
    Triple (On A) (getProtocol : Method O P E P) (fun p w => On A w ∧ w.self.protocol = some p)
      (Raises A os) := by
  refine triple_self.bind fun h => ?_
  cases hp : h.protocol with
  | none =>
    refine .throw fun w ⟨hw, hh⟩ => ⟨hw, fun hos' => ?_⟩
    have hsome : w.self.protocol.isSome = true := hos hos' _ hw
    rw [← hh, hp] at hsome
    cases hsome
  | some p => exact .pure fun w ⟨hw, hh⟩ => ⟨hw, by rw [← hh, hp]⟩

/-! ## Stages and sockets -/

theorem Raises.mono {os' : Prop} {e : Raised} {w : World O P E} (h : Raises A os e w)
    (hA : ∀ x, A x → B x) (hos : os' → os) : Raises B os' e w :=
  ⟨hA _ h.1, fun ho => h.2 (hos ho)⟩

theorem Fresh.append {es es' : List Effect} (h : Fresh es) (h' : Fresh es') : Fresh (es ++ es') := by
  intro e he
  rcases List.mem_append.1 he with he | he
  · exact h e he
  · exact h' e he

/-- A lasting effect that is no destruction keeps the effects fresh. -/
theorem Fresh.snoc {es : List Effect} {e : Effect} (h : Fresh es)
    (he : e ≠ .stage .destroyed ∧ e ≠ .destroy) : Fresh (es ++ [e]) :=
  h.append fun e' he' => by rwa [List.mem_singleton.1 he']

theorem core_emit (w : World O P E) (e : Effect) :
    core { w with self := { w.self with log := w.self.log ++ [e] } } =
      { core w with lasting := (core w).lasting ++ [e].filter Effect.lasting } := by
  simp only [core, List.filter_append]
  rfl

/-- The connection is alive, and has these sockets. -/
structure Has (strict : Prop) (k : ℤ) (ss : List Sock) (x : Core) : Prop where
  alive : Alive strict k x
  has : ∀ s ∈ ss, x.opened s = true

theorem has_nil {x : Core} : Has strict k [] x ↔ Alive strict k x :=
  ⟨fun h => h.1, fun h => ⟨h, fun _ hs => absurd hs List.not_mem_nil⟩⟩

/-- Anything but a destruction can happen to a connection that is alive. -/
theorem triple_emit {e : Effect} (he : e ≠ .stage .destroyed ∧ e ≠ .destroy) (ss : List Sock) :
    Triple (On (Has strict k ss)) (emit e : Method O P E Unit) (fun _ => On (Has strict k ss)) R :=
  keeps_modifySelf fun w hw => by
    unfold On at hw ⊢
    rw [core_emit]
    exact
      { alive := { hw.alive with
          fresh := fun hs => (hw.alive.fresh hs).append fun e' he' => by
            rw [List.mem_singleton.1 (List.mem_of_mem_filter he')]
            exact he }
        has := hw.has }

theorem triple_setStage {s : Stage} (hu : s ≠ .unset) (hd : s ≠ .destroyed) :
    Triple (On (Alive strict k)) (setStage s : Method O P E Unit) (fun _ => On (Alive strict k))
      R := by
  have he : Effect.stage s ≠ .stage .destroyed ∧ Effect.stage s ≠ .destroy :=
    ⟨by simpa using hd, by simp⟩
  refine (keeps_modifySelf (B := Has strict k []) fun w hw => ?_).bind fun _ =>
    (triple_emit he []).post fun _ _ h => has_nil.1 h
  exact has_nil.2 { hw with started := hu, undestroyed := hd }

/-- Outside of a strict life a stage can be set after the end of it. -/
theorem triple_setStage_sane {s : Stage} (hu : s ≠ .unset) (hd : s ≠ .destroyed)
    (hs : ¬strict) :
    Triple (On (Sane strict k)) (setStage s : Method O P E Unit) (fun _ => On (Sane strict k))
      R := fun w hw => by
  rcases hw with hw | hw
  · exact .inl (triple_setStage (R := R) hu hd w hw)
  · exact .inr
      { hw with
        started := hu
        destroyed := fun h => absurd h hs
        settled := fun h => absurd h hs
        counted := fun h => absurd h hs }

theorem triple_openSocket (env : Env) {sock : Sock} (hsock : sock ≠ .localSock) (ss : List Sock) :
    Triple (On (Has strict k ss)) (openSocket env sock : Method O P E Unit)
      (fun _ => On (Has strict k (sock :: ss))) (Raises (Alive strict k) os) := by
  refine ((keeps_call env.socket).raises fun _ _ h => h.mono (fun _ h => h.1) id).bind fun _ => ?_
  refine (triple_emit ⟨by simp, by simp⟩ ss).bind fun _ => ?_
  refine keeps_modifySelf fun w hw => ?_
  have hopened (s : Sock) :
      (w.self.withSocket sock).opened s = true ↔ w.self.opened s = true ∨ s = sock := by
    cases sock <;> cases s <;> simp_all [Handler.opened, Handler.withSocket]
  have hmono (s : Sock) (h : w.self.opened s = true) := (hopened s).2 (.inl h)
  cases sock with
  | localSock => exact absurd rfl hsock
  | remoteSock =>
    exact
      { alive := { hw.alive with
          opened := fun s hs => hmono s (hw.alive.opened s hs)
          remote := fun _ => rfl }
        has := fun s hs => (List.mem_cons.1 hs).elim (fun h => (hopened s).2 (.inr h))
          fun h => hmono s (hw.has s h) }
  | remoteSockV6 =>
    exact
      { alive := { hw.alive with
          opened := fun s hs => hmono s (hw.alive.opened s hs)
          remote := fun h => hmono .remoteSock (hw.alive.remote h) }
        has := fun s hs => (List.mem_cons.1 hs).elim (fun h => (hopened s).2 (.inr h))
          fun h => hmono s (hw.has s h) }

theorem triple_addToLoop (env : Env) {sock : Sock} {ss : List Sock} (hsock : sock ∈ ss)
    (hremote : Sock.remoteSock ∈ ss) :
    Triple (On (Has strict k ss)) (addToLoop env sock : Method O P E Unit)
      (fun _ => On (Has strict k ss)) (Raises (Alive strict k) os) := by
  refine ((keeps_call env.loopAdd).raises fun _ _ h => h.mono (fun _ h => h.1) id).bind fun _ => ?_
  refine (triple_emit ⟨by simp, by simp⟩ ss).bind fun _ => ?_
  refine keeps_modifySelf fun w hw => ?_
  refine
    { alive := { hw.alive with
        opened := fun s hs => ?_
        remote := fun _ => hw.has _ hremote }
      has := hw.has }
  rcases Bool.or_eq_true_iff.1 hs with hs | hs
  · rw [of_decide_eq_true hs]
    exact hw.has _ hsock
  · exact hw.alive.opened s hs

/-! ## Destruction -/

theorem destroy_eq {w : World O P E} (hu : w.self.stage ≠ .unset) (hd : w.self.stage ≠ .destroyed) :
    destroy w = .ok () { w with
      self := { w.self with
        stage := .destroyed
        log := w.self.log ++ [.stage .destroyed] ++ [.destroy]
        remoteSock := false
        remoteSockV6 := false
        localSock := false
        polled := fun _ => false
        mapped := false
        obfs := none
        protocol := none
        encryptor := none
        dnsPending := false }
      server := { w.server with
        timeoutCache := w.server.timeoutCache.filter (· ≠ w.me)
        serverConnections := if w.self.addRef then w.server.serverConnections - 1
          else w.server.serverConnections } } := by
  obtain ⟨⟨stage, _⟩, _, _, _, _⟩ := w
  cases stage with
  | unset => exact absurd rfl hu
  | destroyed => exact absurd rfl hd
  | _ => rfl

theorem triple_destroy :
    Triple (On (Sane strict k)) (destroy : Method O P E Unit) (fun _ => On (Dead strict k)) R := by
  intro w hw
  have hu : w.self.stage ≠ .unset := hw.elim (·.started) (·.started)
  by_cases hd : w.self.stage = .destroyed
  · have hdead : Dead strict k (core w) :=
      hw.resolve_left fun h => h.undestroyed hd
    obtain ⟨⟨stage, _⟩, _, _, _, _⟩ := w
    cases hd
    exact hdead
  · rw [destroy_eq hu hd]
    have hlog : (w.self.log ++ [Effect.stage .destroyed] ++ [Effect.destroy]).filter Effect.lasting =
        w.self.log.filter Effect.lasting ++ [Effect.stage .destroyed, Effect.destroy] := by
      simp [Effect.lasting]
    exact
      { started := fun h => by cases h
        obfs := rfl
        protocol := rfl
        encryptor := rfl
        closed := fun s => by cases s <;> rfl
        unpolled := fun _ => rfl
        notPending := rfl
        destroyed := fun _ => rfl
        settled := fun hs => by
          have halive := hw.resolve_right fun h => hd (h.destroyed hs)
          have hadd : w.self.addRef = true := halive.addRef
          exact ⟨_, halive.fresh hs, hlog.trans (congrArg (fun es =>
            w.self.log.filter Effect.lasting ++ Effect.stage .destroyed :: es) (if_pos hadd).symm)⟩
        counted := fun hs => by
          have halive := hw.resolve_right fun h => hd (h.destroyed hs)
          have hadd : w.self.addRef = true := halive.addRef
          have hcount : w.server.serverConnections = k + 1 := halive.counted hs
          simp [core, hadd, hcount] }

end

end TcpRelay

end ShadowsocksR

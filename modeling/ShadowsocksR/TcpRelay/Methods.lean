import ShadowsocksR.TcpRelay.Lifecycle

/-!
# What the methods do to the life of a connection
-/

namespace ShadowsocksR

namespace TcpRelay

variable {O P E α : Type} {strict os : Prop} {k : ℤ} {A B : Core → Prop} {c : Setup O P E}

section

variable {R : Raised → World O P E → Prop}

/-! ## UDP over TCP -/

theorem keeps_handleServerDnsResolved (env : Env) (addr : IPAddr) (port : ℕ) (data : Bytes) :
    Triple (On A) (handleServerDnsResolved env addr port data : Method O P E Unit) (fun _ => On A)
      R := by
  refine .tryCatch (R := Raises A False) ?_ fun _ => .pure fun _ h => h.1
  refine (keeps_call env.getaddrinfo).bind fun addrs => ?_
  have hsend (a : SockAddr) : Triple (On A) (do
      emit (.sendto a data)
      let _ ← call env.sendto : Method O P E Unit) (fun _ => On A) (Raises A False) :=
    (keeps_emit rfl).bind fun _ => keeps_call env.sendto |>.bind fun _ => .pure fun _ => id
  have hnone : Triple (fun w => On A w) (throw (.py .attributeError) : Method O P E Unit)
      (fun _ => On A) (Raises A False) := .throw fun _ h => ⟨h, False.elim⟩
  cases addrs with
  | nil => exact .pure fun _ => id
  | cons _ _ =>
    refine (triple_self.post fun _ _ h => h.1).bind fun h => ?_
    cases addr.family with
    | inet6 => exact .ite (fun _ => hsend _) fun _ => hnone
    | inet => exact .ite (fun _ => hsend _) fun _ => hnone

theorem keeps_udpDnsResolved (env : Env) (port : ℕ) (data : Bytes) (answer : DnsAnswer) :
    Triple (On A) (udpDnsResolved env port data answer : Method O P E Unit) (fun _ => On A) R := by
  cases answer with
  | ip addr => exact keeps_handleServerDnsResolved env addr port data
  | error => exact .pure fun _ => id
  | nothing => exact .pure fun _ => id

theorem keeps_udpLoop (env : Env) (fuel : ℕ) :
    Triple (On A) (udpLoop c env fuel) (fun _ => On A) (Raises A False) := by
  have hthrow (e : PyExc) : Triple (On A) (throw (.py e) : Method O P E Unit) (fun _ => On A)
      (Raises A False) := .throw fun _ h => ⟨h, False.elim⟩
  induction fuel with
  | zero => exact .pure fun _ => id
  | succ fuel ih =>
    refine (triple_self.post fun _ _ h => h.1).bind fun h => ?_
    refine .ite (fun _ => .pure fun _ => id) fun _ => ?_
    refine (keeps_modifySelf fun _ h => h).bind fun _ => ?_
    split
    · exact hthrow _
    · refine .ite (fun _ => ih) fun _ => ?_
      extract_lets data
      split
      · exact hthrow _
      · exact ih
      · extract_lets payload
        split
        · exact keeps_handleServerDnsResolved env _ _ _
        · split
          · exact keeps_handleServerDnsResolved env _ _ _
          · refine (keeps_callRaising env.resolve).bind fun answer => ?_
            cases answer with
            | none => exact (keeps_modifySelf fun _ h => h).bind fun _ => ih
            | some answer => exact (keeps_udpDnsResolved env _ _ answer).bind fun _ => ih

theorem triple_writeUdp (env : Env) (data : Bytes) :
    Triple (On (Sane strict k)) (writeUdp c env data) (fun _ => On (Sane strict k)) R := by
  refine .tryCatch (R := Raises (Sane strict k) False) ?_ fun e => ?_
  · exact (keeps_modifySelf fun _ h => h).bind fun _ =>
      (triple_self.post fun _ _ h => h.1).bind fun _ => keeps_udpLoop env _
  · have hdestroy : Triple (Raises (Sane strict k) False e) (destroy : Method O P E Unit)
        (fun _ => On (Sane strict k)) R :=
      triple_destroy.conseq (fun _ h => h.1) (fun _ _ => .inr) fun _ _ => id
    have hskip : Triple (Raises (Sane strict k) False e) (pure () : Method O P E Unit)
        (fun _ => On (Sane strict k)) R := .pure fun _ h => h.1
    cases e with
    | os e => cases e <;> assumption
    | py e => exact hdestroy

/-! ## Writing -/

theorem keeps_afterSend (env : Env) (sock : Sock) (data : Bytes) (uncomplete : Bool) :
    Triple (On A) (afterSend env sock data uncomplete : Method O P E Unit) (fun _ => On A)
      (Raises A os) := by
  cases uncomplete with
  | false => cases sock <;> exact keeps_updateStream env _ _
  | true =>
    cases sock <;> exact (keeps_modifySelf fun _ h => h).bind fun _ => keeps_updateStream env _ _

/-- The condition does not depend on how much has been sent. -/
def Unsent (A : Core → Prop) : Prop := ∀ x n, A x → A { x with sends := n }

theorem unsent_alive : Unsent (Alive strict k) := fun _ _ h => { h with }

theorem unsent_sane : Unsent (Sane strict k) := fun _ _ h =>
  h.elim (fun h => .inl { h with }) fun h => .inr { h with }

theorem keeps_send (hA : Unsent A) (env : Env) (sock : Sock) (data : Bytes)
    {p : Except Errno ℕ → Prop} :
    Triple (On fun x => A x ∧ p (env.send x.sends)) (send env sock data : Method O P E _)
      (fun r w => On A w ∧ p r) R := by
  intro w hw
  rw [send_eq]
  refine ⟨?_, hw.2⟩
  have hlog : (w.self.log ++ accepted sock data (env.send w.sends)).filter Effect.lasting =
      w.self.log.filter Effect.lasting := by
    cases env.send w.sends <;> simp [accepted, Effect.lasting]
  have h := hA _ (w.sends + 1) hw.1
  unfold On core at h ⊢
  rwa [hlog]

/-- Writing keeps a condition if destroying does, or if nothing fatal can happen. -/
theorem keeps_writeToSock (hA : Unsent A) (env : Env) (sock : Sock) (data : Bytes) {safe : Prop}
    (hsane : ¬safe → A = Sane strict k) :
    Triple (On fun x => A x ∧ (safe → ¬Fatal (env.send x.sends) ∧
        (sock = .remoteSock → x.remoteUdp = false)))
      (writeToSock c env data sock) (fun _ => On A) (Raises A os) := by
  have hdestroy (hsafe : ¬safe) {Q : World O P E → Prop} (hQ : ∀ w, Q w → On A w) :
      Triple Q (destroy : Method O P E Unit) (fun _ => On A) (Raises A os) := by
    obtain rfl := hsane hsafe
    exact triple_destroy.conseq hQ (fun _ _ => .inr) fun _ _ => id
  refine triple_self.bind fun h => ?_
  refine .ite (fun _ => .pure fun _ hw => hw.1.1) fun _ => .ite (fun hudp => ?_) fun _ => ?_
  · rw [Bool.and_eq_true, decide_eq_true_iff] at hudp
    by_cases hsafe : safe
    · intro w hw
      have hw' : w.self.remoteUdp = false := (hw.1.2 hsafe).2 hudp.2
      rw [← hw.2, hudp.1] at hw'
      cases hw'
    · obtain rfl := hsane hsafe
      exact (triple_writeUdp env data).pre fun w hw => hw.1.1
  · refine Triple.pre (J := On fun x => A x ∧ (safe → ¬Fatal (env.send x.sends))) ?_ fun w hw =>
      ⟨hw.1.1, fun hs => (hw.1.2 hs).1⟩
    refine keeps_updateActivity.bind fun _ => .ite (fun _ => .pure fun _ hw => hw.1) fun _ => ?_
    refine (keeps_send hA env sock data (p := fun r => safe → ¬Fatal r)).bind fun r => ?_
    have hafter (data : Bytes) (uncomplete : Bool) :
        Triple (fun w => On A w ∧ (safe → ¬Fatal r))
          (afterSend env sock data uncomplete : Method O P E Unit) (fun _ => On A) (Raises A os) :=
      (keeps_afterSend env sock data uncomplete).pre fun _ hw => hw.1
    have hfatal (h : Fatal r) : Triple (fun w => On A w ∧ (safe → ¬Fatal r))
        (destroy : Method O P E Unit) (fun _ => On A) (Raises A os) := by
      by_cases hsafe : safe
      · exact fun w hw => absurd h (hw.2 hsafe)
      · exact hdestroy hsafe fun _ hw => hw.1
    cases r with
    | ok n => exact hafter _ _
    | error e =>
      cases e with
      | again => exact hafter _ _
      | inProgress => exact hafter _ _
      | timedOut => exact hfatal trivial
      | notConn => exact hfatal trivial
      | other n => exact hfatal trivial

theorem triple_writeToSock (env : Env) (sock : Sock) (data : Bytes) :
    Triple (On (Sane strict k)) (writeToSock c env data sock) (fun _ => On (Sane strict k))
      (Raises (Sane strict k) os) :=
  have h : ¬False → Sane strict k = Sane strict k := fun _ => rfl
  (keeps_writeToSock unsent_sane env sock data h).pre fun _ hw => ⟨hw, False.elim⟩

/-- When the write is not fatal, the connection stays alive. -/
theorem triple_writeToSock_alive (env : Env) (sock : Sock) (data : Bytes) :
    Triple (On fun x => Alive strict k x ∧ ¬Fatal (env.send x.sends) ∧
        (sock = .remoteSock → x.remoteUdp = false))
      (writeToSock c env data sock) (fun _ => On (Alive strict k)) (Raises (Alive strict k) os) :=
  have h : ¬True → Alive strict k = Sane strict k := fun h => absurd trivial h
  (keeps_writeToSock unsent_alive env sock data h).pre fun _ hw => ⟨hw.1, fun _ => hw.2⟩

/-! ## A request -/

theorem keeps_throw (e : Raised) {Q : α → World O P E → Prop} :
    Triple (On A) (throw e) Q (Raises A False) := .throw fun _ h => ⟨h, False.elim⟩

theorem triple_handelProtocolError (env : Env) (ognData : Bytes) :
    Triple (On (Alive strict k)) (handelProtocolError env ognData : Method O P E Bytes)
      (fun _ => On (Alive strict k)) (Raises (Alive strict k) False) := by
  refine (keeps_modifySelf fun _ h => h).bind fun _ => ?_
  refine (keeps_callRaising env.redirectHost).bind fun r => ?_
  refine .throwIf (fun _ _ h => ⟨h, False.elim⟩) fun _ => ?_
  refine .throwIf (fun _ _ h => ⟨h, False.elim⟩) fun _ => ?_
  refine .throwIf (fun _ _ h => ⟨h, False.elim⟩) fun _ => ?_
  exact (keeps_modifySelf (B := Alive strict k) fun _ h => { h with }).bind fun _ => .pure fun _ => id

theorem keeps_checkForbidden (a : SockAddr) (hos : os → c.forbids a = false) :
    Triple (On A) (checkForbidden c a) (fun _ => On A) (Raises A os) := by
  have hraise (h : c.forbids a = true) (w : World O P E) (hw : On A w) :
      Raises A os (.py .exception) w := ⟨hw, fun ho => by simp [hos ho] at h⟩
  refine .throwIf (fun h => hraise (by rw [Setup.forbids, h, Bool.true_or])) fun _ => ?_
  exact .ite (fun h => .throw (hraise (by rw [Setup.forbids, h, Bool.or_true]))) fun _ =>
    .pure fun _ => id

/-- What `getaddrinfo` can find for a destination. -/
def FoundBy (env : Env) : Dest → List IPAddr → Prop
  | _, [] => ∃ n, env.getaddrinfo n = .ok []
  | .ip addr, addr' :: _ => addr' = addr
  | .host _, addrs => ∃ n, env.getaddrinfo n = .ok addrs

theorem keeps_getaddrinfo (env : Env) (dest : Dest) :
    Triple (On A) (getaddrinfo env dest : Method O P E _)
      (fun addrs w => On A w ∧ FoundBy env dest addrs) (Raises A os) := by
  cases dest with
  | host name =>
    refine (keeps_call_ok env.getaddrinfo).post fun addrs w hw => ⟨hw.1, ?_⟩
    cases addrs <;> exact hw.2
  | ip addr =>
    refine (keeps_call_ok env.getaddrinfo).bind fun addrs => ?_
    cases addrs with
    | nil => exact .pure fun _ => id
    | cons _ _ => exact .pure fun _ hw => ⟨hw.1, rfl⟩

/-- When a socket for a destination can be made, but for errors of the system: addresses are found,
    and they are not forbidden. -/
def Connectable (c : Setup O P E) (env : Env) (dest : Dest) (port : ℕ) (x : Core) : Prop :=
  (∀ n, env.getaddrinfo n ≠ .ok []) ∧ (x.remoteUdp = false → x.isRedirect = false →
    ∀ addr addrs, FoundBy env dest (addr :: addrs) → c.forbids ⟨addr, port⟩ = false)

theorem triple_createRemoteSocket (env : Env) (dest : Dest) (port : ℕ) (udp : Bool)
    (hos : os → c.isLocal = true) :
    Triple (On fun x => Alive strict k x ∧ x.remoteUdp = udp ∧ (os → Connectable c env dest port x))
      (createRemoteSocket c env dest port)
      (fun _ => On (Has strict k (if udp then [.remoteSockV6, .remoteSock] else [.remoteSock])))
      (Raises (Alive strict k) os) := by
  have hcall {α : Type} {ss : List Sock} (f : ℕ → Except Errno α) :
      Triple (On (Has strict k ss)) (call f : Method O P E α) (fun _ => On (Has strict k ss))
        (Raises (Alive strict k) os) :=
    (keeps_call f).raises fun _ _ h => h.mono (fun _ h => h.alive) id
  have hbind {ss : List Sock} (h : ¬os) :
      Triple (On (Has strict k ss)) (callRaising env.bindAddr : Method O P E Unit)
        (fun _ => On (Has strict k ss)) (Raises (Alive strict k) os) :=
    (keeps_callRaising _).raises fun _ _ h' => h'.mono (fun _ h => h.alive) fun ho => h ho
  refine triple_self.bind fun h => ?_
  refine Triple.pre (J := fun w => (h.remoteUdp = udp ∧ (os → (∀ n, env.getaddrinfo n ≠ .ok []) ∧
      (h.remoteUdp = false → h.isRedirect = false → ∀ addr addrs, FoundBy env dest (addr :: addrs) →
        c.forbids ⟨addr, port⟩ = false))) ∧ On (Alive strict k) w)
    (.intro_pre fun ⟨hudp, hconn⟩ => ?_) fun w hw => ⟨by rw [hw.2]; exact hw.1.2, hw.1.1⟩
  subst hudp
  refine .ite (fun hudp => ?_) fun hudp => ?_
  · rw [if_pos hudp]
    refine (keeps_call_ok env.getaddrinfo).bind fun addrsV6 => ?_
    refine Triple.pre (Triple.intro_pre (p := ∃ n, env.getaddrinfo n = .ok addrsV6)
      fun ⟨n, hV6⟩ => ?_) fun w hw => ⟨hw.2, hw.1⟩
    refine (keeps_call_ok env.getaddrinfo).bind fun addrs => ?_
    refine .throwIf (fun h w hw => ⟨hw.1, fun ho => ?_⟩) fun _ => ?_
    · obtain ⟨m, hm⟩ := hw.2
      exact absurd (h ▸ hm) ((hconn ho).1 m)
    · refine Triple.pre ?_ fun w hw => has_nil.2 hw.1
      refine (triple_openSocket env (by simp) []).bind fun _ => ?_
      refine .throwIf (fun h w hw => ⟨hw.alive, fun ho => absurd (h ▸ hV6) ((hconn ho).1 n)⟩)
        fun _ => ?_
      refine (triple_openSocket env (by simp) _).bind fun _ => (hcall env.socket).bind fun _ => ?_
      refine .ite (fun hc => ?_) fun _ => .pure fun _ => id
      have hno : ¬os := fun ho => by simp [hos ho] at hc
      exact (hbind hno).bind fun _ => hbind hno
  · rw [if_neg hudp]
    refine (keeps_getaddrinfo env dest).bind fun addrs => ?_
    cases addrs with
    | nil =>
      refine .throw fun w hw => ⟨hw.1, fun ho => ?_⟩
      obtain ⟨n, hn⟩ : ∃ n, env.getaddrinfo n = .ok [] := by cases dest <;> exact hw.2
      exact absurd hn ((hconn ho).1 n)
    | cons addr addrs =>
      have hrest : Triple (On (Alive strict k)) (do
          openSocket env .remoteSock
          call env.socket
          if !c.isLocal then callRaising env.bindAddr : Method O P E Unit)
          (fun _ => On (Has strict k [.remoteSock])) (Raises (Alive strict k) os) := by
        refine Triple.pre ?_ fun w hw => has_nil.2 hw
        refine (triple_openSocket env (by simp) []).bind fun _ => (hcall env.socket).bind fun _ => ?_
        refine .ite (fun hc => hbind fun ho => ?_) fun _ => .pure fun _ => id
        simp [hos ho] at hc
      refine Triple.pre (Triple.intro_pre (p := FoundBy env dest (addr :: addrs)) fun hfound => ?_)
        fun w hw => ⟨hw.2, hw.1⟩
      refine .ite (fun hredirect => ?_) fun _ => hrest
      refine (keeps_checkForbidden _ fun ho => ?_).bind fun _ => hrest
      exact (hconn ho).2 (by simpa using hudp) (by simpa using hredirect) addr addrs hfound

/-! ## Connecting -/

theorem triple_flushUdp (env : Env) (fuel : ℕ) :
    Triple (On (Sane strict k)) (flushUdp c env fuel) (fun _ => On (Sane strict k))
      (Raises (Sane strict k) os) := by
  induction fuel with
  | zero => exact .pure fun _ => id
  | succ fuel ih =>
    refine (triple_self.post fun _ _ h => h.1).bind fun h => ?_
    split
    · exact .pure fun _ => id
    · exact (keeps_modifySelf fun _ h => h).bind fun _ => (triple_writeToSock env _ _).bind fun _ => ih

theorem On.sane {w : World O P E} (h : On (Alive strict k) w) : On (Sane strict k) w := .inl h

theorem Raises.sane {e : Raised} {w : World O P E} (h : Raises (Alive strict k) os e w) :
    Raises (Sane strict k) os e w := h.mono (fun _ => .inl) id

theorem triple_startStream (env : Env) :
    Triple (On (Alive strict k)) (startStream c env) (fun _ => On (Sane strict k))
      (Raises (Sane strict k) os) := by
  refine (triple_setStage (by simp) (by simp)).bind fun _ => ?_
  refine Triple.pre ?_ fun w => On.sane
  refine (keeps_updateStream env _ _).bind fun _ => (keeps_updateStream env _ _).bind fun _ => ?_
  refine (triple_self.post fun _ _ h => h.1).bind fun h => ?_
  exact .ite (fun _ => triple_flushUdp env _) fun _ => .pure fun _ => id

theorem triple_connectTo (env : Env) (addr : IPAddr) :
    Triple (On (Alive strict k)) (connectTo c env addr) (fun _ => On (Sane strict k))
      (Raises (Sane strict k) False) := by
  refine (triple_setStage (by simp) (by simp)).bind fun _ => ?_
  refine triple_self.bind fun h => ?_
  refine Triple.pre ?_ fun w hw =>
    (⟨hw.1, by rw [hw.2]; rfl⟩ : On (fun x => Alive strict k x ∧ x.remoteUdp = h.remoteUdp) w)
  extract_lets jpStream jpAdd jp
  have hfast : Triple (On (Alive strict k)) (do
      setStage .connecting
      updateStream env .up WAIT_STATUS_READING : Method O P E Unit) (fun _ => On (Sane strict k))
      (Raises (Sane strict k) False) :=
    (triple_setStage (by simp) (by simp)).bind fun _ =>
      ((keeps_updateStream env _ _).pre fun _ => On.sane)
  have hadd {ss : List Sock} (sock : Sock) (hsock : sock ∈ ss) (hremote : Sock.remoteSock ∈ ss) :
      Triple (On (Has strict k ss)) (addToLoop env sock : Method O P E Unit)
        (fun _ => On (Has strict k ss)) (Raises (Sane strict k) False) :=
    (triple_addToLoop env hsock hremote).raises fun _ _ => Raises.sane
  have hstream {ss : List Sock} :
      Triple (On (Has strict k ss)) (startStream c env) (fun _ => On (Sane strict k))
        (Raises (Sane strict k) False) := (triple_startStream env).pre fun _ h => h.alive
  have hjp (port : ℕ) : Triple (On fun x => Alive strict k x ∧ x.remoteUdp = h.remoteUdp) (jp port)
      (fun _ => On (Sane strict k)) (Raises (Sane strict k) False) := by
    refine .get_bind fun w hw => .ite (fun _ => hfast.pre fun w' hw' => ?_) fun _ => ?_
    · subst hw'
      exact hw.1
    refine Triple.bind (((triple_createRemoteSocket env _ port h.remoteUdp False.elim).pre
      fun w' hw' => ?_).raises fun _ _ => Raises.sane) fun _ => ?_
    · subst hw'
      exact ⟨hw.1, hw.2, False.elim⟩
    refine .ite (fun hudp => ?_) fun hudp => ?_
    · rw [if_pos hudp]
      exact (hadd _ (by simp) (by simp)).bind fun _ => (hadd _ (by simp) (by simp)).bind fun _ =>
        hstream
    · rw [if_neg hudp]
      refine (triple_emit (by simp) _).bind fun _ => ?_
      have hjpAdd : Triple (On (Has strict k [.remoteSock])) (jpAdd ()) (fun _ => On (Sane strict k))
          (Raises (Sane strict k) False) :=
        ((keeps_call env.getsockname).raises fun _ _ h => h.mono (fun _ h => .inl h.alive) id).bind
          fun _ => (hadd _ (by simp) (by simp)).bind fun _ => hstream
      split
      · exact hjpAdd
      · exact hjpAdd
      · exact hjpAdd
      · exact .bind (R := fun _ _ => False) (.throw fun _ hw => ⟨.inl hw.alive, False.elim⟩)
          fun _ _ hw => hw.elim
  refine .ite (fun _ => hjp _) fun _ => ?_
  split
  · exact hjp _
  · exact .bind (R := fun _ _ => False) (.throw fun _ hw => ⟨.inl hw.1, False.elim⟩)
      fun _ _ hw => hw.elim

theorem triple_handleDnsResolved (env : Env) (answer : DnsAnswer) :
    Triple (On (Alive strict k)) (handleDnsResolved c env answer) (fun _ => On (Sane strict k))
      (Raises (Sane strict k) os) := by
  have hdestroy {R : Raised → World O P E → Prop} :
      Triple (On (Sane strict k)) (destroy : Method O P E Unit) (fun _ => On (Sane strict k)) R :=
    triple_destroy.post fun _ _ => .inr
  cases answer with
  | ip addr =>
    refine Triple.bind (R := fun _ => On (Sane strict k)) ?_ fun b => ?_
    · exact (triple_guarded (triple_connectTo env addr) fun e =>
        .pure fun w (hw : Raises _ _ _ w) => hw.1).post fun b w hw => by cases b <;> exact hw
    · exact .ite (fun _ => hdestroy) fun _ => .pure fun _ => id
  | error => exact hdestroy.pre fun _ => On.sane
  | nothing => exact hdestroy.pre fun _ => On.sane

theorem triple_resolve (env : Env) (dest : Dest) :
    Triple (On (Alive strict k)) (resolve c env dest) (fun _ => On (Sane strict k))
      (Raises (Sane strict k) False) := by
  cases dest with
  | ip addr => exact triple_handleDnsResolved env (.ip addr)
  | host name =>
    refine ((keeps_callRaising env.resolve).raises fun _ _ => Raises.sane).bind fun answer => ?_
    cases answer with
    | some answer => exact triple_handleDnsResolved env answer
    | none => exact keeps_modifySelf fun _ hw => .inl { hw with }

/-! ## Requests -/

/-- The plugins that a client calls outside of a `try`, and those of a server. -/
structure Quiet (p : Plugins O P E) : Prop where
  clientPreEncrypt : NeverRaises p.clientPreEncrypt
  clientEncode : NeverRaises p.clientEncode
  serverPreEncrypt : NeverRaises p.serverPreEncrypt
  serverEncode : NeverRaises p.serverEncode
  encrypt : NeverRaises p.encrypt
  decrypt : NeverRaises p.decrypt

theorem triple_getObfs_sane :
    Triple (On (Sane strict k)) (getObfs : Method O P E O) (fun _ => On (Alive strict k))
      (Raises (Sane strict k) False) :=
  (keeps_getObfs False.elim).post fun o w hw => hw.1.resolve_right fun h => by
    have hnone : w.self.obfs.isSome = false := h.obfs
    rw [hw.2] at hnone
    cases hnone

theorem triple_putPlugins (o : O) (p : P) {R : Raised → World O P E → Prop} :
    Triple (On (Alive strict k)) (modifySelf fun h => { h with obfs := some o, protocol := some p })
      (fun _ => On (Alive strict k)) R :=
  keeps_modifySelf fun _ hw => { hw with obfs := rfl, protocol := rfl }

theorem keeps_updateOverhead :
    Triple (On A) (updateOverhead c) (fun _ => On A) (Raises A False) :=
  ((keeps_getObfs False.elim).post fun _ _ h => h.1).bind fun _ =>
    ((keeps_getProtocol False.elim).post fun _ _ h => h.1).bind fun _ => keeps_modifySelf fun _ h => h

/-- The plugins are there. -/
structure HasPlugins (x : Core) : Prop where
  obfs : x.obfs = true
  protocol : x.protocol = true
  encryptor : x.encryptor = true

theorem Alive.hasPlugins {x : Core} (h : Alive strict k x) : HasPlugins x :=
  ⟨h.obfs, h.protocol, h.encryptor⟩

theorem keeps_clientEncodeAll (data : Bytes)
    (hos : os → (∀ x, A x → HasPlugins x) ∧ Quiet c.plugins) :
    Triple (On A) (clientEncodeAll c data) (fun _ => On A) (Raises A os) :=
  (keeps_onProtocol (fun ho =>
    ⟨fun x h => ((hos ho).1 x h).protocol, (hos ho).2.clientPreEncrypt⟩) data).bind fun data =>
  (keeps_onEncryptor (fun ho =>
    ⟨fun x h => ((hos ho).1 x h).encryptor, (hos ho).2.encrypt⟩) data).bind fun data =>
  keeps_onObfs (fun ho => ⟨fun x h => ((hos ho).1 x h).obfs, (hos ho).2.clientEncode⟩) data

theorem keeps_parseRequest (data : Bytes) :
    Triple (On A) (parseRequest data : Method O P E _) (fun _ => On A) (Raises A False) := by
  unfold parseRequest
  split
  · exact .pure fun _ => id
  · exact keeps_throw _

theorem triple_startRequest (env : Env) (data : Bytes) (header : RequestHeader) :
    Triple (On (Alive strict k)) (startRequest c env data header) (fun _ => On (Sane strict k))
      (Raises (Sane strict k) False) := by
  refine .throwIf (fun _ w hw => ⟨.inl hw, False.elim⟩) fun _ => ?_
  refine (keeps_modifySelf (B := Alive strict k) fun _ h => { h with }).bind fun _ => ?_
  refine ((keeps_updateStream env _ _).raises fun _ _ => Raises.sane).bind fun _ => ?_
  refine (triple_setStage (by simp) (by simp)).bind fun _ => ?_
  have hresolve (dest : Dest) (b : Prop) [Decidable b] (f : Handler O P E → Handler O P E)
      (hf : ∀ w : World O P E, On (Alive strict k) w → On (Alive strict k) { w with self := f w.self }) :
      Triple (On (Alive strict k)) (if b then modifySelf f >>= fun _ => resolve c env dest
        else resolve c env dest) (fun _ => On (Sane strict k)) (Raises (Sane strict k) False) :=
    .ite (fun _ => (keeps_modifySelf hf).bind fun _ => triple_resolve env dest) fun _ =>
      triple_resolve env dest
  refine .ite (fun _ => ?_) fun _ => ?_
  · refine ((triple_writeToSock env _ _).pre fun _ => On.sane).bind fun _ => ?_
    -- the plugins are there, so that the write has not destroyed the connection
    refine triple_getObfs_sane.bind fun o => ?_
    refine (((keeps_getProtocol False.elim).post fun _ _ h => h.1).raises fun _ _ =>
      Raises.sane).bind fun p => ?_
    refine (triple_putPlugins _ _).bind fun _ => ?_
    refine ((keeps_clientEncodeAll data False.elim).raises fun _ _ => Raises.sane).bind fun _ => ?_
    exact hresolve _ _ _ fun _ h => h
  · exact hresolve _ _ _ fun _ h => h

theorem triple_serverRequest (env : Env) (ognData data : Bytes) :
    Triple (On (Alive strict k)) (serverRequest c env ognData data) (fun _ => On (Alive strict k))
      (Raises (Alive strict k) False) := by
  unfold serverRequest
  extract_lets jpEnd jp
  have hend (x : Bytes × Option RequestHeader) : Triple (On (Alive strict k)) (jpEnd x)
      (fun _ => On (Alive strict k)) (Raises (Alive strict k) False) := by
    refine keeps_updateOverhead.bind fun _ => (keeps_modifySelf fun _ h => h).bind fun _ => ?_
    refine ((keeps_getObfs False.elim).post fun _ _ h => h.1).bind fun o => ?_
    refine ((keeps_getProtocol False.elim).post fun _ _ h => h.1).bind fun p => ?_
    refine (triple_self.post fun _ _ h => h.1).bind fun h => ?_
    exact (triple_putPlugins _ _).bind fun _ => .pure fun _ => id
  have hjp (data : Bytes) : Triple (On (Alive strict k)) (jp data)
      (fun _ => On (Alive strict k)) (Raises (Alive strict k) False) := by
    refine (keeps_parseRequest data).bind fun header => ?_
    refine .ite (fun _ => hend (data, header)) fun _ => ?_
    exact (triple_handelProtocolError env ognData).bind fun data =>
      (keeps_parseRequest data).bind fun header => hend (data, header)
  split
  · exact (keeps_throw _).bind hjp
  · exact hjp _
  · exact (triple_handelProtocolError env ognData).bind hjp

/-- A stage that is set after a write. In a strict life the write must not be fatal. -/
theorem triple_writeAndStage (env : Env) (data : Bytes) {s : Stage} (hu : s ≠ .unset)
    (hd : s ≠ .destroyed) :
    Triple (On fun x => Alive strict k x ∧ (strict → ¬Fatal (env.send x.sends)))
      (do
        writeToSock c env data .localSock
        setStage s) (fun _ => On (Sane strict k)) (Raises (Sane strict k) os) := by
  by_cases hs : strict
  · refine Triple.bind (R := fun _ => On (Alive strict k)) ?_ fun _ =>
      (triple_setStage hu hd).post fun _ _ => On.sane
    exact ((triple_writeToSock_alive env .localSock data).pre fun w hw =>
      ⟨hw.1, hw.2 hs, by simp⟩).raises fun _ _ => Raises.sane
  · exact ((triple_writeToSock env _ _).pre fun w hw => (.inl hw.1)).bind fun _ =>
      triple_setStage_sane hu hd hs

/-- The command of the request is `CMD_UDP_ASSOCIATE`. -/
def Associates (data : Bytes) : Prop := data[1]? = some CMD_UDP_ASSOCIATE

theorem triple_stageAddr (env : Env) (ognData data : Bytes) :
    Triple (On fun x => Alive strict k x ∧
        (strict → c.isLocal = true → Associates data → ¬Fatal (env.send x.sends)))
      (stageAddr c env ognData data) (fun _ => On (Sane strict k))
      (Raises (Sane strict k) False) := by
  refine .ite (fun hlocal => ?_) fun _ => ?_
  · split
    · exact .throw fun w hw => ⟨(.inl hw.1), False.elim⟩
    · next cmd hcmd =>
      refine .ite (fun hudp => ?_) fun _ => .ite (fun _ => ?_) fun _ => ?_
      · have hsafe : Associates data := by rw [Associates, hcmd, hudp]
        refine Triple.pre (J := On fun x => Alive strict k x ∧ (strict → ¬Fatal (env.send x.sends)))
          ?_ fun w hw => ⟨hw.1, fun hs => hw.2 hs hlocal hsafe⟩
        exact ((keeps_call env.getsockname).raises fun _ _ h => h.mono (fun _ h => .inl h.1) id).bind
          fun a => triple_writeAndStage env _ (by simp) (by simp)
      · refine Triple.pre ?_ fun w hw => hw.1
        refine ((keeps_parseRequest _).raises fun _ _ => Raises.sane).bind fun header => ?_
        cases header with
        | none => exact (keeps_throw _).raises fun _ _ => Raises.sane
        | some header => exact triple_startRequest env _ header
      · exact (triple_destroy.pre fun w hw => (.inl hw.1)).post fun _ _ => .inr
  · refine Triple.pre ?_ fun w hw => hw.1
    refine ((triple_serverRequest env ognData data).raises fun _ _ => Raises.sane).bind fun r => ?_
    obtain ⟨data, header⟩ := r
    cases header with
    | none => exact (keeps_throw _).raises fun _ _ => Raises.sane
    | some header => exact triple_startRequest env data header

/-- What is destroyed after an exception is sane. -/
theorem triple_guarded_destroy {I : World O P E → Prop} {m : Method O P E Unit}
    {R : Raised → World O P E → Prop}
    (h : Triple I m (fun _ => On (Sane strict k)) (Raises (Sane strict k) False)) :
    Triple I (guarded m destroy) (fun _ => On (Sane strict k)) R :=
  (triple_guarded h fun _ => triple_destroy.pre fun _ hw => hw.1).post fun b w hw => by
    cases b with
    | true => exact hw
    | false => exact .inr hw

theorem triple_handleStageAddr (env : Env) (ognData data : Bytes) :
    Triple (On fun x => Alive strict k x ∧
        (strict → c.isLocal = true → Associates data → ¬Fatal (env.send x.sends)))
      (handleStageAddr c env ognData data) (fun _ => On (Sane strict k))
      (Raises (Sane strict k) os) :=
  (triple_guarded_destroy (triple_stageAddr env ognData data)).bind fun _ => .pure fun _ => id

theorem triple_handleStageInit (env : Env) (data : Bytes) :
    Triple (On fun x => Alive strict k x ∧
        (strict → checkAuthMethod data = .ok → ¬Fatal (env.send x.sends)))
      (handleStageInit c env data) (fun _ => On (Sane strict k)) (Raises (Sane strict k) os) := by
  have hdestroy {R : Raised → World O P E → Prop} :
      Triple (On (Sane strict k)) (destroy : Method O P E Unit) (fun _ => On (Sane strict k)) R :=
    triple_destroy.post fun _ _ => .inr
  unfold handleStageInit
  split
  · exact hdestroy.pre fun w hw => (.inl hw.1)
  · exact ((triple_writeToSock env _ _).pre fun w hw => (.inl hw.1)).bind fun _ => hdestroy
  · next hok =>
    exact (triple_writeAndStage env _ (by simp) (by simp)).pre fun w hw =>
      ⟨hw.1, fun hs => hw.2 hs hok⟩

/-! ## Fast open -/

theorem triple_fastOpen (env : Env) (hos : os → c.isLocal = true) :
    Triple (On fun x => Alive strict k x ∧
        (os → Connectable c env c.chosenServer.1 c.chosenServer.2 x))
      (fastOpen c env) (fun _ => On (Alive strict k)) (Raises (Alive strict k) os) := by
  refine (keeps_modifySelf (B := fun x => Alive strict k x ∧
    (os → Connectable c env c.chosenServer.1 c.chosenServer.2 x)) fun w hw => ⟨{ hw.1 with }, hw.2⟩).bind
    fun _ => ?_
  refine Triple.bind (R := fun _ => On (Has strict k [.remoteSock])) ?_ fun _ => ?_
  · intro w hw
    exact ((triple_createRemoteSocket env _ _ w.self.remoteUdp hos).post fun _ w' hw' =>
      ⟨hw'.alive, fun s hs => hw'.has s (by split <;> simp_all)⟩) w ⟨hw.1, rfl, hw.2⟩
  refine (triple_addToLoop env (by simp) (by simp)).bind fun _ => ?_
  refine Triple.pre ?_ fun w hw => hw.alive
  refine (triple_self.post fun _ _ h => h.1).bind fun h => (keeps_call env.sendto).bind fun n => ?_
  refine (keeps_emit rfl).bind fun _ => (keeps_modifySelf fun _ h => h).bind fun _ => ?_
  exact keeps_updateStream env _ _

/-- When fast open can raise errors of the system at most. -/
def FastOpens (c : Setup O P E) (env : Env) (x : Core) : Prop :=
  c.isLocal = true → x.fastopenConnected = false → x.fastOpen = true →
    Connectable c env c.chosenServer.1 c.chosenServer.2 x

theorem triple_handleStageConnecting (env : Env) (data : Bytes) (hos : os → Quiet c.plugins) :
    Triple (On fun x => Alive strict k x ∧ (os → FastOpens c env x))
      (handleStageConnecting c env data) (fun _ => On (Sane strict k))
      (Raises (Sane strict k) os) := by
  unfold handleStageConnecting
  extract_lets jpOpen jp
  have hopen : Triple (On fun x => Alive strict k x ∧ (os → FastOpens c env x)) (jpOpen ())
      (fun _ => On (Sane strict k)) (Raises (Sane strict k) os) := by
    refine triple_self.bind fun h => .get_bind fun w hw => .ite (fun hc => ?_) fun _ => .pure ?_
    · simp only [Bool.and_eq_true, Bool.not_eq_true'] at hc
      obtain ⟨⟨hlocal, hopened⟩, hfast⟩ := hc
      refine .tryCatch (R := Raises (Alive strict k) os) (((triple_fastOpen env fun _ => hlocal).pre
        fun w' hw' => ?_).post fun _ _ => On.sane) fun e => ?_
      · subst hw'
        refine ⟨hw.1.1, fun ho => hw.1.2 ho hlocal ?_ hfast⟩
        rwa [hw.2] at hopened
      · have hdestroy : Triple (Raises (Alive strict k) os e) (destroy : Method O P E Unit)
            (fun _ => On (Sane strict k)) (Raises (Sane strict k) os) :=
          triple_destroy.conseq (fun _ h => h.sane.1) (fun _ _ => .inr) fun _ _ => id
        cases e with
        | py e => exact .throw fun _ => Raises.sane
        | os e =>
          cases e with
          | inProgress => exact (keeps_updateStream env _ _).pre fun _ h => h.sane.1
          | notConn =>
            refine Triple.bind (R := fun _ => On (Sane strict k)) (fun w hw => .inl { hw.1 with })
              fun _ => triple_destroy.post fun _ _ => .inr
          | again => exact hdestroy
          | timedOut => exact hdestroy
          | other n => exact hdestroy
    · rintro _ rfl
      exact .inl hw.1.1
  have hjp (data : Bytes) : Triple (On fun x => Alive strict k x ∧ (os → FastOpens c env x))
      (jp data) (fun _ => On (Sane strict k)) (Raises (Sane strict k) os) :=
    .ite (fun _ => (keeps_modifySelf fun _ h => h).bind fun _ => hopen) fun _ => hopen
  refine (triple_self.post fun _ _ h => h.1).bind fun h => .ite (fun _ => ?_) fun _ => hjp data
  exact ((keeps_clientEncodeAll data fun ho => ⟨fun x hx => hx.1.hasPlugins, hos ho⟩).raises
    fun _ _ h => h.mono (fun _ hx => .inl hx.1) id).bind hjp

end

end TcpRelay

end ShadowsocksR

import ShadowsocksR.TcpRelay.Methods

/-!
# What the events of the sockets do to the life of a connection
-/

namespace ShadowsocksR

namespace TcpRelay

variable {O P E α : Type} {strict os : Prop} {k : ℤ} {A B : Core → Prop} {c : Setup O P E}

section

/-! ## Reading from a socket -/

/-- When `_get_read_size` finds a size that is not negative, but for errors of the system. -/
def SizeOk (recvBufferSize : ℤ) (up : Bool) (h : Handler O P E) : Prop :=
  0 ≤ recvBufferSize ∧ (h.overhead = 0 ∨
    (h.tcpMss ≠ h.overhead ∧ 0 ≤ if up then h.recvUMaxSize else h.recvDMaxSize))

/-- Rounding towards zero does not change the sign. -/
theorem tdiv_mul_nonneg {a : ℤ} (ha : 0 ≤ a) (b : ℤ) : 0 ≤ a.tdiv b * b := by
  rcases Int.le_total 0 b with hb | hb
  · exact Int.mul_nonneg (Int.tdiv_nonneg ha hb) hb
  · exact Int.mul_nonneg_of_nonpos_of_nonpos (Int.tdiv_nonpos_of_nonneg_of_nonpos ha hb) hb

theorem keeps_getReadSize (env : Env) (recvBufferSize : ℤ) (up : Bool) :
    Triple (fun w => On A w ∧ (os → SizeOk recvBufferSize up w.self))
      (getReadSize env recvBufferSize up : Method O P E ℤ)
      (fun size w => On A w ∧ (os → 0 ≤ size)) (Raises A os) := by
  refine triple_self.bind fun h => ?_
  refine Triple.pre (Triple.intro_pre (p := os → SizeOk recvBufferSize up h) (P := On A) fun hsize =>
    ?_) fun w hw => ⟨by rw [hw.2]; exact hw.1.2, hw.1.1⟩
  refine .ite (fun _ => .pure fun w hw => ⟨hw, fun ho => (hsize ho).1⟩) fun hover => ?_
  have hmss (ho : os) := (hsize ho).2.resolve_left hover
  refine .throwIf (fun h w hw => ⟨hw, fun ho => absurd (hsize ho).1 (by omega)⟩) fun _ => ?_
  refine (keeps_call _).bind fun available => ?_
  extract_lets bufferSize frameSize size
  have hsize' (ho : os) : 0 ≤ size := by
    have := (hmss ho).2
    simp only [size, bufferSize]
    omega
  refine (keeps_modifySelf fun _ h => by cases up <;> exact h).bind fun _ => ?_
  refine .ite (fun _ => .pure fun w hw => ⟨hw, hsize'⟩) fun _ => ?_
  refine .ite (fun _ => ?_) fun _ => .pure fun w hw => ⟨hw, hsize'⟩
  refine .throwIf (fun h w hw => ⟨hw, fun ho => absurd (hmss ho).1 (by omega)⟩) fun _ => ?_
  exact .pure fun w hw => ⟨hw, fun ho => tdiv_mul_nonneg (hsize' ho) _⟩

theorem keeps_recv (env : Env) (size : ℤ) :
    Triple (fun w => On A w ∧ (os → 0 ≤ size)) (recv env size : Method O P E _) (fun _ => On A)
      (Raises A os) := by
  refine .throwIf (fun h w hw => ⟨hw.1, fun ho => absurd (hw.2 ho) (by omega)⟩) fun _ => ?_
  split
  · exact .pure fun _ hw => hw.1
  · exact .pure fun _ hw => hw.1

theorem keeps_readLocal (env : Env) :
    Triple (fun w => On A w ∧
        (os → c.isLocal = true → SizeOk w.self.recvBufferSize true w.self))
      (readLocal c env) (fun _ => On A) (Raises A os) := by
  refine triple_self.bind fun h => ?_
  refine .ite (fun hlocal => ?_) fun _ => ?_
  · refine Triple.bind ((keeps_getReadSize env h.recvBufferSize true).pre fun w hw =>
      ⟨hw.1.1, fun ho => ?_⟩) fun size => keeps_recv env size
    rw [hw.2]
    exact hw.1.2 ho hlocal
  · exact (keeps_recv env BUF_SIZE).pre fun w hw => ⟨hw.1.1, fun _ => by decide⟩

/-- What `_on_local_read` receives. -/
def received (c : Setup O P E) (env : Env) (w : World O P E) : Option Bytes :=
  match readLocal c env w with
  | .ok (.ok data) _ => some data
  | _ => none

/-- A server reads what is there, and nothing else changes. -/
theorem readLocal_server (hlocal : c.isLocal = false) (env : Env) (w : World O P E) :
    readLocal c env w = .ok (match env.recv with
      | .ok data => .ok (data.take BUF_SIZE.toNat)
      | .error e => .error e) w := by
  have hsize : ¬BUF_SIZE < 0 := by decide
  have hrun : readLocal c env w = (do
      let size ← if c.isLocal then getReadSize env w.self.recvBufferSize true else pure BUF_SIZE
      recv env size : Method O P E (Except Errno Bytes)) w := rfl
  rw [hrun, hlocal]
  change recv env BUF_SIZE w = _
  rw [recv, if_neg hsize]
  cases env.recv <;> rfl

theorem readLocal_spec (os : Prop) (env : Env) (w₀ : World O P E) :
    Triple (fun w => w = w₀ ∧ On A w ∧
        (os → c.isLocal = true → SizeOk w.self.recvBufferSize true w.self))
      (readLocal c env)
      (fun r w => On A w ∧ (∀ data, r = .ok data → received c env w₀ = some data) ∧
        (c.isLocal = false → w = w₀)) (Raises A os) := by
  rintro w ⟨rfl, hw⟩
  have h := keeps_readLocal env w hw
  cases hr : readLocal c env w with
  | ok r w' =>
    rw [hr] at h
    refine ⟨h, fun data hdata => ?_, fun hlocal => ?_⟩
    · rw [received, hr, hdata]
    · rw [readLocal_server hlocal] at hr
      cases hr
      rfl
  | error e w' =>
    rw [hr] at h
    exact h

/-! ## A client's data -/

/-- In a strict life, the answers to a client that wants to go on are not fatal. -/
def Settles (c : Setup O P E) (env : Env) (data : Bytes) (x : Core) : Prop :=
  c.isLocal = true → (x.stage = .init → checkAuthMethod data = .ok → ¬Fatal (env.send x.sends)) ∧
    (x.stage = .addr → Associates data → ¬Fatal (env.send x.sends))

theorem triple_dispatchLocal (env : Env) (ognData data : Bytes) (hos : os → Quiet c.plugins) :
    Triple (On fun x => Alive strict k x ∧ (strict → Settles c env data x) ∧
        (os → x.stage = .connecting → FastOpens c env x))
      (dispatchLocal c env ognData data) (fun _ => On (Sane strict k))
      (Raises (Sane strict k) os) := by
  refine triple_self.bind fun h => ?_
  refine Triple.pre (J := On fun x => h.stage = x.stage ∧ Alive strict k x ∧
    (strict → Settles c env data x) ∧ (os → x.stage = .connecting → FastOpens c env x)) ?_
    fun w hw => ⟨by rw [hw.2]; rfl, hw.1⟩
  refine .ite (fun _ => ?_) fun _ => .ite (fun hinit => ?_) fun _ => .ite (fun hconn => ?_) fun _ =>
    .ite (fun haddr => ?_) fun _ => .pure fun w hw => .inl hw.2.1
  · refine Triple.pre (J := On (Alive strict k)) ?_ fun w hw => hw.2.1
    have hwrite (data : Bytes) : Triple (On (Alive strict k)) (writeToSock c env data .remoteSock)
        (fun _ => On (Sane strict k)) (Raises (Sane strict k) os) :=
      (triple_writeToSock env _ data).pre fun _ => On.sane
    refine .ite (fun _ => ?_) fun _ => hwrite data
    exact ((keeps_clientEncodeAll data fun ho => ⟨fun _ h => h.hasPlugins, hos ho⟩).raises fun _ _ =>
      Raises.sane).bind hwrite
  · rw [Bool.and_eq_true, decide_eq_true_iff] at hinit
    exact (triple_handleStageInit env data).pre fun w hw =>
      ⟨hw.2.1, fun hs => (hw.2.2.1 hs hinit.1).1 (hw.1 ▸ hinit.2)⟩
  · exact (triple_handleStageConnecting env data hos).pre fun w hw =>
      ⟨hw.2.1, fun ho => hw.2.2.2 ho (hw.1 ▸ hconn)⟩
  · refine (triple_handleStageAddr env ognData data).pre fun w hw =>
      ⟨hw.2.1, fun hs hlocal => (hw.2.2.1 hs hlocal).2 ?_⟩
    simp only [hlocal, Bool.true_and, Bool.not_true, Bool.false_and, Bool.or_false,
      decide_eq_true_iff] at haddr
    exact hw.1 ▸ haddr

/-- A connection that is destroyed while it handles its data does nothing more with it. -/
theorem triple_dispatchLocal_dead (env : Env) (ognData data : Bytes) (hs : strict)
    {R : Raised → World O P E → Prop} :
    Triple (On (Dead strict k)) (dispatchLocal c env ognData data) (fun _ => On (Dead strict k))
      R := by
  refine triple_self.bind fun h => ?_
  refine Triple.pre (J := fun w => h.stage = .destroyed ∧ On (Dead strict k) w)
    (.intro_pre fun hh => ?_) fun w hw => ⟨by rw [hw.2]; exact hw.1.destroyed hs, hw.1⟩
  refine .ite (fun h' => ?_) fun _ => .ite (fun h' => ?_) fun _ => .ite (fun h' => ?_) fun _ =>
    .ite (fun h' => ?_) fun _ => .pure fun _ => id
  all_goals simp [hh] at h'

theorem triple_dispatchLocal_server (env : Env) (ognData data : Bytes) (hlocal : c.isLocal = false)
    (hs : strict) (hos : os → Quiet c.plugins) :
    Triple (On (Sane strict k)) (dispatchLocal c env ognData data) (fun _ => On (Sane strict k))
      (Raises (Sane strict k) os) := by
  have hnot : ¬c.isLocal = true := by simp [hlocal]
  rintro w (hw | hw)
  · exact triple_dispatchLocal env ognData data hos w
      ⟨hw, fun _ h => absurd h hnot, fun _ _ h => absurd h hnot⟩
  · exact ((triple_dispatchLocal_dead env ognData data hs).post fun _ _ => .inr) w hw

/-! ## A server's data -/

theorem keeps_captureIv (data : Bytes) (hos : os → ∀ x, A x → x.protocol = true) :
    Triple (On A) (captureIv c data) (fun _ => On A) (Raises A os) := by
  refine (keeps_getProtocol hos).bind fun p => .ite (fun _ => ?_) fun _ => .pure fun _ hw => hw.1
  exact fun w hw => on_put_protocol w p _ hw.2 hw.1

theorem keeps_serverPostDecrypt (data : Bytes) :
    Triple (On A) (serverPostDecrypt c data) (fun _ => On A) (Raises A False) := by
  refine triple_self.bind fun h => ?_
  cases hp : h.protocol with
  | none => exact .throw fun w hw => ⟨hw.1, False.elim⟩
  | some p =>
    refine (triple_ask (I := fun w => On A w ∧ w.self.protocol = some p) (fun _ _ h => h) id).pre
      (fun w hw => ⟨hw.1, by rw [← hw.2, hp]⟩) |>.bind fun n => ?_
    obtain ⟨r, user, p'⟩ := c.plugins.serverPostDecrypt n p data
    refine Triple.bind (R := fun _ => On A) (fun w hw => on_put_protocol w p _ hw.2 hw.1) fun _ => ?_
    extract_lets jp
    have hjp : Triple (On A) (jp ()) (fun _ => On A) (Raises A False) := by
      cases r with
      | ok r => exact .pure fun _ => id
      | error e => exact keeps_throw _
    cases user with
    | none => exact hjp
    | some user =>
      refine Triple.bind (R := fun _ => On A) ?_ fun _ => hjp
      exact (keeps_modifySelf fun _ h => h).bind fun _ =>
        .ite (fun _ => keeps_throw _) fun _ => .pure fun _ => id

theorem triple_sendBack (env : Env) :
    Triple (On (Sane strict k)) (sendBack c env) (fun _ => On (Sane strict k))
      (Raises (Sane strict k) False) :=
  (keeps_onProtocol False.elim []).bind fun data => (keeps_onEncryptor False.elim data).bind
    fun data => (keeps_onObfs False.elim data).bind fun data =>
      triple_guarded_destroy (triple_writeToSock env _ data)

/-- What is destroyed after an exception is sane. -/
theorem triple_orDestroy_sane {I : World O P E → Prop} {m : Method O P E (Option α)}
    {R : Raised → World O P E → Prop}
    (h : Triple I m (fun _ => On (Sane strict k)) (Raises (Sane strict k) False)) :
    Triple I (tryCatch m fun _ => do
      destroy
      return none) (fun _ => On (Sane strict k)) R :=
  h.tryCatch fun _ => (triple_destroy.conseq (fun _ hw => hw.1) (fun _ _ => .inr) fun _ _ => id).bind
    fun _ => .pure fun _ => id

theorem triple_serverUnpack (env : Env) (data : Bytes) {R : Raised → World O P E → Prop} :
    Triple (On (Sane strict k)) (serverUnpack c env data) (fun _ => On (Sane strict k)) R := by
  refine triple_orDestroy_sane ((keeps_serverPostDecrypt data).bind fun r => ?_)
  obtain ⟨data, back⟩ := r
  refine .ite (fun _ => ?_) fun _ => .pure fun _ => id
  exact (triple_sendBack env).bind fun goesOn =>
    .ite (fun _ => .pure fun _ => id) fun _ => .pure fun _ => id

theorem keeps_serverDecode (data : Bytes) (hA : ∀ x, A x → Sane strict k x)
    {p : Bytes × Bool × Bool → Prop} {R : Raised → World O P E → Prop} :
    Triple (fun w => On A w ∧ ∀ o r, w.self.obfs = some o →
        (c.plugins.serverDecode w.calls o data).1 = .ok r → p r)
      (serverDecode c data) (fun r w => match r with
        | some r => On A w ∧ p r
        | none => On (Sane strict k) w) R := by
  refine .tryCatch (R := Raises A False) ((keeps_onObfs_ok False.elim data).bind fun r => ?_)
    fun e => ?_
  · refine Triple.pre (J := fun w => p r ∧ On A w) (.intro_pre fun hp => ?_)
      fun w hw => ⟨hw.2, hw.1⟩
    refine (triple_self.post fun _ _ h => h.1).bind fun h => ?_
    extract_lets jp
    have hjp (u : Unit) : Triple (On A) (jp u) (fun r w => match r with
        | some r => On A w ∧ p r
        | none => On (Sane strict k) w) (Raises A False) := .pure fun w hw => ⟨hw, hp⟩
    refine .ite (fun _ => ?_) fun _ => hjp ()
    refine keeps_updateOverhead.bind fun _ => (keeps_getProtocol False.elim).bind fun p => ?_
    exact Triple.bind (R := fun _ => On A) (fun w hw => on_put_protocol w p _ hw.2 hw.1) hjp
  · exact (triple_destroy.conseq (fun _ hw => hA _ hw.1) (fun _ _ => .inr) fun _ _ => id).bind
      fun _ => .pure fun _ => id

/-- The data is to be decrypted after something has been sent back for the obfuscation. -/
def SendsBack (r : Bytes × Bool × Bool) : Prop := r.2 = (true, true)

theorem triple_serverRead (env : Env) (data : Bytes) (hos : os → Quiet c.plugins) :
    Triple (fun w => On (Alive strict k) w ∧ ∀ o r, w.self.obfs = some o →
        (c.plugins.serverDecode w.calls o data).1 = .ok r → os → SendsBack r →
          ¬Fatal (env.send w.sends))
      (serverRead c env data) (fun _ => On (Sane strict k)) (Raises (Sane strict k) os) := by
  intro w₀ hw₀
  have hdecode := keeps_serverDecode (c := c) data (A := fun x => Alive strict k x ∧ x.sends = w₀.sends)
    (fun _ h => .inl h.1) (p := fun r => os → SendsBack r → ¬Fatal (env.send w₀.sends))
    (R := Raises (Sane strict k) os)
  refine hdecode.bind (Q := fun _ => On (Sane strict k)) (fun r => ?_) w₀ ⟨⟨hw₀.1, rfl⟩, hw₀.2⟩
  cases r with
  | none => exact .pure fun _ => id
  | some r =>
    obtain ⟨data, needDecrypt, needSendBack⟩ := r
    dsimp -zeta only
    extract_lets jpUnpack jp
    -- where the data is decrypted, the plugins must be there
    let A (x : Core) : Prop := Sane strict k x ∧ (os → needDecrypt = true → Alive strict k x)
    have hraises {e : Raised} {w : World O P E} (h : Raises A os e w) : Raises (Sane strict k) os e w :=
      h.mono (fun _ h => h.1) id
    have hjp (goesOn : Bool) : Triple (fun w => if goesOn then On A w else On (Sane strict k) w)
        (jp goesOn) (fun _ => On (Sane strict k)) (Raises (Sane strict k) os) := by
      cases goesOn with
      | false => exact .pure fun _ => id
      | true =>
        refine Triple.pre (J := On A) (.ite (fun h => by cases h) fun _ =>
          .ite (fun hdecrypt => ?_) fun _ => ?_) fun _ => id
        · refine ((keeps_captureIv data fun ho x hx => (hx.2 ho hdecrypt).protocol).raises fun _ _ =>
            hraises).bind fun _ => ?_
          refine ((keeps_onEncryptor (fun ho => ⟨fun x hx => (hx.2 ho hdecrypt).encryptor,
            (hos ho).decrypt⟩) data).raises fun _ _ => hraises).bind fun data => ?_
          exact (triple_serverUnpack env data).pre fun _ hw => hw.1
        · exact (triple_serverUnpack env data).pre fun _ hw => hw.1
    refine .ite (fun hback => ?_) fun _ => (hjp true).pre fun _ hw => ⟨.inl hw.1.1, fun _ _ => hw.1.1⟩
    refine Triple.pre (J := fun w => (os → SendsBack (data, needDecrypt, needSendBack) →
        ¬Fatal (env.send w₀.sends)) ∧ On (fun x => Alive strict k x ∧ x.sends = w₀.sends) w)
      (.intro_pre fun hsafe => ?_) fun w hw => ⟨hw.2, hw.1⟩
    refine ((keeps_onObfs (fun ho => ⟨fun _ hx => hx.1.obfs, (hos ho).serverEncode⟩) []).raises
      fun _ _ h => h.mono (fun _ hx => .inl hx.1) id).bind fun back => ?_
    refine Triple.bind (R := fun b w => if b then On A w else On (Sane strict k) w) ?_ hjp
    have hdead (e : Raised) {B : Core → Prop} (hB : ∀ x, B x → Sane strict k x) :
        Triple (Raises B False e) (destroy : Method O P E Unit) (fun _ => On (Sane strict k))
          (Raises (Sane strict k) os) :=
      triple_destroy.conseq (fun _ hw => hB _ hw.1) (fun _ _ => .inr) fun _ _ => id
    by_cases h : os ∧ needDecrypt = true
    · have hnot : ¬Fatal (env.send w₀.sends) :=
        hsafe h.1 (by rw [SendsBack, h.2, hback])
      refine (triple_guarded (triple_writeToSock_alive env .localSock back) fun e =>
        hdead e fun _ => .inl).conseq (fun w hw => ⟨hw.1, ?_, by simp⟩) (fun b w hw => ?_) fun _ _ => id
      · rwa [hw.2]
      · cases b with
        | false => exact hw
        | true => exact ⟨.inl hw, fun _ _ => hw⟩
    · refine (triple_guarded (triple_writeToSock env .localSock back) fun e =>
        hdead e fun _ => id).conseq (fun w hw => .inl hw.1) (fun b w hw => ?_) fun _ _ => id
      cases b with
      | false => exact hw
      | true => exact ⟨hw, fun ho hdecrypt => absurd ⟨ho, hdecrypt⟩ h⟩

/-! ## The events -/

/-- When a read from the client raises errors of the system at most: it has a size; a socket can be
    made for fast open; and what a server sends back before it decrypts is not fatal. -/
structure LocalReads (c : Setup O P E) (env : Env) (w : World O P E) : Prop where
  size : c.isLocal = true → SizeOk w.self.recvBufferSize true w.self
  fastOpens : ∀ data, received c env w = some data → w.self.stage = .connecting →
    FastOpens c env (core w)
  sendsBack : c.isLocal = false → ∀ data o r, received c env w = some data →
    w.self.encryptCorrect = true → w.self.obfs = some o →
    (c.plugins.serverDecode w.calls o data).1 = .ok r → SendsBack r → ¬Fatal (env.send w.sends)

theorem triple_destroy_sane {R : Raised → World O P E → Prop} :
    Triple (On (Sane strict k)) (destroy : Method O P E Unit) (fun _ => On (Sane strict k)) R :=
  triple_destroy.post fun _ _ => .inr

theorem triple_onLocalRead (env : Env) (hs : c.isLocal = false → strict)
    (hos : os → Quiet c.plugins) :
    Triple (fun w => On (Alive strict k) w ∧
        (strict → ∀ data, received c env w = some data → Settles c env data (core w)) ∧
        (os → LocalReads c env w))
      (onLocalRead c env) (fun _ => On (Sane strict k)) (Raises (Sane strict k) os) := by
  rintro w₀ ⟨halive, hsettles, hreads⟩
  have hsane {w : World O P E} (h : core w = core w₀) : On (Sane strict k) w := by
    unfold On
    rw [h]
    exact .inl halive
  refine (triple_self.bind fun h => ?_ :
    Triple (· = w₀) (onLocalRead c env) (fun _ => On (Sane strict k)) (Raises (Sane strict k) os))
    w₀ rfl
  refine Triple.pre (J := fun w => h = w₀.self ∧ w = w₀) (.intro_pre fun hh => ?_)
    fun w hw => ⟨by rw [hw.2, hw.1], hw.1⟩
  subst hh
  refine .ite (fun _ => .pure fun w hw => hsane (by rw [hw])) fun _ => ?_
  refine ((readLocal_spec os env w₀ (A := (· = core w₀))).conseq (fun w hw => ?_)
    (fun _ _ => id) fun _ _ h => h.mono (fun _ h => by rw [h]; exact .inl halive) id).bind fun r => ?_
  · subst hw
    exact ⟨rfl, rfl, fun ho => (hreads ho).size⟩
  have hdestroy : Triple (fun w => On (· = core w₀) w ∧
      (∀ data, r = .ok data → received c env w₀ = some data) ∧ (c.isLocal = false → w = w₀))
      (destroy : Method O P E Unit) (fun _ => On (Sane strict k)) (Raises (Sane strict k) os) :=
    triple_destroy_sane.pre fun w hw => hsane hw.1
  cases r with
  | error e =>
    cases e with
    | timedOut => exact .pure fun w hw => hsane hw.1
    | again => exact .pure fun w hw => hsane hw.1
    | inProgress => exact hdestroy
    | notConn => exact hdestroy
    | other n => exact hdestroy
  | ok data =>
    cases data with
    | nil => exact hdestroy
    | cons b data =>
      refine .ite (fun hlocal => ?_) fun hlocal => ?_
      · refine (triple_dispatchLocal env _ (b :: data) hos).pre fun w hw => ?_
        unfold On
        rw [show core w = core w₀ from hw.1]
        exact ⟨halive, fun h => hsettles h _ (hw.2.1 _ rfl),
          fun ho => (hreads ho).fastOpens _ (hw.2.1 _ rfl)⟩
      · rw [Bool.not_eq_true] at hlocal
        have hdispatch (data' : Bytes) := triple_dispatchLocal_server (k := k) env (b :: data) data'
          hlocal (hs hlocal) hos
        refine Triple.pre (J := fun w => received c env w₀ = some (b :: data) ∧ w = w₀)
          (.intro_pre fun hreceived => ?_) fun w hw => ⟨hw.2.1 _ rfl, hw.2.2 hlocal⟩
        refine .ite (fun _ => .pure fun w hw => hsane (by rw [hw])) fun _ => .ite (fun hc => ?_)
          fun _ => (hdispatch _).pre fun w hw => hsane (by rw [hw])
        refine Triple.bind ((triple_serverRead env (b :: data) hos).pre fun w hw => ?_) fun r => ?_
        · subst hw
          exact ⟨halive, fun o r ho hr h => (hreads h).sendsBack hlocal _ o r hreceived hc ho hr⟩
        · cases r with
          | none => exact .pure fun _ => id
          | some data' =>
            cases data' with
            | nil => exact .pure fun _ => id
            | cons _ _ => exact hdispatch _

/-! ## Data from the remote -/

/-- When a read from the remote raises errors of the system at most: the socket is there, a datagram
    is not too long for its frame, and there is a size. -/
structure Receives (c : Setup O P E) (env : Env) (isRemoteSock : Bool) (w : World O P E) :
    Prop where
  opened : w.self.opened (if isRemoteSock || !w.self.remoteUdp then .remoteSock else .remoteSockV6) =
    true
  frame : w.self.remoteUdp = true → ∀ data src, env.recvfrom = .ok (data, src, false) →
    ∃ frame, udpFrame (data.take UDP_MAX_BUF_SIZE) src = .ok frame
  size : w.self.remoteUdp = false → c.isLocal = false →
    SizeOk w.self.recvBufferSize false w.self

theorem keeps_recvRemote (env : Env) (isRemoteSock : Bool) :
    Triple (fun w => On A w ∧ (os → Receives c env isRemoteSock w))
      (recvRemote c env isRemoteSock) (fun _ => On A) (Raises A os) := by
  refine triple_self.bind fun h => ?_
  refine .ite (fun hudp => ?_) fun hudp => ?_
  · refine .throwIf (fun hnone w hw => ⟨hw.1.1, fun ho => ?_⟩) fun _ => ?_
    · have hopened := (hw.1.2 ho).opened
      rw [← hw.2, hudp, Bool.not_true, Bool.or_false] at hopened
      cases isRemoteSock <;> simp_all [Handler.opened]
    · split
      · exact .pure fun w hw => hw.1.1
      · exact .pure fun w hw => hw.1.1
      · next data src hrecv =>
        split
        · exact .pure fun w hw => hw.1.1
        · next e hframe =>
          refine .throw fun w hw => ⟨hw.1.1, fun ho => ?_⟩
          obtain ⟨frame, hf⟩ := (hw.1.2 ho).frame (by rw [← hw.2, hudp]) data src hrecv
          cases hf.symm.trans hframe
  · rw [Bool.not_eq_true] at hudp
    refine .throwIf (fun hnone w hw => ⟨hw.1.1, fun ho => ?_⟩) fun _ => ?_
    · have hopened := (hw.1.2 ho).opened
      rw [← hw.2, hudp, Bool.not_false, Bool.or_true, if_pos rfl] at hopened
      simp [Handler.opened] at hopened
      simp [hopened] at hnone
    · extract_lets jp
      have hjp (r : Except Errno ℤ) :
          Triple (fun w => On A w ∧ ∀ size, r = .ok size → os → 0 ≤ size) (jp r) (fun _ => On A)
            (Raises A os) := by
        cases r with
        | error e => exact .pure fun w hw => hw.1
        | ok size =>
          refine ((keeps_recv env size).pre fun w hw => ⟨hw.1, hw.2 size rfl⟩).bind fun r => ?_
          cases r with
          | ok data => exact (keeps_modifySelf fun _ h => h).bind fun _ => .pure fun _ => id
          | error e => exact .pure fun _ => id
      refine .ite (fun _ => (hjp (.ok BUF_SIZE)).pre fun w hw => ⟨hw.1.1, fun size hs _ => ?_⟩)
        fun hlocal => ?_
      · cases hs
        decide
      · rw [Bool.not_eq_true] at hlocal
        refine Triple.bind (.tryCatch (R := Raises A os) (Triple.bind ((keeps_getReadSize env
          h.recvBufferSize false).pre fun w hw => ⟨hw.1.1, fun ho => ?_⟩) fun size =>
            .pure fun w hw => ⟨hw.1, fun size' hs => ?_⟩) fun e => ?_) hjp
        · rw [hw.2]
          exact (hw.1.2 ho).size (by rw [← hw.2, hudp]) hlocal
        · cases e with
          | os e => exact .pure fun w hw => ⟨hw.1, fun size hs => by cases hs⟩
          | py e => exact .throw fun w hw => hw
        · cases hs
          exact hw.2

/-- What `_on_remote_read` receives. -/
def receivedRemote (c : Setup O P E) (env : Env) (isRemoteSock : Bool) (w : World O P E) :
    Option Bytes :=
  match recvRemote c env isRemoteSock w with
  | .ok (.ok data) _ => some data
  | _ => none

/-- A client makes no other calls while it receives. -/
theorem recvRemote_client (env : Env) (isRemoteSock : Bool) (hlocal : c.isLocal = true) (n : ℕ)
    (o : Option O) :
    Triple (fun w => w.calls = n ∧ w.self.obfs = o) (recvRemote c env isRemoteSock)
      (fun _ w => w.calls = n ∧ w.self.obfs = o) fun _ _ => True := by
  refine triple_self.bind fun h => Triple.pre (J := fun w => w.calls = n ∧ w.self.obfs = o) ?_
    fun _ hw => hw.1
  refine .ite (fun _ => .throwIf (fun _ _ _ => trivial) fun _ => ?_) fun _ =>
    .throwIf (fun _ _ _ => trivial) fun _ => ?_
  · split
    · exact .pure fun _ => id
    · exact .pure fun _ => id
    · split
      · exact .pure fun _ => id
      · exact .throw fun _ _ => trivial
  · extract_lets jp
    refine .ite (fun _ => ?_) fun h => absurd hlocal h
    have hrecv : Triple (fun w => w.calls = n ∧ w.self.obfs = o)
        (recv env BUF_SIZE : Method O P E _) (fun _ w => w.calls = n ∧ w.self.obfs = o)
        fun _ _ => True := by
      unfold recv
      refine .throwIf (fun _ _ _ => trivial) fun _ => ?_
      split <;> exact .pure fun _ => id
    change Triple _ (jp (.ok BUF_SIZE)) _ _
    refine hrecv.bind fun r => ?_
    cases r with
    | ok data =>
      exact .bind (R := fun _ (w : World O P E) => w.calls = n ∧ w.self.obfs = o) (fun _ hw => hw)
        fun _ => .pure fun _ => id
    | error e => exact .pure fun _ => id

theorem recvRemote_spec (os : Prop) (env : Env) (isRemoteSock : Bool) (w₀ : World O P E) :
    Triple (fun w => w = w₀ ∧ On A w ∧ (os → Receives c env isRemoteSock w))
      (recvRemote c env isRemoteSock)
      (fun r w => On A w ∧ (∀ data, r = .ok data → receivedRemote c env isRemoteSock w₀ = some data) ∧
        (c.isLocal = true → w.calls = w₀.calls ∧ w.self.obfs = w₀.self.obfs)) (Raises A os) := by
  rintro w ⟨rfl, hw⟩
  have h := keeps_recvRemote env isRemoteSock w hw
  cases hr : recvRemote c env isRemoteSock w with
  | ok r w' =>
    rw [hr] at h
    refine ⟨h, fun data hdata => ?_, fun hlocal => ?_⟩
    · rw [receivedRemote, hr, hdata]
    · exact (recvRemote_client env isRemoteSock hlocal w.calls w.self.obfs).ok ⟨rfl, rfl⟩ hr
  | error e w' =>
    rw [hr] at h
    exact h

theorem triple_orDestroy {I : World O P E → Prop} {m : Method O P E α} {J : α → World O P E → Prop}
    {R : Raised → World O P E → Prop} (hA : ∀ x, A x → Sane strict k x)
    (h : Triple I m J (Raises A False)) :
    Triple I (orDestroy m) (fun r w => match r with
      | some a => J a w
      | none => On (Sane strict k) w) R :=
  .tryCatch (R := Raises A False) (h.bind fun _ => .pure fun _ => id) fun _ =>
    (triple_destroy.conseq (fun _ hw => hA _ hw.1) (fun _ _ => .inr) fun _ _ => id).bind
      fun _ => .pure fun _ => id

theorem triple_clientRead (env : Env) (data : Bytes) (hos : os → Quiet c.plugins) :
    Triple (fun w => On (Alive strict k) w ∧ ∀ o r, w.self.obfs = some o →
        (c.plugins.clientDecode w.calls o data).1 = .ok r → os → r.2 = true →
          ¬Fatal (env.send w.sends) ∧ w.self.remoteUdp = false)
      (clientRead c env data) (fun _ => On (Sane strict k)) (Raises (Sane strict k) os) := by
  intro w₀ hw₀
  have hsane (x : Core) (hx : x = core w₀) : Sane strict k x := by
    rw [hx]
    exact .inl hw₀.1
  have hdecode := triple_orDestroy (R := Raises (Sane strict k) os) hsane
    (keeps_onObfs_ok (P := P) (E := E) (f := c.plugins.clientDecode) False.elim data
      (p := fun r => os → r.2 = true → ¬Fatal (env.send w₀.sends) ∧ w₀.self.remoteUdp = false))
  refine hdecode.bind (Q := fun _ => On (Sane strict k)) (fun r => ?_) w₀ ⟨rfl, hw₀.2⟩
  cases r with
  | none => exact .pure fun _ => id
  | some r =>
    obtain ⟨data, needSendBack⟩ := r
    dsimp -zeta only
    extract_lets jp
    -- where the data is decrypted, the plugins must be there
    let A (x : Core) : Prop := Sane strict k x ∧ (os → Alive strict k x)
    have hraises {e : Raised} {w : World O P E} (h : Raises A os e w) : Raises (Sane strict k) os e w :=
      h.mono (fun _ h => h.1) id
    have hunpack (data : Bytes) {R : Raised → World O P E → Prop} : Triple (On A) (orDestroy do
        let data ← onProtocol c.plugins.clientPostDecrypt data
        if (← self).recvPackId = 1 then
          let p ← getProtocol
          modifySelf fun h => { h with tcpMss := c.plugins.tcpMss p }
        return data) (fun _ => On (Sane strict k)) R := by
      refine (triple_orDestroy (A := A) (fun _ hx => hx.1) (J := fun _ => On A) ?_).post fun r w hw => ?_
      · refine (keeps_onProtocol False.elim data).bind fun data => ?_
        refine (triple_self.post fun _ _ h => h.1).bind fun h => ?_
        refine .ite (fun _ => ?_) fun _ => .pure fun _ => id
        exact ((keeps_getProtocol False.elim).post fun _ _ h => h.1).bind fun p =>
          (keeps_modifySelf fun _ h => h).bind fun _ => .pure fun _ => id
      · cases r with
        | none => exact hw
        | some data => exact hw.1
    have hjp (u : Unit) : Triple (On A) (jp u) (fun _ => On (Sane strict k))
        (Raises (Sane strict k) os) := by
      refine ((keeps_captureIv data fun ho x hx => (hx.2 ho).protocol).raises fun _ _ =>
        hraises).bind fun _ => ?_
      refine ((keeps_onEncryptor (fun ho => ⟨fun x hx => (hx.2 ho).encryptor, (hos ho).decrypt⟩)
        data).raises fun _ _ => hraises).bind fun data => ?_
      exact hunpack data
    have halive {w : World O P E} (hw : On (· = core w₀) w) : On (Alive strict k) w := by
      rw [On, show core w = core w₀ from hw]
      exact hw₀.1
    refine .ite (fun hback => ?_) fun _ => (hjp ()).pre fun w hw =>
      ⟨.inl (halive hw.1), fun _ => halive hw.1⟩
    refine Triple.pre (J := fun w => (os → needSendBack = true → ¬Fatal (env.send w₀.sends) ∧
        w₀.self.remoteUdp = false) ∧ On (· = core w₀) w) (.intro_pre fun hsafe => ?_) fun w hw =>
      ⟨hw.2, hw.1⟩
    refine ((keeps_onObfs (A := (· = core w₀)) (fun ho : os => ⟨fun x hx => ?_,
      (hos ho).clientEncode⟩) []).raises fun _ _ h => h.mono hsane id).bind fun back => ?_
    · rw [hx]
      exact hw₀.1.obfs
    refine Triple.bind (R := fun _ => On A) ?_ hjp
    by_cases ho : os
    · obtain ⟨hnot, hudp⟩ := hsafe ho hback
      refine (triple_writeToSock_alive env .remoteSock back).conseq (fun w hw => ⟨halive hw, ?_⟩)
        (fun _ w hw => ⟨.inl hw, fun _ => hw⟩) fun _ _ => Raises.sane
      rw [show core w = core w₀ from hw]
      exact ⟨hnot, fun _ => hudp⟩
    · exact (triple_writeToSock env .remoteSock back).conseq (fun w hw => hsane _ hw)
        (fun _ w hw => ⟨hw, fun h => absurd h ho⟩) fun _ _ => id

theorem triple_serverEncodeAll (data : Bytes) (hos : os → Quiet c.plugins) :
    Triple (On (Alive strict k)) (serverEncodeAll c data) (fun _ => On (Alive strict k))
      (Raises (Alive strict k) os) := by
  unfold serverEncodeAll
  extract_lets jp
  have hjp (data : Bytes) : Triple (On (Alive strict k)) (jp data) (fun _ => On (Alive strict k))
      (Raises (Alive strict k) os) := keeps_updateActivity.bind fun _ => .pure fun _ => id
  refine (triple_self.post fun _ _ h => h.1).bind fun h => .ite (fun _ => ?_) fun _ => hjp data
  refine (keeps_onProtocol (fun ho => ⟨fun _ h => h.protocol, (hos ho).serverPreEncrypt⟩) data).bind
    fun data => ?_
  refine (keeps_onEncryptor (fun ho => ⟨fun _ h => h.encryptor, (hos ho).encrypt⟩) data).bind
    fun data => ?_
  exact (keeps_onObfs (fun ho => ⟨fun _ h => h.obfs, (hos ho).serverEncode⟩) data).bind hjp

/-- When a read from the remote raises errors of the system at most: it can be received, and what a
    client sends back for its obfuscation is not fatal. -/
structure RemoteReads (c : Setup O P E) (env : Env) (isRemoteSock : Bool) (w : World O P E) :
    Prop where
  receives : Receives c env isRemoteSock w
  sendsBack : c.isLocal = true → ∀ data o r, receivedRemote c env isRemoteSock w = some data →
    w.self.obfs = some o → (c.plugins.clientDecode w.calls o data).1 = .ok r → r.2 = true →
      ¬Fatal (env.send w.sends) ∧ w.self.remoteUdp = false

theorem triple_onRemoteRead (env : Env) (isRemoteSock : Bool) (hos : os → Quiet c.plugins) :
    Triple (fun w => On (Alive strict k) w ∧ (os → RemoteReads c env isRemoteSock w))
      (onRemoteRead c env isRemoteSock) (fun _ => On (Sane strict k))
      (Raises (Sane strict k) os) := by
  rintro w₀ ⟨halive, hreads⟩
  have halive' {w : World O P E} (h : On (· = core w₀) w) : On (Alive strict k) w := by
    rw [On, show core w = core w₀ from h]
    exact halive
  refine (Triple.bind ((recvRemote_spec os env isRemoteSock w₀ (A := (· = core w₀))).conseq
    (fun w hw => ?_) (fun _ _ => id) fun _ _ h => h.mono (fun _ h => by rw [h]; exact .inl halive) id)
    fun r => ?_ : Triple (· = w₀) (onRemoteRead c env isRemoteSock) (fun _ => On (Sane strict k))
      (Raises (Sane strict k) os)) w₀ rfl
  · subst hw
    exact ⟨rfl, rfl, fun ho => (hreads ho).receives⟩
  have hdestroy : Triple (fun w => On (· = core w₀) w ∧
      (∀ data, r = .ok data → receivedRemote c env isRemoteSock w₀ = some data) ∧
      (c.isLocal = true → w.calls = w₀.calls ∧ w.self.obfs = w₀.self.obfs))
      (destroy : Method O P E Unit) (fun _ => On (Sane strict k)) (Raises (Sane strict k) os) :=
    triple_destroy_sane.pre fun w hw => (halive' hw.1).sane
  cases r with
  | error e =>
    cases e with
    | timedOut => exact .pure fun w hw => (halive' hw.1).sane
    | again => exact .pure fun w hw => (halive' hw.1).sane
    | inProgress => exact hdestroy
    | notConn => exact hdestroy
    | other n => exact hdestroy
  | ok data =>
    cases data with
    | nil => exact hdestroy
    | cons b data =>
      refine (triple_self.post fun _ _ h => h.1).bind fun h => ?_
      refine .ite (fun _ => .pure fun w hw => (halive' hw.1).sane) fun _ => ?_
      refine Triple.bind (R := fun _ => On (Sane strict k)) (.ite (fun hlocal => ?_) fun _ => ?_)
        fun r => ?_
      · refine (triple_clientRead env (b :: data) hos).pre fun w hw =>
          ⟨halive' hw.1, fun o r ho hr h hback => ?_⟩
        obtain ⟨hcalls, hobfs⟩ := hw.2.2 hlocal
        have hcore : core w = core w₀ := hw.1
        rw [show w.sends = w₀.sends from congrArg Core.sends hcore,
          show w.self.remoteUdp = w₀.self.remoteUdp from congrArg Core.remoteUdp hcore]
        rw [hcalls] at hr
        exact (hreads h).sendsBack hlocal _ o r (hw.2.1 _ rfl) (hobfs ▸ ho) hr hback
      · exact .map ((triple_serverEncodeAll _ hos).conseq (fun w hw => halive' hw.1)
          (fun _ _ => On.sane) fun _ _ => Raises.sane)
      · cases r with
        | none => exact .pure fun _ => id
        | some data =>
          exact (triple_guarded_destroy (triple_writeToSock env .localSock data)).bind fun _ =>
            .pure fun _ => id

theorem triple_onLocalWrite (env : Env) :
    Triple (On (Sane strict k)) (onLocalWrite c env) (fun _ => On (Sane strict k))
      (Raises (Sane strict k) os) := by
  refine (triple_self.post fun _ _ h => h.1).bind fun h => .ite (fun _ => ?_) fun _ =>
    keeps_updateStream env _ _
  exact (keeps_modifySelf fun _ h => h).bind fun _ => triple_writeToSock env _ _

theorem triple_onRemoteWrite (env : Env) :
    Triple (On (Alive strict k)) (onRemoteWrite c env) (fun _ => On (Sane strict k))
      (Raises (Sane strict k) os) := by
  refine (triple_setStage (by simp) (by simp)).bind fun _ => ?_
  refine Triple.pre (J := On (Sane strict k)) ?_ fun _ => On.sane
  refine (triple_self.post fun _ _ h => h.1).bind fun h => .ite (fun _ => ?_) fun _ =>
    keeps_updateStream env _ _
  exact (keeps_modifySelf fun _ h => h).bind fun _ => triple_writeToSock env _ _

theorem triple_onLocalError (env : Env) :
    Triple (On (Sane strict k)) (onLocalError env : Method O P E Unit) (fun _ => On (Sane strict k))
      (Raises (Sane strict k) os) := by
  refine (triple_self.post fun _ _ h => h.1).bind fun h => ?_
  extract_lets jp
  have hjp : Triple (On (Sane strict k)) (jp () : Method O P E Unit) (fun _ => On (Sane strict k))
      (Raises (Sane strict k) os) := triple_destroy_sane
  exact .ite (fun _ => (keeps_call _).bind fun _ => hjp) fun _ => hjp

theorem triple_onRemoteError (env : Env) :
    Triple (On (Sane strict k)) (onRemoteError env : Method O P E Unit) (fun _ => On (Sane strict k))
      (Raises (Sane strict k) os) := by
  refine (triple_self.post fun _ _ h => h.1).bind fun h => ?_
  extract_lets jp
  have hjp : Triple (On (Sane strict k)) (jp () : Method O P E Unit) (fun _ => On (Sane strict k))
      (Raises (Sane strict k) os) := triple_destroy_sane
  exact .ite (fun _ => (keeps_call _).bind fun _ => hjp) fun _ => hjp

/-- The event is one to read, and the connection does. -/
def Reads (env : Env) (event : Ready) (w : World O P E) : Prop :=
  (w.self.user.isSome = true → env.knownUser = true) ∧ event.err = false ∧ event.read = true ∧
    env.isExceed = false

/-- What a strict life asks of an event. -/
def SettlesAt (c : Setup O P E) (env : Env) (sock : Sock) (event : Ready) (w : World O P E) : Prop :=
  sock = .localSock → Reads env event w → ∀ data, received c env w = some data →
    Settles c env data (core w)

/-- When an event raises errors of the system at most. -/
def RaisesOsAt (c : Setup O P E) (env : Env) (sock : Sock) (event : Ready) (w : World O P E) :
    Prop :=
  Reads env event w →
    if sock = .localSock then LocalReads c env w else RemoteReads c env (sock = .remoteSock) w

theorem triple_handleEvent (env : Env) (sock : Sock) (event : Ready)
    (hs : c.isLocal = false → strict) (hos : os → Quiet c.plugins) :
    Triple (fun w => On (Alive strict k) w ∧ (strict → SettlesAt c env sock event w) ∧
        (os → RaisesOsAt c env sock event w))
      (handleEvent c env sock event) (fun _ => On (Sane strict k)) (Raises (Sane strict k) os) := by
  rintro w₀ ⟨halive, hsettles, hraises⟩
  have hsane {w : World O P E} (hw : w = w₀) : On (Sane strict k) w := by
    rw [hw]
    exact .inl halive
  refine (triple_self.bind fun h => ?_ : Triple (· = w₀) (handleEvent c env sock event)
    (fun _ => On (Sane strict k)) (Raises (Sane strict k) os)) w₀ rfl
  refine Triple.pre (J := fun w => h = w₀.self ∧ w = w₀) (.intro_pre fun hh => ?_)
    fun w hw => ⟨by rw [hw.2, hw.1], hw.1⟩
  subst hh
  refine .throwIf (fun h => absurd h halive.started) fun _ => ?_
  refine .ite (fun _ => .pure fun w hw => hsane hw) fun _ => ?_
  refine .ite (fun _ => triple_destroy_sane.pre fun w hw => hsane hw) fun huser => ?_
  have hreads (herr : ¬event.err = true) (hread : event.read = true) (hexceed : ¬env.isExceed = true) :
      Reads env event w₀ := by
    refine ⟨fun h => ?_, by simpa using herr, hread, by simpa using hexceed⟩
    simpa [h] using huser
  refine .ite (fun hsock => ?_) fun hsock => ?_
  · subst hsock
    refine .ite (fun _ => (triple_onLocalError env).pre fun w hw => hsane hw) fun herr =>
      .ite (fun hread => .ite (fun _ => ?_) fun hexceed => ?_) fun _ => .ite (fun _ =>
        (triple_onLocalWrite env).pre fun w hw => hsane hw) fun _ => .pure fun w hw => hsane hw
    · exact (keeps_modifySelf fun _ h => h).pre fun w hw => hsane hw
    · refine (triple_onLocalRead env hs hos).pre fun w hw => ?_
      subst hw
      exact ⟨halive, fun h => hsettles h rfl (hreads herr hread hexceed),
        fun h => hraises h (hreads herr hread hexceed)⟩
  · refine .ite (fun _ => (triple_onRemoteError env).pre fun w hw => hsane hw) fun herr =>
      .ite (fun hread => .ite (fun _ => ?_) fun hexceed => ?_) fun _ => .ite (fun _ =>
        (triple_onRemoteWrite env).pre fun w hw => by rw [hw]; exact halive) fun _ =>
          .pure fun w hw => hsane hw
    · exact (keeps_modifySelf fun _ h => h).pre fun w hw => hsane hw
    · refine (triple_onRemoteRead env _ hos).pre fun w hw => ?_
      subst hw
      refine ⟨halive, fun h => ?_⟩
      have := hraises h (hreads herr hread hexceed)
      rwa [if_neg hsock] at this

end

end TcpRelay

end ShadowsocksR

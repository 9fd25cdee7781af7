import ShadowsocksR.TcpRelay.Rules

/-!
# What a connection contacts

The addresses that a connection has connected to or sent datagrams to, with what decides what it
contacts next, its `Egress`. The rules are about conditions on it, which most of the methods of a
server keep whatever they are.

* `Egress`, `At`: a condition on what a connection contacts;
* `Keeps`: a method keeps it, also when it raises;
* `Closed`, `Admits`: what destroying a connection does to it, and a contact that is not forbidden.
-/

namespace ShadowsocksR

namespace TcpRelay

/-- Where an effect goes. -/
def Effect.contact : Effect → Option SockAddr
  | .connect a => some a
  | .sendto a _ => some a
  | _ => none

variable {O P E α β : Type}

/-- What a connection has connected to or sent datagrams to. -/
def Handler.contacts (h : Handler O P E) : List SockAddr := h.log.filterMap Effect.contact

/-- What a connection has contacted, and what decides what it contacts next. -/
structure Egress where
  stage : Stage
  isRedirect : Bool
  remoteUdp : Bool
  /-- `_udp_data_send_buffer` -/
  buffer : Bytes
  /-- `_data_to_write_to_remote` -/
  queue : List Bytes
  contacts : List SockAddr

def Handler.egress (h : Handler O P E) : Egress where
  stage := h.stage
  isRedirect := h.isRedirect
  remoteUdp := h.remoteUdp
  buffer := h.udpDataSendBuffer
  queue := h.dataToWriteToRemote
  contacts := h.contacts

/-- A condition on what a connection contacts. -/
def At (A : Egress → Prop) (w : World O P E) : Prop := A w.self.egress

/-- A method keeps the condition, however it ends. -/
abbrev Keeps (A : Egress → Prop) (m : Method O P E α) : Prop :=
  Triple (At A) m (fun _ => At A) fun _ => At A

/-- Destroying a connection keeps the condition. -/
def Closed (A : Egress → Prop) : Prop := ∀ x, A x → A { x with stage := .destroyed }

/-- A contact that is not forbidden keeps the condition. -/
def Admits (c : Setup O P E) (A : Egress → Prop) : Prop := ∀ x a, A x →
  (x.isRedirect = false → c.forbids a = false) → A { x with contacts := x.contacts ++ [a] }

section

variable {c : Setup O P E} {A B : Egress → Prop} {Q : α → World O P E → Prop}
  {R : Raised → World O P E → Prop}

/-! ## The world -/

theorem uncounted_at : Uncounted (At (O := O) (P := P) (E := E) A) := fun _ _ h => h

theorem at_modifySelf {f : Handler O P E → Handler O P E}
    (hf : ∀ w : World O P E, At A w → At B { w with self := f w.self }) :
    Triple (At A) (modifySelf f) (fun _ => At B) R := hf

theorem egress_log (h : Handler O P E) (es : List Effect) :
    ({ h with log := h.log ++ es } : Handler O P E).egress =
      { h.egress with contacts := h.contacts ++ es.filterMap Effect.contact } := by
  simp only [Handler.egress, Handler.contacts, List.filterMap_append]

theorem at_emit {e : Effect} (he : e.contact = none) : Keeps A (emit e : Method O P E Unit) :=
  at_modifySelf fun w hw => by
    unfold At
    rw [egress_log, List.filterMap_cons_none he, List.filterMap_nil, List.append_nil]
    exact hw

/-- A contact that is not forbidden. -/
theorem at_emit_contact (hA : Admits c A) {e : Effect} {a : SockAddr} (he : e.contact = some a) :
    Triple (fun w => At A w ∧ (w.self.isRedirect = false → c.forbids a = false))
      (emit e : Method O P E Unit) (fun _ => At A) R := by
  rintro w ⟨hw, ha⟩
  show A ({ w.self with log := w.self.log ++ [e] } : Handler O P E).egress
  rw [egress_log, List.filterMap_cons_some he, List.filterMap_nil]
  exact hA _ a hw ha

theorem at_ask (f : ℕ → α) : Keeps A (ask f : Method O P E α) := triple_ask uncounted_at f

theorem at_call (f : ℕ → Except Errno α) : Keeps A (call f : Method O P E α) :=
  (triple_call uncounted_at f).raises fun _ _ h => h.1

/-- What the call returns is one of its outcomes. -/
theorem at_callRaising_ok (f : ℕ → Except Raised α) :
    Triple (At A) (callRaising f : Method O P E α) (fun a w => At A w ∧ ∃ n, f n = .ok a)
      fun _ => At A := by
  refine Triple.bind (R := fun r w => At A w ∧ ∃ n, f n = r) (fun w hw => ⟨hw, w.calls, rfl⟩)
    fun r => ?_
  cases r with
  | ok a => exact .pure fun _ => id
  | error e => exact .throw fun _ hw => hw.1

theorem at_callRaising (f : ℕ → Except Raised α) : Keeps A (callRaising f : Method O P E α) :=
  (at_callRaising_ok f).post fun _ _ h => h.1

theorem at_setStage {s : Stage} (hA : ∀ x, A x → A { x with stage := s }) :
    Keeps A (setStage s : Method O P E Unit) :=
  Triple.bind (R := fun _ => At A) (fun w hw => hA w.self.egress hw) fun _ => at_emit rfl

theorem at_updateStream (env : Env) (stream : Stream) (status : WaitStatus) :
    Keeps A (updateStream env stream status : Method O P E Unit) :=
  (updateStream_spec uncounted_at env stream status).conseq
    (fun w hw => by cases stream <;> exact hw) (fun _ _ => id) fun _ _ h => h.1

theorem at_updateActivity : Keeps A (updateActivity : Method O P E Unit) :=
  .get_bind fun w hw => .modify fun w' hw' => by subst hw'; exact hw

theorem at_self {m : Handler O P E → Method O P E α} (hm : ∀ h, Keeps A (m h)) :
    Keeps A (self >>= m) :=
  (triple_self.post fun _ _ h => h.1).bind hm

theorem at_throw (e : Raised) : Keeps A (throw e : Method O P E α) := .throw fun _ => id

theorem at_destroy (hA : Closed A) : Keeps A (destroy : Method O P E Unit) := by
  refine at_self fun h => ?_
  have hlive : Keeps A (do
      setStage .destroyed
      emit .destroy
      modifySelf fun h =>
        { h with
          remoteSock := false
          remoteSockV6 := false
          localSock := false
          polled := fun _ => false
          mapped := false
          obfs := none
          protocol := none
          encryptor := none
          dnsPending := false }
      let me := (← get).me
      modifyServer fun s =>
        { s with
          timeoutCache := s.timeoutCache.filter (· ≠ me)
          serverConnections := if h.addRef then s.serverConnections - 1 else s.serverConnections } :
      Method O P E Unit) :=
    (at_setStage hA).bind fun _ => (at_emit rfl).bind fun _ =>
      (at_modifySelf fun _ h => h).bind fun _ =>
        .get_bind fun w hw => .modify fun w' hw' => by subst hw'; exact hw
  split
  · exact at_throw _
  · exact .pure fun _ => id
  · exact hlive

/-- What `except Exception` makes of methods that keep the condition. -/
theorem at_guarded {m onError : Method O P E Unit} (hm : Keeps A m) (hE : Keeps A onError) :
    Keeps A (guarded m onError) :=
  .tryCatch (hm.bind fun _ => .pure fun _ => id) fun _ => hE.bind fun _ => .pure fun _ => id

/-! ## Plugins -/

theorem at_onPlugin {S : Type} {get : Handler O P E → Option S}
    {put : S → Handler O P E → Handler O P E} {f : ℕ → S → Bytes → Except PyExc α × S}
    (hput : ∀ s h, (put s h).egress = h.egress) (data : Bytes) :
    Keeps A (onPlugin get put f data) := by
  refine at_self fun h => ?_
  split
  · exact at_throw _
  · refine (at_ask id).bind fun n => ?_
    refine (at_modifySelf (B := A) fun w hw => by unfold At; rw [hput]; exact hw).bind fun _ => ?_
    split
    · exact .pure fun _ => id
    · exact at_throw _

theorem at_onObfs {f : ℕ → O → Bytes → Except PyExc α × O} (data : Bytes) :
    Keeps A (onObfs f data : Method O P E α) := at_onPlugin (fun s h => by rfl) data

theorem at_onProtocol {f : ℕ → P → Bytes → Except PyExc α × P} (data : Bytes) :
    Keeps A (onProtocol f data : Method O P E α) := at_onPlugin (fun s h => by rfl) data

theorem at_onEncryptor {f : ℕ → E → Bytes → Except PyExc α × E} (data : Bytes) :
    Keeps A (onEncryptor f data : Method O P E α) := at_onPlugin (fun s h => by rfl) data

theorem at_getObfs : Keeps A (getObfs : Method O P E O) := at_self fun h => by
  split
  · exact at_throw _
  · exact .pure fun _ => id

theorem at_getProtocol : Keeps A (getProtocol : Method O P E P) := at_self fun h => by
  split
  · exact at_throw _
  · exact .pure fun _ => id

theorem at_updateOverhead : Keeps A (updateOverhead c) :=
  at_getObfs.bind fun _ => at_getProtocol.bind fun _ => at_modifySelf fun _ h => h

theorem at_captureIv (data : Bytes) : Keeps A (captureIv c data) :=
  at_getProtocol.bind fun _ => .ite (fun _ => at_modifySelf fun _ h => h) fun _ => .pure fun _ => id

theorem at_updateUser (user : Bytes) : Keeps A (updateUser user : Method O P E Unit) :=
  (at_modifySelf fun _ h => h).bind fun _ =>
    .ite (fun _ => at_throw _) fun _ => .pure fun _ => id

theorem at_serverPostDecrypt (data : Bytes) : Keeps A (serverPostDecrypt c data) := by
  refine at_self fun h => ?_
  split
  · exact at_throw _
  · next p _ =>
    refine (at_ask id).bind fun n => ?_
    obtain ⟨r, user, p⟩ := c.plugins.serverPostDecrypt n p data
    refine (at_modifySelf fun _ h => h).bind fun _ => ?_
    extract_lets jp
    have hjp : Keeps A (jp ()) := by
      cases r with
      | ok r => exact .pure fun _ => id
      | error e => exact at_throw _
    cases user with
    | none => exact hjp
    | some user => exact (at_updateUser user).bind fun _ => hjp

/-! ## Writing to the client -/

/-- What is left for the client is queued. -/
theorem at_afterSend_local (env : Env) (data : Bytes) (uncomplete : Bool) :
    Keeps A (afterSend env .localSock data uncomplete : Method O P E Unit) := by
  cases uncomplete with
  | true => exact (at_modifySelf fun _ h => h).bind fun _ => at_updateStream env _ _
  | false => exact at_updateStream env _ _

/-- What is left for the remote is queued. -/
theorem at_afterSend_remote (hA : ∀ x queue, A x → A { x with queue }) (env : Env) (data : Bytes)
    (uncomplete : Bool) :
    Keeps A (afterSend env .remoteSock data uncomplete : Method O P E Unit) := by
  cases uncomplete with
  | true =>
    exact Triple.bind (R := fun _ => At A) (fun w hw => hA w.self.egress _ hw) fun _ =>
      at_updateStream env _ _
  | false => exact at_updateStream env _ _

theorem at_send (env : Env) (sock : Sock) (data : Bytes) :
    Keeps A (send env sock data : Method O P E _) := by
  intro w hw
  rw [send_eq]
  show A ({ w.self with log := w.self.log ++ accepted sock data (env.send w.sends) } :
    Handler O P E).egress
  have hnone : (accepted sock data (env.send w.sends)).filterMap Effect.contact = [] := by
    cases env.send w.sends <;> rfl
  rw [egress_log, hnone, List.append_nil]
  exact hw

theorem at_writeToSock_local (hA : Closed A) (env : Env) (data : Bytes) :
    Keeps A (writeToSock c env data .localSock) := by
  refine at_self fun h => .ite (fun _ => .pure fun _ => id) fun _ => .ite (fun hudp => ?_) fun _ => ?_
  · simp at hudp
  · refine at_updateActivity.bind fun _ => .ite (fun _ => .pure fun _ => id) fun _ => ?_
    refine (at_send env .localSock data).bind fun r => ?_
    split
    · exact at_afterSend_local env _ _
    · exact at_afterSend_local env _ _
    · exact at_afterSend_local env _ _
    · exact at_destroy hA

/-! ## Reading from the client -/

theorem at_sendBack (hA : Closed A) (env : Env) : Keeps A (sendBack c env) :=
  (at_onProtocol _).bind fun _ => (at_onEncryptor _).bind fun _ => (at_onObfs _).bind fun _ =>
    at_guarded (at_writeToSock_local hA env _) (at_destroy hA)

theorem at_serverDecode (hA : Closed A) (data : Bytes) : Keeps A (serverDecode c data) := by
  refine .tryCatch ?_ fun _ => (at_destroy hA).bind fun _ => .pure fun _ => id
  refine (at_onObfs _).bind fun r => at_self fun h => .ite (fun _ => ?_) fun _ => .pure fun _ => id
  exact at_updateOverhead.bind fun _ => at_getProtocol.bind fun _ =>
    (at_modifySelf fun _ h => h).bind fun _ => .pure fun _ => id

theorem at_serverUnpack (hA : Closed A) (env : Env) (data : Bytes) :
    Keeps A (serverUnpack c env data) := by
  refine .tryCatch ?_ fun _ => (at_destroy hA).bind fun _ => .pure fun _ => id
  refine (at_serverPostDecrypt _).bind fun r => .ite (fun _ => ?_) fun _ => .pure fun _ => id
  exact (at_sendBack hA env).bind fun _ => .ite (fun _ => .pure fun _ => id) fun _ => .pure fun _ => id

theorem at_serverRead (hA : Closed A) (env : Env) (data : Bytes) :
    Keeps A (serverRead c env data) := by
  refine (at_serverDecode hA data).bind fun r => ?_
  cases r with
  | none => exact .pure fun _ => id
  | some r =>
    obtain ⟨data, needDecrypt, needSendBack⟩ := r
    dsimp -zeta only
    extract_lets jpUnpack jp
    have hjp (goesOn : Bool) : Keeps A (jp goesOn) := by
      refine .ite (fun _ => .pure fun _ => id) fun _ => .ite (fun _ => ?_) fun _ => ?_
      · exact (at_captureIv data).bind fun _ => (at_onEncryptor data).bind fun data =>
          at_serverUnpack hA env data
      · exact at_serverUnpack hA env data
    refine .ite (fun _ => ?_) fun _ => hjp true
    exact (at_onObfs []).bind fun back =>
      (at_guarded (at_writeToSock_local hA env back) (at_destroy hA)).bind hjp

/-! ## Reading from the remote -/

theorem at_getReadSize (env : Env) (recvBufferSize : ℤ) (up : Bool) :
    Keeps A (getReadSize env recvBufferSize up : Method O P E ℤ) := by
  refine at_self fun h => .ite (fun _ => .pure fun _ => id) fun _ => ?_
  refine .throwIf (fun _ _ => id) fun _ => (at_call _).bind fun available => ?_
  extract_lets bufferSize frameSize size
  refine (at_modifySelf fun _ h => by cases up <;> exact h).bind fun _ => ?_
  refine .ite (fun _ => .pure fun _ => id) fun _ => .ite (fun _ => ?_) fun _ => .pure fun _ => id
  exact .throwIf (fun _ _ => id) fun _ => .pure fun _ => id

theorem at_recv (env : Env) (size : ℤ) : Keeps A (recv env size : Method O P E _) := by
  refine .throwIf (fun _ _ => id) fun _ => ?_
  split
  · exact .pure fun _ => id
  · exact .pure fun _ => id

theorem at_recvRemote (env : Env) (isRemoteSock : Bool) :
    Keeps A (recvRemote c env isRemoteSock) := by
  refine at_self fun h => .ite (fun _ => ?_) fun _ => ?_
  · refine .throwIf (fun _ _ => id) fun _ => ?_
    split
    · exact .pure fun _ => id
    · exact .pure fun _ => id
    · split
      · exact .pure fun _ => id
      · exact at_throw _
  · refine .throwIf (fun _ _ => id) fun _ => ?_
    extract_lets jp
    have hjp (r : Except Errno ℤ) : Keeps A (jp r) := by
      cases r with
      | error e => exact .pure fun _ => id
      | ok size =>
        refine (at_recv env size).bind fun r => ?_
        cases r with
        | ok data => exact (at_modifySelf fun _ h => h).bind fun _ => .pure fun _ => id
        | error e => exact .pure fun _ => id
    refine .ite (fun _ => hjp (.ok BUF_SIZE)) fun _ => Triple.bind ?_ hjp
    refine .tryCatch ((at_getReadSize env _ _).bind fun _ => .pure fun _ => id) fun e => ?_
    cases e with
    | os e => exact .pure fun _ => id
    | py e => exact at_throw _

theorem at_serverEncodeAll (data : Bytes) : Keeps A (serverEncodeAll c data) := by
  refine at_self fun h => ?_
  extract_lets jp
  have hjp (data : Bytes) : Keeps A (jp data) := at_updateActivity.bind fun _ => .pure fun _ => id
  refine .ite (fun _ => ?_) fun _ => hjp data
  exact (at_onProtocol data).bind fun data => (at_onEncryptor data).bind fun data =>
    (at_onObfs data).bind hjp

/-- A server passes what it receives on to its client. -/
theorem at_onRemoteRead (hA : Closed A) (env : Env) (isRemoteSock : Bool)
    (hlocal : c.isLocal = false) : Keeps A (onRemoteRead c env isRemoteSock) := by
  refine (at_recvRemote env isRemoteSock).bind fun r => ?_
  split
  · exact .pure fun _ => id
  · exact .pure fun _ => id
  · exact at_destroy hA
  · exact at_destroy hA
  · refine at_self fun h => .ite (fun _ => .pure fun _ => id) fun _ => ?_
    refine Triple.bind (R := fun _ => At A) (.ite (fun h => ?_) fun _ => .map (at_serverEncodeAll _))
      fun r => ?_
    · cases hlocal.symm.trans h
    · cases r with
      | none => exact .pure fun _ => id
      | some data =>
        exact (at_guarded (at_writeToSock_local hA env data) (at_destroy hA)).bind fun _ =>
          .pure fun _ => id

/-! ## Other events -/

theorem at_onLocalWrite (hA : Closed A) (env : Env) : Keeps A (onLocalWrite c env) :=
  at_self fun _ => .ite (fun _ => (at_modifySelf fun _ h => h).bind fun _ =>
    at_writeToSock_local hA env _) fun _ => at_updateStream env _ _

theorem at_onLocalError (hA : Closed A) (env : Env) :
    Keeps A (onLocalError env : Method O P E Unit) :=
  at_self fun _ => .ite (fun _ => (at_call _).bind fun _ => at_destroy hA) fun _ => at_destroy hA

theorem at_onRemoteError (hA : Closed A) (env : Env) :
    Keeps A (onRemoteError env : Method O P E Unit) :=
  at_self fun _ => .ite (fun _ => (at_call _).bind fun _ => at_destroy hA) fun _ => at_destroy hA

/-! ## Sockets -/

theorem at_openSocket (env : Env) (sock : Sock) :
    Keeps A (openSocket env sock : Method O P E Unit) :=
  (at_call env.socket).bind fun _ => (at_emit rfl).bind fun _ =>
    at_modifySelf fun _ h => by cases sock <;> exact h

theorem at_addToLoop (env : Env) (sock : Sock) :
    Keeps A (addToLoop env sock : Method O P E Unit) :=
  (at_call env.loopAdd).bind fun _ => (at_emit rfl).bind fun _ => at_modifySelf fun _ h => h

/-- A connection that goes on is not to a forbidden address. -/
theorem at_checkForbidden (a : SockAddr) :
    Triple (At A) (checkForbidden c a : Method O P E Unit)
      (fun _ w => At A w ∧ c.forbids a = false) fun _ => At A := by
  refine .throwIf (fun _ _ => id) fun hip => .ite (fun _ => .throw fun _ => id) fun hport =>
    .pure fun w hw => ⟨hw, ?_⟩
  rw [Setup.forbids, Bool.or_eq_false_iff]
  exact ⟨by simpa using hip, by simpa using hport⟩

/-- `getaddrinfo` of an address finds this address, if any. -/
theorem at_getaddrinfo (env : Env) (addr : IPAddr) :
    Triple (At A) (getaddrinfo env (.ip addr) : Method O P E (List IPAddr))
      (fun addrs w => At A w ∧ ∀ addr' ∈ addrs, addr' = addr) fun _ => At A := by
  refine (at_call env.getaddrinfo).bind fun addrs => ?_
  split
  · exact .pure fun w hw => ⟨hw, nofun⟩
  · exact .pure fun w hw => ⟨hw, fun addr' h => List.mem_singleton.1 h⟩

/-- When there is a socket, the address is not forbidden, unless the socket is for datagrams or the
    connection is redirected. -/
theorem at_createRemoteSocket (env : Env) (addr : IPAddr) (port : ℕ) :
    Triple (At A) (createRemoteSocket c env (.ip addr) port)
      (fun _ w => At A w ∧ (w.self.remoteUdp = false → w.self.isRedirect = false →
        c.forbids ⟨addr, port⟩ = false)) fun _ => At A := by
  refine triple_self.bind fun h => ?_
  -- nothing that follows changes what the handler has looked at
  let B (x : Egress) : Prop := A x ∧ x.remoteUdp = h.remoteUdp ∧ x.isRedirect = h.isRedirect
  refine Triple.pre (J := At B) ?_ fun w hw => ⟨hw.1, by rw [hw.2]; rfl, by rw [hw.2]; rfl⟩
  have hkeeps {α : Type} {m : Method O P E α} (hm : Keeps B m) :
      Triple (At B) m (fun _ => At B) fun _ => At A := hm.raises fun _ _ h => h.1
  have hbind : Keeps B (callRaising env.bindAddr : Method O P E Unit) := at_callRaising _
  refine .ite (fun hudp => ?_) fun hudp => ?_
  · have hudpSockets : Triple (At B) (do
        let addrsV6 ← call env.getaddrinfo
        let addrs ← call env.getaddrinfo
        if addrs = [] then throw (.py .exception)
        openSocket env .remoteSock
        if addrsV6 = [] then throw (.py .indexError)
        openSocket env .remoteSockV6
        call env.socket
        if !c.isLocal then
          callRaising env.bindAddr
          callRaising env.bindAddr : Method O P E Unit) (fun _ => At B) fun _ => At A := by
      refine hkeeps ((at_call _).bind fun addrsV6 => (at_call _).bind fun addrs => ?_)
      refine .throwIf (fun _ _ => id) fun _ => (at_openSocket env _).bind fun _ => ?_
      refine .throwIf (fun _ _ => id) fun _ => (at_openSocket env _).bind fun _ => ?_
      refine (at_call _).bind fun _ => .ite (fun _ => ?_) fun _ => .pure fun _ => id
      exact hbind.bind fun _ => hbind
    exact hudpSockets.post fun _ w hw =>
      ⟨hw.1, fun hno => absurd (hw.2.1.symm.trans hno) (by simp [hudp])⟩
  · refine ((at_getaddrinfo env addr).raises fun _ _ h => h.1).bind fun addrs => ?_
    split
    · exact .throw fun w hw => hw.1.1
    · next addr' _ =>
      refine Triple.pre (J := fun w => addr' = addr ∧ At B w) (.intro_pre fun haddr => ?_)
        fun w hw => ⟨hw.2 addr' List.mem_cons_self, hw.1⟩
      subst haddr
      have hrest : Triple (At B) (do
          openSocket env .remoteSock
          call env.socket
          if !c.isLocal then callRaising env.bindAddr : Method O P E Unit)
          (fun _ => At B) fun _ => At A :=
        hkeeps ((at_openSocket env _).bind fun _ => (at_call _).bind fun _ =>
          .ite (fun _ => hbind) fun _ => .pure fun _ => id)
      refine .ite (fun _ => ?_) fun hredirect => ?_
      · refine ((at_checkForbidden _).raises fun _ _ h => h.1).bind fun _ => ?_
        refine Triple.pre (J := fun w => c.forbids ⟨addr', port⟩ = false ∧ At B w)
          (.intro_pre fun hallowed => ?_) fun w hw => ⟨hw.2, hw.1⟩
        exact hrest.post fun _ w hw => ⟨hw.1, fun _ _ => hallowed⟩
      · exact hrest.post fun _ w hw =>
          ⟨hw.1, fun _ hno => absurd (hw.2.2.symm.trans hno) (by simpa using hredirect)⟩

end

end TcpRelay

end ShadowsocksR

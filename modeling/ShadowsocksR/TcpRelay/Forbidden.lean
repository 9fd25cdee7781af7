import ShadowsocksR.TcpRelay.Egress
import ShadowsocksR.TcpRelay.Loop

/-!
# Forbidden destinations

A server does not connect to addresses of `forbidden_ip` and ports of `forbidden_port`: they are
checked when the socket for a request is made. With UDP over TCP the socket is for datagrams to any
destination, which a client puts into its frames, and these are not checked.

* `Asks`: the requests of the frames that are complete in a buffer;
* `Setup.Permits`: the destination of such a request is not forbidden;
* `Clean`: what is kept while datagrams leave the buffer;
* `Event.Permitted`: no datagram that an event makes a connection send is for a forbidden
  destination;
* `obeys_of_permitted`: in every run of such events, a connection that is not redirected contacts no
  forbidden destination.
-/

namespace ShadowsocksR

namespace TcpRelay

variable {O P E α : Type}

/-! ## The requests of frames -/

/-- The length of the first frame of a buffer. -/
def frameLength (buffer : Bytes) : ℕ := unpackBE (buffer.take 2)

/-- The first frame is complete, so that it leaves the buffer. -/
def HasFrame (buffer : Bytes) : Prop := ¬(buffer.length ≤ 6 ∨ frameLength buffer > buffer.length)

/-- The first frame has a request. -/
def FrameAsks (buffer : Bytes) (header : RequestHeader) : Prop :=
  (buffer.take (frameLength buffer))[2]? = some 0 ∧
    parseHeader ((buffer.take (frameLength buffer)).drop 3) = .ok (some header)

/-- One of the complete frames of a buffer has a request. -/
inductive Asks : Bytes → RequestHeader → Prop
  | here {buffer : Bytes} {header : RequestHeader} :
    HasFrame buffer → FrameAsks buffer header → Asks buffer header
  | later {buffer : Bytes} {header : RequestHeader} :
    HasFrame buffer → Asks (buffer.drop (frameLength buffer)) header → Asks buffer header

/-- What follows a complete frame does not change it. -/
theorem HasFrame.append {buffer : Bytes} (h : HasFrame buffer) (more : Bytes) :
    HasFrame (buffer ++ more) ∧ frameLength (buffer ++ more) = frameLength buffer ∧
      frameLength buffer ≤ buffer.length := by
  rw [HasFrame, not_or, not_le, not_lt] at h
  have hlength : frameLength (buffer ++ more) = frameLength buffer := by
    rw [frameLength, frameLength, List.take_append_of_le_length (by omega)]
  refine ⟨?_, hlength, h.2⟩
  rw [HasFrame, hlength, List.length_append]
  omega

/-- The frames that are complete are the first ones of a longer buffer. -/
theorem Asks.append {buffer : Bytes} {header : RequestHeader} (h : Asks buffer header)
    (more : Bytes) : Asks (buffer ++ more) header := by
  induction h with
  | here hframe hasks =>
    obtain ⟨hframe', hlength, hle⟩ := hframe.append more
    refine .here hframe' ?_
    rwa [FrameAsks, hlength, List.take_append_of_le_length hle]
  | later hframe _ ih =>
    obtain ⟨hframe', hlength, hle⟩ := hframe.append more
    refine .later hframe' ?_
    rwa [hlength, List.drop_append_of_le_length hle]

/-- The request is not for a forbidden destination: not for a forbidden address, nor for a name that
    the resolver has a forbidden address for. -/
def Setup.Permits (c : Setup O P E) (env : Env) (header : RequestHeader) : Prop :=
  match header.destAddr with
  | .ip addr => c.forbids ⟨addr, header.destPort⟩ = false
  | .host name =>
    match c.isIp name with
    | some addr => c.forbids ⟨addr, header.destPort⟩ = false
    | none => ∀ n addr, env.resolve n = .ok (some (.ip addr)) →
        c.forbids ⟨addr, header.destPort⟩ = false

/-- No datagram that is complete in a buffer is for a forbidden destination. -/
def Setup.PermitsAll (c : Setup O P E) (env : Env) (buffer : Bytes) : Prop :=
  ∀ header, Asks buffer header → c.Permits env header

theorem Setup.PermitsAll.permits {c : Setup O P E} {env : Env} {buffer more : Bytes}
    (h : c.PermitsAll env (buffer ++ more)) (hframe : HasFrame buffer) {header : RequestHeader}
    (hasks : FrameAsks buffer header) : c.Permits env header :=
  h header ((Asks.here hframe hasks).append more)

/-- What the frames after the first one ask for. -/
theorem Setup.PermitsAll.drop {c : Setup O P E} {env : Env} {buffer more : Bytes}
    (h : c.PermitsAll env (buffer ++ more)) (hframe : HasFrame buffer) :
    c.PermitsAll env (buffer.drop (frameLength buffer) ++ more) := by
  obtain ⟨hframe', hlength, hle⟩ := hframe.append more
  intro header hasks
  refine h header (.later hframe' ?_)
  rwa [hlength, List.drop_append_of_le_length hle]

/-! ## Datagrams -/

variable {c : Setup O P E} {env : Env} {A : Egress → Prop} {f : List Bytes → Bytes}

/-- A connection that is not redirected has contacted no forbidden destination. -/
def Obeys (c : Setup O P E) (x : Egress) : Prop :=
  x.isRedirect = false → ∀ a ∈ x.contacts, c.forbids a = false

/-- It has not, and will not when the datagrams in its buffer are sent, and with them a part of what
    is queued. -/
def Clean (c : Setup O P E) (env : Env) (f : List Bytes → Bytes) (x : Egress) : Prop :=
  x.isRedirect = false → (∀ a ∈ x.contacts, c.forbids a = false) ∧
    (x.remoteUdp = true → c.PermitsAll env (x.buffer ++ f x.queue))

theorem Clean.obeys {x : Egress} (h : Clean c env f x) : Obeys c x := fun hx => (h hx).1

theorem closed_obeys : Closed (Obeys c) := fun _ h => h

theorem closed_clean : Closed (Clean c env f) := fun _ h => h

theorem admits_obeys : Admits c (Obeys c) := by
  intro x a hx ha hno b hb
  rcases List.mem_append.1 hb with hb | hb
  · exact hx hno b hb
  · rw [List.mem_singleton.1 hb]
    exact ha hno

theorem admits_clean : Admits c (Clean c env f) := fun _ a hx ha hno =>
  ⟨admits_obeys _ a hx.obeys ha hno, (hx hno).2⟩

/-- A datagram to a destination that is not forbidden. -/
theorem at_handleServerDnsResolved (hA : Admits c A) (env : Env) (addr : IPAddr) (port : ℕ)
    (data : Bytes) :
    Triple (fun w => At A w ∧ (w.self.isRedirect = false → c.forbids ⟨addr, port⟩ = false))
      (handleServerDnsResolved env addr port data : Method O P E Unit) (fun _ => At A)
      fun _ => At A := by
  refine .tryCatch (R := fun _ => At A) ?_ fun _ => .pure fun _ => id
  let B (x : Egress) : Prop := A x ∧ (x.isRedirect = false → c.forbids ⟨addr, port⟩ = false)
  have hsend : Triple (At B) (do
      emit (.sendto ⟨addr, port⟩ data)
      let _ ← call env.sendto : Method O P E Unit) (fun _ => At A) fun _ => At A :=
    (at_emit_contact hA rfl).bind fun _ => (at_call env.sendto).bind fun _ => .pure fun _ => id
  have hnone : Triple (At B) (throw (.py .attributeError) : Method O P E Unit) (fun _ => At A)
      fun _ => At A := .throw fun _ h => h.1
  refine ((at_call (A := B) env.getaddrinfo).raises fun _ _ h => h.1).bind fun addrs => ?_
  cases addrs with
  | nil => exact .pure fun _ h => h.1
  | cons _ _ =>
    refine (triple_self.post fun _ _ h => h.1).bind fun h => ?_
    cases addr.family with
    | inet6 => exact .ite (fun _ => hsend) fun _ => hnone
    | inet => exact .ite (fun _ => hsend) fun _ => hnone

theorem at_udpDnsResolved (hA : Admits c A) (env : Env) (port : ℕ) (data : Bytes)
    (answer : DnsAnswer) :
    Triple (fun w => At A w ∧ (w.self.isRedirect = false → ∀ addr, answer = .ip addr →
        c.forbids ⟨addr, port⟩ = false))
      (udpDnsResolved env port data answer : Method O P E Unit) (fun _ => At A)
      fun _ => At A := by
  cases answer with
  | ip addr =>
    exact (at_handleServerDnsResolved hA env addr port data).pre fun w hw =>
      ⟨hw.1, fun hno => hw.2 hno addr rfl⟩
  | error => exact .pure fun _ h => h.1
  | nothing => exact .pure fun _ h => h.1

/-- What is asked for by a frame that leaves the buffer is permitted, and what is asked for by the
    frames that are left. -/
theorem clean_takeFrame {h : Handler O P E} (hframe : HasFrame h.udpDataSendBuffer)
    {R : Raised → World O P E → Prop} :
    Triple (fun w => At (fun x => Clean c env f x ∧ x.remoteUdp = true) w ∧ h = w.self)
      (modifySelf fun h' => { h' with
        udpDataSendBuffer := h.udpDataSendBuffer.drop (frameLength h.udpDataSendBuffer) })
      (fun _ w => At (fun x => Clean c env f x ∧ x.remoteUdp = true) w ∧
        (w.self.isRedirect = false → ∀ header, FrameAsks h.udpDataSendBuffer header →
          c.Permits env header)) R := by
  rintro w ⟨⟨hclean, hudp⟩, rfl⟩
  have hpermits (hno : w.self.isRedirect = false) := (hclean hno).2 hudp
  exact ⟨⟨fun hno => ⟨(hclean hno).1, fun _ => (hpermits hno).drop hframe⟩, hudp⟩,
    fun hno _ hasks => (hpermits hno).permits hframe hasks⟩

/-- The datagrams that leave the buffer are for destinations that are not forbidden. -/
theorem clean_udpLoop (fuel : ℕ) :
    Keeps (fun x => Clean c env f x ∧ x.remoteUdp = true) (udpLoop c env fuel) := by
  let B (x : Egress) : Prop := Clean c env f x ∧ x.remoteUdp = true
  have hB : Admits c B := fun x a hx ha => ⟨admits_clean x a hx.1 ha, hx.2⟩
  induction fuel with
  | zero => exact .pure fun _ => id
  | succ fuel ih =>
    refine triple_self.bind fun h => .ite (fun _ => .pure fun _ hw => hw.1) fun hframe => ?_
    refine (clean_takeFrame hframe).bind fun _ => ?_
    have ih' {p : World O P E → Prop} : Triple (fun w => At B w ∧ p w) (udpLoop c env fuel)
        (fun _ => At B) fun _ => At B := ih.pre fun _ hw => hw.1
    have hthrow {p : World O P E → Prop} (e : Raised) : Triple (fun w => At B w ∧ p w)
        (throw e : Method O P E Unit) (fun _ => At B) fun _ => At B := .throw fun _ hw => hw.1
    split
    · exact hthrow _
    · next frag hfrag =>
      refine .ite (fun _ => ih') fun hzero => ?_
      extract_lets data
      split
      · exact hthrow _
      · exact ih'
      · next header hparse =>
        extract_lets payload
        have hasks : FrameAsks h.udpDataSendBuffer header :=
          ⟨by rw [not_not.1 hzero] at hfrag; exact hfrag, hparse⟩
        refine Triple.pre (J := fun w => At B w ∧ (w.self.isRedirect = false →
          c.Permits env header)) ?_ fun w hw => ⟨hw.1, fun hno => hw.2 hno header hasks⟩
        unfold Setup.Permits
        cases header.destAddr with
        | ip addr => exact at_handleServerDnsResolved hB env _ _ _
        | host name =>
          dsimp only
          cases c.isIp name with
          | some addr => exact at_handleServerDnsResolved hB env _ _ _
          | none =>
            -- the resolver may answer at once
            let D (x : Egress) : Prop := B x ∧ (x.isRedirect = false → ∀ n addr,
              env.resolve n = .ok (some (.ip addr)) → c.forbids ⟨addr, header.destPort⟩ = false)
            refine ((at_callRaising_ok (A := D) env.resolve).raises fun _ _ hw => hw.1).bind
              fun answer => ?_
            cases answer with
            | none => exact Triple.bind (R := fun _ => At B) (fun w hw => hw.1.1) fun _ => ih
            | some answer =>
              refine Triple.bind ((at_udpDnsResolved hB env _ _ answer).pre fun w hw =>
                ⟨hw.1.1, fun hno addr haddr => ?_⟩) fun _ => ih
              obtain ⟨n, hn⟩ := hw.2
              exact hw.1.2 hno n addr (by rw [hn, haddr])

theorem clean_writeUdp (data : Bytes) :
    Triple (At fun x => Clean c env (fun queue => data ++ f queue) x ∧ x.remoteUdp = true)
      (writeUdp c env data) (fun _ => At (Clean c env f)) fun _ => At (Clean c env f) := by
  let B (x : Egress) : Prop := Clean c env f x ∧ x.remoteUdp = true
  have hclean {w : World O P E} (hw : At B w) : At (Clean c env f) w := hw.1
  refine .tryCatch (R := fun _ => At B) ?_ fun e => ?_
  · refine Triple.bind (R := fun _ => At B) (fun w hw => ⟨fun hno => ?_, hw.2⟩) fun _ =>
      (at_self fun _ => clean_udpLoop _).post fun _ _ => hclean
    obtain ⟨hobeys, hpermits⟩ := hw.1 hno
    refine ⟨hobeys, fun hudp => ?_⟩
    show c.PermitsAll env (w.self.udpDataSendBuffer ++ data ++ f w.self.dataToWriteToRemote)
    rw [List.append_assoc]
    exact hpermits hudp
  · have hdestroy : Triple (At B) (destroy : Method O P E Unit) (fun _ => At (Clean c env f))
        fun _ => At (Clean c env f) := (at_destroy closed_clean).pre fun _ => hclean
    have hskip : Triple (At B) (pure () : Method O P E Unit) (fun _ => At (Clean c env f))
        fun _ => At (Clean c env f) := .pure fun _ => hclean
    cases e with
    | os e => cases e <;> assumption
    | py e => exact hdestroy

/-- A connection has contacted no forbidden destination, and does not while it has a socket. -/
def Sends (c : Setup O P E) (env : Env) (f : List Bytes → Bytes) (w : World O P E) : Prop :=
  At (Obeys c) w ∧ (w.self.remoteSock = true → At (Clean c env f) w)

theorem Sends.of_clean {w : World O P E} (h : At (Clean c env f) w) : Sends c env f w :=
  ⟨h.obeys, fun _ => h⟩

theorem sends_writeToSock (data : Bytes) :
    Triple (Sends c env fun queue => data ++ f queue) (writeToSock c env data .remoteSock)
      (fun _ => Sends c env f) fun _ => At (Obeys c) := by
  refine triple_self.bind fun h => .ite (fun hnone => ?_) fun hsock => .ite (fun hudp => ?_)
    fun hudp => ?_
  · refine .pure fun w hw => ⟨hw.1.1, fun hsock => ?_⟩
    rw [hw.2, Bool.not_eq_true'] at hnone
    cases hnone.symm.trans hsock
  · rw [decide_eq_true rfl, Bool.and_true] at hudp
    refine (clean_writeUdp data).conseq (fun w hw => ?_) (fun _ _ => Sends.of_clean) fun _ _ hw =>
      hw.obeys
    rw [hw.2] at hsock hudp
    exact ⟨hw.1.2 (by simpa using hsock), hudp⟩
  · rw [decide_eq_true rfl, Bool.and_true, Bool.not_eq_true] at hudp
    -- what is queued then is not for datagrams
    let B (x : Egress) : Prop := Obeys c x ∧ x.remoteUdp = false
    have hqueue : ∀ x queue, B x → B { x with queue } := fun _ _ => id
    refine Triple.conseq (?_ : Keeps B _) (fun w hw => ⟨hw.1.1, by rw [hw.2] at hudp; exact hudp⟩)
      (fun _ w hw => .of_clean fun hno =>
        ⟨hw.1 hno, fun h => absurd (hw.2.symm.trans h) (by simp)⟩) fun _ _ hw => hw.1
    refine at_updateActivity.bind fun _ => .ite (fun _ => .pure fun _ => id) fun _ => ?_
    refine (at_send env .remoteSock data).bind fun r => ?_
    split
    · exact at_afterSend_remote hqueue env _ _
    · exact at_afterSend_remote hqueue env _ _
    · exact at_afterSend_remote hqueue env _ _
    · exact at_destroy fun _ => id

theorem sends_flushUdp (fuel : ℕ) :
    Triple (Sends c env List.flatten) (flushUdp c env fuel) (fun _ => Sends c env List.flatten)
      fun _ => At (Obeys c) := by
  induction fuel with
  | zero => exact .pure fun _ => id
  | succ fuel ih =>
    refine triple_self.bind fun h => ?_
    split
    · exact .pure fun _ hw => hw.1
    · next data rest hqueue =>
      refine Triple.bind (R := fun _ => Sends c env fun queue => data ++ queue.flatten) ?_ fun _ =>
        (sends_writeToSock data).bind fun _ => ih
      rintro w ⟨⟨hobeys, hclean⟩, rfl⟩
      refine ⟨hobeys, fun hsock hno => ⟨hobeys hno, fun hudp => ?_⟩⟩
      have hpermits := (hclean hsock hno).2 hudp
      rw [show w.self.egress.queue = data :: rest from hqueue, List.flatten_cons] at hpermits
      exact hpermits

/-! ## Connecting -/

/-- The condition of a connection that can write what it has queued. -/
abbrev Queued (c : Setup O P E) (env : Env) : Egress → Prop := Clean c env List.flatten

theorem At.obeys {w : World O P E} (h : At (Queued c env) w) : At (Obeys c) w := Clean.obeys h

theorem obeys_startStream :
    Triple (At (Queued c env)) (startStream c env) (fun _ => At (Obeys c)) fun _ => At (Obeys c) := by
  refine ((at_setStage fun _ => id).raises fun _ _ => At.obeys).bind fun _ => ?_
  refine ((at_updateStream env _ _).raises fun _ _ => At.obeys).bind fun _ => ?_
  refine ((at_updateStream env _ _).raises fun _ _ => At.obeys).bind fun _ => ?_
  refine (triple_self.post fun _ _ h => h.1).bind fun h => ?_
  refine .ite (fun _ => ?_) fun _ => .pure fun _ => At.obeys
  exact (sends_flushUdp _).conseq (fun _ => Sends.of_clean) (fun _ _ h => h.1) fun _ _ => id

/-- The address that is connected to has been checked. -/
theorem obeys_connectTo (addr : IPAddr) :
    Triple (At (Queued c env)) (connectTo c env addr) (fun _ => At (Obeys c))
      fun _ => At (Obeys c) := by
  refine ((at_setStage fun _ => id).raises fun _ _ => At.obeys).bind fun _ => ?_
  refine triple_self.bind fun h => ?_
  let B (x : Egress) : Prop := Queued c env x ∧ x.remoteUdp = h.remoteUdp
  have hB : Admits c B := fun x a hx ha => ⟨admits_clean x a hx.1 ha, hx.2⟩
  have hobeys {w : World O P E} (hw : At B w) : At (Obeys c) w := hw.1.obeys
  have hkeeps {β : Type} {m : Method O P E β} (hm : Keeps B m) :
      Triple (At B) m (fun _ => At B) fun _ => At (Obeys c) := hm.raises fun _ _ => hobeys
  refine Triple.pre (J := At B) ?_ fun w hw => ⟨hw.1, by rw [hw.2]; rfl⟩
  extract_lets jpStream jpAdd jp
  have hstream : Triple (At B) (startStream c env) (fun _ => At (Obeys c)) fun _ => At (Obeys c) :=
    obeys_startStream.pre fun _ hw => hw.1
  have hjp (port : ℕ) : Triple (At B) (jp port) (fun _ => At (Obeys c)) fun _ => At (Obeys c) := by
    refine .get_bind fun w hw => .ite (fun _ => ?_) fun _ => ?_
    · have hfast : Keeps B (do
          setStage .connecting
          updateStream env .up WAIT_STATUS_READING : Method O P E Unit) :=
        (at_setStage fun _ => id).bind fun _ => at_updateStream env _ _
      exact hfast.conseq (fun _ h => h ▸ hw) (fun _ _ => hobeys) fun _ _ => hobeys
    refine Triple.bind ((at_createRemoteSocket env addr port).conseq (fun _ h => h ▸ hw)
      (fun _ _ => id) fun _ _ => hobeys) fun _ => .ite (fun hudp => ?_) fun hudp => ?_
    · exact ((hkeeps (at_addToLoop env _)).pre fun _ h => h.1).bind fun _ =>
        (hkeeps (at_addToLoop env _)).bind fun _ => hstream
    · refine Triple.bind ((at_emit_contact hB rfl).pre fun w' hw' => ⟨hw'.1, hw'.2 ?_⟩) fun _ => ?_
      · exact hw'.1.2.trans (by simpa using hudp)
      have hjpAdd : Triple (At B) (jpAdd ()) (fun _ => At (Obeys c)) fun _ => At (Obeys c) :=
        (hkeeps (at_call env.getsockname)).bind fun _ => (hkeeps (at_addToLoop env _)).bind fun _ =>
          hstream
      split
      · exact hjpAdd
      · exact hjpAdd
      · exact hjpAdd
      · exact .bind (R := fun _ _ => False) (.throw fun _ => hobeys) fun _ _ hw => hw.elim
  refine .ite (fun _ => hjp _) fun _ => ?_
  split
  · exact hjp _
  · exact .bind (R := fun _ _ => False) (.throw fun _ => hobeys) fun _ _ hw => hw.elim

theorem obeys_handleDnsResolved (answer : DnsAnswer) :
    Triple (At (Queued c env)) (handleDnsResolved c env answer) (fun _ => At (Obeys c))
      fun _ => At (Obeys c) := by
  have hdestroy : Keeps (Obeys c) (destroy : Method O P E Unit) := at_destroy closed_obeys
  cases answer with
  | ip addr =>
    refine Triple.bind (R := fun _ => At (Obeys c)) ?_ fun _ => .ite (fun _ => hdestroy) fun _ =>
      .pure fun _ => id
    exact .tryCatch ((obeys_connectTo addr).bind fun _ => .pure fun _ => id) fun _ =>
      .bind (R := fun _ => At (Obeys c)) (.pure fun _ => id) fun _ => .pure fun _ => id
  | error => exact hdestroy.pre fun _ => At.obeys
  | nothing => exact hdestroy.pre fun _ => At.obeys

theorem obeys_resolve (dest : Dest) :
    Triple (At (Queued c env)) (resolve c env dest) (fun _ => At (Obeys c))
      fun _ => At (Obeys c) := by
  cases dest with
  | ip addr => exact obeys_handleDnsResolved (.ip addr)
  | host name =>
    refine ((at_callRaising env.resolve).raises fun _ _ => At.obeys).bind fun answer => ?_
    cases answer with
    | some answer => exact obeys_handleDnsResolved answer
    | none => exact fun _ => At.obeys

/-! ## Requests -/

/-- The request that a server finds in the data of a client, with the data that has it. -/
def requestOf (c : Setup O P E) (data : Bytes) : Option (Bytes × RequestHeader) :=
  match preParseHeader c.crc32 data with
  | .ok (some data) =>
    match parseHeader data with
    | .ok (some header) => some (data, header)
    | _ => none
  | _ => none

/-- A connection whose request cannot be found is redirected. -/
theorem at_handelProtocolError (hA : ∀ x, A x → A { x with isRedirect := true }) (ognData : Bytes) :
    Triple (At A) (handelProtocolError env ognData : Method O P E Bytes)
      (fun _ w => At A w ∧ w.self.isRedirect = true) fun _ => At A := by
  refine (at_modifySelf fun _ h => h).bind fun _ => (at_callRaising env.redirectHost).bind fun r => ?_
  refine .throwIf (fun _ _ => id) fun _ => .throwIf (fun _ _ => id) fun _ =>
    .throwIf (fun _ _ => id) fun _ => ?_
  exact Triple.bind (R := fun _ w => At A w ∧ w.self.isRedirect = true)
    (fun w hw => ⟨hA w.self.egress hw, rfl⟩) fun _ => .pure fun _ => id

theorem at_parseRequest (data : Bytes) :
    Triple (At A) (parseRequest data : Method O P E _)
      (fun r w => At A w ∧ parseHeader data = .ok r) fun _ => At A := by
  unfold parseRequest
  split
  · next r hr => exact .pure fun w hw => ⟨hw, hr⟩
  · exact .throw fun _ => id

/-- A connection that is not redirected goes on with the request in its data. -/
theorem at_serverRequest (hA : ∀ x, A x → A { x with isRedirect := true }) (ognData data : Bytes) :
    Triple (At A) (serverRequest c env ognData data)
      (fun r w => At A w ∧ (w.self.isRedirect = false → ∀ header, r.2 = some header →
        requestOf c data = some (r.1, header))) fun _ => At A := by
  let B (r : Bytes × Option RequestHeader) (x : Egress) : Prop := A x ∧ (x.isRedirect = false →
    ∀ header, r.2 = some header → requestOf c data = some (r.1, header))
  have hkeeps {β : Type} {r : Bytes × Option RequestHeader} {m : Method O P E β}
      (hm : Keeps (B r) m) : Triple (At (B r)) m (fun _ => At (B r)) fun _ => At A :=
    hm.raises fun _ _ h => h.1
  unfold serverRequest
  extract_lets jpEnd jp
  have hend (r : Bytes × Option RequestHeader) :
      Triple (At (B r)) (jpEnd r) (fun r => At (B r)) fun _ => At A := by
    refine (hkeeps at_updateOverhead).bind fun _ => (at_modifySelf fun _ h => h).bind fun _ => ?_
    refine (hkeeps at_getObfs).bind fun o => (hkeeps at_getProtocol).bind fun p => ?_
    refine (triple_self.post fun _ _ h => h.1).bind fun h => ?_
    exact (at_modifySelf fun _ h => h).bind fun _ => .pure fun _ => id
  have hjp (data' : Bytes) : Triple (fun w => At A w ∧ (w.self.isRedirect = false →
      preParseHeader c.crc32 data = .ok (some data'))) (jp data') (fun r => At (B r))
      fun _ => At A := by
    let D (x : Egress) : Prop := A x ∧ (x.isRedirect = false →
      preParseHeader c.crc32 data = .ok (some data'))
    refine ((at_parseRequest (A := D) data').raises fun _ _ h => h.1).bind fun header => ?_
    refine .ite (fun _ => (hend (data', header)).pre fun w hw => ⟨hw.1.1, fun hno header' h => ?_⟩)
      fun _ => ?_
    · rw [requestOf, hw.1.2 hno]
      dsimp only
      rw [hw.2, show header = some header' from h]
    · refine ((at_handelProtocolError hA ognData).pre fun w hw => hw.1.1).bind fun data'' => ?_
      let F (x : Egress) : Prop := A x ∧ x.isRedirect = true
      refine ((at_parseRequest (A := F) data'').raises fun _ _ h => h.1).bind fun header' => ?_
      exact (hend (data'', header')).pre fun w hw =>
        ⟨hw.1.1, fun hno => absurd (hw.1.2.symm.trans hno) (by simp)⟩
  split
  · exact .bind (R := fun _ _ => False) (.throw fun _ => id) fun _ _ h => h.elim
  · next data' hdata => exact (hjp data').pre fun w hw => ⟨hw, fun _ => hdata⟩
  · exact (at_handelProtocolError hA ognData).bind fun data' => (hjp data').pre fun w hw =>
      ⟨hw.1, fun hno => absurd (hw.2.symm.trans hno) (by simp)⟩

/-- The datagrams that a connection writes when its socket is ready are permitted. -/
def Setup.PermitsQueued (c : Setup O P E) (env : Env) (x : Egress) : Prop :=
  x.isRedirect = false → x.remoteUdp = true → c.PermitsAll env (x.buffer ++ x.queue.flatten)

/-- The datagrams that a connection writes with new data of its client are permitted: the data is
    written, or it follows a request for UDP over TCP. -/
def Setup.PermitsData (c : Setup O P E) (env : Env) (data : Bytes) (x : Egress) : Prop :=
  x.isRedirect = false →
    (x.stage = .stream → x.remoteUdp = true → c.PermitsAll env (x.buffer ++ data)) ∧
    (x.stage = .init → ∀ data' header, requestOf c data = some (data', header) →
      header.connecttype = true →
        c.PermitsAll env (x.buffer ++ (x.queue.flatten ++ data'.drop header.headerLength)))

theorem obeys_startRequest (hlocal : c.isLocal = false) (data : Bytes) (header : RequestHeader) :
    Triple (At fun x => Obeys c x ∧ (x.isRedirect = false → header.connecttype = true →
        c.PermitsAll env (x.buffer ++ (x.queue.flatten ++ data.drop header.headerLength))))
      (startRequest c env data header) (fun _ => At (Obeys c)) fun _ => At (Obeys c) := by
  refine .throwIf (fun _ _ h => h.1) fun _ => ?_
  let B : Egress → Prop := Clean c env fun queue => queue.flatten ++ data.drop header.headerLength
  have hobeys {w : World O P E} (hw : At B w) : At (Obeys c) w := fun hno => (hw hno).1
  have hkeeps {m : Method O P E Unit} (hm : Keeps B m) :
      Triple (At B) m (fun _ => At B) fun _ => At (Obeys c) := hm.raises fun _ _ => hobeys
  refine Triple.bind (R := fun _ => At B) (fun w hw hno => ⟨hw.1 hno, hw.2 hno⟩) fun _ => ?_
  refine (hkeeps (at_updateStream env _ _)).bind fun _ => ?_
  refine (hkeeps (at_setStage fun _ => id)).bind fun _ => ?_
  refine .ite (fun h => ?_) fun _ => .ite (fun _ => ?_) fun hle => ?_
  · cases hlocal.symm.trans h
  · refine Triple.bind (R := fun _ => At (Queued c env)) (fun w hw hno => ⟨(hw hno).1, fun hudp => ?_⟩)
      fun _ => obeys_resolve _
    show c.PermitsAll env (w.self.udpDataSendBuffer ++
      (w.self.dataToWriteToRemote ++ [data.drop header.headerLength]).flatten)
    rw [List.flatten_append, List.flatten_singleton]
    exact (hw hno).2 hudp
  · refine (obeys_resolve _).pre fun w hw hno => ⟨(hw hno).1, fun hudp => ?_⟩
    have hpermits : c.PermitsAll env (w.self.egress.buffer ++
        (w.self.egress.queue.flatten ++ data.drop header.headerLength)) := (hw hno).2 hudp
    rwa [List.drop_eq_nil_of_le (not_lt.1 hle), List.append_nil] at hpermits

theorem obeys_stageAddr (hlocal : c.isLocal = false) (ognData data : Bytes) :
    Triple (At fun x => (Obeys c x ∧ c.PermitsData env data x) ∧ x.stage = .init)
      (stageAddr c env ognData data) (fun _ => At (Obeys c)) fun _ => At (Obeys c) := by
  let B (x : Egress) : Prop := (Obeys c x ∧ c.PermitsData env data x) ∧ x.stage = .init
  have hB : ∀ x, B x → B { x with isRedirect := true } := fun x hx =>
    ⟨⟨fun hno => (by simp at hno), fun hno => (by simp at hno)⟩, hx.2⟩
  refine .ite (fun h => ?_) fun _ => ?_
  · cases hlocal.symm.trans h
  · refine ((at_serverRequest (A := B) hB ognData data).raises fun _ _ h => h.1.1).bind fun r => ?_
    obtain ⟨data', header⟩ := r
    cases header with
    | none => exact .throw fun _ h => h.1.1.1
    | some header =>
      exact (obeys_startRequest hlocal data' header).pre fun w hw => ⟨hw.1.1.1, fun hno hudp =>
        (hw.1.1.2 hno).2 hw.1.2 data' header (hw.2 hno header rfl) hudp⟩

theorem obeys_handleStageConnecting (hlocal : c.isLocal = false) (data : Bytes) :
    Keeps (Obeys c) (handleStageConnecting c env data) := by
  unfold handleStageConnecting
  extract_lets jpOpen jp
  have hopen : Keeps (Obeys c) (jpOpen ()) :=
    at_self fun h => .get_bind fun w hw => .ite (fun hc => by simp [hlocal] at hc) fun _ =>
      .pure fun _ h => h ▸ hw
  have hjp (data : Bytes) : Keeps (Obeys c) (jp data) :=
    .ite (fun _ => (at_modifySelf fun _ h => h).bind fun _ => hopen) fun _ => hopen
  exact at_self fun h => .ite (fun hc => by simp [hlocal] at hc) fun _ => hjp data

/-- A server passes the data of its client on. -/
theorem obeys_dispatchLocal (hlocal : c.isLocal = false) (ognData data : Bytes) :
    Triple (At fun x => Obeys c x ∧ c.PermitsData env data x) (dispatchLocal c env ognData data)
      (fun _ => At (Obeys c)) fun _ => At (Obeys c) := by
  refine triple_self.bind fun h => ?_
  refine .ite (fun hstage => ?_) fun _ => .ite (fun hinit => ?_) fun _ => .ite (fun _ => ?_) fun _ =>
    .ite (fun haddr => ?_) fun _ => .pure fun _ hw => hw.1.1
  · have hwrite : Triple (fun w => At (fun x => Obeys c x ∧ c.PermitsData env data x) w ∧ h = w.self)
        (writeToSock c env data .remoteSock) (fun _ => At (Obeys c)) fun _ => At (Obeys c) := by
      refine (sends_writeToSock (f := fun _ => []) data).conseq (fun w hw => .of_clean fun hno =>
        ⟨hw.1.1 hno, fun hudp => ?_⟩) (fun _ _ h => h.1) fun _ _ => id
      rw [List.append_nil]
      exact (hw.1.2 hno).1 (by rw [hw.2] at hstage; exact hstage) hudp
    exact .ite (fun hc => by simp [hlocal] at hc) fun _ => hwrite
  · simp [hlocal] at hinit
  · exact (obeys_handleStageConnecting hlocal data).pre fun _ hw => hw.1.1
  · refine Triple.bind (R := fun _ => At (Obeys c)) (.tryCatch (R := fun _ => At (Obeys c)) ?_
      fun _ => ?_) fun _ => .pure fun _ => id
    · refine ((obeys_stageAddr hlocal ognData data).pre fun w hw => ⟨hw.1, ?_⟩).bind fun _ =>
        .pure fun _ => id
      rw [hw.2] at haddr
      show w.self.stage = .init
      simpa [hlocal] using haddr
    · exact (at_destroy closed_obeys).bind fun _ => .pure fun _ => id

/-! ## Events -/

/-- What a server hands on of what it reads. -/
def handedOn (c : Setup O P E) (env : Env) (w : World O P E) : Option Bytes :=
  match received c env w with
  | none => none
  | some data =>
    if w.self.encryptCorrect then
      match serverRead c env data w with
      | .ok data' _ => data'
      | .error _ _ => none
    else some data

theorem closed_permitsData {data : Bytes} :
    Closed fun x => Obeys c x ∧ c.PermitsData env data x :=
  fun _ hx => ⟨hx.1, fun _ => ⟨nofun, nofun⟩⟩

/-- What is handed on of the data that has been read is permitted. -/
theorem obeys_serverRead {w₀ : World O P E} (hobeys : At (Obeys c) w₀) {data : Bytes}
    (hpermits : ∀ data' w, serverRead c env data w₀ = .ok (some data') w →
      c.PermitsData env data' w₀.self.egress) :
    Triple (· = w₀) (serverRead c env data) (fun r w => At (Obeys c) w ∧
      ∀ data', r = some data' → c.PermitsData env data' w.self.egress) fun _ => At (Obeys c) := by
  have hread : Keeps (Obeys c) (serverRead c env data) := at_serverRead closed_obeys env data
  rintro w rfl
  rcases hread.cases hobeys with ⟨r, w', hr, hw'⟩ | ⟨e, w', hr, hw'⟩
  · rw [hr]
    refine ⟨hw', ?_⟩
    rintro data' rfl
    have hread' : Keeps (fun x => Obeys c x ∧ c.PermitsData env data' x) (serverRead c env data) :=
      at_serverRead closed_permitsData env data
    exact (hread'.ok ⟨hobeys, hpermits data' w' hr⟩ hr).2
  · rw [hr]
    exact hw'

/-- A server reads data of its client, and passes on what it hands on. -/
theorem obeys_onLocalRead (hlocal : c.isLocal = false) :
    Triple (fun w => At (Obeys c) w ∧ ∀ data, handedOn c env w = some data →
        c.PermitsData env data w.self.egress)
      (onLocalRead c env) (fun _ => At (Obeys c)) fun _ => At (Obeys c) := by
  rintro w₀ ⟨hobeys, hpermits⟩
  refine (triple_self.bind fun h => ?_ : Triple (· = w₀) (onLocalRead c env)
    (fun _ => At (Obeys c)) fun _ => At (Obeys c)) w₀ rfl
  refine Triple.pre (J := fun w => h = w₀.self ∧ w = w₀) (.intro_pre fun hh => ?_)
    fun w hw => ⟨by rw [hw.2, hw.1], hw.1⟩
  subst hh
  refine .ite (fun _ => .pure fun w hw => hw ▸ hobeys) fun _ => ?_
  refine Triple.bind (R := fun r w => (∀ data, r = .ok data → received c env w₀ = some data) ∧ w = w₀)
    ?_ fun r => .intro_pre fun hreceived => ?_
  · rintro w rfl
    rw [readLocal_server hlocal]
    exact ⟨fun data hdata => by rw [received, readLocal_server hlocal, hdata], rfl⟩
  have hdestroy : Triple (· = w₀) (destroy : Method O P E Unit) (fun _ => At (Obeys c))
      fun _ => At (Obeys c) := (at_destroy closed_obeys).pre fun w hw => hw ▸ hobeys
  split
  · exact .pure fun w hw => hw ▸ hobeys
  · exact .pure fun w hw => hw ▸ hobeys
  · exact hdestroy
  · exact hdestroy
  · next data hne =>
    have hhanded := hreceived data rfl
    refine .ite (fun hc => by simp [hlocal] at hc) fun _ => .ite (fun _ => ?_) fun _ => ?_
    · exact .pure fun w hw => hw ▸ hobeys
    refine .ite (fun hcorrect => ?_) fun hcorrect => ?_
    · refine Triple.bind (obeys_serverRead hobeys fun data' w hr => hpermits data' ?_) fun r => ?_
      · rw [handedOn, hhanded]
        dsimp only
        rw [if_pos hcorrect, hr]
      · split
        · exact .pure fun w hw => hw.1
        · exact .pure fun w hw => hw.1
        · next data' _ =>
          exact (obeys_dispatchLocal hlocal data data').pre fun w hw => ⟨hw.1, hw.2 data' rfl⟩
    · refine (obeys_dispatchLocal hlocal data data).pre fun w hw => ?_
      subst hw
      refine ⟨hobeys, hpermits data ?_⟩
      rw [handedOn, hhanded]
      exact if_neg hcorrect

theorem obeys_onRemoteWrite :
    Triple (At (Queued c env)) (onRemoteWrite c env) (fun _ => At (Obeys c))
      fun _ => At (Obeys c) := by
  refine ((at_setStage fun _ => id).raises fun _ _ => At.obeys).bind fun _ => ?_
  refine triple_self.bind fun h => .ite (fun _ => ?_) fun _ => ?_
  · refine Triple.bind (R := fun _ => Sends c env fun queue =>
      h.dataToWriteToRemote.flatten ++ (fun _ => []) queue) ?_ fun _ =>
        (sends_writeToSock _).post fun _ _ hw => hw.1
    rintro w ⟨hw, rfl⟩
    refine .of_clean fun hno => ⟨(hw hno).1, fun hudp => ?_⟩
    rw [List.append_nil]
    exact (hw hno).2 hudp
  · exact (at_updateStream env _ _).conseq (fun w hw => At.obeys hw.1) (fun _ _ => id) fun _ _ => id

/-- The datagrams that a connection sends when one of its sockets is ready are permitted. -/
def PermitsAt (c : Setup O P E) (env : Env) (sock : Sock) (event : Ready) (w : World O P E) : Prop :=
  if sock = .localSock then
    Reads env event w → ∀ data, handedOn c env w = some data → c.PermitsData env data w.self.egress
  else event.read = false → event.write = true → c.PermitsQueued env w.self.egress

theorem obeys_handleEvent (hlocal : c.isLocal = false) (sock : Sock) (event : Ready) :
    Triple (fun w => At (Obeys c) w ∧ PermitsAt c env sock event w) (handleEvent c env sock event)
      (fun _ => At (Obeys c)) fun _ => At (Obeys c) := by
  rintro w₀ ⟨hobeys, hpermits⟩
  refine (triple_self.bind fun h => ?_ : Triple (· = w₀) (handleEvent c env sock event)
    (fun _ => At (Obeys c)) fun _ => At (Obeys c)) w₀ rfl
  refine Triple.pre (J := fun w => h = w₀.self ∧ w = w₀) (.intro_pre fun hh => ?_)
    fun w hw => ⟨by rw [hw.2, hw.1], hw.1⟩
  subst hh
  have hkeeps {m : Method O P E Unit} (hm : Keeps (Obeys c) m) :
      Triple (· = w₀) m (fun _ => At (Obeys c)) fun _ => At (Obeys c) :=
    hm.pre fun w hw => hw ▸ hobeys
  have hnone : Keeps (Obeys c) (pure () : Method O P E Unit) := .pure fun _ => id
  refine .throwIf (fun _ w hw => hw ▸ hobeys) fun _ => .ite (fun _ => hkeeps hnone) fun _ => ?_
  refine .ite (fun _ => hkeeps (at_destroy closed_obeys)) fun huser => .ite (fun hsock => ?_)
    fun hsock => ?_
  · rw [PermitsAt, if_pos hsock] at hpermits
    refine .ite (fun _ => hkeeps (at_onLocalError closed_obeys env)) fun herr => .ite (fun hread =>
      .ite (fun _ => ?_) fun hexceed => ?_) fun _ => .ite (fun _ =>
        hkeeps (at_onLocalWrite closed_obeys env)) fun _ => hkeeps hnone
    · exact (at_modifySelf fun _ h => h).pre fun w hw => hw ▸ hobeys
    · refine (obeys_onLocalRead hlocal).pre fun w hw => ?_
      subst hw
      refine ⟨hobeys, hpermits ⟨fun h => ?_, by simpa using herr, hread, by simpa using hexceed⟩⟩
      simpa [h] using huser
  · rw [PermitsAt, if_neg hsock] at hpermits
    refine .ite (fun _ => hkeeps (at_onRemoteError closed_obeys env)) fun _ => .ite (fun _ =>
      .ite (fun _ => ?_) fun _ => hkeeps (at_onRemoteRead closed_obeys env _ hlocal)) fun hread =>
        .ite (fun hwrite => ?_) fun _ => hkeeps hnone
    · exact (at_modifySelf fun _ h => h).pre fun w hw => hw ▸ hobeys
    · refine obeys_onRemoteWrite.pre fun w hw => ?_
      subst hw
      exact fun hno => ⟨hobeys hno, hpermits (by simpa using hread) hwrite hno⟩

/-! ## Runs -/

/-- No connection of the relay that is not redirected has contacted a forbidden destination. -/
def Relay.Obeys (c : Setup O P E) (r : Relay O P E) : Prop :=
  ∀ conn ∈ r.conns, TcpRelay.Obeys c conn.handler.egress

/-- An event makes no connection send a datagram to a forbidden destination: no frame that leaves
    its buffer then asks for one, and the resolver does not answer with one. -/
def Event.Permitted (c : Setup O P E) (r : Relay O P E) : Event O P E → Prop
  | .ready (.socket i sock event env) => ∀ conn, r.conns[i]? = some conn →
      PermitsAt { c with chosenServer := conn.chosenServer } env sock event (r.world i conn)
  | .dns i _ env => ∀ conn, r.conns[i]? = some conn → c.PermitsQueued env conn.handler.egress
  | .udpDns i k answer _ => ∀ conn, r.conns[i]? = some conn → conn.handler.isRedirect = false →
      ∀ port data addr, conn.handler.udpLookups[k]? = some (port, data) → answer = .ip addr →
        c.forbids ⟨addr, port⟩ = false
  | _ => True

theorem Relay.Obeys.onConn {r : Relay O P E} (h : r.Obeys c) {i : ℕ}
    {m : Setup O P E → Method O P E Unit}
    (hm : ∀ conn, r.conns[i]? = some conn → At (TcpRelay.Obeys c) (r.world i conn) →
      At (TcpRelay.Obeys c) (after (m { c with chosenServer := conn.chosenServer })
        (r.world i conn))) :
    Relay.Obeys c (after (onConn c i m) r) := by
  cases hi : r.conns[i]? with
  | none =>
    rw [after_onConn_none hi]
    exact h
  | some conn =>
    rw [after_onConn hi]
    intro conn' hconn'
    rcases List.mem_or_eq_of_mem_set hconn' with hmem | rfl
    · exact h conn' hmem
    · exact hm conn hi (h conn (List.mem_of_getElem? hi))

/-- A method that sends nothing. -/
theorem Relay.Obeys.onConn_keeps {r : Relay O P E} (h : r.Obeys c) {i : ℕ} {m : Method O P E Unit}
    (hm : Keeps (TcpRelay.Obeys c) m) : Relay.Obeys c (after (TcpRelay.onConn c i fun _ => m) r) :=
  h.onConn fun _ _ => hm.after

theorem obeys_destroyAll (is : List ℕ) :
    Triple (Relay.Obeys c) (destroyAll c is) (fun _ => Relay.Obeys c) fun _ => Relay.Obeys c := by
  induction is with
  | nil => exact .pure fun _ => id
  | cons i is ih =>
    refine Triple.bind (.of_after fun r hr => hr.onConn_keeps ?_) fun _ => ih
    exact at_self fun _ => .ite (fun _ => at_destroy closed_obeys) fun _ => .pure fun _ => id

/-- A connection that has contacted nothing. -/
theorem Relay.Obeys.append {r r' : Relay O P E} (h : r.Obeys c) {conn : Conn O P E}
    (hconns : r'.conns = r.conns ++ [conn]) (hnone : conn.handler.contacts = []) : r'.Obeys c := by
  intro conn' hconn'
  rw [hconns, List.mem_append, List.mem_singleton] at hconn'
  rcases hconn' with hmem | rfl
  · exact h conn' hmem
  · intro _ a ha
    rw [show conn'.handler.egress.contacts = [] from hnone] at ha
    cases ha

theorem obeys_construct (a : Accept O P E) :
    Triple (Relay.Obeys c) (construct c a) (fun _ => Relay.Obeys c) fun _ => Relay.Obeys c := by
  have hget {α : Type} (x : Except Errno α) :
      Triple (Relay.Obeys c) (Accept.get x) (fun _ => Relay.Obeys c) fun _ => Relay.Obeys c := by
    cases x with
    | ok v => exact .pure fun _ => id
    | error e => exact .throw fun _ => id
  have hgetRaising {α : Type} (x : Except Raised α) :
      Triple (Relay.Obeys c) (Accept.getRaising x) (fun _ => Relay.Obeys c)
        fun _ => Relay.Obeys c := by
    cases x with
    | ok v => exact .pure fun _ => id
    | error e => exact .throw fun _ => id
  refine .get_bind fun r hr => Triple.pre (J := Relay.Obeys c) ?_ fun _ h => h ▸ hr
  cases a.encryptor with
  | none => exact .modify fun r hr => hr.append rfl rfl
  | some e =>
    refine (hget a.addresses).bind fun _ => (hgetRaising a.plugins).bind fun op => ?_
    obtain ⟨o, p⟩ := op
    dsimp -zeta only
    extract_lets jp
    have hjp (chosen : Dest × ℕ) : Triple (Relay.Obeys c) (jp chosen) (fun _ => Relay.Obeys c)
        fun _ => Relay.Obeys c := by
      refine Triple.bind (R := fun _ => Relay.Obeys c) (.modify fun r hr => hr.append rfl rfl)
        fun _ => (hget a.options).bind fun _ => ?_
      refine Triple.bind (.of_after fun r hr => hr.onConn_keeps (at_modifySelf fun _ h => h))
        fun _ => (hget a.loopAdd).bind fun _ => .of_after fun r hr => hr.onConn_keeps ?_
      exact (at_emit rfl).bind fun _ => (at_modifySelf fun _ h => h).bind fun _ =>
        at_setStage fun _ => id
    exact .ite (fun _ => (hgetRaising a.chosenServer).bind hjp) fun _ => hjp c.chosenServer

/-- A connection gets the answer for a datagram, which is sent to it. -/
theorem obeys_udpAnswered (k : ℕ) (answer : DnsAnswer) :
    Triple (fun w => At (Obeys c) w ∧ (w.self.isRedirect = false → ∀ port data addr,
        w.self.udpLookups[k]? = some (port, data) → answer = .ip addr →
          c.forbids ⟨addr, port⟩ = false))
      (udpAnswered env k answer : Method O P E Unit) (fun _ => At (Obeys c))
      fun _ => At (Obeys c) := by
  refine triple_self.bind fun h => ?_
  split
  · exact .pure fun _ hw => hw.1.1
  · next port data hlookup =>
    refine Triple.bind (R := fun _ w => At (Obeys c) w ∧ (w.self.isRedirect = false →
      ∀ addr, answer = .ip addr → c.forbids ⟨addr, port⟩ = false)) ?_ fun _ =>
        at_udpDnsResolved admits_obeys env port data answer
    rintro w ⟨⟨hobeys, hanswer⟩, rfl⟩
    exact ⟨hobeys, fun hno addr => hanswer hno port data addr hlookup⟩

theorem Relay.Obeys.event (hlocal : c.isLocal = false) {r : Relay O P E} (h : r.Obeys c)
    {e : Event O P E} (hp : e.Permitted c r) : Relay.Obeys c (after (e.run c) r) := by
  have hdestroyAll : Triple (Relay.Obeys c) (do destroyAll c (List.range (← get).conns.length))
      (fun _ => Relay.Obeys c) fun _ => Relay.Obeys c :=
    .get_bind fun s hs => (obeys_destroyAll _).pre fun s' hs' => hs' ▸ hs
  cases e with
  | ready e =>
    cases e with
    | listening err a =>
      cases err with
      | true => exact h
      | false =>
        have hafter : Relay.Obeys c (after (handleReady c (.listening false a)) r) := by
          rcases after_listening (c := c) a r with hr | ⟨-, hr⟩
          · rw [hr]
            exact h
          · rw [hr]
            exact (obeys_construct a).after h
        exact hafter
    | socket i sock event env =>
      exact h.onConn (m := fun c => handleEvent c env sock event) fun conn hconn hobeys =>
        (obeys_handleEvent (c := { c with chosenServer := conn.chosenServer }) hlocal sock
          event).after ⟨hobeys, hp conn hconn⟩
  | dns i answer env =>
    refine h.onConn (m := fun c => do
      modifySelf fun h => { h with dnsPending := false }
      handleDnsResolved c env answer) fun conn hconn hobeys => ?_
    refine Triple.after (P := At (Queued c env)) ?_ fun hno => ⟨hobeys hno, hp conn hconn hno⟩
    exact Triple.bind (R := fun _ => At (Queued c env)) (fun _ hw => hw) fun _ =>
      obeys_handleDnsResolved (c := { c with chosenServer := conn.chosenServer }) answer
  | udpDns i k answer env =>
    exact h.onConn (m := fun _ => udpAnswered env k answer) fun conn hconn hobeys =>
      (obeys_udpAnswered k answer).after ⟨hobeys, hp conn hconn⟩
  | timeout =>
    refine Triple.after (I := Relay.Obeys c) (P := Relay.Obeys c) (.get_bind fun s hs => ?_) h
    split
    · exact .pure fun s' hs' => hs' ▸ hs
    · refine Triple.bind (R := fun _ => Relay.Obeys c) (.modify fun s' hs' => ?_) fun _ =>
        .of_after fun s' hs' => hs'.onConn_keeps (at_destroy closed_obeys)
      subst hs'
      exact hs
  | periodic =>
    refine Triple.after (I := Relay.Obeys c) (P := Relay.Obeys c) (.get_bind fun s hs =>
      .ite (fun _ => ?_) fun _ => .pure fun s' hs' => hs' ▸ hs) h
    refine Triple.pre (J := Relay.Obeys c) ?_ fun s' hs' => hs' ▸ hs
    exact .bind (R := fun _ => Relay.Obeys c) (.modify fun s hs => hs) fun _ => hdestroyAll
  | close nextTick =>
    refine Triple.after (I := Relay.Obeys c) (P := Relay.Obeys c) ?_ h
    refine Triple.bind (R := fun _ => Relay.Obeys c) (.modify fun s hs => hs) fun _ =>
      .ite (fun _ => ?_) fun _ => .pure fun _ => id
    exact .bind (R := fun _ => Relay.Obeys c) (.modify fun s hs => hs) fun _ => hdestroyAll

/-- In every run of a server whose events make no connection send a datagram to a forbidden
    destination, the connections that are not redirected contact none: what they connect to has
    been checked. -/
theorem obeys_of_permitted (hlocal : c.isLocal = false) {fastOpen : Bool}
    {events : List (Event O P E)} {r : Relay O P E}
    (hp : Run.Throughout (step c) (Event.Permitted c) (.fresh fastOpen) events)
    (hr : Run.exec (step c) (.fresh fastOpen) events = some r) {conn : Conn O P E}
    (hconn : conn ∈ r.conns) (hno : conn.handler.isRedirect = false) :
    ∀ a ∈ conn.handler.contacts, c.forbids a = false := by
  have hobeys : r.Obeys c := by
    refine Run.exec_invariant (P := Relay.Obeys c) (fun {s e s'} hs hp hstep => ?_)
      (fun _ h => absurd h List.not_mem_nil) hp hr
    unfold TcpRelay.step at hstep
    split_ifs at hstep
    cases hstep
    exact hs.event hlocal hp
  exact hobeys conn hconn hno

/-- A server that forbids 127.0.0.0/8. -/
def noLoopback : Setup Unit Unit Unit :=
  { Setup.plain false with forbiddenIplist := some { networkListV4 := [(127, 24)] } }

/-- A request for UDP over TCP. -/
def udpRequest : Bytes := [9, 192, 0, 2, 1, 0, 53]

/-- The frame of a datagram of one byte to port 53 of an address. -/
def oneByteTo (addr : Bytes) : Bytes := [0, 11, 0, 1] ++ addr ++ [0, 53, 42]

/-- A client sends a request with a datagram. -/
def clientSends (addr : Bytes) : Env :=
  { Env.idle with recv := .ok (udpRequest ++ oneByteTo addr) }

/-- The client connects, and sends them. -/
def clientRun (addr : Bytes) : List (Event Unit Unit Unit) :=
  [.ready (.listening false .plain),
    .ready (.socket 0 .localSock { read := true } (clientSends addr))]

/-- The connection before it is read from. -/
def newConn : Conn Unit Unit Unit :=
  ⟨Accept.plain.started noLoopback () () (), noLoopback.chosenServer⟩

theorem asks_oneByteTo {header : RequestHeader} (h : Asks (oneByteTo [8, 8, 8, 8]) header) :
    header = ⟨false, 1, .ip (.v4 0x08080808), 53, 7⟩ := by
  cases h with
  | here _ hasks =>
    have hparse : parseHeader ((oneByteTo [8, 8, 8, 8]).drop 3) =
        .ok (some ⟨false, 1, .ip (.v4 0x08080808), 53, 7⟩) := by
      decide +kernel
    cases hparse.symm.trans hasks.2
    rfl
  | later _ h =>
    -- nothing is left after the frame
    have hnone : ¬HasFrame [] := by simp [HasFrame]
    cases h with
    | here h _ => exact absurd h hnone
    | later h _ => exact absurd h hnone

/-- The world in which the connection is read from. -/
def newWorld : World Unit Unit Unit where
  self := newConn.handler
  server := { serverConnections := 1, timeoutCache := [0] }
  me := 0

theorem permitsAt_clientSends :
    PermitsAt noLoopback (clientSends [8, 8, 8, 8]) .localSock { read := true } newWorld := by
  rw [PermitsAt, if_pos rfl]
  intro _ data hdata _
  have hhanded : handedOn noLoopback (clientSends [8, 8, 8, 8]) newWorld =
      some (udpRequest ++ oneByteTo [8, 8, 8, 8]) := by
    decide +kernel
  cases hhanded.symm.trans hdata
  refine ⟨nofun, fun _ data' header hrequest _ => ?_⟩
  have hfound : requestOf noLoopback (udpRequest ++ oneByteTo [8, 8, 8, 8]) =
      some (udpRequest ++ oneByteTo [8, 8, 8, 8], ⟨true, 1, .ip (.v4 0xC0000201), 53, 7⟩) := by
    decide +kernel
  cases hfound.symm.trans hrequest
  intro header hasks
  rw [asks_oneByteTo hasks]
  rfl

theorem obeys_of_permitted_clientRun : ∃ r,
    Run.exec (step noLoopback) (.fresh false) (clientRun [8, 8, 8, 8]) = some r ∧
      ∃ conn ∈ r.conns, conn.handler.isRedirect = false ∧
        conn.handler.contacts = [⟨.v4 0x08080808, 53⟩] ∧
        ∀ a ∈ conn.handler.contacts, noLoopback.forbids a = false := by
  have hrun : (Run.exec (step noLoopback) (.fresh false) (clientRun [8, 8, 8, 8])).any (fun r =>
      r.conns.any fun conn => conn.handler.isRedirect == false &&
        conn.handler.contacts == [⟨.v4 0x08080808, 53⟩]) = true := by
    decide +kernel
  obtain ⟨r, hr, hconns⟩ := (Option.any_eq_true _ _).1 hrun
  obtain ⟨conn, hconn, hcontacts⟩ := List.any_eq_true.1 hconns
  rw [Bool.and_eq_true, beq_iff_eq, beq_iff_eq] at hcontacts
  have hpermitted : Run.Throughout (step noLoopback) (Event.Permitted noLoopback) (.fresh false)
      (clientRun [8, 8, 8, 8]) := by
    refine .cons trivial fun s hs => .cons ?_ fun _ _ => Run.throughout_nil _
    cases hs
    intro conn hconn
    cases hconn
    exact permitsAt_clientSends
  exact ⟨r, hr, conn, hconn, hcontacts.1, hcontacts.2,
    obeys_of_permitted rfl hpermitted hr hconn hcontacts.1⟩

/-- A datagram goes to 127.0.0.1. -/
theorem not_obeys : ¬∀ (c : Setup Unit Unit Unit) (events : List (Event Unit Unit Unit))
    (r : Relay Unit Unit Unit), c.isLocal = false →
      Run.exec (step c) (.fresh false) events = some r →
      ∀ conn ∈ r.conns, conn.handler.isRedirect = false →
        ∀ a ∈ conn.handler.contacts, c.forbids a = false := by
  intro h
  have hrun : (Run.exec (step noLoopback) (.fresh false) (clientRun [127, 0, 0, 1])).any (fun r =>
      r.conns.any fun conn => conn.handler.isRedirect == false &&
        conn.handler.contacts.any fun a => noLoopback.forbids a) = true := by
    decide +kernel
  obtain ⟨r, hr, hconns⟩ := (Option.any_eq_true _ _).1 hrun
  obtain ⟨conn, hconn, hcontacts⟩ := List.any_eq_true.1 hconns
  rw [Bool.and_eq_true, beq_iff_eq, List.any_eq_true] at hcontacts
  obtain ⟨hno, a, ha, hforbids⟩ := hcontacts
  cases (h noLoopback _ r rfl hr conn hconn hno a ha).symm.trans hforbids

end TcpRelay

end ShadowsocksR

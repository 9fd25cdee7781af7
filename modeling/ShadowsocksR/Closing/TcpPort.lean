import ShadowsocksR.Common
import ShadowsocksR.Lib.Triple
import ShadowsocksR.TcpRelay.State

/-!
# Closing a TCP relay

What a `TCPRelay` has open and what it has registered with the loop: its listening socket, the
sockets of its connections, and `handle_periodic`. What the connections do with their sockets is of
no concern here.

* `Connection.destroy`: a connection releases its sockets;
* `TcpPort.handlePeriodic`, `TcpPort.close`: the two ways to close a relay;
* `TcpPort.Live`, `TcpPort.Released`: a relay that is in the loop, and one that has left it;
* `close_now`: an immediate close leads from the one to the other.
-/

namespace ShadowsocksR

namespace Closing

/-! ## The loop -/

/-- The fields of a relay that is in a loop, with the callbacks of the loop, by the numbers of
    their relays. -/
structure Scope (ρ : Type) where
  self : ρ
  periodicCallbacks : List ℕ

abbrev PortM (ρ α : Type) : Type := EStateM PyExc (Scope ρ) α

section

variable {ρ : Type}

def modifySelf (f : ρ → ρ) : PortM ρ Unit := modify fun s => { s with self := f s.self }

/-- `remove_periodic`: `list.remove` -/
def removePeriodic (me : ℕ) : PortM ρ Unit := do
  if me ∈ (← get).periodicCallbacks then
    modify fun s => { s with periodicCallbacks := s.periodicCallbacks.erase me }
  else throw .valueError

/-- A callback that is registered can be removed. -/
theorem triple_removePeriodic (me : ℕ) (p : ρ → Prop) (callbacks : List ℕ) :
    Triple (fun s => p s.self ∧ s.periodicCallbacks = callbacks ∧ me ∈ callbacks)
      (removePeriodic me) (fun _ s => p s.self ∧ s.periodicCallbacks = callbacks.erase me)
      Never := by
  refine .get_bind fun s hs => .ite (fun _ => .modify fun t ht => ?_) fun hme => ?_
  · rw [ht]
    exact ⟨hs.1, congrArg (List.erase · me) hs.2.1⟩
  · exact absurd (hs.2.1 ▸ hs.2.2) hme

/-- One that is not registered cannot. -/
theorem triple_removePeriodic_absent (me : ℕ) (p : ρ → Prop) (callbacks : List ℕ) :
    Triple (fun s => p s.self ∧ s.periodicCallbacks = callbacks ∧ me ∉ callbacks)
      (removePeriodic me) (fun _ _ => False)
      fun _ s => p s.self ∧ s.periodicCallbacks = callbacks := by
  refine .get_bind fun s hs => .ite (fun hme => ?_) fun _ => .throw fun t ht => ?_
  · exact absurd hme (hs.2.1 ▸ hs.2.2)
  · rw [ht]
    exact ⟨hs.1, hs.2.1⟩

section

variable {f : ρ → ρ} {rest : PortM ρ Unit} {p : ρ} {callbacks : List ℕ} {me : ℕ}

/-- What an immediate close starts with: the relay is marked, and its callback is removed. -/
theorem triple_unregister {Q : Unit → Scope ρ → Prop} {E : PyExc → Scope ρ → Prop}
    (h : Triple (fun s => s.self = f p ∧ s.periodicCallbacks = callbacks.erase me) rest Q E) :
    Triple (fun s => s.self = p ∧ s.periodicCallbacks = callbacks ∧ me ∈ callbacks)
      (do modifySelf f; removePeriodic me; rest) Q E := by
  refine .bind (R := fun _ s => s.self = f p ∧ s.periodicCallbacks = callbacks ∧ me ∈ callbacks)
    (.modify fun s hs => ⟨congrArg f hs.1, hs.2⟩) fun _ => ?_
  exact (triple_removePeriodic me (· = f p) callbacks).never.bind fun _ => h

/-- When the relay has left the loop, nothing comes after the mark. -/
theorem triple_unregister_absent :
    Triple (fun s => s.self = p ∧ s.periodicCallbacks = callbacks ∧ me ∉ callbacks)
      (do modifySelf f; removePeriodic me; rest) (fun _ _ => False)
      fun _ s => s.self = f p ∧ s.periodicCallbacks = callbacks := by
  refine .bind (R := fun _ s => s.self = f p ∧ s.periodicCallbacks = callbacks ∧ me ∉ callbacks)
    (.modify fun s hs => ⟨congrArg f hs.1, hs.2⟩) fun _ => ?_
  exact (triple_removePeriodic_absent me (· = f p) callbacks).bind fun _ _ => False.elim

end

end

/-! ## Connections -/

open TcpRelay (Sock)

/-- The stage of a connection; the constructor assigns it last. -/
inductive Stage
  | unset
  | running
  | destroyed

/-- A `TCPRelayHandler`. -/
structure Connection where
  stage : Stage
  /-- The sockets that it has. -/
  opened : Sock → Bool
  /-- The sockets in `_fdmap` -/
  polled : Sock → Bool
  /-- The sockets in `_fd_to_handlers` -/
  mapped : Sock → Bool

namespace Connection

/-- A connection that has been accepted. -/
def started : Connection where
  stage := .running
  opened s := s = .localSock
  polled s := s = .localSock
  mapped s := s = .localSock

/-- `destroy`: every socket that there is leaves the tables, and is closed. What the tables raise is
    caught. -/
def destroy (c : Connection) : Except PyExc Connection :=
  match c.stage with
  | .unset => .error .attributeError
  | .destroyed => .ok c
  | .running => .ok {
      stage := .destroyed
      opened := fun _ => false
      polled := fun s => c.polled s && !c.opened s
      mapped := fun s => c.mapped s && !c.opened s }

/-- Whether `_fd_to_handlers.values()` has the connection. -/
def isMapped (c : Connection) : Bool :=
  c.mapped .localSock || c.mapped .remoteSock || c.mapped .remoteSockV6

/-- Nothing of the connection is open or polled. -/
structure Dead (c : Connection) : Prop where
  stage : c.stage = .destroyed
  opened : ∀ s, c.opened s = false
  polled : ∀ s, c.polled s = false

/-- The loop polls open sockets, and the relay finds the connection. -/
structure Running (c : Connection) : Prop where
  stage : c.stage = .running
  polled : ∀ s, c.polled s = true → c.opened s = true
  mapped : c.mapped .localSock = true

def Sane (c : Connection) : Prop := c.Running ∨ c.Dead

variable {c : Connection}

theorem Dead.not_running (h : c.Dead) : c.stage ≠ .running := by
  rw [h.stage]
  exact nofun

theorem running_started : started.Running := ⟨rfl, fun _ => id, rfl⟩

/-- What is sane can be destroyed. -/
theorem Sane.destroy (h : c.Sane) : ∃ c', c.destroy = .ok c' ∧ c'.Dead := by
  rcases h with h | h
  · refine ⟨_, by rw [Connection.destroy, h.stage], rfl, fun _ => rfl, fun s => ?_⟩
    show (c.polled s && !c.opened s) = false
    cases hs : c.polled s with
    | false => rfl
    | true => rw [h.polled s hs]; rfl
  · exact ⟨c, by rw [Connection.destroy, h.stage], h⟩

/-- What the relay does not find is dead. -/
theorem Sane.dead_of_not_mapped (h : c.Sane) (hm : c.isMapped = false) : c.Dead := by
  refine h.resolve_left fun hr => ?_
  rw [isMapped, hr.mapped] at hm
  simp at hm

end Connection

/-! ## The relay -/

/-- A `TCPRelay` that has been added to a loop. -/
structure TcpPort where
  closed : Bool := false
  /-- Whether `_server_socket` is a socket. -/
  serverSocket : Bool := true
  /-- Whether the listening socket is open, and whether it is in `_fdmap`. -/
  opened : Bool := true
  polled : Bool := true
  connections : List Connection := []

namespace TcpPort

/-- `removefd(self._server_socket_fd)` -/
def removefd : PortM TcpPort Unit := do
  if (← get).self.polled then modifySelf fun p => { p with polled := false }
  else throw .keyError

/-- `destroy`, of one of the connections -/
def destroy (j : ℕ) : PortM TcpPort Unit := do
  match (← get).self.connections[j]? with
  | none => pure ()
  | some c =>
    match c.destroy with
    | .ok c => modifySelf fun p => { p with connections := p.connections.set j c }
    | .error e => throw e

/-- `_server_socket.close()` -/
def closeServerSocket : PortM TcpPort Unit := do
  if (← get).self.serverSocket then modifySelf fun p => { p with opened := false }
  else throw .attributeError

def destroyAll : List ℕ → PortM TcpPort Unit
  | [] => pure ()
  | j :: js => do
    destroy j
    destroyAll js

/-- `list(self._fd_to_handlers.values())` -/
def handlers (p : TcpPort) : List ℕ :=
  (List.range p.connections.length).filter fun j => p.connections[j]?.any Connection.isMapped

/-- `handle_periodic`; the sweep destroys the connections that have been idle. -/
def handlePeriodic (idle : List ℕ) : PortM TcpPort Unit := do
  if (← get).self.closed then
    -- The callback itself is not removed.
    if (← get).self.serverSocket then
      removefd
      closeServerSocket
      modifySelf fun p => { p with serverSocket := false }
    destroyAll (← get).self.handlers
  destroyAll idle

/-- `close` -/
def close (me : ℕ) (nextTick : Bool) : PortM TcpPort Unit := do
  modifySelf fun p => { p with closed := true }
  if !nextTick then
    removePeriodic me
    removefd
    closeServerSocket
    destroyAll (← get).self.handlers

/-! ## What the connections do -/

/-- How the constructor of a connection ends. -/
inductive Accepted
  /-- Nothing is left of it. -/
  | refused
  | started
  /-- `setblocking` or `setsockopt` raises; the connection is only in `_timeout_cache`. -/
  | unmapped
  /-- `loop.add` raises when the socket is in `_fdmap`. -/
  | unset

inductive Event
  /-- The listening socket is ready. -/
  | accept (outcome : Accepted)
  /-- `_create_remote_socket`, for UDP with a second socket. -/
  | createRemoteSocket (j : ℕ) (udp : Bool)
  /-- `loop.add`, of a remote socket. -/
  | add (j : ℕ) (s : Sock)
  /-- An error, the end of a stream, or a timeout. -/
  | destroy (j : ℕ)

/-- The connections that the constructor leaves behind. -/
def Accepted.connections : Accepted → List Connection
  | .refused => []
  | .started => [.started]
  | .unmapped => [{ Connection.started with
      stage := .unset, polled := fun _ => false, mapped := fun _ => false }]
  | .unset => [{ Connection.started with stage := .unset }]

/-- `_create_remote_socket`, of a connection that has none -/
def createRemoteSocket (udp : Bool) (c : Connection) : Option Connection :=
  match c.stage with
  | .running =>
    if c.opened .remoteSock || c.opened .remoteSockV6 then none
    else some { c with
      opened := fun s => c.opened s || s = .remoteSock || (udp && s = .remoteSockV6)
      mapped := fun s => c.mapped s || s = .remoteSock || (udp && s = .remoteSockV6) }
  | _ => none

/-- `loop.add`, of one of the sockets of a connection -/
def add (s : Sock) (c : Connection) : Option Connection :=
  match c.stage with
  | .running =>
    if c.opened s then some { c with polled := fun s' => c.polled s' || s' = s } else none
  | _ => none

def onConnection (j : ℕ) (f : Connection → Option Connection) (p : TcpPort) : Option TcpPort := do
  let c ← p.connections[j]?
  let c ← f c
  pure { p with connections := p.connections.set j c }

/-- What a connection does, if it can. -/
def step (p : TcpPort) : Event → Option TcpPort
  | .accept outcome =>
    if p.polled then some { p with connections := p.connections ++ outcome.connections } else none
  | .createRemoteSocket j udp => p.onConnection j (createRemoteSocket udp)
  | .add j s => p.onConnection j (add s)
  | .destroy j => p.onConnection j fun c => c.destroy.toOption

/-! ## In the loop, and out of it -/

/-- The relay is in the loop, and not closed. -/
structure Live (p : TcpPort) : Prop where
  closed : p.closed = false
  serverSocket : p.serverSocket = true
  opened : p.opened = true
  polled : p.polled = true
  sane : ∀ c ∈ p.connections, c.Sane

/-- None of its sockets is open or polled. -/
structure Released (p : TcpPort) : Prop where
  closed : p.closed = true
  opened : p.opened = false
  polled : p.polled = false
  dead : ∀ c ∈ p.connections, c.Dead

variable {p p' : TcpPort} {callbacks : List ℕ} {me : ℕ} {done : ℕ → Prop}

/-- Of a relay only the connections change, and those that are done are dead. -/
structure Destroying (p : TcpPort) (callbacks : List ℕ) (done : ℕ → Prop) (s : Scope TcpPort) :
    Prop where
  callbacks : s.periodicCallbacks = callbacks
  self : s.self = { p with connections := s.self.connections }
  length : s.self.connections.length = p.connections.length
  sane : ∀ c ∈ s.self.connections, c.Sane
  dead : ∀ j c, done j → s.self.connections[j]? = some c → c.Dead

theorem Destroying.start (hp : ∀ c ∈ p.connections, c.Sane)
    (hdead : ∀ j c, done j → p.connections[j]? = some c → c.Dead) :
    Destroying p callbacks done ⟨p, callbacks⟩ := ⟨rfl, rfl, rfl, hp, hdead⟩

theorem triple_destroy (j : ℕ) : Triple (Destroying p callbacks done) (destroy j)
    (fun _ => Destroying p callbacks fun i => i = j ∨ done i) Never := by
  refine .get_bind fun s hs => ?_
  cases hc : s.self.connections[j]? with
  | none =>
    refine .pure fun t ht => ?_
    rw [ht]
    refine ⟨hs.callbacks, hs.self, hs.length, hs.sane, fun i c hi h => hi.elim (fun hi => ?_)
      fun hi => hs.dead i c hi h⟩
    rw [hi, hc] at h
    cases h
  | some c =>
    obtain ⟨c', hdestroy, hdead⟩ := (hs.sane c (List.mem_of_getElem? hc)).destroy
    dsimp only
    rw [hdestroy]
    refine .modify fun t ht => ?_
    rw [ht]
    refine ⟨hs.callbacks, ?_, (List.length_set ..).trans hs.length, fun d hd => ?_,
      fun i d hi h => ?_⟩
    · dsimp only
      rw [hs.self]
    · rcases List.mem_or_eq_of_mem_set hd with hd | rfl
      · exact hs.sane d hd
      · exact .inr hdead
    · dsimp only at h
      rw [List.getElem?_set] at h
      split_ifs at h with hij hlt
      · cases h
        exact hdead
      · exact hs.dead i d (hi.resolve_left fun h => hij h.symm) h

theorem triple_destroyAll (p : TcpPort) (callbacks : List ℕ) (done : ℕ → Prop) (js : List ℕ) :
    Triple (Destroying p callbacks done) (destroyAll js)
      (fun _ => Destroying p callbacks fun i => i ∈ js ∨ done i) Never := by
  induction js generalizing done with
  | nil => exact .pure fun s hs => ⟨hs.callbacks, hs.self, hs.length, hs.sane,
      fun i c hi => hs.dead i c (hi.resolve_left List.not_mem_nil)⟩
  | cons j js ih =>
    refine (triple_destroy j).bind fun _ => (ih _).post fun _ s hs => ?_
    refine ⟨hs.callbacks, hs.self, hs.length, hs.sane, fun i c hi => hs.dead i c ?_⟩
    rw [List.mem_cons, or_assoc] at hi
    exact or_left_comm.1 hi

/-- Whoever is not found by the relay has been destroyed. -/
theorem dead_or_mem_handlers (hp : ∀ c ∈ p.connections, c.Sane) {j : ℕ} {c : Connection}
    (hj : j ∉ p.handlers) (hc : p.connections[j]? = some c) : c.Dead := by
  refine (hp c (List.mem_of_getElem? hc)).dead_of_not_mapped ?_
  by_contra hm
  refine hj (List.mem_filter.2 ⟨List.mem_range.2 (List.getElem?_eq_some_iff.1 hc).1, ?_⟩)
  rw [hc]
  simpa using hm

/-- All connections of a relay are destroyed. -/
theorem triple_destroyHandlers (p : TcpPort) (callbacks : List ℕ) : Triple
    (fun s => s.self = p ∧ s.periodicCallbacks = callbacks ∧ ∀ c ∈ p.connections, c.Sane)
    (do destroyAll (← get).self.handlers)
    (fun _ s => s.self = { p with connections := s.self.connections } ∧
      s.periodicCallbacks = callbacks ∧ ∀ c ∈ s.self.connections, c.Dead) Never := by
  refine .get_bind fun s hs => ?_
  obtain ⟨rfl, rfl, hsane⟩ := hs
  have hdestroy := triple_destroyAll s.self s.periodicCallbacks (fun j => j ∉ s.self.handlers)
    s.self.handlers
  refine hdestroy.conseq (fun t ht => ?_) (fun _ t ht => ⟨ht.self, ht.callbacks, fun c hc => ?_⟩)
    fun _ _ => id
  · rw [ht]
    exact .start hsane fun j c hj hc => dead_or_mem_handlers hsane hj hc
  · -- Either the relay finds it, or it has been dead before.
    obtain ⟨j, hj⟩ := List.mem_iff_getElem?.1 hc
    exact ht.dead j c (em _) hj

/-- The listening socket leaves the loop, and is closed. -/
theorem triple_unlisten (p : TcpPort) (callbacks : List ℕ) : Triple
    (fun s => (s.self = p ∧ p.polled = true ∧ p.serverSocket = true) ∧
      s.periodicCallbacks = callbacks)
    (do removefd; closeServerSocket)
    (fun _ s => s.self = { p with polled := false, opened := false } ∧
      s.periodicCallbacks = callbacks) Never := by
  rintro ⟨self, _⟩ ⟨⟨rfl, hpolled, hserver⟩, rfl⟩
  obtain ⟨closed, serverSocket, opened, polled, connections⟩ := self
  obtain rfl : polled = true := hpolled
  obtain rfl : serverSocket = true := hserver
  exact ⟨rfl, rfl⟩

/-- An immediate close releases everything. -/
theorem triple_close : Triple
    (fun s => p.Live ∧ s.self = p ∧ s.periodicCallbacks = callbacks ∧ me ∈ callbacks)
    (close me false)
    (fun _ s => s.self.Released ∧ s.periodicCallbacks = callbacks.erase me) Never := by
  refine .intro_pre fun h => triple_unregister ?_
  have hunlisten := triple_unlisten { p with closed := true } (callbacks.erase me)
  rw [← bind_assoc]
  refine (hunlisten.pre fun s hs => ⟨⟨hs.1, h.polled, h.serverSocket⟩, hs.2⟩).bind fun _ => ?_
  refine (triple_destroyHandlers { p with closed := true, polled := false, opened := false }
    (callbacks.erase me)).conseq (fun s hs => ⟨hs.1, hs.2, h.sane⟩)
    (fun _ s hs => ⟨⟨?_, ?_, ?_, hs.2.2⟩, hs.2.1⟩) fun _ _ => id
  all_goals rw [hs.1]

/-- Closing a relay that has left the loop changes nothing else. -/
theorem triple_close_again : Triple
    (fun s => s.self = p ∧ s.periodicCallbacks = callbacks ∧ me ∉ callbacks) (close me false)
    (fun _ _ => False)
    (fun _ s => s.self = { p with closed := true } ∧ s.periodicCallbacks = callbacks) :=
  triple_unregister_absent

/-- In the loop, the periodic call destroys connections at most. -/
theorem triple_handlePeriodic (idle : List ℕ) : Triple
    (fun s => p.Live ∧ s.self = p ∧ s.periodicCallbacks = callbacks) (handlePeriodic idle)
    (fun _ s => s.self.Live ∧ s.periodicCallbacks = callbacks) Never := by
  refine .intro_pre fun h => .get_bind fun s hs => .ite (fun hclosed => ?_) fun _ => ?_
  · rw [hs.1, h.closed] at hclosed
    cases hclosed
  refine (triple_destroyAll p callbacks (fun _ => False) idle).conseq
    (fun t ht => ?_) (fun _ t ht => ⟨?_, ht.callbacks⟩) fun _ _ => id
  · obtain ⟨self, _⟩ := s
    obtain ⟨rfl, rfl⟩ := hs
    rw [ht]
    exact .start h.sane fun _ _ => False.elim
  · have hself := ht.self
    refine ⟨?_, ?_, ?_, ?_, ht.sane⟩
    · rw [hself]; exact h.closed
    · rw [hself]; exact h.serverSocket
    · rw [hself]; exact h.opened
    · rw [hself]; exact h.polled

/-! ## What the connections do keeps them sane -/

variable {c c' : Connection} {e : Event}

theorem onConnection_eq_some {f : Connection → Option Connection} {j : ℕ}
    (h : p.onConnection j f = some p') : ∃ c c', c ∈ p.connections ∧ f c = some c' ∧
      p' = { p with connections := p.connections.set j c' } := by
  obtain ⟨c, hc, h⟩ := Option.bind_eq_some_iff.1 h
  obtain ⟨c', hc', h⟩ := Option.bind_eq_some_iff.1 h
  exact ⟨c, c', List.mem_of_getElem? hc, hc', (Option.some.inj h).symm⟩

theorem running_createRemoteSocket {udp : Bool} (h : createRemoteSocket udp c = some c') :
    c.stage = .running ∧ (c.Running → c'.Running) := by
  unfold createRemoteSocket at h
  split at h
  · next hstage =>
    split_ifs at h with hopened
    cases h
    refine ⟨hstage, fun hc => ⟨hc.stage, fun s hs => ?_, ?_⟩⟩
    · dsimp only
      rw [hc.polled s hs]
      rfl
    · dsimp only
      rw [hc.mapped]
      rfl
  · cases h

theorem running_add {s : Sock} (h : add s c = some c') :
    c.stage = .running ∧ (c.Running → c'.Running) := by
  unfold add at h
  split at h
  · next hstage =>
    split_ifs at h with hopened
    cases h
    refine ⟨hstage, fun hc => ⟨hc.stage, fun s' hs' => ?_, hc.mapped⟩⟩
    rcases Bool.or_eq_true_iff.1 hs' with hs' | hs'
    · exact hc.polled s' hs'
    · rw [of_decide_eq_true hs']
      exact hopened
  · cases h

/-- What a connection does is done by a running one, which goes on running, or it is destroyed. -/
theorem sane_of_step {f : Connection → Option Connection}
    (hf : ∀ c c', f c = some c' → c.stage = .running ∧ (c.Running → c'.Running)) (hc : c.Sane)
    (h : f c = some c') : c'.Sane := by
  obtain ⟨hstage, hrunning⟩ := hf c c' h
  rcases hc with hc | hc
  · exact .inl (hrunning hc)
  · exact absurd hstage hc.not_running

theorem dead_of_destroy (hc : c.Sane) (h : c.destroy.toOption = some c') : c'.Dead := by
  obtain ⟨d, hd, hdead⟩ := hc.destroy
  rw [hd] at h
  cases h
  exact hdead

/-- The constructor does not raise after the connection has been counted. -/
def Event.Starts : Event → Prop
  | .accept outcome => outcome = .refused ∨ outcome = .started
  | _ => True

theorem mem_set_of {P : Connection → Prop} (hp : ∀ c ∈ p.connections, P c) {j : ℕ} (hc : P c') :
    ∀ c ∈ p.connections.set j c', P c := fun d hd =>
  (List.mem_or_eq_of_mem_set hd).elim (hp d) fun h => h ▸ hc

theorem Live.step (h : p.Live) (hstarts : e.Starts) (hstep : p.step e = some p') : p'.Live := by
  cases e with
  | accept outcome =>
    rw [TcpPort.step, if_pos h.polled] at hstep
    cases hstep
    refine ⟨h.closed, h.serverSocket, h.opened, h.polled, fun c hc => ?_⟩
    rcases List.mem_append.1 hc with hc | hc
    · exact h.sane c hc
    · rcases hstarts with rfl | rfl
      · cases hc
      · rw [List.mem_singleton.1 hc]
        exact .inl Connection.running_started
  | createRemoteSocket j udp =>
    obtain ⟨c, c', hc, hf, rfl⟩ := onConnection_eq_some hstep
    exact ⟨h.closed, h.serverSocket, h.opened, h.polled, mem_set_of h.sane
      (sane_of_step (fun _ _ => running_createRemoteSocket) (h.sane c hc) hf)⟩
  | add j s =>
    obtain ⟨c, c', hc, hf, rfl⟩ := onConnection_eq_some hstep
    exact ⟨h.closed, h.serverSocket, h.opened, h.polled, mem_set_of h.sane
      (sane_of_step (fun _ _ => running_add) (h.sane c hc) hf)⟩
  | destroy j =>
    obtain ⟨c, c', hc, hf, rfl⟩ := onConnection_eq_some hstep
    exact ⟨h.closed, h.serverSocket, h.opened, h.polled, mem_set_of h.sane
      (.inr (dead_of_destroy (h.sane c hc) hf))⟩

/-- What is released stays released. -/
theorem Released.step (h : p.Released) (hstep : p.step e = some p') : p'.Released := by
  -- No connection is accepted any more, and only running ones open sockets.
  cases e with
  | accept outcome =>
    rw [TcpPort.step, h.polled] at hstep
    cases hstep
  | createRemoteSocket j udp =>
    obtain ⟨c, c', hc, hf, rfl⟩ := onConnection_eq_some hstep
    exact absurd (running_createRemoteSocket hf).1 (h.dead c hc).not_running
  | add j s =>
    obtain ⟨c, c', hc, hf, rfl⟩ := onConnection_eq_some hstep
    exact absurd (running_add hf).1 (h.dead c hc).not_running
  | destroy j =>
    obtain ⟨c, c', hc, hf, rfl⟩ := onConnection_eq_some hstep
    exact ⟨h.closed, h.opened, h.polled,
      mem_set_of h.dead (dead_of_destroy (.inr (h.dead c hc)) hf)⟩

end TcpPort

end Closing

end ShadowsocksR

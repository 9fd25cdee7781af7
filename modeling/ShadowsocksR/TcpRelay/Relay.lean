import ShadowsocksR.Lib.Run
import ShadowsocksR.Lib.Triple
import ShadowsocksR.TcpRelay.Handler

/-!
# The TCP relay of a port

`TCPRelay` with its connections: what the event loop, the resolver and the
timeouts do to it.

* `construct`: the constructor of a connection, which can raise half way;
* `onConn`: a method of one of the connections;
* `handleEvent`: what the loop calls when a socket is ready;
* `Event.run`: everything that can happen, and `step`, when it can.
-/

namespace ShadowsocksR

namespace TcpRelay

variable {O P E : Type}

/-- A connection, with the server that it has chosen when it is a client. -/
structure Conn (O P E : Type) where
  handler : Handler O P E
  chosenServer : Dest × ℕ

/-- The fields of `TCPRelay`, and how many calls of the system have been made. -/
structure Relay (O P E : Type) where
  conns : List (Conn O P E)
  server : Server
  listening : Bool
  closed : Bool
  sends : ℕ
  calls : ℕ

/-- A relay before its first event. -/
def Relay.fresh (fastOpen : Bool) : Relay O P E where
  conns := []
  server := { fastOpen }
  listening := true
  closed := false
  sends := 0
  calls := 0

/-- What happens when a connection is accepted: the outcomes of `accept` and of the calls that the
    constructor makes. -/
structure Accept (O P E : Type) where
  accept : Except Errno Unit
  encryptor : Option E
  /-- `getpeername` and `getsockname` -/
  addresses : Except Errno Unit
  /-- `TCP_MAXSEG`, if it can be had. -/
  maxSeg : Option ℤ
  /-- The plugins, with their settings. -/
  plugins : Except Raised (O × P)
  /-- `_get_a_server`, for a client. -/
  chosenServer : Except Raised (Dest × ℕ)
  /-- `setblocking`, `setsockopt` and `fileno` -/
  options : Except Errno Unit
  loopAdd : Except Errno Unit

/-- The methods of the relay. -/
abbrev RelayMethod (O P E α : Type) := EStateM Raised (Relay O P E) α

/-- The outcome of a call that raises its errors. -/
def Accept.get {α : Type} : Except Errno α → RelayMethod O P E α
  | .ok a => return a
  | .error e => throw (.os e)

/-- The outcome of a call that raises other exceptions as well. -/
def Accept.getRaising {α : Type} : Except Raised α → RelayMethod O P E α
  | .ok a => return a
  | .error e => throw e

/-- The relay after a method of one of its connections. -/
def Relay.put (r : Relay O P E) (i : ℕ) (conn : Conn O P E) (w : World O P E) : Relay O P E :=
  { r with
    conns := r.conns.set i { conn with handler := w.self }
    server := w.server
    sends := w.sends
    calls := w.calls }

/-- The world of one of the connections. -/
def Relay.world (r : Relay O P E) (i : ℕ) (conn : Conn O P E) : World O P E where
  self := conn.handler
  server := r.server
  me := i
  sends := r.sends
  calls := r.calls

/-- A method of one of the connections. -/
def onConn (c : Setup O P E) (i : ℕ) (m : Setup O P E → Method O P E Unit) :
    RelayMethod O P E Unit := fun r =>
  match r.conns[i]? with
  | none => .ok () r
  | some conn =>
    match m { c with chosenServer := conn.chosenServer } (r.world i conn) with
    | .ok a w => .ok a (r.put i conn w)
    | .error e w => .error e (r.put i conn w)

/-- `_update_tcp_mss` -/
def clampMss : Option ℤ → ℤ
  | some mss => if 500 < mss ∧ mss ≤ 1500 then mss else TCP_MSS
  | none => TCP_MSS

/-- A connection as the constructor leaves it before it touches the socket: counted, without a
    stage. -/
def Accept.handler (c : Setup O P E) (a : Accept O P E) (e : E) (o : O) (p : P) :
    Handler O P E where
  obfs := some o
  protocol := some p
  encryptor := some e
  tcpMss := clampMss a.maxSeg
  overhead := c.plugins.obfsOverhead o c.isLocal + c.plugins.protocolOverhead p c.isLocal
  recvBufferSize :=
    BUF_SIZE - (c.plugins.obfsOverhead o c.isLocal + c.plugins.protocolOverhead p c.isLocal)
  addRef := true

/-- The end of the constructor: the socket is polled, and the connection has a stage. -/
def start : Method O P E Unit := do
  emit (.add .localSock)
  modifySelf fun h => { h with polled := fun s => s = .localSock || h.polled s }
  setStage .init

/-- `TCPRelayHandler.__init__` -/
def construct (c : Setup O P E) (a : Accept O P E) : RelayMethod O P E Unit := do
  let i := (← get).conns.length
  match a.encryptor with
  | none =>
    modify fun r =>
      { r with
        conns := r.conns ++
          [⟨{ stage := .destroyed, localSock := false, log := [.stage .destroyed] },
            c.chosenServer⟩] }
  | some e =>
    Accept.get a.addresses
    let (o, p) ← Accept.getRaising a.plugins
    let chosenServer ← if c.isLocal then Accept.getRaising a.chosenServer else pure c.chosenServer
    -- from here on the connection is counted, and can time out
    modify fun r =>
      { r with
        conns := r.conns ++ [⟨a.handler c e o p, chosenServer⟩]
        server := { r.server with
          timeoutCache := r.server.timeoutCache ++ [i]
          serverConnections := r.server.serverConnections + 1 } }
    Accept.get a.options
    onConn c i fun _ => modifySelf fun h => { h with mapped := true }
    Accept.get a.loopAdd
    onConn c i fun _ => start

/-- What the loop calls: a ready socket. -/
inductive ReadyEvent (O P E : Type)
  /-- The listening socket, with an error or a connection. -/
  | listening (err : Bool) (a : Accept O P E)
  /-- A socket of a connection. -/
  | socket (i : ℕ) (sock : Sock) (ready : Ready) (env : Env)

/-- What becomes of an exception when a connection is accepted: the errors of the system are only
logged. -/
def acceptFailed : Raised → RelayMethod O P E Unit
  | .os _ => pure ()
  | .py e => throw (.py e)

/-- `TCPRelay.handle_event` -/
def handleReady (c : Setup O P E) : ReadyEvent O P E → RelayMethod O P E Unit
  | .listening err a =>
    if err then throw (.py .exception)
    else tryCatch (do
      Accept.get a.accept
      construct c a) acceptFailed
  | .socket i sock ready env => onConn c i fun c => handleEvent c env sock ready

/-- The connections in `_fd_to_handlers` are destroyed. -/
def destroyAll (c : Setup O P E) : List ℕ → RelayMethod O P E Unit
  | [] => pure ()
  | i :: is => do
    onConn c i fun _ => do if (← self).mapped then destroy
    destroyAll c is

/-- What can happen to a relay. -/
inductive Event (O P E : Type)
  /-- The loop calls `handle_event`. -/
  | ready (e : ReadyEvent O P E)
  /-- The resolver calls back a connection. -/
  | dns (i : ℕ) (answer : DnsAnswer) (env : Env)
  /-- The resolver calls back for one of the datagrams of a connection. -/
  | udpDns (i k : ℕ) (answer : DnsAnswer) (env : Env)
  /-- The connection that has been idle for the longest time is swept. -/
  | timeout
  /-- `handle_periodic`, but for the sweep. -/
  | periodic
  | close (nextTick : Bool)

/-- A connection gets the answer for one of its datagrams. -/
def udpAnswered (env : Env) (k : ℕ) (answer : DnsAnswer) : Method O P E Unit := do
  match (← self).udpLookups[k]? with
  | none => return
  | some (port, data) =>
    modifySelf fun h => { h with udpLookups := h.udpLookups.eraseIdx k }
    udpDnsResolved env port data answer

/-- What the relay does. -/
def Event.run (c : Setup O P E) : Event O P E → RelayMethod O P E Unit
  | .ready e => handleReady c e
  | .dns i answer env => onConn c i fun c => do
    modifySelf fun h => { h with dnsPending := false }
    handleDnsResolved c env answer
  | .udpDns i k answer env => onConn c i fun _ => udpAnswered env k answer
  | .timeout => do
    match (← get).server.timeoutCache with
    | [] => return
    | i :: rest =>
      modify fun r => { r with server := { r.server with timeoutCache := rest } }
      onConn c i fun _ => destroy
  | .periodic => do
    if (← get).closed then
      modify fun r => { r with listening := false }
      destroyAll c (List.range (← get).conns.length)
  | .close nextTick => do
    modify fun r => { r with closed := true }
    if !nextTick then
      modify fun r => { r with listening := false }
      destroyAll c (List.range (← get).conns.length)

/-- When it can happen: a socket is ready while the loop polls it, and the resolver calls back while
    it has the callback. -/
def Event.Enabled (r : Relay O P E) : Event O P E → Prop
  | .ready (.listening _ _) => r.listening = true
  | .ready (.socket i sock _ _) => ∃ conn, r.conns[i]? = some conn ∧ conn.handler.polled sock = true
  | .dns i _ _ => ∃ conn, r.conns[i]? = some conn ∧ conn.handler.dnsPending = true
  | _ => True

instance (r : Relay O P E) : DecidablePred (Event.Enabled r)
  | .ready (.listening _ _) => inferInstanceAs (Decidable (r.listening = true))
  | .ready (.socket i sock _ _) => decidable_of_iff
      ((r.conns[i]?.any fun conn => conn.handler.polled sock) = true)
      (by rw [Option.any_eq_true]; rfl)
  | .dns i _ _ => decidable_of_iff ((r.conns[i]?.any fun conn => conn.handler.dnsPending) = true)
      (by rw [Option.any_eq_true]; rfl)
  | .udpDns _ _ _ _ => .isTrue trivial
  | .timeout => .isTrue trivial
  | .periodic => .isTrue trivial
  | .close _ => .isTrue trivial

/-- The relay after an event, also when it has raised. -/
def step (c : Setup O P E) (r : Relay O P E) (e : Event O P E) : Option (Relay O P E) :=
  if e.Enabled r then some (after (e.run c) r) else none

end TcpRelay

end ShadowsocksR

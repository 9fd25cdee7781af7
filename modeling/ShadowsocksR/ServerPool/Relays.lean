import ShadowsocksR.Closing.Working
import ShadowsocksR.Lib.Dict

/-!
# Starting and stopping the relays of a port

`new_server` starts a TCP and a UDP relay for each family of addresses, in one `try` block for a
family, which undoes nothing. `cb_del_server` closes for the next tick what it finds in the pools.

* `newServer`, `cbDelServer`: the calls, in which what the relays call may raise;
* `step`: a call, or what the relays do between two calls;
* `Consistent`: the relays of a port are in the pools together, and the loop has no others;
* `Fits`: the condition on a step under which this stays so.
-/

namespace ShadowsocksR

namespace Starting

open Closing

/-- The families of addresses. -/
inductive Family
  | ipv6
  | ipv4
  deriving DecidableEq

/-- Whether the configuration has `server` and `server_ipv6`. -/
structure Config where
  server : Bool
  serverIpv6 : Bool

def Config.listens (config : Config) : Family → Bool
  | .ipv6 => config.serverIpv6
  | .ipv4 => config.server

/-- The fields of a `ServerPool`. A relay has the number under which the loop has it. -/
structure Pools where
  loop : Loop := {}
  /-- `tcp_servers_pool`, `udp_servers_pool`, `tcp_ipv6_servers_pool` and `udp_ipv6_servers_pool` -/
  servers : Transport → Family → Dict ℕ ℕ := fun _ _ => .empty

abbrev PoolM (α : Type) : Type := EStateM PyExc Pools α

/-- What the calls for the relays of a family come to. -/
structure Calls where
  udpCache : ℕ
  /-- `TCPRelay` and `UDPRelay` -/
  construct : Transport → Except PyExc Unit
  /-- `register`, in `add_to_loop` -/
  register : Transport → Except PyExc Unit

def raises : Except PyExc Unit → PoolM Unit
  | .ok () => pure ()
  | .error e => throw e

/-! ## The calls -/

/-- A relay that has been constructed. -/
def Calls.port (calls : Calls) (polled : Bool) : Transport → Port
  | .tcp => .tcp { polled }
  | .udp => .udp { polled, udpCacheSize := calls.udpCache }

/-- The listening socket of a relay is put into `_fdmap`. -/
def poll : Port → Port
  | .tcp p => .tcp { p with polled := true }
  | .udp p => .udp { p with polled := true }

/-- The constructor of a relay. When it raises, its socket is only in its frame. -/
def construct (calls : Calls) (t : Transport) : PoolM ℕ := do
  raises (calls.construct t)
  let s ← get
  set { s with loop := { s.loop with ports := s.loop.ports ++ [calls.port false t] } }
  return s.loop.ports.length

/-- `add_to_loop`, which changes `_fdmap` before `register` may raise. -/
def addToLoop (calls : Calls) (t : Transport) (i : ℕ) : PoolM Unit := do
  modify fun s => { s with loop := { s.loop with ports := s.loop.ports.modify i poll } }
  raises (calls.register t)
  modify fun s => { s with loop := { s.loop with
    periodicCallbacks := s.loop.periodicCallbacks ++ [i] } }

def Pools.setServers (s : Pools) (t : Transport) (f : Family) (servers : Dict ℕ ℕ) : Pools :=
  { s with servers := fun t' f' => if t' = t ∧ f' = f then servers else s.servers t' f' }

def startRelay (f : Family) (port : ℕ) (calls : Calls) (t : Transport) : PoolM Unit := do
  let i ← construct calls t
  addToLoop calls t i
  modify fun s => s.setServers t f ((s.servers t f).set port i)

/-- The `try` block of a family. -/
def start (f : Family) (port : ℕ) (calls : Calls) : PoolM Unit := do
  startRelay f port calls .tcp
  startRelay f port calls .udp

/-- The part of `new_server` for a family; whether it goes on. -/
def newFamily (config : Config) (f : Family) (port : ℕ) (calls : Calls) : PoolM Bool := do
  if config.listens f then
    if ((← get).servers .tcp f).contains port then
      pure false
    else
      tryCatch (start f port calls) fun _ => pure ()
      pure true
  else pure true

/-- What `new_server` returns. -/
inductive Reply
  | true
  | alreadyRunning

def newServer (config : Config) (port : ℕ) (calls : Family → Calls) : PoolM Reply := do
  if ← newFamily config .ipv6 port (calls .ipv6) then
    if ← newFamily config .ipv4 port (calls .ipv4) then
      pure .true
    else pure .alreadyRunning
  else pure .alreadyRunning

/-- `close(True)` and `del`, for one of the pools -/
def stopRelay (f : Family) (port : ℕ) (t : Transport) : PoolM Unit := do
  match ((← get).servers t f).get? port with
  | none => throw .keyError
  | some i =>
    modify fun s => { s with loop := (s.loop.close i true).getD s.loop }
    modify fun s => s.setServers t f ((s.servers t f).del port)

/-- The part of `cb_del_server` for a family. -/
def stopFamily (f : Family) (port : ℕ) : PoolM Unit := do
  if ((← get).servers .tcp f).contains port then
    tryCatch (stopRelay f port .tcp) fun _ => pure ()
    tryCatch (stopRelay f port .udp) fun _ => pure ()

/-- `cb_del_server`; its messages name `self.config['server']`. -/
def cbDelServer (config : Config) (port : ℕ) : PoolM Unit := do
  if config.server then
    stopFamily .ipv4 port
    if config.serverIpv6 then stopFamily .ipv6 port
  else throw .keyError

/-- A call, or what the relays do between two calls. -/
inductive Event
  | newServer (port : ℕ) (calls : Family → Calls)
  | cbDelServer (port : ℕ)
  | work (e : Closing.Event)

def step (config : Config) (s : Pools) : Event → Option Pools
  | .newServer port calls => some (after (newServer config port calls) s)
  | .cbDelServer port => some (after (cbDelServer config port) s)
  | .work e => if e.isWork then (s.loop.step e).map fun loop => { s with loop } else none

/-! ## What is to hold -/

/-- The listening socket of the relay is bound, or something of it is registered. -/
def Has (s : Loop) (i : ℕ) : Prop :=
  i ∈ s.periodicCallbacks ∨
    ∃ p : Port, s.ports[i]? = some p ∧ (p.opened = true ∨ p.polled = true)

/-- A relay that has been closed, perhaps for the next tick. -/
def Closed (s : Loop) (i : ℕ) : Prop := ∃ p : Port, s.ports[i]? = some p ∧ p.closed = true

/-- The relay is of this kind, and listens. -/
structure Serves (s : Loop) (t : Transport) (i : ℕ) (p : Port) : Prop where
  port : s.ports[i]? = some p
  transport : p.transport = t
  closed : p.closed = false
  opened : p.opened = true
  polled : p.polled = true
  registered : i ∈ s.periodicCallbacks

/-- A pool has the relay for the port. -/
def Pools.At (s : Pools) (t : Transport) (f : Family) (port i : ℕ) : Prop :=
  (s.servers t f).get? port = some i

def Pools.Pooled (s : Pools) (i : ℕ) : Prop := ∃ t f port, s.At t f port i

/-- Each port is in both pools of a family, or in none; its relays listen, and no others are in the
    loop, except perhaps those that have been closed for the next tick. -/
structure Consistent (next : Bool) (s : Pools) : Prop where
  keys : ∀ f port, (s.servers .tcp f).contains port = (s.servers .udp f).contains port
  serves : ∀ t f port i, s.At t f port i → ∃ p, Serves s.loop t i p
  pooled : ∀ i, Has s.loop i → s.Pooled i ∨ next = true ∧ Closed s.loop i

/-- Both relays are started, or the first one is refused. -/
def Calls.Whole (calls : Calls) : Prop :=
  (∃ e, calls.construct .tcp = .error e) ∨
    ∀ t, calls.construct t = .ok () ∧ calls.register t = .ok ()

/-- `new_server` comes to the relays of the family. -/
def Attempts (config : Config) (s : Pools) (port : ℕ) : Family → Prop
  | .ipv6 => config.serverIpv6 = true ∧ (s.servers .tcp .ipv6).contains port = false
  | .ipv4 => (config.serverIpv6 = true → (s.servers .tcp .ipv6).contains port = false) ∧
      config.server = true ∧ (s.servers .tcp .ipv4).contains port = false

/-- `cb_del_server` comes to relays of the port. -/
def Stops (config : Config) (s : Pools) (port : ℕ) : Prop :=
  config.server = true ∧ ((s.servers .tcp .ipv4).contains port = true ∨
    config.serverIpv6 = true ∧ (s.servers .tcp .ipv6).contains port = true)

/-- The starts that a call attempts are whole, and, unless relays may be closed for the next tick,
    no port that is running is stopped. -/
def Fits (config : Config) (next : Bool) (s : Pools) : Event → Prop
  | .newServer port calls => ∀ f, Attempts config s port f → (calls f).Whole
  | .cbDelServer port => next = true ∨ ¬Stops config s port
  | .work _ => True

end Starting

end ShadowsocksR

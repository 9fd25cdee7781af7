import ShadowsocksR.Header
import Mathlib.Data.Finset.Basic

/-!
# A connection of the TCP relay

The fields of a `TCPRelayHandler`, what the calls that it makes of the system
and of its plugins return, and what it does to the world.

* `Env`: the outcomes of the calls of the system while an event is handled;
* `Plugins`: the obfuscation, the protocol and the cipher of a port;
* `Handler`, `Server`: the fields of a connection and of its port;
* `World`: what a method of the connection changes. When it raises, the changes
  stay.
-/

namespace ShadowsocksR

namespace TcpRelay

/-! ## What a call can return -/

/-- The errors of the system that the code distinguishes. -/
inductive Errno
  /-- `EAGAIN`, which is `EWOULDBLOCK`. -/
  | again
  | inProgress
  | timedOut
  | notConn
  | other (n : ℕ)
  deriving DecidableEq

/-- What a method raises: an error of the system, which is an `OSError`, or another exception. -/
inductive Raised
  | os (e : Errno)
  | py (e : PyExc)
  deriving DecidableEq

def Raised.isOS : Raised → Bool
  | .os _ => true
  | .py _ => false

/-- What the resolver calls back with. -/
inductive DnsAnswer
  | error
  /-- No result, or none with an address. -/
  | nothing
  | ip (addr : IPAddr)

/-- The outcomes of the calls of the system while an event is handled: of those that can be made
    more than once, in their order, where `send` has an order of its own. -/
structure Env where
  recv : Except Errno Bytes
  /-- How many bytes `recv` sees with `MSG_PEEK`. -/
  peek : Except Errno ℕ
  /-- A datagram, where it comes from, and whether the text of the address has a scope. -/
  recvfrom : Except Errno (Bytes × SockAddr × Bool)
  connect : Except Errno Unit
  getSockError : Except Errno Unit
  /-- Whether one of the speed limits is exceeded. -/
  isExceed : Bool
  /-- Whether the user of the connection is in `server_users`. -/
  knownUser : Bool
  /-- How much of the data `send` accepts. -/
  send : ℕ → Except Errno ℕ
  sendto : ℕ → Except Errno ℕ
  /-- The addresses of a name; of an address, whether there are any. -/
  getaddrinfo : ℕ → Except Errno (List IPAddr)
  /-- A new socket, or an option of one. -/
  socket : ℕ → Except Errno Unit
  getsockname : ℕ → Except Errno SockAddr
  /-- `_socket_bind_addr` -/
  bindAddr : ℕ → Except Raised Unit
  /-- The calls of the loop. -/
  loopAdd : ℕ → Except Errno Unit
  loopModify : ℕ → Except Errno Unit
  /-- `resolve`, which calls back at once or later. -/
  resolve : ℕ → Except Raised (Option DnsAnswer)
  /-- `_get_redirect_host` -/
  redirectHost : ℕ → Except Raised (Bytes × ℕ)

/-- Outcomes without errors: sockets accept all that they are given, and nothing comes. -/
def Env.idle : Env where
  recv := .error .again
  peek := .error .again
  recvfrom := .error .again
  connect := .ok ()
  getSockError := .ok ()
  isExceed := false
  knownUser := true
  send _ := .ok 0xFFFF
  sendto _ := .ok 0xFFFF
  getaddrinfo _ := .ok [.v4 0]
  socket _ := .ok ()
  getsockname _ := .ok ⟨.v4 0, 0⟩
  bindAddr _ := .ok ()
  loopAdd _ := .ok ()
  loopModify _ := .ok ()
  resolve _ := .ok none
  redirectHost _ := .error (.py .exception)

/-- The plugins of a port, by their states. What else they depend on (the time, random numbers, the
    data that they share) is in the number of the call. -/
structure Plugins (O P E : Type) where
  obfsOverhead : O → Bool → ℤ
  protocolOverhead : P → Bool → ℤ
  clientEncode : ℕ → O → Bytes → Except PyExc Bytes × O
  clientDecode : ℕ → O → Bytes → Except PyExc (Bytes × Bool) × O
  serverEncode : ℕ → O → Bytes → Except PyExc Bytes × O
  /-- The data, whether it is to be decrypted, and whether to send something back. -/
  serverDecode : ℕ → O → Bytes → Except PyExc (Bytes × Bool × Bool) × O
  clientPreEncrypt : ℕ → P → Bytes → Except PyExc Bytes × P
  serverPreEncrypt : ℕ → P → Bytes → Except PyExc Bytes × P
  clientPostDecrypt : ℕ → P → Bytes → Except PyExc Bytes × P
  /-- Also the user that `update_user_func` is called with. -/
  serverPostDecrypt : ℕ → P → Bytes → Except PyExc (Bytes × Bool) × Option Bytes × P
  encrypt : ℕ → E → Bytes → Except PyExc Bytes × E
  decrypt : ℕ → E → Bytes → Except PyExc Bytes × E
  /-- `server_info.iv` and so on, of the protocol. -/
  iv : P → Bytes
  recvIv : P → Bytes
  setRecvIv : P → Bytes → P
  tcpMss : P → ℤ
  setOverhead : P → ℤ → P
  setBufferSize : O → P → ℤ → O × P
  setHeadLen : O → P → ℤ → O × P

/-- The configuration of a port, and the functions of `common` on names. -/
structure Setup (O P E : Type) where
  plugins : Plugins O P E
  isLocal : Bool
  forbiddenIplist : Option IPNetwork := none
  forbiddenPortset : Option (Finset ℕ) := none
  /-- `_get_a_server` -/
  chosenServer : Dest × ℕ
  crc32 : Bytes → ℕ
  /-- `is_ip`, with the address. -/
  isIp : Bytes → Option IPAddr
  /-- Whether `to_str` can decode a name. -/
  toStr : Bytes → Bool

/-- The obfuscation `plain`, the protocol `origin` and the cipher `none`, which leave data as it
    is. -/
def Plugins.plain : Plugins Unit Unit Unit where
  obfsOverhead _ _ := 0
  protocolOverhead _ _ := 0
  clientEncode _ _ buf := (.ok buf, ())
  clientDecode _ _ buf := (.ok (buf, false), ())
  serverEncode _ _ buf := (.ok buf, ())
  serverDecode _ _ buf := (.ok (buf, true, false), ())
  clientPreEncrypt _ _ buf := (.ok buf, ())
  serverPreEncrypt _ _ buf := (.ok buf, ())
  clientPostDecrypt _ _ buf := (.ok buf, ())
  serverPostDecrypt _ _ buf := (.ok (buf, false), none, ())
  encrypt _ _ buf := (.ok buf, ())
  decrypt _ _ buf := (.ok buf, ())
  iv _ := []
  recvIv _ := []
  setRecvIv _ _ := ()
  tcpMss _ := 1460
  setOverhead _ _ := ()
  setBufferSize _ _ _ := ((), ())
  setHeadLen _ _ _ := ((), ())

/-- A port without obfuscation and without forbidden addresses. -/
def Setup.plain (isLocal : Bool) : Setup Unit Unit Unit where
  plugins := .plain
  isLocal
  chosenServer := (.ip (.v4 0x7F000001), 8388)
  crc32 _ := 0
  isIp _ := none
  toStr _ := true

/-! ## The state -/

inductive Stage
  /-- The constructor has not set the stage. -/
  | unset
  | init
  | addr
  | udpAssoc
  | dns
  | connecting
  | stream
  | destroyed
  deriving DecidableEq

/-- `WAIT_STATUS_INIT` and so on, a set of flags. -/
structure WaitStatus where
  reading : Bool
  writing : Bool
  deriving DecidableEq

def WAIT_STATUS_INIT : WaitStatus := ⟨false, false⟩
def WAIT_STATUS_READING : WaitStatus := ⟨true, false⟩
def WAIT_STATUS_WRITING : WaitStatus := ⟨false, true⟩
def WAIT_STATUS_READWRITING : WaitStatus := ⟨true, true⟩

def BUF_SIZE : ℤ := 32 * 1024
def UDP_MAX_BUF_SIZE : ℕ := 65536
def TCP_MSS : ℤ := 1500 - 40

inductive Stream
  | up
  | down

/-- The sockets of a connection. -/
inductive Sock
  | localSock
  | remoteSock
  | remoteSockV6
  deriving DecidableEq

/-- What a connection does to the world, in the order in which it does it. -/
inductive Effect
  /-- A value is assigned to the stage. -/
  | stage (s : Stage)
  /-- A socket is opened. -/
  | socket (s : Sock)
  /-- A socket is added to the loop. -/
  | add (s : Sock)
  | connect (a : SockAddr)
  /-- A datagram is sent. -/
  | sendto (a : SockAddr) (data : Bytes)
  /-- A socket accepts data. -/
  | send (s : Sock) (data : Bytes)
  /-- The resources are released. -/
  | destroy

/-- The fields of `TCPRelayHandler`; of a socket, whether there is one. -/
structure Handler (O P E : Type) where
  stage : Stage := .unset
  localSock : Bool := true
  remoteSock : Bool := false
  remoteSockV6 : Bool := false
  /-- The sockets that the loop polls. -/
  polled : Sock → Bool := fun _ => false
  remoteUdp : Bool := false
  encryptCorrect : Bool := true
  isRedirect : Bool := false
  obfs : Option O := none
  protocol : Option P := none
  encryptor : Option E := none
  overhead : ℤ := 0
  tcpMss : ℤ := TCP_MSS
  recvBufferSize : ℤ := BUF_SIZE
  fastopenConnected : Bool := false
  dataToWriteToLocal : List Bytes := []
  dataToWriteToRemote : List Bytes := []
  udpDataSendBuffer : Bytes := []
  upstreamStatus : WaitStatus := WAIT_STATUS_READING
  downstreamStatus : WaitStatus := WAIT_STATUS_INIT
  remoteAddress : Option (Dest × ℕ) := none
  user : Option Bytes := none
  addRef : Bool := false
  recvUMaxSize : ℤ := BUF_SIZE
  recvDMaxSize : ℤ := BUF_SIZE
  recvPackId : ℕ := 0
  /-- Whether the resolver has a callback of the connection. -/
  dnsPending : Bool := false
  /-- The datagrams for names that the resolver has not answered. -/
  udpLookups : List (ℕ × Bytes) := []
  /-- Whether `_fd_to_handlers` has the connection. -/
  mapped : Bool := false
  /-- What it has done, for an observer. -/
  log : List Effect := []

/-- The status of a stream. -/
def Handler.status {O P E : Type} (h : Handler O P E) : Stream → WaitStatus
  | .up => h.upstreamStatus
  | .down => h.downstreamStatus

def Handler.setStatus {O P E : Type} (h : Handler O P E) (stream : Stream) (status : WaitStatus) :
    Handler O P E :=
  match stream with
  | .up => { h with upstreamStatus := status }
  | .down => { h with downstreamStatus := status }

/-- The fields of `TCPRelay` that its connections change. -/
structure Server where
  serverConnections : ℤ := 0
  /-- The connections that time out, by their numbers. -/
  timeoutCache : List ℕ := []
  fastOpen : Bool := false

/-- The world of a method: its connection, which has a number, its port, and how many calls of the
    system have been made. -/
structure World (O P E : Type) where
  self : Handler O P E
  server : Server
  me : ℕ
  sends : ℕ := 0
  calls : ℕ := 0

/-- The methods of a connection. -/
abbrev Method (O P E α : Type) := EStateM Raised (World O P E) α

variable {O P E α : Type}

/-- `self` -/
def self : Method O P E (Handler O P E) := do return (← get).self

def modifySelf (f : Handler O P E → Handler O P E) : Method O P E Unit :=
  modify fun w => { w with self := f w.self }

def modifyServer (f : Server → Server) : Method O P E Unit :=
  modify fun w => { w with server := f w.server }

def emit (e : Effect) : Method O P E Unit := modifySelf fun h => { h with log := h.log ++ [e] }

/-- The outcome of a call of the system. -/
def ask (f : ℕ → α) : Method O P E α := do
  let w ← get
  set { w with calls := w.calls + 1 }
  return f w.calls

/-- A call of the system that raises its errors. -/
def call (f : ℕ → Except Errno α) : Method O P E α := do
  match ← ask f with
  | .ok a => return a
  | .error e => throw (.os e)

/-- A call that raises other exceptions as well. -/
def callRaising (f : ℕ → Except Raised α) : Method O P E α := do
  match ← ask f with
  | .ok a => return a
  | .error e => throw e

/-- Assigning the stage. -/
def setStage (s : Stage) : Method O P E Unit := do
  modifySelf fun h => { h with stage := s }
  emit (.stage s)

/-- A call of a plugin, which is `None` after `destroy`. -/
def onPlugin {S : Type} (get : Handler O P E → Option S) (put : S → Handler O P E → Handler O P E)
    (f : ℕ → S → Bytes → Except PyExc α × S) (data : Bytes) : Method O P E α := do
  match get (← self) with
  | none => throw (.py .attributeError)
  | some s =>
    let n ← ask id
    modifySelf (put (f n s data).2)
    match (f n s data).1 with
    | .ok a => return a
    | .error e => throw (.py e)

/-- A method of `self._obfs`. -/
def onObfs : (ℕ → O → Bytes → Except PyExc α × O) → Bytes → Method O P E α :=
  onPlugin (·.obfs) fun o h => { h with obfs := some o }

/-- A method of `self._protocol`. -/
def onProtocol : (ℕ → P → Bytes → Except PyExc α × P) → Bytes → Method O P E α :=
  onPlugin (·.protocol) fun p h => { h with protocol := some p }

/-- A method of `self._encryptor`. -/
def onEncryptor : (ℕ → E → Bytes → Except PyExc α × E) → Bytes → Method O P E α :=
  onPlugin (·.encryptor) fun c h => { h with encryptor := some c }

/-- `self._obfs` -/
def getObfs : Method O P E O := do
  match (← self).obfs with
  | none => throw (.py .attributeError)
  | some o => return o

/-- `self._protocol` -/
def getProtocol : Method O P E P := do
  match (← self).protocol with
  | none => throw (.py .attributeError)
  | some p => return p

end TcpRelay

end ShadowsocksR

import ShadowsocksR.TcpRelay.State

/-!
# The methods of a connection

The methods of `TCPRelayHandler`, in the order of the source but for `destroy`,
which the others call.

* `writeToSock`: writing to a socket, and UDP over TCP;
* `handleStageAddr`, `createRemoteSocket`, `handleDnsResolved`: a request;
* `onLocalRead`, `onRemoteRead` and so on: the events of the sockets;
* `handleEvent`: which event goes where.
-/

namespace ShadowsocksR

namespace TcpRelay

variable {O P E : Type} (c : Setup O P E) (env : Env)

/-- `except Exception` around a method that then gives up: whether it has returned. -/
def guarded (m : Method O P E Unit) (onError : Method O P E Unit) : Method O P E Bool :=
  tryCatch (do m; return true) fun _ => do onError; return false

/-- `destroy`. Neither closing a socket nor disposing of a plugin raises. -/
def destroy : Method O P E Unit := do
  let h ← self
  match h.stage with
  | .unset => throw (.py .attributeError)
  | .destroyed => return
  | _ =>
    setStage .destroyed
    emit .destroy
    modifySelf fun h =>
      { h with
        remoteSock := false
        remoteSockV6 := false
        localSock := false
        polled := fun _ => false
        mapped := false
        obfs := none
        protocol := none
        encryptor := none
        dnsPending := false }
    let me := (← get).me
    modifyServer fun s =>
      { s with
        timeoutCache := s.timeoutCache.filter (· ≠ me)
        serverConnections := if h.addRef then s.serverConnections - 1 else s.serverConnections }

/-- `_update_user` -/
def updateUser (user : Bytes) : Method O P E Unit := do
  modifySelf fun h => { h with user := some user }
  if user.length ≠ 4 then throw (.py .structError)

/-- `_update_activity` -/
def updateActivity : Method O P E Unit := do
  let me := (← get).me
  modifyServer fun s => { s with timeoutCache := s.timeoutCache.filter (· ≠ me) ++ [me] }

/-- `_update_stream` -/
def updateStream (stream : Stream) (status : WaitStatus) : Method O P E Unit := do
  let h ← self
  modifySelf fun h => h.setStatus stream status
  if h.status stream ≠ status then
    if h.localSock then call env.loopModify
    if h.remoteSock then
      call env.loopModify
      if h.remoteSockV6 then call env.loopModify

/-! ## UDP over TCP -/

/-- `_handle_server_dns_resolved`, for a destination that has been resolved. -/
def handleServerDnsResolved (serverAddr : IPAddr) (port : ℕ) (data : Bytes) : Method O P E Unit :=
  tryCatch (do
    match ← call env.getaddrinfo with
    | [] => return
    | _ =>
      let h ← self
      match serverAddr.family with
      | .inet6 =>
        if h.remoteSockV6 then
          emit (.sendto ⟨serverAddr, port⟩ data)
          let _ ← call env.sendto
        else throw (.py .attributeError)
      | .inet =>
        if h.remoteSock then
          emit (.sendto ⟨serverAddr, port⟩ data)
          let _ ← call env.sendto
        else throw (.py .attributeError)) fun _ => pure ()

/-- `UDPAsyncDNSHandler._handle_dns_resolved`, for a datagram to this port. -/
def udpDnsResolved (port : ℕ) (data : Bytes) : DnsAnswer → Method O P E Unit
  | .ip addr => handleServerDnsResolved env addr port data
  | _ => pure ()

/-- The loop of `_write_to_sock` over the datagrams in the buffer, which are at most so many. -/
def udpLoop : ℕ → Method O P E Unit
  | 0 => pure ()
  | fuel + 1 => do
    let buffer := (← self).udpDataSendBuffer
    let length := unpackBE (buffer.take 2)
    if buffer.length ≤ 6 ∨ length > buffer.length then return
    let data := buffer.take length
    modifySelf fun h => { h with udpDataSendBuffer := buffer.drop length }
    match data[2]? with
    | none => throw (.py .indexError)
    | some frag =>
      if frag ≠ 0 then udpLoop fuel
      else
        let data := data.drop 3
        match parseHeader data with
        | .error e => throw (.py e)
        | .ok none => udpLoop fuel
        | .ok (some header) =>
          let payload := data.drop header.headerLength
          match header.destAddr with
          | .ip addr => handleServerDnsResolved env addr header.destPort payload
          | .host name =>
            match c.isIp name with
            | some addr => handleServerDnsResolved env addr header.destPort payload
            | none =>
              match ← callRaising env.resolve with
              | some answer => udpDnsResolved env header.destPort payload answer
              | none => modifySelf fun h =>
                  { h with udpLookups := h.udpLookups ++ [(header.destPort, payload)] }
              udpLoop fuel

/-- `_write_to_sock`, when the data is for UDP. -/
def writeUdp (data : Bytes) : Method O P E Unit :=
  tryCatch (do
    modifySelf fun h => { h with udpDataSendBuffer := h.udpDataSendBuffer ++ data }
    udpLoop c env (← self).udpDataSendBuffer.length) fun
    | .os .again | .os .inProgress => pure ()
    | _ => destroy

/-! ## Writing -/

/-- What is left of the data is queued, and the stream waits for the socket; or it goes on. -/
def afterSend (sock : Sock) (data : Bytes) (uncomplete : Bool) : Method O P E Unit :=
  if uncomplete then
    match sock with
    | .localSock => do
      modifySelf fun h => { h with dataToWriteToLocal := h.dataToWriteToLocal ++ [data] }
      updateStream env .down WAIT_STATUS_WRITING
    | _ => do
      modifySelf fun h => { h with dataToWriteToRemote := h.dataToWriteToRemote ++ [data] }
      updateStream env .up WAIT_STATUS_WRITING
  else
    match sock with
    | .localSock => updateStream env .down WAIT_STATUS_READING
    | _ => updateStream env .up WAIT_STATUS_READING

/-- `sock.send` -/
def send (sock : Sock) (data : Bytes) : Method O P E (Except Errno ℕ) := do
  let w ← get
  set { w with sends := w.sends + 1 }
  match env.send w.sends with
  | .ok n =>
    emit (.send sock (data.take n))
    return .ok n
  | .error e => return .error e

/-- `_write_to_sock`, to the local or the remote socket. -/
def writeToSock (data : Bytes) (sock : Sock) : Method O P E Unit := do
  let h ← self
  if !(match sock with | .localSock => h.localSock | _ => h.remoteSock) then return
  if h.remoteUdp && sock = .remoteSock then writeUdp c env data
  else
    updateActivity
    if data = [] then return
    match ← send env sock data with
    | .ok n => afterSend env sock (data.drop n) (decide (n < data.length))
    | .error .again | .error .inProgress => afterSend env sock data true
    | .error _ => destroy

/-! ## A request -/

/-- `_handel_protocol_error` -/
def handelProtocolError (ognData : Bytes) : Method O P E Bytes := do
  modifySelf fun h => { h with encryptCorrect := false }
  let (host, port) ← callRaising env.redirectHost
  if port = 0 then throw (.py .exception)
  if host.length ≥ 256 then throw (.py .valueError)
  if port ≥ 65536 then throw (.py .structError)
  modifySelf fun h => { h with isRedirect := true }
  return 3 :: UInt8.ofNat host.length :: (host ++ (packLE 2 port).reverse) ++ ognData

/-- The forbidden addresses and ports, for a connection to an address. -/
def checkForbidden (a : SockAddr) : Method O P E Unit := do
  if c.forbiddenIplist.any (·.contains a.ip) then throw (.py .exception)
  if c.forbiddenPortset.any fun s => a.port ∈ s then throw (.py .exception)

/-- `getaddrinfo` of an address, which is its own, or of a name. -/
def getaddrinfo : Dest → Method O P E (List IPAddr)
  | .ip addr => do
    match ← call env.getaddrinfo with
    | [] => return []
    | _ => return [addr]
  | .host _ => call env.getaddrinfo

/-- A handler with another remote socket. -/
def Handler.withSocket (h : Handler O P E) : Sock → Handler O P E
  | .remoteSockV6 => { h with remoteSockV6 := true }
  | _ => { h with remoteSock := true }

/-- A socket is opened, and gets its options. -/
def openSocket (sock : Sock) : Method O P E Unit := do
  call env.socket
  emit (.socket sock)
  modifySelf (·.withSocket sock)

/-- `_create_remote_socket` -/
def createRemoteSocket (ip : Dest) (port : ℕ) : Method O P E Unit := do
  let h ← self
  if h.remoteUdp then
    let addrsV6 ← call env.getaddrinfo
    let addrs ← call env.getaddrinfo
    if addrs = [] then throw (.py .exception)
    openSocket env .remoteSock
    if addrsV6 = [] then throw (.py .indexError)
    openSocket env .remoteSockV6
    call env.socket
    if !c.isLocal then
      callRaising env.bindAddr
      callRaising env.bindAddr
  else
    match ← getaddrinfo env ip with
    | [] => throw (.py .exception)
    | addr :: _ =>
      if !h.isRedirect then checkForbidden c ⟨addr, port⟩
      openSocket env .remoteSock
      call env.socket
      if !c.isLocal then callRaising env.bindAddr

/-- `self._loop.add` -/
def addToLoop (sock : Sock) : Method O P E Unit := do
  call env.loopAdd
  emit (.add sock)
  modifySelf fun h => { h with polled := fun s => s = sock || h.polled s }

/-- The data for the remote is written while there is any; so much there is. -/
def flushUdp : ℕ → Method O P E Unit
  | 0 => pure ()
  | fuel + 1 => do
    match (← self).dataToWriteToRemote with
    | [] => return
    | data :: rest =>
      modifySelf fun h => { h with dataToWriteToRemote := rest }
      writeToSock c env data .remoteSock
      flushUdp fuel

/-- The end of `_handle_dns_resolved`, when the socket is there. -/
def startStream : Method O P E Unit := do
  setStage .connecting
  updateStream env .up WAIT_STATUS_READWRITING
  updateStream env .down WAIT_STATUS_READING
  let h ← self
  if h.remoteUdp then flushUdp c env h.dataToWriteToRemote.length

/-- The `try` of `_handle_dns_resolved`. -/
def connectTo (addr : IPAddr) : Method O P E Unit := do
  setStage .connecting
  let h ← self
  let port ← if c.isLocal then pure c.chosenServer.2 else
    match h.remoteAddress with
    | some (_, port) => pure port
    | none => throw (.py .typeError)
  if c.isLocal && (← get).server.fastOpen then
    setStage .connecting
    updateStream env .up WAIT_STATUS_READING
  else
    createRemoteSocket c env (.ip addr) port
    if h.remoteUdp then
      addToLoop env .remoteSock
      addToLoop env .remoteSockV6
    else
      emit (.connect ⟨addr, port⟩)
      match env.connect with
      | .ok () | .error .inProgress | .error .again => pure ()
      | .error e => throw (.os e)
      let _ ← call env.getsockname
      addToLoop env .remoteSock
    startStream c env

/-- `_handle_dns_resolved` -/
def handleDnsResolved : DnsAnswer → Method O P E Unit
  | .ip addr => do
    if !(← guarded (connectTo c env addr) (pure ())) then destroy
  | _ => destroy

/-- The resolver is asked, and may call back at once: it does when the name is an address. -/
def resolve : Dest → Method O P E Unit
  | .ip addr => handleDnsResolved c env (.ip addr)
  | .host _ => do
    match ← callRaising env.resolve with
    | some answer => handleDnsResolved c env answer
    | none => modifySelf fun h => { h with dnsPending := true }

/-- `_get_head_size` -/
def getHeadSize (buf : Bytes) (defValue : ℤ) : ℤ :=
  match buf with
  | b :: b' :: _ =>
    let headType := b &&& 0xF
    if headType = 1 then 7
    else if headType = 4 then 19
    else if headType = 3 then 4 + b'.toNat
    else defValue
  | _ => defValue

def CMD_CONNECT : UInt8 := 1
def CMD_UDP_ASSOCIATE : UInt8 := 3

/-- The header of a client's request for UDP, with the address of the socket. -/
def udpAssociateReply (a : SockAddr) : Bytes :=
  (match a.ip with
    | .v4 n => [5, 0, 0, 1] ++ (packLE 4 n).reverse
    | .v6 n => [5, 0, 0, 4] ++ (packLE 16 n).reverse) ++ (packLE 2 a.port).reverse

/-- The overhead is updated. -/
def updateOverhead : Method O P E Unit := do
  let o ← getObfs
  let p ← getProtocol
  modifySelf fun h =>
    { h with overhead := c.plugins.obfsOverhead o c.isLocal + c.plugins.protocolOverhead p c.isLocal }

/-- `self._protocol`, `self._encryptor` and `self._obfs` of a client, one after the other. -/
def clientEncodeAll (data : Bytes) : Method O P E Bytes := do
  let data ← onProtocol c.plugins.clientPreEncrypt data
  let data ← onEncryptor c.plugins.encrypt data
  onObfs c.plugins.clientEncode data

/-- The end of `_handle_stage_addr`, when the request is known. -/
def startRequest (data : Bytes) (header : RequestHeader) : Method O P E Unit := do
  if !(match header.destAddr with | .ip _ => true | .host name => c.toStr name) then
    throw (.py .valueError)
  modifySelf fun h =>
    { h with
      remoteAddress := some (header.destAddr, header.destPort)
      remoteUdp := header.connecttype }
  updateStream env .up WAIT_STATUS_WRITING
  setStage .dns
  if c.isLocal then
    writeToSock c env [5, 0, 0, 1, 0, 0, 0, 0, 16, 16] .localSock
    let o ← getObfs
    let p ← getProtocol
    let (o, p) := c.plugins.setHeadLen o p (getHeadSize data 30)
    modifySelf fun h => { h with obfs := some o, protocol := some p }
    let dataToSend ← clientEncodeAll c data
    if dataToSend ≠ [] then
      modifySelf fun h => { h with dataToWriteToRemote := h.dataToWriteToRemote ++ [dataToSend] }
    resolve c env c.chosenServer.1
  else
    if data.length > header.headerLength then
      modifySelf fun h =>
        { h with
          dataToWriteToRemote := h.dataToWriteToRemote ++ [data.drop header.headerLength] }
    resolve c env header.destAddr

/-- `parse_header`, where `None` stands for an exception when it is unpacked. -/
def parseRequest (data : Bytes) : Method O P E (Option RequestHeader) :=
  match parseHeader data with
  | .ok r => pure r
  | .error e => throw (.py e)

/-- The request of a server: what cannot be parsed is redirected. -/
def serverRequest (ognData data : Bytes) : Method O P E (Bytes × Option RequestHeader) := do
  let data ← match preParseHeader c.crc32 data with
    | .error e => throw (.py e)
    | .ok (some data) => pure data
    | .ok none => handelProtocolError env ognData
  let header ← parseRequest data
  let known := match header with
    | some header => match header.destAddr with
      | .ip _ => true
      | .host name => c.toStr name
    | none => false
  let (data, header) ← if known then pure (data, header) else do
    let data ← handelProtocolError env ognData
    pure (data, ← parseRequest data)
  updateOverhead c
  modifySelf fun h => { h with recvBufferSize := BUF_SIZE - h.overhead }
  let o ← getObfs
  let p ← getProtocol
  let (o, p) := c.plugins.setBufferSize o p (← self).recvBufferSize
  modifySelf fun h => { h with obfs := some o, protocol := some p }
  return (data, header)

/-- The `try` of `_handle_stage_addr`. -/
def stageAddr (ognData data : Bytes) : Method O P E Unit := do
  if c.isLocal then
    match data[1]? with
    | none => throw (.py .indexError)
    | some cmd =>
      if cmd = CMD_UDP_ASSOCIATE then
        let a ← call env.getsockname
        writeToSock c env (udpAssociateReply a) .localSock
        setStage .udpAssoc
      else if cmd = CMD_CONNECT then
        match ← parseRequest (data.drop 3) with
        | none => throw (.py .typeError)
        | some header => startRequest c env (data.drop 3) header
      else destroy
  else
    match ← serverRequest c env ognData data with
    | (_, none) => throw (.py .typeError)
    | (data, some header) => startRequest c env data header

/-- `_handle_stage_addr` -/
def handleStageAddr (ognData data : Bytes) : Method O P E Unit := do
  let _ ← guarded (stageAddr c env ognData data) destroy

/-- The `try` of `_handle_stage_connecting`, for fast open. -/
def fastOpen : Method O P E Unit := do
  modifySelf fun h => { h with fastopenConnected := true }
  createRemoteSocket c env c.chosenServer.1 c.chosenServer.2
  addToLoop env .remoteSock
  let data := (← self).dataToWriteToRemote.flatten
  let n ← call env.sendto
  emit (.send .remoteSock (data.take n))
  modifySelf fun h =>
    { h with dataToWriteToRemote := if n < data.length then [data.drop n] else [] }
  updateStream env .up WAIT_STATUS_READWRITING

/-- `_handle_stage_connecting` -/
def handleStageConnecting (data : Bytes) : Method O P E Unit := do
  let data ← if c.isLocal && (← self).encryptor.isSome then clientEncodeAll c data else pure data
  if data ≠ [] then
    modifySelf fun h => { h with dataToWriteToRemote := h.dataToWriteToRemote ++ [data] }
  if c.isLocal && !(← self).fastopenConnected && (← get).server.fastOpen then
    tryCatch (fastOpen c env) fun
      | .os .inProgress => updateStream env .up WAIT_STATUS_READWRITING
      | .os .notConn => do
        modifyServer fun s => { s with fastOpen := false }
        destroy
      | .os _ => destroy
      | .py e => throw (.py e)

/-- What `_check_auth_method` finds. -/
inductive AuthMethod
  | ok
  | badSocksHeader
  | noAcceptableMethods

def checkAuthMethod (data : Bytes) : AuthMethod :=
  match data with
  | socksVersion :: nmethods :: methods =>
    if data.length < 3 then .badSocksHeader
    else if socksVersion ≠ 5 then .badSocksHeader
    else if nmethods < 1 ∨ data.length ≠ nmethods.toNat + 2 then .badSocksHeader
    else if 0 ∈ methods then .ok
    else .noAcceptableMethods
  | _ => .badSocksHeader

/-- `_handle_stage_init` -/
def handleStageInit (data : Bytes) : Method O P E Unit := do
  match checkAuthMethod data with
  | .badSocksHeader => destroy
  | .noAcceptableMethods =>
    writeToSock c env [5, 255] .localSock
    destroy
  | .ok =>
    writeToSock c env [5, 0] .localSock
    setStage .addr

/-! ## Events of the sockets -/

/-- `_get_read_size` -/
def getReadSize (recvBufferSize : ℤ) (up : Bool) : Method O P E ℤ := do
  let h ← self
  if h.overhead = 0 then return recvBufferSize
  if recvBufferSize < 0 then throw (.py .valueError)
  let available ← call fun _ => env.peek
  let bufferSize : ℤ := min available recvBufferSize
  let frameSize := h.tcpMss - h.overhead
  let bufferSize := min bufferSize (if up then h.recvUMaxSize else h.recvDMaxSize)
  modifySelf fun h =>
    if up then { h with recvUMaxSize := min (h.recvUMaxSize + frameSize) BUF_SIZE }
    else { h with recvDMaxSize := min (h.recvDMaxSize + frameSize) BUF_SIZE }
  if bufferSize = recvBufferSize then return bufferSize
  if bufferSize > frameSize then
    if frameSize = 0 then throw (.py .zeroDivisionError)
    return bufferSize.tdiv frameSize * frameSize
  return bufferSize

/-- `sock.recv` -/
def recv (size : ℤ) : Method O P E (Except Errno Bytes) := do
  if size < 0 then throw (.py .valueError)
  match env.recv with
  | .ok data => return .ok (data.take size.toNat)
  | .error e => return .error e

/-- `recv_iv` is taken from the first data. -/
def captureIv (data : Bytes) : Method O P E Unit := do
  let p ← getProtocol
  if c.plugins.recvIv p = [] then
    modifySelf fun h =>
      { h with protocol := some (c.plugins.setRecvIv p (data.take (c.plugins.iv p).length)) }

/-- `server_post_decrypt`, with the user that it finds. -/
def serverPostDecrypt (data : Bytes) : Method O P E (Bytes × Bool) := do
  match (← self).protocol with
  | none => throw (.py .attributeError)
  | some p =>
    let n ← ask id
    let (r, user, p) := c.plugins.serverPostDecrypt n p data
    modifySelf fun h => { h with protocol := some p }
    match user with
    | some user => updateUser user
    | none => pure ()
    match r with
    | .ok r => return r
    | .error e => throw (.py e)

/-- What a server sends back when the protocol asks for it; whether it goes on. -/
def sendBack : Method O P E Bool := do
  let data ← onProtocol c.plugins.serverPreEncrypt []
  let data ← onEncryptor c.plugins.encrypt data
  let data ← onObfs c.plugins.serverEncode data
  guarded (writeToSock c env data .localSock) destroy

/-- The first `try` of a server that has read: `server_decode`. -/
def serverDecode (data : Bytes) : Method O P E (Option (Bytes × Bool × Bool)) :=
  tryCatch (do
    let r ← onObfs c.plugins.serverDecode data
    if (← self).stage = .init then
      updateOverhead c
      let p ← getProtocol
      modifySelf fun h => { h with protocol := some (c.plugins.setOverhead p h.overhead) }
    return some r) fun _ => do
      destroy
      return none

/-- The last `try`: `server_post_decrypt`. -/
def serverUnpack (data : Bytes) : Method O P E (Option Bytes) :=
  tryCatch (do
    let (data, back) ← serverPostDecrypt c data
    if back then
      if !(← sendBack c env) then return none
    return some data) fun _ => do
      destroy
      return none

/-- What a server makes of the data that it has read: the data of the client, if it goes on. -/
def serverRead (data : Bytes) : Method O P E (Option Bytes) := do
  match ← serverDecode c data with
  | none => return none
  | some (data, needDecrypt, needSendBack) =>
    let goesOn ← if needSendBack then do
        let back ← onObfs c.plugins.serverEncode []
        guarded (writeToSock c env back .localSock) destroy
      else pure true
    if !goesOn then return none
    let data ← if needDecrypt then do
        captureIv c data
        onEncryptor c.plugins.decrypt data
      else pure data
    serverUnpack c env data

/-- The end of `_on_local_read`: what is read goes where the stage says. -/
def dispatchLocal (ognData data : Bytes) : Method O P E Unit := do
  let h ← self
  if h.stage = .stream then
    let data ← if c.isLocal && h.encryptor.isSome then clientEncodeAll c data else pure data
    writeToSock c env data .remoteSock
  else if c.isLocal && h.stage = .init then handleStageInit c env data
  else if h.stage = .connecting then handleStageConnecting c env data
  else if (c.isLocal && h.stage = .addr) || (!c.isLocal && h.stage = .init) then
    handleStageAddr c env ognData data

/-- What `_on_local_read` receives. -/
def readLocal : Method O P E (Except Errno Bytes) := do
  let h ← self
  let recvBufferSize ← if c.isLocal then getReadSize env h.recvBufferSize true else pure BUF_SIZE
  recv env recvBufferSize

/-- `_on_local_read` -/
def onLocalRead : Method O P E Unit := do
  let h ← self
  if !h.localSock then return
  match ← readLocal c env with
  | .error .timedOut | .error .again => return
  | .error _ | .ok [] => destroy
  | .ok data =>
    if c.isLocal then dispatchLocal c env data data
    else
      if h.encryptor.isNone then return
      if h.encryptCorrect then
        match ← serverRead c env data with
        | none | some [] => return
        | some data' => dispatchLocal c env data data'
      else dispatchLocal c env data data

/-- A datagram as the client gets it, with its length and its source. -/
def udpFrame (data : Bytes) (src : SockAddr) : Except PyExc Bytes :=
  let data := match src.ip with
    | .v4 n => [0, 1] ++ (packLE 4 n).reverse ++ (packLE 2 src.port).reverse ++ data
    | .v6 n => [0, 4] ++ (packLE 16 n).reverse ++ (packLE 2 src.port).reverse ++ data
  let size := data.length + 2
  if size < 65536 then .ok ((packLE 2 size).reverse ++ data) else .error .structError

/-- The `try` of `_on_remote_read`. -/
def recvRemote (isRemoteSock : Bool) : Method O P E (Except Errno Bytes) := do
  let h ← self
  if h.remoteUdp then
    if !(if isRemoteSock then h.remoteSock else h.remoteSockV6) then throw (.py .attributeError)
    match env.recvfrom with
    | .error e => return .error e
    -- `inet_pton` does not know a scope: its `OSError` leaves the datagram as it is.
    | .ok (data, _, true) => return .ok (data.take UDP_MAX_BUF_SIZE)
    | .ok (data, src, false) =>
      match udpFrame (data.take UDP_MAX_BUF_SIZE) src with
      | .ok data => return .ok data
      | .error e => throw (.py e)
  else
    if !h.remoteSock then throw (.py .attributeError)
    let size : Except Errno ℤ ← if c.isLocal then pure (.ok BUF_SIZE) else
      tryCatch (do return .ok (← getReadSize env h.recvBufferSize false)) fun
        | .os e => return .error e
        | .py e => throw (.py e)
    match size with
    | .error e => return .error e
    | .ok size =>
      match ← recv env size with
      | .ok data =>
        modifySelf fun h => { h with recvPackId := h.recvPackId + 1 }
        return .ok data
      | .error e => return .error e

/-- A `try` around a call of a plugin. -/
def orDestroy {α : Type} (m : Method O P E α) : Method O P E (Option α) :=
  tryCatch (do return some (← m)) fun _ => do
    destroy
    return none

/-- What a client makes of the data that it has read, if it goes on. -/
def clientRead (data : Bytes) : Method O P E (Option Bytes) := do
  match ← orDestroy (onObfs c.plugins.clientDecode data) with
  | none => return none
  | some (data, needSendBack) =>
    if needSendBack then
      let back ← onObfs c.plugins.clientEncode []
      writeToSock c env back .remoteSock
    captureIv c data
    let data ← onEncryptor c.plugins.decrypt data
    orDestroy do
      let data ← onProtocol c.plugins.clientPostDecrypt data
      if (← self).recvPackId = 1 then
        let p ← getProtocol
        modifySelf fun h => { h with tcpMss := c.plugins.tcpMss p }
      return data

/-- What a server sends to the client. -/
def serverEncodeAll (data : Bytes) : Method O P E Bytes := do
  let data ← if (← self).encryptCorrect then do
      let data ← onProtocol c.plugins.serverPreEncrypt data
      let data ← onEncryptor c.plugins.encrypt data
      onObfs c.plugins.serverEncode data
    else pure data
  updateActivity
  return data

/-- `_on_remote_read` -/
def onRemoteRead (isRemoteSock : Bool) : Method O P E Unit := do
  match ← recvRemote c env isRemoteSock with
  | .error .timedOut | .error .again => return
  | .error _ | .ok [] => destroy
  | .ok data =>
    if (← self).encryptor.isNone then return
    match ← (if c.isLocal then clientRead c env data else some <$> serverEncodeAll c data) with
    | none => return
    | some data =>
      let _ ← guarded (writeToSock c env data .localSock) destroy

/-- `_on_local_write` -/
def onLocalWrite : Method O P E Unit := do
  let h ← self
  if h.dataToWriteToLocal ≠ [] then
    modifySelf fun h => { h with dataToWriteToLocal := [] }
    writeToSock c env h.dataToWriteToLocal.flatten .localSock
  else updateStream env .down WAIT_STATUS_READING

/-- `_on_remote_write` -/
def onRemoteWrite : Method O P E Unit := do
  setStage .stream
  let h ← self
  if h.dataToWriteToRemote ≠ [] then
    modifySelf fun h => { h with dataToWriteToRemote := [] }
    writeToSock c env h.dataToWriteToRemote.flatten .remoteSock
  else updateStream env .up WAIT_STATUS_READING

/-- `_on_local_error` -/
def onLocalError : Method O P E Unit := do
  if (← self).localSock then call fun _ => env.getSockError
  destroy

/-- `_on_remote_error` -/
def onRemoteError : Method O P E Unit := do
  if (← self).remoteSock then call fun _ => env.getSockError
  destroy

/-- The flags of an event: `POLL_ERR`, `POLL_IN` or `POLL_HUP`, `POLL_OUT`. -/
structure Ready where
  err : Bool := false
  read : Bool := false
  write : Bool := false

/-- `handle_event`, on a socket of the connection. -/
def handleEvent (sock : Sock) (event : Ready) : Method O P E Unit := do
  let h ← self
  if h.stage = .unset then throw (.py .attributeError)
  if h.stage = .destroyed then return
  if h.user.isSome && !env.knownUser then destroy
  else if sock = .localSock then
    if event.err then onLocalError env
    else if event.read then
      if env.isExceed then modifySelf fun h => { h with recvUMaxSize := h.tcpMss - h.overhead }
      else onLocalRead c env
    else if event.write then onLocalWrite c env
  else
    if event.err then onRemoteError env
    else if event.read then
      if env.isExceed then modifySelf fun h => { h with recvDMaxSize := h.tcpMss - h.overhead }
      else onRemoteRead c env (sock = .remoteSock)
    else if event.write then onRemoteWrite c env

end TcpRelay

end ShadowsocksR

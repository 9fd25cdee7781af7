import ShadowsocksR.Inet.PackAddr
import ShadowsocksR.Lib.Separator

/-!
# The obfuscation that looks like HTTP

A client of `http_simple` or `http_post` puts the beginning of its first buffer, percent-encoded,
into the URL of a request, and sends the rest behind the header of the request. The server waits for
the end of the header, and takes the data out of the URL.

* `clientEncode`: the request, with what the client draws;
* `getDataFromHttpHeader`, `getHostFromHttpHeader`: what the server finds in a header;
* `serverDecode`: what it does with a read.
-/

namespace ShadowsocksR

namespace HttpSimple

/-- A literal of bytes. -/
def ascii (s : String) : Bytes := s.toByteArray.data.toList

def crlf : Bytes := [13, 10]

def matchBegin (str1 str2 : Bytes) : Bool := str2 <+: str1

/-! ## `binascii` -/

def hexDigit (n : ℕ) : UInt8 := UInt8.ofNat (if n < 10 then 48 + n else 87 + n)

def hexlify (buf : Bytes) : Bytes :=
  buf.flatMap fun b => [hexDigit (b.toNat / 16), hexDigit (b.toNat % 16)]

def unhexDigit (d : UInt8) : Option ℕ :=
  if 48 ≤ d ∧ d ≤ 57 then some (d.toNat - 48)
  else if 97 ≤ d ∧ d ≤ 102 then some (d.toNat - 87)
  else if 65 ≤ d ∧ d ≤ 70 then some (d.toNat - 55)
  else none

/-- `unhexlify`, whose errors are values of `ValueError` -/
def unhexlify : Bytes → Except PyExc Bytes
  | [] => .ok []
  | [_] => .error .valueError
  | c :: d :: ds =>
    match unhexDigit c, unhexDigit d with
    | some x, some y => do return UInt8.ofNat (16 * x + y) :: (← unhexlify ds)
    | _, _ => .error .valueError

/-! ## The objects -/

/-- The classes `http_simple` and `http_post`. -/
inductive Kind
  | httpSimple
  | httpPost

/-- The fields of an object. -/
structure Obfs where
  kind : Kind
  /-- Whether the method is `http_simple_compatible` or `http_post_compatible`. -/
  compatible : Bool
  hasSentHeader : Bool := false
  hasRecvHeader : Bool := false
  /-- `None` is `[]`: it is not used any more. -/
  recvBuffer : Bytes := []

/-- What the client uses of `server_info`. -/
structure ServerInfo where
  iv : Bytes
  headLen : ℕ
  host : Text
  port : ℕ
  obfsParam : Text

/-- What the client draws from `random`: the numbers that decide. -/
structure Draws where
  randint : Fin 65
  host : ℕ
  userAgent : ℕ
  boundary : ℕ → ℕ

/-- `random.choice` -/
def choice {α : Type} (n : ℕ) (xs : List α) (default : α) : α := xs.getD (n % xs.length) default

/-! ## The client -/

def userAgents : List Bytes :=
  [ascii "Mozilla/5.0 (Windows NT 6.3; WOW64; rv:40.0) Gecko/20100101 Firefox/40.0",
    ascii "Mozilla/5.0 (Windows NT 6.3; WOW64; rv:40.0) Gecko/20100101 Firefox/44.0",
    ascii ("Mozilla/5.0 (Windows NT 6.1) AppleWebKit/537.36 (KHTML, like Gecko) " ++
      "Chrome/41.0.2228.0 Safari/537.36"),
    ascii ("Mozilla/5.0 (X11; Linux x86_64) AppleWebKit/535.11 (KHTML, like Gecko) Ubuntu/11.10 " ++
      "Chromium/27.0.1453.93 Chrome/27.0.1453.93 Safari/537.36"),
    ascii "Mozilla/5.0 (X11; Ubuntu; Linux x86_64; rv:35.0) Gecko/20100101 Firefox/35.0",
    ascii "Mozilla/5.0 (compatible; WOW64; MSIE 10.0; Windows NT 6.2)",
    ascii ("Mozilla/5.0 (Windows; U; Windows NT 6.1; en-US) AppleWebKit/533.20.25 (KHTML, like " ++
      "Gecko) Version/5.0.4 Safari/533.20.27"),
    ascii "Mozilla/4.0 (compatible; MSIE 7.0; Windows NT 6.3; Trident/7.0; .NET4.0E; .NET4.0C)",
    ascii "Mozilla/5.0 (Windows NT 6.3; Trident/7.0; rv:11.0) like Gecko",
    ascii ("Mozilla/5.0 (Linux; Android 4.4; Nexus 5 Build/BuildID) AppleWebKit/537.36 (KHTML, " ++
      "like Gecko) Version/4.0 Chrome/30.0.0.0 Mobile Safari/537.36"),
    ascii ("Mozilla/5.0 (iPad; CPU OS 5_0 like Mac OS X) AppleWebKit/534.46 (KHTML, like Gecko) " ++
      "Version/5.1 Mobile/9A334 Safari/7534.48.3"),
    ascii ("Mozilla/5.0 (iPhone; CPU iPhone OS 5_0 like Mac OS X) AppleWebKit/534.46 (KHTML, " ++
      "like Gecko) Version/5.1 Mobile/9A334 Safari/7534.48.3")]

/-- Each two digits get a percent sign. -/
def percent : Bytes → Bytes
  | [] => []
  | [c] => [37, c]
  | c :: d :: ds => 37 :: c :: d :: percent ds

def encodeHead (buf : Bytes) : Bytes := percent (hexlify buf)

/-- `boundary`, of `http_post` -/
def boundary (draws : ℕ → ℕ) : Bytes :=
  (List.range 32).map fun k =>
    choice (draws k) (ascii "ABCDEFGHIJKLMNOPQRSTUVWXYZabcdefghijklmnopqrstuvwxyz0123456789") 65

def Kind.method : Kind → Bytes
  | .httpSimple => ascii "GET /"
  | .httpPost => ascii "POST /"

/-- What both classes accept. -/
def acceptFields : Bytes :=
  ascii ("Accept: text/html,application/xhtml+xml,application/xml;q=0.9,*/*;q=0.8\r\n" ++
    "Accept-Language: en-US,en;q=0.8\r\nAccept-Encoding: gzip, deflate\r\n")

/-- The header after the line of the user agent. -/
def Kind.fields (d : Draws) : Kind → Bytes
  | .httpSimple => acceptFields ++ ascii "DNT: 1\r\nConnection: keep-alive\r\n\r\n"
  | .httpPost =>
    acceptFields ++
      (ascii "Content-Type: multipart/form-data; boundary=" ++ boundary d.boundary ++
        ascii "\r\nDNT: 1\r\n") ++
      ascii "Connection: keep-alive\r\n\r\n"

namespace ServerInfo

variable (info : ServerInfo)

/-- `headlen`: how many bytes of the first buffer go into the URL. -/
def headlen (d : Draws) (buf : Bytes) : ℕ :=
  let headSize := info.iv.length + info.headLen
  if buf.length > headSize + 64 then headSize + d.randint else buf.length

/-- The port, as it stands behind the host. -/
def portText : Text := if info.port ≠ 80 then ':' :: Nat.toDigits 10 info.port else []

/-- `obfs_param or host` -/
def hosts : Text := if info.obfsParam ≠ [] then info.obfsParam else info.host

/-- What stands before the first `#`. -/
def hostList : Text := info.hosts.takeWhile (· ≠ '#')

/-- What stands behind it; the replacements of line ends do not make it empty. -/
def body : Text := (info.hosts.dropWhile (· ≠ '#')).drop 1

/-- The host that is chosen. -/
def chosen (d : Draws) : Text := choice d.host (info.hostList.splitOn ',') []

end ServerInfo

/-- The header of the request. -/
def httpHead (kind : Kind) (info : ServerInfo) (d : Draws) (headdata : Bytes) : Bytes :=
  kind.method ++ encodeHead headdata ++ ascii " HTTP/1.1\r\n" ++
    (ascii "Host: " ++ encodeText (info.chosen d) ++ encodeText info.portText ++ ascii "\r\n") ++
    (ascii "User-Agent: " ++ choice d.userAgent userAgents [] ++ ascii "\r\n" ++ kind.fields d)

/-- `client_encode`, of both classes. A body is a `str`, and cannot be added to `bytes`. -/
def clientEncode (info : ServerInfo) (d : Draws) (o : Obfs) (buf : Bytes) :
    Except PyExc (Bytes × Obfs) :=
  if o.hasSentHeader then .ok (buf, o)
  else if info.body ≠ [] then .error .typeError
  else
    let headlen := info.headlen d buf
    .ok (httpHead o.kind info d (buf.take headlen) ++ buf.drop headlen,
      { o with hasSentHeader := true })

/-! ## The server -/

/-- The items after the first percent sign; `'0' + hex_items[index]` adds `bytes` to a `str`. -/
def decodeItems : List Bytes → Except PyExc Bytes
  | [] => .ok []
  | item :: items =>
    if item.length < 2 then .error .typeError
    else if item.length > 2 then unhexlify (item.take 2)
    else do
      let ret ← unhexlify item
      return ret ++ (← decodeItems items)

def getDataFromHttpHeader (buf : Bytes) : Except PyExc Bytes :=
  match splitAll crlf buf with
  | line :: _ :: _ => decodeItems (line.splitOn 37).tail
  | _ => .ok []

/-- `common.to_str` -/
def toStr (bs : Bytes) : Except PyExc Text :=
  match decodeText bs with
  | some s => .ok s
  | none => .error .valueError

def getHostFromHttpHeader (buf : Bytes) : Except PyExc (Option Text) :=
  match splitAll crlf buf with
  | line :: line' :: lines =>
    match (line :: line' :: lines).find? (matchBegin · (ascii "Host: ")) with
    | some line => (toStr (line.drop 6)).map some
    | none => .ok none
  | _ => .ok none

/-- Whether the host is not one of `obfs_param`. -/
def hostRefused (obfsParam : Text) : Option Text → Bool
  | none => false
  | some host =>
    !host.isEmpty && !obfsParam.isEmpty &&
      !(obfsParam.splitOn ',').contains (host.takeWhile (· ≠ ':'))

/-- Where `server_decode` returns. -/
inductive Branch
  | waits
  | data
  | notMatch
  | error

/-- What `server_decode` returns, and where. -/
structure Answer where
  branch : Branch
  buffer : Bytes
  isNeedDecrypt : Bool
  isNeedToEncodeAndSendBack : Bool

/-- `self.method == 'http_simple'`: the method `http_post` is compared with nothing. -/
def isHttpSimple (o : Obfs) : Bool :=
  match o.kind with
  | .httpSimple => !o.compatible
  | .httpPost => false

def notMatchReturn (o : Obfs) (buf : Bytes) : Answer × Obfs :=
  (if isHttpSimple o then ⟨.notMatch, List.replicate 2048 69, false, false⟩
    else ⟨.notMatch, buf, true, false⟩,
    { o with hasSentHeader := true, hasRecvHeader := true })

def errorReturn (o : Obfs) : Answer × Obfs :=
  (⟨.error, List.replicate 2048 69, false, false⟩,
    { o with hasSentHeader := true, hasRecvHeader := true })

/-- The part of `server_decode` behind `if b'\r\n\r\n' in buf`, with what follows the header. -/
def headerDecode (obfsParam : Text) (o : Obfs) (buf body : Bytes) :
    Except PyExc (Answer × Obfs) := do
  let retBuf ← getDataFromHttpHeader buf
  let host ← getHostFromHttpHeader buf
  if hostRefused obfsParam host then return notMatchReturn o buf
  if retBuf.length < 4 then return errorReturn o
  if (retBuf ++ body).length ≥ 13 then
    return (⟨.data, retBuf ++ body, true, false⟩, { o with hasRecvHeader := true })
  return notMatchReturn o buf

def serverDecode (obfsParam : Text) (o : Obfs) (buf : Bytes) : Except PyExc (Answer × Obfs) :=
  if o.hasRecvHeader then .ok (⟨.data, buf, true, false⟩, o)
  else
    let buf := o.recvBuffer ++ buf
    let o := { o with recvBuffer := buf }
    if buf.length > 10 then
      if matchBegin buf (ascii "GET ") || matchBegin buf (ascii "POST ") then
        if buf.length > 65536 then .ok (notMatchReturn { o with recvBuffer := [] } buf)
        else
          match cutAt (crlf ++ crlf) buf with
          | some (_, body) => headerDecode obfsParam o buf body
          | none => .ok (⟨.waits, [], true, false⟩, o)
      else .ok (notMatchReturn { o with recvBuffer := [] } buf)
    else .ok (⟨.waits, [], true, false⟩, o)

end HttpSimple

end ShadowsocksR

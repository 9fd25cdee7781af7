import ShadowsocksR.LruCache
import ShadowsocksR.Lib.WaitQueue

/-!
# The DNS resolver

`asyncdns.DNSResolver`. A `resolve` answers at once, or sends a query and makes
its callback wait for the hostname; a response for the hostname has all its
waiting callbacks called (`callNext` is one turn of the loop of
`_call_callback`), or makes the resolver fall back to the other address family.

Callbacks may call the resolver again before they return, `_call_callback`
iterating over a list that they change. So a call of a callback and its return
are two steps (`Label`): between them come the calls that the callback makes. A
`resolve` has a ticket, which says for which `resolve` a callback is called.
-/

namespace ShadowsocksR

namespace AsyncDns

abbrev Hostname := Bytes

/-- An address, as text. -/
abbrev IP := Bytes

def QTYPE_A : ℕ := 1

def QTYPE_AAAA : ℕ := 28

def QCLASS_IN : ℕ := 1

/-- `STATUS_IPV4` and `STATUS_IPV6`: the address family asked for last. -/
inductive Status
  | ipv4
  | ipv6
  deriving DecidableEq, Repr

/-- The query type of an address family. -/
def Status.qtype : Status → ℕ
  | .ipv4 => QTYPE_A
  | .ipv6 => QTYPE_AAAA

/-- An entry of `DNSResponse.questions`. -/
structure Question where
  qtype : ℕ
  qclass : ℕ
  deriving DecidableEq

/-- An entry of `DNSResponse.answers`. -/
structure Answer where
  addr : IP
  qtype : ℕ
  qclass : ℕ
  deriving DecidableEq

/-- `DNSResponse` -/
structure DNSResponse where
  hostname : Option Hostname
  questions : List Question
  answers : List Answer
  deriving DecidableEq

/-- The characters of `VALID_HOSTNAME`: `[A-Z\d_-]`, ignoring case. -/
def validHostnameChar (c : UInt8) : Bool :=
  (65 ≤ c && c ≤ 90) || (97 ≤ c && c ≤ 122) || (48 ≤ c && c ≤ 57) || c = 95 || c = 45

/-- A label of 1 to 63 of these characters, the first and the last of which are not `-`. -/
def validLabelBody (x : Bytes) : Bool :=
  1 ≤ x.length && x.length ≤ 63 && x.all validHostnameChar && x.head? != some 45 &&
    x.getLast? != some 45

/-- `VALID_HOSTNAME.match(x)`: the final `$` also matches before a last newline. -/
def validLabel (x : Bytes) : Bool :=
  validLabelBody x || (x.getLast? == some 10 && validLabelBody x.dropLast)

/-- `is_valid_hostname`. (The comparison of `hostname[-1]`, a number, with `b'.'` is false.) -/
def isValidHostname (hostname : Hostname) : Bool :=
  if hostname.length > 255 then false else (hostname.splitOn 46).all validLabel

/-- What the resolver finds around it: `IPV6_CONNECTION_SUPPORT`, `common.is_ip`, `_hosts`. -/
structure Env where
  ipv6 : Bool
  isIp : Hostname → Bool
  hosts : Hostname → Option IP

/-- The address family asked for first. -/
def Env.preferred (env : Env) : Status := if env.ipv6 then .ipv6 else .ipv4

/-- The address family asked for when there is no address of the first. -/
def Env.fallback (env : Env) : Status := if env.ipv6 then .ipv4 else .ipv6

theorem Env.preferred_ne_fallback (env : Env) : env.preferred ≠ env.fallback := by
  rw [preferred, fallback]; cases env.ipv6 <;> simp

/-- The errors given to callbacks. -/
inductive Error
  /-- `'empty hostname'` -/
  | emptyHostname
  /-- `'invalid hostname: %s' % hostname` -/
  | invalidHostname (hostname : Hostname)
  /-- `'unable to parse hostname %s' % hostname` -/
  | unableToParse (hostname : Hostname)
  deriving DecidableEq

/-- A call of a callback: for which `resolve`, and its arguments. -/
structure Call (Cb : Type) where
  ticket : Ticket Cb
  result : Option (Hostname × Option IP)
  error : Option Error
  deriving DecidableEq

/-- A call of `_call_callback` in progress: the loop has called the callbacks below `index`. -/
structure Answering where
  hostname : Hostname
  ip : Option IP
  index : ℕ
  deriving DecidableEq

/-- `DNSResolver`, with callbacks in `Cb`. -/
structure DNSResolver (Cb : Type) [DecidableEq Cb] where
  hostnameStatus : Dict Hostname Status := Dict.empty
  hostnameToCb : Dict Hostname (List (Ticket Cb)) := Dict.empty
  cbToHostname : Dict Cb Hostname := Dict.empty
  cache : LRUCache Hostname IP := { timeout := 300 }
  /-- The call of `_call_callback` in progress. -/
  answering : Option Answering := none
  /-- How many callbacks called by `resolve` itself are running. -/
  depth : ℕ := 0
  /-- How often `resolve` has been called. -/
  tickets : ℕ := 0
  /-- The calls of callbacks, the latest last. -/
  calls : List (Call Cb) := []
  /-- The queries sent, the latest last. -/
  sent : List (Hostname × ℕ) := []

namespace DNSResolver

variable {Cb : Type} [DecidableEq Cb] (env : Env)

/-- The callbacks registered for a hostname. -/
def waitersIn (hostnameToCb : Dict Hostname (List (Ticket Cb))) (hostname : Hostname) :
    List (Ticket Cb) :=
  (hostnameToCb.get? hostname).getD []

/-- The callbacks in `_hostname_to_cb` for a hostname. -/
def waiters (s : DNSResolver Cb) (hostname : Hostname) : List (Ticket Cb) :=
  waitersIn s.hostnameToCb hostname

/-- One turn of the loop of `_call_callback`, and what follows the loop. (The list being
    iterated over is still the one in the dictionary: see `Inv.answering`.) -/
def callNext (s : DNSResolver Cb) (hostname : Hostname) (ip : Option IP) (index : ℕ) :
    DNSResolver Cb :=
  match (s.waiters hostname)[index]? with
  | some t =>
    { s with
      cbToHostname := s.cbToHostname.del t.client
      answering := some ⟨hostname, ip, index + 1⟩
      calls := s.calls ++
        [⟨t, some (hostname, ip), if ip.isSome then none else some (.unableToParse hostname)⟩] }
  | none =>
    { s with
      hostnameToCb := s.hostnameToCb.del hostname
      hostnameStatus := s.hostnameStatus.del hostname
      answering := none }

/-- `_call_callback`, up to its first call of a callback. -/
def callCallback (s : DNSResolver Cb) (hostname : Hostname) (ip : Option IP) : DNSResolver Cb :=
  s.callNext hostname ip 0

/-- `_send_req`: the query goes to every server. (When `sendto` raises, `sendOk` is false.) -/
def sendReq (s : DNSResolver Cb) (sendOk : Bool) (hostname : Hostname) (qtype : ℕ) :
    DNSResolver Cb :=
  if sendOk then { s with sent := s.sent ++ [(hostname, qtype)] } else s

/-- The address in a response: the first answer that is one, unless it is empty. -/
def DNSResponse.ip? (response : DNSResponse) : Option IP :=
  ((response.answers.find? fun answer =>
      (answer.qtype = QTYPE_A || answer.qtype = QTYPE_AAAA) && answer.qclass = QCLASS_IN).map
    Answer.addr).filter (· ≠ [])

/-- `_handle_data`, on the result of `parse_response`. -/
def handleData (s : DNSResolver Cb) (now : Time) (response : Option DNSResponse) (sendOk : Bool) :
    DNSResolver Cb :=
  match response with
  | none => s
  | some response =>
    match response.hostname with
    | none => s
    | some hostname =>
      if hostname = [] then s
      else if DNSResponse.ip? response = none ∧
          (s.hostnameStatus.get? hostname).getD env.fallback = env.preferred then
        sendReq { s with hostnameStatus := s.hostnameStatus.set hostname env.fallback } sendOk
          hostname env.fallback.qtype
      else
        match DNSResponse.ip? response with
        | some ip =>
          callCallback { s with cache := s.cache.setItem now hostname ip } hostname (some ip)
        | none =>
          if s.hostnameStatus.get? hostname = some env.fallback ∧
              ∃ question ∈ response.questions, question.qtype = env.fallback.qtype then
            callCallback s hostname none
          else s

/-- `remove_callback`; `none` would be the `ValueError` of `list.remove`. -/
def removeCallback (s : DNSResolver Cb) (callback : Cb) : Option (DNSResolver Cb) :=
  match s.cbToHostname.get? callback with
  | none => some s
  | some hostname =>
    if hostname = [] then some s
    else
      let s := { s with cbToHostname := s.cbToHostname.del callback }
      match s.waiters hostname with
      | [] => some s
      | arr =>
        if arr.any (·.client = callback) then
          let arr := arr.eraseP (·.client = callback)
          if arr = [] then
            some
              { s with
                hostnameToCb := s.hostnameToCb.del hostname
                hostnameStatus := s.hostnameStatus.del hostname }
          else some { s with hostnameToCb := s.hostnameToCb.set hostname arr }
        else none

/-- A call of the callback by `resolve` itself. -/
def callAtOnce (s : DNSResolver Cb) (t : Ticket Cb) (result : Option (Hostname × Option IP))
    (error : Option Error) : DNSResolver Cb :=
  { s with depth := s.depth + 1, calls := s.calls ++ [⟨t, result, error⟩] }

/-- The end of `resolve`: the callback waits for a response. -/
def resolveNetwork (s : DNSResolver Cb) (hostname : Hostname) (t : Ticket Cb) (sendOk : Bool) :
    DNSResolver Cb :=
  match s.waiters hostname with
  | [] =>
    let s := { s with hostnameStatus := s.hostnameStatus.set hostname env.preferred }
    if sendOk then
      let s := s.sendReq sendOk hostname env.preferred.qtype
      { s with
        hostnameToCb := s.hostnameToCb.set hostname [t]
        cbToHostname := s.cbToHostname.set t.client hostname }
    else s
  | arr =>
    sendReq { s with hostnameToCb := s.hostnameToCb.set hostname (arr ++ [t]) } sendOk hostname
      env.preferred.qtype

/-- The `resolve` of this hostname asks the network. -/
def AsksNetwork (s : DNSResolver Cb) (hostname : Hostname) : Prop :=
  hostname ≠ [] ∧ env.isIp hostname = false ∧ env.hosts hostname = none ∧
    s.cache.contains hostname = false ∧ isValidHostname hostname = true

/-- `resolve` -/
def resolve (s : DNSResolver Cb) (now : Time) (hostname : Hostname) (callback : Cb)
    (sendOk : Bool) : DNSResolver Cb :=
  let t : Ticket Cb := ⟨callback, s.tickets⟩
  let s := { s with tickets := s.tickets + 1 }
  if hostname = [] then s.callAtOnce t none (some .emptyHostname)
  else if env.isIp hostname then s.callAtOnce t (some (hostname, some hostname)) none
  else
    match env.hosts hostname with
    | some ip => s.callAtOnce t (some (hostname, some ip)) none
    | none =>
      match s.cache.getItem now hostname with
      | some (ip, cache) => callAtOnce { s with cache } t (some (hostname, some ip)) none
      | none =>
        if !isValidHostname hostname then s.callAtOnce t none (some (.invalidHostname hostname))
        else s.resolveNetwork env hostname t sendOk

/-- What can happen to a resolver. `ret` is the return of the running callback. -/
inductive Label (Cb : Type)
  | resolve (now : Time) (hostname : Hostname) (callback : Cb) (sendOk : Bool)
  | removeCallback (callback : Cb)
  | response (now : Time) (response : Option DNSResponse) (sendOk : Bool)
  | periodic (now : Time)
  | ret

/-- No callback is running: the event loop is waiting. -/
def Idle (s : DNSResolver Cb) : Prop := s.answering = none ∧ s.depth = 0

instance (s : DNSResolver Cb) : Decidable s.Idle := inferInstanceAs (Decidable (_ ∧ _))

/-- One step. Responses and timers come when no callback is running. -/
def step (s : DNSResolver Cb) : Label Cb → Option (DNSResolver Cb)
  | .resolve now hostname callback sendOk => some (s.resolve env now hostname callback sendOk)
  | .removeCallback callback => s.removeCallback callback
  | .response now response sendOk =>
    if s.Idle then some (s.handleData env now response sendOk) else none
  | .periodic now => if s.Idle then some { s with cache := s.cache.sweep now } else none
  | .ret =>
    match s.depth, s.answering with
    | depth + 1, _ => some { s with depth }
    | 0, some a => some (s.callNext a.hostname a.ip a.index)
    | 0, none => none

end DNSResolver

end AsyncDns

end ShadowsocksR

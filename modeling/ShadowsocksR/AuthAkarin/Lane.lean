import ShadowsocksR.AuthAkarin.Object
import ShadowsocksR.AuthChain.Handshake
import ShadowsocksR.Encryptor.IvStream

/-!
# The frames of one direction in auth_akarin

As in auth_chain, each direction of a connection has a state that both ends know
(`AuthChain.Lane`). But for the random bytes in it, a frame is determined by that
state and by what its sender knows of it (`Sent`): the length that it packs, its
`send_tcp_mss`, the number of random bytes that comes of both, and whether a
command is in front.

* `rndData_spec`: the padding that a sender makes;
* `takeCommands_front`: the receiver finds the lengths of a frame at the front of
  its buffer;
* `Chain`: the frames that lead from one state of a lane to another;
* `remaining`: the frames that are not received yet, by their bytes.
-/

namespace ShadowsocksR

namespace AuthAkarin

open AuthBase Encryptor
open AuthChain (Lane)

/-- What the ends of a connection share: the `tcp_mss` of either end, too, though they do not know
    that of the other from the beginning. -/
structure Session where
  method : Method
  key : Bytes
  overhead : ℕ
  userKey : Bytes
  streamKey : Bytes
  clientIv : Bytes
  serverIv : Bytes
  clientMss : ℕ
  serverMss : ℕ
  clientMss_le : clientMss ≤ 1423
  serverMss_le : serverMss ≤ 1500

def Session.lists (P : Session) : AuthChain.DataSizeLists := initDataSize P.method P.key

/-! ## What a sender knows -/

/-- What a sender knows of a frame: the length that `send_rnd_data_len` is called with, the
    `send_tcp_mss` of that time, what it returned, and whether the frame begins with a command. -/
structure Sent where
  size : ℕ
  tcpMss : ℕ
  randLen : ℕ
  command : Bool
  deriving DecidableEq

namespace Sent

def cmdLen (f : Sent) : ℕ := if f.command then 2 else 0

/-- The number of bytes in the frame. -/
def length (f : Sent) : ℕ := f.size + f.randLen + 4

/-- The number of bytes in some frames. -/
def total (log : List Sent) : ℕ := (log.map length).sum

@[simp] theorem total_nil : total [] = 0 := rfl

@[simp] theorem total_cons (f : Sent) (log : List Sent) :
    total (f :: log) = f.length + total log := rfl

/-- The last frames, as many as make up a number of bytes. -/
def remaining (k : ℕ) : List Sent → List Sent
  | [] => []
  | f :: log => if total (f :: log) ≤ k then f :: log else remaining k log

theorem total_append (log log' : List Sent) : total (log ++ log') = total log + total log' := by
  rw [total, List.map_append, List.sum_append, total, total]

theorem total_le_of_suffix {log log₀ : List Sent} (h : log <:+ log₀) : total log ≤ total log₀ := by
  obtain ⟨l, rfl⟩ := h
  rw [total_append]
  exact Nat.le_add_left _ _

theorem remaining_of_le {log : List Sent} {k : ℕ} (h : total log ≤ k) : remaining k log = log := by
  cases log with
  | nil => rfl
  | cons f log => rw [remaining, if_pos h]

/-- The frames at the end are what remains of their bytes. -/
theorem remaining_total {log log₀ : List Sent} (h : log <:+ log₀) :
    remaining (total log) log₀ = log := by
  induction log₀ with
  | nil => exact (List.suffix_nil.1 h).symm
  | cons f log₀ ih =>
    rcases List.suffix_cons_iff.1 h with rfl | h
    · exact remaining_of_le le_rfl
    · have hlt : ¬total (f :: log₀) ≤ total log := by
        have := total_le_of_suffix h
        rw [total_cons, length]
        omega
      rw [remaining, if_neg hlt, ih h]

end Sent

/-- The number of random bytes of a frame has the same modulus for its sender and for a receiver
    with these `tcp_mss`. -/
def Sent.Alike (m : Method) (overhead recvTcpMss sendTcpMss : ℕ) (f : Sent) : Prop :=
  padBound m recvTcpMss sendTcpMss overhead f.size =
    padBound m f.tcpMss f.tcpMss overhead f.size

instance (m : Method) (overhead recvTcpMss sendTcpMss : ℕ) (f : Sent) :
    Decidable (f.Alike m overhead recvTcpMss sendTcpMss) :=
  inferInstanceAs (Decidable (_ = _))

/-- A receiver with `avail` bytes, of the frames `log`, finds the beginning of the frame `f` after
    the frames `before`. -/
def Sent.Reached (avail : ℕ) (log before : List Sent) (f : Sent) : Prop :=
  (∃ after, log = before ++ f :: after) ∧ Sent.total before + 4 < avail

/-- What a sender knows of the next frame. -/
def sentBy (s : AuthAkarin) (command : Bool) (size : ℕ) (lastHash : Bytes)
    (random : Xorshift128plus) : Sent where
  size := size
  tcpMss := s.sendTcpMss
  randLen := match s.sendRndDataLen size lastHash random with
    | .ok (randLen, _) => randLen
    | .error _ => 0
  command := command

/-- What a client knows of the frame that it makes of a piece. -/
def clientSent (s : AuthAkarin) (p : Bytes) : Sent :=
  if s.sendBackCmd ≠ [] then
    sentBy { s with sendTcpMss := s.recvTcpMss } true (p.length + 2) s.lastClientHash s.randomClient
  else sentBy s false p.length s.lastClientHash s.randomClient

/-- What a server knows of it. -/
def serverSent (s : AuthAkarin) (p : Bytes) : Sent :=
  sentBy s false p.length s.lastServerHash s.randomServer

/-! ## Frames -/

variable (C : Crypto) (P : Session) (iv : Bytes)

/-- The lengths at the front of a frame. -/
def frameHead (l : Lane) (command : Bool) (payload : Bytes) : Bytes :=
  if command then
    packLE 2 (0xff00 ^^^ unpackLE (l.hash.drop 14)) ++
      packLE 2 (payload.length ^^^ unpackLE (l.hash.extract 12 14))
  else packLE 2 (payload.length ^^^ unpackLE (l.hash.drop 14))

/-- The signed part of a frame. -/
def frameBody (l : Lane) (command : Bool) (payload pad : Bytes) : Bytes :=
  frameHead l command payload ++ (ivStream C P.streamKey iv l.carried payload ++ pad)

/-- The hash of a frame. -/
def frameHash (l : Lane) (command : Bool) (payload pad : Bytes) : Bytes :=
  C.hmac .md5 (P.userKey ++ packLE 4 l.id) (frameBody C P iv l command payload pad)

theorem length_frameHash (l : Lane) (command : Bool) (payload pad : Bytes) :
    (frameHash C P iv l command payload pad).length = 16 := C.length_hmac _ _ _

/-- A payload and a padding of a lane, of which the sender knows `f`. -/
structure Padding (l : Lane) (f : Sent) (payload pad : Bytes) : Prop where
  length_le : payload.length ≤ 2800
  size_eq : f.size = payload.length + f.cmdLen
  length_pad : pad.length = f.randLen
  length_lt : payload.length + f.randLen < 4096
  padLen_eq : padLen P.lists P.overhead f.size l.hash
    (padBound P.method f.tcpMss f.tcpMss P.overhead f.size) = .ok f.randLen

/-- A frame of a lane that carries a payload, and its hash. -/
inductive Framed (l : Lane) (f : Sent) (payload : Bytes) : Bytes → Bytes → Prop
  | intro {pad : Bytes} : Padding P l f payload pad →
      Framed l f payload
        (frameBody C P iv l f.command payload pad ++
          (frameHash C P iv l f.command payload pad).take 2)
        (frameHash C P iv l f.command payload pad)

variable {C P iv} {l : Lane} {f : Sent} {payload bytes hash pad : Bytes}

theorem length_frameHead (l : Lane) (f : Sent) (payload : Bytes) :
    (frameHead l f.command payload).length = f.cmdLen + 2 := by
  rw [frameHead, Sent.cmdLen]
  cases f.command <;> simp

theorem Padding.length_frameBody (h : Padding P l f payload pad) :
    (frameBody C P iv l f.command payload pad).length = f.size + f.randLen + 2 := by
  rw [frameBody, List.length_append, length_frameHead, List.length_append, length_ivStream,
    h.length_pad, h.size_eq]
  omega

theorem Framed.length_hash (h : Framed C P iv l f payload bytes hash) : hash.length = 16 := by
  cases h
  exact length_frameHash _ _ _ _ _ _ _

theorem Framed.length_bytes (h : Framed C P iv l f payload bytes hash) :
    bytes.length = f.length := by
  cases h with
  | intro hpad =>
    rw [List.length_append, List.length_take, length_frameHash, hpad.length_frameBody, Sent.length]
    omega

theorem Framed.length_payload (h : Framed C P iv l f payload bytes hash) :
    payload.length ≤ 2800 ∧ payload.length ≤ f.size := by
  cases h with
  | intro hpad => exact ⟨hpad.length_le, by rw [hpad.size_eq]; exact Nat.le_add_right _ _⟩

/-! ## The sender -/

/-- The padding that a sender makes. -/
theorem rndData_spec {s : AuthAkarin} (hm : s.method = P.method) (hl : s.lists = P.lists)
    (ho : s.serverInfo.overhead = P.overhead) (hmss : s.sendTcpMss ≤ 2000) {command : Bool}
    {size : ℕ} (hsize : size = payload.length + if command then 2 else 0) {buf : Bytes}
    (hlen : buf.length = payload.length) (hle : payload.length ≤ 2800)
    (random : Xorshift128plus) :
    ∃ pad random' rng, s.rndData size buf l.hash random = .ok (buf ++ pad, random', rng) ∧
      Padding P l (sentBy s command size l.hash random) payload pad := by
  have hle' : size ≤ 2802 := by
    rw [hsize]
    split <;> omega
  obtain ⟨n, hn, hlt⟩ := sender_padLen (m := P.method) (usable_initDataSize P.method P.key) hle'
    l.hash
  obtain ⟨random', hr⟩ := rndDataLen_eq (show size < 2 ^ 16 by omega) l.hash random
  have hsend : s.sendRndDataLen size l.hash random = .ok (n, random') := by
    rw [sendRndDataLen, hr, hm, hl, ho, Session.lists, hn]
    rfl
  have hsent : sentBy s command size l.hash random =
      { size, tcpMss := s.sendTcpMss, randLen := n, command } := by
    rw [sentBy, hsend]
  refine ⟨(randBytes n s.rng).1, random', (randBytes n s.rng).2, ?_, ?_⟩
  · simp only [rndData, hsend, bind, Except.bind]
    by_cases hz : size = 0
    · have hnil : buf = [] := List.length_eq_zero_iff.1 (by rw [hlen]; omega)
      rw [if_pos hz, hnil, List.nil_append]
    · rw [if_neg hz]
      by_cases hpos : n > 0
      · rw [if_pos hpos]
      · obtain rfl : n = 0 := by omega
        rw [if_neg hpos, List.length_eq_zero_iff.1 (length_randBytes 0 s.rng), List.append_nil]
  · rw [hsent]
    have hlt' := hlt hmss
    exact ⟨hle, hsize, length_randBytes n s.rng, by dsimp only; omega, hn⟩

/-! ## The receiver -/

theorem takeCommands_of_lt (mask : ℕ) (buf : Bytes) {dataLen : ℕ} (cmdLen : ℕ)
    (h : dataLen < 0xff00) :
    takeCommands mask buf dataLen cmdLen = .data buf dataLen cmdLen := by
  unfold takeCommands
  split
  · rw [if_pos h]
  · rw [if_pos h]

theorem takeCommands_command (mask : ℕ) (b₀ b₁ b₂ b₃ : UInt8) (buf : Bytes) (cmdLen : ℕ) :
    takeCommands mask (b₀ :: b₁ :: b₂ :: b₃ :: buf) 0xff00 cmdLen =
      takeCommands mask (b₂ :: b₃ :: buf) (unpackLE [b₂, b₃] ^^^ mask) (cmdLen + 2) := by
  rw [takeCommands, if_neg (by norm_num), if_pos rfl]

/-- The receiver has the beginning of a frame in its buffer, or more. -/
def Fronts (buf body : Bytes) : Prop := ∃ x y, buf ++ x = body ++ y

theorem extract_hash (l : Lane) : l.hash.extract 14 16 = l.hash.drop 14 := by
  rw [List.extract_eq_take_drop]
  exact List.take_of_length_le (by rw [List.length_drop, l.length_hash])

theorem Fronts.take {buf body : Bytes} (h : Fronts buf body) :
    ∃ y, ∀ k ≤ buf.length, buf.take k = (body ++ y).take k := by
  obtain ⟨x, y, hxy⟩ := h
  exact ⟨y, fun k hk => by rw [← hxy, List.take_append_of_le_length hk]⟩

theorem unpackLE_drop_hash_lt (l : Lane) : unpackLE (l.hash.drop 14) < 256 ^ 2 :=
  (unpackLE_lt _).trans_le (by rw [List.length_drop, l.length_hash])

/-- The length in a frame without a command. -/
theorem dataLen_front {buf : Bytes} (hle : payload.length ≤ 2800) (hlen : 2 ≤ buf.length)
    (hfront : Fronts buf (frameBody C P iv l false payload pad)) :
    unpackLE (buf.take 2) ^^^ unpackLE (l.hash.extract 14 16) = payload.length := by
  obtain ⟨y, htake⟩ := hfront.take
  rw [extract_hash, htake 2 hlen, frameBody, frameHead, if_neg (by decide), List.append_assoc,
    List.take_left' (length_packLE _ _),
    unpackLE_packLE (xor_lt (by omega) (unpackLE_drop_hash_lt l)), xor_xor_cancel]

/-- The lengths that the receiver finds at the front of its buffer. -/
theorem takeCommands_front {buf : Bytes} (hle : payload.length ≤ 2800) (hlen : 4 < buf.length)
    (hfront : Fronts buf (frameBody C P iv l f.command payload pad)) :
    takeCommands (unpackLE (l.hash.extract 12 14)) buf
        (unpackLE (buf.take 2) ^^^ unpackLE (l.hash.extract 14 16)) 0 =
      .data (buf.drop f.cmdLen) payload.length f.cmdLen := by
  have hmask' : unpackLE (l.hash.extract 12 14) < 256 ^ 2 := by
    refine (unpackLE_lt _).trans_le (Nat.pow_le_pow_right (by norm_num) ?_)
    rw [List.extract_eq_take_drop]
    exact List.length_take_le _ _
  cases hc : f.command with
  | false =>
    rw [hc] at hfront
    rw [dataLen_front hle (by omega) hfront, takeCommands_of_lt _ _ _ (by omega), Sent.cmdLen, hc]
    rfl
  | true =>
    obtain ⟨y, htake⟩ := hfront.take
    rw [hc] at htake
    have hcmd : unpackLE (buf.take 2) ^^^ unpackLE (l.hash.extract 14 16) = 0xff00 := by
      rw [extract_hash, htake 2 (by omega), frameBody, frameHead, if_pos rfl, List.append_assoc,
        List.append_assoc, List.take_left' (length_packLE _ _),
        unpackLE_packLE (xor_lt (by norm_num) (unpackLE_drop_hash_lt l)), xor_xor_cancel]
    have hlen₂ : (buf.drop 2).take 2 =
        packLE 2 (payload.length ^^^ unpackLE (l.hash.extract 12 14)) := by
      rw [List.take_drop, htake (2 + 2) (by omega), ← List.take_drop, frameBody, frameHead,
        if_pos rfl, List.append_assoc, List.append_assoc, List.drop_left' (length_packLE _ _),
        List.append_assoc, List.take_left' (length_packLE _ _)]
    rw [hcmd]
    rcases buf with - | ⟨b₀, - | ⟨b₁, - | ⟨b₂, - | ⟨b₃, buf⟩⟩⟩⟩
    · simp at hlen
    · simp at hlen
    · simp at hlen
    · simp at hlen
    rw [takeCommands_command]
    have hmasked : unpackLE [b₂, b₃] =
        payload.length ^^^ unpackLE (l.hash.extract 12 14) := by
      have : [b₂, b₃] = packLE 2 (payload.length ^^^ unpackLE (l.hash.extract 12 14)) := hlen₂
      rw [this, unpackLE_packLE (xor_lt (by omega) hmask')]
    rw [hmasked, xor_xor_cancel, takeCommands_of_lt _ _ _ (by omega), Sent.cmdLen, hc]
    rfl

/-- The object has the parameters of the session. -/
structure Ready (P : Session) (s : AuthAkarin) : Prop where
  method_eq : s.method = P.method
  lists_eq : s.lists = P.lists
  overhead_eq : s.serverInfo.overhead = P.overhead
  userKey_eq : s.userKey = some P.userKey

theorem recvRndDataLen_spec (hs : Ready P s) (hpad : Padding P l f payload pad)
    (h : f.Alike P.method P.overhead s.recvTcpMss s.sendTcpMss) (random : Xorshift128plus) :
    ∃ random', s.recvRndDataLen f.size l.hash random = .ok (f.randLen, random') := by
  have hsize : f.size < 2 ^ 16 := by
    have hle := hpad.length_le
    rw [hpad.size_eq, Sent.cmdLen]
    split <;> omega
  obtain ⟨random', hr⟩ : ∃ random', s.recvRndDataLen f.size l.hash random =
      (padLen s.lists s.serverInfo.overhead f.size l.hash (padBound s.method s.recvTcpMss
        s.sendTcpMss s.serverInfo.overhead f.size)).map fun n => (n, random') :=
    rndDataLen_eq hsize l.hash random
  refine ⟨random', ?_⟩
  rw [hr, hs.method_eq, hs.lists_eq, hs.overhead_eq, h, hpad.padLen_eq]
  rfl

/-- What a receiver finds of a frame at the front of its buffer, after `cmdLen` bytes of commands. -/
theorem frameBody_parts (hpad : Padding P l f payload pad) {buf rest : Bytes}
    (hbuf : buf = frameBody C P iv l f.command payload pad ++
      (frameHash C P iv l f.command payload pad).take 2 ++ rest) :
    buf.take (payload.length + f.randLen + f.cmdLen + 2) =
        frameBody C P iv l f.command payload pad ∧
      buf.extract (payload.length + f.randLen + f.cmdLen + 2)
        (payload.length + f.randLen + f.cmdLen + 4) =
        (frameHash C P iv l f.command payload pad).take 2 ∧
      (buf.drop f.cmdLen).extract 2 (payload.length + 2) =
        ivStream C P.streamKey iv l.carried payload ∧
      (buf.drop f.cmdLen).drop (payload.length + f.randLen + 4) = rest ∧
      payload.length + f.randLen + 4 ≤ (buf.drop f.cmdLen).length := by
  have hbody : (frameBody C P iv l f.command payload pad).length =
      payload.length + f.randLen + f.cmdLen + 2 := by
    rw [hpad.length_frameBody, hpad.size_eq]
    omega
  have hhash := length_frameHash C P iv l f.command payload pad
  have hstream : (ivStream C P.streamKey iv l.carried payload).length = payload.length :=
    length_ivStream _ _ _ _
  have hlen : buf.length = payload.length + f.randLen + f.cmdLen + 4 + rest.length := by
    rw [hbuf, List.length_append, List.length_append, List.length_take, hhash, hbody]
    omega
  refine ⟨?_, ?_, ?_, ?_, ?_⟩
  · rw [hbuf, List.append_assoc]
    exact List.take_left' hbody
  · rw [hbuf]
    exact extract_append_append hbody (by rw [List.length_take, hhash]; omega)
  · have hhead := length_frameHead l f payload
    have hparts : buf.drop f.cmdLen = (frameHead l f.command payload).drop f.cmdLen ++
        ivStream C P.streamKey iv l.carried payload ++
        (pad ++ ((frameHash C P iv l f.command payload pad).take 2 ++ rest)) := by
      rw [hbuf, frameBody]
      simp only [List.append_assoc]
      rw [List.drop_append_of_le_length (by omega)]
    rw [hparts]
    exact extract_append_append (by rw [List.length_drop]; omega) (by rw [hstream, Nat.add_comm])
  · rw [List.drop_drop, hbuf]
    refine List.drop_left' ?_
    rw [List.length_append, List.length_take, hhash, hbody]
    omega
  · rw [List.length_drop]
    omega

theorem Framed.fronts (h : Framed C P iv l f payload bytes hash) {buf fut rest : Bytes}
    (hbuf : buf ++ fut = bytes ++ rest) :
    ∃ pad, Padding P l f payload pad ∧ Fronts buf (frameBody C P iv l f.command payload pad) ∧
      bytes = frameBody C P iv l f.command payload pad ++
        (frameHash C P iv l f.command payload pad).take 2 ∧
      hash = frameHash C P iv l f.command payload pad := by
  cases h with
  | @intro pad hpad =>
    exact ⟨pad, hpad, ⟨fut, _, by rw [hbuf, List.append_assoc]⟩, rfl, rfl⟩

/-! ## Chains of frames -/

/-- The frames that lead from one state of a lane to another, and what their sender knows of them:
    `carries n f payload output` says what comes out of the payload of the frame that `n` others
    have gone before. -/
inductive Chain (C : Crypto) (P : Session) (iv : Bytes)
    (carries : ℕ → Sent → Bytes → Bytes → Prop) :
    Lane → List Frame → List Sent → Lane → Prop
  | nil (l : Lane) : Chain C P iv carries l [] [] l
  | cons {l l' : Lane} {payload hash : Bytes} {f : Frame} {fs : List Frame} {g : Sent}
      {log : List Sent} (h : Framed C P iv l g payload f.bytes hash) :
      carries l.count g payload f.output →
      Chain C P iv carries (l.next payload hash h.length_hash) fs log l' →
      Chain C P iv carries l (f :: fs) (g :: log) l'

variable {carries : ℕ → Sent → Bytes → Bytes → Prop} {l' l'' : Lane} {fs gs : List Frame}
  {log log' : List Sent}

theorem Chain.append (h : Chain C P iv carries l fs log l')
    (h' : Chain C P iv carries l' gs log' l'') :
    Chain C P iv carries l (fs ++ gs) (log ++ log') l'' := by
  induction h with
  | nil => exact h'
  | cons hf hc _ ih => exact .cons hf hc (ih h')

theorem Chain.count_eq (h : Chain C P iv carries l fs log l') :
    l'.count = l.count + fs.length := by
  induction h with
  | nil => rfl
  | cons _ _ _ ih =>
    simp only [ih, List.length_cons, Lane.next]
    omega

theorem Chain.total_eq (h : Chain C P iv carries l fs log l') :
    Sent.total log = (wire fs).length := by
  induction h with
  | nil => rfl
  | cons hf _ _ ih => rw [Sent.total_cons, ih, wire_cons, List.length_append, hf.length_bytes]

theorem Chain.forall_mem {good : Sent → Prop} (h : Chain C P iv carries l fs log l')
    (hcar : ∀ {n f payload output}, carries n f payload output → good f) : ∀ f ∈ log, good f := by
  induction h with
  | nil => simp
  | cons _ hc _ ih => exact List.forall_mem_cons.2 ⟨hcar hc, ih⟩

theorem Chain.bytes_ne_nil (h : Chain C P iv carries l fs log l') : ∀ f ∈ fs, f.bytes ≠ [] := by
  induction h with
  | nil => simp
  | cons hf _ _ ih =>
    intro g hg
    rcases List.mem_cons.1 hg with rfl | hg
    · exact List.ne_nil_of_length_pos (by rw [hf.length_bytes, Sent.length]; omega)
    · exact ih g hg

end AuthAkarin

end ShadowsocksR

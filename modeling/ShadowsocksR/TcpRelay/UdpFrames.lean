import ShadowsocksR.Inet.PackAddr
import ShadowsocksR.Lib.Framing
import ShadowsocksR.TcpRelay.State

/-!
# Datagrams in a stream

UDP over TCP: a client of a server frames datagrams, each with its length, and writes them to its
connection. `_write_to_sock` takes the complete frames off a buffer and hands the datagrams over,
to `_handle_server_dns_resolved`, or to the resolver when a frame has the name of a host.

After a datagram that goes to an address it returns, and leaves the frames that follow in the
buffer until it is called again:

* `loop_udpWire`: what the loop does on complete frames;
* `Dispatches`: all of the frames that a call completes are handed over;
* `delivered_iff`: when the calls of a run hand over every frame as soon as it is complete.
-/

namespace ShadowsocksR

namespace TcpRelay

/-- A datagram that has been handed over. -/
structure Datagram where
  dest : Dest
  port : ℕ
  data : Bytes

/-- What `_write_to_sock` calls. -/
structure UdpCalls where
  inet : InetAton
  unicode : UnicodeData
  /-- What is left of the stack of calls. -/
  depth : ℕ
  /-- What `resolve` does for the frame that is taken off the buffer after so many others. -/
  resolve : ℕ → Except Raised Unit

/-- `common.is_ip` of a byte string -/
def UdpCalls.isIp (env : UdpCalls) (address : Bytes) : Except Raised (Option Family) :=
  match decodeText address with
  | none => .ok none
  | some address => (env.inet.isIp env.unicode env.depth address).mapError .py

/-- The fields of a connection that `_write_to_sock` uses for datagrams. -/
structure UdpState where
  /-- `_udp_data_send_buffer` -/
  buffer : Bytes := []
  /-- What has been handed over. -/
  handed : List Datagram := []
  /-- How many frames have been taken off the buffer. -/
  taken : ℕ := 0
  /-- Whether there is a remote socket. -/
  remoteSock : Bool := true

/-- A datagram is handed over. -/
def UdpState.hand (s : UdpState) (d : Datagram) : UdpState := { s with handed := s.handed ++ [d] }

/-- Data is appended to the buffer. -/
def UdpState.receive (s : UdpState) (data : Bytes) : UdpState :=
  { s with buffer := s.buffer ++ data }

variable (env : UdpCalls)

/-- One turn of the loop of `_write_to_sock`. -/
def udpBody (s : UdpState) : Next UdpState Raised :=
  if s.buffer.length > 6 then
    let length := unpackBE (s.buffer.take 2)
    if length > s.buffer.length then .done s
    else
      let data := s.buffer.take length
      let n := s.taken
      let s := { s with buffer := s.buffer.drop length, taken := n + 1 }
      match data[2]? with
      | none => .fail (.py .indexError) s
      | some frag =>
        if frag ≠ 0 then .more s
        else
          let data := data.drop 3
          match parseHeader data with
          | .error e => .fail (.py e) s
          | .ok none => .more s
          | .ok (some header) =>
            let datagram : Datagram :=
              ⟨header.destAddr, header.destPort, data.drop header.headerLength⟩
            match header.destAddr with
            | .host destAddr =>
              match env.isIp destAddr with
              | .error e => .fail e s
              | .ok (some _) => .done (s.hand datagram)
              | .ok none =>
                match env.resolve n with
                | .error e => .fail e s
                | .ok () => .more (s.hand datagram)
            | .ip _ => .done (s.hand datagram)
  else .done s

/-- `_write_to_sock(data, self._remote_sock)`, of a connection for datagrams. -/
def udpWrite (s : UdpState) (data : Bytes) : UdpState :=
  if s.remoteSock then
    let s := s.receive data
    match loop (udpBody env) (s.buffer.length + 1) s with
    | .done s | .more s => s
    | .fail (.os .again) s | .fail (.os .inProgress) s => s
    -- `destroy`
    | .fail _ s => { s with remoteSock := false }
  else s

/-- Some calls, one after the other. -/
def udpWrites (cs : List Bytes) : UdpState := cs.foldl (udpWrite env) {}

/-! ## Frames -/

/-- A well-formed frame: a datagram behind its header. -/
structure UdpFrame where
  data : Bytes
  header : RequestHeader
  parse : parseHeader data = .ok (some header)
  short : data.length + 3 < 65536

namespace UdpFrame

variable (f : UdpFrame)

/-- The length, `frag`, and the rest. -/
def bytes : Bytes := packBE 2 (f.data.length + 3) ++ 0 :: f.data

def datagram : Datagram := ⟨f.header.destAddr, f.header.destPort, f.data.drop f.header.headerLength⟩

theorem length_bytes : f.bytes.length = f.data.length + 3 := by
  rw [bytes, List.length_append, length_packBE, List.length_cons]
  omega

end UdpFrame

/-- The bytes of some frames. -/
def udpWire (fs : List UdpFrame) : Bytes := fs.flatMap UdpFrame.bytes

/-- What becomes of a frame. -/
inductive Outcome
  /-- It is handed to the resolver, and the loop goes on. -/
  | looked
  /-- It is handed over, and the loop ends. -/
  | direct
  | raises (e : Raised)

/-- What becomes of a frame that is taken off the buffer after `n` others. -/
def UdpCalls.outcome (n : ℕ) (f : UdpFrame) : Outcome :=
  match f.header.destAddr with
  | .ip _ => .direct
  | .host name =>
    match env.isIp name with
    | .error e => .raises e
    | .ok (some _) => .direct
    | .ok none =>
      match env.resolve n with
      | .error e => .raises e
      | .ok () => .looked

/-- All of the frames that a call takes off the buffer are handed over: the names of hosts go to the
    resolver, but for the last one, after which the loop can end. -/
def Dispatches : ℕ → List UdpFrame → Prop
  | _, [] => True
  | n, [f] => env.outcome n f = .looked ∨ env.outcome n f = .direct
  | n, f :: g :: fs => env.outcome n f = .looked ∧ Dispatches (n + 1) (g :: fs)

/-! ## The loop -/

variable {env} {f : UdpFrame} {fs : List UdpFrame} {s : UdpState} {tail : Bytes}

/-- Less than the next frame is in the buffer. -/
def Incomplete (tail : Bytes) : List UdpFrame → Prop
  | [] => tail = []
  | f :: _ => tail <+: f.bytes ∧ tail ≠ f.bytes

theorem length_udpFrame (f : UdpFrame) : 4 ≤ f.data.length := by
  have h := f.parse
  unfold parseHeader at h
  split at h
  · cases h
  · dsimp only at h
    split_ifs at h with h₁ h₂ h₃ h₄ h₅
    · omega
    · cases h
    · split at h
      · split_ifs at h
        · omega
        · cases h
      · cases h
    · omega
    · cases h
    · cases h

theorem take_bytes (f : UdpFrame) : f.bytes.take 2 = packBE 2 (f.data.length + 3) :=
  List.take_left' (length_packBE 2 _)

theorem unpackBE_bytes (f : UdpFrame) : unpackBE (f.bytes.take 2) = f.bytes.length := by
  rw [take_bytes, unpackBE_packBE f.short, f.length_bytes]

/-- The loop ends at an incomplete frame. -/
theorem udpBody_incomplete (h : Incomplete s.buffer fs) : udpBody env s = .done s := by
  rw [udpBody]
  by_cases hlen : s.buffer.length > 6
  · rw [if_pos hlen]
    dsimp only
    cases fs with
    | nil =>
      rw [Incomplete] at h
      rw [h] at hlen
      cases hlen
    | cons f fs =>
      obtain ⟨⟨rest, hrest⟩, hne⟩ := h
      have htake : s.buffer.take 2 = f.bytes.take 2 := by
        rw [← hrest, List.take_append_of_le_length (by omega)]
      have hrestne : rest ≠ [] := by
        rintro rfl
        exact hne (by rw [← hrest, List.append_nil])
      have hlt : s.buffer.length < f.bytes.length := by
        rw [← hrest, List.length_append]
        have := List.length_pos_iff.2 hrestne
        omega
      rw [if_pos (by rw [htake, unpackBE_bytes]; exact hlt)]
  · rw [if_neg hlen]

/-- What one turn does with a complete frame. -/
theorem udpBody_bytes {rest : Bytes} (hbuf : s.buffer = f.bytes ++ rest) :
    udpBody env s =
      match env.outcome s.taken f with
      | .looked => .more (UdpState.hand { s with buffer := rest, taken := s.taken + 1 } f.datagram)
      | .direct => .done (UdpState.hand { s with buffer := rest, taken := s.taken + 1 } f.datagram)
      | .raises e => .fail e { s with buffer := rest, taken := s.taken + 1 } := by
  have hlen := f.length_bytes
  have hdata := length_udpFrame f
  have hge : f.bytes.length ≤ s.buffer.length := by
    rw [hbuf, List.length_append]
    omega
  have htake : unpackBE (s.buffer.take 2) = f.bytes.length := by
    rw [hbuf, List.take_append_of_le_length (by omega), unpackBE_bytes]
  have hfront : s.buffer.take f.bytes.length = f.bytes := by rw [hbuf, List.take_left]
  have hback : s.buffer.drop f.bytes.length = rest := by rw [hbuf, List.drop_left]
  have hfrag : f.bytes[2]? = some 0 := by
    rw [UdpFrame.bytes, List.getElem?_append_right (by rw [length_packBE]), length_packBE]
    rfl
  have hbody : f.bytes.drop 3 = f.data := by
    rw [UdpFrame.bytes, ← List.singleton_append, ← List.append_assoc]
    exact List.drop_left' (by simp)
  rw [udpBody, if_pos (by omega)]
  dsimp only
  rw [htake, if_neg (by omega), hfront, hback, hfrag]
  dsimp only
  rw [if_neg (by simp), hbody, f.parse]
  dsimp only [UdpCalls.outcome]
  cases hdest : f.header.destAddr with
  | ip addr =>
    dsimp only
    rw [UdpFrame.datagram, hdest]
  | host name =>
    dsimp only
    rw [UdpFrame.datagram, hdest]
    rcases env.isIp name with e | _ | _
    · rfl
    · dsimp only
      rcases env.resolve s.taken with e | _ <;> rfl
    · rfl

/-- What the loop does with the complete frames in the buffer. -/
def takeFrames (env : UdpCalls) (tail : Bytes) (s : UdpState) : List UdpFrame → Next UdpState Raised
  | [] => .done s
  | f :: fs =>
    let n := s.taken
    let s := { s with buffer := udpWire fs ++ tail, taken := n + 1 }
    match env.outcome n f with
    | .looked => takeFrames env tail (s.hand f.datagram) fs
    | .direct => .done (s.hand f.datagram)
    | .raises e => .fail e s

theorem udpWire_cons (f : UdpFrame) (fs : List UdpFrame) :
    udpWire (f :: fs) = f.bytes ++ udpWire fs := rfl

theorem udpWire_append (fs gs : List UdpFrame) : udpWire (fs ++ gs) = udpWire fs ++ udpWire gs :=
  List.flatMap_append

theorem loop_udpWire {todo : List UdpFrame} (hbuf : s.buffer = udpWire fs ++ tail)
    (htail : Incomplete tail todo) {fuel : ℕ} (hfuel : s.buffer.length < fuel) :
    loop (udpBody env) fuel s = takeFrames env tail s fs := by
  obtain ⟨fuel, rfl⟩ := Nat.exists_eq_succ_of_ne_zero (Nat.ne_of_gt (Nat.zero_lt_of_lt hfuel))
  induction fs generalizing s fuel with
  | nil =>
    rw [← show s.buffer = tail from hbuf] at htail
    exact loop_succ_of_done (udpBody_incomplete htail)
  | cons f fs ih =>
    rw [udpWire_cons, List.append_assoc] at hbuf
    have hbody : udpBody env s = _ := udpBody_bytes hbuf
    rw [takeFrames, loop, hbody]
    cases houtcome : env.outcome s.taken f with
    | looked =>
      dsimp only
      -- The frame has bytes, so there are turns left for the frames that follow.
      have hlen : (udpWire fs ++ tail).length < fuel := by
        have := f.length_bytes
        rw [hbuf, List.length_append] at hfuel
        omega
      obtain ⟨fuel, rfl⟩ := Nat.exists_eq_succ_of_ne_zero (Nat.ne_of_gt (Nat.zero_lt_of_lt hlen))
      exact ih rfl fuel hlen
    | direct => rfl
    | raises e => rfl

/-- Frames that are all handed over. -/
theorem takeFrames_of_dispatches (hbuf : s.buffer = udpWire fs ++ tail)
    (h : Dispatches env s.taken fs) :
    takeFrames env tail s fs = .done { s with
      buffer := tail
      handed := s.handed ++ fs.map UdpFrame.datagram
      taken := s.taken + fs.length } := by
  induction fs generalizing s with
  | nil =>
    rw [takeFrames, ← show s.buffer = tail from hbuf, List.map_nil, List.append_nil]
    rfl
  | cons f fs ih =>
    rw [takeFrames]
    cases fs with
    | nil =>
      rcases h with h | h
      · rw [h]
        rfl
      · rw [h]
        rfl
    | cons g fs =>
      obtain ⟨hf, hfs⟩ := h
      rw [hf]
      dsimp only
      rw [ih rfl hfs]
      simp only [UdpState.hand, List.map_cons, List.append_assoc, List.singleton_append,
        List.length_cons]
      congr 2
      omega

/-- Only then does the loop hand over all of the frames. -/
theorem dispatches_of_handed {r : Next UdpState Raised} (hr : takeFrames env tail s fs = r)
    (h : r.state.handed = s.handed ++ fs.map UdpFrame.datagram) : Dispatches env s.taken fs := by
  induction fs generalizing s with
  | nil => trivial
  | cons f fs ih =>
    rw [takeFrames] at hr
    cases houtcome : env.outcome s.taken f with
    | looked =>
      rw [houtcome] at hr
      have htail := ih hr (by
        rw [h, UdpState.hand, List.append_assoc, List.map_cons, List.singleton_append])
      cases fs with
      | nil => exact .inl houtcome
      | cons g fs => exact ⟨houtcome, htail⟩
    | direct =>
      rw [houtcome] at hr
      cases fs with
      | nil => exact .inr houtcome
      | cons g fs =>
        rw [← hr] at h
        have := congrArg List.length h
        simp [Next.state, UdpState.hand] at this
    | raises e =>
      rw [houtcome] at hr
      rw [← hr] at h
      have := congrArg List.length h
      simp [Next.state] at this

/-! ## Calls -/

variable {c : Bytes} {todo : List UdpFrame}

theorem udpWrite_of_dispatches (hsock : s.remoteSock = true)
    (hbuf : s.buffer ++ c = udpWire fs ++ tail) (htail : Incomplete tail todo)
    (h : Dispatches env s.taken fs) :
    udpWrite env s c = { s with
      buffer := tail
      handed := s.handed ++ fs.map UdpFrame.datagram
      taken := s.taken + fs.length } := by
  rw [udpWrite, if_pos hsock]
  dsimp only
  have hloop : loop (udpBody env) _ _ = _ :=
    loop_udpWire (s := s.receive c) hbuf htail (Nat.lt_add_one _)
  rw [hloop, takeFrames_of_dispatches (s := s.receive c) hbuf h]
  rfl

theorem dispatches_of_udpWrite (hsock : s.remoteSock = true)
    (hbuf : s.buffer ++ c = udpWire fs ++ tail) (htail : Incomplete tail todo)
    (h : (udpWrite env s c).handed = s.handed ++ fs.map UdpFrame.datagram) :
    Dispatches env s.taken fs := by
  rw [udpWrite, if_pos hsock] at h
  dsimp only at h
  have hloop : loop (udpBody env) _ _ = _ :=
    loop_udpWire (s := s.receive c) hbuf htail (Nat.lt_add_one _)
  rw [hloop] at h
  have hs : (takeFrames env tail (s.receive c) fs).state.handed =
      s.handed ++ fs.map UdpFrame.datagram := by
    -- The handler of the exception leaves what has been handed over as it is.
    rw [← h]
    cases takeFrames env tail (s.receive c) fs with
    | done t => rfl
    | more t => rfl
    | fail e t =>
      rcases e with ⟨_ | _ | _⟩ | _ <;> rfl
  exact dispatches_of_handed (s := s.receive c) rfl hs

/-- The frames whose bytes are all among so many bytes. -/
def arrived : ℕ → List UdpFrame → List UdpFrame
  | _, [] => []
  | n, f :: fs => if f.bytes.length ≤ n then f :: arrived (n - f.bytes.length) fs else []

/-- More frames have arrived after more bytes. -/
theorem arrived_prefix {n m : ℕ} (h : n ≤ m) (fs : List UdpFrame) :
    arrived n fs <+: arrived m fs := by
  induction fs generalizing n m with
  | nil => exact List.prefix_rfl
  | cons f fs ih =>
    rw [arrived, arrived]
    by_cases hn : f.bytes.length ≤ n
    · rw [if_pos hn, if_pos (hn.trans h), List.prefix_cons_inj]
      exact ih (Nat.sub_le_sub_right h _)
    · rw [if_neg hn]
      exact List.nil_prefix

/-- What has arrived is some frames and a part of the next one. -/
theorem exists_tail {p : Bytes} (h : p <+: udpWire fs) :
    ∃ tail todo, p = udpWire (arrived p.length fs) ++ tail ∧ Incomplete tail todo := by
  induction fs generalizing p with
  | nil => exact ⟨[], [], List.prefix_nil.1 h, rfl⟩
  | cons f fs ih =>
    obtain ⟨fut, hfut⟩ := h
    rcases prefix_or_prefix (hfut.trans (udpWire_cons f fs)) with ⟨hp, hne⟩ | ⟨rest, rfl, hrest⟩
    · have hlt : ¬f.bytes.length ≤ p.length := fun hle =>
        hne (hp.eq_of_length (le_antisymm hp.length_le hle))
      rw [arrived, if_neg hlt]
      exact ⟨p, f :: fs, rfl, hp, hne⟩
    · obtain ⟨tail, todo, htail, hincomplete⟩ := ih ⟨fut, hrest⟩
      have hle : f.bytes.length ≤ (f.bytes ++ rest).length := by
        rw [List.length_append]
        omega
      rw [arrived, if_pos hle, List.length_append, Nat.add_sub_cancel_left, udpWire_cons]
      exact ⟨tail, todo, by rw [List.append_assoc, ← htail], hincomplete⟩

/-! ## Runs -/

variable (env) (fs)

/-- The frames that have arrived with some calls. -/
def frames (cs : List Bytes) : List UdpFrame := arrived cs.flatten.length fs

/-- The frames that have arrived have been handed over, and the buffer has the rest. -/
def Delivered (cs : List Bytes) : Prop :=
  (udpWrites env cs).handed = (frames fs cs).map UdpFrame.datagram ∧
    udpWire (frames fs cs) ++ (udpWrites env cs).buffer = cs.flatten

/-- Every frame that the call `c` completes, after the calls `before`, is handed over in it. -/
def DispatchesCall (before : List Bytes) (c : Bytes) : Prop :=
  Dispatches env (frames fs before).length
    ((frames fs (before ++ [c])).drop (frames fs before).length)

variable {env} {fs} {before cs : List Bytes}

theorem udpWrites_append (cs : List Bytes) (c : Bytes) :
    udpWrites env (cs ++ [c]) = udpWrite env (udpWrites env cs) c := by
  rw [udpWrites, List.foldl_append]
  rfl

/-- The state between two calls, when every frame has been handed over. -/
structure Between (env : UdpCalls) (fs : List UdpFrame) (cs : List Bytes) : Prop where
  delivered : Delivered env fs cs
  taken : (udpWrites env cs).taken = (frames fs cs).length
  remoteSock : (udpWrites env cs).remoteSock = true

/-- What the frames of a call and the rest are, from the state before it. -/
theorem Between.split (h : Between env fs before) (hc : (before ++ [c]).flatten <+: udpWire fs) :
    ∃ gs tail todo, frames fs (before ++ [c]) = frames fs before ++ gs ∧
      (udpWrites env before).buffer ++ c = udpWire gs ++ tail ∧ Incomplete tail todo ∧
      udpWire (frames fs (before ++ [c])) ++ tail = (before ++ [c]).flatten := by
  have hflat : (before ++ [c]).flatten = before.flatten ++ c := by simp
  have hle : before.flatten.length ≤ (before ++ [c]).flatten.length := by
    rw [hflat, List.length_append]
    omega
  obtain ⟨gs, hgs⟩ := arrived_prefix hle fs
  obtain ⟨tail, todo, htail, hincomplete⟩ := exists_tail hc
  refine ⟨gs, tail, todo, hgs.symm, ?_, hincomplete, htail.symm⟩
  rw [← List.append_cancel_left_eq (udpWire (frames fs before)), ← List.append_assoc,
    h.delivered.2, ← hflat, htail, ← hgs, udpWire_append, List.append_assoc]
  rfl

/-- A call hands over the frames it completes when they are all dispatched, and only then. -/
theorem Between.delivered_append_iff (h : Between env fs before)
    (hc : (before ++ [c]).flatten <+: udpWire fs) :
    Delivered env fs (before ++ [c]) ↔ DispatchesCall env fs before c := by
  obtain ⟨gs, tail, todo, hgs, hbuf, hincomplete, htail⟩ := h.split hc
  rw [Delivered, DispatchesCall, hgs, List.drop_left, udpWrites_append, ← h.taken]
  rw [hgs] at htail
  refine ⟨fun hd => ?_, fun hd => ?_⟩
  · refine dispatches_of_udpWrite h.remoteSock hbuf hincomplete ?_
    rw [hd.1, h.delivered.1, List.map_append]
  · rw [udpWrite_of_dispatches h.remoteSock hbuf hincomplete hd, h.delivered.1, List.map_append]
    exact ⟨rfl, htail⟩

theorem Between.next (h : Between env fs before) (hc : (before ++ [c]).flatten <+: udpWire fs)
    (hd : DispatchesCall env fs before c) : Between env fs (before ++ [c]) := by
  refine ⟨(h.delivered_append_iff hc).2 hd, ?_, ?_⟩
  all_goals
    obtain ⟨gs, tail, todo, hgs, hbuf, hincomplete, -⟩ := h.split hc
    rw [DispatchesCall, hgs, List.drop_left, ← h.taken] at hd
    rw [udpWrites_append, udpWrite_of_dispatches h.remoteSock hbuf hincomplete hd]
  · rw [h.taken, hgs, List.length_append]
  · exact h.remoteSock

/-- The calls of a system where the resolver takes every name. -/
def UdpCalls.plain : UdpCalls where
  inet := .strict
  unicode := .ascii
  depth := 1
  resolve := fun _ => .ok ()

/-- A datagram with one byte, for the port 53 of `8.8.8.8`. -/
def UdpFrame.dns (b : UInt8) : UdpFrame where
  data := [1, 8, 8, 8, 8, 0, 53, b]
  header :=
    { connecttype := false, addrtype := ADDRTYPE_IPV4, destAddr := .ip (.v4 0x08080808)
      destPort := 53, headerLength := 7 }
  parse := by rfl
  short := by show 8 + 3 < 65536; decide

end TcpRelay

end ShadowsocksR

import ShadowsocksR.Lib.Run
import ShadowsocksR.TcpRelay.Relay

/-!
# How much is read at once

`_get_read_size` reads whole frames, of `_tcp_mss` less the overhead of the
plugins: the more of them, the longer the connection goes on without having
exceeded its limit. A client takes `_tcp_mss` from the first frame of its server,
whatever it is.

* `readSize`, `step`: the sizes of a connection, and what `handle_event` does to
  them (`getReadSize_eq`, `handleEvent_exceeded`);
* `Sizes.Useful`: what `_get_read_size` should return;
* `useful_exec`: while the frames are not empty, it does;
* `not_useful`: a server that announces no more than the overhead.
-/

namespace ShadowsocksR

namespace TcpRelay

/-- The fields of a connection that `_get_read_size` is about. -/
structure Sizes where
  tcpMss : ℤ
  overhead : ℤ
  recvBufferSize : ℤ
  recvUMaxSize : ℤ := BUF_SIZE
  recvDMaxSize : ℤ := BUF_SIZE

namespace Sizes

/-- A connection with an overhead. -/
def new (tcpMss overhead : ℤ) : Sizes where
  tcpMss := tcpMss
  overhead := overhead
  recvBufferSize := BUF_SIZE - overhead

def recvMaxSize (s : Sizes) (up : Bool) : ℤ := if up then s.recvUMaxSize else s.recvDMaxSize

def withMaxSize (s : Sizes) (up : Bool) (size : ℤ) : Sizes :=
  if up then { s with recvUMaxSize := size } else { s with recvDMaxSize := size }

/-- What `_get_read_size` returns when it has found so many bytes. The quotient of two of these
    numbers is never so near to the next integer that it would be rounded to it. -/
def sizeOf (s : Sizes) (up : Bool) (found : ℤ) : Except PyExc ℤ :=
  let frameSize := s.tcpMss - s.overhead
  let bufferSize := min found (s.recvMaxSize up)
  if bufferSize = s.recvBufferSize then .ok bufferSize
  else if bufferSize > frameSize then
    if frameSize = 0 then .error .zeroDivisionError
    else .ok (bufferSize.tdiv frameSize * frameSize)
  -- Less than a frame is read as it is.
  else .ok bufferSize

/-- `_get_read_size`, when so many bytes are available. -/
def readSize (s : Sizes) (up : Bool) (available : ℕ) : Except PyExc ℤ × Sizes :=
  if s.overhead = 0 then (.ok s.recvBufferSize, s)
  else if s.recvBufferSize < 0 then (.error .valueError, s)
  else
    (s.sizeOf up (min available s.recvBufferSize),
      s.withMaxSize up (min (s.recvMaxSize up + (s.tcpMss - s.overhead)) BUF_SIZE))

/-- What `handle_event` does to the sizes. -/
inductive Event
  /-- `_on_local_read` or `_on_remote_read` asks how much to read. -/
  | read (up : Bool) (available : ℕ)
  /-- The limit is exceeded. -/
  | exceeded (up : Bool)
  /-- `client_post_decrypt` takes a number of 16 bits from the first frame. -/
  | clientPostDecrypt (tcpMss : UInt16)
  /-- A server asks the plugins for the overhead again after the first `server_decode`. -/
  | serverDecode (overhead : ℤ)
  /-- It asks again when it has parsed the header. -/
  | handleStageAddr (overhead : ℤ)

def step (s : Sizes) : Event → Option Sizes
  | .read up available => some (s.readSize up available).2
  | .exceeded up => some (s.withMaxSize up (s.tcpMss - s.overhead))
  | .clientPostDecrypt tcpMss => some { s with tcpMss := tcpMss.toNat }
  | .serverDecode overhead => some { s with overhead := overhead }
  | .handleStageAddr overhead =>
    some { s with overhead := overhead, recvBufferSize := BUF_SIZE - overhead }

/-- Whatever is available, `_get_read_size` raises nothing, and when there is something, it returns
    a size from 1 to that of the buffer. -/
def Useful (s : Sizes) : Prop := ∀ up available, ∃ size, (s.readSize up available).1 = .ok size ∧
  (1 ≤ available → 1 ≤ size ∧ size ≤ s.recvBufferSize)

/-- The frames are not empty, and the buffer has room. -/
structure Roomy (s : Sizes) : Prop where
  buffer : 1 ≤ s.recvBufferSize
  frame : s.overhead < s.tcpMss
  up : 1 ≤ s.recvUMaxSize
  down : 1 ≤ s.recvDMaxSize

/-- The frames stay non-empty, and the buffer keeps some room. -/
def Event.Fits (s : Sizes) : Event → Prop
  | .clientPostDecrypt tcpMss => s.overhead < tcpMss.toNat
  | .serverDecode overhead => overhead < s.tcpMss
  | .handleStageAddr overhead => overhead < s.tcpMss ∧ overhead < BUF_SIZE
  | _ => True

variable {s s' : Sizes}

@[simp] theorem withMaxSize_up (s : Sizes) (size : ℤ) :
    s.withMaxSize true size = { s with recvUMaxSize := size } := rfl

@[simp] theorem withMaxSize_down (s : Sizes) (size : ℤ) :
    s.withMaxSize false size = { s with recvDMaxSize := size } := rfl

theorem Roomy.maxSize (h : s.Roomy) (up : Bool) : 1 ≤ s.recvMaxSize up := by
  cases up with
  | true => exact h.up
  | false => exact h.down

theorem Roomy.withMaxSize (h : s.Roomy) (up : Bool) {size : ℤ} (hsize : 1 ≤ size) :
    (s.withMaxSize up size).Roomy := by
  cases up with
  | true => exact ⟨h.buffer, h.frame, hsize, h.down⟩
  | false => exact ⟨h.buffer, h.frame, h.up, hsize⟩

/-- Reading moves the limit of the direction by a frame, unless nothing is framed. -/
theorem readSize_snd (h : s.Roomy) (up : Bool) (available : ℕ) :
    (s.readSize up available).2 = s ∨ (s.readSize up available).2 =
      s.withMaxSize up (min (s.recvMaxSize up + (s.tcpMss - s.overhead)) BUF_SIZE) := by
  have hbuffer := h.buffer
  rw [readSize]
  split_ifs with hzero hneg
  · exact .inl rfl
  · exact .inl rfl
  · exact .inr rfl

theorem Roomy.read (h : s.Roomy) (up : Bool) (available : ℕ) :
    (s.readSize up available).2.Roomy := by
  obtain hs | hs := readSize_snd h up available
  · rwa [hs]
  · have hmax := h.maxSize up
    have hframe := h.frame
    rw [hs]
    exact h.withMaxSize up (le_min (by omega) (by decide))

theorem Roomy.step (h : s.Roomy) {e : Event} (hfits : e.Fits s) (hstep : step s e = some s') :
    s'.Roomy := by
  have hframe := h.frame
  cases e with
  | read up available =>
    cases hstep
    exact h.read up available
  | exceeded up =>
    cases hstep
    exact h.withMaxSize up (by omega)
  | clientPostDecrypt tcpMss =>
    cases hstep
    exact ⟨h.buffer, hfits, h.up, h.down⟩
  | serverDecode overhead =>
    cases hstep
    exact ⟨h.buffer, hfits, h.up, h.down⟩
  | handleStageAddr overhead =>
    cases hstep
    have hbuffer := hfits.2
    exact ⟨show 1 ≤ BUF_SIZE - overhead by omega, hfits.1, h.up, h.down⟩

/-- Whole frames of what is there: at least one of them, and not more than there is. -/
theorem frames_le {n frame : ℤ} (hframe : 1 ≤ frame) (hn : frame < n) :
    1 ≤ n.tdiv frame * frame ∧ n.tdiv frame * frame ≤ n := by
  have hdiv : n.tdiv frame = n / frame := Int.tdiv_eq_ediv_of_nonneg (by omega)
  have hone : 1 ≤ n / frame := (Int.le_ediv_iff_mul_le (by omega)).2 (by omega)
  rw [hdiv]
  refine ⟨?_, Int.ediv_mul_le n (by omega)⟩
  calc (1 : ℤ) ≤ 1 * frame := by omega
    _ ≤ n / frame * frame := Int.mul_le_mul_of_nonneg_right hone (by omega)

theorem Roomy.useful (h : s.Roomy) : s.Useful := by
  intro up available
  have hbuffer := h.buffer
  have hframe := h.frame
  have hmax := h.maxSize up
  rw [readSize]
  by_cases hzero : s.overhead = 0
  · rw [if_pos hzero]
    exact ⟨_, rfl, fun _ => ⟨hbuffer, le_rfl⟩⟩
  rw [if_neg hzero, if_neg (by omega)]
  -- What is found, and the limit, are both at least one, and so is what is returned of them.
  simp only [sizeOf]
  split_ifs with hfull hlong hempty
  · exact ⟨_, rfl, fun _ => ⟨by omega, hfull.le⟩⟩
  · omega
  · obtain ⟨hle, hge⟩ := frames_le (by omega) hlong
    exact ⟨_, rfl, fun _ => ⟨hle, hge.trans (by omega)⟩⟩
  · exact ⟨_, rfl, fun _ => ⟨by omega, by omega⟩⟩

theorem clampMss_le (maxSeg : Option ℤ) : clampMss maxSeg ≤ 1500 := by
  unfold clampMss TCP_MSS
  split
  · split_ifs <;> omega
  · omega

/-- As long as the frames are not empty, what is to be read next is useful. -/
theorem useful_exec {maxSeg : Option ℤ} {overhead : ℤ} (hframe : overhead < clampMss maxSeg)
    {events : List Event}
    (hfits : Run.Throughout Sizes.step (fun s e => e.Fits s) (new (clampMss maxSeg) overhead) events)
    (hrun : Run.exec Sizes.step (new (clampMss maxSeg) overhead) events = some s) : s.Useful := by
  have hmss := clampMss_le maxSeg
  have hbuf : BUF_SIZE = 32768 := rfl
  have hstart : (new (clampMss maxSeg) overhead).Roomy :=
    ⟨show 1 ≤ BUF_SIZE - overhead by omega, hframe, (by decide : (1 : ℤ) ≤ BUF_SIZE),
      (by decide : (1 : ℤ) ≤ BUF_SIZE)⟩
  exact (Run.exec_invariant (P := Roomy) (fun h hgood hstep => h.step hgood hstep) hstart hfits
    hrun).useful

/-- A client with an overhead of 4, that takes 1000 from its server and reads. -/
theorem useful_exec_read :
    ({ new (clampMss none) 4 with tcpMss := 1000, recvUMaxSize := BUF_SIZE } : Sizes).Useful :=
  have hframe : 4 < clampMss none := by decide
  have hfits : Run.Throughout Sizes.step (fun s e => e.Fits s) (new (clampMss none) 4)
      [.clientPostDecrypt 1000, .read true 1] :=
    .cons (show (4 : ℤ) < 1000 by decide) fun _ _ => .cons trivial fun _ _ => Run.throughout_nil _
  useful_exec hframe hfits rfl

/-- A client with an overhead of 4 takes 4 from its server: it cannot divide by its frames. -/
theorem not_useful :
    Run.exec Sizes.step (new (clampMss none) 4) [.clientPostDecrypt 4] =
      some { new (clampMss none) 4 with tcpMss := 4 } ∧
    ¬ ({ new (clampMss none) 4 with tcpMss := 4 } : Sizes).Useful := by
  refine ⟨rfl, fun h => ?_⟩
  obtain ⟨size, hsize, -⟩ := h true 1
  have hraised : (({ new (clampMss none) 4 with tcpMss := 4 } : Sizes).readSize true 1).1 =
      .error .zeroDivisionError := rfl
  rw [hraised] at hsize
  cases hsize

end Sizes

/-! ## The sizes of a connection -/

variable {O P E : Type} {c : Setup O P E}

def Handler.sizes (h : Handler O P E) : Sizes where
  tcpMss := h.tcpMss
  overhead := h.overhead
  recvBufferSize := h.recvBufferSize
  recvUMaxSize := h.recvUMaxSize
  recvDMaxSize := h.recvDMaxSize

/-- The outcome of a method that raises what Python raises. -/
def outcome {α : Type} (r : Except PyExc α) (w : World O P E) :
    EStateM.Result Raised (World O P E) α :=
  match r with
  | .ok a => .ok a w
  | .error e => .error (.py e) w

/-- A frame more may be read in a direction. -/
def World.moreRoom (w : World O P E) (up : Bool) : World O P E :=
  let frameSize := w.self.tcpMss - w.self.overhead
  { w with
    calls := w.calls + 1
    self := if up then { w.self with recvUMaxSize := min (w.self.recvUMaxSize + frameSize) BUF_SIZE }
      else { w.self with recvDMaxSize := min (w.self.recvDMaxSize + frameSize) BUF_SIZE } }

/-- `_get_read_size`, after it has peeked. -/
theorem getReadSize_framed {env : Env} {available : ℕ} (hpeek : env.peek = .ok available) (up : Bool)
    {w : World O P E} (hzero : w.self.overhead ≠ 0) (hneg : ¬ w.self.recvBufferSize < 0) :
    getReadSize env w.self.recvBufferSize up w =
      outcome (w.self.sizes.sizeOf up (min available w.self.recvBufferSize)) (w.moreRoom up) := by
  have hself : self w = .ok w.self w := rfl
  have hask : ask (fun _ => env.peek) w = .ok env.peek { w with calls := w.calls + 1 } := rfl
  have hcall : call (fun _ => env.peek) w = .ok available { w with calls := w.calls + 1 } := by
    rw [call, bind_of_ok hask, hpeek]
    rfl
  rw [getReadSize, bind_of_ok hself, if_neg hzero, if_neg hneg]
  dsimp only
  rw [bind_of_ok hcall]
  refine (bind_of_ok (rfl : modifySelf _ _ = .ok () _)).trans ?_
  -- The limit has been raised, but the size is still that of the limit before.
  have hmax : w.self.sizes.recvMaxSize up =
    if up = true then w.self.recvUMaxSize else w.self.recvDMaxSize := rfl
  have hbuffer : w.self.sizes.recvBufferSize = w.self.recvBufferSize := rfl
  have hframe : w.self.sizes.tcpMss - w.self.sizes.overhead = w.self.tcpMss - w.self.overhead := rfl
  rw [Sizes.sizeOf, hmax, hbuffer, hframe]
  dsimp only
  cases up
  all_goals
    simp only [Bool.false_eq_true, if_true, if_false]
    split_ifs <;> rfl

/-- `_get_read_size` is about the sizes of the connection. -/
theorem getReadSize_eq {env : Env} {available : ℕ} (hpeek : env.peek = .ok available) (up : Bool)
    (w : World O P E) : ∃ w' : World O P E,
      w'.self.sizes = (w.self.sizes.readSize up available).2 ∧
      getReadSize env w.self.recvBufferSize up w =
        outcome (w.self.sizes.readSize up available).1 w' := by
  have hself : self w = .ok w.self w := rfl
  have hoverhead : w.self.sizes.overhead = w.self.overhead := rfl
  have hbuffer : w.self.sizes.recvBufferSize = w.self.recvBufferSize := rfl
  rw [Sizes.readSize, hoverhead, hbuffer]
  by_cases hzero : w.self.overhead = 0
  · rw [if_pos hzero]
    refine ⟨w, rfl, ?_⟩
    rw [getReadSize, bind_of_ok hself, if_pos hzero]
    rfl
  rw [if_neg hzero]
  by_cases hneg : w.self.recvBufferSize < 0
  · rw [if_pos hneg]
    refine ⟨w, rfl, ?_⟩
    rw [getReadSize, bind_of_ok hself, if_neg hzero, if_pos hneg]
    rfl
  rw [if_neg hneg]
  refine ⟨w.moreRoom up, ?_, getReadSize_framed hpeek up hzero hneg⟩
  cases up <;> rfl

/-- When a limit is exceeded, at most a frame of the direction is read next. -/
theorem handleEvent_exceeded {env : Env} {w : World O P E} {sock : Sock} {event : Ready}
    (hunset : w.self.stage ≠ .unset) (hdestroyed : w.self.stage ≠ .destroyed)
    (huser : (w.self.user.isSome && !env.knownUser) = false) (herr : event.err = false)
    (hread : event.read = true) (hexceed : env.isExceed = true) : ∃ w' : World O P E,
      Sizes.step w.self.sizes (.exceeded (sock = .localSock)) = some w'.self.sizes ∧
      handleEvent c env sock event w = .ok () w' := by
  have hself : self w = .ok w.self w := rfl
  by_cases hsock : sock = .localSock
  · refine ⟨{ w with self := { w.self with recvUMaxSize := w.self.tcpMss - w.self.overhead } },
      by rw [decide_eq_true hsock]; rfl, ?_⟩
    rw [handleEvent, bind_of_ok hself, if_neg hunset, if_neg hdestroyed]
    simp only [huser, herr, hread, hexceed, hsock, if_true, if_false, Bool.false_eq_true]
    rfl
  · refine ⟨{ w with self := { w.self with recvDMaxSize := w.self.tcpMss - w.self.overhead } },
      by rw [decide_eq_false hsock]; rfl, ?_⟩
    rw [handleEvent, bind_of_ok hself, if_neg hunset, if_neg hdestroyed]
    simp only [huser, herr, hread, hexceed, hsock, if_true, if_false, Bool.false_eq_true]
    rfl

end TcpRelay

end ShadowsocksR

import ShadowsocksR.Lib.Run
import ShadowsocksR.TcpRelay.Rules

/-!
# Data for the client

What is written to the local socket is queued when the socket does not accept
it, and sent when the socket is writable. But new data is offered to the socket
also when older data is queued.

* `Outbox`: a socket with a queue, as an abstract machine;
* `outbox_writeToSock`, `outbox_onLocalWrite`: the methods are its operations;
* `inOrder_write_iff`: a write keeps the order if and only if what the socket
  accepts of it commutes with what is queued;
* `inOrder_iff`: the runs that keep it.
-/

namespace ShadowsocksR

namespace TcpRelay

/-! ## A socket with a queue -/

/-- What the socket has accepted, what is queued for it, and what the stream waits for. -/
structure Outbox where
  accepted : Bytes
  queue : List Bytes
  status : WaitStatus

namespace Outbox

/-- Data is offered to the socket, which accepts so much of it or none. -/
def write (o : Outbox) (data : Bytes) (outcome : Option ℕ) : Outbox :=
  if data = [] then o
  else
    match outcome with
    | some n =>
      if n < data.length then
        ⟨o.accepted ++ data.take n, o.queue ++ [data.drop n], WAIT_STATUS_WRITING⟩
      else ⟨o.accepted ++ data, o.queue, WAIT_STATUS_READING⟩
    | none => ⟨o.accepted, o.queue ++ [data], WAIT_STATUS_WRITING⟩

/-- The socket is writable: what is queued is offered to it. -/
def writable (o : Outbox) (outcome : Option ℕ) : Outbox :=
  if o.queue = [] then { o with status := WAIT_STATUS_READING }
  else { o with queue := [] }.write o.queue.flatten outcome

/-- The data is accepted or queued in its order, and the stream waits for the socket when there is
    some queued. -/
structure InOrder (total : Bytes) (o : Outbox) : Prop where
  order : o.accepted ++ o.queue.flatten = total
  waits : o.queue ≠ [] → o.status.writing = true

/-- When a write keeps the order: what is accepted of the data could as well have come before what
    is queued, and nothing is queued if all of it is accepted. -/
def Passes (o : Outbox) (data : Bytes) : Option ℕ → Prop
  | some n => data = [] ∨ (data.take n ++ o.queue.flatten = o.queue.flatten ++ data.take n ∧
      (data.length ≤ n → o.queue = []))
  | none => True

variable {o : Outbox} {total data : Bytes}

/-- A write keeps the order if and only if what is accepted commutes with what is queued. -/
theorem inOrder_write_iff (h : o.InOrder total) (data : Bytes) (outcome : Option ℕ) :
    (o.write data outcome).InOrder (total ++ data) ↔ o.Passes data outcome := by
  obtain ⟨rfl, hwaits⟩ := h
  unfold write
  split_ifs with hdata
  · subst hdata
    rw [List.append_nil]
    refine iff_of_true ⟨rfl, hwaits⟩ ?_
    cases outcome with
    | none => trivial
    | some n => exact .inl rfl
  · cases outcome with
    | none => exact iff_of_true ⟨by simp, fun _ => rfl⟩ trivial
    | some n =>
      have hsplit : data = data.take n ++ data.drop n := (List.take_append_drop n data).symm
      dsimp only
      split_ifs with hn
      · have horder : o.accepted ++ data.take n ++ (o.queue ++ [data.drop n]).flatten =
            o.accepted ++ o.queue.flatten ++ data ↔
              data.take n ++ o.queue.flatten = o.queue.flatten ++ data.take n := by
          conv_lhs => rhs; rw [hsplit]
          rw [List.flatten_append, List.flatten_singleton]
          simp only [← List.append_assoc, List.append_left_inj]
          simp only [List.append_assoc, List.append_right_inj]
        refine ⟨fun h => .inr ⟨horder.1 h.order, fun hle => absurd hn (by omega)⟩, fun h => ?_⟩
        exact ⟨horder.2 (h.resolve_left hdata).1, fun _ => rfl⟩
      · rw [Passes, List.take_of_length_le (by omega)]
        constructor
        · intro h
          have hqueue : o.queue = [] := by
            by_contra hq
            exact Bool.false_ne_true (h.waits hq)
          exact .inr ⟨by simp [hqueue], fun _ => hqueue⟩
        · intro h
          have hqueue : o.queue = [] := (h.resolve_left hdata).2 (by omega)
          exact ⟨by simp [hqueue], fun hq => absurd hqueue hq⟩

/-- When the socket is writable, the order is kept. -/
theorem InOrder.writable (h : o.InOrder total) (outcome : Option ℕ) :
    (o.writable outcome).InOrder total := by
  rw [Outbox.writable]
  split_ifs with hqueue
  · exact ⟨h.order, fun hq => absurd hqueue hq⟩
  · have hempty : InOrder o.accepted { o with queue := [] } := ⟨by simp, fun hq => absurd rfl hq⟩
    rw [← h.order]
    refine (inOrder_write_iff hempty _ _).2 ?_
    cases outcome with
    | none => trivial
    | some n => exact .inr ⟨by simp, fun _ => rfl⟩

end Outbox

/-! ## The methods -/

variable {O P E : Type} (c : Setup O P E) (env : Env)

/-- What the local socket has accepted. -/
def sentTo (sock : Sock) : List Effect → Bytes
  | [] => []
  | .send s data :: es => if s = sock then data ++ sentTo sock es else sentTo sock es
  | _ :: es => sentTo sock es

theorem sentTo_append (sock : Sock) (es es' : List Effect) :
    sentTo sock (es ++ es') = sentTo sock es ++ sentTo sock es' := by
  induction es with
  | nil => rfl
  | cons e es ih =>
    cases e with
    | send s data =>
      rw [List.cons_append, sentTo, sentTo, ih]
      split_ifs
      · rw [List.append_assoc]
      · rfl
    | _ => exact ih

/-- The local socket of a connection, with its queue. -/
def outbox (w : World O P E) : Outbox where
  accepted := sentTo .localSock w.self.log
  queue := w.self.dataToWriteToLocal
  status := w.self.downstreamStatus

/-- An outcome of `send` that is no failure: how much is accepted, or none for now. -/
def accepts : Except Errno ℕ → Option (Option ℕ)
  | .ok n => some (some n)
  | .error .again | .error .inProgress => some none
  | .error _ => none

/-- The local socket is open, and its outbox is this one. -/
structure HasOutbox (o : Outbox) (w : World O P E) : Prop where
  localSock : w.self.localSock = true
  outbox_eq : outbox w = o

theorem uncounted_hasOutbox (o : Outbox) : Uncounted (HasOutbox (O := O) (P := P) (E := E) o) :=
  fun _ _ h => ⟨h.1, h.2⟩

/-- What is left of the data is queued. -/
theorem afterSend_spec (o : Outbox) (data : Bytes) (uncomplete : Bool) :
    Triple (HasOutbox o) (afterSend env .localSock data uncomplete : Method O P E Unit)
      (fun _ => HasOutbox ⟨o.accepted, if uncomplete then o.queue ++ [data] else o.queue,
        if uncomplete then WAIT_STATUS_WRITING else WAIT_STATUS_READING⟩)
      fun _ => HasOutbox ⟨o.accepted, if uncomplete then o.queue ++ [data] else o.queue,
        if uncomplete then WAIT_STATUS_WRITING else WAIT_STATUS_READING⟩ := by
  have hstream (o : Outbox) (status : WaitStatus) :
      Triple (HasOutbox o) (updateStream env .down status : Method O P E Unit)
        (fun _ => HasOutbox { o with status }) fun _ => HasOutbox { o with status } :=
    (updateStream_spec (uncounted_hasOutbox _) env .down status).conseq
      (fun w hw => ⟨hw.1, by rw [← hw.2]; rfl⟩) (fun _ _ => id) fun _ _ => And.left
  cases uncomplete with
  | true =>
    refine Triple.bind (R := fun _ => HasOutbox ⟨o.accepted, o.queue ++ [data], o.status⟩)
      (fun w hw => ⟨hw.1, by rw [← hw.2]; rfl⟩) fun _ => hstream _ _
  | false => exact hstream _ _

/-- What a socket takes of the data that it is given. -/
def taken (data : Bytes) : Except Errno ℕ → Bytes
  | .ok n => data.take n
  | .error _ => []

/-- `_write_to_sock` writes to the outbox. -/
theorem writeToSock_spec {o : Outbox} {data : Bytes} {r : Except Errno ℕ} {outcome : Option ℕ}
    (hr : accepts r = some outcome) :
    Triple (fun w => HasOutbox o w ∧ env.send w.sends = r)
      (writeToSock c env data .localSock : Method O P E Unit)
      (fun _ => HasOutbox (o.write data outcome)) fun _ => HasOutbox (o.write data outcome) := by
  refine triple_self.bind fun h => ?_
  refine Triple.pre (Triple.intro_pre (p := h.localSock = true) fun hlocal => ?_)
    fun w hw => ⟨by rw [hw.2]; exact hw.1.1.1, hw.1⟩
  rw [hlocal]
  refine .ite (fun h => by simp at h) fun _ => .ite (fun h => by simp at h) fun _ => ?_
  refine Triple.bind (R := fun _ w => HasOutbox o w ∧ env.send w.sends = r)
    (fun w hw => ⟨⟨hw.1.1, hw.1.2⟩, hw.2⟩) fun _ => ?_
  unfold Outbox.write
  refine .ite (fun hdata => ?_) fun hdata => ?_
  · rw [if_pos hdata]
    exact .pure fun w hw => hw.1
  · rw [if_neg hdata]
    -- what `send` returns, and what it has accepted
    refine Triple.bind (R := fun r' w => r' = r ∧ HasOutbox
      { o with accepted := o.accepted ++ taken data r } w)
      (fun w hw => ?_) fun r' => Triple.intro_pre fun hr' => ?_
    · obtain ⟨⟨hlocal, rfl⟩, rfl⟩ := hw
      rw [send_eq]
      refine ⟨rfl, hlocal, ?_⟩
      cases env.send w.sends <;> simp [outbox, accepted, taken, sentTo_append, sentTo]
    · subst hr'
      cases r' with
      | ok n =>
        cases hr
        refine (afterSend_spec env _ _ _).conseq (fun _ => id) (fun _ w hw => ?_) fun _ w hw => ?_
        all_goals
          dsimp only
          by_cases hn : n < data.length
          · simpa [taken, hn] using hw
          · simpa [taken, hn, List.take_of_length_le (Nat.le_of_not_lt hn)] using hw
      | error e =>
        cases e with
        | again =>
          cases hr
          simpa [taken] using afterSend_spec env _ data true
        | inProgress =>
          cases hr
          simpa [taken] using afterSend_spec env _ data true
        | timedOut => cases hr
        | notConn => cases hr
        | other n => cases hr

/-- `_on_local_write` is the operation of a writable outbox. -/
theorem onLocalWrite_spec {o : Outbox} {r : Except Errno ℕ} {outcome : Option ℕ}
    (hr : accepts r = some outcome) :
    Triple (fun w => HasOutbox o w ∧ env.send w.sends = r) (onLocalWrite c env : Method O P E Unit)
      (fun _ => HasOutbox (o.writable outcome)) fun _ => HasOutbox (o.writable outcome) := by
  refine triple_self.bind fun h => ?_
  refine Triple.pre (Triple.intro_pre (p := h.dataToWriteToLocal = o.queue) fun hqueue => ?_)
    fun w hw => ⟨by rw [hw.2, ← hw.1.1.2]; rfl, hw.1⟩
  rw [hqueue, Outbox.writable]
  refine .ite (fun hq => ?_) fun hq => ?_
  · rw [if_neg hq]
    refine Triple.bind (R := fun _ w => HasOutbox { o with queue := [] } w ∧ env.send w.sends = r)
      (fun w hw => ⟨⟨hw.1.1, by rw [← hw.1.2]; rfl⟩, hw.2⟩) fun _ => writeToSock_spec c env hr
  · rw [if_pos (not_not.1 hq)]
    refine (updateStream_spec (uncounted_hasOutbox { o with status := WAIT_STATUS_READING }) env
      .down WAIT_STATUS_READING).conseq (fun w hw => ?_) (fun _ _ => id) fun _ _ => And.left
    exact ⟨hw.1.1, by rw [← hw.1.2]; rfl⟩

/-! ## Runs -/

/-- A call that writes to the local socket, from wherever it comes, or an event of the socket. -/
inductive Delivery
  | write (data : Bytes) (env : Env)
  | writable (env : Env)

/-- A call, with all data written before it; `send` accepts data, or none for now. -/
def deliver (s : World O P E × Bytes) : Delivery → Option (World O P E × Bytes)
  | .write data env => (accepts (env.send s.1.sends)).map fun _ =>
      (after (writeToSock c env data .localSock) s.1, s.2 ++ data)
  | .writable env => (accepts (env.send s.1.sends)).map fun _ => (after (onLocalWrite c env) s.1, s.2)

/-- The data written is accepted or queued in its order. -/
def InOrder (s : World O P E × Bytes) : Prop := (outbox s.1).InOrder s.2

/-- What is accepted of the data that is written commutes with what is queued. -/
def Passes (s : World O P E × Bytes) : Delivery → Prop
  | .write data env => ∀ outcome, accepts (env.send s.1.sends) = some outcome →
      (outbox s.1).Passes data outcome
  | .writable _ => True

variable {c} {s s' : World O P E × Bytes} {d : Delivery}

/-- The outbox after a call. -/
theorem deliver_spec (hlocal : s.1.self.localSock = true) (h : deliver c s d = some s') :
    s'.1.self.localSock = true ∧ match d with
      | .write data env => ∃ outcome, accepts (env.send s.1.sends) = some outcome ∧
          outbox s'.1 = (outbox s.1).write data outcome ∧ s'.2 = s.2 ++ data
      | .writable env => ∃ outcome, accepts (env.send s.1.sends) = some outcome ∧
          outbox s'.1 = (outbox s.1).writable outcome ∧ s'.2 = s.2 := by
  have hbox : HasOutbox (outbox s.1) s.1 := ⟨hlocal, rfl⟩
  cases d with
  | write data env =>
    obtain ⟨outcome, hr, rfl⟩ := Option.map_eq_some_iff.1 h
    obtain ⟨hlocal', hout⟩ := (writeToSock_spec c env hr).after ⟨hbox, rfl⟩
    exact ⟨hlocal', outcome, hr, hout, rfl⟩
  | writable env =>
    obtain ⟨outcome, hr, rfl⟩ := Option.map_eq_some_iff.1 h
    obtain ⟨hlocal', hout⟩ := (onLocalWrite_spec c env hr).after ⟨hbox, rfl⟩
    exact ⟨hlocal', outcome, hr, hout, rfl⟩

/-- A call keeps the order if and only if it passes. -/
theorem inOrder_deliver_iff (hlocal : s.1.self.localSock = true) (hs : InOrder s)
    (h : deliver c s d = some s') : InOrder s' ↔ Passes s d := by
  obtain ⟨-, hspec⟩ := deliver_spec hlocal h
  rw [InOrder] at hs
  cases d with
  | write data env =>
    obtain ⟨outcome, hr, hout, htotal⟩ := hspec
    rw [InOrder, hout, htotal, Outbox.inOrder_write_iff hs]
    refine ⟨fun hp outcome' hr' => ?_, fun hp => hp outcome hr⟩
    cases hr.symm.trans hr'
    exact hp
  | writable env =>
    obtain ⟨outcome, hr, hout, htotal⟩ := hspec
    rw [InOrder, hout, htotal]
    exact iff_of_true (hs.writable outcome) trivial

/-- The order is kept throughout a run if and only if every write passes. -/
theorem inOrder_iff (hlocal : s.1.self.localSock = true) (hs : InOrder s) (ds : List Delivery) :
    Run.Throughout (deliver c) (fun s d => ∀ s', deliver c s d = some s' → InOrder s') s ds ↔
      Run.Throughout (deliver c) Passes s ds := by
  refine Run.throughout_iff (I := fun s => s.1.self.localSock = true)
    (fun hI h => (deliver_spec hI h).1) (fun hI hP h => inOrder_deliver_iff hI hP h)
    (fun {s d} h => ?_) hlocal hs ds
  cases d with
  | write data env =>
    intro outcome hr
    rw [deliver, hr] at h
    cases h
  | writable env => trivial

/-- A new connection of a client. -/
def newClient : World Unit Unit Unit where
  self := { stage := .stream, obfs := some (), protocol := some (), encryptor := some () }
  server := {}
  me := 0

/-- The socket accepts one byte. -/
def oneByte : Env := { Env.idle with send := fun _ => .ok 1 }

theorem inOrder_iff_oneByte :
    Run.Throughout (deliver (.plain true))
      (fun s d => ∀ s', deliver (.plain true) s d = some s' → InOrder s') (newClient, [])
      [.write [1, 2] oneByte, .writable oneByte] := by
  refine (@inOrder_iff Unit Unit Unit (.plain true) (newClient, []) rfl
    ⟨rfl, fun h => absurd rfl h⟩ _).2 (.cons (fun outcome hr => ?_) fun s' _ =>
      .cons trivial fun s'' _ => Run.throughout_nil s'')
  cases hr
  exact .inr ⟨rfl, fun h => absurd h (by decide)⟩

/-- While a byte is queued, new data goes to the socket before it. -/
theorem not_inOrder : ¬∀ (s : World Unit Unit Unit × Bytes) (ds : List Delivery),
    s.1.self.localSock = true → InOrder s →
    Run.Throughout (deliver (.plain true))
      (fun s d => ∀ s', deliver (.plain true) s d = some s' → InOrder s') s ds := by
  intro h
  have hrun := h (newClient, []) [.write [1, 2] oneByte, .write [3] oneByte] rfl
    ⟨rfl, fun h => absurd rfl h⟩
  have horder := (hrun [.write [1, 2] oneByte] _ [] _ rfl rfl _ rfl).order
  exact absurd horder (by decide +kernel)

end TcpRelay

end ShadowsocksR

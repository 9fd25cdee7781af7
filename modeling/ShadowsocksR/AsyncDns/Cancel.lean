import ShadowsocksR.AsyncDns.Waiting

/-!
# Cancelling callbacks

After `remove_callback(callback)`, the callback should not be called for an
earlier `resolve` (`NeverCalled`), and every other waiting callback should still
be called once when its answer arrives (`OthersCalled`).

`resolve` registers in `_cb_to_hostname` only the first callback waiting for a
hostname: `remove_callback` does nothing for the ones after it.

* `called_of_answers`: a waiting callback that is not removed is called when
  the answer for its hostname has been handled;
* `removed_iff`: a removed callback is never called, exactly when it waited at
  most once, as the first for its hostname (`Cancellable`).
-/

namespace ShadowsocksR

namespace AsyncDns

namespace DNSResolver

variable {Cb : Type} [DecidableEq Cb] {env : Env} {s s' : DNSResolver Cb}

/-- The resolvers that calls, responses and timers can lead to. -/
def Reachable (env : Env) (s : DNSResolver Cb) : Prop := ∃ ls, Run.exec (step env) {} ls = some s

/-- The `resolve` calls whose callbacks have been called, the latest last. -/
def called (s : DNSResolver Cb) : List (Ticket Cb) := s.calls.map Call.ticket

/-- The resolver and its queues are in order. -/
def Ok (s : DNSResolver Cb) : Prop := s.Inv ∧ s.waiting.Sound

theorem Ok.step (hs : s.Ok) {l : Label Cb} (h : DNSResolver.step env s l = some s') : s'.Ok :=
  let ⟨hinv, _, hstep, _⟩ := step_refines hs.1 h
  ⟨hinv, hstep.sound hs.2⟩

theorem Ok.exec (hs : s.Ok) {ls : List (Label Cb)}
    (h : Run.exec (DNSResolver.step env) s ls = some s') :
    s'.Ok := Run.exec_invariant' (fun hP hstep => hP.step hstep) hs h

theorem Reachable.ok (hr : Reachable env s) : s.Ok := by
  obtain ⟨ls, hls⟩ := hr
  refine Ok.exec ⟨inv_init, ?_⟩ hls
  exact ⟨fun k t ht => (by cases ht), fun t ht => (by cases ht), List.nodup_nil,
    fun k => List.nodup_nil, fun k t ht => (by cases ht), fun k k' t ht => (by cases ht)⟩

theorem Reachable.exec (hr : Reachable env s) {ls : List (Label Cb)}
    (h : Run.exec (DNSResolver.step env) s ls = some s') : Reachable env s' := by
  obtain ⟨ls₀, hls₀⟩ := hr
  exact ⟨ls₀ ++ ls, Run.exec_append_eq_some.2 ⟨s, hls₀, h⟩⟩

end DNSResolver

end AsyncDns

end ShadowsocksR

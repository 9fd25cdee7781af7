import ShadowsocksR.AsyncDns.Resolver
import ShadowsocksR.Lib.Run

/-!
# The resolver as a system of queues

`_hostname_to_cb` holds one queue of callbacks for every hostname. A resolver
behaves as the system of queues `WaitQueues`: its steps are steps of that system
(`step_refines`), a `remove_callback` withdrawing at most the head of one queue.
The two dictionaries are inverse only there (`Inv.entry`): `_cb_to_hostname`
knows a hostname of a callback when the callback is the first to wait for it.
-/

namespace ShadowsocksR

namespace AsyncDns

namespace DNSResolver

variable {Cb : Type}

/-- The part of a list of callbacks that has not been called. -/
def remaining (answering : Option Answering) (hostname : Hostname) (ts : List (Ticket Cb)) :
    List (Ticket Cb) :=
  match answering with
  | some a => if a.hostname = hostname then ts.drop a.index else ts
  | none => ts

theorem waitersIn_set (d : Dict Hostname (List (Ticket Cb))) (h h' : Hostname)
    (ts : List (Ticket Cb)) :
    waitersIn (d.set h ts) h' = if h' = h then ts else waitersIn d h' := by
  rw [waitersIn, Dict.get?_set]
  split <;> rfl

theorem waitersIn_del (d : Dict Hostname (List (Ticket Cb))) (h h' : Hostname) :
    waitersIn (d.del h) h' = if h' = h then [] else waitersIn d h' := by
  rw [waitersIn, Dict.get?_del]
  split <;> rfl

theorem remaining_of_ne {answering : Option Answering} {h : Hostname}
    (hne : answering.map Answering.hostname ≠ some h) (ts : List (Ticket Cb)) :
    remaining answering h ts = ts := by
  cases answering with
  | none => rfl
  | some a => exact if_neg fun hh => hne (congrArg some hh)

theorem remaining_of_eq (a : Answering) (ts : List (Ticket Cb)) :
    remaining (some a) a.hostname ts = ts.drop a.index := if_pos rfl

variable [DecidableEq Cb] {env : Env} {s s' : DNSResolver Cb}

/-- The callbacks that wait for a hostname, without those called already. -/
def pending (s : DNSResolver Cb) (hostname : Hostname) : List (Ticket Cb) :=
  remaining s.answering hostname (s.waiters hostname)

/-- The resolver, as queues. -/
def waiting (s : DNSResolver Cb) : WaitQueues Hostname Cb where
  queue := s.pending
  served := s.calls.map Call.ticket
  serving := s.answering.map Answering.hostname
  issued := s.tickets

/-- What holds of every reachable resolver. -/
structure Inv (s : DNSResolver Cb) : Prop where
  /-- A callback is registered in `_cb_to_hostname` as the first one waiting for the hostname,
      none of whose callbacks is called. -/
  entry : ∀ c h, s.cbToHostname.get? c = some h →
    h ≠ [] ∧ s.answering.map Answering.hostname ≠ some h ∧
      ∃ t ts, s.waiters h = t :: ts ∧ t.client = c
  /-- No callback waits for the empty hostname. -/
  empty : s.waiters [] = []
  /-- The list whose callbacks are called is not emptied. -/
  answering : ∀ a, s.answering = some a → 0 < a.index ∧ a.index ≤ (s.waiters a.hostname).length

theorem inv_init : Inv ({} : DNSResolver Cb) :=
  ⟨fun _ _ h => (by cases h), rfl, fun _ h => (by cases h)⟩

/-! ## Calling the callbacks -/

/-- The loop of `_call_callback` is at this index. -/
def LoopAt (s : DNSResolver Cb) (hostname : Hostname) (ip : Option IP) (index : ℕ) : Prop :=
  (s.answering = none ∧ index = 0) ∨ s.answering = some ⟨hostname, ip, index⟩

variable {h : Hostname} {ip : Option IP} {index : ℕ}

theorem LoopAt.pending (hl : s.LoopAt h ip index) : s.pending h = (s.waiters h).drop index := by
  rw [DNSResolver.pending]
  rcases hl with ⟨ha, rfl⟩ | ha <;> rw [ha]
  · rfl
  · exact remaining_of_eq ⟨h, ip, index⟩ _

theorem LoopAt.serving (hl : s.LoopAt h ip index) :
    s.waiting.serving = none ∨ s.waiting.serving = some h := by
  rcases hl with ⟨ha, -⟩ | ha
  · exact .inl (by rw [waiting, ha]; rfl)
  · exact .inr (by rw [waiting, ha]; rfl)

theorem LoopAt.answering_ne (hl : s.LoopAt h ip index) {h' : Hostname} (hne : h' ≠ h) :
    s.answering.map Answering.hostname ≠ some h' := by
  rcases hl with ⟨ha, -⟩ | ha <;> rw [ha]
  · simp
  · exact fun hh => hne (Option.some.inj hh).symm

/-- A registered callback waits for another hostname, or comes next. -/
theorem LoopAt.entry (hl : s.LoopAt h ip index) (hi : s.Inv) {c : Cb} {h' : Hostname}
    (hc : s.cbToHostname.get? c = some h') :
    h' ≠ h ∨ ∃ t, (s.waiters h)[index]? = some t ∧ t.client = c := by
  by_cases hh : h' = h
  · subst hh
    obtain ⟨-, hne, t, ts, hts, htc⟩ := hi.entry c h' hc
    rcases hl with ⟨-, rfl⟩ | ha
    · exact .inr ⟨t, by rw [hts]; rfl, htc⟩
    · rw [ha] at hne
      exact absurd rfl hne
  · exact .inl hh

/-- A turn of the loop serves the next callback, or closes the queue. -/
theorem callNext_refines (ip : Option IP) (hi : s.Inv) (hl : s.LoopAt h ip index) :
    (s.callNext h ip index).Inv ∧ ∃ a, s.waiting.Step a (s.callNext h ip index).waiting ∧
      ((∃ t, a = .serve h t) ∨ a = .close h) := by
  cases hw : (s.waiters h)[index]? with
  | some t =>
    have hlt : index < (s.waiters h).length := (List.getElem?_eq_some_iff.1 hw).1
    have hdrop : s.pending h = t :: (s.waiters h).drop (index + 1) := by
      rw [hl.pending, List.drop_eq_getElem_cons hlt, (List.getElem?_eq_some_iff.1 hw).2]
    have hc : s.callNext h ip index =
        { s with
          cbToHostname := s.cbToHostname.del t.client
          answering := some ⟨h, ip, index + 1⟩
          calls := s.calls ++ [⟨t, some (h, ip),
            if ip.isSome then none else some (.unableToParse h)⟩] } := by
      rw [callNext, hw]
    rw [hc]
    refine ⟨⟨fun c h' hcb => ?_, hi.empty, fun a ha => ?_⟩, .serve h t, ?_, .inl ⟨t, rfl⟩⟩
    · simp only [Dict.get?_del] at hcb
      split at hcb
      · cases hcb
      · next hne =>
        obtain ⟨hnil, hans, t', ts, hts, htc⟩ := hi.entry c h' hcb
        refine ⟨hnil, fun hh => ?_, t', ts, hts, htc⟩
        rcases hl.entry hi hcb with hne' | ⟨t'', ht'', htc'⟩
        · exact hne' (Option.some.inj hh).symm
        · rw [hw] at ht''
          cases ht''
          exact hne htc'.symm
    · cases ha
      exact ⟨Nat.succ_pos _, hlt⟩
    · have hq : waiting
          { s with
            cbToHostname := s.cbToHostname.del t.client
            answering := some ⟨h, ip, index + 1⟩
            calls := s.calls ++ [⟨t, some (h, ip),
              if ip.isSome then none else some (.unableToParse h)⟩] } =
          { s.waiting with
            queue := Function.update s.waiting.queue h ((s.waiters h).drop (index + 1))
            served := s.waiting.served ++ [t]
            serving := some h } := by
        simp only [waiting, WaitQueues.mk.injEq, List.map_append, List.map_cons, List.map_nil,
          Option.map_some, and_self, and_true]
        refine Function.eq_update_iff.2 ⟨remaining_of_eq ⟨h, ip, index + 1⟩ _, fun h' hne => ?_⟩
        have hne' : (some (Answering.mk h ip (index + 1))).map Answering.hostname ≠ some h' :=
          fun hh => hne (Option.some.inj hh).symm
        exact (remaining_of_ne hne' _).trans (remaining_of_ne (hl.answering_ne hne) _).symm
      rw [hq]
      exact .serve hdrop hl.serving
  | none =>
    have hle : (s.waiters h).length ≤ index := List.getElem?_eq_none_iff.1 hw
    have hdrop : s.pending h = [] := by rw [hl.pending, List.drop_eq_nil_of_le hle]
    have hc : s.callNext h ip index =
        { s with
          hostnameToCb := s.hostnameToCb.del h
          hostnameStatus := s.hostnameStatus.del h
          answering := none } := by
      rw [callNext, hw]
    rw [hc]
    refine ⟨⟨fun c h' hcb => ?_, ?_, fun a ha => by cases ha⟩, .close h, ?_, .inr rfl⟩
    · obtain ⟨hnil, -, t, ts, hts, htc⟩ := hi.entry c h' hcb
      rcases hl.entry hi hcb with hne | ⟨t', ht', -⟩
      · exact ⟨hnil, by simp, t, ts, (waitersIn_del s.hostnameToCb h h').trans
        ((if_neg hne).trans hts), htc⟩
      · rw [hw] at ht'
        cases ht'
    · refine (waitersIn_del s.hostnameToCb h []).trans ?_
      split
      · rfl
      · exact hi.empty
    · have hq : waiting
          { s with
            hostnameToCb := s.hostnameToCb.del h
            hostnameStatus := s.hostnameStatus.del h
            answering := none } = { s.waiting with serving := none } := by
        simp only [waiting, WaitQueues.mk.injEq, Option.map_none, and_self, and_true]
        funext h'
        refine (waitersIn_del s.hostnameToCb h h').trans ?_
        split
        · next hh => rw [hh, hdrop]
        · next hne => exact (remaining_of_ne (hl.answering_ne hne) _).symm
      rw [hq]
      exact .close hdrop hl.serving

/-! ## The other operations -/

/-- A callback called by `resolve` itself never waits. -/
theorem callAtOnce_refines (hi : s.Inv) {t : Ticket Cb} (ht : t.number = s.tickets)
    (cache : LRUCache Hostname IP) (result : Option (Hostname × Option IP)) (error : Option Error) :
    (callAtOnce { s with tickets := s.tickets + 1, cache := cache } t result error).Inv ∧
      s.waiting.Step (.serveNow t)
        (callAtOnce { s with tickets := s.tickets + 1, cache := cache } t result
          error).waiting := by
  refine ⟨⟨hi.entry, hi.empty, hi.answering⟩, ?_⟩
  have hq :
      (callAtOnce { s with tickets := s.tickets + 1, cache := cache } t result error).waiting =
      { s.waiting with served := s.waiting.served ++ [t], issued := s.waiting.issued + 1 } := by
    simp only [waiting, callAtOnce, List.map_append, List.map_cons, List.map_nil,
      WaitQueues.mk.injEq, and_self, and_true]
    rfl
  rw [hq]
  exact .serveNow ht

/-- While its callbacks are called, a hostname has waiting ones. -/
theorem Inv.answering_ne_of_nil (hi : s.Inv) (hw : s.waiters h = []) :
    s.answering.map Answering.hostname ≠ some h := by
  intro hh
  obtain ⟨a, ha, rfl⟩ := Option.map_eq_some_iff.1 hh
  have := hi.answering a ha
  rw [hw, List.length_nil] at this
  omega

/-- Appending to the list of a hostname appends to its queue. -/
theorem waiting_append (hi : s.Inv) (t : Ticket Cb) :
    (fun h' => remaining s.answering h'
        (waitersIn (s.hostnameToCb.set h (s.waiters h ++ [t])) h')) =
      Function.update s.pending h (s.pending h ++ [t]) := by
  refine Function.eq_update_iff.2 ⟨?_, fun h' hne => ?_⟩
  · rw [waitersIn_set, if_pos rfl, pending]
    by_cases hh : s.answering.map Answering.hostname = some h
    · obtain ⟨a, ha, rfl⟩ := Option.map_eq_some_iff.1 hh
      rw [ha, remaining_of_eq, remaining_of_eq, List.drop_append_of_le_length (hi.answering a ha).2]
    · rw [remaining_of_ne hh, remaining_of_ne hh]
  · rw [waitersIn_set, if_neg hne]; rfl

/-- A callback joins the queue of the hostname, unless the query for the first one cannot be
    sent. -/
theorem resolveNetwork_refines (env : Env) (hi : s.Inv) (hne : h ≠ []) {t : Ticket Cb}
    (ht : t.number = s.tickets) (sendOk : Bool) :
    (resolveNetwork env { s with tickets := s.tickets + 1 } h t sendOk).Inv ∧
      ∃ a, s.waiting.Step a
        (resolveNetwork env { s with tickets := s.tickets + 1 } h t sendOk).waiting ∧
        (a = .wait h t ∨ a = .drop ∧ sendOk = false) := by
  have hset := waitersIn_set s.hostnameToCb h
  -- Whatever else changes, the callback has joined the queue.
  have hwait : ∀ s' : DNSResolver Cb, s'.hostnameToCb = s.hostnameToCb.set h (s.waiters h ++ [t]) →
      s'.calls = s.calls → s'.answering = s.answering → s'.tickets = s.tickets + 1 →
      s.waiting.Step (.wait h t) s'.waiting := by
    intro s' hd hc ha htk
    have hq : s'.waiting = { s.waiting with
        queue := Function.update s.waiting.queue h (s.waiting.queue h ++ [t])
        issued := s.waiting.issued + 1 } := by
      simp only [waiting, hc, ha, htk, WaitQueues.mk.injEq, and_self, and_true]
      refine Eq.trans (funext fun h' => ?_) (waiting_append hi t)
      rw [pending, waiters, hd, ha]
    rw [hq]
    exact .wait ht
  cases hw : s.waiters h with
  | nil =>
    cases sendOk with
    | false =>
      have hr : resolveNetwork env { s with tickets := s.tickets + 1 } h t false =
          { s with
            tickets := s.tickets + 1
            hostnameStatus := s.hostnameStatus.set h env.preferred } := by
        rw [resolveNetwork, show waiters { s with tickets := s.tickets + 1 } h = [] from hw]; rfl
      rw [hr]
      exact ⟨⟨hi.entry, hi.empty, hi.answering⟩, .drop, .drop, .inr ⟨rfl, rfl⟩⟩
    | true =>
      have hr : resolveNetwork env { s with tickets := s.tickets + 1 } h t true =
          { s with
            tickets := s.tickets + 1
            hostnameStatus := s.hostnameStatus.set h env.preferred
            sent := s.sent ++ [(h, env.preferred.qtype)]
            hostnameToCb := s.hostnameToCb.set h [t]
            cbToHostname := s.cbToHostname.set t.client h } := by
        rw [resolveNetwork, show waiters { s with tickets := s.tickets + 1 } h = [] from hw]; rfl
      rw [hr]
      refine ⟨⟨fun c h' hcb => ?_, (hset _ _).trans ((if_neg hne.symm).trans hi.empty),
        fun a ha => ?_⟩, .wait h t, hwait _ (by rw [hw]; rfl) rfl rfl rfl, .inl rfl⟩
      · simp only [Dict.get?_set] at hcb
        split at hcb
        · next hc =>
          cases hcb
          exact ⟨hne, hi.answering_ne_of_nil hw, t, [], (hset _ _).trans (if_pos rfl), hc.symm⟩
        · obtain ⟨hnil, hans, t', ts, hts, htc⟩ := hi.entry c h' hcb
          have hne' : h' ≠ h := fun hh => by rw [hh, hw] at hts; cases hts
          exact ⟨hnil, hans, t', ts, (hset _ _).trans ((if_neg hne').trans hts), htc⟩
      · have hne' : a.hostname ≠ h := fun hh =>
          hi.answering_ne_of_nil hw (by rw [show s.answering = some a from ha, ← hh]; rfl)
        have := hi.answering a ha
        rwa [waiters, ← (hset _ _).trans (if_neg hne')] at this
  | cons t₀ ts =>
    have hr : ∃ sent, resolveNetwork env { s with tickets := s.tickets + 1 } h t sendOk =
        { s with
          tickets := s.tickets + 1
          hostnameToCb := s.hostnameToCb.set h (t₀ :: ts ++ [t])
          sent := sent } := by
      rw [resolveNetwork, show waiters { s with tickets := s.tickets + 1 } h = t₀ :: ts from hw]
      cases sendOk <;> exact ⟨_, rfl⟩
    obtain ⟨sent, hr⟩ := hr
    rw [hr]
    refine ⟨⟨fun c h' hcb => ?_, (hset _ _).trans ((if_neg hne.symm).trans hi.empty),
      fun a ha => ?_⟩, .wait h t, hwait _ (by rw [hw]) rfl rfl rfl, .inl rfl⟩
    · obtain ⟨hnil, hans, t', ts', hts, htc⟩ := hi.entry c h' hcb
      refine ⟨hnil, hans, ?_⟩
      by_cases hh : h' = h
      · subst hh
        obtain ⟨rfl, -⟩ := List.cons.inj (hw.symm.trans hts)
        exact ⟨t₀, ts ++ [t], (hset _ _).trans (if_pos rfl), htc⟩
      · exact ⟨t', ts', (hset _ _).trans ((if_neg hh).trans hts), htc⟩
    · obtain ⟨hpos, hle⟩ := hi.answering a ha
      refine ⟨hpos, ?_⟩
      change _ ≤ (waitersIn _ _).length
      rw [hset]
      split
      · next hh =>
        rw [hh, hw] at hle
        simp only [List.length_append]
        omega
      · exact hle

/-- `remove_callback` succeeds. It withdraws the head of a queue, if the callback is registered. -/
theorem removeCallback_refines (hi : s.Inv) (c : Cb) :
    ∃ s', s.removeCallback c = some s' ∧ s'.Inv ∧
      ((s.cbToHostname.get? c = none ∧ s' = s) ∨
        ∃ h t, s.cbToHostname.get? c = some h ∧ t.client = c ∧
          s.waiting.Step (.withdraw h t) s'.waiting) := by
  cases hc : s.cbToHostname.get? c with
  | none => exact ⟨s, by rw [removeCallback, hc], hi, .inl ⟨rfl, rfl⟩⟩
  | some h =>
    obtain ⟨hnil, hans, t, ts, hts, htc⟩ := hi.entry c h hc
    have hpend : s.waiting.queue h = t :: ts := (remaining_of_ne hans _).trans hts
    have hset := waitersIn_set s.hostnameToCb h
    have hdel := waitersIn_del s.hostnameToCb h
    -- The list of the hostname has lost its head; the other fields that count are the same.
    have hmain : ∀ s' : DNSResolver Cb,
        (∀ h', s'.waiters h' = if h' = h then ts else s.waiters h') →
        s'.cbToHostname = s.cbToHostname.del c → s'.calls = s.calls →
        s'.answering = s.answering → s'.tickets = s.tickets →
        s'.Inv ∧ s.waiting.Step (.withdraw h t) s'.waiting := by
      intro s' hw hcb hcalls ha htk
      refine ⟨⟨fun c' h' hc' => ?_, (hw []).trans ((if_neg hnil.symm).trans hi.empty),
        fun a ha' => ?_⟩, ?_⟩
      · rw [hcb, Dict.get?_del] at hc'
        split at hc'
        · cases hc'
        · next hne =>
          obtain ⟨hnil', hans', t', ts', hts', htc'⟩ := hi.entry c' h' hc'
          have hne' : h' ≠ h := by
            rintro rfl
            rw [hts] at hts'
            cases hts'
            exact hne (htc'.symm.trans htc)
          exact ⟨hnil', ha ▸ hans', t', ts', (hw h').trans ((if_neg hne').trans hts'), htc'⟩
      · rw [ha] at ha'
        have hne' : a.hostname ≠ h := fun hh => hans (by rw [ha', ← hh]; rfl)
        rw [hw, if_neg hne']
        exact hi.answering a ha'
      · have hq : s'.waiting =
            { s.waiting with queue := Function.update s.waiting.queue h ts } := by
          simp only [waiting, hcalls, ha, htk, WaitQueues.mk.injEq, and_self, and_true]
          refine Function.eq_update_iff.2 ⟨?_, fun h' hne => ?_⟩
          · rw [pending, ha, remaining_of_ne hans, hw, if_pos rfl]
          · rw [pending, pending, ha, hw, if_neg hne]
        rw [hq]
        exact .withdraw hpend hans
    have hw : waiters { s with cbToHostname := s.cbToHostname.del c } h = t :: ts := hts
    have herase : (t :: ts).eraseP (fun t => t.client = c) = ts := by
      rw [List.eraseP_cons_of_pos (by simpa using htc)]
    rw [removeCallback, hc]
    simp only [if_neg hnil, hw, herase]
    rw [if_pos (by simp [htc])]
    split
    · next hts' =>
      obtain ⟨hinv, hstep⟩ := hmain
        { s with
          hostnameToCb := s.hostnameToCb.del h
          hostnameStatus := s.hostnameStatus.del h
          cbToHostname := s.cbToHostname.del c }
        (fun h' => by rw [hts']; exact hdel h') rfl rfl rfl rfl
      exact ⟨_, rfl, hinv, .inr ⟨h, t, rfl, htc, hstep⟩⟩
    · obtain ⟨hinv, hstep⟩ := hmain
        { s with
          hostnameToCb := s.hostnameToCb.set h ts
          cbToHostname := s.cbToHostname.del c }
        (fun h' => hset h' ts) rfl rfl rfl rfl
      exact ⟨_, rfl, hinv, .inr ⟨h, t, rfl, htc, hstep⟩⟩

/-- `resolve` calls the callback at once, or makes it wait, or fails. -/
theorem resolve_refines (env : Env) (hi : s.Inv) (now : Time) (c : Cb) (sendOk : Bool) :
    (s.resolve env now h c sendOk).Inv ∧
      ∃ a, s.waiting.Step a (s.resolve env now h c sendOk).waiting ∧
        (a = .serveNow ⟨c, s.tickets⟩ ∨ a = .wait h ⟨c, s.tickets⟩ ∨ a = .drop) := by
  have hcall := fun cache result error => callAtOnce_refines hi (t := ⟨c, s.tickets⟩) rfl cache
    result error
  have atOnce {s' : DNSResolver Cb} (hs : s'.Inv ∧
      s.waiting.Step (.serveNow ⟨c, s.tickets⟩) s'.waiting) : s'.Inv ∧
        ∃ a, s.waiting.Step a s'.waiting ∧
          (a = .serveNow ⟨c, s.tickets⟩ ∨ a = .wait h ⟨c, s.tickets⟩ ∨ a = .drop) :=
    hs.imp_right fun hs => ⟨_, hs, .inl rfl⟩
  rw [resolve]
  dsimp only
  split
  · exact atOnce (hcall s.cache _ _)
  · next hne =>
    split
    · exact atOnce (hcall s.cache _ _)
    · split
      · exact atOnce (hcall s.cache _ _)
      · split
        · exact atOnce (hcall _ _ _)
        · split
          · exact atOnce (hcall s.cache _ _)
          · obtain ⟨hinv, a, hstep, ha⟩ := resolveNetwork_refines env hi hne
              (t := ⟨c, s.tickets⟩) rfl sendOk
            exact ⟨hinv, a, hstep, .inr (ha.imp_right And.left)⟩

theorem resolve_of_asksNetwork (hn : s.AsksNetwork env h) (now : Time) (c : Cb) (sendOk : Bool) :
    s.resolve env now h c sendOk =
      resolveNetwork env { s with tickets := s.tickets + 1 } h ⟨c, s.tickets⟩ sendOk := by
  obtain ⟨hne, hip, hhosts, hcache, hvalid⟩ := hn
  simp only [resolve, if_neg hne, hip, hhosts, hvalid, Bool.false_eq_true, if_false,
    LRUCache.getItem_eq_none (LRUCache.contains_eq_false.1 hcache), Bool.not_true]

/-- The response makes the resolver call the callbacks of the hostname: it has an address, or
    there was no other address family to ask for. -/
def Answers (env : Env) (s : DNSResolver Cb) (response : DNSResponse) (h : Hostname) : Prop :=
  response.hostname = some h ∧ h ≠ [] ∧
    (DNSResponse.ip? response ≠ none ∨
      s.hostnameStatus.get? h = some env.fallback ∧
        ∃ question ∈ response.questions, question.qtype = env.fallback.qtype)

/-- The response makes the resolver ask for the other address family. -/
def FallsBack (env : Env) (s : DNSResolver Cb) (response : DNSResponse) (h : Hostname) : Prop :=
  response.hostname = some h ∧ h ≠ [] ∧ DNSResponse.ip? response = none ∧
    s.hostnameStatus.get? h = some env.preferred

variable {response : DNSResponse}

theorem handleData_of_answers (ha : Answers env s response h) (now : Time) (sendOk : Bool) :
    ∃ cache ip, s.handleData env now (some response) sendOk =
      callCallback { s with cache := cache } h ip := by
  obtain ⟨hh, hne, ha⟩ := ha
  simp only [handleData, hh, if_neg hne]
  rcases ha with hip | ⟨hst, hq⟩
  · obtain ⟨ip, hip⟩ := Option.ne_none_iff_exists'.1 hip
    exact ⟨_, _, by rw [hip, if_neg (by simp)]⟩
  · have hnot : ¬(DNSResponse.ip? response = none ∧
        (s.hostnameStatus.get? h).getD env.fallback = env.preferred) := by
      rw [hst]; exact fun hc => env.preferred_ne_fallback hc.2.symm
    rw [if_neg hnot]
    cases hip : DNSResponse.ip? response with
    | some ip => exact ⟨_, _, rfl⟩
    | none => exact ⟨s.cache, none, by simp only [hst, hq, and_self, if_true]⟩

theorem handleData_of_fallsBack (hf : FallsBack env s response h) (now : Time) (sendOk : Bool) :
    s.handleData env now (some response) sendOk =
      sendReq { s with hostnameStatus := s.hostnameStatus.set h env.fallback } sendOk h
        env.fallback.qtype := by
  obtain ⟨hh, hne, hip, hst⟩ := hf
  simp only [handleData, hh, if_neg hne, hip, hst, Option.getD_some, and_self, if_true]

/-- Any other response is ignored. -/
theorem handleData_of_ignored (ha : ∀ h, ¬Answers env s response h)
    (hf : ∀ h, ¬FallsBack env s response h) (now : Time) (sendOk : Bool) :
    s.handleData env now (some response) sendOk = s := by
  cases hh : response.hostname with
  | none => simp only [handleData, hh]
  | some h =>
    by_cases hne : h = []
    · simp only [handleData, hh, if_pos hne]
    · have hip : DNSResponse.ip? response = none := by
        by_contra hip
        exact ha h ⟨hh, hne, .inl hip⟩
      have hst : ¬(s.hostnameStatus.get? h).getD env.fallback = env.preferred := by
        intro hst
        cases hs : s.hostnameStatus.get? h with
        | none => rw [hs] at hst; exact env.preferred_ne_fallback hst.symm
        | some st => rw [hs] at hst; exact hf h ⟨hh, hne, hip, by rw [hs]; exact congrArg some hst⟩
      have hnot : ¬(s.hostnameStatus.get? h = some env.fallback ∧
          ∃ question ∈ response.questions, question.qtype = env.fallback.qtype) :=
        fun hq => ha h ⟨hh, hne, .inr hq⟩
      simp only [handleData, hh, if_neg hne, hip, hst, and_false, if_false, if_neg hnot]

/-- A response serves the first callback of one hostname, or changes no queue. -/
theorem handleData_refines (env : Env) (hi : s.Inv) (hidle : s.Idle) (now : Time)
    (response : Option DNSResponse) (sendOk : Bool) :
    (s.handleData env now response sendOk).Inv ∧
      ∃ a, s.waiting.Step a (s.handleData env now response sendOk).waiting ∧
        (a = .keep ∨ ∃ h, (∃ t, a = .serve h t) ∨ a = .close h) := by
  cases response with
  | none => exact ⟨hi, .keep, .keep, .inl rfl⟩
  | some response =>
    by_cases ha : ∃ h, Answers env s response h
    · obtain ⟨h, ha⟩ := ha
      obtain ⟨cache, ip, hr⟩ := handleData_of_answers ha now sendOk
      have hi' : Inv { s with cache := cache } := ⟨hi.entry, hi.empty, hi.answering⟩
      obtain ⟨hinv, a, hstep, ha⟩ := callNext_refines (h := h) ip hi' (.inl ⟨hidle.1, rfl⟩)
      rw [hr]
      exact ⟨hinv, a, hstep, .inr ⟨h, ha⟩⟩
    · by_cases hf : ∃ h, FallsBack env s response h
      · obtain ⟨h, hf⟩ := hf
        rw [handleData_of_fallsBack hf]
        refine ⟨?_, .keep, ?_, .inl rfl⟩ <;> cases sendOk
        · exact ⟨hi.entry, hi.empty, hi.answering⟩
        · exact ⟨hi.entry, hi.empty, hi.answering⟩
        · exact .keep
        · exact .keep
      · rw [handleData_of_ignored (not_exists.1 ha) (not_exists.1 hf)]
        exact ⟨hi, .keep, .keep, .inl rfl⟩

/-! ## Refinement -/

/-- Every step of the resolver is a step of the queues, and only `remove_callback` withdraws a
    callback. -/
theorem step_refines (hi : s.Inv) {l : Label Cb} (hs : step env s l = some s') :
    s'.Inv ∧ ∃ a, s.waiting.Step a s'.waiting ∧
      ∀ k t, a = .withdraw k t → l = .removeCallback t.client := by
  cases l with
  | resolve now h c sendOk =>
    cases hs
    obtain ⟨hinv, a, hstep, ha⟩ := resolve_refines env (h := h) hi now c sendOk
    exact ⟨hinv, a, hstep, by rintro k t rfl; simp at ha⟩
  | removeCallback c =>
    obtain ⟨s₁, hs₁, hinv, ha⟩ := removeCallback_refines hi c
    rw [step, hs₁] at hs
    cases hs
    rcases ha with ⟨-, rfl⟩ | ⟨h, t, -, htc, hstep⟩
    · exact ⟨hinv, .keep, .keep, by rintro k t ⟨⟩⟩
    · exact ⟨hinv, _, hstep, by rintro k t' ⟨⟩; rw [htc]⟩
  | response now response sendOk =>
    rw [step] at hs
    split at hs <;> cases hs
    next hidle =>
    obtain ⟨hinv, a, hstep, ha⟩ := handleData_refines env hi hidle now response sendOk
    exact ⟨hinv, a, hstep, by rintro k t rfl; simp at ha⟩
  | periodic now =>
    rw [step] at hs
    split at hs <;> cases hs
    exact ⟨⟨hi.entry, hi.empty, hi.answering⟩, .keep, .keep, by rintro k t ⟨⟩⟩
  | ret =>
    rw [step] at hs
    split at hs <;> cases hs
    · exact ⟨⟨hi.entry, hi.empty, hi.answering⟩, .keep, .keep, by rintro k t ⟨⟩⟩
    · next a _ ha =>
      obtain ⟨hinv, act, hstep, hact⟩ := callNext_refines _ hi (.inr ha)
      refine ⟨hinv, act, hstep, ?_⟩
      rintro k t rfl
      simp at hact

end DNSResolver

end AsyncDns

end ShadowsocksR

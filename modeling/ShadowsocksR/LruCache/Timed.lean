import ShadowsocksR.LruCache.Items
import ShadowsocksR.Lib.Run

/-!
# The LRU cache over time

The cache under every sequence of operations, at times that do not decrease.
The close callback of `sweep` may test and delete keys of the cache, as
`TCPRelay.remove_handler` does with the key of the handler that is closed.

* `sweepClose`, `clear`: the loops that close values;
* `sweepClose_spec`: `sweep` closes the first of the items idle for more than the
  timeout, but for those that its callbacks delete;
* `clear_spec`: `clear` closes all but the last items;
* `timed_store`: the cache after a run.
-/

namespace ShadowsocksR

namespace LRUCache

variable {κ α : Type} [DecidableEq κ]

/-! ## The loops -/

/-- The keys that a close callback tests, and deletes if they are there, for a value. -/
abbrev CloseCallback (κ α : Type) [DecidableEq κ] := α → LRUCache κ α → List κ

/-- `if key in self: del self[key]` -/
def discard (c : LRUCache κ α) (key : κ) : LRUCache κ α := (c.delItem key).getD c

/-- `self.close_callback(value)` -/
def closeCallback (close : CloseCallback κ α) (value : α) (c : LRUCache κ α) : LRUCache κ α :=
  (close value c).foldl discard c

/-- The loop of `sweep`, with the values that are closed. -/
def sweepClose (close : CloseCallback κ α) (now : Time) : ℕ → LRUCache κ α →
    List α × LRUCache κ α
  | 0, c => ([], c)
  | cnt + 1, c =>
    match c.first? with
    | none => ([], c)
    | some key =>
      match c.keysToLastTime.get? key, c.value? key, c.delItem key with
      | some lastT, some value, some c' =>
        if now - lastT ≤ c.timeout then ([], c)
        else
          let (closed, c'') := sweepClose close now cnt (closeCallback close value c')
          (value :: closed, c'')
      | _, _, _ => ([], c)

/-- The loop of `clear`, which closes a value before it deletes the key, and then raises a
    `KeyError` if the callback has deleted it. -/
def clearLoop (close : CloseCallback κ α) (keep : ℕ) : ℕ → LRUCache κ α →
    Except PyExc (List α × LRUCache κ α)
  | 0, c => .ok ([], c)
  | cnt + 1, c =>
    if c.len > keep then
      match c.first? with
      | none => .ok ([], c)
      | some key =>
        match c.value? key with
        | none => .error .keyError
        | some value =>
          match (closeCallback close value c).delItem key with
          | none => .error .keyError
          | some c' => do
            let (closed, c'') ← clearLoop close keep cnt c'
            .ok (value :: closed, c'')
    else .ok ([], c)

/-- `clear`; every turn of its loop deletes a key. -/
def clear (close : CloseCallback κ α) (c : LRUCache κ α) (keep : ℕ) :
    Except PyExc (List α × LRUCache κ α) := clearLoop close keep c.len c

/-- `sweep` of at most `cnt` items: whether less than `SWEEP_MAX_ITEMS` have been swept. -/
def sweepCall (close : CloseCallback κ α) (now : Time) (cnt : ℕ) (c : LRUCache κ α) :
    Bool × LRUCache κ α :=
  let (closed, c') := sweepClose close now cnt c
  (closed.length < 1024, c')

/-- `sweep` without a close callback. -/
theorem sweepLoop_eq (now : Time) (cnt : ℕ) (c : LRUCache κ α) :
    sweepLoop now cnt c = (sweepClose (fun _ _ => []) now cnt c).2 := by
  induction cnt generalizing c with
  | zero => rfl
  | succ cnt ih =>
    rw [sweepLoop, sweepClose]
    cases c.first? with
    | none => rfl
    | some key =>
      dsimp only
      cases hv : c.value? key with
      | none =>
        have hdel : c.delItem key = none := if_neg (by rw [contains_eq_false.2 hv]; decide)
        rw [hdel]
        cases c.keysToLastTime.get? key <;> rfl
      | some v =>
        cases c.keysToLastTime.get? key with
        | none => rfl
        | some lastT =>
          cases c.delItem key with
          | none => rfl
          | some c' =>
            dsimp only
            split
            · rfl
            · exact ih c'

variable {c : LRUCache κ α}

/-! ## Closing -/

theorem items_discard (k : κ) : (c.discard k).items = c.items.filter fun e => e.key ≠ k := by
  rw [discard]
  cases h : c.delItem k with
  | some c' => exact items_delItem h
  | none =>
    refine (List.filter_eq_self.2 fun e he => ?_).symm
    have hmem : c.contains e.key = true := exists_mem_items.1 ⟨e, he, rfl⟩
    refine decide_eq_true fun hk => ?_
    obtain ⟨c', hc', -⟩ := delItem_of_contains (hk ▸ hmem)
    cases h.symm.trans hc'

theorem timeout_discard (k : κ) : (c.discard k).timeout = c.timeout := by
  rw [discard]
  cases h : c.delItem k with
  | some c' => exact timeout_delItem h
  | none => rfl

/-- Deleting those of some keys that are there. -/
theorem foldl_discard (ks : List κ) (c : LRUCache κ α) :
    (ks.foldl discard c).items = c.items.filter (fun e => e.key ∉ ks) ∧
      (ks.foldl discard c).timeout = c.timeout := by
  induction ks generalizing c with
  | nil => exact ⟨(List.filter_eq_self.2 fun _ _ => by simp).symm, rfl⟩
  | cons k ks ih =>
    obtain ⟨hitems, htimeout⟩ := ih (c.discard k)
    refine ⟨?_, htimeout.trans (timeout_discard k)⟩
    rw [List.foldl_cons, hitems, items_discard, List.filter_filter]
    exact List.filter_congr fun e _ => by simp [Bool.and_comm]

/-- The first item. -/
theorem first_cases (c : LRUCache κ α) : c.items = [] ∧ c.first? = none ∨
    ∃ e rest c', c.items = e :: rest ∧ c.first? = some e.key ∧
      c.keysToLastTime.get? e.key = some e.lastTime ∧ c.value? e.key = some e.value ∧
      c.delItem e.key = some c' ∧ c'.items = rest := by
  have hfirst := first?_eq_map c
  cases hitems : c.items with
  | nil => exact .inl ⟨rfl, by rw [hfirst, hitems]; rfl⟩
  | cons e rest =>
    have hmem : e ∈ c.items := by rw [hitems]; exact List.mem_cons_self
    obtain ⟨hv, ht⟩ := mem_items.1 hmem
    obtain ⟨c', hc', -⟩ := delItem_of_contains (contains_of_value? hv)
    refine .inr ⟨e, rest, c', rfl, by rw [hfirst, hitems]; rfl, ht, hv, hc', ?_⟩
    have hnodup := c.nodup_order
    rw [← map_key_items, hitems, List.map_cons, List.nodup_cons] at hnodup
    rw [items_delItem hc', hitems, List.filter_cons_of_neg (by simp)]
    exact List.filter_eq_self.2 fun e' he' => decide_eq_true fun hk =>
      hnodup.1 (hk ▸ List.mem_map_of_mem he')

/-! ## Sweeping -/

/-- The item is idle for more than the timeout. -/
def Idle (c : LRUCache κ α) (now : Time) (e : Item κ α) : Prop := c.timeout < now - e.lastTime

instance (c : LRUCache κ α) (now : Time) (e : Item κ α) : Decidable (c.Idle now e) :=
  inferInstanceAs (Decidable (_ < _))

/-- The items that are idle. -/
def idle (c : LRUCache κ α) (now : Time) : List (Item κ α) := c.items.filter fun e => c.Idle now e

/-- The idle items come first. -/
theorem Sorted.idle_eq_nil (h : c.Sorted) {now : Time} {e : Item κ α} {rest : List (Item κ α)}
    (hitems : c.items = e :: rest) (he : ¬c.Idle now e) : c.idle now = [] := by
  rw [Sorted, hitems, List.pairwise_cons] at h
  rw [idle, List.filter_eq_nil_iff, hitems]
  rintro e' he' hidle
  rcases List.mem_cons.1 he' with rfl | he'
  · exact he (of_decide_eq_true hidle)
  · have hle := h.1 e' he'
    have hlt : c.timeout < now - e'.lastTime := of_decide_eq_true hidle
    exact he (show c.timeout < now - e.lastTime by linarith)

theorem Sorted.filter (h : c.Sorted) {c' : LRUCache κ α} {p : Item κ α → Bool}
    (hitems : c'.items = c.items.filter p) : c'.Sorted := by
  rw [Sorted, hitems]
  exact h.sublist List.filter_sublist

/-- What a sweep of at most `n` items does: the items that it closes, and the keys of the others
    that its callbacks delete. -/
structure Sweeps (close : CloseCallback κ α) (now : Time) (n : ℕ) (c : LRUCache κ α)
    (items : List (Item κ α)) (deleted : List κ) (r : List α × LRUCache κ α) : Prop where
  items_eq : items = ((c.idle now).filter fun e => e.key ∉ deleted).take n
  closed_eq : r.1 = items.map Item.value
  left_eq : r.2.items = c.items.filter fun e => e.key ∉ items.map Item.key ∧ e.key ∉ deleted
  timeout_eq : r.2.timeout = c.timeout
  mem_deleted : ∀ k ∈ deleted, (∃ e ∈ c.items, e.key = k) ∧
    ∃ e ∈ items, ∃ c', k ∈ close e.value c'

/-- A sweep that closes nothing. -/
theorem sweeps_none {close : CloseCallback κ α} {now : Time} {n : ℕ}
    (h : n = 0 ∨ c.idle now = []) : Sweeps close now n c [] [] ([], c) where
  items_eq := by rcases h with rfl | h <;> simp [*]
  closed_eq := rfl
  left_eq := (List.filter_eq_self.2 fun _ _ => by simp).symm
  timeout_eq := rfl
  mem_deleted := fun _ h => absurd h List.not_mem_nil

/-- Closing the first item, then the items of another sweep. -/
theorem Sweeps.cons {close : CloseCallback κ α} {now : Time} {n : ℕ} {e : Item κ α}
    {rest items : List (Item κ α)} {ks deleted : List κ} {c' : LRUCache κ α}
    {r : List α × LRUCache κ α} (hitems : c.items = e :: rest) (he : c.Idle now e)
    (hks : ∃ c'', close e.value c'' = ks) (hc' : c'.items = rest.filter fun e' => e'.key ∉ ks)
    (htimeout : c'.timeout = c.timeout) (h : Sweeps close now n c' items deleted r) :
    Sweeps close now (n + 1) c (e :: items)
      (ks.filter (fun k => k ∈ rest.map Item.key) ++ deleted) (e.value :: r.1, r.2) := by
  have hnodup := c.nodup_order
  rw [← map_key_items, hitems, List.map_cons, List.nodup_cons] at hnodup
  have hne : ∀ e' ∈ rest, e'.key ≠ e.key := fun e' he' hk =>
    hnodup.1 (hk ▸ List.mem_map_of_mem he')
  have hmem : ∀ k ∈ deleted, ∃ e' ∈ rest, e'.key = k := fun k hk => by
    obtain ⟨e', he', rfl⟩ := (h.mem_deleted k hk).1
    rw [hc'] at he'
    exact ⟨e', (List.mem_filter.1 he').1, rfl⟩
  have hdeleted : e.key ∉ ks.filter (fun k => k ∈ rest.map Item.key) ++ deleted := by
    rw [List.mem_append, List.mem_filter]
    rintro (⟨-, hk⟩ | hk)
    · exact hnodup.1 (of_decide_eq_true hk)
    · obtain ⟨e', he', hk⟩ := hmem _ hk
      exact hne e' he' hk
  have hiff : ∀ e' ∈ rest, e'.key ∈ ks.filter (fun k => k ∈ rest.map Item.key) ++ deleted ↔
      e'.key ∈ ks ∨ e'.key ∈ deleted := fun e' he' => by
    rw [List.mem_append, List.mem_filter, and_iff_left
      (decide_eq_true (List.mem_map_of_mem he'))]
  have hidle : c'.idle now = (rest.filter fun e' => c.Idle now e').filter
      fun e' => e'.key ∉ ks := by
    rw [idle, hc', List.filter_filter, List.filter_filter]
    refine List.filter_congr fun e' _ => ?_
    rw [Bool.and_comm]
    exact congrArg _ (decide_eq_decide.2 (by rw [Idle, Idle, htimeout]))
  refine ⟨?_, ?_, ?_, h.timeout_eq.trans htimeout, ?_⟩
  · rw [idle, hitems, List.filter_cons_of_pos (by exact decide_eq_true he),
      List.filter_cons_of_pos (by exact decide_eq_true hdeleted), List.take_succ_cons, h.items_eq,
      hidle, List.filter_filter]
    refine congrArg (fun l => e :: List.take n l) (List.filter_congr fun e' he' => ?_)
    simp only [hiff e' (List.mem_filter.1 he').1, not_or, Bool.decide_and, Bool.and_comm]
  · rw [List.map_cons, h.closed_eq]
  · rw [h.left_eq, hc', hitems, List.filter_cons_of_neg (by simp), List.filter_filter]
    refine List.filter_congr fun e' he' => ?_
    have hne' := hne e' he'
    simp only [hiff e' he', List.map_cons, List.mem_cons, not_or, ← Bool.decide_and]
    exact decide_eq_decide.2 ⟨fun h => ⟨⟨hne', h.1.1⟩, h.2, h.1.2⟩,
      fun h => ⟨⟨h.1.2, h.2.2⟩, h.2.1⟩⟩
  · intro k hk
    rw [List.mem_append, List.mem_filter] at hk
    rcases hk with ⟨hk, hrest⟩ | hk
    · obtain ⟨e', he', rfl⟩ := List.mem_map.1 (of_decide_eq_true hrest)
      obtain ⟨c'', rfl⟩ := hks
      exact ⟨⟨e', by rw [hitems]; exact List.mem_cons_of_mem _ he', rfl⟩,
        e, List.mem_cons_self, c'', hk⟩
    · obtain ⟨e', he', rfl⟩ := hmem k hk
      obtain ⟨-, e'', he'', c'', hk'⟩ := h.mem_deleted _ hk
      exact ⟨⟨e', by rw [hitems]; exact List.mem_cons_of_mem _ he', rfl⟩,
        e'', List.mem_cons_of_mem _ he'', c'', hk'⟩

theorem sweepClose_spec (hc : c.Sorted) (close : CloseCallback κ α) (now : Time) (n : ℕ) :
    ∃ items deleted, Sweeps close now n c items deleted (sweepClose close now n c) := by
  induction n generalizing c with
  | zero => exact ⟨[], [], sweeps_none (.inl rfl)⟩
  | succ n ih =>
    rw [sweepClose]
    rcases first_cases c with ⟨hitems, hfirst⟩ | ⟨e, rest, c', hitems, hfirst, ht, hv, hdel, hrest⟩
    · rw [hfirst]
      exact ⟨[], [], sweeps_none (.inr (by rw [idle, hitems]; rfl))⟩
    · rw [hfirst]
      dsimp only
      rw [ht, hv, hdel]
      dsimp only
      by_cases he : c.Idle now e
      · rw [if_neg (not_le.2 he)]
        obtain ⟨hitems', htimeout'⟩ := foldl_discard (close e.value c') c'
        rw [hrest] at hitems'
        have hsorted : (closeCallback close e.value c').Sorted := by
          have hc'' := hc
          rw [Sorted, hitems, List.pairwise_cons] at hc''
          rw [Sorted, closeCallback, hitems']
          exact hc''.2.sublist List.filter_sublist
        obtain ⟨items, deleted, h⟩ := ih hsorted
        exact ⟨_, _, .cons hitems he ⟨c', rfl⟩ hitems' (htimeout'.trans (timeout_delItem hdel)) h⟩
      · rw [if_pos (not_lt.1 he)]
        exact ⟨[], [], sweeps_none (.inr (hc.idle_eq_nil hitems he))⟩

/-- Callbacks that delete no key but that of the value, as `TCPRelay.remove_handler`. -/
def OwnKey (close : CloseCallback κ α) (c : LRUCache κ α) : Prop :=
  ∀ e ∈ c.items, ∀ c', ∀ k ∈ close e.value c', k = e.key

theorem Sweeps.deleted_eq_nil {close : CloseCallback κ α} {now : Time} {n : ℕ}
    {items : List (Item κ α)} {deleted : List κ} {r : List α × LRUCache κ α}
    (h : Sweeps close now n c items deleted r) (hclose : OwnKey close c) : deleted = [] := by
  refine List.eq_nil_iff_forall_not_mem.2 fun k hk => ?_
  obtain ⟨-, e, he, c', hk'⟩ := h.mem_deleted k hk
  rw [h.items_eq] at he
  obtain ⟨he, hnot⟩ := List.mem_filter.1 (List.mem_of_mem_take he)
  obtain rfl := hclose e (List.mem_filter.1 he).1 c' k hk'
  exact of_decide_eq_true hnot hk

/-- A sweep whose callbacks delete no other items. -/
theorem Sorted.sweep_own (h : c.Sorted) {close : CloseCallback κ α} (now : Time) (n : ℕ)
    (hclose : OwnKey close c) :
    (sweepClose close now n c).1 = ((c.idle now).take n).map Item.value ∧
      (sweepClose close now n c).2.items =
        c.items.filter fun e => e.key ∉ ((c.idle now).take n).map Item.key := by
  obtain ⟨items, deleted, hsweeps⟩ := sweepClose_spec h close now n
  obtain rfl := hsweeps.deleted_eq_nil hclose
  have hitems : items = (c.idle now).take n := by
    rw [hsweeps.items_eq, List.filter_eq_self.2 fun _ _ => by simp]
  rw [hsweeps.closed_eq, hsweeps.left_eq, hitems]
  exact ⟨rfl, List.filter_congr fun e _ => by simp⟩

/-- A sweep without a close callback, of at most `SWEEP_MAX_ITEMS`. -/
theorem Sorted.items_sweep (h : c.Sorted) (now : Time) : (c.sweep now).items =
    c.items.filter fun e => e.key ∉ ((c.idle now).take 1024).map Item.key := by
  rw [sweep, sweepLoop_eq]
  exact (h.sweep_own now 1024 fun _ _ _ k hk => absurd hk List.not_mem_nil).2

/-- It keeps the values of the keys that are not swept. -/
theorem Sorted.value?_sweep (h : c.Sorted) {now : Time} {k : κ} {v : α} (hv : c.value? k = some v)
    (hk : k ∉ ((c.idle now).take 1024).map Item.key) : (c.sweep now).value? k = some v := by
  obtain ⟨e, he, rfl⟩ := exists_mem_items.2 (contains_of_value? hv)
  obtain rfl : e.value = v := Option.some_inj.1 ((mem_items.1 he).1.symm.trans hv)
  have hmem : e ∈ (c.sweep now).items := by
    rw [h.items_sweep]
    exact List.mem_filter.2 ⟨he, decide_eq_true hk⟩
  exact (mem_items.1 hmem).1

/-! ## Clearing -/

/-- With callbacks that leave the cache alone, all but the last items are closed. -/
theorem clear_spec (c : LRUCache κ α) (keep : ℕ) : ∃ closed c',
    clear (fun _ _ => []) c keep = .ok (closed, c') ∧
      closed = (c.items.take (c.len - keep)).map Item.value ∧
      c'.items = c.items.drop (c.len - keep) ∧ c'.timeout = c.timeout := by
  rw [clear]
  generalize hcnt : c.len = cnt
  induction cnt generalizing c with
  | zero =>
    refine ⟨[], c, rfl, ?_, ?_, rfl⟩ <;> simp
  | succ cnt ih =>
    rw [clearLoop]
    by_cases hkeep : c.len > keep
    · rw [if_pos hkeep]
      rcases first_cases c with ⟨hitems, -⟩ | ⟨e, rest, c', hitems, hfirst, -, hv, hdel, hrest⟩
      · rw [← length_items, hitems] at hcnt
        cases hcnt
      · have hlen : c'.len = cnt := by
          rw [← length_items, hitems] at hcnt
          rw [← length_items, hrest]
          exact Nat.succ.inj hcnt
        obtain ⟨closed, c'', hclear, hclosed, hitems'', htimeout⟩ := ih c' hlen
        have hsub : cnt + 1 - keep = (cnt - keep) + 1 := by omega
        rw [hfirst]
        dsimp only
        rw [hv]
        dsimp only
        rw [closeCallback, List.foldl_nil, hdel]
        refine ⟨e.value :: closed, c'', ?_, ?_, ?_, htimeout.trans (timeout_delItem hdel)⟩
        · simp only [hclear, bind, Except.bind]
        · rw [hsub, hitems, List.take_succ_cons, List.map_cons, hclosed, hrest]
        · rw [hsub, hitems, List.drop_succ_cons, hitems'', hrest]
    · rw [if_neg hkeep]
      have hzero : cnt + 1 - keep = 0 := by omega
      refine ⟨[], c, rfl, ?_, ?_, rfl⟩ <;> rw [hzero] <;> rfl

/-- A callback that deletes the key of the value, as `TCPRelay.remove_handler` does, makes `clear`
    raise a `KeyError`, where `sweep` goes on. -/
theorem clear_keyError {close : CloseCallback κ α} {e : Item κ α} {rest : List (Item κ α)}
    (hitems : c.items = e :: rest) (hclose : e.key ∈ close e.value c) {keep : ℕ}
    (hkeep : keep < c.len) : clear close c keep = .error .keyError := by
  obtain ⟨n, hn⟩ := Nat.exists_eq_succ_of_ne_zero (Nat.ne_zero_of_lt hkeep)
  rcases first_cases c with ⟨hnil, -⟩ | ⟨e', rest', c', hitems', hfirst, -, hv, -⟩
  · rw [hitems] at hnil
    cases hnil
  · cases hitems.symm.trans hitems'
    have hdel : (closeCallback close e.value c).delItem e.key = none := by
      refine if_neg fun hmem => ?_
      obtain ⟨e', he', hk⟩ := exists_mem_items.2 hmem
      rw [closeCallback, (foldl_discard _ _).1, List.mem_filter] at he'
      exact of_decide_eq_true he'.2 (hk ▸ hclose)
    rw [clear, hn, clearLoop, if_pos hkeep, hfirst]
    dsimp only
    rw [hv]
    dsimp only
    rw [hdel]

/-! ## Times -/

/-- The items are in the order of their times, none of which is later than `t`. -/
def SortedUpTo (c : LRUCache κ α) (t : Time) : Prop :=
  c.Sorted ∧ ∀ e ∈ c.items, e.lastTime ≤ t

theorem SortedUpTo.mono {t t' : Time} (h : c.SortedUpTo t) (ht : t ≤ t') : c.SortedUpTo t' :=
  ⟨h.1, fun e he => (h.2 e he).trans ht⟩

theorem SortedUpTo.sublist {t : Time} (h : c.SortedUpTo t) {c' : LRUCache κ α}
    (hitems : c'.items.Sublist c.items) : c'.SortedUpTo t :=
  ⟨h.1.sublist hitems, fun e he => h.2 e (hitems.subset he)⟩

/-- Using a key at a time. -/
theorem SortedUpTo.append {t : Time} (h : c.SortedUpTo t) {c' : LRUCache κ α} {key : κ} {value : α}
    (hitems : c'.items = (c.items.filter fun e => e.key ≠ key) ++ [⟨key, value, t⟩]) :
    c'.SortedUpTo t := by
  have hold : ∀ e ∈ c.items.filter (fun e => e.key ≠ key), e.lastTime ≤ t := fun e he =>
    h.2 e (List.mem_filter.1 he).1
  refine ⟨?_, fun e he => ?_⟩
  · rw [Sorted, hitems, List.pairwise_append]
    refine ⟨h.1.sublist List.filter_sublist, List.pairwise_singleton _ _, fun e he e' he' => ?_⟩
    obtain rfl := List.mem_singleton.1 he'
    exact hold e he
  · rw [hitems, List.mem_append, List.mem_singleton] at he
    rcases he with he | rfl
    · exact hold e he
    · exact le_rfl

theorem SortedUpTo.get {t : Time} (h : c.SortedUpTo t) (k : κ) : (c.get t k).2.SortedUpTo t := by
  cases hv : c.value? k with
  | none => rw [get_eq_none hv]; exact h
  | some v =>
    rw [get_of_value? hv]
    exact h.append (items_touch (contains_of_value? hv) hv)

theorem SortedUpTo.setItem {t : Time} (h : c.SortedUpTo t) (k : κ) (v : α) :
    (c.setItem t k v).SortedUpTo t := h.append (items_setItem v)

theorem SortedUpTo.sweep {t : Time} (h : c.SortedUpTo t) (now : Time) :
    (c.sweep now).SortedUpTo t :=
  h.sublist (by rw [h.1.items_sweep]; exact List.filter_sublist)

/-! ## Runs -/

/-- The calls of a cache. -/
inductive Op (κ α : Type) [DecidableEq κ]
  | get (key : κ)
  | set (key : κ) (value : α)
  | del (key : κ)
  | first
  | sweep (cnt : ℕ) (close : CloseCallback κ α)
  | clear (keep : ℕ)

/-- The cache after a call at the time `t`; one that raises a `KeyError` changes nothing. -/
def call (c : LRUCache κ α) (t : Time) : Op κ α → LRUCache κ α
  | .get key => (c.get t key).2
  | .set key value => c.setItem t key value
  | .del key => (c.delItem key).getD c
  | .first => c
  | .sweep cnt close => (sweepCall close t cnt c).2
  | .clear keep => match clear (fun _ _ => []) c keep with
    | .ok (_, c') => c'
    | .error _ => c

/-- A cache, and the calls that have been made with their times. -/
structure Used (κ α : Type) [DecidableEq κ] where
  log : List (Time × Op κ α) := []
  cache : LRUCache κ α

/-- A call, no earlier than those before it. -/
def Used.step (s : Used κ α) (c : Time × Op κ α) : Option (Used κ α) :=
  if ∀ c' ∈ s.log, c'.1 ≤ c.1 then
    some { log := s.log ++ [c], cache := s.cache.call c.1 c.2 }
  else none

/-- The call reads or writes the value of a key. -/
def Op.uses (key : κ) : Op κ α → Bool
  | .get key' | .set key' _ => key' = key
  | _ => false

/-- The value that a call writes to a key. -/
def Op.sets (key : κ) : Op κ α → Option α
  | .set key' value => if key' = key then some value else none
  | _ => none

/-- The time of the last use of a key. -/
def lastUse (key : κ) (log : List (Time × Op κ α)) : Option Time :=
  ((log.filter fun c => c.2.uses key).getLast?).map Prod.fst

/-- The last value that is written to a key. -/
def lastSet (key : κ) (log : List (Time × Op κ α)) : Option α :=
  (log.filterMap fun c => c.2.sets key).getLast?

/-- A cache with the last values and times of its keys, in the order of the times. -/
structure Used.Timely (s : Used κ α) : Prop where
  sorted : s.cache.Sorted
  lastUse_eq : ∀ e ∈ s.cache.items, lastUse e.key s.log = some e.lastTime
  lastSet_eq : ∀ e ∈ s.cache.items, lastSet e.key s.log = some e.value

theorem lastUse_concat (key : κ) (log : List (Time × Op κ α)) (c : Time × Op κ α) :
    lastUse key (log ++ [c]) = if c.2.uses key then some c.1 else lastUse key log := by
  rw [lastUse, List.filter_append]
  cases h : c.2.uses key <;> simp [h, lastUse]

theorem lastSet_concat (key : κ) (log : List (Time × Op κ α)) (c : Time × Op κ α) :
    lastSet key (log ++ [c]) = (c.2.sets key).or (lastSet key log) := by
  rw [lastSet, List.filterMap_append]
  cases h : c.2.sets key <;> simp [h, lastSet]

/-- A time of a key is a time of a call. -/
theorem exists_mem_of_lastUse {key : κ} {log : List (Time × Op κ α)} {t : Time}
    (h : lastUse key log = some t) : ∃ c ∈ log, c.1 = t := by
  obtain ⟨c, hc, rfl⟩ := Option.map_eq_some_iff.1 h
  exact ⟨c, (List.mem_filter.1 (List.mem_of_getLast? hc)).1, rfl⟩

/-- A call that may delete items, and uses none of the others. -/
theorem Used.Timely.of_sublist {s : Used κ α} (h : s.Timely) {c : Time × Op κ α}
    {c' : LRUCache κ α} (hitems : c'.items.Sublist s.cache.items)
    (huse : ∀ e ∈ c'.items, c.2.uses e.key = false ∧ c.2.sets e.key = none) :
    Used.Timely { log := s.log ++ [c], cache := c' } where
  sorted := h.sorted.sublist hitems
  lastUse_eq e he := by
    rw [lastUse_concat, if_neg (by rw [(huse e he).1]; decide)]
    exact h.lastUse_eq e (hitems.subset he)
  lastSet_eq e he := by
    rw [lastSet_concat, (huse e he).2]
    exact h.lastSet_eq e (hitems.subset he)

/-- A call that uses a key, with the item at the end after it. -/
theorem Used.Timely.of_append {s : Used κ α} (h : s.Timely) {c : Time × Op κ α}
    {c' : LRUCache κ α} {key : κ} {value : α} (htime : ∀ c' ∈ s.log, c'.1 ≤ c.1)
    (hitems : c'.items = (s.cache.items.filter fun e => e.key ≠ key) ++ [⟨key, value, c.1⟩])
    (huse : ∀ k, c.2.uses k = decide (key = k))
    (hset : ∀ k, c.2.sets k = none ∨ key = k ∧ c.2.sets k = some value)
    (hvalue : lastSet key (s.log ++ [c]) = some value) :
    Used.Timely { log := s.log ++ [c], cache := c' } := by
  have hcases : ∀ e ∈ c'.items, e ∈ s.cache.items ∧ key ≠ e.key ∨ e = ⟨key, value, c.1⟩ :=
    fun e he => by
      rw [hitems, List.mem_append, List.mem_filter, List.mem_singleton] at he
      exact he.imp_left fun h => ⟨h.1, (of_decide_eq_true h.2).symm⟩
  have hsorted : s.cache.SortedUpTo c.1 := ⟨h.sorted, fun e he => by
    obtain ⟨c'', hc'', hle⟩ := exists_mem_of_lastUse (h.lastUse_eq e he)
    exact hle ▸ htime c'' hc''⟩
  refine ⟨(hsorted.append hitems).1, fun e he => ?_, fun e he => ?_⟩
  · rw [lastUse_concat, huse]
    rcases hcases e he with ⟨hmem, hne⟩ | rfl
    · rw [if_neg (by simpa using hne)]
      exact h.lastUse_eq e hmem
    · simp
  · rcases hcases e he with ⟨hmem, hne⟩ | rfl
    · rw [lastSet_concat, (hset e.key).resolve_right fun h => hne h.1]
      exact h.lastSet_eq e hmem
    · exact hvalue

/-- One call. -/
theorem Used.Timely.step {s s' : Used κ α} (h : s.Timely) {c : Time × Op κ α}
    (hstep : s.step c = some s') : s'.Timely := by
  rw [Used.step] at hstep
  split at hstep
  case isFalse => cases hstep
  case isTrue htime =>
  cases hstep
  obtain ⟨t, op⟩ := c
  cases op with
  | get key =>
    dsimp only [call]
    cases hv : s.cache.value? key with
    | some value =>
      rw [get_of_value? hv]
      refine h.of_append htime (items_touch (contains_of_value? hv) hv) (fun _ => rfl)
        (fun _ => .inl rfl) ?_
      obtain ⟨e, he, rfl⟩ := exists_mem_items.2 (contains_of_value? hv)
      rw [lastSet_concat, h.lastSet_eq e he, ← hv, (mem_items.1 he).1]
      rfl
    | none =>
      rw [get_eq_none hv]
      refine h.of_sublist (.refl _) fun e he => ⟨decide_eq_false ?_, rfl⟩
      rintro rfl
      rw [(mem_items.1 he).1] at hv
      cases hv
  | set key value =>
    refine h.of_append htime (items_setItem value) (fun _ => rfl) (fun k => ?_) ?_
    · dsimp only [Op.sets]
      by_cases hk : key = k
      · exact .inr ⟨hk, if_pos hk⟩
      · exact .inl (if_neg hk)
    · rw [lastSet_concat, Op.sets, if_pos rfl]
      rfl
  | del key =>
    exact h.of_sublist (by rw [call, ← discard, items_discard]; exact List.filter_sublist)
      fun _ _ => ⟨rfl, rfl⟩
  | first => exact h.of_sublist (.refl _) fun _ _ => ⟨rfl, rfl⟩
  | sweep cnt close =>
    obtain ⟨items, deleted, hsweeps⟩ := sweepClose_spec h.sorted close t cnt
    exact h.of_sublist (by rw [call, sweepCall, hsweeps.left_eq]; exact List.filter_sublist)
      fun _ _ => ⟨rfl, rfl⟩
  | clear keep =>
    obtain ⟨closed, c', hclear, -, hitems, -⟩ := clear_spec s.cache keep
    exact h.of_sublist (by rw [call, hclear, hitems]; exact List.drop_sublist _ _)
      fun _ _ => ⟨rfl, rfl⟩

theorem timely_new (timeout : Time) : Used.Timely ({ cache := { timeout } } : Used κ α) where
  sorted := List.Pairwise.nil
  lastUse_eq := fun _ he => absurd he List.not_mem_nil
  lastSet_eq := fun _ he => absurd he List.not_mem_nil

/-- What the cache is for: a store of the last values, in the order of their last use, from which
    the oldest items are swept and cleared. -/
structure TimedStore (log : List (Time × Op κ α)) (c : LRUCache κ α) : Prop where
  same_keys : ∀ k, c.store.contains k = c.keysToLastTime.contains k
  sorted : c.Sorted
  last : ∀ e ∈ c.items, lastUse e.key log = some e.lastTime ∧ lastSet e.key log = some e.value
  first : ∀ k, c.first? = some k → ∃ e ∈ c.items, e.key = k ∧
    ∀ e' ∈ c.items, e.lastTime ≤ e'.lastTime
  sweep : ∀ close now n,
    ∃ items deleted, Sweeps close now n c items deleted (sweepClose close now n c)
  /-- With callbacks as `TCPRelay.remove_handler`, the items are the first `n` that are idle. -/
  sweep_own : ∀ close now n, OwnKey close c →
    (sweepClose close now n c).1 = ((c.idle now).take n).map Item.value ∧
      (sweepClose close now n c).2.items =
        c.items.filter fun e => e.key ∉ ((c.idle now).take n).map Item.key
  clear : ∀ keep, ∃ c', clear (fun _ _ => []) c keep =
      .ok ((c.items.take (c.items.length - keep)).map Item.value, c') ∧
    c'.items = c.items.drop (c.items.length - keep)

/-- The first item is the least recently used one. -/
theorem Sorted.first (h : c.Sorted) {k : κ} (hk : c.first? = some k) :
    ∃ e ∈ c.items, e.key = k ∧ ∀ e' ∈ c.items, e.lastTime ≤ e'.lastTime := by
  rcases first_cases c with ⟨-, hfirst⟩ | ⟨e, rest, -, hitems, hfirst, -⟩
  · cases hk.symm.trans hfirst
  · cases hk.symm.trans hfirst
    refine ⟨e, by rw [hitems]; exact List.mem_cons_self, rfl, fun e' he' => ?_⟩
    rw [Sorted, hitems, List.pairwise_cons] at h
    rcases List.mem_cons.1 (hitems ▸ he') with rfl | he'
    · exact le_rfl
    · exact h.1 e' he'

theorem exec_log {calls : List (Time × Op κ α)} {s s' : Used κ α}
    (h : Run.exec Used.step s calls = some s') : s'.log = s.log ++ calls := by
  induction calls generalizing s with
  | nil => cases h; exact (List.append_nil _).symm
  | cons c calls ih =>
    obtain ⟨t, ht, h⟩ := Run.exec_cons_eq_some.1 h
    rw [Used.step] at ht
    split at ht <;> cases ht
    rw [ih h, List.append_assoc]
    rfl

/-- After every run, the cache is a timed store. -/
theorem timed_store {timeout : Time} {calls : List (Time × Op κ α)} {s : Used κ α}
    (h : Run.exec Used.step { cache := { timeout } } calls = some s) :
    s.cache.TimedStore calls := by
  have htimely : s.Timely := Run.exec_invariant' (fun h => h.step) (timely_new timeout) h
  have hlog : s.log = calls := exec_log h
  rw [← hlog]
  refine ⟨s.cache.same_keys, htimely.sorted,
    fun e he => ⟨htimely.lastUse_eq e he, htimely.lastSet_eq e he⟩, fun k => htimely.sorted.first,
    sweepClose_spec htimely.sorted, fun close now n => htimely.sorted.sweep_own now n,
    fun keep => ?_⟩
  obtain ⟨closed, c', hclear, rfl, hitems, -⟩ := clear_spec s.cache keep
  rw [← length_items] at hclear hitems
  exact ⟨c', hclear, hitems⟩

/-- Two handlers, the first of which is used again; then the second one is swept, with a callback
    that deletes its key. -/
def handlerCalls : List (Time × Op ℕ ℕ) :=
  [(0, .set 1 10), (1, .set 2 20), (30, .get 1), (70, .sweep 1024 fun value _ => [value / 10]),
    (80, .first), (90, .clear 1)]

theorem timed_store_handlerCalls :
    ∃ s, Run.exec Used.step { cache := { timeout := 60 } } handlerCalls = some s ∧
      s.cache.order = [1] ∧ s.cache.TimedStore handlerCalls := by
  have h : (Run.exec Used.step { cache := { timeout := 60 } } handlerCalls).isSome = true := by
    decide +kernel
  exact ⟨_, (Option.some_get h).symm, by revert h; decide +kernel,
    timed_store (Option.some_get h).symm⟩

end LRUCache

end ShadowsocksR

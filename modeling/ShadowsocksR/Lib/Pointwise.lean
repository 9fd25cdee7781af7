import Mathlib.Data.List.Basic
import Mathlib.Data.List.Nodup

/-!
# Loops that act on one entry at a time

A state has an entry for every key, and a step of a loop acts on the entry at the key of its item.
When the items have distinct keys, or the second act on an entry does nothing, the loop does to each
entry what its item does to it, whatever the other items are.

* `ActsAt`: a step acts on the entry at the key of its item, and leaves the others;
* `run_frame`: a loop leaves the entries that no item is about;
* `run_own`: it does to the other entries what their items do;
* `run_ok_iff`: it ends without an error if none of them has one;
* `foldl_spec`: a loop of steps that never raise.
-/

namespace ShadowsocksR

namespace Pointwise

variable {σ ι κ ν ε : Type*}

/-- A step acts on the entry at a key. -/
structure ActsAt (view : σ → κ → ν) (key : ι → κ) (act : ι → ν → Except ε ν)
    (step : σ → ι → Except ε σ) : Prop where
  own : ∀ s i, (step s i).map (fun s' => view s' (key i)) = act i (view s (key i))
  frame : ∀ {s i s'} k, step s i = .ok s' → k ≠ key i → view s' k = view s k

/-- The second of two items with the same key does what the first one does, and nothing after it. -/
def Repeats (key : ι → κ) (act : ι → ν → Except ε ν) (i j : ι) : Prop :=
  key j = key i → ∀ v v', act i v = .ok v' → act j v = .ok v' ∧ act j v' = .ok v'

/-- Items with distinct keys. -/
theorem pairwise_repeats {key : ι → κ} (act : ι → ν → Except ε ν) {is : List ι}
    (h : (is.map key).Nodup) : is.Pairwise (Repeats key act) :=
  (List.pairwise_map.1 h).imp fun hne heq => absurd heq.symm hne

namespace ActsAt

variable {view : σ → κ → ν} {key : ι → κ} {act : ι → ν → Except ε ν} {step : σ → ι → Except ε σ}
  {is : List ι} {s s' : σ}

theorem own_of_ok (h : ActsAt view key act step) {i : ι} (hs : step s i = .ok s') :
    act i (view s (key i)) = .ok (view s' (key i)) := by
  rw [← h.own, hs]
  rfl

/-- A step that returns. -/
theorem ok (h : ActsAt view key act step) {i : ι} {v : ν} (hv : act i (view s (key i)) = .ok v) :
    ∃ s', step s i = .ok s' ∧ view s' (key i) = v := by
  rw [← h.own] at hv
  cases hs : step s i with
  | error e =>
    rw [hs] at hv
    cases hv
  | ok s' =>
    rw [hs] at hv
    exact ⟨s', rfl, Except.ok.inj hv⟩

theorem run_frame (h : ActsAt view key act step) {k : κ} (hk : ∀ i ∈ is, key i ≠ k)
    (hs : is.foldlM step s = .ok s') : view s' k = view s k := by
  induction is generalizing s with
  | nil =>
    cases hs
    rfl
  | cons i is ih =>
    rw [List.foldlM_cons] at hs
    cases hi : step s i with
    | error e =>
      rw [hi] at hs
      cases hs
    | ok t =>
      rw [hi] at hs
      rw [ih (fun j hj => hk j (List.mem_cons_of_mem _ hj)) hs,
        h.frame k hi (hk i List.mem_cons_self).symm]

/-- The act on an entry with which a loop starts, as an act of the rest of the loop. -/
theorem act_step (h : ActsAt view key act step) {i j : ι} (hij : Repeats key act i j)
    (hs : step s i = .ok s') {v : ν} (hj : act j (view s' (key j)) = .ok v) :
    act j (view s (key j)) = .ok v := by
  by_cases hk : key j = key i
  · obtain ⟨hsame, hagain⟩ := hij hk _ _ (h.own_of_ok hs)
    rw [hk] at hj ⊢
    rw [hsame, ← hj, hagain]
  · rwa [h.frame _ hs hk] at hj

theorem run_own (h : ActsAt view key act step) (hpw : is.Pairwise (Repeats key act))
    (hs : is.foldlM step s = .ok s') :
    ∀ i ∈ is, act i (view s (key i)) = .ok (view s' (key i)) := by
  induction is generalizing s with
  | nil => exact fun i hi => absurd hi List.not_mem_nil
  | cons i is ih =>
    obtain ⟨hi, htail⟩ := List.pairwise_cons.1 hpw
    rw [List.foldlM_cons] at hs
    cases ht : step s i with
    | error e =>
      rw [ht] at hs
      cases hs
    | ok t =>
      rw [ht] at hs
      intro j hj
      rcases List.mem_cons.1 hj with rfl | hj
      · by_cases hkey : ∃ j' ∈ is, key j' = key j
        · -- The item that comes last has found the entry as the first has left it.
          obtain ⟨j', hj', hkey⟩ := hkey
          have hlast := ih htail hs j' hj'
          rw [hkey, (hi j' hj' hkey _ _ (h.own_of_ok ht)).2] at hlast
          rw [h.own_of_ok ht, hlast]
        · push Not at hkey
          rw [h.own_of_ok ht, h.run_frame hkey hs]
      · exact h.act_step (hi j hj) ht (ih htail hs j hj)

theorem run_ok_iff (h : ActsAt view key act step) (hpw : is.Pairwise (Repeats key act)) :
    (∃ s', is.foldlM step s = .ok s') ↔ ∀ i ∈ is, ∃ v, act i (view s (key i)) = .ok v := by
  refine ⟨fun ⟨s', hs⟩ i hi => ⟨_, h.run_own hpw hs i hi⟩, fun hok => ?_⟩
  induction is generalizing s with
  | nil => exact ⟨s, rfl⟩
  | cons i is ih =>
    obtain ⟨hi, htail⟩ := List.pairwise_cons.1 hpw
    obtain ⟨v, hv⟩ := hok i List.mem_cons_self
    obtain ⟨t, ht, hview⟩ := h.ok hv
    obtain ⟨s', hs'⟩ := @ih t htail fun j hj => by
      obtain ⟨w, hw⟩ := hok j (List.mem_cons_of_mem _ hj)
      by_cases hk : key j = key i
      · refine ⟨v, ?_⟩
        rw [hk, hview]
        exact (hi j hj hk _ _ hv).2
      · exact ⟨w, by rwa [h.frame _ ht hk]⟩
    exact ⟨s', by rw [List.foldlM_cons, ht]; exact hs'⟩

end ActsAt

/-- A loop of steps that never raise, over items with distinct keys. -/
theorem foldl_spec (view : σ → κ → ν) (key : ι → κ) (act : ι → ν → ν) (step : σ → ι → σ)
    (own : ∀ s i, view (step s i) (key i) = act i (view s (key i)))
    (frame : ∀ s i k, k ≠ key i → view (step s i) k = view s k) {is : List ι}
    (hnodup : (is.map key).Nodup) (s : σ) :
    (∀ i ∈ is, view (is.foldl step s) (key i) = act i (view s (key i))) ∧
      ∀ k, (∀ i ∈ is, key i ≠ k) → view (is.foldl step s) k = view s k := by
  have h : ActsAt view key (fun i v => (.ok (act i v) : Except Unit ν)) fun s i => .ok (step s i) :=
    ⟨fun s i => congrArg Except.ok (own s i), fun k h hk => by
      cases h
      exact frame _ _ k hk⟩
  have hs : is.foldlM (fun s i => (.ok (step s i) : Except Unit σ)) s = .ok (is.foldl step s) :=
    List.foldlM_pure
  exact ⟨fun i hi => (Except.ok.inj (h.run_own (pairwise_repeats _ hnodup) hs i hi)).symm,
    fun k hk => h.run_frame hk hs⟩

end Pointwise

end ShadowsocksR

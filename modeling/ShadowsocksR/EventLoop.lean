import ShadowsocksR.Lib.Run
import Mathlib.Data.List.Sort

/-!
# The periodic callbacks of the event loop

`EventLoop.run` calls the callbacks in `_periodic_callbacks` one after the
other. It iterates over the list itself, while the callbacks add to it and
remove from it: `list.remove` of one that the iteration has come past moves the
next one to where it will not be looked for.

* `step`: what the loop and the callback that it has called do in a tick;
* `passes`: what the iteration will not come to any more;
* `eachOnce_iff`: the callbacks that stay registered are each called once, in
  their order, if and only if none of them is passed over.
-/

namespace ShadowsocksR

namespace EventLoop

variable {C : Type}

/-- A callback in the list. A callback may be registered more than once, so the registrations have
    numbers, in the order in which they were made. -/
structure Registration (C : Type) where
  number : ℕ
  callback : C
  deriving DecidableEq

/-- The loop in a tick of `run`, in `for callback in self._periodic_callbacks`. -/
structure Tick (C : Type) where
  periodicCallbacks : List (Registration C)
  /-- How many registrations there have been. -/
  registered : ℕ
  /-- The index at which the iteration goes on. -/
  cursor : ℕ := 0
  /-- The calls of this tick. -/
  called : List (Registration C) := []
  /-- An exception has left a callback, and with it `run`. -/
  raised : Bool := false

/-- What happens in a tick. -/
inductive Event (C : Type)
  /-- The iteration goes on to the next callback, and calls it. -/
  | next
  /-- The callback that has been called last calls `add_periodic`. -/
  | addPeriodic (callback : C)
  /-- It calls `remove_periodic`. -/
  | removePeriodic (callback : C)
  /-- It raises. -/
  | raise

namespace Tick

def addPeriodic (s : Tick C) (callback : C) : Tick C :=
  { s with
    periodicCallbacks := s.periodicCallbacks ++ [⟨s.registered, callback⟩]
    registered := s.registered + 1 }

/-- The registrations of the callbacks before a tick. -/
def registrations (callbacks : List C) : List (Registration C) :=
  callbacks.zipIdx.map fun c => ⟨c.2, c.1⟩

theorem getElem?_registrations (callbacks : List C) (i : ℕ) :
    (registrations callbacks)[i]? = callbacks[i]?.map fun callback => ⟨i, callback⟩ := by
  rw [registrations, List.getElem?_map, List.getElem?_zipIdx, Option.map_map, Nat.zero_add]
  rfl

theorem mem_registrations {callbacks : List C} {r : Registration C} :
    r ∈ registrations callbacks ↔ callbacks[r.number]? = some r.callback := by
  rw [List.mem_iff_getElem?]
  constructor
  · rintro ⟨i, hi⟩
    rw [getElem?_registrations, Option.map_eq_some_iff] at hi
    obtain ⟨callback, hi, rfl⟩ := hi
    exact hi
  · intro hr
    exact ⟨r.number, by rw [getElem?_registrations, hr]; rfl⟩

theorem number_lt_of_mem {callbacks : List C} {r : Registration C} (hr : r ∈ registrations callbacks) :
    r.number < callbacks.length := (List.getElem?_eq_some_iff.1 (mem_registrations.1 hr)).1

theorem sorted_registrations (callbacks : List C) :
    (registrations callbacks).Pairwise fun r r' => r.number < r'.number := by
  rw [List.pairwise_iff_getElem]
  intro i j hi hj hij
  have hnumber : ∀ k (hk : k < (registrations callbacks).length),
      (registrations callbacks)[k].number = k := by
    intro k hk
    simp [registrations]
  rw [hnumber, hnumber]
  exact hij

/-- The start of a tick. -/
def start (callbacks : List C) : Tick C where
  periodicCallbacks := registrations callbacks
  registered := callbacks.length

variable [DecidableEq C]

/-- Where `list.remove` finds a callback; when it does not, it raises `ValueError`. -/
def indexOf (s : Tick C) (callback : C) : Option ℕ :=
  s.periodicCallbacks.findIdx? fun r => r.callback = callback

def removePeriodic (s : Tick C) (callback : C) : Tick C :=
  match s.indexOf callback with
  | some i => { s with periodicCallbacks := s.periodicCallbacks.eraseIdx i }
  | none => s

end Tick

/-! ## What holds in a tick -/

/-- What holds in a tick, when `passed` has been passed over. -/
structure Tick.Inv (callbacks : List C) (passed : List (Registration C)) (s : Tick C) : Prop where
  sorted : s.periodicCallbacks.Pairwise fun r r' => r.number < r'.number
  fresh : ∀ r ∈ s.periodicCallbacks, r.number < s.registered
  old : ∀ r ∈ s.periodicCallbacks, r.number < callbacks.length → r ∈ registrations callbacks
  length_le : callbacks.length ≤ s.registered
  calledSorted : s.called.Pairwise fun r r' => r.number < r'.number
  calledFresh : ∀ r ∈ s.called ++ passed, r.number < s.registered
  disjoint : ∀ r ∈ passed, r ∉ s.called
  behind : ∀ i r, s.periodicCallbacks[i]? = some r → r.number < callbacks.length →
    i < s.cursor ∨ s.raised = true → r ∈ s.called ++ passed
  ahead : ∀ i r, s.periodicCallbacks[i]? = some r → s.cursor ≤ i → s.raised = false →
    ∀ r' ∈ s.called ++ passed, r'.number < r.number

section

variable {callbacks : List C} {passed : List (Registration C)} {s : Tick C}

theorem inv_start (callbacks : List C) : Tick.Inv callbacks [] (Tick.start callbacks) where
  sorted := Tick.sorted_registrations callbacks
  fresh := fun r hr => Tick.number_lt_of_mem hr
  old := fun r hr _ => hr
  length_le := le_rfl
  calledSorted := .nil
  calledFresh := fun r hr => nomatch hr
  disjoint := fun r hr => nomatch hr
  behind := fun i r _ _ hi => by
    rcases hi with hi | hi
    · exact absurd hi (Nat.not_lt_zero i)
    · cases hi
  ahead := fun i r _ _ _ r' hr' => nomatch hr'

namespace Tick.Inv

/-- A registration further on has a greater number. -/
theorem number_lt (h : s.Inv callbacks passed) {i j : ℕ} {r r' : Registration C}
    (hr : s.periodicCallbacks[i]? = some r) (hr' : s.periodicCallbacks[j]? = some r')
    (hij : i < j) : r.number < r'.number := by
  obtain ⟨hi, rfl⟩ := List.getElem?_eq_some_iff.1 hr
  obtain ⟨hj, rfl⟩ := List.getElem?_eq_some_iff.1 hr'
  exact List.pairwise_iff_getElem.1 h.sorted i j hi hj hij

/-- More is passed over that is not yet handled. -/
theorem append (h : s.Inv callbacks passed) {more : List (Registration C)}
    (hmore : ∀ r ∈ more, ∃ i, s.cursor ≤ i ∧ s.periodicCallbacks[i]? = some r)
    (hraised : s.raised = false) : (∀ r ∈ s.called ++ (passed ++ more), r.number < s.registered) ∧
      ∀ r ∈ passed ++ more, r ∉ s.called := by
  constructor
  · intro r hr
    rw [← List.append_assoc] at hr
    rcases List.mem_append.1 hr with hr | hr
    · exact h.calledFresh r hr
    · obtain ⟨i, -, hi⟩ := hmore r hr
      exact h.fresh r (List.mem_of_getElem? hi)
  · intro r hr hcalled
    rcases List.mem_append.1 hr with hr | hr
    · exact h.disjoint r hr hcalled
    · obtain ⟨i, hi, hri⟩ := hmore r hr
      exact lt_irrefl _ (h.ahead i r hri hi hraised r (List.mem_append_left _ hcalled))

/-- What is at an index after one has been removed was there, or at the next index. -/
theorem getElem?_eraseIdx_cases {i j : ℕ} {r : Registration C}
    (hr : (s.periodicCallbacks.eraseIdx i)[j]? = some r) :
    j < i ∧ s.periodicCallbacks[j]? = some r ∨ i ≤ j ∧ s.periodicCallbacks[j + 1]? = some r := by
  rw [List.getElem?_eraseIdx] at hr
  split_ifs at hr with hji
  · exact .inl ⟨hji, hr⟩
  · exact .inr ⟨not_lt.1 hji, hr⟩

end Tick.Inv

/-- The tick has come past what was registered before it, or an exception has ended it. -/
def Tick.Past (callbacks : List C) (s : Tick C) : Prop :=
  s.raised = true ∨ ∀ r ∈ s.periodicCallbacks.drop s.cursor, r ∉ Tick.registrations callbacks

/-- A callback that stays registered has been called, or passed over, and not both. -/
theorem Tick.Inv.mem_called_iff (h : s.Inv callbacks passed) (hpast : s.Past callbacks)
    {r : Registration C} (hr : r ∈ registrations callbacks) (hmem : r ∈ s.periodicCallbacks) :
    r ∈ s.called ↔ r ∉ passed := by
  refine ⟨fun hcalled hpassed => h.disjoint r hpassed hcalled, fun hpassed => ?_⟩
  obtain ⟨i, hi⟩ := List.mem_iff_getElem?.1 hmem
  have hbehind : i < s.cursor ∨ s.raised = true := by
    rcases hpast with hraised | hdrop
    · exact .inr hraised
    · refine .inl (not_le.1 fun hle => hdrop r (List.mem_iff_getElem?.2 ⟨i - s.cursor, ?_⟩) hr)
      rw [List.getElem?_drop, Nat.add_sub_cancel' hle]
      exact hi
  exact (List.mem_append.1 (h.behind i r hi (number_lt_of_mem hr) hbehind)).resolve_right hpassed

end

/-! ## One event -/

variable [DecidableEq C]

/-- One event. Callbacks do nothing before the first of them is called. -/
def step (s : Tick C) (e : Event C) : Option (Tick C) :=
  if s.raised then none
  else match e with
    | .next => s.periodicCallbacks[s.cursor]?.map fun r =>
      { s with cursor := s.cursor + 1, called := s.called ++ [r] }
    | .addPeriodic callback => if 0 < s.cursor then some (s.addPeriodic callback) else none
    | .removePeriodic callback => if 0 < s.cursor then some (s.removePeriodic callback) else none
    | .raise => if 0 < s.cursor then some { s with raised := true } else none

/-- What an event makes the iteration miss: the next registration, when one at a lower index is
    removed, and all the following ones, when a callback raises. -/
def passes (s : Tick C) : Event C → List (Registration C)
  | .removePeriodic callback =>
    match s.indexOf callback with
    | some i => if i < s.cursor then s.periodicCallbacks[s.cursor]?.toList else []
    | none => []
  | .raise => s.periodicCallbacks.drop s.cursor
  | .next => []
  | .addPeriodic _ => []

/-- The callbacks registered before a tick, but for those removed in it, have each been called once,
    in the order of their registrations. -/
def Tick.EachOnce (callbacks : List C) (s : Tick C) : Prop :=
  let kept := (Tick.registrations callbacks).filter (· ∈ s.periodicCallbacks)
  s.called.filter (· ∈ kept) = kept

/-- All that is passed over in the tick from here on. -/
def passedOver (s : Tick C) : List (Event C) → List (Registration C)
  | [] => []
  | e :: es =>
    passes s e ++ match step s e with
      | some s' => passedOver s' es
      | none => []

section

variable {callbacks : List C} {passed : List (Registration C)} {s s' : Tick C} {callback : C}

theorem step_next (h : step s .next = some s') :
    s.raised = false ∧ ∃ r, s.periodicCallbacks[s.cursor]? = some r ∧
      s' = { s with cursor := s.cursor + 1, called := s.called ++ [r] } := by
  simp only [step] at h
  split_ifs at h with hraised
  obtain ⟨r, hr, rfl⟩ := Option.map_eq_some_iff.1 h
  exact ⟨eq_false_of_ne_true hraised, r, hr, rfl⟩

theorem step_addPeriodic {callback : C} (h : step s (.addPeriodic callback) = some s') :
    s.raised = false ∧ s' = s.addPeriodic callback := by
  simp only [step] at h
  split_ifs at h with hraised _
  exact ⟨eq_false_of_ne_true hraised, (Option.some.inj h).symm⟩

theorem step_removePeriodic {callback : C} (h : step s (.removePeriodic callback) = some s') :
    s.raised = false ∧ s' = s.removePeriodic callback := by
  simp only [step] at h
  split_ifs at h with hraised _
  exact ⟨eq_false_of_ne_true hraised, (Option.some.inj h).symm⟩

theorem step_raise (h : step s .raise = some s') :
    s.raised = false ∧ s' = { s with raised := true } := by
  simp only [step] at h
  split_ifs at h with hraised _
  exact ⟨eq_false_of_ne_true hraised, (Option.some.inj h).symm⟩

namespace Tick.Inv

theorem next (h : s.Inv callbacks passed) (hstep : step s .next = some s') :
    s'.Inv callbacks passed := by
  -- The registration that is called was ahead, so its number is greater than those before it.
  obtain ⟨hraised, r, hr, rfl⟩ := step_next hstep
  have hmem : r ∈ s.periodicCallbacks := List.mem_of_getElem? hr
  have hlt := h.ahead _ r hr le_rfl hraised
  have hhandled : ∀ a, a ∈ (s.called ++ [r]) ++ passed ↔ a ∈ s.called ++ passed ∨ a = r := by
    intro a
    simp only [List.mem_append, List.mem_singleton]
    tauto
  refine ⟨h.sorted, h.fresh, h.old, h.length_le, ?_, ?_, ?_, ?_, ?_⟩
  · refine List.pairwise_append.2 ⟨h.calledSorted, List.pairwise_singleton _ _, fun a ha b hb => ?_⟩
    rw [List.mem_singleton.1 hb]
    exact hlt a (List.mem_append_left _ ha)
  · intro a ha
    rcases (hhandled a).1 ha with ha | rfl
    · exact h.calledFresh a ha
    · exact h.fresh a hmem
  · intro a ha hcalled
    rcases List.mem_append.1 hcalled with hcalled | hcalled
    · exact h.disjoint a ha hcalled
    · rw [List.mem_singleton.1 hcalled] at ha
      exact absurd (hlt r (List.mem_append_right _ ha)) (lt_irrefl _)
  · intro i a hi hold hlt
    refine (hhandled a).2 ?_
    rcases hlt with hlt | hno
    · rcases Nat.lt_succ_iff_lt_or_eq.1 hlt with hlt | rfl
      · exact .inl (h.behind i a hi hold (.inl hlt))
      · exact .inr (Option.some.inj (hi.symm.trans hr))
    · cases hraised.symm.trans hno
  · intro i a hi hle _ b hb
    have hle : s.cursor + 1 ≤ i := hle
    rcases (hhandled b).1 hb with hb | rfl
    · exact h.ahead i a hi (by omega) hraised b hb
    · exact h.number_lt hr hi hle

theorem addPeriodic (h : s.Inv callbacks passed)
    (hstep : EventLoop.step s (.addPeriodic callback) = some s') : s'.Inv callbacks passed := by
  obtain ⟨hraised, rfl⟩ := step_addPeriodic hstep
  have hmem : ∀ r ∈ s.periodicCallbacks ++ [⟨s.registered, callback⟩],
      r ∈ s.periodicCallbacks ∨ r = ⟨s.registered, callback⟩ := fun r hr => by
    rwa [List.mem_append, List.mem_singleton] at hr
  have hget : ∀ (i : ℕ) r,
      (s.periodicCallbacks ++ [(⟨s.registered, callback⟩ : Registration C)])[i]? = some r →
        s.periodicCallbacks[i]? = some r ∨ r = ⟨s.registered, callback⟩ := fun i r hr => by
    rw [List.getElem?_append] at hr
    split_ifs at hr with hi
    · exact .inl hr
    · exact .inr (List.mem_singleton.1 (List.mem_of_getElem? hr))
  refine ⟨?_, ?_, ?_, ?_, h.calledSorted, ?_, h.disjoint, ?_, ?_⟩
  · refine List.pairwise_append.2 ⟨h.sorted, List.pairwise_singleton _ _, fun a ha b hb => ?_⟩
    rw [List.mem_singleton.1 hb]
    exact h.fresh a ha
  · intro r hr
    rcases hmem r hr with hr | rfl
    · exact Nat.lt_succ_of_lt (h.fresh r hr)
    · exact Nat.lt_succ_self _
  · intro r hr hlt
    rcases hmem r hr with hr | rfl
    · exact h.old r hr hlt
    · exact absurd h.length_le (not_le.2 hlt)
  · exact Nat.le_succ_of_le h.length_le
  · exact fun r hr => Nat.lt_succ_of_lt (h.calledFresh r hr)
  · intro i r hr hold hi
    rcases hget i r hr with hr | rfl
    · exact h.behind i r hr hold hi
    · exact absurd h.length_le (not_le.2 hold)
  · intro i r hr hi _ a ha
    rcases hget i r hr with hr | rfl
    · exact h.ahead i r hr hi hraised a ha
    · exact h.calledFresh a ha

theorem removePeriodic (h : s.Inv callbacks passed)
    (hstep : EventLoop.step s (.removePeriodic callback) = some s') :
    s'.Inv callbacks (passed ++ passes s (.removePeriodic callback)) := by
  -- A removal behind the cursor moves everything ahead of it one place back, and so the one at the
  -- cursor comes behind it. Other removals move nothing over the cursor.
  obtain ⟨hraised, rfl⟩ := step_removePeriodic hstep
  rw [Tick.removePeriodic, passes]
  cases hindex : s.indexOf callback with
  | none =>
    dsimp only
    rw [List.append_nil]
    exact h
  | some i =>
    dsimp only
    have hmore : ∀ r, r ∈ (if i < s.cursor then s.periodicCallbacks[s.cursor]?.toList else []) ↔
        i < s.cursor ∧ s.periodicCallbacks[s.cursor]? = some r := by
      intro r
      split_ifs with hi
      · rw [Option.mem_toList]
        exact (and_iff_right hi).symm
      · exact iff_of_false List.not_mem_nil fun hno => hi hno.1
    generalize (if i < s.cursor then s.periodicCallbacks[s.cursor]?.toList else []) = more at hmore
    obtain ⟨hfresh, hdisjoint⟩ := h.append
      (fun r hr => ⟨s.cursor, le_rfl, ((hmore r).1 hr).2⟩ :
        ∀ r ∈ more, ∃ i, s.cursor ≤ i ∧ s.periodicCallbacks[i]? = some r) hraised
    have hsub : (s.periodicCallbacks.eraseIdx i).Sublist s.periodicCallbacks :=
      List.eraseIdx_sublist _ _
    refine ⟨h.sorted.sublist hsub, fun r hr => h.fresh r (hsub.subset hr),
      fun r hr => h.old r (hsub.subset hr), h.length_le, h.calledSorted, hfresh, hdisjoint, ?_, ?_⟩
    · intro j r hr hold hj
      have hj : j < s.cursor := hj.resolve_right fun hno => by cases hraised.symm.trans hno
      rw [← List.append_assoc, List.mem_append]
      rcases getElem?_eraseIdx_cases hr with ⟨-, hr⟩ | ⟨hij, hr⟩
      · exact .inl (h.behind j r hr hold (.inl hj))
      · -- The next one has come to where the iteration has been.
        rcases Nat.lt_or_ge (j + 1) s.cursor with hlt | hge
        · exact .inl (h.behind _ r hr hold (.inl hlt))
        · have hcursor : s.cursor = j + 1 := by omega
          exact .inr ((hmore r).2 ⟨by omega, by rw [hcursor]; exact hr⟩)
    · intro j r hr hj _ a ha
      have hj : s.cursor ≤ j := hj
      rw [← List.append_assoc, List.mem_append] at ha
      rcases getElem?_eraseIdx_cases hr with ⟨hji, hr⟩ | ⟨-, hr⟩
      · rcases ha with ha | ha
        · exact h.ahead j r hr hj hraised a ha
        · exact absurd ((hmore a).1 ha).1 (by omega)
      · rcases ha with ha | ha
        · exact h.ahead (j + 1) r hr (by omega) hraised a ha
        · exact h.number_lt ((hmore a).1 ha).2 hr (by omega)

theorem raise (h : s.Inv callbacks passed) (hstep : EventLoop.step s .raise = some s') :
    s'.Inv callbacks (passed ++ passes s .raise) := by
  obtain ⟨hraised, rfl⟩ := step_raise hstep
  have hmore : ∀ r ∈ passes s .raise, ∃ i, s.cursor ≤ i ∧ s.periodicCallbacks[i]? = some r := by
    intro r hr
    obtain ⟨i, hi⟩ := List.mem_iff_getElem?.1 hr
    rw [passes, List.getElem?_drop] at hi
    exact ⟨s.cursor + i, Nat.le_add_right _ _, hi⟩
  obtain ⟨hfresh, hdisjoint⟩ := h.append hmore hraised
  refine ⟨h.sorted, h.fresh, h.old, h.length_le, h.calledSorted, hfresh, hdisjoint, ?_,
    fun _ _ _ _ hno => nomatch hno⟩
  intro i r hr hold _
  rw [← List.append_assoc, List.mem_append]
  rcases Nat.lt_or_ge i s.cursor with hi | hi
  · exact .inl (h.behind i r hr hold (.inl hi))
  · refine .inr (List.mem_iff_getElem?.2 ⟨i - s.cursor, ?_⟩)
    rw [passes, List.getElem?_drop, Nat.add_sub_cancel' hi]
    exact hr

/-- Whatever an event passes over is passed over. -/
theorem step (h : s.Inv callbacks passed) {e : Event C} (hstep : EventLoop.step s e = some s') :
    s'.Inv callbacks (passed ++ passes s e) := by
  cases e with
  | next =>
    rw [passes, List.append_nil]
    exact h.next hstep
  | addPeriodic callback =>
    rw [passes, List.append_nil]
    exact h.addPeriodic hstep
  | removePeriodic callback => exact h.removePeriodic hstep
  | raise => exact h.raise hstep

end Tick.Inv

/-! ## A tick -/

theorem Tick.Inv.exec {es : List (Event C)} (h : s.Inv callbacks passed)
    (hrun : Run.exec EventLoop.step s es = some s') :
    s'.Inv callbacks (passed ++ passedOver s es) := by
  induction es generalizing s passed with
  | nil =>
    cases hrun
    rw [passedOver, List.append_nil]
    exact h
  | cons e es ih =>
    obtain ⟨t, ht, hrest⟩ := Run.exec_cons_eq_some.1 hrun
    rw [passedOver, ht, ← List.append_assoc]
    exact ih (h.step ht) hrest

/-- What is passed over in the tick is passed over by one of its events. -/
theorem throughout_iff_passedOver {good : Registration C → Prop} {es : List (Event C)}
    (hrun : Run.exec step s es = some s') :
    Run.Throughout step (fun t e => ∀ r ∈ passes t e, good r) s es ↔
      ∀ r ∈ passedOver s es, good r := by
  induction es generalizing s with
  | nil => exact iff_of_true (Run.throughout_nil s) fun r hr => nomatch hr
  | cons e es ih =>
    obtain ⟨t, ht, hrest⟩ := Run.exec_cons_eq_some.1 hrun
    rw [passedOver, ht, List.forall_mem_append, ← ih hrest]
    constructor
    · exact fun h => ⟨h.head, h.tail ht⟩
    · rintro ⟨hhead, htail⟩
      refine .cons hhead fun t' ht' => ?_
      cases ht.symm.trans ht'
      exact htail

/-- The calls are as they should be when nothing that stays registered is missing among them. -/
theorem Tick.Inv.eachOnce_iff_called (h : s.Inv callbacks passed) : s.EachOnce callbacks ↔
    ∀ r ∈ registrations callbacks, r ∈ s.periodicCallbacks → r ∈ s.called := by
  have hmem : ∀ r, r ∈ (registrations callbacks).filter (· ∈ s.periodicCallbacks) ↔
      r ∈ registrations callbacks ∧ r ∈ s.periodicCallbacks := fun r => by
    rw [List.mem_filter, decide_eq_true_iff]
  constructor
  · intro heach r hr hkept
    have hin := (hmem r).2 ⟨hr, hkept⟩
    rw [← show _ = _ from heach] at hin
    exact (List.mem_filter.1 hin).1
  · -- Both lists are sorted by the numbers, so they are equal when they have the same members.
    intro hall
    have : Std.Irrefl fun r r' : Registration C => r.number < r'.number := ⟨fun r => lt_irrefl _⟩
    have : Std.Antisymm fun r r' : Registration C => r.number < r'.number :=
      ⟨fun r r' hlt hgt => absurd (hlt.trans hgt) (lt_irrefl _)⟩
    refine List.Pairwise.eq_of_mem_iff (h.calledSorted.sublist List.filter_sublist)
      ((sorted_registrations callbacks).sublist List.filter_sublist) fun r => ?_
    rw [List.mem_filter, decide_eq_true_iff, hmem]
    exact ⟨fun hr => hr.2, fun hr => ⟨hall r hr.1 hr.2, hr⟩⟩

/-- In a tick, each callback that stays registered is called once and in its order if and only if no
    event makes the iteration miss one of them. -/
theorem eachOnce_iff {es : List (Event C)} (hrun : Run.exec step (Tick.start callbacks) es = some s)
    (hpast : s.Past callbacks) :
    s.EachOnce callbacks ↔ Run.Throughout step
      (fun t e => ∀ r ∈ passes t e, r ∈ Tick.registrations callbacks → r ∉ s.periodicCallbacks)
      (Tick.start callbacks) es := by
  have hinv := (inv_start callbacks).exec hrun
  rw [List.nil_append] at hinv
  -- At the end of the tick, what stays registered has been called or passed over, and not both.
  rw [throughout_iff_passedOver hrun, hinv.eachOnce_iff_called]
  constructor
  · intro hall r hpassed hr hmem
    exact (hinv.mem_called_iff hpast hr hmem).1 (hall r hr hmem) hpassed
  · intro hall r hr hmem
    exact (hinv.mem_called_iff hpast hr hmem).2 fun hpassed => hall r hpassed hr hmem

end

/-- A callback that removes itself: the one after it is not called. -/
theorem not_eachOnce : ¬∀ (callbacks : List ℕ) (es : List (Event ℕ)) (s : Tick ℕ),
    Run.exec step (Tick.start callbacks) es = some s → s.raised = false →
      s.periodicCallbacks.length ≤ s.cursor → s.EachOnce callbacks := by
  intro h
  have heach := h [0, 1] [.next, .removePeriodic 0] _ rfl rfl (by decide)
  revert heach
  rw [Tick.EachOnce]
  decide

/-- A callback has removed the one after it. -/
def removedNext : Tick ℕ where
  periodicCallbacks := [⟨0, 0⟩]
  registered := 2
  cursor := 1
  called := [⟨0, 0⟩]

theorem eachOnce_removedNext : removedNext.EachOnce [0, 1] := by
  have hrun : Run.exec step (Tick.start [0, 1]) [.next, .removePeriodic 1] = some removedNext := rfl
  refine (eachOnce_iff hrun (.inr fun r hr => nomatch hr)).2 ?_
  rw [throughout_iff_passedOver hrun]
  exact fun r hr => nomatch hr

end EventLoop

end ShadowsocksR

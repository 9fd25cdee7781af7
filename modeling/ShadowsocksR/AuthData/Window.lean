import ShadowsocksR.AuthData.ClientQueue
import Mathlib.Order.Bounds.Basic

/-!
# The window of the connection ids

What a `client_queue` is after any number of insertions, in terms of the ids
that it has accepted since it was made or re-enabled for an id `b`. Between the
insertions, the calls `update`, `addref` and `delref` may happen.

* `advanceLoop_spec`, `advance_iterate`: what the loop that moves `front` does;
* `Window`: the front is the least id, from a bound on, that is not accepted;
* `Period.window`: so it is after every insertion of a period;
* `exact_window`: where `front` and `back` are, and which ids are accepted.
-/

namespace ShadowsocksR

namespace ClientQueue

variable {kind : QueueKind} {b : ℤ} {q q' : ClientQueue} {A : Finset ℤ}

/-! ## Moving the front -/

/-- What some steps of the loop do to a queue. -/
structure Advanced (q q' : ClientQueue) : Prop where
  front_le : q.front ≤ q'.front
  back_eq : q'.back = q.back
  enable_eq : q'.enable = q.enable
  alloc_eq : q'.alloc = q.alloc.filter (q'.front ≤ ·)
  /-- The ids that the front has passed. -/
  passed : ∀ x, q.front ≤ x → x < q'.front → x ∈ q.alloc ∨ x + 0x1000 < q.back

theorem advanced_refl (h : ∀ a ∈ q.alloc, q.front ≤ a) : Advanced q q where
  front_le := le_rfl
  back_eq := rfl
  enable_eq := rfl
  alloc_eq := (Finset.filter_true_of_mem h).symm
  passed x h₁ h₂ := by omega

/-- One more step before the others. -/
theorem Advanced.step (hb : q.Behind) (h : Advanced q.advanceStep q') : Advanced q q' := by
  have hfront : q.front + 1 ≤ q'.front := h.front_le
  refine ⟨by omega, h.back_eq, h.enable_eq, ?_, fun x h₁ h₂ => ?_⟩
  · rw [h.alloc_eq]
    ext a
    simp only [advanceStep, Finset.mem_filter, Finset.mem_erase]
    constructor
    · exact fun ha => ⟨ha.1.2, ha.2⟩
    · exact fun ha => ⟨⟨by omega, ha.1⟩, ha.2⟩
  · by_cases hx : x = q.front
    · rw [hx]
      exact hb
    · exact (h.passed x (show q.front + 1 ≤ x by omega) h₂).imp_left Finset.mem_of_mem_erase

theorem advanceLoop_spec (fuel : ℕ) (hq : ∀ a ∈ q.alloc, q.front ≤ a) :
    Advanced q (advanceLoop fuel q) := by
  induction fuel generalizing q with
  | zero => exact advanced_refl hq
  | succ fuel ih =>
    rw [advanceLoop]
    split_ifs with hb
    · refine (ih fun a ha => ?_).step hb
      obtain ⟨hne, hmem⟩ := Finset.mem_erase.1 ha
      have := hq a hmem
      exact show q.front + 1 ≤ a by omega
    · exact advanced_refl hq

/-- The loop is a number of its steps: as long as its condition holds, and no longer. -/
theorem advance_iterate (q : ClientQueue) : ∃ n, q.advance = advanceStep^[n] q ∧
    (∀ k < n, (advanceStep^[k] q).Behind) ∧ ¬(advanceStep^[n] q).Behind := by
  have hloop : ∀ (fuel : ℕ) (q : ClientQueue), ∃ n, advanceLoop fuel q = advanceStep^[n] q ∧
      ∀ k < n, (advanceStep^[k] q).Behind := by
    intro fuel
    induction fuel with
    | zero => exact fun q => ⟨0, rfl, fun k hk => absurd hk (Nat.not_lt_zero k)⟩
    | succ fuel ih =>
      intro q
      rw [advanceLoop]
      split_ifs with hb
      · obtain ⟨n, hn, hbehind⟩ := ih q.advanceStep
        refine ⟨n + 1, hn, fun k hk => ?_⟩
        cases k with
        | zero => exact hb
        | succ k => exact hbehind k (by omega)
      · exact ⟨0, rfl, fun k hk => absurd hk (Nat.not_lt_zero k)⟩
  obtain ⟨n, hn, hbehind⟩ := hloop q.lag q
  refine ⟨n, hn, hbehind, ?_⟩
  rw [← hn]
  exact not_behind_advance q

/-! ## The window -/

/-- The two queues have the same window. -/
def SameWindow (q q' : ClientQueue) : Prop :=
  q'.front = q.front ∧ q'.back = q.back ∧ q'.alloc = q.alloc ∧ q'.enable = q.enable

/-- The window of a queue that was made or re-enabled for the id `b`, and has accepted the ids `A`
    since. -/
structure Window (b : ℤ) (A : Finset ℤ) (q : ClientQueue) : Prop where
  enable : q.enable = true
  back_mem : q.back - 1 = b ∨ q.back - 1 ∈ A
  lt_back : b < q.back ∧ ∀ a ∈ A, a < q.back
  le_front : b - 64 ≤ q.front ∧ q.back - 0x1000 ≤ q.front
  front_notMem : q.front ∉ A
  alloc_eq : q.alloc = A.filter (q.front ≤ ·)
  passed : ∀ x, b - 64 ≤ x → q.back - 0x1000 ≤ x → x < q.front → x ∈ A

/-- A queue that has accepted nothing yet. -/
theorem window_empty (he : q.enable = true) (hf : q.front = b - 64) (hb : q.back = b + 1)
    (ha : q.alloc = ∅) : Window b ∅ q where
  enable := he
  back_mem := .inl (by omega)
  lt_back := ⟨by omega, fun a h => absurd h (Finset.notMem_empty a)⟩
  le_front := by omega
  front_notMem := Finset.notMem_empty _
  alloc_eq := by rw [ha, Finset.filter_empty]
  passed x h₁ _ h₂ := by omega

theorem Window.congr (h : Window b A q) (hs : SameWindow q q') : Window b A q' := by
  obtain ⟨hf, hb, ha, he⟩ := hs
  exact ⟨by rw [he]; exact h.enable, by rw [hb]; exact h.back_mem, by rw [hb]; exact h.lt_back,
    by rw [hf, hb]; exact h.le_front, by rw [hf]; exact h.front_notMem,
    by rw [ha, hf]; exact h.alloc_eq, by rw [hf, hb]; exact h.passed⟩

/-- An id is recorded: the window of one more accepted id. -/
theorem Window.record (h : Window b A q) {id : ℤ} (hid : q.front ≤ id) :
    Window b (A ∪ {id}) (q.record id) := by
  obtain ⟨back, hback⟩ : ∃ back, (if q.back ≤ id then id + 1 else q.back) = back := ⟨_, rfl⟩
  have hback' : q.back ≤ back ∧ id < back ∧ (back = q.back ∨ back = id + 1) := by
    split_ifs at hback <;> omega
  have hmem : ∀ {x}, x ∈ Insert.insert id q.alloc ↔ x = id ∨ x ∈ A ∧ q.front ≤ x := fun {x} => by
    rw [Finset.mem_insert, h.alloc_eq, Finset.mem_filter]
  have hq : ∀ a ∈ Insert.insert id q.alloc, q.front ≤ a := fun a ha => by
    rcases hmem.1 ha with rfl | ⟨-, hle⟩
    · exact hid
    · exact hle
  have hadv : Advanced { q with back := back, alloc := Insert.insert id q.alloc }
      (q.record id) := by
    have := advanceLoop_spec (q := { q with back := back, alloc := Insert.insert id q.alloc })
      (lag { q with back := back, alloc := Insert.insert id q.alloc }) hq
    rw [ClientQueue.record, hback]
    exact this
  have hnot : ¬(q.record id).Behind := not_behind_advance _
  rw [Behind, not_or] at hnot
  obtain ⟨hnotMem, hnear⟩ := hnot
  have hb : (q.record id).back = back := hadv.back_eq
  have hf : q.front ≤ (q.record id).front := hadv.front_le
  rw [hadv.alloc_eq, Finset.mem_filter, not_and_or] at hnotMem
  rw [hb] at hnear
  refine ⟨hadv.enable_eq.trans h.enable, ?_, ⟨?_, fun a ha => ?_⟩, ?_, ?_, ?_,
    fun x h₁ h₂ h₃ => ?_⟩
  · rw [hb]
    rcases hback'.2.2 with heq | heq
    · rw [heq]
      exact h.back_mem.imp_right fun hm => Finset.mem_union_left _ hm
    · rw [heq, add_sub_cancel_right]
      exact .inr (Finset.mem_union_right _ (Finset.mem_singleton_self id))
  · have := h.lt_back.1
    omega
  · rw [hb]
    rcases Finset.mem_union.1 ha with ha | ha
    · have := h.lt_back.2 a ha
      omega
    · have := Finset.mem_singleton.1 ha
      omega
  · rw [hb]
    have := h.le_front.1
    omega
  · -- The loop ends at an id that is not recorded.
    rcases hnotMem with hnotMem | hle
    · intro hA
      refine hnotMem (hmem.2 ?_)
      rcases Finset.mem_union.1 hA with hA | hA
      · exact .inr ⟨hA, hf⟩
      · exact .inl (Finset.mem_singleton.1 hA)
    · exact absurd le_rfl hle
  · rw [hadv.alloc_eq]
    ext a
    rw [Finset.mem_filter, Finset.mem_filter, hmem, Finset.mem_union, Finset.mem_singleton]
    constructor
    · rintro ⟨rfl | ⟨ha, -⟩, hle⟩
      · exact ⟨.inr rfl, hle⟩
      · exact ⟨.inl ha, hle⟩
    · rintro ⟨ha | rfl, hle⟩
      · exact ⟨.inr ⟨ha, hf.trans hle⟩, hle⟩
      · exact ⟨.inl rfl, hle⟩
  · rw [hb] at h₂
    by_cases hx : q.front ≤ x
    · rcases hadv.passed x hx h₃ with hx' | hx'
      · rcases hmem.1 hx' with rfl | ⟨hA, -⟩
        · exact Finset.mem_union_right _ (Finset.mem_singleton_self _)
        · exact Finset.mem_union_left _ hA
      · dsimp only at hx'
        omega
    · exact Finset.mem_union_left _ (h.passed x h₁ (by omega) (by omega))

/-! ## The periods -/

theorem sameWindow_update (q : ClientQueue) (now : Time) : SameWindow q (q.update now) :=
  ⟨rfl, rfl, rfl, rfl⟩

theorem sameWindow_addref (q : ClientQueue) : SameWindow q q.addref := ⟨rfl, rfl, rfl, rfl⟩

theorem sameWindow_delref (q : ClientQueue) : SameWindow q q.delref := by
  rw [delref]
  split_ifs <;> exact ⟨rfl, rfl, rfl, rfl⟩

/-- A queue that was made for the id `b`, or re-enabled for it, and whose insertions since found it
    active: `A` are the ids that they accepted. -/
inductive Period (kind : QueueKind) (b : ℤ) : ClientQueue → Finset ℤ → Prop
  | new (now : Time) : Period kind b (new now b) ∅
  | reEnable (q : ClientQueue) : Period kind b (q.reEnable b) ∅
  /-- An inactive queue is re-enabled for the id that is inserted. -/
  | first (q : ClientQueue) (now : Time) : q.enable = true → q.isActive kind now = false →
      Period kind b (q.insert kind now b).2 {b}
  | insert {q : ClientQueue} {A : Finset ℤ} (now : Time) (id : ℤ) : Period kind b q A →
      q.isActive kind now = true →
      Period kind b (q.insert kind now id).2
        (if (q.insert kind now id).1 then A ∪ {id} else A)
  | update {q : ClientQueue} {A : Finset ℤ} (now : Time) : Period kind b q A →
      Period kind b (q.update now) A
  | addref {q : ClientQueue} {A : Finset ℤ} : Period kind b q A → Period kind b q.addref A
  | delref {q : ClientQueue} {A : Finset ℤ} : Period kind b q A → Period kind b q.delref A

/-- What `insert` does to an active queue: it refuses the id and keeps the window, or it records the
    id. -/
theorem insert_cases (kind : QueueKind) (now : Time) (id : ℤ) (he : q.enable = true)
    (ha : q.isActive kind now = true) :
    ((q.insert kind now id).1 = false ∧ SameWindow q (q.insert kind now id).2 ∧
      ¬(q.front ≤ id ∧ id ≤ q.front + 0x4000 ∧ id ∉ q.alloc)) ∨
    ((q.insert kind now id).1 = true ∧
      SameWindow ((q.update now).record id) (q.insert kind now id).2 ∧
      q.front ≤ id ∧ id ≤ q.front + 0x4000 ∧ id ∉ q.alloc) := by
  have hu : SameWindow q (q.update now) := sameWindow_update q now
  simp only [ClientQueue.insert, he, ha, Bool.not_true, Bool.false_eq_true, if_false]
  split_ifs with h₁ h₂ h₃
  · exact .inl ⟨rfl, hu, fun h => absurd h.1 (not_le.2 h₁)⟩
  · exact .inl ⟨rfl, hu, fun h => absurd h.2.1 (not_le.2 h₂)⟩
  · exact .inl ⟨rfl, hu, fun h => h.2.2 h₃⟩
  · refine .inr ⟨rfl, ?_, not_lt.1 h₁, not_lt.1 h₂, h₃⟩
    cases kind
    · exact sameWindow_addref _
    · exact ⟨rfl, rfl, rfl, rfl⟩

/-- An inactive queue is re-enabled, and then the id is recorded. -/
theorem insert_first (kind : QueueKind) (now : Time) (id : ℤ) (he : q.enable = true)
    (ha : q.isActive kind now = false) :
    SameWindow (((q.reEnable id).update now).record id) (q.insert kind now id).2 := by
  have h₁ : ¬id < id - 64 := by omega
  have h₂ : ¬id > id - 64 + 16384 := by omega
  simp only [ClientQueue.insert, he, ha, Bool.not_true, Bool.not_false, Bool.false_eq_true,
    if_false, if_true, ClientQueue.update, ClientQueue.reEnable, h₁, h₂, Finset.notMem_empty]
  cases kind
  · exact sameWindow_addref _
  · exact ⟨rfl, rfl, rfl, rfl⟩

/-- Within the window, the accepted ids are the recorded ones. -/
theorem Window.mem_alloc (h : Window b A q) {id : ℤ} (hid : q.front ≤ id) :
    id ∈ q.alloc ↔ id ∈ A := by
  rw [h.alloc_eq, Finset.mem_filter]
  exact ⟨fun hm => hm.1, fun hm => ⟨hm, hid⟩⟩

theorem Period.window (h : Period kind b q A) : Window b A q := by
  induction h with
  | new now => exact window_empty rfl rfl rfl rfl
  | reEnable q => exact window_empty rfl rfl rfl rfl
  | first q now he ha =>
    have hw : Window b ∅ ((q.reEnable b).update now) := window_empty rfl rfl rfl rfl
    have hle : ((q.reEnable b).update now).front ≤ b := show b - 64 ≤ b by omega
    rw [← Finset.empty_union {b}]
    exact (hw.record hle).congr (insert_first kind now b he ha)
  | @insert q A now id _ ha ih =>
    rcases insert_cases kind now id ih.enable ha with ⟨hf, hs, -⟩ | ⟨ht, hs, hle, -, -⟩
    · rw [hf, if_neg Bool.false_ne_true]
      exact ih.congr hs
    · rw [ht, if_pos rfl]
      exact ((ih.congr (sameWindow_update q now)).record hle).congr hs
  | @update q A now _ ih => exact ih.congr (sameWindow_update q now)
  | @addref q A _ ih => exact ih.congr (sameWindow_addref q)
  | @delref q A _ ih => exact ih.congr (sameWindow_delref q)

/-! ## What the window says -/

/-- `back` is one above the greatest of `b` and the accepted ids. -/
theorem Window.isGreatest (h : Window b A q) :
    IsGreatest (Insert.insert b (A : Set ℤ)) (q.back - 1) := by
  refine ⟨?_, ?_⟩
  · rcases h.back_mem with hb | hA
    · rw [hb]
      exact Set.mem_insert b _
    · exact Set.mem_insert_of_mem b hA
  · rintro x (rfl | hx)
    · have := h.lt_back.1
      omega
    · have := h.lt_back.2 x hx
      omega

/-- Where the search for the front starts. -/
theorem Window.isGreatest_start (h : Window b A q) :
    IsGreatest (Insert.insert (b - 64) ((fun a => a + 1 - 0x1000) '' (A : Set ℤ)))
      (max (b - 64) (q.back - 0x1000)) := by
  refine ⟨?_, ?_⟩
  · rcases h.back_mem with hb | hA
    · rw [max_eq_left (by omega)]
      exact Set.mem_insert (b - 64) _
    · rcases max_choice (b - 64) (q.back - 0x1000) with heq | heq
      · rw [heq]
        exact Set.mem_insert (b - 64) _
      · rw [heq]
        exact Set.mem_insert_of_mem _ ⟨q.back - 1, hA, by dsimp only; omega⟩
  · rintro x (rfl | ⟨a, ha, rfl⟩)
    · exact le_max_left _ _
    · have := h.lt_back.2 a ha
      exact le_max_of_le_right (by dsimp only; omega)

/-- The front is the least id from there on that is not accepted. -/
theorem Window.isLeast (h : Window b A q) :
    IsLeast {x | max (b - 64) (q.back - 0x1000) ≤ x ∧ x ∉ A} q.front := by
  refine ⟨⟨max_le h.le_front.1 h.le_front.2, h.front_notMem⟩, ?_⟩
  rintro x ⟨hm, hx⟩
  by_contra hlt
  exact hx (h.passed x (le_of_max_le_left hm) (le_of_max_le_right hm) (not_le.1 hlt))

/-- What the queue is after any insertion of a period, and what the next insertion does. -/
theorem exact_window (h : Period kind b q A) :
    IsGreatest (Insert.insert b (A : Set ℤ)) (q.back - 1) ∧
    (b ∈ A → IsGreatest (A : Set ℤ) (q.back - 1)) ∧
    (∃ m, IsGreatest (Insert.insert (b - 64) ((fun a => a + 1 - 0x1000) '' (A : Set ℤ))) m ∧
      IsLeast {x | m ≤ x ∧ x ∉ A} q.front) ∧
    q.alloc = A.filter (q.front ≤ ·) ∧
    (∀ now id, q.isActive kind now = true →
      ((q.insert kind now id).1 = true ↔
        q.front ≤ id ∧ id ≤ q.front + 0x4000 ∧ id ∉ A) ∧
      ((q.insert kind now id).1 = false → SameWindow q (q.insert kind now id).2)) ∧
    ∀ q' : ClientQueue, ∃ n, q'.advance = advanceStep^[n] q' ∧
      (∀ k < n, (advanceStep^[k] q').Behind) ∧ ¬(advanceStep^[n] q').Behind := by
  have hw : Window b A q := h.window
  refine ⟨hw.isGreatest, fun hb => ?_, ⟨_, hw.isGreatest_start, hw.isLeast⟩, hw.alloc_eq,
    fun now id ha => ?_, advance_iterate⟩
  · have hg := hw.isGreatest
    rwa [Set.insert_eq_of_mem (Finset.mem_coe.2 hb)] at hg
  · rcases insert_cases kind now id hw.enable ha with ⟨hf, hs, hnot⟩ | ⟨ht, -, hle, hge, hm⟩
    · refine ⟨⟨fun h => ?_, fun ⟨hle, hge, hA⟩ => ?_⟩, fun _ => hs⟩
      · rw [hf] at h
        cases h
      · exact absurd ⟨hle, hge, fun hm => hA ((hw.mem_alloc hle).1 hm)⟩ hnot
    · refine ⟨⟨fun _ => ⟨hle, hge, fun hA => hm ((hw.mem_alloc hle).2 hA)⟩, fun _ => ht⟩,
        fun hf => ?_⟩
      rw [ht] at hf
      cases hf

/-- A new queue that has accepted the id that it was made for, and another one. -/
theorem exact_window_two : ∃ q : ClientQueue, q.back = 106 ∧
    IsGreatest (({100} ∪ {105} : Finset ℤ) : Set ℤ) (q.back - 1) := by
  have hfirst : Period .refCounted 100 ((new 0 100).insert .refCounted 0 100).2 {100} :=
    .first (new 0 100) 0 rfl (by decide +kernel)
  have hsecond := hfirst.insert 1 105 (by decide +kernel)
  rw [if_pos (by decide +kernel)] at hsecond
  exact ⟨_, by decide +kernel, (exact_window hsecond).2.1 (by decide)⟩

/-- A queue of `auth.py` need not be made for the first id that is inserted: then `back` stays above
    an id that was never accepted. -/
theorem not_back_of_accepted : ¬∀ (kind : QueueKind) (b : ℤ) (q : ClientQueue) (A : Finset ℤ),
    Period kind b q A → A.Nonempty → IsGreatest (A : Set ℤ) (q.back - 1) := by
  intro h
  have hnew : Period .timed 100 (new 0 100) ∅ := .new 0
  have hperiod := hnew.insert 1 90 (by decide +kernel)
  rw [if_pos (by decide +kernel)] at hperiod
  have hmem := (h _ _ _ _ hperiod ⟨90, by decide⟩).1
  rw [Finset.mem_coe] at hmem
  exact absurd hmem (by decide +kernel)

end ClientQueue

end ShadowsocksR

import Mathlib.Data.List.Basic

/-!
# Runs of a deterministic system

A system is a step function `σ → ℓ → Option σ`: in a state, a label leads to at
most one state. A run is a sequence of labels.

* `exec`: the state after a run;
* `Throughout`: a condition on every step taken along a run;
* `exec_invariant`: what every such step preserves holds after the run;
* `throughout_iff`: when a condition on the steps is the exact one for a property.
-/

namespace ShadowsocksR

namespace Run

variable {σ ℓ : Type} {step : σ → ℓ → Option σ}

/-- The state after a run, if every label of it was possible. -/
def exec (step : σ → ℓ → Option σ) (s : σ) (ls : List ℓ) : Option σ := ls.foldlM step s

@[simp] theorem exec_nil (s : σ) : exec step s [] = some s := rfl

theorem exec_cons (s : σ) (l : ℓ) (ls : List ℓ) :
    exec step s (l :: ls) = (step s l).bind fun s' => exec step s' ls := rfl

theorem exec_append (s : σ) (ls₁ ls₂ : List ℓ) :
    exec step s (ls₁ ++ ls₂) = (exec step s ls₁).bind fun s' => exec step s' ls₂ :=
  List.foldlM_append

theorem exec_cons_of_step {s s' : σ} {l : ℓ} (h : step s l = some s') (ls : List ℓ) :
    exec step s (l :: ls) = exec step s' ls := by
  rw [exec_cons, h]; rfl

theorem exec_singleton (s : σ) (l : ℓ) : exec step s [l] = step s l := by
  rw [exec_cons]; cases step s l <;> rfl

theorem exec_cons_eq_some {s s' : σ} {l : ℓ} {ls : List ℓ} :
    exec step s (l :: ls) = some s' ↔ ∃ t, step s l = some t ∧ exec step t ls = some s' := by
  rw [exec_cons, Option.bind_eq_some_iff]

theorem exec_append_eq_some {s s' : σ} {ls₁ ls₂ : List ℓ} :
    exec step s (ls₁ ++ ls₂) = some s' ↔
      ∃ t, exec step s ls₁ = some t ∧ exec step t ls₂ = some s' := by
  rw [exec_append, Option.bind_eq_some_iff]

/-- Every step taken along the run satisfies a condition on the state before it and its label. -/
def Throughout (step : σ → ℓ → Option σ) (good : σ → ℓ → Prop) (s : σ) (ls : List ℓ) : Prop :=
  ∀ before l after s', ls = before ++ l :: after → exec step s before = some s' → good s' l

variable {good : σ → ℓ → Prop}

theorem Throughout.head {s : σ} {l : ℓ} {ls : List ℓ} (h : Throughout step good s (l :: ls)) :
    good s l := h [] l ls s rfl rfl

theorem Throughout.tail {s s' : σ} {l : ℓ} {ls : List ℓ} (h : Throughout step good s (l :: ls))
    (hs : step s l = some s') : Throughout step good s' ls :=
  fun before l' after t hls ht => h (l :: before) l' after t (by rw [hls]; rfl)
    (by rw [exec_cons_of_step hs]; exact ht)

theorem throughout_nil (s : σ) : Throughout step good s [] :=
  fun before l after _ h => absurd h (by simp)

theorem Throughout.cons {s : σ} {l : ℓ} {ls : List ℓ} (h : good s l)
    (hls : ∀ s', step s l = some s' → Throughout step good s' ls) :
    Throughout step good s (l :: ls) := by
  intro before l' after t heq ht
  cases before with
  | nil =>
    cases heq
    cases ht
    exact h
  | cons l₁ before =>
    cases heq
    obtain ⟨s', hs', ht'⟩ := exec_cons_eq_some.1 ht
    exact hls s' hs' before l' after t rfl ht'

theorem throughout_cons_iff {s : σ} {l : ℓ} {ls : List ℓ} :
    Throughout step good s (l :: ls) ↔
      good s l ∧ ∀ s', step s l = some s' → Throughout step good s' ls :=
  ⟨fun h => ⟨h.head, fun _ hs => h.tail hs⟩, fun h => .cons h.1 h.2⟩

/-- A condition that can be decided on every step can be decided on every run. -/
instance decidableThroughout [∀ s l, Decidable (good s l)] :
    ∀ s ls, Decidable (Throughout step good s ls)
  | s, [] => isTrue (throughout_nil s)
  | s, l :: ls =>
    have : Decidable (∀ s', step s l = some s' → Throughout step good s' ls) :=
      match step s l with
      | none => isTrue fun _ h => absurd h nofun
      | some t =>
        have := decidableThroughout t ls
        decidable_of_iff (Throughout step good t ls)
          ⟨fun h _ hs => Option.some.inj hs ▸ h, fun h => h t rfl⟩
    decidable_of_iff _ throughout_cons_iff.symm

theorem Throughout.append {s s' : σ} {ls₁ ls₂ : List ℓ} (h : Throughout step good s ls₁)
    (hs : exec step s ls₁ = some s') (h' : Throughout step good s' ls₂) :
    Throughout step good s (ls₁ ++ ls₂) := by
  induction ls₁ generalizing s with
  | nil => cases hs; exact h'
  | cons l ls ih =>
    obtain ⟨t, ht, hls⟩ := exec_cons_eq_some.1 hs
    refine .cons h.head fun t' ht' => ?_
    cases ht.symm.trans ht'
    exact ih (h.tail ht) hls

theorem Throughout.left {s : σ} {ls₁ ls₂ : List ℓ} (h : Throughout step good s (ls₁ ++ ls₂)) :
    Throughout step good s ls₁ :=
  fun before l after t hls => h before l (after ++ ls₂) t (by rw [hls]; simp)

theorem Throughout.right {s s' : σ} {ls₁ ls₂ : List ℓ} (h : Throughout step good s (ls₁ ++ ls₂))
    (hs : exec step s ls₁ = some s') : Throughout step good s' ls₂ :=
  fun before l after t hls ht => h (ls₁ ++ before) l after t (by rw [hls]; simp)
    (exec_append_eq_some.2 ⟨s', hs, ht⟩)

theorem Throughout.mono {good' : σ → ℓ → Prop} {s : σ} {ls : List ℓ}
    (h : Throughout step good s ls) (hgood : ∀ s l, good s l → good' s l) :
    Throughout step good' s ls :=
  fun before l after t hls ht => hgood t l (h before l after t hls ht)

theorem throughout_congr {good' : σ → ℓ → Prop} (h : ∀ s l, good s l ↔ good' s l) {s : σ}
    {ls : List ℓ} : Throughout step good s ls ↔ Throughout step good' s ls :=
  ⟨fun ht => ht.mono fun s l => (h s l).1, fun ht => ht.mono fun s l => (h s l).2⟩

theorem Throughout.and {good' : σ → ℓ → Prop} {s : σ} {ls : List ℓ}
    (h : Throughout step good s ls) (h' : Throughout step good' s ls) :
    Throughout step (fun s l => good s l ∧ good' s l) s ls :=
  fun before l after t hls ht => ⟨h before l after t hls ht, h' before l after t hls ht⟩

theorem throughout_of_forall (h : ∀ s l, good s l) (s : σ) (ls : List ℓ) :
    Throughout step good s ls := fun _ l _ s' _ _ => h s' l

/-- What every step of the run preserves holds after it. -/
theorem exec_invariant {P : σ → Prop}
    (hstep : ∀ {s l s'}, P s → good s l → step s l = some s' → P s') {s s' : σ} {ls : List ℓ}
    (hP : P s) (hgood : Throughout step good s ls) (h : exec step s ls = some s') : P s' := by
  induction ls generalizing s with
  | nil => cases h; exact hP
  | cons l ls ih =>
    obtain ⟨t, ht, hls⟩ := exec_cons_eq_some.1 h
    exact ih (hstep hP hgood.head ht) (hgood.tail ht) hls

/-- When a condition decides whether a step keeps a property, it decides whether a run does, also
    with an invariant of all steps. -/
theorem throughout_iff {I P : σ → Prop} {s : σ}
    (hinv : ∀ {s l s'}, I s → step s l = some s' → I s')
    (hstep : ∀ {s l s'}, I s → P s → step s l = some s' → (P s' ↔ good s l))
    (hnone : ∀ {s l}, step s l = none → good s l) (hI : I s) (hP : P s) (ls : List ℓ) :
    Throughout step (fun s l => ∀ s', step s l = some s' → P s') s ls ↔
      Throughout step good s ls := by
  induction ls generalizing s with
  | nil => exact iff_of_true (throughout_nil s) (throughout_nil s)
  | cons l ls ih =>
    cases hs : step s l with
    | none =>
      refine iff_of_true (.cons (fun s' hs' => ?_) fun s' hs' => ?_)
        (.cons (hnone hs) fun s' hs' => ?_) <;> cases hs.symm.trans hs'
    | some s₁ =>
      have hI₁ := hinv hI hs
      constructor
      · intro h
        have h₁ := h.head s₁ hs
        refine .cons ((hstep hI hP hs).1 h₁) fun s' hs' => ?_
        cases hs.symm.trans hs'
        exact (ih hI₁ h₁).1 (h.tail hs)
      · intro h
        have h₁ := (hstep hI hP hs).2 h.head
        refine .cons (fun s' hs' => ?_) fun s' hs' => ?_ <;> cases hs.symm.trans hs'
        · exact h₁
        · exact (ih hI₁ h₁).2 (h.tail hs)

/-- An invariant of all steps holds after every run. -/
theorem exec_invariant' {P : σ → Prop} (hstep : ∀ {s l s'}, P s → step s l = some s' → P s')
    {s s' : σ} {ls : List ℓ} (hP : P s) (h : exec step s ls = some s') : P s' :=
  have hgood : Throughout step (fun _ _ => True) s ls :=
    throughout_of_forall (fun _ _ => trivial) _ _
  exec_invariant (fun hP _ => hstep hP) hP hgood h

/-- When the steps of a run that keep an invariant are possible, so is the run. -/
theorem exec_isSome_of_throughout {P : σ → Prop}
    (hstep : ∀ s l, P s → good s l → ∃ s', step s l = some s' ∧ P s') {s : σ} (hP : P s)
    {ls : List ℓ} (hgood : Throughout step good s ls) : ∃ s', exec step s ls = some s' ∧ P s' := by
  induction ls generalizing s with
  | nil => exact ⟨s, rfl, hP⟩
  | cons l ls ih =>
    obtain ⟨t, ht, hPt⟩ := hstep s l hP hgood.head
    obtain ⟨s', hs', hPs'⟩ := ih hPt (hgood.tail ht)
    exact ⟨s', by rw [exec_cons_of_step ht]; exact hs', hPs'⟩

/-- When steps that keep an invariant are always possible, so are the runs. -/
theorem exec_isSome {P : σ → Prop} (hstep : ∀ s l, P s → ∃ s', step s l = some s' ∧ P s') {s : σ}
    (hP : P s) (ls : List ℓ) : ∃ s', exec step s ls = some s' ∧ P s' :=
  have hgood : Throughout step (fun _ _ => True) s ls :=
    throughout_of_forall (fun _ _ => trivial) _ _
  exec_isSome_of_throughout (fun s l hP _ => hstep s l hP) hP hgood

end Run

end ShadowsocksR

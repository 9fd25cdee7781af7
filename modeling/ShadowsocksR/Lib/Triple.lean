import Mathlib.Logic.Basic

/-!
# Triples of programs that can raise

A program with a state and exceptions keeps, when it raises, the state it has
reached (`EStateM`). A triple says in which states it returns, and in which
states it raises what.

* `Triple`: a precondition, and a postcondition for each way to end;
* `Triple.bind`, `Triple.tryCatch` and so on: one rule for each way to make a
  program from others;
* `after`: the state in which a program ends;
* `Never`: the postcondition of a program that does not raise.
-/

namespace ShadowsocksR

universe u

variable {ε σ α β : Type u}

/-- From every state with `P` the program returns a value with `Q`, or raises an exception with
    `E`. -/
def Triple (P : σ → Prop) (m : EStateM ε σ α) (Q : α → σ → Prop) (E : ε → σ → Prop) : Prop :=
  ∀ s, P s → match m s with
    | .ok a s' => Q a s'
    | .error e s' => E e s'

/-- The state in which a program ends. -/
def after (m : EStateM ε σ α) (s : σ) : σ :=
  match m s with
  | .ok _ s' => s'
  | .error _ s' => s'

theorem tryCatch_apply (m : EStateM ε σ α) (f : ε → EStateM ε σ α) (s : σ) :
    tryCatch m f s = match m s with
      | .ok a s' => .ok a s'
      | .error e s' => f e s' := by
  change EStateM.tryCatch m f s = _
  delta EStateM.tryCatch
  cases m s <;> rfl

/-- A program that goes on after a call that returns. -/
theorem bind_of_ok {m : EStateM ε σ α} {f : α → EStateM ε σ β} {s s' : σ} {a : α}
    (h : m s = .ok a s') : (m >>= f) s = f a s' := by
  change EStateM.bind m f s = _
  rw [EStateM.bind, h]

/-- A program that is left by the exception of a call. -/
theorem bind_of_error {m : EStateM ε σ α} {f : α → EStateM ε σ β} {s s' : σ} {e : ε}
    (h : m s = .error e s') : (m >>= f) s = .error e s' := by
  change EStateM.bind m f s = _
  rw [EStateM.bind, h]

/-- The postcondition of a program that does not raise. -/
def Never : ε → σ → Prop := fun _ _ => False

namespace Triple

variable {P P' : σ → Prop} {Q Q' : α → σ → Prop} {E E' : ε → σ → Prop}
  {m m' : EStateM ε σ α}

theorem ok {s s' : σ} {a : α} (h : Triple P m Q E) (hs : P s) (hm : m s = .ok a s') : Q a s' := by
  have := h s hs
  rwa [hm] at this

theorem error {s s' : σ} {e : ε} (h : Triple P m Q E) (hs : P s) (hm : m s = .error e s') :
    E e s' := by
  have := h s hs
  rwa [hm] at this

/-- How a program can end. -/
theorem cases {s : σ} (h : Triple P m Q E) (hs : P s) :
    (∃ a s', m s = .ok a s' ∧ Q a s') ∨ ∃ e s', m s = .error e s' ∧ E e s' := by
  cases hm : m s with
  | ok a s' => exact .inl ⟨a, s', rfl, h.ok hs hm⟩
  | error e s' => exact .inr ⟨e, s', rfl, h.error hs hm⟩

/-- What holds however a program ends holds of its last state. -/
theorem after {I : σ → Prop} (h : Triple P m (fun _ => I) fun _ => I) {s : σ} (hs : P s) :
    I (after m s) := by
  have hm := h s hs
  rw [ShadowsocksR.after]
  cases hr : m s with
  | ok a s' =>
    rw [hr] at hm
    exact hm
  | error e s' =>
    rw [hr] at hm
    exact hm

theorem of_after {I : σ → Prop} (h : ∀ s, P s → I (ShadowsocksR.after m s)) :
    Triple P m (fun _ => I) fun _ => I := by
  intro s hs
  have hm := h s hs
  rw [ShadowsocksR.after] at hm
  cases hr : m s with
  | ok a s' =>
    rw [hr] at hm
    exact hm
  | error e s' =>
    rw [hr] at hm
    exact hm

theorem conseq (h : Triple P' m Q' E') (hP : ∀ s, P s → P' s) (hQ : ∀ a s, Q' a s → Q a s)
    (hE : ∀ e s, E' e s → E e s) : Triple P m Q E := by
  intro s hs
  have hm := h s (hP s hs)
  cases hr : m s with
  | ok a s' =>
    rw [hr] at hm
    exact hQ a s' hm
  | error e s' =>
    rw [hr] at hm
    exact hE e s' hm

theorem pre {J : σ → Prop} (h : Triple J m Q E) (hP : ∀ s, P s → J s) : Triple P m Q E :=
  h.conseq hP (fun _ _ => id) fun _ _ => id

theorem post (h : Triple P m Q' E) (hQ : ∀ a s, Q' a s → Q a s) : Triple P m Q E :=
  h.conseq (fun _ => id) hQ fun _ _ => id

theorem raises (h : Triple P m Q E') (hE : ∀ e s, E' e s → E e s) : Triple P m Q E :=
  h.conseq (fun _ => id) (fun _ _ => id) hE

/-- What does not raise satisfies every postcondition of exceptions. -/
theorem never (h : Triple P m Q Never) : Triple P m Q E := h.raises fun _ _ => False.elim

theorem pure {a : α} (h : ∀ s, P s → Q a s) : Triple P (pure a) Q E := h

theorem throw {e : ε} (h : ∀ s, P s → E e s) : Triple P (throw e) Q E := h

theorem bind {R : α → σ → Prop} {Q : β → σ → Prop} {f : α → EStateM ε σ β}
    (h : Triple P m R E) (hf : ∀ a, Triple (R a) (f a) Q E) : Triple P (m >>= f) Q E := by
  intro s hs
  have hm := h s hs
  change match EStateM.bind m f s with | .ok a s' => Q a s' | .error e s' => E e s'
  rw [EStateM.bind]
  cases hr : m s with
  | ok a s' =>
    rw [hr] at hm
    exact hf a s' hm
  | error e s' =>
    rw [hr] at hm
    exact hm

theorem map {Q : β → σ → Prop} {f : α → β} (h : Triple P m (fun a => Q (f a)) E) :
    Triple P (f <$> m) Q E := by
  intro s hs
  have hm := h s hs
  change match EStateM.map f m s with | .ok a s' => Q a s' | .error e s' => E e s'
  rw [EStateM.map]
  cases hr : m s with
  | ok a s' =>
    rw [hr] at hm
    exact hm
  | error e s' =>
    rw [hr] at hm
    exact hm

/-- A call that reads the state: the program after it is proved for every state. -/
theorem get_bind {Q : β → σ → Prop} {f : σ → EStateM ε σ β}
    (h : ∀ s, P s → Triple (· = s) (f s) Q E) : Triple P (get >>= f) Q E :=
  fun s hs => h s hs s rfl

theorem modify {f : σ → σ} {Q : PUnit → σ → Prop} (h : ∀ s, P s → Q ⟨⟩ (f s)) :
    Triple P (modify f) Q E := h

theorem ite {c : Prop} [Decidable c] (h : c → Triple P m Q E) (h' : ¬c → Triple P m' Q E) :
    Triple P (if c then m else m') Q E := by
  by_cases hc : c
  · rw [if_pos hc]
    exact h hc
  · rw [if_neg hc]
    exact h' hc

/-- A program that goes on unless a condition makes it raise an exception. -/
theorem throwIf {c : Prop} [Decidable c] {e : ε} {m : EStateM ε σ α}
    (h : c → ∀ s, P s → E e s) (h' : ¬c → Triple P m Q E) :
    Triple P (if c then throwThe ε e >>= fun _ : PUnit => m else m) Q E :=
  .ite (fun hc => .bind (R := fun _ _ => False) (fun s hs => h hc s hs) fun _ _ hs => hs.elim) h'

/-- An exception is handled in the state in which it was raised. -/
theorem tryCatch {R : ε → σ → Prop} {f : ε → EStateM ε σ α} (h : Triple P m Q R)
    (hf : ∀ e, Triple (R e) (f e) Q E) : Triple P (tryCatch m f) Q E := by
  intro s hs
  have hm := h s hs
  rw [tryCatch_apply]
  cases hr : m s with
  | ok a s' =>
    rw [hr] at hm
    exact hm
  | error e s' =>
    rw [hr] at hm
    exact hf e s' hm

theorem and {Q' : α → σ → Prop} {E' : ε → σ → Prop} (h : Triple P m Q E) (h' : Triple P' m Q' E') :
    Triple (fun s => P s ∧ P' s) m (fun a s => Q a s ∧ Q' a s) fun e s => E e s ∧ E' e s := by
  intro s hs
  have hm := h s hs.1
  have hm' := h' s hs.2
  cases hr : m s with
  | ok a s' =>
    rw [hr] at hm hm'
    exact ⟨hm, hm'⟩
  | error e s' =>
    rw [hr] at hm hm'
    exact ⟨hm, hm'⟩

/-- A part of the precondition that does not depend on the state. -/
theorem intro_pre {p : Prop} (h : p → Triple P m Q E) : Triple (fun s => p ∧ P s) m Q E :=
  fun s hs => h hs.1 s hs.2

end Triple

end ShadowsocksR

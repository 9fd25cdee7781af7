import ShadowsocksR.Lib.Triple

/-!
# Data refinement

A program with a state and exceptions runs on a representation of some data, and
another one on the data itself.

* `Refines`: from a state that represents another one, both programs return the
  same value, or raise the same exception, and the states go on to do so;
* `Refines.bind` and so on: one rule for each way to make a program from others;
* `results`: what the calls of a run end with, one after the other, whatever they
  raise;
* `Refines.results_eq`: no run can tell the representation from the data.
-/

namespace ShadowsocksR

variable {ε σ τ α β ι : Type}

/-- Two programs have ended in the same way, in related states. -/
inductive SameEnd (R : σ → τ → Prop) : EStateM.Result ε σ α → EStateM.Result ε τ α → Prop
  | ok (a : α) {s : σ} {t : τ} (h : R s t) : SameEnd R (.ok a s) (.ok a t)
  | error (e : ε) {s : σ} {t : τ} (h : R s t) : SameEnd R (.error e s) (.error e t)

theorem SameEnd.of_ok {R : σ → τ → Prop} {m : EStateM ε σ α} {n : EStateM ε τ α} {a : α} {s s' : σ}
    {t t' : τ} (hm : m s = .ok a s') (hn : n t = .ok a t') (h : R s' t') :
    SameEnd R (m s) (n t) := by
  rw [hm, hn]
  exact .ok a h

theorem SameEnd.of_error {R : σ → τ → Prop} {m : EStateM ε σ α} {n : EStateM ε τ α} {e : ε}
    {s s' : σ} {t t' : τ} (hm : m s = .error e s') (hn : n t = .error e t') (h : R s' t') :
    SameEnd R (m s) (n t) := by
  rw [hm, hn]
  exact .error e h

/-- From related states, two programs end in the same way, in related states. -/
def Refines (R : σ → τ → Prop) (m : EStateM ε σ α) (n : EStateM ε τ α) : Prop :=
  ∀ s t, R s t → SameEnd R (m s) (n t)

/-- A function of what a program returns. -/
theorem map_of_ok {m : EStateM ε σ α} {f : α → β} {a : α} {s s' : σ} (h : m s = .ok a s') :
    (f <$> m) s = .ok (f a) s' := by
  rw [map_eq_pure_bind]
  exact bind_of_ok h

theorem map_of_error {m : EStateM ε σ α} {f : α → β} {e : ε} {s s' : σ} (h : m s = .error e s') :
    (f <$> m) s = .error e s' := by
  rw [map_eq_pure_bind]
  exact bind_of_error h

namespace Refines

variable {R : σ → τ → Prop} {m m' : EStateM ε σ α} {n n' : EStateM ε τ α}

theorem pure (a : α) : Refines (ε := ε) R (pure a) (pure a) := fun _ _ h => .ok a h

theorem throw (e : ε) : Refines R (throw e : EStateM ε σ α) (throw e : EStateM ε τ α) :=
  fun _ _ h => .error e h

theorem bind {f : α → EStateM ε σ β} {g : α → EStateM ε τ β} (h : Refines R m n)
    (hf : ∀ a, Refines R (f a) (g a)) : Refines R (m >>= f) (n >>= g) := by
  intro s t hst
  have hmn := h s t hst
  cases hm : m s with
  | ok a s' =>
    rw [hm] at hmn
    generalize hn : n t = r at hmn
    obtain ⟨_, hst'⟩ := hmn
    rw [bind_of_ok hm, bind_of_ok hn]
    exact hf a _ _ hst'
  | error e s' =>
    rw [hm] at hmn
    generalize hn : n t = r at hmn
    obtain - | ⟨_, hst'⟩ := hmn
    rw [bind_of_error hm, bind_of_error hn]
    exact .error e hst'

theorem map (f : α → β) (h : Refines R m n) : Refines R (f <$> m) (f <$> n) := by
  rw [map_eq_pure_bind, map_eq_pure_bind]
  exact h.bind fun a => pure (f a)

theorem ite {p : Prop} [Decidable p] (h : p → Refines R m n) (h' : ¬p → Refines R m' n') :
    Refines R (if p then m else m') (if p then n else n') := by
  split
  case isTrue hp => exact h hp
  case isFalse hp => exact h' hp

/-- A program that reads the state. -/
theorem get_bind {f : σ → EStateM ε σ α} {g : τ → EStateM ε τ α}
    (h : ∀ s t, R s t → Refines R (f s) (g t)) :
    Refines R (MonadState.get >>= f) (MonadState.get >>= g) :=
  fun s t hst => h s t hst s t hst

/-- A loop over a list. -/
theorem forM {f : ι → EStateM ε σ PUnit} {g : ι → EStateM ε τ PUnit} (is : List ι)
    (h : ∀ i, Refines R (f i) (g i)) : Refines R (is.forM f) (is.forM g) := by
  induction is with
  | nil => exact pure _
  | cons i is ih => exact (h i).bind fun _ => ih

/-- A list that is made by a loop. -/
theorem mapM {f : ι → EStateM ε σ α} {g : ι → EStateM ε τ α} (is : List ι)
    (h : ∀ i, Refines R (f i) (g i)) : Refines R (is.mapM f) (is.mapM g) := by
  induction is with
  | nil =>
    rw [List.mapM_nil, List.mapM_nil]
    exact pure _
  | cons i is ih =>
    rw [List.mapM_cons, List.mapM_cons]
    exact (h i).bind fun a => ih.bind fun as => pure (a :: as)

end Refines

/-! ## Runs -/

/-- The value or the exception that a program ends with. -/
def ending (m : EStateM ε σ α) (s : σ) : Except ε α :=
  match m s with
  | .ok a _ => .ok a
  | .error e _ => .error e

/-- What calls end with, one after the other. -/
def results (call : ι → EStateM ε σ α) (s : σ) : List ι → List (Except ε α)
  | [] => []
  | i :: is => ending (call i) s :: results call (after (call i) s) is

/-- The state after calls. -/
def afterAll (call : ι → EStateM ε σ α) (s : σ) (is : List ι) : σ :=
  is.foldl (fun s i => after (call i) s) s

namespace Refines

variable {R : σ → τ → Prop} {m : EStateM ε σ α} {n : EStateM ε τ α} {s : σ} {t : τ}

theorem ending_eq (h : Refines R m n) (hst : R s t) : ending m s = ending n t := by
  rw [ending, ending]
  generalize m s = r, n t = r', h s t hst = hmn
  cases hmn <;> rfl

theorem after (h : Refines R m n) (hst : R s t) :
    R (ShadowsocksR.after m s) (ShadowsocksR.after n t) := by
  rw [ShadowsocksR.after, ShadowsocksR.after]
  generalize m s = r, n t = r', h s t hst = hmn
  cases hmn <;> assumption

/-- All calls of a run end in the same way, and the last states are related. -/
theorem results_eq {call : ι → EStateM ε σ α} {call' : ι → EStateM ε τ α}
    (h : ∀ i, Refines R (call i) (call' i)) (hst : R s t) (is : List ι) :
    results call s is = results call' t is ∧ R (afterAll call s is) (afterAll call' t is) := by
  induction is generalizing s t with
  | nil => exact ⟨rfl, hst⟩
  | cons i is ih =>
    obtain ⟨hresults, hafter⟩ := ih ((h i).after hst)
    refine ⟨?_, hafter⟩
    rw [results, results, (h i).ending_eq hst, hresults]

end Refines

end ShadowsocksR

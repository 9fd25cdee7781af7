import ShadowsocksR.LruCache
import ShadowsocksR.Lib.Triple

/-!
# Caches with a close callback

An LRU cache that is a part of a state, with a callback that closes a value and may change the
state, and raise. `clear` calls it before it deletes the key of the value, `sweep` after that.

* `Kept`: such a cache;
* `Kept.clear`, `Kept.sweep`: the loops;
* `Kept.triple_clear`, `Kept.triple_sweep`: they keep what closing and deleting one value keeps.
-/

namespace ShadowsocksR

namespace LRUCache

variable {σ κ α : Type} [DecidableEq κ]

/-- The oldest key has a value, and a time. -/
theorem value?_of_first? {c : LRUCache κ α} {key : κ} (h : c.first? = some key) :
    ∃ lastT value, c.keysToLastTime.get? key = some lastT ∧ c.value? key = some value := by
  have hkey := Dict.contains_of_first? h
  obtain ⟨lastT, hlastT⟩ := Dict.contains_eq_true.1 hkey
  obtain ⟨value, hvalue⟩ := Dict.contains_eq_true.1 ((c.same_keys key).trans hkey)
  exact ⟨lastT, value, hlastT, hvalue⟩

/-- `get` returns the value of the key. -/
theorem fst_get (c : LRUCache κ α) (now : Time) (key : κ) : (c.get now key).1 = c.value? key := by
  cases h : c.value? key with
  | none => rw [get_eq_none h]
  | some value => rw [get_of_value? h]

/-- A cache in a state, with its `close_callback`. -/
structure Kept (σ κ α : Type) [DecidableEq κ] where
  cache : σ → LRUCache κ α
  setCache : LRUCache κ α → σ → σ
  closeCallback : α → EStateM PyExc σ Unit

namespace Kept

variable (k : Kept σ κ α)

/-- `get`, at the time `now` -/
def get (now : Time) (key : κ) : EStateM PyExc σ (Option α) := fun s =>
  .ok ((k.cache s).get now key).1 (k.setCache ((k.cache s).get now key).2 s)

/-- `__setitem__`, at the time `now` -/
def setItem (now : Time) (key : κ) (value : α) : EStateM PyExc σ Unit := fun s =>
  .ok () (k.setCache ((k.cache s).setItem now key value) s)

/-- `__delitem__` -/
def delItem (key : κ) : EStateM PyExc σ Unit := fun s =>
  match (k.cache s).delItem key with
  | none => .error .keyError s
  | some c => .ok () (k.setCache c s)

/-- The loop of `clear`. -/
def clearLoop (keep : ℕ) : ℕ → EStateM PyExc σ Unit
  | 0 => pure ()
  | cnt + 1 => MonadState.get >>= fun s =>
    if (k.cache s).len > keep then
      match (k.cache s).first? with
      | none => pure ()
      | some key =>
        match (k.cache s).value? key with
        | none => throw .keyError
        | some value => do
          k.closeCallback value
          k.delItem key
          clearLoop keep cnt
    else pure ()

/-- `clear`; every turn of its loop deletes a key. -/
def clear (keep : ℕ) : EStateM PyExc σ Unit := fun s => k.clearLoop keep (k.cache s).len s

/-- The loop of `sweep`. -/
def sweepLoop (now : Time) : ℕ → EStateM PyExc σ Unit
  | 0 => pure ()
  | cnt + 1 => MonadState.get >>= fun s =>
    match (k.cache s).first? with
    | none => pure ()
    | some key =>
      match (k.cache s).keysToLastTime.get? key, (k.cache s).value? key with
      | some lastT, some value =>
        if now - lastT ≤ (k.cache s).timeout then pure ()
        else do
          k.delItem key
          k.closeCallback value
          sweepLoop now cnt
      | _, _ => throw .keyError

/-- `sweep`; `SWEEP_MAX_ITEMS` is 1024. -/
def sweep (now : Time) : EStateM PyExc σ Unit := k.sweepLoop now 1024

variable {k} {I : σ → Prop} {E : PyExc → σ → Prop}

/-- What closing a value and deleting its key keeps, `clear` keeps. -/
theorem triple_clear (h : ∀ key value, Triple (fun s => I s ∧ (k.cache s).value? key = some value)
    (do k.closeCallback value; k.delItem key) (fun _ => I) E) (keep : ℕ) :
    Triple I (k.clear keep) (fun _ => I) E := by
  have hloop (cnt : ℕ) : Triple I (k.clearLoop keep cnt) (fun _ => I) E := by
    induction cnt with
    | zero => exact .pure fun _ => id
    | succ cnt ih =>
      refine .get_bind fun s hs => .ite (fun _ => ?_) fun _ => .pure fun _ ht => ht ▸ hs
      cases hfirst : (k.cache s).first? with
      | none => exact .pure fun _ ht => ht ▸ hs
      | some key =>
        obtain ⟨-, value, -, hvalue⟩ := value?_of_first? hfirst
        dsimp only
        rw [hvalue]
        have hone := (h key value).bind fun _ => ih
        rw [bind_assoc] at hone
        exact hone.pre fun t ht => ht ▸ ⟨hs, hvalue⟩
  exact fun s hs => hloop _ s hs

/-- What deleting a key and closing its value keeps, `sweep` keeps. -/
theorem triple_sweep (h : ∀ key value, Triple (fun s => I s ∧ (k.cache s).value? key = some value)
    (do k.delItem key; k.closeCallback value) (fun _ => I) E) (now : Time) :
    Triple I (k.sweep now) (fun _ => I) E := by
  rw [sweep]
  induction 1024 with
  | zero => exact .pure fun _ => id
  | succ cnt ih =>
    refine .get_bind fun s hs => ?_
    cases hfirst : (k.cache s).first? with
    | none => exact .pure fun _ ht => ht ▸ hs
    | some key =>
      obtain ⟨lastT, value, hlastT, hvalue⟩ := value?_of_first? hfirst
      dsimp only
      rw [hlastT, hvalue]
      refine .ite (fun _ => .pure fun _ ht => ht ▸ hs) fun _ => ?_
      have hone := (h key value).bind fun _ => ih
      rw [bind_assoc] at hone
      exact hone.pre fun t ht => ht ▸ ⟨hs, hvalue⟩

end Kept

end LRUCache

end ShadowsocksR

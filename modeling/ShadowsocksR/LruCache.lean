import ShadowsocksR.Common
import ShadowsocksR.Lib.Dict

/-!
# The LRU cache

`lru_cache.LRUCache`: a dictionary `_store` and an ordered dictionary
`_keys_to_last_time` on the same keys, the least recently used key first.
Reading a key is a write: it moves the key to the end of the order, with the
current time. The keys agreeing is part of the type.

* `getItem`, `setItem`, `delItem` are `__getitem__`, `__setitem__` and
  `__delitem__`, a `KeyError` being `none`;
* `value?` reads a value without touching the order, and `mutate` changes a
  stored object in place: what holding a reference to it does;
* `order_getItem`, `order_setItem`, `order_delItem`: the order after each.
-/

namespace ShadowsocksR

/-- `lru_cache.LRUCache`. -/
structure LRUCache (κ α : Type) [DecidableEq κ] where
  timeout : Time := 60
  store : Dict κ α := Dict.empty
  keysToLastTime : Dict κ Time := Dict.empty
  /-- `_store` and `_keys_to_last_time` have the same keys. -/
  same_keys : ∀ k, store.contains k = keysToLastTime.contains k := by intro; rfl

namespace LRUCache

variable {κ α : Type} [DecidableEq κ]

/-- The value at a key, without touching the order. -/
def value? (c : LRUCache κ α) (key : κ) : Option α := c.store.get? key

/-- The keys, the least recently used first. -/
def order (c : LRUCache κ α) : List κ := c.keysToLastTime.keys

/-- `__contains__` -/
def contains (c : LRUCache κ α) (key : κ) : Bool := c.store.contains key

/-- `__len__` -/
def len (c : LRUCache κ α) : ℕ := c.store.size

/-- `first`: the least recently used key. -/
def first? (c : LRUCache κ α) : Option κ := c.keysToLastTime.first?

/-- Moving a present key to the end of the order, used at the time `t`. -/
def touch (c : LRUCache κ α) (t : Time) (key : κ) (h : c.contains key = true) : LRUCache κ α where
  timeout := c.timeout
  store := c.store
  keysToLastTime := (c.keysToLastTime.del key).set key t
  same_keys k := by
    rw [Dict.contains_set, Dict.contains_del, ← c.same_keys]
    have hc : c.store.contains key = true := h
    by_cases hk : k = key
    · simp [hk, hc]
    · simp [hk]

/-- `__getitem__` at the time `t`: the value, the key being moved to the end. -/
def getItem (c : LRUCache κ α) (t : Time) (key : κ) : Option (α × LRUCache κ α) :=
  match c.value? key with
  | none => none
  | some v => if h : c.contains key = true then some (v, c.touch t key h) else none

/-- `get`, inherited from `MutableMapping`: `self[key]`, or nothing on a `KeyError`. -/
def get (c : LRUCache κ α) (t : Time) (key : κ) : Option α × LRUCache κ α :=
  match c.getItem t key with
  | some (v, c') => (some v, c')
  | none => (none, c)

/-- `__setitem__` at the time `t`. -/
def setItem (c : LRUCache κ α) (t : Time) (key : κ) (value : α) : LRUCache κ α where
  timeout := c.timeout
  keysToLastTime := (c.keysToLastTime.del key).set key t
  store := c.store.set key value
  same_keys k := by
    rw [Dict.contains_set, Dict.contains_set, Dict.contains_del, c.same_keys]
    by_cases hk : k = key <;> simp [hk]

/-- `__delitem__` -/
def delItem (c : LRUCache κ α) (key : κ) : Option (LRUCache κ α) :=
  if c.contains key then
    some
      { timeout := c.timeout
        store := c.store.del key
        keysToLastTime := c.keysToLastTime.del key
        same_keys := fun k => by rw [Dict.contains_del, Dict.contains_del, c.same_keys] }
  else none

/-- The loop of `sweep`: deleting the oldest keys while they have expired, at most `cnt`. -/
def sweepLoop (now : Time) : ℕ → LRUCache κ α → LRUCache κ α
  | 0, c => c
  | cnt + 1, c =>
    match c.first? with
    | none => c
    | some key =>
      match c.keysToLastTime.get? key, c.delItem key with
      | some lastT, some c' => if now - lastT ≤ c.timeout then c else sweepLoop now cnt c'
      | _, _ => c

/-- `sweep`, without a close callback; `SWEEP_MAX_ITEMS` is 1024. -/
def sweep (c : LRUCache κ α) (now : Time) : LRUCache κ α := sweepLoop now 1024 c

/-- Changing the object stored at a key in place. -/
def mutate (c : LRUCache κ α) (key : κ) (f : α → α) : LRUCache κ α :=
  match h : c.value? key with
  | none => c
  | some v =>
    { c with
      store := c.store.set key (f v)
      same_keys := fun k => by
        have hk : c.store.contains key = true := Dict.contains_eq_true.2 ⟨v, h⟩
        rw [Dict.contains_set, ← c.same_keys]
        by_cases hkk : k = key
        · simpa [hkk] using hk.symm
        · simp [hkk] }

/-! ## Lookup -/

theorem contains_eq_true {c : LRUCache κ α} {k : κ} :
    c.contains k = true ↔ ∃ v, c.value? k = some v := Dict.contains_eq_true

theorem contains_eq_false {c : LRUCache κ α} {k : κ} :
    c.contains k = false ↔ c.value? k = none := Dict.contains_eq_false

theorem contains_of_value? {c : LRUCache κ α} {k : κ} {v : α} (h : c.value? k = some v) :
    c.contains k = true := contains_eq_true.2 ⟨v, h⟩

theorem mem_order {c : LRUCache κ α} {k : κ} : k ∈ c.order ↔ c.contains k = true := by
  rw [order, Dict.mem_keys, ← c.same_keys]; rfl

theorem nodup_order (c : LRUCache κ α) : c.order.Nodup := c.keysToLastTime.nodup_keys

/-- The order lists every stored key, once. -/
theorem len_eq (c : LRUCache κ α) : c.len = c.order.length := by
  rw [len, Dict.size_eq, order]
  refine List.Perm.length_eq ((List.perm_ext_iff_of_nodup c.store.nodup_keys
    c.keysToLastTime.nodup_keys).2 fun k => ?_)
  rw [Dict.mem_keys, Dict.mem_keys, c.same_keys]

theorem first?_eq (c : LRUCache κ α) : c.first? = c.order.head? := rfl

/-! ## The operations -/

variable {c : LRUCache κ α} {t : Time} {k : κ}

@[simp] theorem value?_touch (h : c.contains k = true) (k' : κ) :
    (c.touch t k h).value? k' = c.value? k' := rfl

theorem order_touch (h : c.contains k = true) :
    (c.touch t k h).order = (c.order.filter fun k' => k' ≠ k) ++ [k] :=
  Dict.keys_del_set _ _ _

@[simp] theorem contains_touch (h : c.contains k = true) (k' : κ) :
    (c.touch t k h).contains k' = c.contains k' := rfl

/-- Using a key only reorders the keys. -/
theorem mem_order_touch (h : c.contains k = true) (k' : κ) :
    k' ∈ (c.touch t k h).order ↔ k' ∈ c.order := by
  rw [mem_order, mem_order, contains_touch]

theorem getItem_of_value? {v : α} (h : c.value? k = some v) :
    c.getItem t k = some (v, c.touch t k (contains_of_value? h)) := by
  rw [getItem, h]
  exact dif_pos (contains_of_value? h)

theorem getItem_eq_none (h : c.value? k = none) : c.getItem t k = none := by
  rw [getItem, h]

theorem get_of_value? {v : α} (h : c.value? k = some v) :
    c.get t k = (some v, c.touch t k (contains_of_value? h)) := by
  rw [get, getItem_of_value? h]

theorem get_eq_none (h : c.value? k = none) : c.get t k = (none, c) := by
  rw [get, getItem_eq_none h]

theorem value?_get (c : LRUCache κ α) (t : Time) (k k' : κ) :
    (c.get t k).2.value? k' = c.value? k' := by
  cases h : c.value? k with
  | none => rw [get_eq_none h]
  | some v => rw [get_of_value? h]; rfl

theorem value?_setItem (v : α) (k' : κ) :
    (c.setItem t k v).value? k' = if k' = k then some v else c.value? k' := Dict.get?_set _ _ _ _

theorem order_setItem (v : α) :
    (c.setItem t k v).order = (c.order.filter fun k' => k' ≠ k) ++ [k] := Dict.keys_del_set _ _ _

/-- Deleting a present key. -/
theorem delItem_of_contains (h : c.contains k = true) :
    ∃ c', c.delItem k = some c' ∧ (∀ k', c'.value? k' = if k' = k then none else c.value? k') ∧
      c'.order = c.order.filter fun k' => k' ≠ k :=
  ⟨_, if_pos h, fun _ => Dict.get?_del _ _ _, Dict.keys_del _ _⟩

/-- What is left after a deletion was there before, -/
theorem value?_of_delItem {c' : LRUCache κ α} {k' : κ} {v : α} (h : c.delItem k = some c')
    (hv : c'.value? k' = some v) : c.value? k' = some v := by
  rw [delItem] at h
  split_ifs at h
  cases h
  have hdel : (c.store.del k).get? k' = some v := hv
  rw [Dict.get?_del] at hdel
  split_ifs at hdel
  exact hdel

/-- and so is what is left after a sweep. -/
theorem value?_of_sweepLoop {now : Time} {cnt : ℕ} {c : LRUCache κ α} {k : κ} {v : α}
    (hv : (sweepLoop now cnt c).value? k = some v) : c.value? k = some v := by
  induction cnt generalizing c with
  | zero => exact hv
  | succ cnt ih =>
    rw [sweepLoop] at hv
    split at hv
    · exact hv
    · split at hv
      · next lastT c' hlast hdel =>
        split_ifs at hv
        · exact hv
        · exact value?_of_delItem hdel (ih hv)
      · exact hv

theorem mutate_eq_self (h : c.value? k = none) (f : α → α) : c.mutate k f = c := by
  rw [mutate]
  split
  · rfl
  · next h' => simp [h] at h'

theorem value?_mutate (f : α → α) (k' : κ) :
    (c.mutate k f).value? k' = if k' = k then (c.value? k).map f else c.value? k' := by
  rw [mutate]
  split
  · next h =>
    split
    · next hk => simp [hk, h]
    · rfl
  · next v h =>
    simp only [value?, Dict.get?_set] at h ⊢
    rw [h]; rfl

@[simp] theorem order_mutate (f : α → α) : (c.mutate k f).order = c.order := by
  rw [mutate]; split <;> rfl

end LRUCache

end ShadowsocksR

import Mathlib.Algebra.BigOperators.Group.List.Basic
import Mathlib.Data.List.Nodup
import Mathlib.Data.List.Basic
import Mathlib.Tactic.Abel

/-!
# Insertion-ordered dictionaries

A dictionary is a list of pairs with distinct keys, in the order in which the
keys were first set: the semantics of an ordered map in which overwriting a
value keeps its place and deleting a key forgets it.

* `get?`, `set`, `del`: reading, writing and deleting at a key;
* `first?`: the oldest key;
* `keys_set`, `keys_del`: what an update does to the order;
* `setAll`, `delAll`, `restrict`: a loop of updates, and a selection;
* `sum`: a sum over the entries.
-/

namespace ShadowsocksR

universe u v

/-- A dictionary from `κ` to `α`, in insertion order. -/
structure Dict (κ : Type u) (α : Type v) where
  /-- The pairs, the oldest first. -/
  entries : List (κ × α)
  nodup : (entries.map Prod.fst).Nodup

namespace Dict

variable {κ : Type u} {α : Type v}

@[ext] theorem ext {d d' : Dict κ α} (h : d.entries = d'.entries) : d = d' := by
  cases d; cases d'; cases h; rfl

/-- The keys, the oldest first. -/
def keys (d : Dict κ α) : List κ := d.entries.map Prod.fst

/-- The dictionary without entries. -/
def empty : Dict κ α := ⟨[], List.nodup_nil⟩

/-- The number of entries. -/
def size (d : Dict κ α) : ℕ := d.entries.length

/-- The oldest key. -/
def first? (d : Dict κ α) : Option κ := d.keys.head?

@[simp] theorem keys_empty : (empty : Dict κ α).keys = [] := rfl

theorem size_eq (d : Dict κ α) : d.size = d.keys.length := by simp [size, keys]

theorem nodup_keys (d : Dict κ α) : d.keys.Nodup := d.nodup

theorem first?_eq_none {d : Dict κ α} : d.first? = none ↔ d.keys = [] := List.head?_eq_none_iff

variable [DecidableEq κ]

/-- The value at a key. -/
def get? (d : Dict κ α) (k : κ) : Option α := d.entries.lookup k

/-- Whether a key is present. -/
def contains (d : Dict κ α) (k : κ) : Bool := (d.get? k).isSome

/-- The pairs with the value at `k` replaced by `v`, or `(k, v)` appended. -/
def setEntries (k : κ) (v : α) : List (κ × α) → List (κ × α)
  | [] => [(k, v)]
  | (k', v') :: es => if k' = k then (k, v) :: es else (k', v') :: setEntries k v es

theorem map_fst_setEntries (k : κ) (v : α) (es : List (κ × α)) :
    (setEntries k v es).map Prod.fst =
      if k ∈ es.map Prod.fst then es.map Prod.fst else es.map Prod.fst ++ [k] := by
  induction es with
  | nil => rfl
  | cons e es ih =>
    obtain ⟨k', v'⟩ := e
    by_cases h : k' = k
    · simp [setEntries, h]
    · simp only [setEntries, h, if_false, List.map_cons, ih, List.mem_cons, Ne.symm h, false_or]
      split <;> rfl

/-- Setting the value at `k`: in place, or else as the newest entry. -/
def set (d : Dict κ α) (k : κ) (v : α) : Dict κ α where
  entries := setEntries k v d.entries
  nodup := by
    rw [map_fst_setEntries]
    split
    · exact d.nodup
    · next h => exact List.nodup_append.2 ⟨d.nodup, List.nodup_singleton _, by
        rintro a ha b hb rfl; exact h (List.mem_singleton.1 hb ▸ ha)⟩

/-- Deleting the entry at `k`. -/
def del (d : Dict κ α) (k : κ) : Dict κ α where
  entries := d.entries.filter fun e => e.1 ≠ k
  nodup := (List.filter_sublist.map _).nodup d.nodup

/-! ## Lookup -/

theorem lookup_cons (k k' : κ) (v : α) (es : List (κ × α)) :
    ((k', v) :: es).lookup k = if k = k' then some v else es.lookup k := by
  by_cases h : k = k'
  · simp [h]
  · simp [List.lookup_cons, beq_eq_false_iff_ne.2 h, h]

theorem lookup_setEntries (k k' : κ) (v : α) (es : List (κ × α)) :
    (setEntries k v es).lookup k' = if k' = k then some v else es.lookup k' := by
  induction es with
  | nil => rw [setEntries, lookup_cons]
  | cons e es ih =>
    obtain ⟨k'', v''⟩ := e
    by_cases h : k'' = k
    · simp only [setEntries, h, if_true, lookup_cons]
      split <;> rfl
    · simp only [setEntries, h, if_false, lookup_cons, ih]
      by_cases h' : k' = k''
      · simp [h', h]
      · simp [h']

theorem lookup_filter (k k' : κ) (es : List (κ × α)) :
    (es.filter fun e => e.1 ≠ k).lookup k' = if k' = k then none else es.lookup k' := by
  induction es with
  | nil => simp
  | cons e es ih =>
    obtain ⟨k'', v''⟩ := e
    by_cases h : k'' = k
    · rw [List.filter_cons_of_neg (by simp [h]), ih, lookup_cons, h]
      split <;> rfl
    · rw [List.filter_cons_of_pos (by simp [h]), lookup_cons, lookup_cons, ih]
      by_cases h' : k' = k''
      · simp [h', h]
      · simp [h']

@[simp] theorem get?_empty (k : κ) : (empty : Dict κ α).get? k = none := rfl

theorem get?_set (d : Dict κ α) (k k' : κ) (v : α) :
    (d.set k v).get? k' = if k' = k then some v else d.get? k' :=
  lookup_setEntries k k' v d.entries

theorem get?_del (d : Dict κ α) (k k' : κ) :
    (d.del k).get? k' = if k' = k then none else d.get? k' :=
  lookup_filter k k' d.entries

@[simp] theorem get?_set_self (d : Dict κ α) (k : κ) (v : α) : (d.set k v).get? k = some v := by
  simp [get?_set]

theorem get?_set_of_ne (d : Dict κ α) {k k' : κ} (v : α) (hk : k' ≠ k) :
    (d.set k v).get? k' = d.get? k' := by
  simp [get?_set, hk]

@[simp] theorem get?_del_self (d : Dict κ α) (k : κ) : (d.del k).get? k = none := by
  simp [get?_del]

theorem get?_del_of_ne (d : Dict κ α) {k k' : κ} (hk : k' ≠ k) : (d.del k).get? k' = d.get? k' := by
  simp [get?_del, hk]

theorem contains_eq_true {d : Dict κ α} {k : κ} : d.contains k = true ↔ ∃ v, d.get? k = some v :=
  Option.isSome_iff_exists

theorem contains_eq_false {d : Dict κ α} {k : κ} : d.contains k = false ↔ d.get? k = none := by
  simp [contains]

@[simp] theorem contains_set (d : Dict κ α) (k k' : κ) (v : α) :
    (d.set k v).contains k' = (decide (k' = k) || d.contains k') := by
  rw [contains, get?_set]; split <;> simp [contains, *]

@[simp] theorem contains_del (d : Dict κ α) (k k' : κ) :
    (d.del k).contains k' = (!decide (k' = k) && d.contains k') := by
  rw [contains, get?_del]; split <;> simp [contains, *]

/-! ## Order and size -/

/-- The keys are where the dictionary is defined. -/
theorem mem_keys {d : Dict κ α} {k : κ} : k ∈ d.keys ↔ d.contains k = true := by
  obtain ⟨es, -⟩ := d
  simp only [keys, contains, get?]
  induction es with
  | nil => simp
  | cons e es ih =>
    obtain ⟨k', v'⟩ := e
    rw [List.map_cons, List.mem_cons, lookup_cons]
    by_cases h : k = k' <;> simp_all

theorem keys_set (d : Dict κ α) (k : κ) (v : α) :
    (d.set k v).keys = if k ∈ d.keys then d.keys else d.keys ++ [k] :=
  map_fst_setEntries k v d.entries

theorem keys_del (d : Dict κ α) (k : κ) : (d.del k).keys = d.keys.filter fun k' => k' ≠ k := by
  simp only [keys, del, List.filter_map]; rfl

/-- Moving a present key to the end of the order: deleting it, then setting it again. -/
theorem keys_del_set (d : Dict κ α) (k : κ) (v : α) :
    ((d.del k).set k v).keys = (d.keys.filter fun k' => k' ≠ k) ++ [k] := by
  rw [keys_set, keys_del, if_neg (by simp)]

/-- An empty dictionary has no values. -/
theorem get?_of_size_eq_zero {d : Dict κ α} (h : d.size = 0) (k : κ) : d.get? k = none := by
  rw [size_eq, List.length_eq_zero_iff] at h
  rw [← contains_eq_false, ← Bool.not_eq_true, ← mem_keys, h]
  exact List.not_mem_nil

/-- Setting a new key adds one entry. -/
theorem size_set_of_not_mem {d : Dict κ α} {k : κ} {v : α} (h : d.contains k = false) :
    (d.set k v).size = d.size + 1 := by
  have hk : k ∉ d.keys := fun hm => by simp [mem_keys.1 hm] at h
  simp [size_eq, keys_set, hk]

/-- Overwriting a value keeps the number of entries. -/
theorem size_set_of_mem {d : Dict κ α} {k : κ} {v : α} (h : d.contains k = true) :
    (d.set k v).size = d.size := by
  simp [size_eq, keys_set, mem_keys.2 h]

/-- Deleting a present key removes one entry. -/
theorem size_del_of_mem {d : Dict κ α} {k : κ} (h : d.contains k = true) :
    (d.del k).size + 1 = d.size := by
  have hk : k ∈ d.keys := mem_keys.2 h
  have hf : (d.keys.filter fun k' => k' ≠ k) = d.keys.erase k := by
    rw [d.nodup_keys.erase_eq_filter]
    exact List.filter_congr fun x _ => by simp [bne, beq_eq_decide]
  rw [size_eq, size_eq, keys_del, hf, List.length_erase_of_mem hk,
    Nat.sub_add_cancel (List.length_pos_of_mem hk)]

theorem contains_of_first? {d : Dict κ α} {k : κ} (h : d.first? = some k) :
    d.contains k = true :=
  mem_keys.1 (List.mem_of_head? h)

/-! ## Entries -/

theorem setEntries_of_not_mem {k : κ} {v : α} {es : List (κ × α)} (h : ∀ e ∈ es, e.1 ≠ k) :
    setEntries k v es = es ++ [(k, v)] := by
  induction es with
  | nil => rfl
  | cons e es ih =>
    rw [setEntries, if_neg (h e List.mem_cons_self),
      ih fun e' he' => h e' (List.mem_cons_of_mem _ he')]
    rfl

/-- Deleting a key, then setting it again. -/
theorem entries_del_set (d : Dict κ α) (k : κ) (v : α) :
    ((d.del k).set k v).entries = (d.entries.filter fun e => e.1 ≠ k) ++ [(k, v)] :=
  setEntries_of_not_mem fun e he => by simpa using (List.mem_filter.1 he).2

theorem mem_entries {d : Dict κ α} {e : κ × α} : e ∈ d.entries ↔ d.get? e.1 = some e.2 := by
  obtain ⟨es, hnodup⟩ := d
  obtain ⟨k, v⟩ := e
  simp only [get?]
  induction es with
  | nil => simp
  | cons e es ih =>
    obtain ⟨k', v'⟩ := e
    rw [List.map_cons, List.nodup_cons] at hnodup
    rw [lookup_cons, List.mem_cons, Prod.mk.injEq]
    by_cases hk : k = k'
    · have hnot : (k, v) ∉ es := fun hm => hnodup.1 (hk ▸ List.mem_map.2 ⟨_, hm, rfl⟩)
      rw [if_pos hk, Option.some_inj]
      exact ⟨fun h => (h.resolve_right hnot).2.symm, fun h => .inl ⟨hk, h.symm⟩⟩
    · rw [if_neg hk, ← ih hnodup.2]
      exact or_iff_right fun h => hk h.1

/-! ## Loops -/

/-- Setting the values that a function has at some keys, one after the other. -/
def setAll (f : κ → Option α) (d : Dict κ α) (ks : List κ) : Dict κ α :=
  ks.foldl (fun d k => match f k with
    | some v => d.set k v
    | none => d) d

theorem get?_setAll (f : κ → Option α) (d : Dict κ α) (ks : List κ) (k : κ) :
    (d.setAll f ks).get? k = if k ∈ ks then (f k).or (d.get? k) else d.get? k := by
  induction ks generalizing d with
  | nil => rfl
  | cons k' ks ih =>
    rw [setAll, List.foldl_cons, ← setAll, ih]
    by_cases hk : k = k'
    · subst hk
      cases f k <;> simp
    · have hset : (match f k' with | some v => d.set k' v | none => d).get? k = d.get? k := by
        cases f k' with
        | none => rfl
        | some v => exact get?_set_of_ne d v hk
      rw [hset]
      simp [hk]

/-- The values of another dictionary, where it has any. -/
def update (d d' : Dict κ α) : Dict κ α := d.setAll d'.get? d'.keys

theorem get?_update (d d' : Dict κ α) (k : κ) :
    (d.update d').get? k = (d'.get? k).or (d.get? k) := by
  rw [update, get?_setAll]
  split_ifs with hk
  · rfl
  · rw [mem_keys, Bool.not_eq_true, contains_eq_false] at hk
    rw [hk, Option.none_or]

@[simp] theorem contains_update (d d' : Dict κ α) (k : κ) :
    (d.update d').contains k = (d.contains k || d'.contains k) := by
  rw [contains, get?_update, Option.isSome_or, Bool.or_comm]
  rfl

/-- Deleting some keys, one after the other. -/
def delAll (d : Dict κ α) (ks : List κ) : Dict κ α := ks.foldl del d

theorem get?_delAll (d : Dict κ α) (ks : List κ) (k : κ) :
    (d.delAll ks).get? k = if k ∈ ks then none else d.get? k := by
  induction ks generalizing d with
  | nil => rfl
  | cons k' ks ih =>
    rw [delAll, List.foldl_cons, ← delAll, ih, get?_del]
    by_cases hk : k = k' <;> simp [hk]

/-- The entries with certain keys. -/
def restrict (d : Dict κ α) (p : κ → Bool) : Dict κ α where
  entries := d.entries.filter fun e => p e.1
  nodup := (List.filter_sublist.map _).nodup d.nodup

theorem get?_restrict (d : Dict κ α) (p : κ → Bool) (k : κ) :
    (d.restrict p).get? k = if p k then d.get? k else none := by
  obtain ⟨es, hnodup⟩ := d
  simp only [get?, restrict]
  clear hnodup
  induction es with
  | nil => simp
  | cons e es ih =>
    obtain ⟨k', v⟩ := e
    rw [List.filter_cons, lookup_cons]
    by_cases hk : k = k'
    · subst hk
      cases hp : p k with
      | true => simp only [if_true, lookup_cons]
      | false => simp [hp, ih]
    · cases hp : p k' with
      | true => simp only [if_true, lookup_cons, if_neg hk, ih]
      | false => simp [hk, ih]

/-! ## Sums -/

section

variable {M : Type*} [AddCommMonoid M]

/-- The sum of a function of the keys and the values. -/
def sum (f : κ → α → M) (d : Dict κ α) : M := (d.entries.map fun e => f e.1 e.2).sum

omit [DecidableEq κ] in
@[simp] theorem sum_empty (f : κ → α → M) : (empty : Dict κ α).sum f = 0 := rfl

/-- A sum over one key. -/
theorem sum_ite (f : α → M) (d : Dict κ α) (k : κ) :
    (d.sum fun k' v => if k' = k then f v else 0) = (d.get? k).elim 0 f := by
  obtain ⟨es, hnodup⟩ := d
  simp only [sum, get?]
  induction es with
  | nil => rfl
  | cons e es ih =>
    obtain ⟨k', v⟩ := e
    rw [List.map_cons, List.nodup_cons] at hnodup
    rw [List.map_cons, List.sum_cons, ih hnodup.2, lookup_cons]
    by_cases hk : k' = k
    · subst hk
      have hes : es.lookup k' = none := List.lookup_eq_none_iff.2 fun e he =>
        bne_iff_ne.2 fun h => hnodup.1 (List.mem_map.2 ⟨e, he, h.symm⟩)
      simp [hes]
    · simp [hk, Ne.symm hk]

/-- Setting a value adds its share, and takes away that of the value before. -/
theorem sum_set (f : κ → α → M) (d : Dict κ α) (k : κ) (v : α) :
    (d.set k v).sum f + (d.get? k).elim 0 (f k) = d.sum f + f k v := by
  obtain ⟨es, hnodup⟩ := d
  simp only [sum, set, get?]
  clear hnodup
  induction es with
  | nil => simp [setEntries]
  | cons e es ih =>
    obtain ⟨k', v'⟩ := e
    by_cases hk : k' = k
    · subst hk
      rw [setEntries, if_pos rfl, lookup_cons, if_pos rfl, List.map_cons, List.map_cons,
        List.sum_cons, List.sum_cons, Option.elim_some]
      abel
    · rw [setEntries, if_neg hk, lookup_cons, if_neg (Ne.symm hk), List.map_cons, List.sum_cons,
        List.map_cons, List.sum_cons, add_assoc, ih, add_assoc]

/-- Deleting a key takes away the share of its value. -/
theorem sum_del (f : κ → α → M) (d : Dict κ α) (k : κ) :
    (d.del k).sum f + (d.get? k).elim 0 (f k) = d.sum f := by
  obtain ⟨es, hnodup⟩ := d
  simp only [sum, del, get?]
  induction es with
  | nil => simp
  | cons e es ih =>
    obtain ⟨k', v'⟩ := e
    rw [List.map_cons, List.nodup_cons] at hnodup
    by_cases hk : k' = k
    · subst hk
      have hes : (es.filter fun e => e.1 ≠ k') = es :=
        List.filter_eq_self.2 fun e he => decide_eq_true fun h =>
          hnodup.1 (List.mem_map.2 ⟨e, he, h⟩)
      rw [List.filter_cons_of_neg (by simp), hes, lookup_cons, if_pos rfl, List.map_cons,
        List.sum_cons, add_comm]
      rfl
    · rw [List.filter_cons_of_pos (by simpa using hk), lookup_cons, if_neg (Ne.symm hk),
        List.map_cons, List.sum_cons, List.map_cons, List.sum_cons, add_assoc, ih hnodup.2]

/-- Setting a key that is not there adds its share. -/
theorem sum_set_of_not_contains (f : κ → α → M) {d : Dict κ α} {k : κ} (h : d.contains k = false)
    (v : α) : (d.set k v).sum f = d.sum f + f k v := by
  have hset := sum_set f d k v
  rwa [contains_eq_false.1 h, Option.elim_none, add_zero] at hset

/-- A loop of updates at new keys. -/
theorem sum_setAll (f : κ → α → M) (g : κ → α) {d : Dict κ α} {ks : List κ} (hks : ks.Nodup)
    (hd : ∀ k ∈ ks, d.contains k = false) :
    (d.setAll (fun k => some (g k)) ks).sum f = d.sum f + (ks.map fun k => f k (g k)).sum := by
  induction ks generalizing d with
  | nil => simp [setAll]
  | cons k ks ih =>
    obtain ⟨hk, hks⟩ := List.nodup_cons.1 hks
    have hset : (d.setAll (fun k => some (g k)) (k :: ks)) =
        (d.set k (g k)).setAll (fun k => some (g k)) ks := rfl
    rw [hset, ih hks fun k' hk' => ?_, sum_set_of_not_contains f (hd k List.mem_cons_self),
      List.map_cons, List.sum_cons, add_assoc]
    have hne : k' ≠ k := fun h => hk (h ▸ hk')
    rw [contains_set, hd k' (List.mem_cons_of_mem _ hk'), decide_eq_false hne, Bool.or_false]

/-- A sum over the entries, as a sum over a list with all keys. -/
theorem sum_keys (f : α → M) {d : Dict κ α} {ks : List κ} (hks : ks.Nodup)
    (hd : ∀ k ∈ d.keys, k ∈ ks) :
    (ks.map fun k => (d.get? k).elim 0 f).sum = d.sum fun _ v => f v := by
  induction ks generalizing d with
  | nil =>
    have hnil : d.entries = [] := List.map_eq_nil_iff.1
      (List.eq_nil_iff_forall_not_mem.2 fun k hk => absurd (hd k hk) List.not_mem_nil)
    rw [sum, hnil]
    rfl
  | cons k ks ih =>
    obtain ⟨hk, hks⟩ := List.nodup_cons.1 hks
    have hdel : ∀ k' ∈ (d.del k).keys, k' ∈ ks := fun k' hk' => by
      rw [keys_del, List.mem_filter, decide_eq_true_eq] at hk'
      exact (List.mem_cons.1 (hd k' hk'.1)).resolve_left hk'.2
    have hrest : (ks.map fun k' => (d.get? k').elim 0 f) =
        ks.map fun k' => ((d.del k).get? k').elim 0 f :=
      List.map_congr_left fun k' hk' => by
        rw [get?_del_of_ne d fun h => hk (by rw [← h]; exact hk')]
    rw [List.map_cons, List.sum_cons, hrest, ih hks hdel, add_comm]
    exact sum_del (fun _ v => f v) d k

end

end Dict

end ShadowsocksR

import ShadowsocksR.LruCache

/-!
# The items of the LRU cache

A cache is seen as the list of its items, the least recently used first, each
with the time of its last use.

* `Item`, `items`: the list;
* `items_touch`, `items_setItem`, `items_delItem`: the list after each operation;
* `Sorted`: the items are in the order of their times.
-/

namespace ShadowsocksR

namespace LRUCache

variable {κ α : Type}

/-- A stored entry, with the time of its last use. -/
structure Item (κ α : Type) where
  key : κ
  value : α
  lastTime : Time

variable [DecidableEq κ] {c : LRUCache κ α} {k : κ} {t : Time}

/-- The item of a key with a time. -/
def item (c : LRUCache κ α) (e : κ × Time) : Option (Item κ α) :=
  (c.value? e.1).map fun value => { key := e.1, value, lastTime := e.2 }

/-- The items, the least recently used first. -/
def items (c : LRUCache κ α) : List (Item κ α) := c.keysToLastTime.entries.filterMap c.item

theorem mem_items {e : Item κ α} :
    e ∈ c.items ↔ c.value? e.key = some e.value ∧
      c.keysToLastTime.get? e.key = some e.lastTime := by
  rw [items, List.mem_filterMap]
  constructor
  · rintro ⟨⟨k, t⟩, hmem, he⟩
    obtain ⟨v, hv, rfl⟩ := Option.map_eq_some_iff.1 he
    exact ⟨hv, Dict.mem_entries.1 hmem⟩
  · rintro ⟨hv, ht⟩
    refine ⟨(e.key, e.lastTime), Dict.mem_entries.2 ht, ?_⟩
    rw [item, hv]
    rfl

/-- Every key with a time has an item. -/
theorem item_eq {e : κ × Time} (h : e ∈ c.keysToLastTime.entries) :
    ∃ v, c.value? e.1 = some v ∧ c.item e = some { key := e.1, value := v, lastTime := e.2 } := by
  have hkey : c.contains e.1 = true :=
    (c.same_keys e.1).trans (Dict.contains_eq_true.2 ⟨e.2, Dict.mem_entries.1 h⟩)
  obtain ⟨v, hv⟩ := contains_eq_true.1 hkey
  exact ⟨v, hv, by rw [item, hv]; rfl⟩

theorem filterMap_item {es : List (κ × Time)} (h : ∀ e ∈ es, e ∈ c.keysToLastTime.entries) :
    (es.filterMap c.item).map Item.key = es.map Prod.fst := by
  induction es with
  | nil => rfl
  | cons e es ih =>
    obtain ⟨v, -, hitem⟩ := item_eq (h e List.mem_cons_self)
    rw [List.filterMap_cons_some hitem, List.map_cons, List.map_cons,
      ih fun e' he' => h e' (List.mem_cons_of_mem _ he')]

theorem map_key_items (c : LRUCache κ α) : c.items.map Item.key = c.order :=
  filterMap_item fun _ h => h

theorem nodup_items (c : LRUCache κ α) : c.items.Nodup :=
  List.Nodup.of_map Item.key (by rw [map_key_items]; exact c.nodup_order)

theorem length_items (c : LRUCache κ α) : c.items.length = c.len := by
  rw [len_eq, ← map_key_items, List.length_map]

/-- An item is known by its key. -/
theorem eq_of_key_eq {e e' : Item κ α} (he : e ∈ c.items) (he' : e' ∈ c.items)
    (h : e.key = e'.key) : e = e' :=
  List.inj_on_of_nodup_map (by rw [map_key_items]; exact c.nodup_order) he he' h

theorem exists_mem_items {k : κ} : (∃ e ∈ c.items, e.key = k) ↔ c.contains k = true := by
  rw [← mem_order, ← map_key_items, List.mem_map]

/-- The items whose keys are kept, when their values are. -/
theorem filterMap_item_filter {d : LRUCache κ α} {p : κ → Bool}
    (h : ∀ k, p k = true → d.value? k = c.value? k) (es : List (κ × Time)) :
    (es.filter fun e => p e.1).filterMap d.item =
      (es.filterMap c.item).filter fun e => p e.key := by
  rw [List.filterMap_filter, List.filter_filterMap]
  refine List.filterMap_congr fun e _ => ?_
  rw [item, item]
  cases hp : p e.1 with
  | true => rw [h _ hp]; cases c.value? e.1 <;> simp [Option.filter, hp]
  | false => cases c.value? e.1 <;> simp [Option.filter, hp]

theorem items_touch {v : α} (h : c.contains k = true) (hv : c.value? k = some v) :
    (c.touch t k h).items = (c.items.filter fun e => e.key ≠ k) ++ [⟨k, v, t⟩] := by
  have hitem : (c.touch t k h).item (k, t) = some ⟨k, v, t⟩ := by
    rw [item, value?_touch, hv]; rfl
  have hentries : (c.touch t k h).keysToLastTime.entries =
      (c.keysToLastTime.entries.filter fun e => e.1 ≠ k) ++ [(k, t)] := Dict.entries_del_set _ _ _
  rw [items, hentries, List.filterMap_append, List.filterMap_cons_some hitem,
    filterMap_item_filter (c := c) (d := c.touch t k h) (p := fun k' => k' ≠ k) fun _ _ => rfl]
  rfl

theorem items_setItem (v : α) :
    (c.setItem t k v).items = (c.items.filter fun e => e.key ≠ k) ++ [⟨k, v, t⟩] := by
  have hitem : (c.setItem t k v).item (k, t) = some ⟨k, v, t⟩ := by
    rw [item, value?_setItem, if_pos rfl]; rfl
  have hentries : (c.setItem t k v).keysToLastTime.entries =
      (c.keysToLastTime.entries.filter fun e => e.1 ≠ k) ++ [(k, t)] := Dict.entries_del_set _ _ _
  rw [items, hentries, List.filterMap_append, List.filterMap_cons_some hitem,
    filterMap_item_filter (c := c) (p := fun k' => k' ≠ k) fun k' hk' => by
      rw [value?_setItem, if_neg (by simpa using hk')]]
  rfl

theorem items_delItem {c' : LRUCache κ α} (h : c.delItem k = some c') :
    c'.items = c.items.filter fun e => e.key ≠ k := by
  rw [delItem] at h
  split at h
  · cases h
    exact filterMap_item_filter (c := c) (p := fun k' => k' ≠ k) (fun k' hk' => by
      simp only [value?]
      rw [Dict.get?_del, if_neg (by simpa using hk')]) _
  · cases h

theorem timeout_delItem {c' : LRUCache κ α} (h : c.delItem k = some c') :
    c'.timeout = c.timeout := by
  rw [delItem] at h
  split at h <;> cases h
  rfl

/-- The least recently used key is the key of the first item. -/
theorem first?_eq_map (c : LRUCache κ α) : c.first? = c.items.head?.map Item.key := by
  rw [first?_eq, ← map_key_items, List.head?_map]

/-- The items are in the order of their last use. -/
def Sorted (c : LRUCache κ α) : Prop := c.items.Pairwise fun e e' => e.lastTime ≤ e'.lastTime

end LRUCache

end ShadowsocksR

import ShadowsocksR.LruCache.OrderedDict
import ShadowsocksR.LruCache.Timed

/-!
# The LRU cache over an ordered dictionary

The methods of `lru_cache.LRUCache`, as calls of the methods of `_keys_to_last_time`.

* `CacheOver`: a cache over any ordered dictionary, with its methods;
* `CacheOver.refines_call`: over a dictionary that refines another one, they
  refine those over the other one;
* `LRUCache.toOver`: over pairs in the order of their insertion, they are those
  of `LRUCache`;
* `linkedCache_results`: so they are over the links of `OrderedDict`.
-/

namespace ShadowsocksR

/-- `LRUCache`, over an ordered dictionary. -/
structure CacheOver (σ κ α : Type) where
  timeout : Time
  store : Dict κ α
  keysToLastTime : σ

namespace CacheOver

variable {σ τ κ α β : Type}

/-- `__init__`, without items. -/
def new (timeout : Time) (keysToLastTime : σ) : CacheOver σ κ α where
  timeout
  store := .empty
  keysToLastTime

/-- A method of `_keys_to_last_time`. -/
def onTimes (m : EStateM Failure σ β) : EStateM Failure (CacheOver σ κ α) β := fun c =>
  match m c.keysToLastTime with
  | .ok b keysToLastTime => .ok b { c with keysToLastTime }
  | .error e keysToLastTime => .error e { c with keysToLastTime }

variable [DecidableEq κ]

/-- `self._store[key]` -/
def stored (key : κ) : EStateM Failure (CacheOver σ κ α) α := fun c =>
  match c.store.get? key with
  | some value => .ok value c
  | none => .error (.raised .keyError) c

/-- `self._store[key] = value` -/
def setStored (key : κ) (value : α) : EStateM Failure (CacheOver σ κ α) Unit := fun c =>
  .ok () { c with store := c.store.set key value }

/-- `del self._store[key]` -/
def delStored (key : κ) : EStateM Failure (CacheOver σ κ α) Unit := fun c =>
  if c.store.contains key then .ok () { c with store := c.store.del key }
  else .error (.raised .keyError) c

/-- `key in self` -/
def contains (key : κ) : EStateM Failure (CacheOver σ κ α) Bool := fun c =>
  .ok (c.store.contains key) c

/-- `__len__` -/
def len : EStateM Failure (CacheOver σ κ α) ℕ := fun c => .ok c.store.size c

variable (M : OrderedMap σ κ Time)

/-- `__getitem__` at the time `t`. -/
def getItem (t : Time) (key : κ) : EStateM Failure (CacheOver σ κ α) α := do
  let _lastT ← onTimes (M.getItem key)
  onTimes (M.delItem key)
  onTimes (M.setItem key t)
  stored key

/-- `get`: nothing on a `KeyError`. -/
def get (t : Time) (key : κ) : EStateM Failure (CacheOver σ κ α) (Option α) := fun c =>
  match getItem M t key c with
  | .ok value c => .ok (some value) c
  | .error e c => if e = .raised .keyError then .ok none c else .error e c

/-- `__setitem__` at the time `t`. -/
def setItem (t : Time) (key : κ) (value : α) : EStateM Failure (CacheOver σ κ α) Unit := do
  let found ← onTimes (M.contains key)
  (if found then onTimes (M.delItem key) else pure ())
  onTimes (M.setItem key t)
  setStored key value

/-- `__delitem__` -/
def delItem (key : κ) : EStateM Failure (CacheOver σ κ α) Unit := do
  let _lastT ← onTimes (M.getItem key)
  delStored key
  onTimes (M.delItem key)

/-- `first` -/
def first : EStateM Failure (CacheOver σ κ α) (Option κ) := do
  if (← onTimes M.len) > 0 then
    return some (← onTimes M.first)
  else
    return none

/-- `if key in self: del self[key]` -/
def discard (key : κ) : EStateM Failure (CacheOver σ κ α) Unit := do
  if ← contains key then delItem M key else pure ()

/-- The loop of `sweep`, with the values that are closed; the callback tests and deletes keys. -/
def sweepLoop (close : α → List κ) (now : Time) : ℕ → EStateM Failure (CacheOver σ κ α) (List α)
  | 0 => pure []
  | cnt + 1 => do
    if (← onTimes M.len) = 0 then
      return []
    else
      -- `for key in self._keys_to_last_time: break`
      let key ← onTimes M.first
      let lastT ← onTimes (M.getItem key)
      if now - lastT ≤ (← MonadState.get).timeout then
        return []
      else
        let value ← stored key
        delStored key
        onTimes (M.delItem key)
        (close value).forM (discard M)
        return value :: (← sweepLoop close now cnt)

/-- The loop of `clear`, with the values that are closed, by a callback that deletes no keys. -/
def clearLoop (keep : ℕ) : ℕ → EStateM Failure (CacheOver σ κ α) (List α)
  | 0 => pure []
  | cnt + 1 => do
    if (← onTimes M.len) > keep then
      let key ← onTimes M.first
      let _lastT ← onTimes (M.getItem key)
      let value ← stored key
      delStored key
      onTimes (M.delItem key)
      return value :: (← clearLoop keep cnt)
    else
      return []

/-- `clear`; every turn of its loop deletes a key. -/
def clear (keep : ℕ) : EStateM Failure (CacheOver σ κ α) (List α) := do
  let cnt ← onTimes M.len
  clearLoop M keep cnt

/-! ## Calls -/

/-- A call of a method of the cache. -/
inductive Op (κ α : Type)
  | getItem (key : κ)
  | get (key : κ)
  | setItem (key : κ) (value : α)
  | delItem (key : κ)
  | contains (key : κ)
  | len
  | first
  /-- At most `cnt` items are swept. -/
  | sweep (cnt : ℕ) (close : α → List κ)
  | clear (keep : ℕ)

/-- What a method returns; `sweep` and `clear` also close values. -/
inductive Value (κ α : Type)
  | none
  | bool (b : Bool)
  | nat (n : ℕ)
  | key (key : Option κ)
  | value (value : Option α)
  | closed (few : Bool) (values : List α)
  deriving DecidableEq

/-- `return c < SWEEP_MAX_ITEMS`, which is 1024. -/
def Value.ofClosed (values : List α) : Value κ α := .closed (values.length < 1024) values

/-- A call of a method at the time `t`. -/
def call (t : Time) : Op κ α → EStateM Failure (CacheOver σ κ α) (Value κ α)
  | .getItem key => (fun value => .value (some value)) <$> getItem M t key
  | .get key => .value <$> get M t key
  | .setItem key value => (fun _ => .none) <$> setItem M t key value
  | .delItem key => (fun _ => .none) <$> delItem M key
  | .contains key => .bool <$> contains key
  | .len => .nat <$> len
  | .first => .key <$> first M
  | .sweep cnt close => .ofClosed <$> sweepLoop M close t cnt
  | .clear keep => .ofClosed <$> clear M keep

/-! ## Refinement -/

/-- Caches with the same values, over related dictionaries. -/
structure Over (R : σ → τ → Prop) (c : CacheOver σ κ α) (c' : CacheOver τ κ α) : Prop where
  timeout_eq : c.timeout = c'.timeout
  store_eq : c.store = c'.store
  times : R c.keysToLastTime c'.keysToLastTime

section

variable {R : σ → τ → Prop}

omit [DecidableEq κ] in
theorem refines_onTimes {m : EStateM Failure σ β} {n : EStateM Failure τ β} (h : Refines R m n) :
    Refines (Over (κ := κ) (α := α) R) (onTimes m) (onTimes n) := by
  intro c c' hc
  rw [onTimes, onTimes]
  generalize m c.keysToLastTime = r, n c'.keysToLastTime = r', h _ _ hc.times = hr
  cases hr with
  | ok b hr => exact .ok b ⟨hc.timeout_eq, hc.store_eq, hr⟩
  | error e hr => exact .error e ⟨hc.timeout_eq, hc.store_eq, hr⟩

theorem refines_stored (key : κ) : Refines (Over (α := α) R) (stored key) (stored key) := by
  intro c c' hc
  rw [stored, stored, hc.store_eq]
  cases c'.store.get? key with
  | some value => exact .ok value hc
  | none => exact .error _ hc

theorem refines_setStored (key : κ) (value : α) :
    Refines (Over R) (setStored key value) (setStored key value) := fun _ _ hc =>
  .ok () ⟨hc.timeout_eq, congrArg (Dict.set · key value) hc.store_eq, hc.times⟩

theorem refines_delStored (key : κ) :
    Refines (Over (α := α) R) (delStored key) (delStored key) := by
  intro c c' hc
  rw [delStored, delStored, hc.store_eq]
  split
  · exact .ok () ⟨hc.timeout_eq, rfl, hc.times⟩
  · exact .error _ hc

theorem refines_contains (key : κ) :
    Refines (Over (α := α) R) (contains key) (contains key) := by
  intro c c' hc
  rw [contains, contains, hc.store_eq]
  exact .ok _ hc

variable {M} {N : OrderedMap τ κ Time} (h : OrderedMap.Refined R M N)

include h

theorem refines_getItem (t : Time) (key : κ) :
    Refines (Over (α := α) R) (getItem M t key) (getItem N t key) :=
  (refines_onTimes (h.getItem key)).bind fun _ => (refines_onTimes (h.delItem key)).bind fun _ =>
    (refines_onTimes (h.setItem key t)).bind fun _ => refines_stored key

theorem refines_get (t : Time) (key : κ) :
    Refines (Over (α := α) R) (get M t key) (get N t key) := by
  intro c c' hc
  rw [get, get]
  generalize getItem M t key c = r, getItem N t key c' = r', refines_getItem h t key c c' hc = hr
  cases hr with
  | ok value hr => exact .ok _ hr
  | error e hr =>
    dsimp only
    split
    · exact .ok _ hr
    · exact .error _ hr

theorem refines_setItem (t : Time) (key : κ) (value : α) :
    Refines (Over R) (setItem M t key value) (setItem N t key value) := by
  refine (refines_onTimes (h.contains key)).bind fun found => ?_
  have hdel : Refines (Over (κ := κ) (α := α) R)
      (if found then onTimes (M.delItem key) else pure ())
      (if found then onTimes (N.delItem key) else pure ()) :=
    .ite (fun _ => refines_onTimes (h.delItem key)) fun _ => .pure ()
  exact hdel.bind fun _ => (refines_onTimes (h.setItem key t)).bind fun _ =>
    refines_setStored key value

theorem refines_delItem (key : κ) : Refines (Over (α := α) R) (delItem M key) (delItem N key) :=
  (refines_onTimes (h.getItem key)).bind fun _ => (refines_delStored key).bind fun _ =>
    refines_onTimes (h.delItem key)

theorem refines_discard (key : κ) : Refines (Over (α := α) R) (discard M key) (discard N key) :=
  (refines_contains key).bind fun _ => .ite (fun _ => refines_delItem h key) fun _ => .pure ()

omit [DecidableEq κ] in
theorem refines_first : Refines (Over (α := α) R) (first M) (first N) := by
  refine (refines_onTimes h.len).bind fun n => .ite (fun _ => ?_) fun _ => .pure _
  exact (refines_onTimes h.first).bind fun key => .pure _

theorem refines_sweepLoop (close : α → List κ) (now : Time) (cnt : ℕ) :
    Refines (Over R) (sweepLoop M close now cnt) (sweepLoop N close now cnt) := by
  induction cnt with
  | zero => exact .pure _
  | succ cnt ih =>
    refine (refines_onTimes h.len).bind fun n => .ite (fun _ => .pure _) fun _ => ?_
    refine (refines_onTimes h.first).bind fun key => ?_
    refine (refines_onTimes (h.getItem key)).bind fun lastT => ?_
    refine .get_bind fun c c' hc => ?_
    rw [hc.timeout_eq]
    refine .ite (fun _ => .pure _) fun _ => ?_
    refine (refines_stored key).bind fun value => (refines_delStored key).bind fun _ => ?_
    refine (refines_onTimes (h.delItem key)).bind fun _ => ?_
    exact (Refines.forM _ (refines_discard h)).bind fun _ => ih.bind fun values => .pure _

theorem refines_clear (keep : ℕ) : Refines (Over (α := α) R) (clear M keep) (clear N keep) := by
  have hloop (cnt : ℕ) : Refines (Over (α := α) R) (clearLoop M keep cnt)
      (clearLoop N keep cnt) := by
    induction cnt with
    | zero => exact .pure _
    | succ cnt ih =>
      refine (refines_onTimes h.len).bind fun n => .ite (fun _ => ?_) fun _ => .pure _
      refine (refines_onTimes h.first).bind fun key => ?_
      refine (refines_onTimes (h.getItem key)).bind fun lastT => ?_
      refine (refines_stored key).bind fun value => (refines_delStored key).bind fun _ => ?_
      exact (refines_onTimes (h.delItem key)).bind fun _ => ih.bind fun values => .pure _
  exact (refines_onTimes h.len).bind hloop

/-- Over a dictionary that refines another one, each method refines that over the other one. -/
theorem refines_call (t : Time) (op : Op κ α) : Refines (Over R) (call M t op) (call N t op) := by
  cases op with
  | getItem key => exact (refines_getItem h t key).map _
  | get key => exact (refines_get h t key).map _
  | setItem key value => exact (refines_setItem h t key value).map _
  | delItem key => exact (refines_delItem h key).map _
  | contains key => exact (refines_contains key).map _
  | len =>
    have hlen : Refines (Over (κ := κ) (α := α) R) len len := fun c c' hc => by
      rw [len, len, hc.store_eq]
      exact .ok _ hc
    exact hlen.map _
  | first => exact (refines_first h).map _
  | sweep cnt close => exact (refines_sweepLoop h close t cnt).map _
  | clear keep => exact (refines_clear h keep).map _

end

/-! ## Pairs in the order of their insertion -/

section

variable {c : CacheOver σ κ α} {key : κ} {value : α}

omit [DecidableEq κ] in
theorem onTimes_eq_ok {m : EStateM Failure σ β} {b : β} {keysToLastTime : σ}
    (h : m c.keysToLastTime = .ok b keysToLastTime) :
    onTimes m c = .ok b { c with keysToLastTime } := by
  rw [onTimes, h]

omit [DecidableEq κ] in
/-- A method that only reads. -/
theorem onTimes_eq_self {m : EStateM Failure σ β} {b : β}
    (h : m c.keysToLastTime = .ok b c.keysToLastTime) : onTimes m c = .ok b c :=
  onTimes_eq_ok h

theorem onTimes_setItem (t : Time) (key : κ) (c : CacheOver (Dict κ Time) κ α) :
    onTimes (Dict.methods.setItem key t) c =
      .ok () { c with keysToLastTime := c.keysToLastTime.set key t } := rfl

theorem onTimes_getItem_of_none {c : CacheOver (Dict κ Time) κ α}
    (h : c.keysToLastTime.get? key = none) :
    onTimes (Dict.methods.getItem key) c = .error (.raised .keyError) c := by
  rw [onTimes]
  dsimp only [Dict.methods]
  rw [h]

theorem stored_eq_ok (h : c.store.get? key = some value) : stored key c = .ok value c := by
  rw [stored, h]

theorem delStored_eq_ok (h : c.store.get? key = some value) :
    delStored key c = .ok () { c with store := c.store.del key } :=
  if_pos (Dict.contains_eq_true.2 ⟨value, h⟩)

end

end CacheOver

namespace LRUCache

open CacheOver

variable {κ α : Type} [DecidableEq κ]

/-- A cache, over the pairs of its keys and their times. -/
def toOver (c : LRUCache κ α) : CacheOver (Dict κ Time) κ α where
  timeout := c.timeout
  store := c.store
  keysToLastTime := c.keysToLastTime

/-- What a call at the time `t` does. -/
def spec (t : Time) : CacheOver.Op κ α → EStateM Failure (LRUCache κ α) (CacheOver.Value κ α)
  | .getItem key, c =>
    match c.getItem t key with
    | some (value, c') => .ok (.value (some value)) c'
    | none => .error (.raised .keyError) c
  | .get key, c => .ok (.value (c.get t key).1) (c.get t key).2
  | .setItem key value, c => .ok .none (c.setItem t key value)
  | .delItem key, c =>
    match c.delItem key with
    | some c' => .ok .none c'
    | none => .error (.raised .keyError) c
  | .contains key, c => .ok (.bool (c.contains key)) c
  | .len, c => .ok (.nat c.len) c
  | .first, c => .ok (.key c.first?) c
  | .sweep cnt close, c =>
    .ok (.ofClosed (sweepClose (fun value _ => close value) t cnt c).1)
      (sweepClose (fun value _ => close value) t cnt c).2
  | .clear keep, c =>
    match clear (fun _ _ => []) c keep with
    | .ok (closed, c') => .ok (.ofClosed closed) c'
    | .error e => .error (.raised e) c

variable {c : LRUCache κ α} {key : κ} {value : α}

/-- A key with a value has a time. -/
theorem exists_lastT (h : c.value? key = some value) :
    ∃ lastT, c.keysToLastTime.get? key = some lastT :=
  Dict.contains_eq_true.1 ((c.same_keys key).symm.trans (contains_of_value? h))

theorem get?_of_value?_eq_none (h : c.value? key = none) : c.keysToLastTime.get? key = none :=
  Dict.contains_eq_false.1 ((c.same_keys key).symm.trans (Dict.contains_eq_false.2 h))

theorem size_keysToLastTime (c : LRUCache κ α) : c.keysToLastTime.size = c.len := by
  rw [len_eq, Dict.size_eq]
  rfl

theorem getItem_toOver (t : Time) (h : c.value? key = some value) :
    CacheOver.getItem Dict.methods t key c.toOver =
      .ok value (c.touch t key (contains_of_value? h)).toOver := by
  obtain ⟨lastT, hlastT⟩ := exists_lastT h
  unfold CacheOver.getItem
  rw [bind_of_ok (onTimes_eq_self (Dict.getItem_eq_ok hlastT)),
    bind_of_ok (onTimes_eq_ok (Dict.delItem_eq_ok hlastT)), bind_of_ok (onTimes_setItem _ _ _)]
  exact stored_eq_ok h

theorem getItem_toOver_of_none (t : Time) (h : c.value? key = none) :
    CacheOver.getItem Dict.methods t key c.toOver = .error (.raised .keyError) c.toOver := by
  unfold CacheOver.getItem
  exact bind_of_error (onTimes_getItem_of_none (get?_of_value?_eq_none h))

theorem setItem_toOver (c : LRUCache κ α) (t : Time) (key : κ) (value : α) :
    CacheOver.setItem Dict.methods t key value c.toOver =
      .ok () (c.setItem t key value).toOver := by
  cases hfound : c.keysToLastTime.contains key with
  | true =>
    obtain ⟨lastT, hlastT⟩ := Dict.contains_eq_true.1 hfound
    unfold CacheOver.setItem
    rw [bind_of_ok (onTimes_eq_self (Dict.contains_eq_ok hfound)), if_pos rfl,
      bind_of_ok (onTimes_eq_ok (Dict.delItem_eq_ok hlastT)), bind_of_ok (onTimes_setItem _ _ _)]
    rfl
  | false =>
    -- Here nothing is deleted, which is as good as deleting what is not there.
    have hdel : (c.setItem t key value).toOver =
        ⟨c.timeout, c.store.set key value, c.keysToLastTime.set key t⟩ :=
      congrArg (fun times : Dict κ Time =>
        CacheOver.mk c.timeout (c.store.set key value) (times.set key t)) (Dict.del_eq_self hfound)
    unfold CacheOver.setItem
    rw [bind_of_ok (onTimes_eq_self (Dict.contains_eq_ok hfound)), if_neg (by decide), hdel]
    rfl

theorem get_toOver (c : LRUCache κ α) (t : Time) (key : κ) :
    CacheOver.get Dict.methods t key c.toOver =
      .ok (c.get t key).1 (c.get t key).2.toOver := by
  unfold CacheOver.get
  cases h : c.value? key with
  | some value => rw [getItem_toOver t h, get_of_value? h]
  | none =>
    rw [getItem_toOver_of_none t h, get_eq_none h]
    exact if_pos rfl

theorem delItem_eq_none (h : c.value? key = none) : c.delItem key = none :=
  if_neg (by rw [contains_eq_false.2 h]; decide)

/-- The deletion of a key that has a value. -/
theorem del_toOver {c' : LRUCache κ α} (h : c.delItem key = some c') :
    delStored key c.toOver = .ok () { c.toOver with store := c'.store } ∧
      onTimes (Dict.methods.delItem key) { c.toOver with store := c'.store } =
        .ok () c'.toOver := by
  rw [LRUCache.delItem] at h
  split at h
  case isFalse => cases h
  case isTrue hkey =>
    obtain ⟨value, hvalue⟩ := contains_eq_true.1 hkey
    obtain ⟨lastT, hlastT⟩ := exists_lastT hvalue
    cases h
    exact ⟨if_pos hkey, onTimes_eq_ok (Dict.delItem_eq_ok hlastT)⟩

theorem delItem_toOver {c' : LRUCache κ α} (h : c.delItem key = some c')
    (hvalue : c.value? key = some value) :
    CacheOver.delItem Dict.methods key c.toOver = .ok () c'.toOver := by
  obtain ⟨lastT, hlastT⟩ := exists_lastT hvalue
  obtain ⟨hstore, htimes⟩ := del_toOver h
  unfold CacheOver.delItem
  rw [bind_of_ok (onTimes_eq_self (Dict.getItem_eq_ok hlastT)), bind_of_ok hstore]
  exact htimes

theorem delItem_toOver_of_none (h : c.value? key = none) :
    CacheOver.delItem Dict.methods key c.toOver = .error (.raised .keyError) c.toOver := by
  unfold CacheOver.delItem
  exact bind_of_error (onTimes_getItem_of_none (get?_of_value?_eq_none h))

theorem discard_toOver (c : LRUCache κ α) (key : κ) :
    CacheOver.discard Dict.methods key c.toOver = .ok () (c.discard key).toOver := by
  unfold CacheOver.discard
  cases hkey : c.contains key with
  | true =>
    have hcontains : CacheOver.contains key c.toOver = .ok true c.toOver :=
      congrArg (EStateM.Result.ok · _) hkey
    obtain ⟨c', hdel, -⟩ := delItem_of_contains hkey
    obtain ⟨value, hvalue⟩ := contains_eq_true.1 hkey
    rw [bind_of_ok hcontains, if_pos rfl, delItem_toOver hdel hvalue, LRUCache.discard, hdel]
    rfl
  | false =>
    have hcontains : CacheOver.contains key c.toOver = .ok false c.toOver :=
      congrArg (EStateM.Result.ok · _) hkey
    have hdel := delItem_eq_none (contains_eq_false.1 hkey)
    rw [bind_of_ok hcontains, if_neg (by decide), LRUCache.discard, hdel]
    rfl

/-- A close callback. -/
theorem forM_discard_toOver (ks : List κ) (c : LRUCache κ α) :
    ks.forM (CacheOver.discard Dict.methods) c.toOver = .ok () (ks.foldl discard c).toOver := by
  induction ks generalizing c with
  | nil => rfl
  | cons k ks ih => exact (bind_of_ok (discard_toOver c k)).trans (ih _)

/-- The cache is empty, or the first key has a time and a value and can be deleted. -/
theorem toOver_cases (c : LRUCache κ α) :
    c.keysToLastTime.size = 0 ∧ c.first? = none ∨
    ∃ (e : Item κ α) (c' : LRUCache κ α), 0 < c.keysToLastTime.size ∧ c.first? = some e.key ∧
      Dict.methods.first c.keysToLastTime = .ok e.key c.keysToLastTime ∧
      c.keysToLastTime.get? e.key = some e.lastTime ∧ c.value? e.key = some e.value ∧
      c.delItem e.key = some c' := by
  have hfirst := first?_eq c
  obtain ⟨hnil, hnone⟩ | ⟨e, rest, c', hitems, hsome, hlastT, hvalue, hdel, -⟩ := first_cases c
  · refine .inl ⟨?_, hnone⟩
    rw [size_keysToLastTime, ← length_items, hnil]
    rfl
  · refine .inr ⟨e, c', ?_, hsome, ?_, hlastT, hvalue, hdel⟩
    · rw [size_keysToLastTime, ← length_items, hitems]
      exact Nat.succ_pos _
    · have hhead : c.keysToLastTime.keys.head? = some e.key := hfirst.symm.trans hsome
      dsimp only [Dict.methods]
      rw [hhead]

theorem first_toOver (c : LRUCache κ α) :
    CacheOver.first Dict.methods c.toOver = .ok c.first? c.toOver := by
  unfold CacheOver.first
  have hlen : Dict.methods.len c.keysToLastTime = .ok c.keysToLastTime.size c.keysToLastTime :=
    rfl
  obtain ⟨hsize, hnone⟩ | ⟨e, c', hsize, hsome, hfirst, -⟩ := toOver_cases c
  · rw [bind_of_ok (onTimes_eq_self hlen), if_neg hsize.not_gt, hnone]
    rfl
  · rw [bind_of_ok (onTimes_eq_self hlen), if_pos hsize, bind_of_ok (onTimes_eq_self hfirst),
      hsome]
    rfl

theorem sweepLoop_toOver (close : α → List κ) (now : Time) (cnt : ℕ) (c : LRUCache κ α) :
    CacheOver.sweepLoop Dict.methods close now cnt c.toOver =
      .ok (sweepClose (fun value _ => close value) now cnt c).1
        (sweepClose (fun value _ => close value) now cnt c).2.toOver := by
  induction cnt generalizing c with
  | zero => rfl
  | succ cnt ih =>
    rw [CacheOver.sweepLoop, sweepClose]
    have hlen : Dict.methods.len c.keysToLastTime =
      .ok c.keysToLastTime.size c.keysToLastTime := rfl
    obtain ⟨hsize, hnone⟩ | ⟨e, c', hsize, hsome, hfirst, hlastT, hvalue, hdel⟩ := toOver_cases c
    · rw [bind_of_ok (onTimes_eq_self hlen), if_pos hsize, hnone]
      rfl
    · obtain ⟨hstore, htimes⟩ := del_toOver hdel
      have hvalue' : stored e.key c.toOver = .ok e.value c.toOver := stored_eq_ok hvalue
      rw [bind_of_ok (onTimes_eq_self hlen), if_neg hsize.ne',
        bind_of_ok (onTimes_eq_self hfirst),
        bind_of_ok (onTimes_eq_self (Dict.getItem_eq_ok hlastT)), hsome]
      dsimp only
      rw [hlastT, hvalue, hdel]
      dsimp only
      have hget : (MonadState.get : EStateM Failure (CacheOver (Dict κ Time) κ α) _) c.toOver =
        .ok c.toOver c.toOver := rfl
      rw [bind_of_ok hget]
      have htimeout : c.toOver.timeout = c.timeout := rfl
      -- Both loops now compare the same times.
      rw [htimeout]
      split
      · rfl
      · -- The item is deleted, then the callback runs, then the rest of the loop.
        rw [bind_of_ok hvalue', bind_of_ok hstore, bind_of_ok htimes,
          bind_of_ok (forM_discard_toOver _ c'), bind_of_ok (ih _)]
        rfl

theorem clearLoop_toOver (keep cnt : ℕ) (c : LRUCache κ α) :
    ∃ closed c', LRUCache.clearLoop (fun _ _ => []) keep cnt c = .ok (closed, c') ∧
      CacheOver.clearLoop Dict.methods keep cnt c.toOver = .ok closed c'.toOver := by
  induction cnt generalizing c with
  | zero => exact ⟨_, _, rfl, rfl⟩
  | succ cnt ih =>
    have hlen : Dict.methods.len c.keysToLastTime = .ok c.len c.keysToLastTime :=
      congrArg (EStateM.Result.ok · _) (size_keysToLastTime c)
    rw [LRUCache.clearLoop, CacheOver.clearLoop, bind_of_ok (onTimes_eq_self hlen)]
    split
    case isFalse => exact ⟨_, _, rfl, rfl⟩
    case isTrue hkeep =>
      obtain ⟨hsize, -⟩ | ⟨e, c', -, hsome, hfirst, hlastT, hvalue, hdel⟩ := toOver_cases c
      · -- An empty cache is not longer than `keep`.
        rw [size_keysToLastTime] at hsize
        omega
      · obtain ⟨hstore, htimes⟩ := del_toOver hdel
        obtain ⟨closed, c'', hclear, hover⟩ := ih c'
        have hvalue' : stored e.key c.toOver = .ok e.value c.toOver := stored_eq_ok hvalue
        have hclosed : (closeCallback (fun _ _ => []) e.value c).delItem e.key = some c' := hdel
        refine ⟨e.value :: closed, c'', ?_, ?_⟩
        · rw [hsome]
          dsimp only
          rw [hvalue]
          dsimp only
          rw [hclosed]
          dsimp only
          rw [hclear]
          rfl
        · rw [bind_of_ok (onTimes_eq_self hfirst),
            bind_of_ok (onTimes_eq_self (Dict.getItem_eq_ok hlastT)), bind_of_ok hvalue',
            bind_of_ok hstore, bind_of_ok htimes, bind_of_ok hover]
          rfl

theorem clear_toOver (keep : ℕ) (c : LRUCache κ α) :
    ∃ closed c', LRUCache.clear (fun _ _ => []) c keep = .ok (closed, c') ∧
      CacheOver.clear Dict.methods keep c.toOver = .ok closed c'.toOver := by
  obtain ⟨closed, c', hclear, hover⟩ := clearLoop_toOver keep c.len c
  have hlen : Dict.methods.len c.keysToLastTime = .ok c.len c.keysToLastTime :=
    congrArg (EStateM.Result.ok · _) (size_keysToLastTime c)
  refine ⟨closed, c', hclear, ?_⟩
  unfold CacheOver.clear
  rw [bind_of_ok (onTimes_eq_self hlen), hover]

/-- Over the pairs in the order of their insertion, each call does what it does on the cache. -/
theorem call_toOver (t : Time) (op : CacheOver.Op κ α) :
    Refines (fun c' c => c' = c.toOver) (CacheOver.call Dict.methods t op) (spec t op) := by
  rintro _ c rfl
  cases op with
  | getItem key =>
    cases hvalue : c.value? key with
    | some value =>
      have hspec : spec t (.getItem key) c =
          .ok (.value (some value)) (c.touch t key (contains_of_value? hvalue)) := by
        dsimp only [spec]
        rw [getItem_of_value? hvalue]
      exact .of_ok (map_of_ok (getItem_toOver t hvalue)) hspec rfl
    | none =>
      have hspec : spec t (.getItem key) c = .error (.raised .keyError) c := by
        dsimp only [spec]
        rw [getItem_eq_none hvalue]
      exact .of_error (map_of_error (getItem_toOver_of_none t hvalue)) hspec rfl
  | get key =>
    exact .of_ok (map_of_ok (get_toOver c t key)) rfl rfl
  | setItem key value =>
    exact .of_ok (map_of_ok (setItem_toOver c t key value)) rfl rfl
  | delItem key =>
    cases hvalue : c.value? key with
    | some value =>
      obtain ⟨c', hdel, -⟩ := delItem_of_contains (contains_of_value? hvalue)
      have hspec : spec t (.delItem key) c = .ok .none c' := by
        dsimp only [spec]
        rw [hdel]
      exact .of_ok (map_of_ok (delItem_toOver hdel hvalue)) hspec rfl
    | none =>
      have hspec : spec t (.delItem key) c = .error (.raised .keyError) c := by
        dsimp only [spec]
        rw [delItem_eq_none hvalue]
      exact .of_error (map_of_error (delItem_toOver_of_none hvalue)) hspec rfl
  | contains key => exact .ok _ rfl
  | len => exact .ok _ rfl
  | first =>
    exact .of_ok (map_of_ok (first_toOver c)) rfl rfl
  | sweep cnt close =>
    exact .of_ok (map_of_ok (sweepLoop_toOver close t cnt c)) rfl rfl
  | clear keep =>
    obtain ⟨closed, c', hclear, hover⟩ := clear_toOver keep c
    have hspec : spec t (.clear keep) c = .ok (.ofClosed closed) c' := by
      dsimp only [spec]
      rw [hclear]
    exact .of_ok (map_of_ok hover) hspec rfl

end LRUCache

/-- In every run, over the links of `OrderedDict`, each call ends as it does on the cache. -/
theorem linkedCache_results {κ α : Type} [DecidableEq κ] (timeout : Time)
    (calls : List (Time × CacheOver.Op κ α)) :
    results (fun c => CacheOver.call OrderedDict.methods c.1 c.2)
        (.new timeout OrderedDict.new) calls =
      results (fun c => LRUCache.spec c.1 c.2) ({ timeout } : LRUCache κ α) calls := by
  have hlinks : CacheOver.Over OrderedDict.Represents
      (.new timeout .new : CacheOver (OrderedDict κ Time) κ α)
      (.new timeout .empty : CacheOver (Dict κ Time) κ α) := ⟨rfl, rfl, .new⟩
  have hdict : CacheOver.new timeout .empty = ({ timeout } : LRUCache κ α).toOver := rfl
  -- The links are replaced by pairs, and then the cache over pairs by the cache.
  have hfirst := (Refines.results_eq (fun c : Time × CacheOver.Op κ α =>
    CacheOver.refines_call OrderedDict.refined c.1 c.2) hlinks calls).1
  have hsecond := (Refines.results_eq (fun c : Time × CacheOver.Op κ α =>
    LRUCache.call_toOver c.1 c.2) hdict calls).1
  exact hfirst.trans hsecond

end ShadowsocksR

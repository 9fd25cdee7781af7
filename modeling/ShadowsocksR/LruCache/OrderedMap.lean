import ShadowsocksR.Common
import ShadowsocksR.Lib.Dict
import ShadowsocksR.Lib.Refinement

/-!
# The methods of ordered dictionaries

Some methods of an ordered dictionary know its inside, and the others do not
depend on it.

* `OrderedMap`: the former, and `values`, `pop`, `popitem` and so on, which are
  made from them;
* `OrderedMap.Refined`: when the former refine those of another dictionary, all
  methods do;
* `Dict.methods`: the methods on a list of pairs in the order of their insertion;
* `Dict.spec`, `Dict.call_eq_spec`: what each method does there.
-/

namespace ShadowsocksR

/-- How a method ends without a value. -/
inductive Failure
  | raised (e : PyExc)
  | stopIteration
  /-- An iteration that does not come to the sentinel. -/
  | endless
  deriving DecidableEq

/-- The methods of an ordered dictionary that know its inside. -/
structure OrderedMap (σ κ α : Type) where
  contains : κ → EStateM Failure σ Bool
  len : EStateM Failure σ ℕ
  getItem : κ → EStateM Failure σ α
  setItem : κ → α → EStateM Failure σ Unit
  delItem : κ → EStateM Failure σ Unit
  /-- `next(iter(self))` -/
  first : EStateM Failure σ κ
  /-- `next(reversed(self))` -/
  last : EStateM Failure σ κ
  /-- `list(self)` -/
  keys : EStateM Failure σ (List κ)
  /-- `list(reversed(self))` -/
  reversed : EStateM Failure σ (List κ)
  clear : EStateM Failure σ Unit

namespace OrderedMap

variable {σ τ κ α : Type} (M : OrderedMap σ κ α)

/-! ## The methods that do not depend on the inside -/

/-- `values` -/
def values : EStateM Failure σ (List α) := do
  let keys ← M.keys
  keys.mapM fun key => M.getItem key

/-- `items` -/
def items : EStateM Failure σ (List (κ × α)) := do
  let keys ← M.keys
  keys.mapM fun key => return (key, ← M.getItem key)

/-- `pop`, with the default or without one. -/
def pop (key : κ) (default : Option α) : EStateM Failure σ α := do
  if ← M.contains key then
    let result ← M.getItem key
    M.delItem key
    return result
  else
    match default with
    | none => throw (.raised .keyError)
    | some default => return default

/-- `setdefault` -/
def setdefault (key : κ) (default : α) : EStateM Failure σ α := do
  if ← M.contains key then
    M.getItem key
  else
    M.setItem key default
    return default

/-- `next(reversed(self) if last else iter(self))` -/
def next (last : Bool) : EStateM Failure σ κ := if last then M.last else M.first

/-- `popitem` -/
def popitem (last : Bool) : EStateM Failure σ (κ × α) := do
  if (← M.len) = 0 then
    throw (.raised .keyError)
  else
    let key ← M.next last
    let value ← M.pop key none
    return (key, value)

/-- `update` with pairs; also `fromkeys`. -/
def update (items : List (κ × α)) : EStateM Failure σ Unit :=
  items.forM fun (key, value) => M.setItem key value

/-! ## Calls -/

/-- A call of a method. -/
inductive Op (κ α : Type)
  | contains (key : κ)
  | len
  | getItem (key : κ)
  | setItem (key : κ) (value : α)
  | delItem (key : κ)
  | first
  | last
  | keys
  | reversed
  | clear
  | values
  | items
  | pop (key : κ) (default : Option α)
  | setdefault (key : κ) (default : α)
  | popitem (last : Bool)
  | update (items : List (κ × α))

/-- What a method returns. -/
inductive Value (κ α : Type)
  | none
  | bool (b : Bool)
  | nat (n : ℕ)
  | key (key : κ)
  | value (value : α)
  | item (item : κ × α)
  | keys (keys : List κ)
  | values (values : List α)
  | items (items : List (κ × α))
  deriving DecidableEq

/-- A call of a method. -/
def call : Op κ α → EStateM Failure σ (Value κ α)
  | .contains key => .bool <$> M.contains key
  | .len => .nat <$> M.len
  | .getItem key => .value <$> M.getItem key
  | .setItem key value => (fun _ => .none) <$> M.setItem key value
  | .delItem key => (fun _ => .none) <$> M.delItem key
  | .first => .key <$> M.first
  | .last => .key <$> M.last
  | .keys => .keys <$> M.keys
  | .reversed => .keys <$> M.reversed
  | .clear => (fun _ => .none) <$> M.clear
  | .values => .values <$> M.values
  | .items => .items <$> M.items
  | .pop key default => .value <$> M.pop key default
  | .setdefault key default => .value <$> M.setdefault key default
  | .popitem last => .item <$> M.popitem last
  | .update items => (fun _ => .none) <$> M.update items

/-! ## Refinement -/

/-- The methods that know the inside refine others. -/
structure Refined (R : σ → τ → Prop) (M : OrderedMap σ κ α) (N : OrderedMap τ κ α) : Prop where
  contains : ∀ key, Refines R (M.contains key) (N.contains key)
  len : Refines R M.len N.len
  getItem : ∀ key, Refines R (M.getItem key) (N.getItem key)
  setItem : ∀ key value, Refines R (M.setItem key value) (N.setItem key value)
  delItem : ∀ key, Refines R (M.delItem key) (N.delItem key)
  first : Refines R M.first N.first
  last : Refines R M.last N.last
  keys : Refines R M.keys N.keys
  reversed : Refines R M.reversed N.reversed
  clear : Refines R M.clear N.clear

namespace Refined

variable {M} {N : OrderedMap τ κ α} {R : σ → τ → Prop} (h : Refined R M N)

include h

theorem next (last : Bool) : Refines R (M.next last) (N.next last) :=
  .ite (fun _ => h.last) fun _ => h.first

theorem pop (key : κ) (default : Option α) : Refines R (M.pop key default) (N.pop key default) := by
  refine (h.contains key).bind fun b => .ite (fun _ => ?_) fun _ => ?_
  · exact (h.getItem key).bind fun result => (h.delItem key).bind fun _ => .pure result
  · cases default with
    | none => exact .throw _
    | some default => exact .pure default

/-- Then all methods do. -/
theorem call (op : Op κ α) : Refines R (M.call op) (N.call op) := by
  cases op with
  | contains key => exact (h.contains key).map _
  | len => exact h.len.map _
  | getItem key => exact (h.getItem key).map _
  | setItem key value => exact (h.setItem key value).map _
  | delItem key => exact (h.delItem key).map _
  | first => exact h.first.map _
  | last => exact h.last.map _
  | keys => exact h.keys.map _
  | reversed => exact h.reversed.map _
  | clear => exact h.clear.map _
  | values => exact (h.keys.bind fun keys => .mapM keys h.getItem).map _
  | items =>
    refine (h.keys.bind fun keys => .mapM keys fun key => ?_).map _
    exact (h.getItem key).bind fun value => .pure (key, value)
  | pop key default => exact (h.pop key default).map _
  | setdefault key default =>
    refine ((h.contains key).bind fun b => .ite (fun _ => h.getItem key) fun _ => ?_).map _
    exact (h.setItem key default).bind fun _ => .pure default
  | popitem last =>
    refine (h.len.bind fun n => .ite (fun _ => .throw _) fun _ => ?_).map _
    refine (h.next last).bind fun key => ?_
    exact (h.pop key none).bind fun value => .pure (key, value)
  | update items => exact (Refines.forM items fun item => h.setItem item.1 item.2).map _

end Refined

end OrderedMap

/-! ## What the methods are for -/

namespace Dict

open OrderedMap

variable {κ α : Type} [DecidableEq κ]

/-- The methods, on the pairs in the order of their insertion. -/
def methods : OrderedMap (Dict κ α) κ α where
  contains key d := .ok (d.contains key) d
  len d := .ok d.size d
  getItem key d :=
    match d.get? key with
    | some value => .ok value d
    | none => .error (.raised .keyError) d
  setItem key value d := .ok () (d.set key value)
  delItem key d := if d.contains key then .ok () (d.del key) else .error (.raised .keyError) d
  first d :=
    match d.keys.head? with
    | some key => .ok key d
    | none => .error .stopIteration d
  last d :=
    match d.keys.getLast? with
    | some key => .ok key d
    | none => .error .stopIteration d
  keys d := .ok d.keys d
  reversed d := .ok d.keys.reverse d
  clear _ := .ok () empty

/-- What a call does to the pairs. -/
def spec : Op κ α → EStateM Failure (Dict κ α) (Value κ α)
  | .contains key, d => .ok (.bool (d.contains key)) d
  | .len, d => .ok (.nat d.entries.length) d
  | .getItem key, d =>
    match d.get? key with
    | some value => .ok (.value value) d
    | none => .error (.raised .keyError) d
  | .setItem key value, d => .ok .none (d.set key value)
  | .delItem key, d =>
    if d.contains key then .ok .none (d.del key) else .error (.raised .keyError) d
  | .first, d =>
    match d.entries.head? with
    | some item => .ok (.key item.1) d
    | none => .error .stopIteration d
  | .last, d =>
    match d.entries.getLast? with
    | some item => .ok (.key item.1) d
    | none => .error .stopIteration d
  | .keys, d => .ok (.keys (d.entries.map Prod.fst)) d
  | .reversed, d => .ok (.keys (d.entries.map Prod.fst).reverse) d
  | .clear, _ => .ok .none empty
  | .values, d => .ok (.values (d.entries.map Prod.snd)) d
  | .items, d => .ok (.items d.entries) d
  | .pop key default, d =>
    match d.get? key, default with
    | some value, _ => .ok (.value value) (d.del key)
    | none, some default => .ok (.value default) d
    | none, none => .error (.raised .keyError) d
  | .setdefault key default, d =>
    match d.get? key with
    | some value => .ok (.value value) d
    | none => .ok (.value default) (d.set key default)
  | .popitem last, d =>
    match if last then d.entries.getLast? else d.entries.head? with
    | some item => .ok (.item item) (d.del item.1)
    | none => .error (.raised .keyError) d
  | .update items, d => .ok .none (items.foldl (fun d item => d.set item.1 item.2) d)

variable {d : Dict κ α} {key : κ} {value : α}

theorem contains_eq_ok {b : Bool} (h : d.contains key = b) : methods.contains key d = .ok b d :=
  congrArg (EStateM.Result.ok · d) h

theorem getItem_eq_ok (h : d.get? key = some value) : methods.getItem key d = .ok value d := by
  dsimp only [methods]
  rw [h]

theorem delItem_eq_ok (h : d.get? key = some value) : methods.delItem key d = .ok () (d.del key) :=
  if_pos (contains_eq_true.2 ⟨value, h⟩)

/-- A key that is there is popped. -/
theorem pop_eq_ok (h : d.get? key = some value) (default : Option α) :
    methods.pop key default d = .ok value (d.del key) := by
  have hcontains : d.contains key = true := contains_eq_true.2 ⟨value, h⟩
  unfold pop
  rw [bind_of_ok (contains_eq_ok hcontains), if_pos rfl, bind_of_ok (getItem_eq_ok h),
    bind_of_ok (delItem_eq_ok h)]
  rfl

theorem pop_of_none (h : d.get? key = none) (default : Option α) :
    methods.pop key default d = match default with
      | some default => .ok default d
      | none => .error (.raised .keyError) d := by
  unfold pop
  rw [bind_of_ok (contains_eq_ok (contains_eq_false.2 h)), if_neg (by decide)]
  cases default <;> rfl

theorem first_of_head? {item : Option (κ × α)} (h : d.entries.head? = item) :
    methods.first d = match item with
      | some item => .ok item.1 d
      | none => .error .stopIteration d := by
  have hkeys : d.keys.head? = item.map Prod.fst := by rw [keys, List.head?_map, h]
  dsimp only [methods]
  rw [hkeys]
  cases item <;> rfl

theorem last_of_getLast? {item : Option (κ × α)} (h : d.entries.getLast? = item) :
    methods.last d = match item with
      | some item => .ok item.1 d
      | none => .error .stopIteration d := by
  have hkeys : d.keys.getLast? = item.map Prod.fst := by rw [keys, List.getLast?_map, h]
  dsimp only [methods]
  rw [hkeys]
  cases item <;> rfl

/-- The last item, or the first one, is popped. -/
theorem popitem_eq_ok {last : Bool} {item : κ × α}
    (h : (if last then d.entries.getLast? else d.entries.head?) = some item) :
    methods.popitem last d = .ok item (d.del item.1) := by
  -- An item at an end is an item, so the dictionary is not empty and has its key.
  have hmem : item ∈ d.entries := by
    split at h
    · exact List.mem_of_getLast? h
    · exact List.mem_of_head? h
  have hsize : d.size ≠ 0 := fun hsize => by
    rw [List.length_eq_zero_iff.1 hsize] at hmem
    exact absurd hmem List.not_mem_nil
  have hnext : methods.next last d = .ok item.1 d := by
    cases last with
    | true => exact last_of_getLast? h
    | false => exact first_of_head? h
  have hlen : methods.len d = .ok d.size d := rfl
  unfold popitem
  rw [bind_of_ok hlen, if_neg hsize, bind_of_ok hnext,
    bind_of_ok (pop_eq_ok (mem_entries.1 hmem) none)]
  rfl

theorem popitem_of_none {last : Bool}
    (h : (if last then d.entries.getLast? else d.entries.head?) = none) :
    methods.popitem last d = .error (.raised .keyError) d := by
  have hnil : d.entries = [] := by
    split at h
    · exact List.getLast?_eq_none_iff.1 h
    · exact List.head?_eq_none_iff.1 h
  have hlen : methods.len d = .ok 0 d :=
    congrArg (EStateM.Result.ok · d) (List.length_eq_zero_iff.2 hnil)
  unfold popitem
  rw [bind_of_ok hlen, if_pos rfl]
  rfl

theorem setdefault_of_get? {found : Option α} (h : d.get? key = found) (default : α) :
    methods.setdefault key default d = match found with
      | some value => .ok value d
      | none => .ok default (d.set key default) := by
  unfold setdefault
  cases found with
  | some value =>
    have hcontains : d.contains key = true := contains_eq_true.2 ⟨value, h⟩
    rw [bind_of_ok (contains_eq_ok hcontains), if_pos rfl]
    exact getItem_eq_ok h
  | none =>
    rw [bind_of_ok (contains_eq_ok (contains_eq_false.2 h)), if_neg (by decide)]
    rfl

/-- Deleting a key that is not there. -/
theorem del_eq_self (h : d.contains key = false) : d.del key = d :=
  Dict.ext (List.filter_eq_self.2 fun e he => decide_eq_true fun heq => by
    rw [contains_eq_false, ← heq, mem_entries.1 he] at h
    cases h)

omit [DecidableEq κ] in
/-- A loop over the keys of some pairs. -/
theorem mapM_keys {β : Type} {g : κ → EStateM Failure (Dict κ α) β} {f : κ × α → β}
    {es : List (κ × α)} (h : ∀ e ∈ es, g e.1 d = .ok (f e) d) :
    (es.map Prod.fst).mapM g d = .ok (es.map f) d := by
  induction es with
  | nil => rfl
  | cons e es ih =>
    rw [List.map_cons, List.mapM_cons, bind_of_ok (h e List.mem_cons_self),
      bind_of_ok (ih fun e' he' => h e' (List.mem_cons_of_mem _ he'))]
    rfl

theorem values_eq_ok (d : Dict κ α) : methods.values d = .ok (d.entries.map Prod.snd) d := by
  have hkeys : methods.keys d = .ok d.keys d := rfl
  unfold values
  rw [bind_of_ok hkeys]
  exact mapM_keys fun e he => getItem_eq_ok (mem_entries.1 he)

theorem items_eq_ok (d : Dict κ α) : methods.items d = .ok d.entries d := by
  have hkeys : methods.keys d = .ok d.keys d := rfl
  unfold items
  rw [bind_of_ok hkeys, ← List.map_id d.entries, keys]
  refine mapM_keys fun e he => ?_
  rw [bind_of_ok (getItem_eq_ok (mem_entries.1 he))]
  rfl

theorem update_eq_ok (items : List (κ × α)) (d : Dict κ α) :
    methods.update items d = .ok () (items.foldl (fun d item => d.set item.1 item.2) d) := by
  induction items generalizing d with
  | nil => rfl
  | cons item items ih => exact ih (d.set item.1 item.2)

/-- The calls of the methods that are made from others, too, do what they are for. -/
theorem call_eq_spec (op : Op κ α) (d : Dict κ α) : methods.call op d = spec op d := by
  cases op with
  | contains key => rfl
  | len => rfl
  | getItem key =>
    dsimp only [spec]
    cases h : d.get? key with
    | some value => exact map_of_ok (getItem_eq_ok h)
    | none =>
      refine map_of_error ?_
      dsimp only [methods]
      rw [h]
  | setItem key value => rfl
  | delItem key =>
    dsimp only [spec]
    split
    case isTrue h => exact map_of_ok (if_pos h)
    case isFalse h => exact map_of_error (if_neg h)
  | first =>
    dsimp only [spec]
    cases h : d.entries.head? with
    | some item => exact map_of_ok (first_of_head? h)
    | none => exact map_of_error (first_of_head? h)
  | last =>
    dsimp only [spec]
    cases h : d.entries.getLast? with
    | some item => exact map_of_ok (last_of_getLast? h)
    | none => exact map_of_error (last_of_getLast? h)
  | keys => rfl
  | reversed => rfl
  | clear => rfl
  | values =>
    exact map_of_ok (values_eq_ok d)
  | items =>
    exact map_of_ok (items_eq_ok d)
  | pop key default =>
    dsimp only [spec]
    cases h : d.get? key with
    | some value => exact map_of_ok (pop_eq_ok h default)
    | none =>
      cases default with
      | some default => exact map_of_ok (pop_of_none h (some default))
      | none => exact map_of_error (pop_of_none h none)
  | setdefault key default =>
    dsimp only [spec]
    cases h : d.get? key with
    | some value => exact map_of_ok (setdefault_of_get? h default)
    | none => exact map_of_ok (setdefault_of_get? h default)
  | popitem last =>
    dsimp only [spec]
    cases h : if last then d.entries.getLast? else d.entries.head? with
    | some item => exact map_of_ok (popitem_eq_ok h)
    | none => exact map_of_error (popitem_of_none h)
  | update items =>
    exact map_of_ok (update_eq_ok items d)

end Dict

end ShadowsocksR

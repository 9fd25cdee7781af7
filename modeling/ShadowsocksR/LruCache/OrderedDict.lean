import Mathlib.Data.List.Perm.Subperm
import ShadowsocksR.Lib.LinkedRing
import ShadowsocksR.LruCache.OrderedMap

/-!
# The ordered dictionary

`ordereddict.OrderedDict`, which `lru_cache` takes where `collections` has none:
a `dict`, and a doubly linked list of its keys with a sentinel, whose links are
found by `__map`.

* `OrderedDict.methods`: the methods that know the links;
* `Represents`: the links are a ring of the keys, in the order of their
  insertion;
* `refined`: one method keeps that, and ends as on a list of pairs;
* `orderedDict_results`: in every run, each method does what it is for.
-/

namespace ShadowsocksR

open Linked

/-- `OrderedDict` -/
structure OrderedDict (κ α : Type) where
  /-- The inherited `dict`. -/
  dict : Dict κ α
  /-- The links, at the addresses of their making. -/
  links : Heap κ
  root : ℕ
  map : Dict κ ℕ
  /-- The address of the next link. -/
  fresh : ℕ

namespace OrderedDict

variable {κ α : Type}

/-- `__init__`, of an empty dictionary. -/
def new : OrderedDict κ α where
  dict := .empty
  links := fun _ => ⟨0, 0, none⟩
  root := 0
  map := .empty
  fresh := 1

/-- The keys from the sentinel to the sentinel. -/
def iterate (o : OrderedDict κ α) (links : Heap κ) :
    EStateM.Result Failure (OrderedDict κ α) (List κ) :=
  match links.walk o.root o.fresh (links o.root).next with
  | some keys => .ok keys o
  | none => .error .endless o

/-- The first key of an iteration. -/
def startAt (o : OrderedDict κ α) (curr : ℕ) : EStateM.Result Failure (OrderedDict κ α) κ :=
  if curr = o.root then .error .stopIteration o
  else
    match (o.links curr).key with
    | some key => .ok key o
    | none => .error .endless o

variable [DecidableEq κ]

/-- A new link at the end of the list, for `__setitem__`. -/
def append (o : OrderedDict κ α) (key : κ) : OrderedDict κ α :=
  { o with
    links := o.links.insertLast o.root o.fresh key
    map := o.map.set key o.fresh
    fresh := o.fresh + 1 }

/-- The methods that know the links. -/
def methods : OrderedMap (OrderedDict κ α) κ α where
  contains key o := .ok (o.dict.contains key) o
  len o := .ok o.dict.size o
  getItem key o :=
    match o.dict.get? key with
    | some value => .ok value o
    | none => .error (.raised .keyError) o
  setItem key value o :=
    let o := if o.dict.contains key then o else o.append key
    .ok () { o with dict := o.dict.set key value }
  delItem key o :=
    if o.dict.contains key then
      let o := { o with dict := o.dict.del key }
      match o.map.get? key with
      | none => .error (.raised .keyError) o
      | some link => .ok () { o with map := o.map.del key, links := o.links.unlink link }
    else .error (.raised .keyError) o
  first o := o.startAt (o.links o.root).next
  last o := o.startAt (o.links o.root).prev
  keys o := o.iterate o.links
  reversed o := o.iterate o.links.flip
  clear o :=
    .ok ()
      { o with
        links := Function.update o.links o.root ⟨o.root, o.root, none⟩
        map := .empty
        dict := .empty }

/-! ## The links -/

/-- The links at some addresses, with their keys. -/
structure Lists (o : OrderedDict κ α) (as : List ℕ) (ks : List κ) : Prop where
  ring : Ring o.links o.root as
  keys : KeysAt o.links as ks
  map_eq : as.map some = ks.map o.map.get?
  lt_fresh : ∀ a ∈ o.root :: as, a < o.fresh

namespace Lists

variable {o : OrderedDict κ α} {as : List ℕ} {ks ls : List κ} {key : κ}

theorem new : (new : OrderedDict κ α).Lists [] [] where
  ring := .nil rfl rfl
  keys := rfl
  map_eq := rfl
  lt_fresh a ha := by
    rw [List.mem_singleton.1 ha]
    exact Nat.one_pos

/-- The links do not depend on the values. -/
theorem setDict (h : o.Lists as ks) (dict : Dict κ α) : Lists { o with dict } as ks :=
  ⟨h.ring, h.keys, h.map_eq, h.lt_fresh⟩

theorem append (h : o.Lists as ks) (hkey : key ∉ ks) :
    (o.append key).Lists (as ++ [o.fresh]) (ks ++ [key]) := by
  -- The new link is at none of the addresses, so only its neighbours are written to.
  have hne : ∀ a ∈ o.root :: as, a ≠ o.fresh := fun a ha => (h.lt_fresh a ha).ne
  have hnew : o.fresh ∉ o.root :: as := fun hmem => hne _ hmem rfl
  obtain ⟨pre, last, hpre, hlast, -⟩ := h.ring.exists_last
  have hself : o.links.insertLast o.root o.fresh key o.fresh = ⟨last, o.root, some key⟩ := by
    rw [Heap.insertLast_self _ (hne _ List.mem_cons_self), hlast]
    rw [hlast]
    exact hne last (by rw [hpre]; simp)
  constructor
  · exact h.ring.insertLast hnew key
  · refine (h.keys.congr fun a ha => ?_).append ?_
    · exact Heap.key_insertLast (hne a (List.mem_cons_of_mem _ ha))
    · rw [KeysAt]
      exact congrArg (fun n => [Node.key n]) hself
  · rw [List.map_append, List.map_append, h.map_eq]
    refine congrArg₂ _ (List.map_congr_left fun k hk => ?_) ?_
    · have hne' : k ≠ key := fun heq => hkey (heq ▸ hk)
      exact (Dict.get?_set_of_ne _ _ hne').symm
    · exact congrArg (fun x => [x]) (Dict.get?_set_self _ _ _).symm
  · intro a ha
    rw [← List.cons_append, List.mem_append, List.mem_singleton] at ha
    rcases ha with ha | rfl
    · exact Nat.lt_succ_of_lt (h.lt_fresh a ha)
    · exact Nat.lt_succ_self _

/-- The link of a key is taken out. -/
theorem unlink (h : o.Lists as (ks ++ key :: ls)) (hks : key ∉ ks) (hls : key ∉ ls) :
    ∃ link as', o.map.get? key = some link ∧
      Lists { o with map := o.map.del key, links := o.links.unlink link } as' (ks ++ ls) := by
  -- The addresses part where the keys do, as each key has the address at its place.
  have hmap := h.map_eq
  rw [List.map_append, List.map_cons] at hmap
  obtain ⟨l, r, rfl, hl, hr⟩ := List.map_eq_append_iff.1 hmap
  obtain ⟨link, r, rfl, hlink, hr⟩ := List.map_eq_cons_iff.1 hr
  have hlength : l.length = ks.length := by simpa using congrArg List.length hl
  obtain ⟨hkeysl, hkeysr⟩ : KeysAt o.links l ks ∧ KeysAt o.links (link :: r) (key :: ls) := by
    have hkeys := h.keys
    rw [KeysAt, List.map_append, List.map_append] at hkeys
    exact List.append_inj hkeys (by simpa using hlength)
  obtain ⟨-, hkeysr⟩ := List.cons_eq_cons.1 hkeysr
  have hdel : ∀ k ∈ ks ++ ls, (o.map.del key).get? k = o.map.get? k := fun k hk => by
    refine Dict.get?_del_of_ne _ fun heq => ?_
    rcases List.mem_append.1 hk with hk | hk
    · exact hks (heq ▸ hk)
    · exact hls (heq ▸ hk)
  refine ⟨link, l ++ r, hlink.symm, h.ring.unlink, ?_, ?_, fun a ha => ?_⟩
  · exact KeysAt.congr (KeysAt.append hkeysl hkeysr) fun a _ => Heap.key_unlink _ _ _
  · rw [List.map_congr_left hdel, List.map_append, List.map_append, hl, hr]
  · refine h.lt_fresh a ?_
    rcases List.mem_cons.1 ha with rfl | ha
    · exact List.mem_cons_self
    · rcases List.mem_append.1 ha with ha | ha
      · exact List.mem_cons_of_mem _ (List.mem_append_left _ ha)
      · exact List.mem_cons_of_mem _ (List.mem_append_right _ (List.mem_cons_of_mem _ ha))

/-- An iteration comes to its end, as there are fewer links than addresses. -/
theorem length_lt (h : o.Lists as ks) : as.length < o.fresh := by
  have hsub : (o.root :: as) ⊆ List.range o.fresh := fun a ha => List.mem_range.2 (h.lt_fresh a ha)
  have hle := (h.ring.nodup.subperm hsub).length_le
  rwa [List.length_range, List.length_cons] at hle

theorem walk_eq (h : o.Lists as ks) :
    o.links.walk o.root o.fresh (o.links o.root).next = some ks :=
  h.ring.walk_eq h.keys h.length_lt

theorem walk_flip_eq (h : o.Lists as ks) :
    o.links.flip.walk o.root o.fresh (o.links o.root).prev = some ks.reverse := by
  have hlength : as.reverse.length < o.fresh := by
    rw [List.length_reverse]
    exact h.length_lt
  exact h.ring.flip.walk_eq h.keys.reverse hlength

omit [DecidableEq κ] in
/-- An iteration starts at the first key of its list. -/
theorem startAt_of_walk {links : Heap κ} {n curr : ℕ} (hwalk : links.walk o.root n curr = some ks)
    (hlinks : (links curr).key = (o.links curr).key) :
    o.startAt curr = ks.head?.elim (.error .stopIteration o) fun key => .ok key o := by
  rw [startAt]
  obtain ⟨hcurr, rfl⟩ | ⟨hcurr, k, ls, rfl, hkey⟩ := Heap.walk_cases hwalk
  · rw [if_pos hcurr]
    rfl
  · rw [if_neg hcurr, ← hlinks, hkey]
    rfl

end Lists

/-! ## The methods -/

/-- The dictionary has the values of the pairs, and the links have their keys, in their order. -/
structure Represents (o : OrderedDict κ α) (d : Dict κ α) : Prop where
  get?_eq : ∀ k, o.dict.get? k = d.get? k
  exists_lists : ∃ as, o.Lists as d.keys

namespace Represents

variable {o : OrderedDict κ α} {d : Dict κ α} {key : κ}

theorem new : (new : OrderedDict κ α).Represents .empty :=
  ⟨fun _ => rfl, [], .new⟩

theorem contains_eq (h : o.Represents d) (key : κ) : o.dict.contains key = d.contains key := by
  rw [Dict.contains, Dict.contains, h.get?_eq]

theorem size_eq (h : o.Represents d) : o.dict.size = d.size := by
  rw [Dict.size_eq, Dict.size_eq]
  refine ((List.perm_ext_iff_of_nodup o.dict.nodup_keys d.nodup_keys).2 fun k => ?_).length_eq
  rw [Dict.mem_keys, Dict.mem_keys, h.contains_eq]

/-- A value is set, and a key that is new gets a link. -/
theorem setItem (h : o.Represents d) (key : κ) (value : α) :
    SameEnd Represents (methods.setItem key value o) (Dict.methods.setItem key value d) := by
  have hget (dict : Dict κ α) (hdict : dict = o.dict) (k : κ) :
      (dict.set key value).get? k = (d.set key value).get? k := by
    rw [hdict, Dict.get?_set, Dict.get?_set, h.get?_eq]
  obtain ⟨as, hlists⟩ := h.exists_lists
  dsimp only [methods, Dict.methods]
  refine .ok () ?_
  split
  case isTrue hkey =>
    -- A key that is there keeps its link, and its place.
    rw [h.contains_eq] at hkey
    refine ⟨hget _ rfl, as, ?_⟩
    rw [Dict.keys_set, if_pos (Dict.mem_keys.2 hkey)]
    exact hlists.setDict _
  case isFalse hkey =>
    rw [h.contains_eq] at hkey
    have hmem : key ∉ d.keys := fun hmem => hkey (Dict.mem_keys.1 hmem)
    refine ⟨hget _ rfl, as ++ [o.fresh], ?_⟩
    rw [Dict.keys_set, if_neg hmem]
    exact (hlists.append hmem).setDict _

/-- A key is deleted with its link. -/
theorem delItem (h : o.Represents d) (key : κ) :
    SameEnd Represents (methods.delItem key o) (Dict.methods.delItem key d) := by
  dsimp only [methods, Dict.methods]
  rw [h.contains_eq]
  split
  case isFalse => exact .error _ h
  case isTrue hkey =>
    obtain ⟨as, hlists⟩ := h.exists_lists
    -- The key is at one place only, and the keys before and behind it become neighbours.
    obtain ⟨ks, ls, hkeys⟩ := List.append_of_mem (Dict.mem_keys.2 hkey)
    have hnodup := d.nodup_keys
    rw [hkeys, List.nodup_middle, List.nodup_cons, List.mem_append, not_or] at hnodup
    obtain ⟨⟨hks, hls⟩, -⟩ := hnodup
    rw [hkeys] at hlists
    obtain ⟨link, as', hlink, hlists'⟩ := hlists.unlink hks hls
    rw [hlink]
    refine .ok () ⟨fun k => ?_, as', ?_⟩
    · dsimp only
      rw [Dict.get?_del, Dict.get?_del, h.get?_eq]
    · have hkeys' : (d.del key).keys = ks ++ ls := by
        rw [Dict.keys_del, hkeys, List.filter_append, List.filter_cons_of_neg (by simp)]
        refine congrArg₂ _ (List.filter_eq_self.2 fun k hk => ?_)
          (List.filter_eq_self.2 fun k hk => ?_)
        · exact decide_eq_true fun heq => hks (heq ▸ hk)
        · exact decide_eq_true fun heq => hls (heq ▸ hk)
      rw [hkeys']
      exact hlists'.setDict _

/-- All links are taken out at once. -/
theorem clear (h : o.Represents d) :
    SameEnd Represents (methods.clear o) (Dict.methods.clear d) := by
  obtain ⟨as, hlists⟩ := h.exists_lists
  -- The old links stay where they are, but nothing leads to them.
  have hroot : Function.update o.links o.root ⟨o.root, o.root, none⟩ o.root =
      ⟨o.root, o.root, none⟩ := Function.update_self o.root _ o.links
  refine .ok () ⟨fun _ => rfl, [], .nil ?_ ?_, rfl, rfl, fun a ha => ?_⟩
  · exact congrArg Node.next hroot
  · exact congrArg Node.prev hroot
  · rw [List.mem_singleton.1 ha]
    exact hlists.lt_fresh o.root List.mem_cons_self

end Represents

/-- The methods with the links refine those on the pairs. -/
theorem refined :
    OrderedMap.Refined (α := α) (Represents (κ := κ)) methods Dict.methods where
  contains key o d h := by
    dsimp only [methods, Dict.methods]
    rw [h.contains_eq]
    exact .ok _ h
  len o d h := by
    dsimp only [methods, Dict.methods]
    rw [h.size_eq]
    exact .ok _ h
  getItem key o d h := by
    dsimp only [methods, Dict.methods]
    rw [h.get?_eq]
    cases d.get? key with
    | some value => exact .ok value h
    | none => exact .error _ h
  setItem key value o d h := h.setItem key value
  delItem key o d h := h.delItem key
  first o d h := by
    obtain ⟨as, hlists⟩ := h.exists_lists
    dsimp only [methods, Dict.methods]
    rw [Lists.startAt_of_walk hlists.walk_eq rfl]
    cases d.keys.head? with
    | some key => exact .ok key h
    | none => exact .error _ h
  last o d h := by
    obtain ⟨as, hlists⟩ := h.exists_lists
    dsimp only [methods, Dict.methods]
    -- The last key is the first one backwards.
    rw [Lists.startAt_of_walk hlists.walk_flip_eq rfl, List.head?_reverse]
    cases d.keys.getLast? with
    | some key => exact .ok key h
    | none => exact .error _ h
  keys o d h := by
    obtain ⟨as, hlists⟩ := h.exists_lists
    dsimp only [methods, Dict.methods]
    rw [iterate, hlists.walk_eq]
    exact .ok _ h
  reversed o d h := by
    obtain ⟨as, hlists⟩ := h.exists_lists
    dsimp only [methods, Dict.methods]
    rw [iterate, Heap.next_flip, hlists.walk_flip_eq]
    exact .ok _ h
  clear o d h := h.clear

/-- In every run, each method ends as it is to end on the pairs in the order of their insertion. -/
theorem orderedDict_results (ops : List (OrderedMap.Op κ α)) :
    results methods.call new ops = results Dict.spec .empty ops :=
  have hspec : (Dict.methods : OrderedMap (Dict κ α) κ α).call = Dict.spec :=
    funext fun op => funext fun d => Dict.call_eq_spec op d
  hspec ▸ (Refines.results_eq refined.call Represents.new ops).1

/-- A key that is deleted and set again is the last one. -/
example : results methods.call new [.setItem 1 10, .setItem 2 20, .delItem 1, .delItem 1,
      .setItem 1 30, .keys, .popitem true, .items] =
    [.ok .none, .ok .none, .ok .none, .error (.raised .keyError), .ok .none, .ok (.keys [2, 1]),
      .ok (.item (1, 30)), .ok (.items [(2, 20)])] := rfl

end OrderedDict

end ShadowsocksR

import Mathlib.Data.List.Chain
import Mathlib.Data.List.Nodup
import Mathlib.Logic.Function.Basic

/-!
# Doubly linked rings

Nodes at addresses, each with the addresses of the ones before and after it. A
ring begins and ends with a sentinel, the root, which has no key.

* `Ring`: the addresses of a ring in their order, from one root to the other;
* `Ring.insertLast`, `Ring.unlink`: a node is put before the root, and a node is
  taken out, by writing to its neighbours only;
* `Ring.walk_eq`: going from node to node until the root comes lists all keys;
* `Ring.flip`: the same backwards.
-/

namespace ShadowsocksR

namespace Linked

variable {κ : Type}

/-- `[PREV, NEXT, KEY]` -/
structure Node (κ : Type) where
  prev : ℕ
  next : ℕ
  key : Option κ

/-- The nodes at their addresses. -/
abbrev Heap (κ : Type) : Type := ℕ → Node κ

namespace Heap

def setPrev (h : Heap κ) (a p : ℕ) : Heap κ := Function.update h a { h a with prev := p }

def setNext (h : Heap κ) (a n : ℕ) : Heap κ := Function.update h a { h a with next := n }

/-- A new node for a key, before the root. -/
def insertLast (h : Heap κ) (root new : ℕ) (key : κ) : Heap κ :=
  let last := (h root).prev
  let h : Heap κ := Function.update h new { prev := last, next := root, key := some key }
  (h.setNext last new).setPrev root new

/-- The neighbours of a node become neighbours. -/
def unlink (h : Heap κ) (a : ℕ) : Heap κ :=
  let linkPrev := (h a).prev
  let linkNext := (h a).next
  (h.setNext linkPrev linkNext).setPrev linkNext linkPrev

/-- The keys from a node to the root, if the root comes within so many steps, and all other nodes
    have keys. -/
def walk (h : Heap κ) (root : ℕ) : ℕ → ℕ → Option (List κ)
  | 0, _ => none
  | n + 1, curr =>
    if curr = root then some []
    else
      match (h curr).key with
      | none => none
      | some k => (walk h root n (h curr).next).map (k :: ·)

/-- The nodes, backwards. -/
def flip (h : Heap κ) : Heap κ := fun a => ⟨(h a).next, (h a).prev, (h a).key⟩

variable (h : Heap κ) (a b : ℕ)

@[simp] theorem next_setNext (n : ℕ) :
    (h.setNext a n b).next = if b = a then n else (h b).next := by
  rw [setNext, Function.update_apply]
  split_ifs <;> rfl

@[simp] theorem prev_setNext (n : ℕ) : (h.setNext a n b).prev = (h b).prev := by
  rw [setNext, Function.update_apply]
  split_ifs with hb
  · rw [hb]
  · rfl

@[simp] theorem key_setNext (n : ℕ) : (h.setNext a n b).key = (h b).key := by
  rw [setNext, Function.update_apply]
  split_ifs with hb
  · rw [hb]
  · rfl

@[simp] theorem prev_setPrev (p : ℕ) :
    (h.setPrev a p b).prev = if b = a then p else (h b).prev := by
  rw [setPrev, Function.update_apply]
  split_ifs <;> rfl

@[simp] theorem next_setPrev (p : ℕ) : (h.setPrev a p b).next = (h b).next := by
  rw [setPrev, Function.update_apply]
  split_ifs with hb
  · rw [hb]
  · rfl

@[simp] theorem key_setPrev (p : ℕ) : (h.setPrev a p b).key = (h b).key := by
  rw [setPrev, Function.update_apply]
  split_ifs with hb
  · rw [hb]
  · rfl

theorem next_unlink :
    (h.unlink a b).next = if b = (h a).prev then (h a).next else (h b).next := by
  rw [unlink, next_setPrev, next_setNext]

theorem prev_unlink :
    (h.unlink a b).prev = if b = (h a).next then (h a).prev else (h b).prev := by
  rw [unlink, prev_setPrev, prev_setNext]

theorem key_unlink : (h.unlink a b).key = (h b).key := by
  rw [unlink, key_setPrev, key_setNext]

@[simp] theorem next_flip : (h.flip a).next = (h a).prev := rfl

variable {h} {a b} {root new : ℕ} {key : κ}

theorem insertLast_self (hlast : (h root).prev ≠ new) (hroot : root ≠ new) :
    h.insertLast root new key new = ⟨(h root).prev, root, some key⟩ := by
  rw [insertLast, setPrev, Function.update_of_ne hroot.symm, setNext,
    Function.update_of_ne hlast.symm, Function.update_self]

theorem next_insertLast (hb : b ≠ new) :
    (h.insertLast root new key b).next = if b = (h root).prev then new else (h b).next := by
  rw [insertLast, next_setPrev, next_setNext, Function.update_of_ne hb]

theorem prev_insertLast (hb : b ≠ new) :
    (h.insertLast root new key b).prev = if b = root then new else (h b).prev := by
  rw [insertLast, prev_setPrev, prev_setNext, Function.update_of_ne hb]

theorem key_insertLast (hb : b ≠ new) : (h.insertLast root new key b).key = (h b).key := by
  rw [insertLast, key_setPrev, key_setNext, Function.update_of_ne hb]

/-- Where keys are found, the first of them is at the first node. -/
theorem walk_cases {n curr : ℕ} {ks : List κ} (hwalk : h.walk root n curr = some ks) :
    curr = root ∧ ks = [] ∨ curr ≠ root ∧ ∃ k ls, ks = k :: ls ∧ (h curr).key = some k := by
  cases n with
  | zero => cases hwalk
  | succ n =>
    rw [walk] at hwalk
    split at hwalk
    case isTrue hcurr =>
      cases hwalk
      exact .inl ⟨hcurr, rfl⟩
    case isFalse hcurr =>
      cases hkey : (h curr).key with
      | none =>
        rw [hkey] at hwalk
        cases hwalk
      | some k =>
        rw [hkey] at hwalk
        obtain ⟨ls, -, rfl⟩ := Option.map_eq_some_iff.1 hwalk
        exact .inr ⟨hcurr, k, ls, rfl, rfl⟩

end Heap

/-! ## Rings -/

/-- Two nodes are neighbours. -/
def Neighbours (h : Heap κ) (a b : ℕ) : Prop := (h a).next = b ∧ (h b).prev = a

/-- The addresses between the root and the root. -/
structure Ring (h : Heap κ) (root : ℕ) (as : List ℕ) : Prop where
  chain : (root :: as ++ [root]).IsChain (Neighbours h)
  nodup : (root :: as).Nodup

/-- The keys at addresses. -/
def KeysAt (h : Heap κ) (as : List ℕ) (ks : List κ) : Prop :=
  as.map (fun a => (h a).key) = ks.map some

theorem KeysAt.exists_cons {h : Heap κ} {a : ℕ} {as : List ℕ} {ks : List κ}
    (hkeys : KeysAt h (a :: as) ks) :
    ∃ k ks', ks = k :: ks' ∧ (h a).key = some k ∧ KeysAt h as ks' := by
  cases ks with
  | nil => cases hkeys
  | cons k ks =>
    obtain ⟨hkey, hks⟩ := List.cons_eq_cons.1 hkeys
    exact ⟨k, ks, rfl, hkey, hks⟩

theorem KeysAt.reverse {h : Heap κ} {as : List ℕ} {ks : List κ} (hkeys : KeysAt h as ks) :
    KeysAt h.flip as.reverse ks.reverse := by
  rw [KeysAt, List.map_reverse, List.map_reverse]
  exact congrArg List.reverse hkeys

theorem KeysAt.append {h : Heap κ} {as bs : List ℕ} {ks ls : List κ} (hkeys : KeysAt h as ks)
    (hkeys' : KeysAt h bs ls) : KeysAt h (as ++ bs) (ks ++ ls) := by
  rw [KeysAt, List.map_append, List.map_append, hkeys, hkeys']

theorem KeysAt.length_eq {h : Heap κ} {as : List ℕ} {ks : List κ} (hkeys : KeysAt h as ks) :
    as.length = ks.length := by
  simpa using congrArg List.length hkeys

/-- The keys do not depend on the links. -/
theorem KeysAt.congr {h h' : Heap κ} {as : List ℕ} {ks : List κ} (hkeys : KeysAt h as ks)
    (hh : ∀ a ∈ as, (h' a).key = (h a).key) : KeysAt h' as ks := by
  rw [KeysAt, ← hkeys]
  exact List.map_congr_left hh

/-- A chain in which only the last one and the first one are not what they were. -/
theorem isChain_of_inner {α : Type} {R S : α → α → Prop} {l : List α}
    (hl : ∀ a b, a ∈ l.dropLast → b ∈ l.tail → R a b → S a b) (h : l.IsChain R) :
    l.IsChain S := by
  induction l with
  | nil => exact .nil
  | cons a l ih =>
    cases l with
    | nil => exact .singleton a
    | cons b l =>
      rw [List.isChain_cons_cons] at h ⊢
      refine ⟨hl a b List.mem_cons_self List.mem_cons_self h.1, ih (fun a' b' ha hb => ?_) h.2⟩
      exact hl a' b' (List.mem_cons_of_mem _ ha) (List.mem_cons_of_mem _ hb)

namespace Ring

variable {h : Heap κ} {root new a : ℕ} {as l r : List ℕ} {ks : List κ} {key : κ}

/-- The root alone. -/
theorem nil (hnext : (h root).next = root) (hprev : (h root).prev = root) : Ring h root [] where
  chain := List.isChain_pair.2 ⟨hnext, hprev⟩
  nodup := List.nodup_singleton root

theorem root_not_mem (hr : Ring h root as) : root ∉ as := (List.nodup_cons.1 hr.nodup).1

/-- The nodes before the root, with the last of them. -/
theorem exists_last (hr : Ring h root as) : ∃ pre last, root :: as = pre ++ [last] ∧
    (h root).prev = last ∧ last ∉ pre ∧ (pre ++ [last]).IsChain (Neighbours h) := by
  obtain ⟨pre, last, hpre⟩ : ∃ pre last, root :: as = pre ++ [last] :=
    ⟨_, _, (List.dropLast_concat_getLast (List.cons_ne_nil root as)).symm⟩
  have hchain := hr.chain
  have hnodup := hr.nodup
  rw [hpre, List.append_assoc, List.singleton_append, List.isChain_split,
    List.isChain_pair] at hchain
  rw [hpre, List.nodup_append] at hnodup
  refine ⟨pre, last, hpre, hchain.2.2, fun hmem => ?_, hchain.1⟩
  exact hnodup.2.2 last hmem last (List.mem_singleton_self _) rfl

/-- A new node comes last. -/
theorem insertLast (hr : Ring h root as) (hnew : new ∉ root :: as) (key : κ) :
    Ring (h.insertLast root new key) root (as ++ [new]) := by
  obtain ⟨pre, last, hpre, hlast, hmem, hchain⟩ := hr.exists_last
  have hne : ∀ b ∈ root :: as, b ≠ new := fun b hb h => hnew (h ▸ hb)
  have hroot : root ≠ new := hne root List.mem_cons_self
  have hlast' : last ≠ new := hne last (by rw [hpre]; simp)
  have hself : h.insertLast root new key new = ⟨(h root).prev, root, some key⟩ :=
    Heap.insertLast_self (hlast ▸ hlast') hroot
  constructor
  · have heq : root :: (as ++ [new]) ++ [root] = pre ++ last :: new :: [root] := by
      rw [← List.cons_append, hpre]
      simp
    rw [heq, List.isChain_append_cons_cons, List.isChain_pair]
    refine ⟨isChain_of_inner (fun b c hb hc hbc => ?_) hchain, ⟨?_, ?_⟩, ?_, ?_⟩
    · -- No other node has been written to.
      rw [List.dropLast_concat] at hb
      rw [← hpre, List.tail_cons] at hc
      have hb' : b ∈ root :: as := hpre ▸ List.mem_append_left _ hb
      have hbl : b ≠ last := by
        rintro rfl
        exact hmem hb
      have hcr : c ≠ root := by
        rintro rfl
        exact hr.root_not_mem hc
      constructor
      · rw [Heap.next_insertLast (hne b hb'), hlast, if_neg hbl]
        exact hbc.1
      · rw [Heap.prev_insertLast (hne c (List.mem_cons_of_mem _ hc)), if_neg hcr]
        exact hbc.2
    · rw [Heap.next_insertLast hlast', hlast, if_pos rfl]
    · rw [hself, hlast]
    · rw [hself]
    · rw [Heap.prev_insertLast hroot, if_pos rfl]
  · rw [← List.cons_append, List.nodup_append]
    refine ⟨hr.nodup, List.nodup_singleton new, fun b hb c hc => ?_⟩
    rw [List.mem_singleton.1 hc]
    exact hne b hb

/-- A node is taken out. -/
theorem unlink (hr : Ring h root (l ++ a :: r)) : Ring (h.unlink a) root (l ++ r) := by
  have hnodup := hr.nodup
  have hchain := hr.chain
  have hsplit : root :: (l ++ a :: r) ++ [root] = (root :: l) ++ a :: (r ++ [root]) := by simp
  rw [hsplit, List.isChain_split] at hchain
  obtain ⟨hleft, hright⟩ := hchain
  -- The neighbours of the node: the last one before it, and the first one behind it.
  obtain ⟨pre, p, hpre⟩ : ∃ pre p, root :: l = pre ++ [p] :=
    ⟨_, _, (List.dropLast_concat_getLast (List.cons_ne_nil root l)).symm⟩
  obtain ⟨n, post, hpost⟩ : ∃ n post, r ++ [root] = n :: post :=
    List.exists_cons_of_ne_nil (List.append_ne_nil_of_right_ne_nil _ (List.cons_ne_nil _ _))
  rw [hpre, List.append_assoc, List.singleton_append, List.isChain_split,
    List.isChain_pair] at hleft
  rw [hpost, List.isChain_cons_cons] at hright
  obtain ⟨hleft, -, hprev⟩ := hleft
  obtain ⟨⟨hnext, -⟩, hright⟩ := hright
  -- Both may be the root; otherwise they differ from all that is not written to.
  have hrest : (root :: l ++ r).Nodup := by
    have hsub : (root :: l ++ r).Sublist (root :: (l ++ a :: r)) :=
      .cons_cons root (.append (.refl l) (.cons a (.refl r)))
    exact hnodup.sublist hsub
  obtain ⟨hnodup₁, hnodup₂, hdisj⟩ := List.nodup_append.1 hrest
  have hp : p ∈ root :: l := by rw [hpre]; simp
  have hp' : p ∉ pre := fun hmem => by
    rw [hpre, List.nodup_append] at hnodup₁
    exact hnodup₁.2.2 p hmem p (List.mem_singleton_self _) rfl
  have hroot : root ∉ l ∧ root ∉ r :=
    ⟨(List.nodup_cons.1 hnodup₁).1, fun hmem => hdisj root List.mem_cons_self root hmem rfl⟩
  have hn : n ∈ r ∨ n = root := by
    have : n ∈ r ++ [root] := by rw [hpost]; exact List.mem_cons_self
    simpa using this
  constructor
  · have heq : root :: (l ++ r) ++ [root] = pre ++ p :: n :: post := by
      rw [List.cons_append, List.append_assoc, hpost, ← List.cons_append, hpre]
      simp
    rw [heq, List.isChain_append_cons_cons]
    refine ⟨isChain_of_inner (fun b c hb hc hbc => ?_) hleft, ⟨?_, ?_⟩,
      isChain_of_inner (fun b c hb hc hbc => ?_) hright⟩
    · rw [List.dropLast_concat] at hb
      rw [← hpre, List.tail_cons] at hc
      have hcn : c ≠ n := by
        rintro rfl
        rcases hn with hn | rfl
        · exact hdisj c (List.mem_cons_of_mem _ hc) c hn rfl
        · exact hroot.1 hc
      have hbp : b ≠ p := by
        rintro rfl
        exact hp' hb
      constructor
      · rw [Heap.next_unlink, hprev, if_neg hbp]
        exact hbc.1
      · rw [Heap.prev_unlink, hnext, if_neg hcn]
        exact hbc.2
    · rw [Heap.next_unlink, hprev, if_pos rfl, hnext]
    · rw [Heap.prev_unlink, hnext, if_pos rfl, hprev]
    · rw [← hpost, List.dropLast_concat] at hb
      rw [List.tail_cons] at hc
      have hcn : c ≠ n := by
        rintro rfl
        have hlast : (r ++ [root]).Nodup := by
          rw [List.nodup_append]
          refine ⟨hnodup₂, List.nodup_singleton root, fun b hb c hc => ?_⟩
          rw [List.mem_singleton.1 hc]
          rintro rfl
          exact hroot.2 hb
        rw [hpost] at hlast
        exact (List.nodup_cons.1 hlast).1 hc
      have hbp : b ≠ p := fun heq => hdisj p hp b hb heq.symm
      constructor
      · rw [Heap.next_unlink, hprev, if_neg hbp]
        exact hbc.1
      · rw [Heap.prev_unlink, hnext, if_neg hcn]
        exact hbc.2
  · exact hrest

/-! ## Going round -/

/-- After a node, the keys are those of the rest of the ring. -/
theorem walk_of_chain (hchain : (a :: as ++ [root]).IsChain (Neighbours h)) (hroot : root ∉ as)
    (hkeys : KeysAt h as ks) {n : ℕ} (hn : as.length < n) :
    h.walk root n (h a).next = some ks := by
  induction as generalizing a ks n with
  | nil =>
    obtain rfl : ks = [] := List.map_eq_nil_iff.1 hkeys.symm
    obtain ⟨n, rfl⟩ : ∃ m, n = m + 1 := ⟨n - 1, (Nat.succ_pred_eq_of_pos hn).symm⟩
    rw [(List.isChain_pair.1 hchain).1, Heap.walk, if_pos rfl]
  | cons b as ih =>
    obtain ⟨n, rfl⟩ : ∃ m, n = m + 1 := ⟨n - 1, by omega⟩
    obtain ⟨k, ks, rfl, hkey, hks⟩ := hkeys.exists_cons
    have hb : b ≠ root := fun heq => hroot (heq ▸ List.mem_cons_self)
    obtain ⟨⟨hnext, -⟩, hrest⟩ := List.isChain_cons_cons.1 hchain
    rw [hnext, Heap.walk, if_neg hb, hkey]
    dsimp only
    rw [ih hrest (fun hmem => hroot (List.mem_cons_of_mem _ hmem)) hks (Nat.lt_of_succ_lt_succ hn)]
    rfl

/-- All keys, in the order of the ring. -/
theorem walk_eq (hr : Ring h root as) (hkeys : KeysAt h as ks) {n : ℕ} (hn : as.length < n) :
    h.walk root n (h root).next = some ks :=
  walk_of_chain hr.chain hr.root_not_mem hkeys hn

/-- A ring is one backwards, too. -/
theorem flip (hr : Ring h root as) : Ring h.flip root as.reverse where
  chain := by
    have hreverse : root :: as.reverse ++ [root] = (root :: as ++ [root]).reverse := by simp
    rw [hreverse, List.isChain_reverse]
    exact hr.chain.imp fun a b hab => ⟨hab.2, hab.1⟩
  nodup := by
    obtain ⟨hroot, hnodup⟩ := List.nodup_cons.1 hr.nodup
    exact List.nodup_cons.2 ⟨fun hmem => hroot (List.mem_reverse.1 hmem),
      List.nodup_reverse.2 hnodup⟩

end Ring

end Linked

end ShadowsocksR

import Mathlib.Data.List.DropRight
import Mathlib.Data.List.Basic
import Mathlib.Data.List.Count

/-!
# Lists in pieces

A list with separators in it, and the pieces between them. Two separators next to
each other have an empty piece between them.

* `leading`, `trailing`: the pieces before the first empty one and after the last;
* `collapse`: the first run of two or more separators, cut to two;
* `splitOn_collapse`: what that does to the pieces;
* `doubles`: how often two separators stand next to each other;
* `Together`: between two places of an element are no others;
* `doubles_collapse_le`: where the empty pieces are together, one pair of separators is left.
-/

namespace ShadowsocksR

variable {α : Type}

/-! ## Elements that stand together -/

/-- Nothing else stands between two `x`. -/
def Together (x : α) (l : List α) : Prop :=
  ∀ i j k : ℕ, i ≤ j → j ≤ k → l[i]? = some x → l[k]? = some x → l[j]? = some x

theorem Together.tail {x y : α} {l : List α} (h : Together x (y :: l)) : Together x l := by
  intro i j k hij hjk hi hk
  have := h (i + 1) (j + 1) (k + 1) (by omega) (by omega)
  simp only [List.getElem?_cons_succ] at this
  exact this hi hk

theorem Together.drop {x : α} {l : List α} (h : Together x l) (n : ℕ) : Together x (l.drop n) := by
  induction n generalizing l with
  | zero => exact h
  | succ n ih =>
    cases l with
    | nil => exact h
    | cons y l => exact ih h.tail

theorem together_append {x : α} {l₁ l₂ : List α} (h₁ : x ∉ l₁) (h₂ : x ∉ l₂) (n : ℕ) :
    Together x (l₁ ++ List.replicate n x ++ l₂) := by
  -- A place of `x` is one of the middle.
  have hmid : ∀ i, (l₁ ++ List.replicate n x ++ l₂)[i]? = some x ↔
      l₁.length ≤ i ∧ i < l₁.length + n := by
    intro i
    have h₁' : l₁[i]? ≠ some x := fun h => h₁ (List.mem_of_getElem? h)
    have h₂' : l₂[i - (l₁.length + n)]? ≠ some x := fun h => h₂ (List.mem_of_getElem? h)
    rw [List.getElem?_append, List.getElem?_append, List.length_append, List.length_replicate,
      List.getElem?_replicate]
    split_ifs <;> simp_all
    all_goals omega
  intro i j k hij hjk hi hk
  rw [hmid] at *
  omega

/-- What does not change: an element that is not `x` is at no place of `x`. -/
theorem together_map {β : Type} {f : α → β} {x : α} {l : List α} (hf : ∀ y ∈ l, f y = f x ↔ y = x) :
    Together (f x) (l.map f) ↔ Together x l := by
  have hplace : ∀ i : ℕ, (l.map f)[i]? = some (f x) ↔ l[i]? = some x := by
    intro i
    rw [List.getElem?_map]
    cases hi : l[i]? with
    | none => simp
    | some y => simpa using hf y (List.mem_of_getElem? hi)
  simp only [Together, hplace]

section

variable [DecidableEq α] {x : α} {l : List α}

theorem takeWhile_append_cons (hx : x ∈ l) : ∃ l₁, l.takeWhile (· ≠ x) ++ x :: l₁ = l := by
  induction l with
  | nil => exact absurd hx List.not_mem_nil
  | cons y l ih =>
    by_cases hy : y = x
    · exact ⟨l, by rw [List.takeWhile_cons_of_neg (by simpa using hy), hy]; rfl⟩
    · obtain ⟨l₁, hl₁⟩ := ih ((List.mem_cons.1 hx).resolve_left (Ne.symm hy))
      exact ⟨l₁, by rw [List.takeWhile_cons_of_pos (by simpa using hy), List.cons_append, hl₁]⟩

theorem append_cons_rtakeWhile (hx : x ∈ l) : ∃ l₂, l₂ ++ x :: l.rtakeWhile (· ≠ x) = l := by
  obtain ⟨l₁, hl₁⟩ := takeWhile_append_cons (List.mem_reverse.2 hx)
  refine ⟨l₁.reverse, ?_⟩
  rw [← List.reverse_inj, ← hl₁, List.reverse_append, List.reverse_cons, List.reverse_reverse,
    List.rtakeWhile, List.reverse_reverse, List.append_assoc]
  rfl

theorem rtakeWhile_append_cons {l' : List α} (h : x ∉ l') :
    (l ++ x :: l').rtakeWhile (· ≠ x) = l' := by
  induction l' using List.reverseRecOn with
  | nil => exact List.rtakeWhile_concat_neg _ _ _ (by simp)
  | append_singleton l' y ih =>
    have hy : y ≠ x := fun hy => h (hy ▸ List.mem_append_right _ (List.mem_singleton_self y))
    rw [← List.cons_append, ← List.append_assoc, List.rtakeWhile_concat_pos _ _ _ (by simpa using hy),
      ih fun hmem => h (List.mem_append_left _ hmem)]

theorem rdropWhile_append_cons {l' : List α} (h : x ∉ l') :
    (l ++ x :: l').rdropWhile (· ≠ x) = l ++ [x] := by
  have := List.rdropWhile_append_rtakeWhile (p := fun y => decide (y ≠ x)) (l := l ++ x :: l')
  rw [rtakeWhile_append_cons h] at this
  refine List.append_cancel_right (this.trans ?_)
  rw [List.append_assoc]
  rfl

/-- What stands before the first `x` stands before any other. -/
theorem length_takeWhile_le {l₂ l₃ : List α} (hl : l₂ ++ x :: l₃ = l) :
    (l.takeWhile (· ≠ x)).length ≤ l₂.length := by
  have hx : x ∈ l := hl ▸ List.mem_append_right _ List.mem_cons_self
  obtain ⟨l₁, hl₁⟩ := takeWhile_append_cons hx
  by_contra hlt
  have hplace : l[l₂.length]? = some x := by rw [← hl]; simp
  rw [← hl₁, List.getElem?_append_left (by omega)] at hplace
  simpa using List.mem_takeWhile_imp (List.mem_of_getElem? hplace)

theorem length_takeWhile_add_lt (hx : x ∈ l) :
    (l.takeWhile (· ≠ x)).length + (l.rtakeWhile (· ≠ x)).length < l.length := by
  obtain ⟨l₂, hl₂⟩ := append_cons_rtakeWhile hx
  have hle := length_takeWhile_le hl₂
  have hlen := congrArg List.length hl₂
  rw [List.length_append, List.length_cons] at hlen
  omega

/-- Where the elements `x` are together, the list is what stands before them and after them, with
    them in the middle. -/
theorem together_iff (hx : x ∈ l) : Together x l ↔
    ∃ n, l = l.takeWhile (· ≠ x) ++ List.replicate n x ++ l.rtakeWhile (· ≠ x) := by
  constructor
  · intro h
    obtain ⟨l₁, hl₁⟩ := takeWhile_append_cons hx
    obtain ⟨l₂, hl₂⟩ := append_cons_rtakeWhile hx
    have hle := length_takeWhile_le hl₂
    generalize l.takeWhile (· ≠ x) = before at *
    generalize l.rtakeWhile (· ≠ x) = after at *
    have hfirst : l[before.length]? = some x := by rw [← hl₁]; simp
    have hlast : l[l₂.length]? = some x := by rw [← hl₂]; simp
    refine ⟨l₂.length + 1 - before.length, List.ext_getElem? fun i => ?_⟩
    have hmid := h before.length i l₂.length
    rw [List.getElem?_append, List.getElem?_append, List.length_append, List.length_replicate,
      List.getElem?_replicate]
    split_ifs with h₁ h₂
    · rw [← hl₁, List.getElem?_append_left h₂]
    · exact hmid (by omega) (by omega) hfirst hlast
    · omega
    · rw [← hl₂, List.getElem?_append_right (by omega),
        show i - l₂.length = i - (before.length + (l₂.length + 1 - before.length)) + 1 by omega,
        List.getElem?_cons_succ]
  · rintro ⟨n, hl⟩
    rw [hl]
    apply together_append
    · intro hmem
      simpa using List.mem_takeWhile_imp hmem
    · intro hmem
      simpa using List.mem_rtakeWhile_imp hmem

end

/-! ## Empty pieces -/

/-- The pieces before the first empty one. -/
def leading (gs : List (List α)) : List (List α) := gs.takeWhile (!·.isEmpty)

/-- The pieces after the last empty one. -/
def trailing (gs : List (List α)) : List (List α) := gs.rtakeWhile (!·.isEmpty)

theorem ne_nil_of_mem_leading {gs : List (List α)} {g : List α} (h : g ∈ leading gs) : g ≠ [] := by
  have := List.mem_takeWhile_imp h
  simpa using this

theorem ne_nil_of_mem_trailing {gs : List (List α)} {g : List α} (h : g ∈ trailing gs) :
    g ≠ [] := by
  have := List.mem_rtakeWhile_imp h
  simpa using this

theorem leading_eq_self {gs : List (List α)} (h : [] ∉ gs) : leading gs = gs := by
  rw [leading, List.takeWhile_eq_self_iff]
  intro g hg
  cases g with
  | nil => exact absurd hg h
  | cons => rfl

theorem trailing_reverse (gs : List (List α)) : trailing gs.reverse = (leading gs).reverse :=
  List.rtakeWhile_reverse ..

theorem leading_reverse (gs : List (List α)) : leading gs.reverse = (trailing gs).reverse := by
  rw [← gs.reverse_reverse, trailing_reverse, List.reverse_reverse, List.reverse_reverse]

/-- The pieces before an empty one, when none of them is empty. -/
theorem leading_append_nil {gs : List (List α)} (h : [] ∉ gs) (gs' : List (List α)) :
    leading (gs ++ [] :: gs') = gs := by
  induction gs with
  | nil => rfl
  | cons g gs ih =>
    cases g with
    | nil => exact absurd List.mem_cons_self h
    | cons x g => exact congrArg _ (ih fun hmem => h (List.mem_cons_of_mem _ hmem))

theorem trailing_nil_append {gs : List (List α)} (h : [] ∉ gs) (gs' : List (List α)) :
    trailing (gs' ++ [] :: gs) = gs := by
  have : leading (gs.reverse ++ [] :: gs'.reverse) = gs.reverse :=
    leading_append_nil (by rwa [List.mem_reverse]) _
  rw [← List.reverse_inj, ← leading_reverse, List.reverse_append, List.reverse_cons,
    List.append_assoc, List.singleton_append]
  exact this

/-- Of a list with an empty piece, what comes before it decides the leading pieces. -/
theorem leading_append_congr (gs gs₁ gs₂ : List (List α)) :
    leading (gs ++ [] :: gs₁) = leading (gs ++ [] :: gs₂) := by
  induction gs with
  | nil => rfl
  | cons g gs ih =>
    cases g with
    | nil => rfl
    | cons x g => exact congrArg ((x :: g) :: ·) ih

theorem trailing_append_congr (gs gs₁ gs₂ : List (List α)) :
    trailing (gs₁ ++ [] :: gs) = trailing (gs₂ ++ [] :: gs) := by
  have := leading_append_congr gs.reverse gs₁.reverse gs₂.reverse
  rw [← List.reverse_inj, ← leading_reverse, ← leading_reverse, List.reverse_append,
    List.reverse_append, List.reverse_cons, List.append_assoc, List.append_assoc]
  exact this

/-! ## Runs of separators -/

variable [DecidableEq α]

/-- The first run of two or more `a` is cut to two. -/
def collapse (a : α) : List α → List α
  | [] => []
  | [x] => [x]
  | x :: y :: l => if x = a ∧ y = a then a :: a :: l.dropWhile (· = a) else x :: collapse a (y :: l)

theorem mem_of_mem_collapse {a x : α} {l : List α} (h : x ∈ collapse a l) : x ∈ l := by
  induction l using collapse.induct (a := a) with
  | case1 => exact h
  | case2 y => exact h
  | case3 y z l hyz =>
    rw [collapse, if_pos hyz] at h
    rcases List.mem_cons.1 h with rfl | h
    · exact hyz.1 ▸ List.mem_cons_self
    · rcases List.mem_cons.1 h with rfl | h
      · exact hyz.1 ▸ List.mem_cons_self
      · exact List.mem_cons_of_mem _ (List.mem_cons_of_mem _ ((List.dropWhile_sublist _).mem h))
  | case4 y z l hyz ih =>
    rw [collapse, if_neg hyz] at h
    rcases List.mem_cons.1 h with rfl | h
    · exact List.mem_cons_self
    · exact List.mem_cons_of_mem _ (ih h)

theorem mem_intercalate {α : Type} {a x : α} {ls : List (List α)} (h : x ∈ [a].intercalate ls) :
    x = a ∨ ∃ l ∈ ls, x ∈ l := by
  induction ls with
  | nil => exact absurd h List.not_mem_nil
  | cons l ls ih =>
    by_cases hls : ls = []
    · subst hls
      exact .inr ⟨l, List.mem_cons_self, by rwa [List.intercalate_singleton] at h⟩
    · rw [List.intercalate_cons_of_ne_nil hls, List.append_assoc] at h
      rcases List.mem_append.1 h with h | h
      · exact .inr ⟨l, List.mem_cons_self, h⟩
      · rcases List.mem_cons.1 h with h | h
        · exact .inl h
        · rcases ih h with h | ⟨l', hl', h⟩
          · exact .inl h
          · exact .inr ⟨l', List.mem_cons_of_mem _ hl', h⟩

theorem mem_intercalate_of_mem {α : Type} {a x : α} {l : List α} {ls : List (List α)} (hl : l ∈ ls)
    (hx : x ∈ l) : x ∈ [a].intercalate ls := by
  induction ls with
  | nil => exact absurd hl List.not_mem_nil
  | cons l' ls ih =>
    by_cases hls : ls = []
    · subst hls
      rw [List.intercalate_singleton, ← List.mem_singleton.1 hl]
      exact hx
    · rw [List.intercalate_cons_of_ne_nil hls]
      rcases List.mem_cons.1 hl with rfl | hl
      · exact List.mem_append_left _ (List.mem_append_left _ hx)
      · exact List.mem_append_right _ (ih hl)

section

variable {α : Type} [DecidableEq α] {sep x : α} {l : List α}

/-- An element of a piece is one of the list. -/
theorem mem_of_mem_splitOn {piece : List α} (h : piece ∈ l.splitOn sep) (hx : x ∈ piece) :
    x ∈ l := by
  have hl : [sep].intercalate (l.splitOn sep) = l := List.intercalate_splitOn sep
  rw [← hl]
  exact mem_intercalate_of_mem h hx

/-- An element that is no separator is in a piece. -/
theorem exists_mem_splitOn (hx : x ∈ l) (hne : x ≠ sep) : ∃ piece ∈ l.splitOn sep, x ∈ piece := by
  have hl : [sep].intercalate (l.splitOn sep) = l := List.intercalate_splitOn sep
  rw [← hl] at hx
  exact (mem_intercalate hx).resolve_left hne

end

/-- How often `a` stands next to `a`. -/
def doubles (a : α) : List α → ℕ
  | [] => 0
  | [_] => 0
  | x :: y :: l => (if x = a ∧ y = a then 1 else 0) + doubles a (y :: l)

variable {a : α}

theorem splitOn_self_cons (l : List α) : (a :: l).splitOn a = [] :: l.splitOn a := by
  have := List.splitOn_append_cons_self_of_not_mem (List.not_mem_nil (a := a)) l
  exact this

theorem splitOn_cons_of_ne {x : α} (h : x ≠ a) (l : List α) :
    (x :: l).splitOn a = (l.splitOn a).modifyHead (x :: ·) := by
  rw [List.splitOn_cons_eq_if_modifyHead, if_neg (by simpa using h)]

/-- A run of separators is a run of empty pieces. -/
theorem splitOn_dropWhile (l : List α) :
    ∃ k, l.splitOn a = List.replicate k [] ++ (l.dropWhile (· = a)).splitOn a := by
  induction l with
  | nil => exact ⟨0, rfl⟩
  | cons x l ih =>
    by_cases h : x = a
    · subst h
      obtain ⟨k, hk⟩ := ih
      refine ⟨k + 1, ?_⟩
      rw [splitOn_self_cons, hk, List.dropWhile_cons_of_pos (by simp)]
      rfl
    · exact ⟨0, by rw [List.dropWhile_cons_of_neg (by simpa using h)]; rfl⟩

/-- Collapsing a list takes empty pieces out, but not the first piece, and not all empty ones of a
    run. -/
theorem splitOn_collapse (a : α) (l : List α) : collapse a l = l ∨
    ∃ pre post k, pre ≠ [] ∧ l.splitOn a = pre ++ List.replicate (k + 1) [] ++ post ∧
      (collapse a l).splitOn a = pre ++ [[]] ++ post := by
  induction l using collapse.induct (a := a) with
  | case1 => exact .inl rfl
  | case2 x => exact .inl rfl
  | case3 x y l h =>
    obtain ⟨rfl, rfl⟩ := h
    obtain ⟨k, hk⟩ := splitOn_dropWhile (a := y) l
    refine .inr ⟨[[]], (l.dropWhile (· = y)).splitOn y, k, List.cons_ne_nil _ _, ?_, ?_⟩
    · rw [splitOn_self_cons, splitOn_self_cons, hk]
      rfl
    · rw [collapse, if_pos ⟨rfl, rfl⟩, splitOn_self_cons, splitOn_self_cons]
      rfl
  | case4 x y l h ih =>
    rw [collapse, if_neg h]
    rcases ih with ih | ⟨pre, post, k, hne, hl, hc⟩
    · exact .inl (congrArg (x :: ·) ih)
    · obtain ⟨g, pre, rfl⟩ := List.exists_cons_of_ne_nil hne
      by_cases hx : x = a
      · subst hx
        refine .inr ⟨[] :: g :: pre, post, k, List.cons_ne_nil _ _, ?_, ?_⟩
        · rw [splitOn_self_cons, hl]
          rfl
        · rw [splitOn_self_cons, hc]
          rfl
      · refine .inr ⟨(x :: g) :: pre, post, k, List.cons_ne_nil _ _, ?_, ?_⟩
        · rw [splitOn_cons_of_ne hx, hl]
          rfl
        · rw [splitOn_cons_of_ne hx, hc]
          rfl

theorem leading_collapse (a : α) (l : List α) :
    leading ((collapse a l).splitOn a) = leading (l.splitOn a) := by
  rcases splitOn_collapse a l with h | ⟨pre, post, k, -, hl, hc⟩
  · rw [h]
  · rw [hl, hc, List.append_assoc, List.append_assoc, List.replicate_succ]
    exact leading_append_congr pre _ _

theorem trailing_collapse (a : α) (l : List α) :
    trailing ((collapse a l).splitOn a) = trailing (l.splitOn a) := by
  rcases splitOn_collapse a l with h | ⟨pre, post, k, -, hl, hc⟩
  · rw [h]
  · rw [hl, hc, List.replicate_succ', ← List.append_assoc, List.append_assoc _ [[]],
      List.append_assoc _ [[]]]
    exact trailing_append_congr post _ _

theorem nil_mem_collapse (a : α) (l : List α) :
    [] ∈ (collapse a l).splitOn a ↔ [] ∈ l.splitOn a := by
  rcases splitOn_collapse a l with h | ⟨pre, post, k, -, hl, hc⟩
  · rw [h]
  · rw [hl, hc]
    simp

/-- Two separators next to each other are an empty piece between two others. -/
theorem doubles_eq_count (a : α) (l : List α) :
    doubles a l = ((l.splitOn a).tail.dropLast).count [] := by
  induction l using doubles.induct with
  | case1 => rfl
  | case2 x =>
    by_cases hx : x = a
    · subst hx
      rw [splitOn_self_cons]
      rfl
    · rw [splitOn_cons_of_ne hx]
      rfl
  | case3 x y l ih =>
    have htail : ((x :: y :: l).splitOn a).tail.dropLast.count [] =
        if x = a then ((y :: l).splitOn a).dropLast.count []
        else ((y :: l).splitOn a).tail.dropLast.count [] := by
      split_ifs with hx
      · subst hx
        rw [splitOn_self_cons, List.tail_cons]
      · rw [splitOn_cons_of_ne hx, List.tail_modifyHead]
    have hhead : ((y :: l).splitOn a).dropLast.count [] =
        (if y = a then 1 else 0) + ((y :: l).splitOn a).tail.dropLast.count [] := by
      split_ifs with hy
      · subst hy
        obtain ⟨g, gs, hg⟩ := List.exists_cons_of_ne_nil (List.splitOn_ne_nil y l)
        rw [splitOn_self_cons, hg]
        simp [Nat.add_comm]
      · rw [splitOn_cons_of_ne hy]
        obtain ⟨g, gs, hg⟩ := List.exists_cons_of_ne_nil (List.splitOn_ne_nil a l)
        rw [hg]
        cases gs <;> simp
    rw [doubles, ih, htail]
    split_ifs with h hx hx
    · rw [hhead, if_pos h.2]
    · exact absurd h.1 hx
    · rw [hhead, if_neg fun hy => h ⟨hx, hy⟩]
    · rw [Nat.zero_add]

/-- The first piece is empty where a separator stands in front. -/
theorem head_collapse (a x : α) (l : List α) : ∃ l', collapse a (x :: l) = x :: l' := by
  cases l with
  | nil => exact ⟨[], rfl⟩
  | cons y l =>
    rw [collapse]
    split_ifs with h
    · exact ⟨_, by rw [h.1]⟩
    · exact ⟨_, rfl⟩

/-- Where the empty pieces are together, all separators that stand next to each other are in one
    run. -/
theorem doubles_collapse_le (a : α) (l : List α) (h : Together [] (l.splitOn a).tail) :
    doubles a (collapse a l) ≤ 1 := by
  induction l using collapse.induct (a := a) with
  | case1 => exact Nat.zero_le 1
  | case2 x => exact Nat.zero_le 1
  | case3 x y l hxy =>
    obtain ⟨rfl, rfl⟩ := hxy
    obtain ⟨k, hk⟩ := splitOn_dropWhile (a := y) l
    rw [splitOn_self_cons, splitOn_self_cons, List.tail_cons, hk] at h
    rw [collapse, if_pos ⟨rfl, rfl⟩, doubles, if_pos ⟨rfl, rfl⟩]
    cases hl : l.dropWhile (· = y) with
    | nil => exact Nat.le_refl 1
    | cons z l' =>
      have hz : z ≠ y := by
        have := List.head?_dropWhile_not (fun x => decide (x = y)) l
        rw [hl] at this
        simpa using this
      obtain ⟨g, gs, hg⟩ := List.exists_cons_of_ne_nil (List.splitOn_ne_nil y l')
      have hpieces : (z :: l').splitOn y = (z :: g) :: gs := by
        rw [splitOn_cons_of_ne hz, hg]
        rfl
      -- A later empty piece would stand on the other side of the one of `z`.
      have hgs : [] ∉ gs := by
        intro hmem
        obtain ⟨i, hi⟩ := List.mem_iff_getElem?.1 hmem
        rw [hl, hpieces] at h
        have := h 0 (k + 1) (k + i + 2) (by omega) (by omega) rfl
          (by simpa [List.getElem?_append, show ¬k + i + 1 < k by omega,
            show k + i + 1 - k = i + 1 by omega] using hi)
        simp at this
      rw [doubles, if_neg fun h => hz h.2, Nat.zero_add, doubles_eq_count, hpieces, List.tail_cons,
        List.count_eq_zero_of_not_mem fun hmem => hgs ((List.dropLast_sublist gs).mem hmem)]
  | case4 x y l hxy ih =>
    obtain ⟨l', hl'⟩ := head_collapse a y l
    have htail : Together [] ((y :: l).splitOn a).tail := by
      by_cases hx : x = a
      · subst hx
        rw [splitOn_self_cons, List.tail_cons] at h
        obtain ⟨g, gs, hg⟩ := List.exists_cons_of_ne_nil (List.splitOn_ne_nil x (y :: l))
        rw [hg] at h ⊢
        exact h.tail
      · rwa [splitOn_cons_of_ne hx, List.tail_modifyHead] at h
    have := ih htail
    rw [hl'] at this
    rw [collapse, if_neg hxy, hl', doubles, if_neg hxy, Nat.zero_add]
    exact this

end ShadowsocksR

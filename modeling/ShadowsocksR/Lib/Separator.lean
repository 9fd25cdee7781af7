import Mathlib.Data.List.Infix
import Mathlib.Data.List.Basic

/-!
# Separators of several elements

A list is cut at the first place of a separator that is a list itself, or at all places of it, from
the left to the right.

* `cutAt`: what stands before the first separator, and after it;
* `cutAt_append`: what comes later does not move the first separator;
* `cutAt_closing`: the separator at the end of a list that has no other one;
* `splitAll`: all pieces;
* `cutAt_lines`: lines that end with two elements, and an empty line after them;
* `cutAt_lines_eq_none`: the empty line is not found before it is complete.
-/

namespace ShadowsocksR

variable {α : Type} [DecidableEq α]

/-- What stands before the first `sep`, and after it. -/
def cutAt (sep : List α) : List α → Option (List α × List α)
  | [] => if sep = [] then some ([], []) else none
  | x :: l =>
    if sep <+: x :: l then some ([], (x :: l).drop sep.length)
    else (cutAt sep l).map fun p => (x :: p.1, p.2)

/-- At most `n` cuts. -/
def splitLoop (sep : List α) : ℕ → List α → List (List α)
  | 0, l => [l]
  | n + 1, l =>
    match cutAt sep l with
    | none => [l]
    | some (a, b) => a :: splitLoop sep n b

/-- The pieces between the separators. -/
def splitAll (sep l : List α) : List (List α) := splitLoop sep l.length l

variable {sep l a b : List α} {s x y : α}

/-! ## The first separator -/

theorem cutAt_begins (h : sep <+: l) : cutAt sep l = some ([], l.drop sep.length) := by
  cases l with
  | nil => rw [cutAt, if_pos (List.prefix_nil.1 h), List.drop_nil]
  | cons x l => rw [cutAt, if_pos h]

theorem cutAt_cons (h : ¬sep <+: x :: l) :
    cutAt sep (x :: l) = (cutAt sep l).map fun p => (x :: p.1, p.2) := by
  rw [cutAt, if_neg h]

theorem cutAt_eq_some (h : cutAt sep l = some (a, b)) : l = a ++ sep ++ b := by
  induction l generalizing a with
  | nil =>
    rw [cutAt] at h
    split_ifs at h with hsep
    cases h
    rw [hsep]
    rfl
  | cons x l ih =>
    by_cases hpre : sep <+: x :: l
    · rw [cutAt_begins hpre] at h
      cases h
      exact (List.prefix_append_drop hpre)
    · rw [cutAt_cons hpre] at h
      obtain ⟨⟨a', b'⟩, h', hp⟩ := Option.map_eq_some_iff.1 h
      cases hp
      exact congrArg (x :: ·) (ih h')

/-- What comes later does not move the first separator. -/
theorem cutAt_append (h : cutAt sep l = some (a, b)) (r : List α) :
    cutAt sep (l ++ r) = some (a, b ++ r) := by
  induction l generalizing a with
  | nil =>
    rw [cutAt] at h
    split_ifs at h with hsep
    cases h
    rw [cutAt_begins (hsep ▸ List.nil_prefix), hsep]
    rfl
  | cons x l ih =>
    by_cases hpre : sep <+: x :: l
    · rw [cutAt_begins hpre] at h
      cases h
      rw [cutAt_begins (hpre.trans (List.prefix_append _ _)),
        List.drop_append_of_le_length hpre.length_le]
    · rw [cutAt_cons hpre] at h
      obtain ⟨⟨a', b'⟩, h', hp⟩ := Option.map_eq_some_iff.1 h
      cases hp
      -- A separator at the front would be inside what was there before.
      have hlength : sep.length ≤ (x :: l).length := by
        rw [cutAt_eq_some h']
        simp only [List.length_cons, List.length_append]
        omega
      have hpre' : ¬sep <+: x :: (l ++ r) := fun hpre' =>
        hpre (List.prefix_of_prefix_length_le hpre' (List.prefix_append (x :: l) r) hlength)
      rw [List.cons_append, cutAt_cons hpre', ih h']
      rfl

theorem cutAt_eq_none : cutAt sep l = none ↔ ¬sep <:+: l := by
  constructor
  · intro h hinfix
    induction l with
    | nil =>
      rw [cutAt, if_pos (List.infix_nil.1 hinfix)] at h
      cases h
    | cons x l ih =>
      by_cases hpre : sep <+: x :: l
      · rw [cutAt_begins hpre] at h
        cases h
      · rw [cutAt_cons hpre, Option.map_eq_none_iff] at h
        exact ih h ((List.infix_cons_iff.1 hinfix).resolve_left hpre)
  · intro hinfix
    rw [Option.eq_none_iff_forall_ne_some]
    rintro ⟨a, b⟩ h
    exact hinfix ⟨a, b, (cutAt_eq_some h).symm⟩

/-- A separator at the end, and none before, is the first one, whatever comes later. -/
theorem cutAt_closing (h : ¬sep <:+: (a ++ sep).dropLast) (r : List α) :
    cutAt sep (a ++ sep ++ r) = some (a, r) := by
  rcases hcut : cutAt sep (a ++ sep) with - | ⟨a', b'⟩
  · exact absurd (List.suffix_append a sep).isInfix (cutAt_eq_none.1 hcut)
  rw [cutAt_append hcut]
  have heq := cutAt_eq_some hcut
  rcases List.eq_nil_or_concat' b' with rfl | ⟨b', z, rfl⟩
  · rw [List.append_nil] at heq
    rw [List.append_cancel_right heq, List.nil_append]
  · refine absurd ⟨a', b', ?_⟩ h
    rw [heq, ← List.append_assoc, List.dropLast_concat]

/-- A piece without the first element of the separator. -/
theorem cutAt_skip (h : s ∉ l) (m : List α) :
    cutAt (s :: sep) (l ++ m) = (cutAt (s :: sep) m).map fun p => (l ++ p.1, p.2) := by
  induction l with
  | nil => cases h : cutAt (s :: sep) m <;> rw [List.nil_append, h] <;> rfl
  | cons x l ih =>
    rw [List.mem_cons, not_or] at h
    have hpre : ¬s :: sep <+: x :: (l ++ m) := fun hpre => h.1 (List.cons_prefix_cons.1 hpre).1
    rw [List.cons_append, cutAt_cons hpre, ih h.2, Option.map_map]
    rfl

/-- Lines that end with `x` and `y`, and an empty line. -/
def unlines (x y : α) (lines : List (List α)) : List α := lines.flatMap (· ++ [x, y]) ++ [x, y]

omit [DecidableEq α] in
theorem unlines_cons (x y : α) (line : List α) (lines : List (List α)) :
    unlines x y (line :: lines) = line ++ ([x, y] ++ unlines x y lines) := by
  simp [unlines]

/-- The empty line after some lines is found. -/
theorem cutAt_lines (hxy : x ≠ y) {lines : List (List α)} (hne : lines ≠ [])
    (hlines : ∀ line ∈ lines, line ≠ [] ∧ x ∉ line) (rest : List α) :
    ∃ before, cutAt [x, y, x, y] (unlines x y lines ++ rest) = some (before, rest) := by
  induction lines with
  | nil => exact absurd rfl hne
  | cons line lines ih =>
    obtain ⟨⟨-, hline⟩, hlines⟩ := List.forall_mem_cons.1 hlines
    rw [unlines_cons, List.append_assoc, cutAt_skip hline]
    cases lines with
    | nil => exact ⟨line ++ [], by rw [cutAt_begins (by simp [unlines])]; simp [unlines]⟩
    | cons line' lines =>
      obtain ⟨before, hbefore⟩ := ih (List.cons_ne_nil _ _) hlines
      obtain ⟨z, line', rfl⟩ := List.exists_cons_of_ne_nil (hlines line' List.mem_cons_self).1
      have hz : z ≠ x := fun hz => (hlines _ List.mem_cons_self).2 (hz ▸ List.mem_cons_self)
      -- The end of a line is not followed by the end of another one.
      have hpre : ¬[x, y, x, y] <+: x :: y :: (unlines x y ((z :: line') :: lines) ++ rest) := by
        rw [unlines_cons]
        simp [List.cons_prefix_cons, hz.symm]
      have hpre' : ¬[x, y, x, y] <+: y :: (unlines x y ((z :: line') :: lines) ++ rest) :=
        fun hpre' => hxy (List.cons_prefix_cons.1 hpre').1
      refine ⟨line ++ x :: y :: before, ?_⟩
      rw [List.append_assoc, List.cons_append, List.cons_append, List.nil_append, cutAt_cons hpre,
        cutAt_cons hpre', hbefore]
      rfl

/-- Without the whole of the empty line, none is found. -/
theorem cutAt_lines_eq_none (hxy : x ≠ y) {lines : List (List α)} (hne : lines ≠ [])
    (hlines : ∀ line ∈ lines, line ≠ [] ∧ x ∉ line) {p : List α}
    (hpre : p <+: unlines x y lines) (hlt : p.length < (unlines x y lines).length) :
    cutAt [x, y, x, y] p = none := by
  obtain ⟨r, hr⟩ := hpre
  obtain ⟨before, hbefore⟩ := cutAt_lines hxy hne hlines []
  rw [List.append_nil, ← hr] at hbefore
  cases hp : cutAt [x, y, x, y] p with
  | none => rfl
  | some q =>
    -- Nothing is left after the first empty line.
    have hrest := cutAt_append hp r
    rw [hbefore, Option.some.injEq, Prod.mk.injEq] at hrest
    have hnil := List.append_eq_nil_iff.1 hrest.2.symm
    rw [← hr, hnil.2, List.append_nil] at hlt
    exact absurd hlt (lt_irrefl _)

end ShadowsocksR

import Mathlib.Data.List.Basic

/-!
# Codes that can be read from the left

A code of the elements of a list, each of which can be read off the front of a text, whatever comes
after it.

* `flatMap_inj_of_read`: lists with the same code are the same.
-/

namespace ShadowsocksR

variable {α β : Type} {code : α → List β} {read : List β → Option (α × List β)}

theorem ne_nil_of_read (hread : ∀ a rest, read (code a ++ rest) = some (a, rest))
    (hnil : read [] = none) (a : α) : code a ≠ [] := by
  intro h
  have ha := hread a []
  rw [h, List.append_nil, hnil] at ha
  cases ha

theorem flatMap_inj_of_read (hread : ∀ a rest, read (code a ++ rest) = some (a, rest))
    (hnil : read [] = none) {l l' : List α} (h : l.flatMap code = l'.flatMap code) : l = l' := by
  induction l generalizing l' with
  | nil =>
    cases l' with
    | nil => rfl
    | cons a l' =>
      rw [List.flatMap_nil, List.flatMap_cons] at h
      exact absurd (List.append_eq_nil_iff.1 h.symm).1 (ne_nil_of_read hread hnil a)
  | cons a l ih =>
    rw [List.flatMap_cons] at h
    have ha := hread a (l.flatMap code)
    rw [h] at ha
    cases l' with
    | nil =>
      rw [List.flatMap_nil, hnil] at ha
      cases ha
    | cons a' l' =>
      rw [List.flatMap_cons, hread, Option.some_inj, Prod.mk.injEq] at ha
      rw [ha.1, ih ha.2.symm]

end ShadowsocksR

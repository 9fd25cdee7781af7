import ShadowsocksR.Lib.Bytes

/-!
# Objects that transform a stream

An object with an operation `update` is given a stream, one piece after the
other, and puts out a piece for each.

* `total`: all that the object puts out;
* `Joins`: it does not matter where the stream is cut;
* `Inverts`: another object gets the stream back, wherever what the first one
  has put out is cut (`Inverts.total_total`).
-/

namespace ShadowsocksR

variable {σ : Type} {update : σ → Bytes → Bytes × σ} {c d : σ}

/-- All that an object puts out when it is given some pieces. -/
def total (update : σ → Bytes → Bytes × σ) (c : σ) : List Bytes → Bytes
  | [] => []
  | p :: ps => (update c p).1 ++ total update (update c p).2 ps

@[simp] theorem total_nil : total update c [] = [] := rfl

@[simp] theorem total_cons (p : Bytes) (ps : List Bytes) :
    total update c (p :: ps) = (update c p).1 ++ total update (update c p).2 ps := rfl

/-- What an object puts out for some pieces is what it puts out for all of them at once. -/
def Joins (update : σ → Bytes → Bytes × σ) (c : σ) : Prop :=
  ∀ ps, total update c ps = (update c ps.flatten).1

theorem Joins.total_congr (h : Joins update c) {ps qs : List Bytes} (hflat : ps.flatten = qs.flatten) :
    total update c ps = total update c qs := by
  rw [h ps, h qs, hflat]

/-- Empty pieces do not count. -/
theorem Joins.total_filter (h : Joins update c) (ps : List Bytes) :
    total update c (ps.filter (· ≠ [])) = total update c ps :=
  h.total_congr List.flatten_filter_ne_nil

/-- The object `d` gets back what has gone into the object `c`. -/
structure Inverts (update : σ → Bytes → Bytes × σ) (c d : σ) : Prop where
  joins : Joins update c
  joins' : Joins update d
  inverse : ∀ buf, (update d (update c buf).1).1 = buf

theorem Inverts.total_total (h : Inverts update c d) {ps qs : List Bytes}
    (hflat : qs.flatten = total update c ps) : total update d qs = ps.flatten := by
  rw [h.joins' qs, hflat, h.joins ps, h.inverse]

end ShadowsocksR

import ShadowsocksR.Lib.Bytes
import Mathlib.Data.List.Perm.Basic
import Mathlib.Data.List.Nodup

/-!
# Tables that substitute bytes

A table has an entry for each byte. When its entries are all bytes in some order, the table that is
made by writing each byte at the place of its entry undoes it.

* `assign`: writing some values into a table, one after the other;
* `getElem?_assign`: what is written at a place once stays there;
* `invert`: the table that undoes another one;
* `invert_lookup`, `lookup_invert`: it does, on both sides.
-/

namespace ShadowsocksR

/-! ## Writing -/

section

variable {β : Type} {t : List β} {ps : List (ℕ × β)} {i : ℕ} {b : β}

/-- The table after some values have been written into it. -/
def assign (t : List β) (ps : List (ℕ × β)) : List β := ps.foldl (fun t p => t.set p.1 p.2) t

@[simp] theorem length_assign (t : List β) (ps : List (ℕ × β)) :
    (assign t ps).length = t.length := by
  induction ps generalizing t with
  | nil => rfl
  | cons p ps ih => rw [assign, List.foldl_cons, ← assign, ih, List.length_set]

theorem getElem?_assign_of_not_mem (t : List β) (h : i ∉ ps.map Prod.fst) :
    (assign t ps)[i]? = t[i]? := by
  induction ps generalizing t with
  | nil => rfl
  | cons p ps ih =>
    rw [List.map_cons, List.mem_cons, not_or] at h
    rw [assign, List.foldl_cons, ← assign, ih _ h.2, List.getElem?_set_ne (Ne.symm h.1)]

/-- What is written at a place, and nothing else is, is there. -/
theorem getElem?_assign (hps : (ps.map Prod.fst).Nodup) (hmem : (i, b) ∈ ps) (hi : i < t.length) :
    (assign t ps)[i]? = some b := by
  induction ps generalizing t with
  | nil => cases hmem
  | cons p ps ih =>
    rw [List.map_cons, List.nodup_cons] at hps
    rw [assign, List.foldl_cons, ← assign]
    rcases List.mem_cons.1 hmem with rfl | hmem
    · rw [getElem?_assign_of_not_mem _ hps.1, List.getElem?_set_self hi]
    · exact ih hps.2 hmem (by rwa [List.length_set])

end

/-! ## Tables of bytes -/

/-- All bytes, in their order. -/
def allBytes : Bytes := (List.range 256).map UInt8.ofNat

/-- The entry of a byte. -/
def lookup (table : Bytes) (b : UInt8) : UInt8 := table.getD b.toNat 0

/-- The table with each byte of `to` at the place of the byte of `from`. -/
def transTable (source target : Bytes) : Bytes :=
  assign allBytes ((source.zip target).map fun p => (p.1.toNat, p.2))

/-- The table that undoes another one. -/
def invert (table : Bytes) : Bytes := transTable table allBytes

variable {table : Bytes} {b c : UInt8}

@[simp] theorem length_allBytes : allBytes.length = 256 := by
  rw [allBytes, List.length_map, List.length_range]

theorem getElem?_allBytes (b : UInt8) : allBytes[b.toNat]? = some b := by
  rw [allBytes, List.getElem?_map, List.getElem?_range b.toNat_lt, Option.map_some,
    UInt8.ofNat_toNat]

theorem mem_allBytes (b : UInt8) : b ∈ allBytes := List.mem_of_getElem? (getElem?_allBytes b)

theorem nodup_allBytes : allBytes.Nodup := by
  refine List.Nodup.map_on (fun x hx y hy h => ?_) List.nodup_range
  rw [List.mem_range] at hx hy
  have hnat := congrArg UInt8.toNat h
  rwa [UInt8.toNat_ofNat_of_lt' hx, UInt8.toNat_ofNat_of_lt' hy] at hnat

@[simp] theorem length_transTable (source target : Bytes) :
    (transTable source target).length = 256 := by
  rw [transTable, length_assign, length_allBytes]

theorem lookup_eq_iff (h : table.length = 256) :
    lookup table b = c ↔ table[b.toNat]? = some c := by
  have hlt : b.toNat < table.length := h ▸ b.toNat_lt
  rw [lookup, List.getD_eq_getElem?_getD, List.getElem?_eq_getElem hlt, Option.getD_some,
    Option.some_inj]

/-- The entries of a table of all bytes are found again at their places. -/
theorem lookup_invert_eq (h : table.Perm allBytes) (hc : lookup table b = c) :
    lookup (invert table) c = b := by
  have hlength : table.length = 256 := h.length_eq.trans length_allBytes
  have hnodup : (((table.zip allBytes).map fun p => (p.1.toNat, p.2)).map Prod.fst).Nodup := by
    have hfst : ((table.zip allBytes).map fun p => (p.1.toNat, p.2)).map Prod.fst =
        ((table.zip allBytes).map Prod.fst).map UInt8.toNat := by
      rw [List.map_map, List.map_map]
      rfl
    rw [hfst, List.map_fst_zip (by rw [hlength, length_allBytes])]
    exact (h.nodup_iff.2 nodup_allBytes).map fun _ _ => UInt8.toNat_inj.1
  rw [lookup_eq_iff hlength] at hc
  rw [invert, lookup_eq_iff (length_transTable _ _), transTable]
  refine getElem?_assign hnodup (List.mem_map.2 ⟨(c, b), ?_, rfl⟩)
    (by rw [length_allBytes]; exact c.toNat_lt)
  refine List.mem_of_getElem? (i := b.toNat) ?_
  rw [List.getElem?_zip_eq_some]
  exact ⟨hc, getElem?_allBytes b⟩

theorem invert_lookup (h : table.Perm allBytes) (b : UInt8) :
    lookup (invert table) (lookup table b) = b := lookup_invert_eq h rfl

theorem lookup_invert (h : table.Perm allBytes) (c : UInt8) :
    lookup table (lookup (invert table) c) = c := by
  have hlength : table.length = 256 := h.length_eq.trans length_allBytes
  obtain ⟨i, hi, hc⟩ := List.mem_iff_getElem.1 (h.mem_iff.2 (mem_allBytes c))
  have hb : lookup table (UInt8.ofNat i) = c := by
    rw [lookup_eq_iff hlength, UInt8.toNat_ofNat_of_lt' (show i < 256 from hlength ▸ hi),
      List.getElem?_eq_getElem hi, hc]
  rw [lookup_invert_eq h hb, hb]

end ShadowsocksR

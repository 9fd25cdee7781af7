import ShadowsocksR.Lib.Framing

/-!
# Cutting a buffer into frames

A sender cuts a buffer into pieces of some length and makes a frame of each, the
last piece being what is left. The length is an integer, and the pieces are
slices, as the sender may not know that the length is positive.

* `cut`: the loop;
* `cut_spec`: with a positive length it ends, having packed the whole buffer in
  pieces of which only the last one can be empty;
* `cut_frames`: it makes frames of the buffer, when every piece makes one;
* `cut_ne_done`: with another length it never ends.
-/

namespace ShadowsocksR

variable {σ ε : Type}

/-- The state of the loop: the packing object, what is left of the buffer, the bytes of the
    frames, and the pieces they are made from. -/
structure Cut (σ : Type) where
  obj : σ
  buf : Bytes
  ret : Bytes := []
  packed : List Bytes := []

/-- One turn of the loop `while len(buf) > unit`, or the packing of the last piece after it. -/
def cutBody (unit : ℤ) (pack : σ → Bytes → Except ε (Bytes × σ)) (t : Cut σ) : Next (Cut σ) ε :=
  if (t.buf.length : ℤ) > unit then
    match pack t.obj (takeTo unit t.buf) with
    | .ok (data, obj) => .more
        { obj, buf := dropTo unit t.buf, ret := t.ret ++ data
          packed := t.packed ++ [takeTo unit t.buf] }
    | .error e => .fail e t
  else
    match pack t.obj t.buf with
    | .ok (data, obj) => .done
        { t with obj, ret := t.ret ++ data, packed := t.packed ++ [t.buf] }
    | .error e => .fail e t

/-- At most `fuel` turns of the loop. -/
def cut (unit : ℤ) (pack : σ → Bytes → Except ε (Bytes × σ)) (fuel : ℕ) (t : Cut σ) :
    Next (Cut σ) ε := loop (cutBody unit pack) fuel t

/-- Packing some pieces one after the other. -/
inductive Packs (pack : σ → Bytes → Except ε (Bytes × σ)) : σ → List Bytes → Bytes → σ → Prop
  | nil (s : σ) : Packs pack s [] [] s
  | cons {s s' s'' : σ} {p data datas : Bytes} {ps : List Bytes} :
      pack s p = .ok (data, s') → Packs pack s' ps datas s'' →
      Packs pack s (p :: ps) (data ++ datas) s''

variable {unit : ℤ} {pack : σ → Bytes → Except ε (Bytes × σ)}

/-- The number of pieces of a buffer of some length. -/
def pieces (unit len : ℕ) : ℕ := (len - 1) / unit + 1

/-- What a run of the loop has packed from the buffer. -/
structure Cutting (unit : ℕ) (buf : Bytes) (ps : List Bytes) : Prop where
  flatten : ps.flatten = buf
  head : ps.head? = some (buf.take unit)
  length_le : ∀ p ∈ ps, p.length ≤ unit
  ne_nil : ∀ p ∈ ps.dropLast, p ≠ []
  length : ps.length = pieces unit buf.length

theorem Cutting.nonempty {unit : ℕ} {buf : Bytes} {ps : List Bytes} (h : Cutting unit buf ps) :
    ps ≠ [] := List.ne_nil_of_length_pos (h.length ▸ Nat.succ_pos _)

/-- Packing all of a short buffer. -/
theorem cutting_single {unit : ℕ} {buf : Bytes} (hu : 0 < unit) (h : buf.length ≤ unit) :
    Cutting unit buf [buf] where
  flatten := by simp
  head := by rw [List.take_of_length_le h]; rfl
  length_le := by simpa using h
  ne_nil := by simp
  length := by rw [pieces, Nat.div_eq_of_lt (by omega)]; rfl

/-- Packing a piece of a long buffer. -/
theorem Cutting.cons {unit : ℕ} {buf : Bytes} {ps : List Bytes} (hu : 0 < unit)
    (h : unit < buf.length) (hps : Cutting unit (buf.drop unit) ps) :
    Cutting unit buf (buf.take unit :: ps) where
  flatten := by rw [List.flatten_cons, hps.flatten, List.take_append_drop]
  head := rfl
  length_le p hp := by
    rcases List.mem_cons.1 hp with rfl | hp
    · exact List.length_take_le _ _
    · exact hps.length_le p hp
  ne_nil p hp := by
    rw [List.dropLast_cons_of_ne_nil hps.nonempty, List.mem_cons] at hp
    rcases hp with rfl | hp
    · exact List.ne_nil_of_length_pos (by rw [List.length_take]; omega)
    · exact hps.ne_nil p hp
  length := by
    have hlen : buf.length - 1 = (buf.length - unit - 1) + unit := by omega
    rw [List.length_cons, hps.length, List.length_drop, pieces, pieces, hlen,
      Nat.add_div_right _ hu]

/-- With a positive length, the loop ends, when packing a piece never fails. -/
theorem cut_spec {unit : ℕ} (hu : 0 < unit) {P : σ → Prop}
    (hpack : ∀ s p, P s → p.length ≤ unit → ∃ data s', pack s p = .ok (data, s') ∧ P s')
    (fuel : ℕ) {t : Cut σ} (hP : P t.obj) (hfuel : t.buf.length < fuel) :
    ∃ ps datas t', cut unit pack fuel t = .done t' ∧ t'.ret = t.ret ++ datas ∧
      t'.packed = t.packed ++ ps ∧ P t'.obj ∧ Packs pack t.obj ps datas t'.obj ∧
      Cutting unit t.buf ps := by
  induction fuel generalizing t with
  | zero => omega
  | succ fuel ih =>
    by_cases hlen : (t.buf.length : ℤ) > unit
    · obtain ⟨data, s', hs', hP'⟩ := hpack t.obj (t.buf.take unit) hP (by
        rw [List.length_take]; omega)
      have hbody : cutBody unit pack t = .more
          { obj := s', buf := t.buf.drop unit, ret := t.ret ++ data
            packed := t.packed ++ [t.buf.take unit] } := by
        rw [cutBody, if_pos hlen, takeTo_natCast, dropTo_natCast, hs']
      obtain ⟨ps, datas, t', ht', hret, hpacked, hP'', hps, hcut⟩ :=
        ih (t := { obj := s', buf := t.buf.drop unit, ret := t.ret ++ data
                   packed := t.packed ++ [t.buf.take unit] }) hP' (by
          simp only [List.length_drop]; omega)
      refine ⟨t.buf.take unit :: ps, data ++ datas, t', ?_, ?_, ?_, hP'', .cons hs' hps,
        hcut.cons hu (by omega)⟩
      · rw [cut, loop_succ_of_more hbody]; exact ht'
      · rw [hret, List.append_assoc]
      · rw [hpacked, List.append_assoc]; rfl
    · obtain ⟨data, s', hs', hP'⟩ := hpack t.obj t.buf hP (by omega)
      have hbody : cutBody unit pack t = .done
          { t with obj := s', ret := t.ret ++ data, packed := t.packed ++ [t.buf] } := by
        rw [cutBody, if_neg hlen, hs']
      refine ⟨[t.buf], data ++ [], _, loop_succ_of_done hbody, ?_, rfl, hP', .cons hs' (.nil _),
        cutting_single hu (by omega)⟩
      rw [List.append_nil]

/-- Frames that lead from one state of the packing object to another. -/
inductive Sends (R : σ → Frame → σ → Prop) : σ → List Frame → σ → Prop
  | nil (s : σ) : Sends R s [] s
  | cons {s s' s'' : σ} {f : Frame} {fs : List Frame} : R s f s' → Sends R s' fs s'' →
      Sends R s (f :: fs) s''

theorem Sends.append {R : σ → Frame → σ → Prop} {s s' s'' : σ} {fs gs : List Frame}
    (h : Sends R s fs s') (h' : Sends R s' gs s'') : Sends R s (fs ++ gs) s'' := by
  induction h with
  | nil s => exact h'
  | cons hf _ ih => exact .cons hf (ih h')

/-- The frames, seen through what they say of the states. -/
theorem Sends.map {τ : Type} {R : σ → Frame → σ → Prop} {R' : τ → Frame → τ → Prop} (g : σ → τ)
    (hR : ∀ {s f s'}, R s f s' → R' (g s) f (g s')) {s s' : σ} {fs : List Frame}
    (h : Sends R s fs s') : Sends R' (g s) fs (g s') := by
  induction h with
  | nil s => exact .nil _
  | cons hf _ ih => exact .cons (hR hf) ih

/-- What every frame keeps. -/
theorem Sends.forall_mem {R : σ → Frame → σ → Prop} {Good : Frame → Prop} {s s' : σ}
    {fs : List Frame} (h : Sends R s fs s') (hR : ∀ {s f s'}, R s f s' → Good f) :
    ∀ f ∈ fs, Good f := by
  induction h with
  | nil s => exact fun _ hf => absurd hf List.not_mem_nil
  | cons hf _ ih => exact List.forall_mem_cons.2 ⟨hR hf, ih⟩

theorem Packs.sends {R : σ → Frame → σ → Prop} {P : σ → Prop} {len : ℕ}
    (hpack : ∀ s p, P s → p.length ≤ len →
      ∃ f s', pack s p = .ok (f.bytes, s') ∧ f.output = p ∧ R s f s' ∧ P s')
    {s s' : σ} {ps : List Bytes} {datas : Bytes} (h : Packs pack s ps datas s') (hP : P s)
    (hps : ∀ p ∈ ps, p.length ≤ len) :
    ∃ fs, wire fs = datas ∧ carried fs = ps.flatten ∧ fs.length = ps.length ∧ Sends R s fs s' := by
  induction h with
  | nil s => exact ⟨[], rfl, rfl, rfl, .nil s⟩
  | cons hp _ ih =>
    rw [List.forall_mem_cons] at hps
    obtain ⟨f, s₁, hf, rfl, hR, hP'⟩ := hpack _ _ hP hps.1
    cases hp.symm.trans hf
    obtain ⟨fs, rfl, hcar, hlen, hsends⟩ := ih hP' hps.2
    exact ⟨f :: fs, rfl, by rw [carried_cons, hcar, List.flatten_cons], by simp [hlen],
      .cons hR hsends⟩

/-- With a positive length, the loop makes frames of the buffer, when every piece makes one. -/
theorem cut_frames {R : σ → Frame → σ → Prop} {P : σ → Prop} {unit : ℕ} (hu : 0 < unit)
    (hpack : ∀ s p, P s → p.length ≤ unit →
      ∃ f s', pack s p = .ok (f.bytes, s') ∧ f.output = p ∧ R s f s' ∧ P s')
    (fuel : ℕ) {t : Cut σ} (hP : P t.obj) (hfuel : t.buf.length < fuel) :
    ∃ fs t', cut unit pack fuel t = .done t' ∧ t'.ret = t.ret ++ wire fs ∧ carried fs = t.buf ∧
      fs ≠ [] ∧ Sends R t.obj fs t'.obj ∧ P t'.obj := by
  obtain ⟨ps, datas, t', ht', hret, -, hP', hpacks, hcut⟩ := cut_spec hu (P := P)
    (fun s p hs hp => by
      obtain ⟨f, s', hf, -, -, hs'⟩ := hpack s p hs hp
      exact ⟨f.bytes, s', hf, hs'⟩) fuel hP hfuel
  obtain ⟨fs, rfl, hcar, hlen, hsends⟩ := hpacks.sends hpack hP hcut.length_le
  refine ⟨fs, t', ht', hret, hcar.trans hcut.flatten, ?_, hsends, hP'⟩
  rintro rfl
  exact hcut.nonempty (List.length_eq_zero_iff.1 hlen.symm)

/-- The loop keeps what packing a piece keeps. -/
theorem cut_invariant {P : σ → Prop}
    (hpack : ∀ s p data s', P s → pack s p = .ok (data, s') → P s') (unit : ℤ) (fuel : ℕ)
    {t : Cut σ}
    (hP : P t.obj) : P (cut unit pack fuel t).state.obj := by
  refine loop_invariant (P := fun t : Cut σ => P t.obj) (fun t ht => ?_) fuel hP
  rw [cutBody]
  split
  · cases hp : pack t.obj (takeTo unit t.buf) with
    | error e => exact ht
    | ok r => exact hpack _ _ _ _ ht hp
  · cases hp : pack t.obj t.buf with
    | error e => exact ht
    | ok r => exact hpack _ _ _ _ ht hp

/-- With another length, it never ends. -/
theorem cut_ne_done (hu : unit ≤ 0) (fuel : ℕ) {t : Cut σ} (ht : unit < 0 ∨ t.buf ≠ [])
    (t' : Cut σ) : cut unit pack fuel t ≠ .done t' := by
  induction fuel generalizing t with
  | zero =>
    intro h
    cases h
  | succ fuel ih =>
    have hlen : (t.buf.length : ℤ) > unit := by
      rcases ht with hneg | hne
      · omega
      · have := List.length_pos_iff.2 hne
        omega
    rw [cut, loop, cutBody, if_pos hlen]
    cases hp : pack t.obj (takeTo unit t.buf) with
    | error e =>
      intro h
      cases h
    | ok r =>
      refine ih ?_
      by_cases hneg : unit < 0
      · exact .inl hneg
      · -- A slice to zero leaves the buffer as it is.
        obtain rfl : unit = 0 := by omega
        exact .inr (by simpa [dropTo, sliceIndex] using ht.resolve_left hneg)

/-- With a positive length, some number of turns is enough, and no piece but the last one is
    empty. -/
theorem cut_ends {P : σ → Prop}
    (hpack : ∀ s p, P s → (p.length : ℤ) ≤ unit → ∃ data s', pack s p = .ok (data, s') ∧ P s')
    {t : Cut σ} (hP : P t.obj) (hpacked : t.packed = []) (hu : 0 < unit) :
    ∃ fuel t', cut unit pack fuel t = .done t' ∧ ∀ p ∈ t'.packed.dropLast, p ≠ [] := by
  obtain ⟨n, rfl⟩ := Int.eq_ofNat_of_zero_le hu.le
  obtain ⟨ps, datas, t', ht', -, hps, -, -, hcut⟩ := cut_spec (show 0 < n by omega)
    (fun s p hs hp => hpack s p hs (by omega)) _ hP (Nat.lt_succ_self _)
  refine ⟨_, t', ht', ?_⟩
  rw [hps, hpacked]
  exact hcut.ne_nil

end ShadowsocksR

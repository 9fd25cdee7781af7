import ShadowsocksR.Lib.Bytes
import Mathlib.Logic.Relation

/-!
# Decoding a stream of frames

A sender writes frames to a byte stream; a receiver gets the stream in pieces
and decodes it with a loop over its buffer: each turn takes one frame off the
front of the buffer, or stops because the frame is not complete.

* `loop`: a loop that is given a number of turns;
* `Lockstep`: the receiver expects the frames that the sender has written, which
  is a property of one turn of its loop;
* `Lockstep.loop_spec`: then, wherever the stream is cut, the loop takes off the
  complete frames, and appends what they carry to its output;
* `Lockstep.loop_drop`: it takes off the frames it expects, whatever comes after
  them;
* `Lockstep.turns`: in every state in which a turn begins, the frames that come
  next are those that the rest of the stream is made of.
-/

namespace ShadowsocksR

/-! ## Loops -/

/-- The outcome of one turn of a loop: the loop ends, goes on, or is left by an exception. -/
inductive Next (τ ε : Type)
  | done (t : τ)
  | more (t : τ)
  | fail (e : ε) (t : τ)

/-- At most `fuel` turns of a loop; `more` is a loop that has not ended by then. -/
def loop {τ ε : Type} (body : τ → Next τ ε) : ℕ → τ → Next τ ε
  | 0, t => .more t
  | fuel + 1, t =>
    match body t with
    | .more t => loop body fuel t
    | r => r

variable {τ ε : Type} {body : τ → Next τ ε}

theorem loop_succ_of_more {fuel : ℕ} {t t' : τ} (h : body t = .more t') :
    loop body (fuel + 1) t = loop body fuel t' := by
  rw [loop, h]

theorem loop_succ_of_done {fuel : ℕ} {t t' : τ} (h : body t = .done t') :
    loop body (fuel + 1) t = .done t' := by
  rw [loop, h]

/-- The state that a turn leads to. -/
def Next.state : Next τ ε → τ
  | .done t | .more t | .fail _ t => t

/-- A loop that ends, or fails, keeps what every turn of it keeps. -/
theorem loop_invariant {P : τ → Prop} (hbody : ∀ t, P t → P (body t).state) (fuel : ℕ) {t : τ}
    (hP : P t) : P (loop body fuel t).state := by
  induction fuel generalizing t with
  | zero => exact hP
  | succ fuel ih =>
    have h := hbody t hP
    rw [loop]
    cases hb : body t with
    | done t' => rw [hb] at h; exact h
    | more t' => rw [hb] at h; exact ih h
    | fail e t' => rw [hb] at h; exact h

/-- A loop ends when it has a turn for every value of a measure that every turn decreases. -/
theorem loop_ne_more {m : τ → ℕ} (hbody : ∀ {t t'}, body t = .more t' → m t' < m t) (fuel : ℕ)
    {t : τ} (h : m t < fuel) (t' : τ) : loop body fuel t ≠ .more t' := by
  induction fuel generalizing t with
  | zero => omega
  | succ fuel ih =>
    rw [loop]
    cases hb : body t with
    | done t₁ => exact fun h => nomatch h
    | more t₁ =>
      have := hbody hb
      exact ih (by omega)
    | fail e t₁ => exact fun h => nomatch h

/-! ## Frames -/

/-- A frame: its bytes in the stream, and what it carries. -/
structure Frame where
  bytes : Bytes
  output : Bytes

/-- The bytes of some frames. -/
def wire (fs : List Frame) : Bytes := fs.flatMap Frame.bytes

/-- What some frames carry. -/
def carried (fs : List Frame) : Bytes := fs.flatMap Frame.output

@[simp] theorem wire_nil : wire [] = [] := rfl

@[simp] theorem wire_cons (f : Frame) (fs : List Frame) : wire (f :: fs) = f.bytes ++ wire fs := rfl

@[simp] theorem wire_append (fs gs : List Frame) : wire (fs ++ gs) = wire fs ++ wire gs :=
  List.flatMap_append

@[simp] theorem carried_nil : carried [] = [] := rfl

@[simp] theorem carried_cons (f : Frame) (fs : List Frame) :
    carried (f :: fs) = f.output ++ carried fs := rfl

@[simp] theorem carried_append (fs gs : List Frame) :
    carried (fs ++ gs) = carried fs ++ carried gs := List.flatMap_append

theorem length_le_wire {fs : List Frame} (h : ∀ f ∈ fs, f.bytes ≠ []) :
    fs.length ≤ (wire fs).length := by
  induction fs with
  | nil => exact le_rfl
  | cons f fs ih =>
    rw [List.forall_mem_cons] at h
    have hf := List.length_pos_iff.2 h.1
    have hfs := ih h.2
    rw [List.length_cons, wire_cons, List.length_append]
    omega

/-- A receiver with a buffer and an output, which expects frames: `expects fs t` says that the
    frames `fs` come next. -/
structure Lockstep (body : τ → Next τ ε) (buf out : τ → Bytes) (expects : List Frame → τ → Prop) :
    Prop where
  bytes_ne_nil : ∀ {fs t}, expects fs t → ∀ f ∈ fs, f.bytes ≠ []
  /-- The loop ends at an incomplete frame. -/
  incomplete : ∀ {f fs t}, expects (f :: fs) t → buf t <+: f.bytes → buf t ≠ f.bytes →
    ∃ t', body t = .done t' ∧ buf t' = buf t ∧ out t' = out t ∧ expects (f :: fs) t'
  /-- It takes off a complete frame, or waits for more when the frame carries nothing. -/
  complete : ∀ {f fs t rest}, expects (f :: fs) t → buf t = f.bytes ++ rest →
    (∃ t', body t = .more t' ∧ buf t' = rest ∧ out t' = out t ++ f.output ∧ expects fs t') ∨
      (rest = [] ∧ f.output = [] ∧
        ∃ t', body t = .done t' ∧ buf t' = buf t ∧ out t' = out t ∧ expects (f :: fs) t')
  /-- It ends at an empty buffer. -/
  empty : ∀ {t}, expects [] t → buf t = [] →
    ∃ t', body t = .done t' ∧ buf t' = [] ∧ out t' = out t ∧ expects [] t'

/-- Two prefixes of one stream. -/
theorem prefix_or_prefix {buf fut bytes rest : Bytes} (h : buf ++ fut = bytes ++ rest) :
    (buf <+: bytes ∧ buf ≠ bytes) ∨ ∃ rest', buf = bytes ++ rest' ∧ rest' ++ fut = rest := by
  rcases List.append_eq_append_iff.1 h with ⟨l, rfl, rfl⟩ | ⟨l, rfl, rfl⟩
  · cases l with
    | nil => exact .inr ⟨[], by simp⟩
    | cons b l => exact .inl ⟨List.prefix_append _ _, by simp⟩
  · exact .inr ⟨l, rfl, rfl⟩

variable {buf out : τ → Bytes} {expects : List Frame → τ → Prop}

/-- The loop over a buffer, the rest of the stream being `fut`: it takes off the frames `done`. -/
theorem Lockstep.loop_spec (h : Lockstep body buf out expects) (fuel : ℕ) {fs : List Frame} {t : τ}
    {fut : Bytes} (ht : expects fs t) (hw : buf t ++ fut = wire fs)
    (hfuel : (buf t).length < fuel) :
    ∃ done todo t', fs = done ++ todo ∧ loop body fuel t = .done t' ∧
      buf t' ++ fut = wire todo ∧ out t' = out t ++ carried done ∧ expects todo t' ∧
      (fut = [] → carried todo = []) := by
  induction fuel generalizing fs t with
  | zero => omega
  | succ fuel ih =>
    cases fs with
    | nil =>
      have hb : buf t = [] := (List.append_eq_nil_iff.1 hw).1
      obtain ⟨t', ht', hb', ho', hr'⟩ := h.empty ht hb
      exact ⟨[], [], t', rfl, loop_succ_of_done ht', by rw [hb', ← hb]; exact hw,
        by simp [ho'], hr', fun _ => rfl⟩
    | cons f fs =>
      rcases prefix_or_prefix (hw.trans (wire_cons f fs)) with ⟨hp, hne⟩ | ⟨rest, hb, hrest⟩
      · obtain ⟨t', ht', hb', ho', hr'⟩ := h.incomplete ht hp hne
        refine ⟨[], f :: fs, t', rfl, loop_succ_of_done ht', by rw [hb']; exact hw,
          by simp [ho'], hr', fun hfut => ?_⟩
        -- The whole stream is in the buffer, so the frame is complete.
        rw [hfut, List.append_nil, wire_cons] at hw
        have hle := hp.length_le
        rw [hw, List.length_append] at hle
        exact absurd (hp.eq_of_length (by rw [hw, List.length_append]; omega)) hne
      · rcases h.complete ht hb with ⟨t₁, ht₁, hb₁, ho₁, hr₁⟩ | ⟨hnil, hout, t', ht', hb', ho', hr'⟩
        · have hpos : 0 < f.bytes.length :=
            List.length_pos_iff.2 (h.bytes_ne_nil ht f List.mem_cons_self)
          have hlt : (buf t₁).length < fuel := by
            rw [hb, List.length_append] at hfuel
            rw [hb₁]
            omega
          obtain ⟨done, todo, t', rfl, hloop, hw', ho', hr', hfin⟩ :=
            ih hr₁ (by rw [hb₁]; exact hrest) hlt
          exact ⟨f :: done, todo, t', rfl, by rw [loop_succ_of_more ht₁, hloop], hw',
            by rw [ho', ho₁, carried_cons, List.append_assoc], hr', hfin⟩
        · refine ⟨[], f :: fs, t', rfl, loop_succ_of_done ht', by rw [hb']; exact hw,
            by simp [ho'], hr', fun hfut => ?_⟩
          -- No frame can follow: it would have bytes.
          rw [hnil, hfut, List.append_nil] at hrest
          cases fs with
          | nil => simp [hout]
          | cons g fs =>
            rw [wire_cons] at hrest
            have := h.bytes_ne_nil ht g (by simp)
            exact absurd (List.append_eq_nil_iff.1 hrest.symm).1 this

/-- A turn of the loop begins in the second state, when one begins in the first. -/
def Turns (body : τ → Next τ ε) : τ → τ → Prop :=
  Relation.ReflTransGen fun t t' => body t = .more t'

/-- No other turn begins when the first one ends the loop. -/
theorem Turns.eq_of_done {t t' t'' : τ} (h : Turns body t t'') (hdone : body t = .done t') :
    t'' = t := by
  rcases h.cases_head with rfl | ⟨t₁, hmore, -⟩
  · rfl
  · rw [hdone] at hmore
    cases hmore

theorem Lockstep.turns (h : Lockstep body buf out expects) {fs : List Frame} {t t' : τ} {fut : Bytes}
    (ht : expects fs t) (hw : buf t ++ fut = wire fs) (hturns : Turns body t t') :
    ∃ fs', expects fs' t' ∧ buf t' ++ fut = wire fs' := by
  induction hturns with
  | refl => exact ⟨fs, ht, hw⟩
  | @tail t₁ t₂ _ hmore ih =>
    obtain ⟨gs, ht₁, hw₁⟩ := ih
    cases gs with
    | nil =>
      obtain ⟨t₃, hdone, -⟩ := h.empty ht₁ (List.append_eq_nil_iff.1 hw₁).1
      rw [hdone] at hmore
      cases hmore
    | cons f gs =>
      rcases prefix_or_prefix (hw₁.trans (wire_cons f gs)) with ⟨hp, hne⟩ | ⟨rest, hb, hrest⟩
      · obtain ⟨t₃, hdone, -⟩ := h.incomplete ht₁ hp hne
        rw [hdone] at hmore
        cases hmore
      · rcases h.complete ht₁ hb with ⟨t₃, hmore', hb', -, ht'⟩ | ⟨-, -, t₃, hdone, -⟩
        · rw [hmore] at hmore'
          cases hmore'
          exact ⟨gs, ht', by rw [hb']; exact hrest⟩
        · rw [hdone] at hmore
          cases hmore

/-- The loop on some frames with more bytes after them: it takes off all of the frames. -/
theorem Lockstep.loop_drop (h : Lockstep body buf out expects) {fs : List Frame} {t : τ}
    {rest : Bytes} (ht : expects fs t) (hbuf : buf t = wire fs ++ rest) (hrest : rest ≠ []) :
    ∃ t', (∀ fuel, loop body (fs.length + fuel) t = loop body fuel t') ∧ buf t' = rest ∧
      out t' = out t ++ carried fs ∧ expects [] t' := by
  induction fs generalizing t with
  | nil => exact ⟨t, fun fuel => by rw [List.length_nil, Nat.zero_add], hbuf, by simp, ht⟩
  | cons f fs ih =>
    rw [wire_cons, List.append_assoc] at hbuf
    rcases h.complete ht hbuf with ⟨t₁, ht₁, hb₁, ho₁, hr₁⟩ | ⟨hnil, -⟩
    · obtain ⟨t', hloop, hb', ho', hr'⟩ := ih hr₁ hb₁
      refine ⟨t', fun fuel => ?_, hb', ?_, hr'⟩
      · rw [List.length_cons, Nat.add_right_comm, loop_succ_of_more ht₁]
        exact hloop fuel
      · rw [ho', ho₁, carried_cons, List.append_assoc]
    · exact absurd (List.append_eq_nil_iff.1 hnil).2 hrest

end ShadowsocksR

import ShadowsocksR.Lib.Framing

/-!
# Streams that come in chunks

An object that is called with one chunk after the other, and puts out some
bytes at every call.

* `feed`: all the calls, and all that is put out;
* `feed_spec`: an invariant of one call, which knows what the object is to be
  given and what it will put out, is one of all the calls;
* `feed_header`: so it is for an object that first waits for a header.
-/

namespace ShadowsocksR

variable {σ κ ε : Type}

/-- A computation in steps that returns a value. -/
theorem bind_eq_ok {ε α β : Type} {x : Except ε α} {f : α → Except ε β} {b : β} :
    x >>= f = .ok b ↔ ∃ a, x = .ok a ∧ f a = .ok b := by
  cases x with
  | error e => exact ⟨fun h => (by cases h), fun ⟨_, h, _⟩ => (by cases h)⟩
  | ok a => exact ⟨fun h => ⟨a, rfl, h⟩, fun ⟨_, h, h'⟩ => (by cases h; exact h')⟩

/-- An object is called with one chunk after the other: all that it has put out, unless a call
    fails. -/
def feed (call : σ → κ → Except ε (Bytes × σ)) (s : σ) : List κ → Except ε (Bytes × σ)
  | [] => .ok ([], s)
  | c :: cs =>
    match call s c with
    | .error e => .error e
    | .ok (out, s) =>
      match feed call s cs with
      | .error e => .error e
      | .ok (outs, s) => .ok (out ++ outs, s)

variable {call : σ → κ → Except ε (Bytes × σ)} {s s' s'' : σ} {c : κ} {cs cs' : List κ}
  {out outs : Bytes}

@[simp] theorem feed_nil : feed call s [] = .ok ([], s) := rfl

theorem feed_cons (h : call s c = .ok (out, s')) (hs : feed call s' cs = .ok (outs, s'')) :
    feed call s (c :: cs) = .ok (out ++ outs, s'') := by
  rw [feed, h]
  dsimp only
  rw [hs]

theorem feed_singleton (h : call s c = .ok (out, s')) : feed call s [c] = .ok (out, s') := by
  rw [feed_cons h feed_nil, List.append_nil]

theorem feed_cons_eq_ok {r : Bytes × σ} (h : feed call s (c :: cs) = .ok r) :
    ∃ out s' outs, call s c = .ok (out, s') ∧ feed call s' cs = .ok (outs, r.2) ∧
      r.1 = out ++ outs := by
  rw [feed] at h
  cases hc : call s c with
  | error e =>
    rw [hc] at h
    cases h
  | ok p =>
    rw [hc] at h
    dsimp only at h
    cases hcs : feed call p.2 cs with
    | error e =>
      rw [hcs] at h
      cases h
    | ok q =>
      rw [hcs] at h
      cases h
      exact ⟨p.1, p.2, q.1, rfl, hcs, rfl⟩

/-- The chunks are parts of something else. -/
theorem feed_map {κ' : Type} (g : κ' → κ) (cs : List κ') :
    feed call s (cs.map g) = feed (fun s c => call s (g c)) s cs := by
  induction cs generalizing s with
  | nil => rfl
  | cons c cs ih =>
    rw [List.map_cons, feed, feed]
    cases call s (g c) with
    | error e => rfl
    | ok p =>
      dsimp only
      rw [ih]

theorem feed_append (h : feed call s cs = .ok (out, s')) (h' : feed call s' cs' = .ok (outs, s'')) :
    feed call s (cs ++ cs') = .ok (out ++ outs, s'') := by
  induction cs generalizing s out with
  | nil =>
    cases h
    exact h'
  | cons c cs ih =>
    obtain ⟨out₁, s₁, outs₁, hc, hcs, rfl⟩ := feed_cons_eq_ok h
    rw [List.cons_append, feed_cons hc (ih hcs), List.append_assoc]

/-- When one object does what another one does, at every call, it does so at all of them. -/
theorem feed_simulates {R : σ → σ → Prop}
    (hcall : ∀ {s t c out s'}, R s t → call s c = .ok (out, s') →
      ∃ t', call t c = .ok (out, t') ∧ R s' t')
    {t : σ} (hR : R s t) (h : feed call s cs = .ok (out, s')) :
    ∃ t', feed call t cs = .ok (out, t') ∧ R s' t' := by
  induction cs generalizing s t out with
  | nil =>
    cases h
    exact ⟨t, rfl, hR⟩
  | cons c cs ih =>
    obtain ⟨out₁, s₁, outs₁, hc, hcs, rfl⟩ := feed_cons_eq_ok h
    obtain ⟨t₁, ht, hR₁⟩ := hcall hR hc
    obtain ⟨t', ht', hR'⟩ := ih hR₁ hcs
    exact ⟨t', feed_cons ht ht', hR'⟩

/-- What every call keeps, the calls keep. `I fut data s` says that the object `s` is to be given the
    bytes `fut`, and will put out `data`. -/
theorem feed_spec (call : σ → κ → Except ε (Bytes × σ)) (bytes : κ → Bytes)
    {I : Bytes → Bytes → σ → Prop}
    (hcall : ∀ {s c fut data}, I (bytes c ++ fut) data s →
      ∃ out data' s', call s c = .ok (out, s') ∧ data = out ++ data' ∧ I fut data' s')
    {data : Bytes} (h : I (cs.flatMap bytes) data s) :
    ∃ outs data' s', feed call s cs = .ok (outs, s') ∧ data = outs ++ data' ∧ I [] data' s' := by
  induction cs generalizing data s with
  | nil => exact ⟨[], data, s, rfl, rfl, h⟩
  | cons c cs ih =>
    obtain ⟨out, data₁, s₁, hc, rfl, hI⟩ := hcall h
    obtain ⟨outs, data₂, s₂, hcs, rfl, hI'⟩ := ih hI
    exact ⟨out ++ outs, data₂, s₂, feed_cons hc hcs, (List.append_assoc _ _ _).symm, hI'⟩

/-- The chunk with the last of the next `n` bytes is a good one. -/
def AtByte (bytes : κ → Bytes) (Good : κ → Prop) : ℕ → List κ → Prop
  | _, [] => True
  | n, c :: cs =>
    if (bytes c).length < n then AtByte bytes Good (n - (bytes c).length) cs else Good c

theorem atByte_of_forall {bytes : κ → Bytes} {Good : κ → Prop} (h : ∀ c ∈ cs, Good c) (n : ℕ) :
    AtByte bytes Good n cs := by
  induction cs generalizing n with
  | nil => trivial
  | cons c cs ih =>
    rw [List.forall_mem_cons] at h
    rw [AtByte]
    split_ifs
    · exact ih h.2 _
    · exact h.1

/-- An object that waits for a header, before the rest of the stream: `Waits p s` says that the
    object `s` has received the part `p` of the header. -/
theorem feed_header (bytes : κ → Bytes) {Good : κ → Prop} {Waits : Bytes → σ → Prop}
    {I : Bytes → Bytes → σ → Prop} {header tail data : Bytes}
    (hwait : ∀ {s c p}, Waits p s → p ++ bytes c <+: header → p ++ bytes c ≠ header →
      ∃ s', call s c = .ok ([], s') ∧ Waits (p ++ bytes c) s')
    (haccept : ∀ {s c p rest fut}, Waits p s → Good c → p ++ bytes c = header ++ rest →
      rest ++ fut = tail →
      ∃ out data' s', call s c = .ok (out, s') ∧ data = out ++ data' ∧ I fut data' s')
    (hcall : ∀ {s c fut data}, I (bytes c ++ fut) data s →
      ∃ out data' s', call s c = .ok (out, s') ∧ data = out ++ data' ∧ I fut data' s')
    {p : Bytes} (h : Waits p s) (hstream : p ++ cs.flatMap bytes = header ++ tail)
    (hlt : p.length < header.length) (hgood : AtByte bytes Good (header.length - p.length) cs) :
    ∃ outs data' s', feed call s cs = .ok (outs, s') ∧ data = outs ++ data' ∧ I [] data' s' := by
  induction cs generalizing p s with
  | nil =>
    have hlen := congrArg List.length hstream
    rw [List.flatMap_nil, List.append_nil, List.length_append] at hlen
    omega
  | cons c cs ih =>
    rw [List.flatMap_cons, ← List.append_assoc] at hstream
    rw [AtByte] at hgood
    rcases prefix_or_prefix hstream with ⟨hp, hne⟩ | ⟨rest, hp, hrest⟩
    · have hplt : (p ++ bytes c).length < header.length :=
        hp.length_le.lt_of_ne fun heq => hne (hp.eq_of_length heq)
      have hlen : header.length - p.length - (bytes c).length =
          header.length - (p ++ bytes c).length := by
        rw [List.length_append]
        omega
      rw [List.length_append] at hplt
      rw [if_pos (by omega), hlen] at hgood
      obtain ⟨s', hc, hwaits⟩ := hwait h hp hne
      obtain ⟨outs, data', s'', hcs, hdata, hI⟩ :=
        ih hwaits hstream (by rw [List.length_append]; exact hplt) hgood
      exact ⟨outs, data', s'', feed_cons hc hcs, hdata, hI⟩
    · have hle := congrArg List.length hp
      rw [List.length_append, List.length_append] at hle
      rw [if_neg (by omega)] at hgood
      obtain ⟨out, data₁, s', hc, rfl, hI⟩ := haccept h hgood hp hrest
      obtain ⟨outs, data', s'', hcs, rfl, hI'⟩ := feed_spec call bytes hcall hI
      exact ⟨out ++ outs, data', s'', feed_cons hc hcs, (List.append_assoc _ _ _).symm, hI'⟩

end ShadowsocksR

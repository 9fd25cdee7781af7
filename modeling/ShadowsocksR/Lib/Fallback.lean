import ShadowsocksR.Lib.Chunks

/-!
# Decoders that give up

A decoder collects its chunks until it can tell whether they begin with the right header. It gives
all of them back, when they do not, and lets everything pass from then on.

* `Conserves`: what the calls are to do, until the header is accepted;
* `DecidesWell`: the decoder does not fail where it stops waiting;
* `Decides`: what one call does, by what has been received with it;
* `Decides.conserves_iff`: the calls conserve the bytes exactly when the decoder decides well.
-/

namespace ShadowsocksR

variable {σ κ ε : Type}

/-- What a call comes to. -/
inductive Reply (ε σ : Type)
  | raised (e : ε)
  | accepted
  | returned (payload : Bytes) (decrypt gaveUp : Bool) (s : σ)

/-- Every call returns its chunk, to be decrypted. -/
def PassesThrough (call : σ → κ → Reply ε σ) (bytes : κ → Bytes) : σ → List κ → Prop
  | _, [] => True
  | s, c :: cs =>
    match call s c with
    | .returned payload decrypt _ s' =>
      (payload = bytes c ∧ decrypt = true) ∧ PassesThrough call bytes s' cs
    | _ => False

/-- Until the header is accepted, no call raises, and each one keeps all that has been received in
    the buffer, or gives it all back, before everything passes. -/
def Conserves (call : σ → κ → Reply ε σ) (bytes : κ → Bytes) (buffered : σ → Bytes) :
    Bytes → σ → List κ → Prop
  | _, _, [] => True
  | p, s, c :: cs =>
    match call s c with
    | .raised _ => False
    | .accepted => True
    | .returned payload _ false s' =>
      (payload = [] ∧ buffered s' = p ++ bytes c) ∧
        Conserves call bytes buffered (p ++ bytes c) s' cs
    | .returned payload decrypt true s' =>
      (payload = p ++ bytes c ∧ decrypt = true) ∧ PassesThrough call bytes s' cs

/-- What has been received is never bad, as long as the decoder waits, and when it stops waiting. -/
def DecidesWell (waits bad : Bytes → Prop) (bytes : κ → Bytes) : Bytes → List κ → Prop
  | _, [] => True
  | p, c :: cs =>
    ¬bad (p ++ bytes c) ∧
      (waits (p ++ bytes c) → DecidesWell waits bad bytes (p ++ bytes c) cs)

/-- What one call does: `Waiting p s` says that the decoder `s` waits, with the bytes `p`, and
    `GivenUp s` that it lets everything pass. -/
structure Decides (call : σ → κ → Reply ε σ) (bytes : κ → Bytes) (buffered : σ → Bytes)
    (waits bad : Bytes → Prop) (Waiting : Bytes → σ → Prop) (GivenUp : σ → Prop) : Prop where
  buffered_eq {p s} : Waiting p s → buffered s = p
  wait {p s c} : Waiting p s → waits (p ++ bytes c) → ¬bad (p ++ bytes c) ∧
    ∃ decrypt s', call s c = .returned [] decrypt false s' ∧ Waiting (p ++ bytes c) s'
  fail {p s c} : Waiting p s → bad (p ++ bytes c) →
    (∃ e, call s c = .raised e) ∨
      ∃ payload decrypt s', call s c = .returned payload decrypt true s' ∧ payload ≠ p ++ bytes c
  settle {p s c} : Waiting p s → ¬waits (p ++ bytes c) → ¬bad (p ++ bytes c) →
    call s c = .accepted ∨ ∃ s', call s c = .returned (p ++ bytes c) true true s' ∧ GivenUp s'
  pass {s c} : GivenUp s → ∃ gaveUp s', call s c = .returned (bytes c) true gaveUp s' ∧ GivenUp s'

variable {call : σ → κ → Reply ε σ} {bytes : κ → Bytes} {buffered : σ → Bytes}
  {waits bad : Bytes → Prop} {Waiting : Bytes → σ → Prop} {GivenUp : σ → Prop} {p : Bytes} {s : σ}

/-- A decoder that has given up lets everything pass. -/
theorem Decides.passesThrough (h : Decides call bytes buffered waits bad Waiting GivenUp)
    (hs : GivenUp s) (cs : List κ) : PassesThrough call bytes s cs := by
  induction cs generalizing s with
  | nil => trivial
  | cons c cs ih =>
    obtain ⟨gaveUp, s', hcall, hs'⟩ := h.pass (c := c) hs
    rw [PassesThrough, hcall]
    exact ⟨⟨rfl, rfl⟩, ih hs'⟩

theorem Decides.conserves_iff (h : Decides call bytes buffered waits bad Waiting GivenUp)
    (hs : Waiting p s) (cs : List κ) :
    Conserves call bytes buffered p s cs ↔ DecidesWell waits bad bytes p cs := by
  induction cs generalizing p s with
  | nil => exact Iff.rfl
  | cons c cs ih =>
    rw [Conserves, DecidesWell]
    by_cases hbad : bad (p ++ bytes c)
    · -- It raises, or returns something else.
      refine iff_of_false ?_ fun hwell => hwell.1 hbad
      rcases h.fail hs hbad with ⟨e, hcall⟩ | ⟨payload, decrypt, s', hcall, hpayload⟩
      · rw [hcall]
        exact id
      · rw [hcall]
        exact fun hconserves => hpayload hconserves.1.1
    by_cases hwaits : waits (p ++ bytes c)
    · obtain ⟨-, decrypt, s', hcall, hs'⟩ := h.wait hs hwaits
      rw [hcall]
      dsimp only
      rw [ih hs', h.buffered_eq hs', and_iff_right ⟨rfl, rfl⟩, and_iff_right hbad,
        forall_prop_of_true hwaits]
    · refine iff_of_true ?_ ⟨hbad, fun hwaits' => absurd hwaits' hwaits⟩
      rcases h.settle hs hwaits hbad with hcall | ⟨s', hcall, hs'⟩
      · rw [hcall]
        trivial
      · rw [hcall]
        exact ⟨⟨rfl, rfl⟩, h.passesThrough hs' cs⟩

end ShadowsocksR

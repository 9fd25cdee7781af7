import ShadowsocksR.Lib.Run
import Mathlib.Logic.Function.Basic

/-!
# Reading, modifying and writing a shared value

Processes share a value. An operation of a process reads it, and later writes what it has made of
what it read; in between, other processes may have written.

* `Program`: what the operations make of a value;
* `replay`: the value after operations that are each done in one step;
* `step`: an operation reads, or writes;
* `exec_current`: when every operation writes over the value that it has read, the shared value is
  the one after the completed operations.
-/

namespace ShadowsocksR

namespace ReadModifyWrite

/-- What an operation does with the value that it has read. -/
inductive Outcome (σ : Type)
  /-- It is given up. -/
  | fails
  /-- It is completed without writing. -/
  | keeps
  | writes (value : σ)

/-- Operations of processes. -/
structure Program (σ ι ω : Type) where
  owner : ω → ι
  run : ω → σ → Outcome σ

/-- The shared value, the operations that have read it and not written yet, each with what it has
    read, and the operations that were completed. -/
structure Shared (σ ι ω : Type) where
  value : σ
  pending : ι → Option (ω × σ)
  completed : List ω

inductive Event (ι ω : Type)
  | read (op : ω)
  | write (process : ι)

variable {σ ι ω : Type}

def Shared.start (value : σ) : Shared σ ι ω := ⟨value, fun _ => none, []⟩

namespace Program

variable (P : Program σ ι ω)

/-- An operation in one step. -/
def effect (value : σ) (op : ω) : σ :=
  match P.run op value with
  | .writes value' => value'
  | _ => value

/-- Operations one after the other, each in one step. -/
def replay (value : σ) (ops : List ω) : σ := ops.foldl P.effect value

@[simp] theorem replay_nil (value : σ) : P.replay value [] = value := rfl

theorem replay_append (value : σ) (ops ops' : List ω) :
    P.replay value (ops ++ ops') = P.replay (P.replay value ops) ops' := List.foldl_append

@[simp] theorem replay_singleton (value : σ) (op : ω) :
    P.replay value [op] = P.effect value op := rfl

theorem effect_of_keeps {value : σ} {op : ω} (h : P.run op value = .keeps) :
    P.effect value op = value := by
  rw [effect, h]

theorem effect_of_writes {value value' : σ} {op : ω} (h : P.run op value = .writes value') :
    P.effect value op = value' := by
  rw [effect, h]

def step [DecidableEq ι] (s : Shared σ ι ω) : Event ι ω → Option (Shared σ ι ω)
  | .read op =>
    match s.pending (P.owner op) with
    | none => some { s with pending := Function.update s.pending (P.owner op) (some (op, s.value)) }
    | some _ => none
  | .write process =>
    match s.pending process with
    | none => none
    | some (op, value) =>
      let s := { s with pending := Function.update s.pending process none }
      match P.run op value with
      | .fails => some s
      | .keeps => some { s with completed := s.completed ++ [op] }
      | .writes value' => some { s with value := value', completed := s.completed ++ [op] }

/-- An operation that is about to write has read what it writes over, and this is as it should be
    for the operation. -/
def Current (suits : ω → σ → Prop) (s : Shared σ ι ω) : Event ι ω → Prop
  | .read _ => True
  | .write process => ∀ op value, s.pending process = some (op, value) →
    value = s.value ∧ (P.run op value ≠ .fails → suits op value)

/-- The shared value is the one after the completed operations, each of which was done on a value
    that suits it. -/
structure Serial (suits : ω → σ → Prop) (start : σ) (s : Shared σ ι ω) : Prop where
  value_eq : s.value = P.replay start s.completed
  suits : ∀ before op after, s.completed = before ++ op :: after →
    P.run op (P.replay start before) ≠ .fails ∧ suits op (P.replay start before)

variable {P} {suits : ω → σ → Prop} {start : σ} {s s' : Shared σ ι ω} {e : Event ι ω}

/-- One more operation is completed. -/
theorem Serial.complete (hs : P.Serial suits start s) {op : ω} {value : σ}
    (hvalue : P.effect s.value op = value) (hrun : P.run op s.value ≠ .fails)
    (hop : suits op s.value) {pending : ι → Option (ω × σ)} :
    P.Serial suits start ⟨value, pending, s.completed ++ [op]⟩ := by
  refine ⟨?_, fun before op' after h => ?_⟩
  · rw [replay_append, ← hs.value_eq, replay_singleton, hvalue]
  · rcases List.eq_nil_or_concat' after with rfl | ⟨after', op'', rfl⟩
    · obtain ⟨hbefore, hop'⟩ := List.append_inj'
        (show s.completed ++ [op] = before ++ [op'] from h) rfl
      cases hop'
      rw [← hbefore, ← hs.value_eq]
      exact ⟨hrun, hop⟩
    · refine hs.suits before op' after' ?_
      rw [← List.cons_append, ← List.append_assoc] at h
      exact (List.append_inj' h rfl).1

variable [DecidableEq ι]

theorem Serial.step (hs : P.Serial suits start s) (hcurrent : P.Current suits s e)
    (h : P.step s e = some s') : P.Serial suits start s' := by
  cases e with
  | read op =>
    rw [Program.step] at h
    cases hpending : s.pending (P.owner op) with
    | some p =>
      rw [hpending] at h
      cases h
    | none =>
      rw [hpending] at h
      cases h
      exact ⟨hs.value_eq, hs.suits⟩
  | write process =>
    rw [Program.step] at h
    cases hpending : s.pending process with
    | none =>
      rw [hpending] at h
      cases h
    | some p =>
      obtain ⟨op, value⟩ := p
      obtain ⟨rfl, hsuits⟩ := hcurrent op value hpending
      rw [hpending] at h
      dsimp only at h
      cases hrun : P.run op s.value with
      | fails =>
        rw [hrun] at h
        cases h
        exact ⟨hs.value_eq, hs.suits⟩
      | keeps =>
        have hfails : P.run op s.value ≠ .fails := by simp [hrun]
        rw [hrun] at h
        cases h
        exact hs.complete (effect_of_keeps P hrun) hfails (hsuits hfails)
      | writes value' =>
        have hfails : P.run op s.value ≠ .fails := by simp [hrun]
        rw [hrun] at h
        cases h
        exact hs.complete (effect_of_writes P hrun) hfails (hsuits hfails)

/-- In a run in which operations write over what they have read, no operation is lost. -/
theorem exec_current {events : List (Event ι ω)}
    (hcurrent : Run.Throughout P.step (P.Current suits) (.start start) events)
    (h : Run.exec P.step (.start start) events = some s) : P.Serial suits start s :=
  Run.exec_invariant (P := P.Serial suits start) (fun hs hcurrent h => hs.step hcurrent h)
    ⟨rfl, fun before op after h => by simp [Shared.start] at h⟩ hcurrent h

end Program

end ReadModifyWrite

end ShadowsocksR

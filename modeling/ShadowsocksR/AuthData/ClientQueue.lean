import ShadowsocksR.LruCache
import Mathlib.Data.Finset.Card
import Mathlib.Data.Int.Order.Basic

/-!
# The connection ids of one client

`client_queue`: which connection ids of a client have been used, as a sliding
window. Every id below `front` counts as used, `alloc` holds the used ids from
`front` on, and `front` moves up past used ids, or when it falls more than
`0x1000` behind `back`. An inactive queue forgets all of it: the next `insert`
re-enables it around the new id.

The class has two versions: that of `auth_chain.py` and `auth_akarin.py` counts
the open connections of the client (`refCounted`), that of `auth.py` only looks
at the clock (`timed`).

* `insert_of_seen`: while the queue is active, a used id is refused;
* `seen_insert`: while the queue is active, a used id stays used, and an
  accepted id becomes used;
* `insert_of_not_isActive`: an inactive queue accepts any id.
-/

namespace ShadowsocksR

/-- The two versions of `client_queue`. -/
inductive QueueKind
  | refCounted
  | timed
  deriving DecidableEq, Repr

/-- `client_queue` -/
structure ClientQueue where
  front : ℤ
  back : ℤ
  /-- The keys of the dictionary `alloc`. -/
  alloc : Finset ℤ := ∅
  enable : Bool := true
  lastUpdate : Time
  ref : ℕ := 0
  deriving DecidableEq

namespace ClientQueue

/-- `client_queue(begin_id)`, at the time `now`. -/
def new (now : Time) (beginId : ℤ) : ClientQueue where
  front := beginId - 64
  back := beginId + 1
  lastUpdate := now

def update (q : ClientQueue) (now : Time) : ClientQueue := { q with lastUpdate := now }

def addref (q : ClientQueue) : ClientQueue := { q with ref := q.ref + 1 }

def delref (q : ClientQueue) : ClientQueue := if q.ref > 0 then { q with ref := q.ref - 1 } else q

/-- `is_active`, of either version. -/
def isActive (kind : QueueKind) (q : ClientQueue) (now : Time) : Bool :=
  match kind with
  | .refCounted => decide (q.ref > 0) && decide (now - q.lastUpdate < 60 * 10)
  | .timed => decide (now - q.lastUpdate < 60 * 3)

def reEnable (q : ClientQueue) (connectionId : ℤ) : ClientQueue :=
  { q with enable := true, front := connectionId - 64, back := connectionId + 1, alloc := ∅ }

/-- The condition of the loop moving `front`. -/
def Behind (q : ClientQueue) : Prop := q.front ∈ q.alloc ∨ q.front + 0x1000 < q.back

instance (q : ClientQueue) : Decidable q.Behind := inferInstanceAs (Decidable (_ ∨ _))

/-- The body of the loop moving `front`. -/
def advanceStep (q : ClientQueue) : ClientQueue :=
  { q with alloc := q.alloc.erase q.front, front := q.front + 1 }

/-- The loop moving `front`, for at most `fuel` steps. -/
def advanceLoop : ℕ → ClientQueue → ClientQueue
  | 0, q => q
  | fuel + 1, q => if q.Behind then advanceLoop fuel q.advanceStep else q

/-- How often the loop moving `front` runs at most: each step leaves one used id behind, or
    comes closer to `back`. -/
def lag (q : ClientQueue) : ℕ := (q.back - 0x1000 - q.front).toNat + q.alloc.card

/-- The loop moving `front`. -/
def advance (q : ClientQueue) : ClientQueue := advanceLoop q.lag q

/-- What an accepted `insert` does to the window, before the reference is counted. -/
def record (q : ClientQueue) (connectionId : ℤ) : ClientQueue :=
  advance
    { q with
      back := if q.back ≤ connectionId then connectionId + 1 else q.back
      alloc := insert connectionId q.alloc }

/-- `insert`: whether the id is accepted, and the queue after. -/
def insert (kind : QueueKind) (now : Time) (q : ClientQueue) (connectionId : ℤ) :
    Bool × ClientQueue :=
  if !q.enable then (false, q)
  else
    let q := if !q.isActive kind now then q.reEnable connectionId else q
    let q := q.update now
    if connectionId < q.front then (false, q)
    else if connectionId > q.front + 0x4000 then (false, q)
    else if connectionId ∈ q.alloc then (false, q)
    else
      let q := q.record connectionId
      (true, match kind with
        | .refCounted => q.addref
        | .timed => q)

/-! ## Moving the front -/

variable {q : ClientQueue}

theorem lag_advanceStep (h : q.Behind) : q.advanceStep.lag < q.lag := by
  simp only [lag, advanceStep]
  rcases h with h | h
  · have := Finset.card_erase_lt_of_mem h
    omega
  · have := Finset.card_erase_le (s := q.alloc) (a := q.front)
    omega

/-- The loop ends: with enough fuel, its condition is false after it. -/
theorem not_behind_advanceLoop : ∀ (fuel : ℕ) (q : ClientQueue), q.lag ≤ fuel →
    ¬(advanceLoop fuel q).Behind
  | 0, q, hl => fun hb => by
    have : q.advanceStep.lag < q.lag := lag_advanceStep hb
    omega
  | fuel + 1, q, hl => by
    rw [advanceLoop]
    split
    · next hb => exact not_behind_advanceLoop fuel _ (by have := lag_advanceStep hb; omega)
    · next hb => exact hb

theorem not_behind_advance (q : ClientQueue) : ¬q.advance.Behind :=
  not_behind_advanceLoop q.lag q le_rfl

/-- A used id: below the window, or recorded in it. -/
def Seen (q : ClientQueue) (id : ℤ) : Prop := id < q.front ∨ id ∈ q.alloc

/-- Moving the front changes no used id into an unused one. -/
theorem seen_advanceStep {id : ℤ} (h : q.Seen id) : q.advanceStep.Seen id := by
  simp only [Seen, advanceStep, Finset.mem_erase] at h ⊢
  by_cases hid : id = q.front
  · exact .inl (by omega)
  · rcases h with h | h
    · exact .inl (by omega)
    · exact .inr ⟨hid, h⟩

theorem seen_advanceLoop {id : ℤ} : ∀ (fuel : ℕ) {q : ClientQueue}, q.Seen id →
    (advanceLoop fuel q).Seen id
  | 0, _, h => h
  | fuel + 1, q, h => by
    rw [advanceLoop]
    split
    · exact seen_advanceLoop fuel (seen_advanceStep h)
    · exact h

/-- The loop moving `front` only moves the front and forgets ids below it. -/
theorem advanceLoop_eq (fuel : ℕ) (q : ClientQueue) :
    ∃ front alloc, advanceLoop fuel q = { q with front := front, alloc := alloc } := by
  induction fuel generalizing q with
  | zero => exact ⟨_, _, rfl⟩
  | succ fuel ih =>
    rw [advanceLoop]
    split
    · obtain ⟨front, alloc, h⟩ := ih q.advanceStep
      exact ⟨front, alloc, h⟩
    · exact ⟨_, _, rfl⟩

/-- Recording an id changes neither the clock, nor the references. -/
theorem record_eq (q : ClientQueue) (id : ℤ) :
    ∃ front back alloc, q.record id = { q with front := front, back := back, alloc := alloc } := by
  obtain ⟨front, alloc, h⟩ := advanceLoop_eq (lag _)
    { q with
      back := if q.back ≤ id then id + 1 else q.back
      alloc := Insert.insert id q.alloc }
  exact ⟨front, _, alloc, h⟩

/-- The recorded id is used, and so is what was. -/
theorem seen_record {id id' : ℤ} (h : q.Seen id' ∨ id' = id) : (q.record id).Seen id' := by
  refine seen_advanceLoop _ ?_
  simp only [Seen, Finset.mem_insert] at h ⊢
  tauto

/-! ## Inserting -/

variable {kind : QueueKind} {now : Time}

@[simp] theorem enable_record (q : ClientQueue) (id : ℤ) : (q.record id).enable = q.enable := by
  obtain ⟨_, _, _, h⟩ := q.record_eq id
  rw [h]

@[simp] theorem lastUpdate_record (q : ClientQueue) (id : ℤ) :
    (q.record id).lastUpdate = q.lastUpdate := by
  obtain ⟨_, _, _, h⟩ := q.record_eq id
  rw [h]

@[simp] theorem enable_delref (q : ClientQueue) : q.delref.enable = q.enable := by
  rw [delref]; split <;> rfl

/-- Inserting keeps a queue enabled. -/
theorem enable_insert (kind : QueueKind) (now : Time) (id : ℤ) (h : q.enable = true) :
    (q.insert kind now id).2.enable = true := by
  simp only [insert, h, Bool.not_true, Bool.false_eq_true, if_false]
  split_ifs <;> cases kind <;> simp [update, reEnable, addref, h]

/-- While a queue is active, a used id is refused. -/
theorem insert_of_seen {id : ℤ} (ha : q.isActive kind now = true) (hs : q.Seen id) :
    (q.insert kind now id).1 = false := by
  simp only [insert, ha, Bool.not_true, Bool.false_eq_true, if_false, update]
  rcases hs with hs | hs <;> split_ifs <;> simp_all

/-- While a queue is active, a used id stays used, and an accepted id becomes used. -/
theorem seen_insert {id id' : ℤ} (ha : q.isActive kind now = true)
    (hs : q.Seen id' ∨ (id' = id ∧ (q.insert kind now id).1 = true)) :
    (q.insert kind now id).2.Seen id' := by
  simp only [insert, ha, Bool.not_true, Bool.false_eq_true, if_false] at hs ⊢
  have hu : (q.update now).Seen id' ↔ q.Seen id' := Iff.rfl
  split_ifs at hs ⊢ <;> simp only [and_false, or_false, and_true] at hs
  · exact hs
  · exact hs
  · exact hs
  · exact hs
  · cases kind <;> exact seen_record (q := q.update now) (hs.imp_left hu.2)

theorem seen_delref (q : ClientQueue) {id : ℤ} : q.delref.Seen id ↔ q.Seen id := by
  rw [delref]; split <;> rfl

/-- An accepted id is used from then on. -/
theorem seen_of_insert {id : ℤ} (h : (q.insert kind now id).1 = true) :
    (q.insert kind now id).2.Seen id := by
  simp only [insert] at h ⊢
  split_ifs at h ⊢ <;> cases kind <;> exact seen_record (.inr rfl)

/-- An inactive queue is re-enabled around the inserted id, and accepts it. -/
theorem insert_of_not_isActive (kind : QueueKind) (now : Time) (id : ℤ) (he : q.enable = true)
    (ha : q.isActive kind now = false) :
    (q.insert kind now id).1 = true ∧ (q.insert kind now id).2.Seen id := by
  have h1 : ¬id < id - 64 := by omega
  have h2 : ¬id > id - 64 + 16384 := by omega
  simp only [insert, he, ha, Bool.not_true, Bool.not_false, Bool.false_eq_true, if_false, if_true,
    update, reEnable, h1, h2, Finset.notMem_empty, true_and]
  cases kind <;> exact seen_record (.inr rfl)

/-- A new queue accepts the id that it is made for. -/
theorem insert_new (kind : QueueKind) (now : Time) (id : ℤ) :
    ((new now id).insert kind now id).1 = true := by
  have h1 : ¬id < id - 64 := by omega
  have h2 : ¬id > id - 64 + 16384 := by omega
  rw [insert]
  cases (new now id).isActive kind now <;> simp [new, reEnable, update, h1, h2]

end ClientQueue

end ShadowsocksR

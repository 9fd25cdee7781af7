import ShadowsocksR.AuthData.Data
import ShadowsocksR.Server

/-!
# Counting the connections of a client

The queue of a client counts the connections of the client: `insert` raises the
field `ref`, and the `dispose` of a protocol object lowers it. But every object
is disposed of, also one whose handshake was not accepted, and the queue of a
client that is made again after an eviction does not know the connections from
before.

* `ref?_insert`, `ref?_remove`: the fields `ref` after the calls;
* `RefCounted`, `Port`: protocol objects that share a data object;
* `exact_step_iff`: when a step keeps the fields equal to the numbers of
  connections;
* `exact_iff`: when a run does.
-/

namespace ShadowsocksR

namespace ClientQueue

theorem ref_record (q : ClientQueue) (id : ℤ) : (q.record id).ref = q.ref := by
  obtain ⟨_, _, _, h⟩ := q.record_eq id
  rw [h]

/-- An accepted id adds a reference, a refused one does not. -/
theorem ref_insert {now : Time} (q : ClientQueue) (id : ℤ) :
    (q.insert .refCounted now id).2.ref =
      if (q.insert .refCounted now id).1 then q.ref + 1 else q.ref := by
  have hwindow : ∀ q' : ClientQueue, ∀ r : Bool × ClientQueue,
      r = (if id < q'.front then (false, q') else if id > q'.front + 0x4000 then (false, q')
        else if id ∈ q'.alloc then (false, q') else (true, (q'.record id).addref)) →
      r.2.ref = if r.1 then q'.ref + 1 else q'.ref := by
    rintro q' r rfl
    by_cases h₁ : id < q'.front
    · rw [if_pos h₁]; rfl
    rw [if_neg h₁]
    by_cases h₂ : id > q'.front + 0x4000
    · rw [if_pos h₂]; rfl
    rw [if_neg h₂]
    by_cases h₃ : id ∈ q'.alloc
    · rw [if_pos h₃]; rfl
    · rw [if_neg h₃, addref, ref_record, if_pos rfl]
  cases he : q.enable with
  | false => rw [insert, he]; rfl
  | true =>
    have href : ((if !q.isActive .refCounted now then q.reEnable id else q).update now).ref =
        q.ref := by
      split <;> rfl
    have h := hwindow _ (q.insert .refCounted now id) (by rw [insert, he]; rfl)
    rwa [href] at h

theorem ref_new_insert (now : Time) (id : ℤ) :
    ((ClientQueue.new now id).insert .refCounted now id).1 = true ∧
      ((ClientQueue.new now id).insert .refCounted now id).2.ref = 1 := by
  obtain ⟨haccepted, -⟩ := insert_of_not_isActive .refCounted now
    (q := ClientQueue.new now id) id rfl rfl
  refine ⟨haccepted, ?_⟩
  rw [ref_insert, if_pos haccepted]
  rfl

theorem ref_delref (q : ClientQueue) : q.delref.ref = q.ref - 1 := by
  rw [delref]
  split
  · rfl
  · omega

end ClientQueue

namespace AuthData

variable {d d' : ObfsAuthChainData} {now : Time} {userId : Option Bytes} {clientId : ℕ}
  {connectionId : ℤ}

/-- The field `ref` of the queue of a client, if the client has one. -/
def ref? (d : ObfsAuthChainData) (userId : Option Bytes) (clientId : ℕ) : Option ℕ :=
  (d.queue? userId clientId).map ClientQueue.ref

/-- Two data objects with the same fields `ref`. -/
def SameRefs (d d' : ObfsAuthChainData) : Prop := ∀ u c, d'.ref? u c = d.ref? u c

theorem SameRefs.refl (d : ObfsAuthChainData) : SameRefs d d := fun _ _ => rfl

theorem sameRefs_update (h : d.update now userId clientId = some d') : SameRefs d d' := by
  obtain ⟨t, ht, hu⟩ := d.update_isSome now userId clientId
  cases h.symm.trans hu
  intro u c
  rw [ref?, ref?, queue?_set]
  split
  · next hu =>
    rw [ClientTable.value?_modify ht]
    split
    · next hc =>
      rw [hc, hu, queue?]
      cases (d.table userId).value? clientId <;> rfl
    · rw [hu, queue?]
  · rfl

theorem update_valid (hd : d.Valid) (h : d.update now userId clientId = some d') : d'.Valid := by
  obtain ⟨t, ht, hu⟩ := d.update_isSome now userId clientId
  cases h.symm.trans hu
  exact hd.set ((hd _).modify (f := (·.update now)) (fun _ => rfl) ht)

/-- All an `insert` can do. -/
theorem insert_inserted (hd : d.Valid) {accepted : Bool}
    (h : d.insert now userId clientId connectionId = some (accepted, d')) :
    ∃ t, d' = { d with userId := d.userId.set userId t } ∧
      ClientTable.Inserted .refCounted now d.maxClient (d.table userId) clientId connectionId
        accepted t := by
  obtain ⟨a, t, ht, hi⟩ := ClientTable.insert_cases .refCounted now d.maxClient clientId
    connectionId
      (hd userId).enable
  rw [AuthData.insert, ht] at h
  cases h
  exact ⟨t, rfl, hi⟩

theorem insert_valid (hd : d.Valid) {accepted : Bool}
    (h : d.insert now userId clientId connectionId = some (accepted, d')) : d'.Valid := by
  obtain ⟨t, rfl, hi⟩ := insert_inserted hd h
  exact hd.set (hi.valid (hd _))

/-- A handshake that is refused changes no field `ref`. -/
theorem sameRefs_insert (hd : d.Valid)
    (h : d.insert now userId clientId connectionId = some (false, d')) : SameRefs d d' := by
  obtain ⟨t, rfl, hi⟩ := insert_inserted hd h
  intro u c
  rw [ref?, ref?, queue?_set]
  by_cases hu : u = userId
  · rw [if_pos hu, hu, queue?]
    generalize ha : false = accepted at hi
    cases hi with
    | @known q _ hv hs =>
      by_cases hc : c = clientId
      · rw [hc, hs.self, hv, Option.map_some, Option.map_some, ClientQueue.ref_insert, ← ha]
        rfl
      · rw [hs.other c hc]
    | room => exact absurd (ClientQueue.ref_new_insert now connectionId).1 (by rw [← ha]; decide)
    | evict => exact absurd (ClientQueue.ref_new_insert now connectionId).1 (by rw [← ha]; decide)
    | full _ _ _ _ _ hval _ => rw [hval]
  · rw [if_neg hu]

/-- One that is accepted counts the connection. -/
theorem ref?_insert (hd : d.Valid)
    (h : d.insert now userId clientId connectionId = some (true, d')) :
    d'.ref? userId clientId = some ((d.ref? userId clientId).getD 0 + 1) ∧
      ∀ u c, ¬(u = userId ∧ c = clientId) → ∀ n, d'.ref? u c = some n → d.ref? u c = some n := by
  obtain ⟨t, rfl, hi⟩ := insert_inserted hd h
  refine ⟨?_, fun u c hne n hn => ?_⟩
  · rw [ref?, ref?, queue?_set, if_pos rfl, queue?]
    have hnew := (ClientQueue.ref_new_insert now connectionId).2
    generalize ha : true = accepted at hi
    cases hi with
    | @known q _ hv hs =>
      rw [hs.self, hv, Option.map_some, Option.map_some, ClientQueue.ref_insert, ← ha]
      rfl
    | room hc _ hs =>
      rw [hs.self, LRUCache.contains_eq_false.1 hc, Option.map_some, hnew]
      rfl
    | evict hc _ _ _ _ _ _ hs =>
      rw [hs.self, LRUCache.contains_eq_false.1 hc, Option.map_some, hnew]
      rfl
    | full => cases ha
  · rw [ref?, queue?_set] at hn
    split at hn
    · next hu =>
      obtain ⟨q, hq, rfl⟩ := Option.map_eq_some_iff.1 hn
      rw [ref?, queue?, hu, hi.value?_other (fun hc => hne ⟨hu, hc⟩) hq]
      rfl
    · exact hn

theorem remove_isSome (d : ObfsAuthChainData) (now : Time) (userId : Option Bytes)
    (clientId : ℕ) : ∃ d', d.remove now userId clientId = some d' := by
  rw [remove]
  split
  · rcases ClientTable.modify_cases now ClientQueue.delref (d.table userId) clientId with
      ⟨_, h⟩ | ⟨_, h⟩
    · exact ⟨_, by rw [ClientTable.remove, h]; rfl⟩
    · exact ⟨_, by rw [ClientTable.remove, h]; rfl⟩
  · exact ⟨d, rfl⟩

/-- Removing a connection lowers the field `ref` of the client, if it has a queue. -/
theorem ref?_remove (h : d.remove now userId clientId = some d') (u : Option Bytes) (c : ℕ) :
    d'.ref? u c = if u = userId ∧ c = clientId then (d.ref? userId clientId).map (· - 1)
      else d.ref? u c := by
  rw [remove] at h
  cases hu : d.userId.contains userId with
  | false =>
    rw [hu] at h
    cases h
    have hnone : d.ref? userId clientId = none := by
      rw [ref?, queue?, table, Dict.contains_eq_false.1 hu]
      rfl
    split
    · next hk => rw [hk.1, hk.2, hnone]; rfl
    · rfl
  | true =>
    rw [hu, if_pos rfl] at h
    obtain ⟨t, ht, h⟩ := Option.bind_eq_some_iff.1 h
    cases h
    rw [ref?, queue?_set]
    by_cases hk : u = userId
    · rw [if_pos hk, ClientTable.value?_modify ht]
      by_cases hc : c = clientId
      · rw [if_pos hc, if_pos ⟨hk, hc⟩, ref?, queue?]
        cases (d.table userId).value? clientId with
        | none => rfl
        | some q => simp [ClientQueue.ref_delref]
      · rw [if_neg hc, if_neg fun h => hc h.2, ref?, queue?, hk]
    · rw [if_neg hk, if_neg fun h => hk h.1, ref?]

theorem remove_valid (hd : d.Valid) (h : d.remove now userId clientId = some d') : d'.Valid := by
  rw [remove] at h
  split at h
  · obtain ⟨t, ht, h⟩ := Option.bind_eq_some_iff.1 h
    cases h
    exact hd.set ((hd _).modify ClientQueue.enable_delref ht)
  · cases h
    exact hd

end AuthData

/-! ## Connections -/

/-- Protocol objects on the server's side, which are made from some `ν`. -/
structure RefCounted (σ ν : Type) where
  new : ν → σ
  /-- The object and the shared data after a call of `server_post_decrypt`. -/
  recv : σ → RecvCall ObfsAuthChainData → σ × ObfsAuthChainData
  hasRecvHeader : σ → Bool
  userId : σ → Option Bytes
  clientId : σ → ℕ
  hasRecvHeader_new : ∀ a, hasRecvHeader (new a) = false
  /-- After the handshake, the ids do not change, nor do the fields `ref`. -/
  recv_of_hasRecvHeader : ∀ s c, hasRecvHeader s = true → c.data.Valid →
    (hasRecvHeader (recv s c).1 = true ∧ userId (recv s c).1 = userId s ∧
      clientId (recv s c).1 = clientId s) ∧
    (recv s c).2.Valid ∧ AuthData.SameRefs c.data (recv s c).2
  /-- Before it, a call that accepts the handshake inserts the ids in the data. -/
  recv_of_not_hasRecvHeader : ∀ s c, hasRecvHeader s = false → c.data.Valid →
    (recv s c).2.Valid ∧
      (hasRecvHeader (recv s c).1 = false ∧ AuthData.SameRefs c.data (recv s c).2 ∨
        hasRecvHeader (recv s c).1 = true ∧ ∃ connectionId d,
          c.data.insert c.now (userId (recv s c).1) (clientId (recv s c).1) connectionId =
            some (true, d) ∧ AuthData.SameRefs d (recv s c).2)

namespace RefCounted

variable {σ ν : Type} (R : RefCounted σ ν)

/-- The objects that have not been disposed of, and their data. -/
structure Port (σ : Type) where
  conns : List σ := []
  data : ObfsAuthChainData

/-- What happens to the objects. -/
inductive Event (ν : Type)
  | connect (a : ν)
  | recv (i : ℕ) (now : Time) (users : Dict Bytes Bytes) (buf : Bytes)
  | dispose (i : ℕ) (now : Time)

/-- The call that brings a chunk. -/
def call (p : Port σ) (now : Time) (users : Dict Bytes Bytes) (buf : Bytes) :
    RecvCall ObfsAuthChainData where
  now := now
  users := users
  data := p.data
  buf := buf

/-- One event. -/
def step (p : Port σ) : Event ν → Option (Port σ)
  | .connect a => some { p with conns := p.conns ++ [R.new a] }
  | .recv i now users buf => do
    let s ← p.conns[i]?
    let (s, data) := R.recv s (call p now users buf)
    some { conns := p.conns.set i s, data }
  | .dispose i now => do
    let s ← p.conns[i]?
    let data ← p.data.remove now (R.userId s) (R.clientId s)
    some { conns := p.conns.eraseIdx i, data }

/-- The handshake of the object was accepted for these ids. -/
def IsFor (u : Option Bytes) (c : ℕ) (s : σ) : Prop :=
  R.hasRecvHeader s = true ∧ R.userId s = u ∧ R.clientId s = c

instance (u : Option Bytes) (c : ℕ) (s : σ) : Decidable (R.IsFor u c s) :=
  inferInstanceAs (Decidable (_ ∧ _))

/-- How many connections a client has. -/
def count (p : Port σ) (u : Option Bytes) (c : ℕ) : ℕ := p.conns.countP fun s => R.IsFor u c s

/-- The field `ref` of every queue is the number of connections of the client. -/
def Exact (p : Port σ) : Prop := ∀ u c n, p.data.ref? u c = some n → n = R.count p u c

/-- The condition on an event: a handshake that is accepted for a client without a queue is the
    only connection of the client, and an object without a handshake that is disposed of has the
    ids of no connection, or of none with a queue. -/
def Cond (p : Port σ) : Event ν → Prop
  | .connect _ => True
  | .recv i now users buf => ∀ s, p.conns[i]? = some s → R.hasRecvHeader s = false →
    ∀ s', s' = (R.recv s (call p now users buf)).1 → R.hasRecvHeader s' = true →
      p.data.ref? (R.userId s') (R.clientId s') = none →
        R.count p (R.userId s') (R.clientId s') = 0
  | .dispose i _ => ∀ s, p.conns[i]? = some s → R.hasRecvHeader s = false →
    p.data.ref? (R.userId s) (R.clientId s) = none ∨ R.count p (R.userId s) (R.clientId s) = 0

/-! ## Numbers of connections -/

variable {R} {p : Port σ} {i : ℕ} {s s' : σ} {u : Option Bytes} {c : ℕ}

theorem perm_of_getElem? {l : List σ} (h : l[i]? = some s) : l.Perm (s :: l.eraseIdx i) := by
  obtain ⟨hi, rfl⟩ := List.getElem?_eq_some_iff.1 h
  exact (List.getElem_cons_eraseIdx_perm hi).symm

theorem count_eq (h : p.conns[i]? = some s) : R.count p u c =
    (p.conns.eraseIdx i).countP (fun s => R.IsFor u c s) + if R.IsFor u c s then 1 else 0 := by
  rw [count, (perm_of_getElem? h).countP_eq, List.countP_cons]
  simp

theorem count_set (h : p.conns[i]? = some s) (s' : σ) (data : ObfsAuthChainData) :
    R.count { conns := p.conns.set i s', data } u c =
      (p.conns.eraseIdx i).countP (fun s => R.IsFor u c s) + if R.IsFor u c s' then 1 else 0 := by
  obtain ⟨hi, -⟩ := List.getElem?_eq_some_iff.1 h
  rw [count, (List.set_perm_cons_eraseIdx hi s').countP_eq, List.countP_cons]
  simp

theorem isFor_iff (h : R.hasRecvHeader s = true) :
    R.IsFor u c s ↔ u = R.userId s ∧ c = R.clientId s := by
  rw [IsFor, and_iff_right h, eq_comm, eq_comm (a := R.clientId s)]

theorem not_isFor (h : R.hasRecvHeader s = false) : ¬R.IsFor u c s := fun hf => by
  rw [IsFor, h] at hf
  exact absurd hf.1 (by decide)

/-- A call that leaves the numbers of connections and the fields `ref` as they are. -/
theorem Exact.of_same (hexact : R.Exact p) {p' : Port σ}
    (hrefs : AuthData.SameRefs p.data p'.data) (hcount : ∀ u c, R.count p' u c = R.count p u c) :
    R.Exact p' := fun u c n hn => by
  rw [hcount]
  exact hexact u c n (hrefs u c ▸ hn)

/-- A handshake is accepted. -/
theorem exact_accept (hvalid : p.data.Valid) (hexact : R.Exact p) (h : p.conns[i]? = some s)
    (hs : R.hasRecvHeader s = false) (hs' : R.hasRecvHeader s' = true) {now : Time}
    {connectionId : ℤ} {d data : ObfsAuthChainData}
    (hins : p.data.insert now (R.userId s') (R.clientId s') connectionId = some (true, d))
    (hrefs : AuthData.SameRefs d data) :
    R.Exact { conns := p.conns.set i s', data } ↔
      (p.data.ref? (R.userId s') (R.clientId s') = none →
        R.count p (R.userId s') (R.clientId s') = 0) := by
  obtain ⟨hself, hother⟩ := AuthData.ref?_insert hvalid hins
  have hcount : ∀ u c, R.count { conns := p.conns.set i s', data } u c =
      R.count p u c + if u = R.userId s' ∧ c = R.clientId s' then 1 else 0 := fun u c => by
    rw [count_set h, count_eq h, if_neg (not_isFor hs)]
    simp only [isFor_iff hs', add_zero]
  constructor
  · intro hex hnone
    have hn := hex _ _ _ ((hrefs _ _).trans hself)
    rw [hcount, if_pos ⟨rfl, rfl⟩, hnone] at hn
    have hzero : 0 + 1 = R.count p (R.userId s') (R.clientId s') + 1 := hn
    omega
  · intro hcond u c n hn
    rw [hcount]
    by_cases hk : u = R.userId s' ∧ c = R.clientId s'
    · obtain ⟨rfl, rfl⟩ := hk
      rw [if_pos ⟨rfl, rfl⟩]
      rw [hrefs, hself, Option.some_inj] at hn
      rw [← hn]
      cases hr : p.data.ref? (R.userId s') (R.clientId s') with
      | none => rw [hcond hr]; rfl
      | some m => rw [← hexact _ _ _ hr]; rfl
    · rw [if_neg hk]
      exact hexact u c n (hother u c hk n (hrefs u c ▸ hn))

/-- An object is disposed of. -/
theorem exact_dispose (hexact : R.Exact p) (h : p.conns[i]? = some s) {now : Time}
    {data : ObfsAuthChainData}
    (hrem : p.data.remove now (R.userId s) (R.clientId s) = some data) :
    R.Exact { conns := p.conns.eraseIdx i, data } ↔
      (R.hasRecvHeader s = false → p.data.ref? (R.userId s) (R.clientId s) = none ∨
        R.count p (R.userId s) (R.clientId s) = 0) := by
  have href := AuthData.ref?_remove hrem
  have hcount : ∀ u c, R.count p u c =
      R.count { conns := p.conns.eraseIdx i, data } u c + if R.IsFor u c s then 1 else 0 :=
    fun u c => count_eq h
  have hother : ∀ u c n, ¬(u = R.userId s ∧ c = R.clientId s) → data.ref? u c = some n →
      n = R.count { conns := p.conns.eraseIdx i, data } u c := fun u c n hk hn => by
    rw [href, if_neg hk] at hn
    have hnot : ¬R.IsFor u c s := fun hf => hk ⟨hf.2.1.symm, hf.2.2.symm⟩
    have hc := hcount u c
    rw [if_neg hnot, add_zero] at hc
    rw [← hc]
    exact hexact u c n hn
  have hself : ∀ n, data.ref? (R.userId s) (R.clientId s) = some n ↔
      ∃ m, p.data.ref? (R.userId s) (R.clientId s) = some m ∧ m - 1 = n := fun n => by
    rw [href, if_pos ⟨rfl, rfl⟩, Option.map_eq_some_iff]
  have hc := hcount (R.userId s) (R.clientId s)
  cases hs : R.hasRecvHeader s with
  | true =>
    refine iff_of_true (fun u c n hn => ?_) fun h => nomatch h
    by_cases hk : u = R.userId s ∧ c = R.clientId s
    · obtain ⟨rfl, rfl⟩ := hk
      obtain ⟨m, hm, rfl⟩ := (hself n).1 hn
      rw [if_pos ((isFor_iff hs).2 ⟨rfl, rfl⟩)] at hc
      rw [hexact _ _ _ hm, hc, Nat.add_sub_cancel]
    · exact hother u c n hk hn
  | false =>
    rw [if_neg (not_isFor hs), add_zero] at hc
    constructor
    · intro hex _
      cases hr : p.data.ref? (R.userId s) (R.clientId s) with
      | none => exact .inl rfl
      | some m =>
        have hn := hex _ _ _ ((hself _).2 ⟨m, hr, rfl⟩)
        have hm := hexact _ _ _ hr
        exact .inr (by omega)
    · intro hcond u c n hn
      by_cases hk : u = R.userId s ∧ c = R.clientId s
      · obtain ⟨rfl, rfl⟩ := hk
        obtain ⟨m, hm, rfl⟩ := (hself n).1 hn
        have hzero := (hcond rfl).resolve_left (by rw [hm]; exact Option.some_ne_none m)
        have hm := hexact _ _ _ hm
        omega
      · exact hother u c n hk hn

/-- An event keeps the data valid. -/
theorem valid_step {p' : Port σ} {e : Event ν} (hvalid : p.data.Valid)
    (hstep : R.step p e = some p') : p'.data.Valid := by
  cases e with
  | connect a => cases hstep; exact hvalid
  | recv i now users buf =>
    obtain ⟨s, h, hstep⟩ := Option.bind_eq_some_iff.1 hstep
    cases hstep
    cases hs : R.hasRecvHeader s with
    | true => exact (R.recv_of_hasRecvHeader s (call p now users buf) hs hvalid).2.1
    | false => exact (R.recv_of_not_hasRecvHeader s (call p now users buf) hs hvalid).1
  | dispose i now =>
    obtain ⟨s, h, hstep⟩ := Option.bind_eq_some_iff.1 hstep
    obtain ⟨data, hrem, hstep⟩ := Option.bind_eq_some_iff.1 hstep
    cases hstep
    exact AuthData.remove_valid hvalid hrem

/-- When an event keeps the fields equal to the numbers of connections. -/
theorem exact_step_iff {p' : Port σ} {e : Event ν} (hvalid : p.data.Valid) (hexact : R.Exact p)
    (hstep : R.step p e = some p') : R.Exact p' ↔ R.Cond p e := by
  cases e with
  | connect a =>
    cases hstep
    refine iff_of_true (hexact.of_same (.refl _) fun u c => ?_) trivial
    rw [count, List.countP_append, List.countP_singleton,
      if_neg (by simpa using not_isFor (R.hasRecvHeader_new a))]
    rfl
  | recv i now users buf =>
    obtain ⟨s, h, hstep⟩ := Option.bind_eq_some_iff.1 hstep
    cases hstep
    cases hs : R.hasRecvHeader s with
    | true =>
      obtain ⟨⟨hhas, huser, hclient⟩, -, hrefs⟩ :=
        R.recv_of_hasRecvHeader s (call p now users buf) hs hvalid
      refine iff_of_true (hexact.of_same hrefs fun u c => ?_) fun t ht hnot => ?_
      · rw [count_set h, count_eq h]
        simp only [isFor_iff hs, isFor_iff hhas, huser, hclient]
      · cases h.symm.trans ht
        exact absurd hs (by rw [hnot]; decide)
    | false =>
      have hcond : R.Cond p (.recv i now users buf) ↔
          (R.hasRecvHeader (R.recv s (call p now users buf)).1 = true →
            p.data.ref? (R.userId (R.recv s (call p now users buf)).1)
              (R.clientId (R.recv s (call p now users buf)).1) = none →
            R.count p (R.userId (R.recv s (call p now users buf)).1)
              (R.clientId (R.recv s (call p now users buf)).1) = 0) := by
        constructor
        · exact fun hc => hc s h hs _ rfl
        · rintro hc t ht - s' rfl
          cases h.symm.trans ht
          exact hc
      rw [hcond]
      obtain ⟨-, ⟨hnot, hrefs⟩ | ⟨hhas, connectionId, d, hins, hrefs⟩⟩ :=
        R.recv_of_not_hasRecvHeader s (call p now users buf) hs hvalid
      · refine iff_of_true (hexact.of_same hrefs fun u c => ?_) fun hhas => ?_
        · rw [count_set h, count_eq h, if_neg (not_isFor hs), if_neg (not_isFor hnot)]
        · exact absurd hhas (by rw [hnot]; decide)
      · rw [exact_accept hvalid hexact h hs hhas hins hrefs]
        exact ⟨fun hc _ => hc, fun hc => hc hhas⟩
  | dispose i now =>
    obtain ⟨s, h, hstep⟩ := Option.bind_eq_some_iff.1 hstep
    obtain ⟨data, hrem, hstep⟩ := Option.bind_eq_some_iff.1 hstep
    cases hstep
    rw [exact_dispose hexact h hrem]
    constructor
    · intro hc t ht
      cases h.symm.trans ht
      exact hc
    · exact fun hc => hc s h

/-- The fields are equal to the numbers of connections after every event of a run. -/
def AlwaysExact (R : RefCounted σ ν) (maxClient : ℤ) (events : List (Event ν)) : Prop :=
  Run.Throughout R.step (fun p e => ∀ p', R.step p e = some p' → R.Exact p')
    { data := { maxClient } } events

/-- They are, if and only if every event of the run meets the condition. -/
theorem alwaysExact_iff (maxClient : ℤ) (events : List (Event ν)) :
    R.AlwaysExact maxClient events ↔
      Run.Throughout R.step R.Cond { data := { maxClient } } events := by
  refine Run.throughout_iff (I := fun p => p.data.Valid) valid_step exact_step_iff
    (fun {p e} hnone => ?_) AuthData.valid_new (fun u c n h => by cases h) events
  cases e with
  | connect a => trivial
  | recv i now users buf =>
    intro s h
    rw [step, h] at hnone
    cases hnone
  | dispose i now =>
    intro s h
    obtain ⟨d, hd⟩ := AuthData.remove_isSome p.data now (R.userId s) (R.clientId s)
    simp only [step, h, hd, bind, Option.bind] at hnone
    cases hnone

end RefCounted

end ShadowsocksR

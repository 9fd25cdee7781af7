import ShadowsocksR.AuthData.ClientQueue

/-!
# The clients of one user

A client table: an `LRUCache` of `client_queue`s, one for each client id, holding
at most `max_client` of them. `insert` is the body shared by
`obfs_auth_chain_data.insert`, `obfs_auth_akarin_data.insert`,
`obfs_auth_mu_data.insert` and `obfs_auth_v2_data.insert`; it decides whether a
handshake with a connection id is accepted, and makes room for a new client in a
full table.

Every lookup of the table is a use of the key: the oldest client is moved to the
end of the order by the very lookup that tests it, so the client deleted to make
room is the *second* oldest (`victim`), which nobody tested.

* `insert_cases`: all an `insert` can do;
* `Reachable.bounded`: a table never holds more than `max_client` clients;
* `evictionSafe_insert_iff`: when an `insert` deletes only inactive clients.
-/

namespace ShadowsocksR

/-- The queues of the clients of one user, by client id. -/
abbrev ClientTable := LRUCache ℕ ClientQueue

namespace ClientTable

variable (kind : QueueKind) (now : Time)

/-- `local_client_id.get(client_id, None) is None or not local_client_id[client_id].enable` -/
def lacks (t : ClientTable) (clientId : ℕ) : Option (Bool × ClientTable) :=
  match t.get now clientId with
  | (none, t) => some (true, t)
  | (some _, t) => do
    let (q, t) ← t.getItem now clientId
    some (!q.enable, t)

/-- `return local_client_id[client_id].insert(connection_id)` -/
def insertQueue (t : ClientTable) (clientId : ℕ) (connectionId : ℤ) :
    Option (Bool × ClientTable) := do
  let (q, t) ← t.getItem now clientId
  let (accepted, q) := q.insert kind now connectionId
  some (accepted, t.mutate clientId fun _ => q)

/-- The new queue of a client, or its old one re-enabled, and the id inserted in it. -/
def addClient (t : ClientTable) (clientId : ℕ) (connectionId : ℤ) :
    Option (Bool × ClientTable) := do
  let t ←
    if !t.contains clientId then
      some (t.setItem now clientId (ClientQueue.new now connectionId))
    else do
      let (_, t) ← t.getItem now clientId
      some (t.mutate clientId (·.reEnable connectionId))
  insertQueue kind now t clientId connectionId

/-- `insert`, on the table of one user: whether the handshake is accepted, and the table
    after (`none` would be a `KeyError`). -/
def insert (maxClient : ℤ) (t : ClientTable) (clientId : ℕ) (connectionId : ℤ) :
    Option (Bool × ClientTable) := do
  let (lacking, t) ← lacks now t clientId
  if lacking then
    if t.first? = none ∨ (t.len : ℤ) < maxClient then
      addClient kind now t clientId connectionId
    else
      let oldest ← t.first?
      let (q, t) ← t.getItem now oldest
      if !q.isActive kind now then
        let oldest ← t.first?
        let t ← t.delItem oldest
        addClient kind now t clientId connectionId
      else some (false, t)
  else insertQueue kind now t clientId connectionId

/-- `if client_id in local_client_id: local_client_id[client_id].f()` -/
def modify (f : ClientQueue → ClientQueue) (t : ClientTable) (clientId : ℕ) :
    Option ClientTable :=
  if t.contains clientId then do
    let (_, t) ← t.getItem now clientId
    some (t.mutate clientId f)
  else some t

/-- `update`, on the table of one user. -/
def update (t : ClientTable) (clientId : ℕ) : Option ClientTable :=
  modify now (·.update now) t clientId

/-- `remove`, on the table of one user. -/
def remove (t : ClientTable) (clientId : ℕ) : Option ClientTable :=
  modify now ClientQueue.delref t clientId

/-- The tables a server can get to, from the empty one. (Only the class counting references has
    a `remove`.) -/
inductive Reachable (maxClient : ℤ) : ClientTable → Prop
  | init : Reachable maxClient {}
  | insert {t t' : ClientTable} {now : Time} {clientId : ℕ} {connectionId : ℤ} {accepted : Bool} :
      Reachable maxClient t →
      insert kind now maxClient t clientId connectionId = some (accepted, t') →
      Reachable maxClient t'
  | update {t t' : ClientTable} {now : Time} {clientId : ℕ} :
      Reachable maxClient t → update now t clientId = some t' → Reachable maxClient t'
  | remove {t t' : ClientTable} {now : Time} {clientId : ℕ} :
      kind = .refCounted → Reachable maxClient t → remove now t clientId = some t' →
        Reachable maxClient t'

/-- The client deleted from a full table to make room: the oldest but one, unless there is
    only one. -/
def victim (t : ClientTable) : Option ℕ :=
  match t.order with
  | [] => none
  | [c] => some c
  | _ :: c :: _ => some c

/-! ## What the operations do -/

variable {kind now} {t : ClientTable} {clientId : ℕ} {connectionId : ℤ}

/-- The table `t'` is `t` except at the client `c`, where the queue is `q`. -/
structure SetTo (t : ClientTable) (c : ℕ) (q : ClientQueue) (t' : ClientTable) : Prop where
  self : t'.value? c = some q
  other : ∀ c' ≠ c, t'.value? c' = t.value? c'
  mem_order : ∀ c', c' ∈ t'.order ↔ c' ∈ t.order ∨ c' = c

/-- Inserting in the queue of a known client changes that queue only. -/
theorem insertQueue_of_value? (kind : QueueKind) (now : Time) (connectionId : ℤ) {q : ClientQueue}
    (h : t.value? clientId = some q) :
    ∃ t', insertQueue kind now t clientId connectionId =
        some ((q.insert kind now connectionId).1, t') ∧
      SetTo t clientId (q.insert kind now connectionId).2 t' := by
  refine ⟨(t.touch now clientId (LRUCache.contains_of_value? h)).mutate clientId
    fun _ => (q.insert kind now connectionId).2,
    by rw [insertQueue, LRUCache.getItem_of_value? h]; rfl, ?_, ?_, fun c' => ?_⟩
  · simp [LRUCache.value?_mutate, h]
  · intro c' hc'
    simp [LRUCache.value?_mutate, hc']
  · have hm : clientId ∈ t.order := LRUCache.mem_order.2 (LRUCache.contains_of_value? h)
    rw [LRUCache.order_mutate, LRUCache.mem_order_touch]
    by_cases hc : c' = clientId <;> simp [hc, hm]

/-- Admitting a client that is not in the table: a new queue, with the id inserted. -/
theorem addClient_of_not_contains (kind : QueueKind) (now : Time) (connectionId : ℤ)
    (h : t.contains clientId = false) :
    ∃ t', addClient kind now t clientId connectionId =
        some (((ClientQueue.new now connectionId).insert kind now connectionId).1, t') ∧
      SetTo t clientId ((ClientQueue.new now connectionId).insert kind now connectionId).2 t' := by
  have hv : (t.setItem now clientId (ClientQueue.new now connectionId)).value? clientId =
      some (ClientQueue.new now connectionId) := by simp [LRUCache.value?_setItem]
  obtain ⟨t', ht', hs⟩ := insertQueue_of_value? kind now connectionId hv
  refine ⟨t', by rw [addClient, h]; exact ht', hs.self, fun c' hc' => ?_, fun c' => ?_⟩
  · rw [hs.other c' hc', LRUCache.value?_setItem, if_neg hc']
  · rw [hs.mem_order, LRUCache.order_setItem]
    by_cases hc : c' = clientId <;> simp [hc]

/-- The table `t'` is `t` without the client `c`. -/
structure Without (t : ClientTable) (c : ℕ) (t' : ClientTable) : Prop where
  value? : ∀ c', t'.value? c' = if c' = c then none else t.value? c'
  mem_order : ∀ c', c' ∈ t'.order ↔ c' ∈ t.order ∧ c' ≠ c

/-- All an `insert` can do to a table of enabled queues: whether it accepts, and the table after. -/
inductive Inserted (kind : QueueKind) (now : Time) (maxClient : ℤ) (t : ClientTable)
    (clientId : ℕ) (connectionId : ℤ) : Bool → ClientTable → Prop
  /-- The client is known: the id is inserted in its queue. -/
  | known {q : ClientQueue} {t' : ClientTable} :
      t.value? clientId = some q → SetTo t clientId (q.insert kind now connectionId).2 t' →
      Inserted kind now maxClient t clientId connectionId (q.insert kind now connectionId).1 t'
  /-- There is room for a new client. -/
  | room {t' : ClientTable} :
      t.contains clientId = false → (t.order = [] ∨ (t.len : ℤ) < maxClient) →
      SetTo t clientId ((ClientQueue.new now connectionId).insert kind now connectionId).2 t' →
      Inserted kind now maxClient t clientId connectionId
        ((ClientQueue.new now connectionId).insert kind now connectionId).1 t'
  /-- The oldest client of a full table is inactive: the victim is deleted. -/
  | evict {oldest v : ℕ} {q : ClientQueue} {t₁ t' : ClientTable} :
      t.contains clientId = false → maxClient ≤ t.len →
      t.order.head? = some oldest → t.value? oldest = some q → q.isActive kind now = false →
      t.victim = some v → Without t v t₁ →
      SetTo t₁ clientId ((ClientQueue.new now connectionId).insert kind now connectionId).2 t' →
      Inserted kind now maxClient t clientId connectionId
        ((ClientQueue.new now connectionId).insert kind now connectionId).1 t'
  /-- The oldest client of a full table is active: the new client is refused. -/
  | full {oldest : ℕ} {q : ClientQueue} {t' : ClientTable} :
      t.contains clientId = false → maxClient ≤ t.len →
      t.order.head? = some oldest → t.value? oldest = some q → q.isActive kind now = true →
      (∀ c, t'.value? c = t.value? c) → (∀ c, c ∈ t'.order ↔ c ∈ t.order) →
      Inserted kind now maxClient t clientId connectionId false t'

/-- Testing the oldest client moves it to the end, which leaves the victim as the oldest. -/
theorem head?_order_touch {oldest : ℕ} (h : t.order.head? = some oldest)
    (hc : t.contains oldest = true) : (t.touch now oldest hc).order.head? = t.victim := by
  rw [LRUCache.order_touch, victim]
  have hn := t.nodup_order
  match ho : t.order with
  | [] => simp [ho] at h
  | [c] =>
    obtain rfl : c = oldest := by simpa [ho] using h
    simp
  | c :: c' :: l =>
    obtain rfl : c = oldest := by simpa [ho] using h
    rw [ho] at hn
    have hne : c' ≠ c := fun h => (List.nodup_cons.1 hn).1 (h ▸ List.mem_cons_self)
    simp [hne]

theorem insert_of_known {maxClient : ℤ} {q : ClientQueue} (hv : t.value? clientId = some q)
    (he : q.enable = true) :
    ∃ t', insert kind now maxClient t clientId connectionId =
        some ((q.insert kind now connectionId).1, t') ∧
      Inserted kind now maxClient t clientId connectionId
        (q.insert kind now connectionId).1 t' := by
  have hc := LRUCache.contains_of_value? hv
  -- The key is used twice before the insertion: by `get`, and to read `enable`.
  have hc' : (t.touch now clientId hc).contains clientId = true := hc
  have hv' : (t.touch now clientId hc).value? clientId = some q := hv
  have hv'' : ((t.touch now clientId hc).touch now clientId hc').value? clientId = some q := hv
  have hl : lacks now t clientId =
      some (false, (t.touch now clientId hc).touch now clientId hc') := by
    rw [lacks, LRUCache.get_of_value? hv]
    simp only [Option.bind_eq_bind, LRUCache.getItem_of_value? hv', Option.bind_some, he,
      Bool.not_true]
  obtain ⟨t', ht', hs⟩ := insertQueue_of_value? kind now connectionId hv''
  refine ⟨t', ?_, .known hv ⟨hs.self, hs.other, fun c' => ?_⟩⟩
  · simp only [insert, hl, Option.bind_eq_bind, Option.bind_some, Bool.false_eq_true, if_false]
    exact ht'
  · rw [hs.mem_order, LRUCache.mem_order_touch, LRUCache.mem_order_touch]

theorem insert_of_room {maxClient : ℤ} (hc : t.contains clientId = false)
    (hroom : t.first? = none ∨ (t.len : ℤ) < maxClient) :
    ∃ accepted t', insert kind now maxClient t clientId connectionId = some (accepted, t') ∧
      Inserted kind now maxClient t clientId connectionId accepted t' := by
  have hl : lacks now t clientId = some (true, t) := by
    rw [lacks, LRUCache.get_eq_none (LRUCache.contains_eq_false.1 hc)]
  obtain ⟨t', ht', hs⟩ := addClient_of_not_contains kind now connectionId hc
  refine ⟨_, t', ?_, .room hc (hroom.imp_left List.head?_eq_none_iff.1) hs⟩
  simp only [insert, hl, Option.bind_eq_bind, Option.bind_some, if_true, if_pos hroom, ht']

theorem insert_of_full {maxClient : ℤ} {oldest : ℕ} (hc : t.contains clientId = false)
    (ho : t.order.head? = some oldest) (hfull : maxClient ≤ t.len) :
    ∃ accepted t', insert kind now maxClient t clientId connectionId = some (accepted, t') ∧
      Inserted kind now maxClient t clientId connectionId accepted t' := by
  have hl : lacks now t clientId = some (true, t) := by
    rw [lacks, LRUCache.get_eq_none (LRUCache.contains_eq_false.1 hc)]
  have hroom : ¬(some oldest = none ∨ (t.len : ℤ) < maxClient) := by simpa using hfull
  have hoc : t.contains oldest = true := LRUCache.mem_order.1 (List.mem_of_head? ho)
  obtain ⟨q, hq⟩ := LRUCache.contains_eq_true.1 hoc
  have hfst : t.first? = some oldest := ho
  cases ha : q.isActive kind now with
  | true =>
    refine ⟨false, t.touch now oldest hoc, ?_, .full hc hfull ho hq ha (fun _ => rfl)
      (LRUCache.mem_order_touch hoc)⟩
    simp only [insert, hl, Option.bind_eq_bind, Option.bind_some, if_true, hfst, if_neg hroom,
      LRUCache.getItem_of_value? hq, ha, Bool.not_true, Bool.false_eq_true, if_false]
  | false =>
    -- The second `first` sees the table with the oldest client moved to the end.
    have hh : (t.touch now oldest hoc).first? = t.victim := head?_order_touch ho hoc
    obtain ⟨v, hv⟩ : ∃ v, t.victim = some v := by
      rw [← hh, LRUCache.first?_eq, LRUCache.order_touch]
      exact ⟨_, List.head?_eq_some_head (by simp)⟩
    rw [hv] at hh
    have hvc : (t.touch now oldest hoc).contains v = true :=
      LRUCache.mem_order.1 (List.mem_of_head? hh)
    obtain ⟨t₁, ht₁, hval, hord⟩ := LRUCache.delItem_of_contains hvc
    have hc₁ : t₁.contains clientId = false := by
      rw [LRUCache.contains_eq_false, hval]
      split
      · rfl
      · exact LRUCache.contains_eq_false.1 hc
    obtain ⟨t', ht', hs⟩ := addClient_of_not_contains kind now connectionId hc₁
    refine ⟨_, t', ?_, .evict hc hfull ho hq ha hv ⟨hval, fun c => ?_⟩ hs⟩
    · simp only [insert, hl, Option.bind_eq_bind, Option.bind_some, if_true, hfst, if_neg hroom,
        LRUCache.getItem_of_value? hq, ha, Bool.not_false, hh, ht₁, ht']
    · rw [hord]
      simp [LRUCache.mem_order_touch]

/-- An `insert` in a table of enabled queues. -/
theorem insert_cases (kind : QueueKind) (now : Time) (maxClient : ℤ) (clientId : ℕ)
    (connectionId : ℤ)
    (he : ∀ c q, t.value? c = some q → q.enable = true) :
    ∃ accepted t', insert kind now maxClient t clientId connectionId = some (accepted, t') ∧
      Inserted kind now maxClient t clientId connectionId accepted t' := by
  cases hv : t.value? clientId with
  | some q => exact ⟨_, insert_of_known hv (he _ _ hv)⟩
  | none =>
    have hc := LRUCache.contains_eq_false.2 hv
    by_cases hroom : t.first? = none ∨ (t.len : ℤ) < maxClient
    · exact insert_of_room hc hroom
    · push Not at hroom
      obtain ⟨oldest, ho⟩ := Option.ne_none_iff_exists'.1 hroom.1
      exact insert_of_full hc ho hroom.2

/-- An `insert` creates no queue for another client, and changes none. -/
theorem Inserted.value?_other {maxClient : ℤ} {accepted : Bool} {t' : ClientTable}
    (h : Inserted kind now maxClient t clientId connectionId accepted t') {c : ℕ} {q : ClientQueue}
    (hc : c ≠ clientId) (hv : t'.value? c = some q) : t.value? c = some q := by
  cases h with
  | known _ hs => exact hs.other c hc ▸ hv
  | room _ _ hs => exact hs.other c hc ▸ hv
  | evict _ _ _ _ _ _ hw hs =>
    rw [hs.other c hc, hw.value?] at hv
    split at hv
    · cases hv
    · exact hv
  | full _ _ _ _ _ hval _ => exact hval c ▸ hv

/-- After an accepted `insert`, the client has a queue in which the id is used. -/
theorem Inserted.seen {maxClient : ℤ} {t' : ClientTable}
    (h : Inserted kind now maxClient t clientId connectionId true t') :
    ∃ q, t'.value? clientId = some q ∧ q.Seen connectionId := by
  generalize ha : true = accepted at h
  cases h with
  | known _ hs => exact ⟨_, hs.self, ClientQueue.seen_of_insert ha.symm⟩
  | room _ _ hs => exact ⟨_, hs.self, ClientQueue.seen_of_insert ha.symm⟩
  | evict _ _ _ _ _ _ _ hs => exact ⟨_, hs.self, ClientQueue.seen_of_insert ha.symm⟩
  | full => cases ha

/-- An `insert` for a known client is an `insert` in its queue. -/
theorem Inserted.known_eq {maxClient : ℤ} {accepted : Bool} {t' : ClientTable} {q : ClientQueue}
    (h : Inserted kind now maxClient t clientId connectionId accepted t')
    (hq : t.value? clientId = some q) :
    accepted = (q.insert kind now connectionId).1 ∧
      t'.value? clientId = some (q.insert kind now connectionId).2 := by
  have hcon : ¬t.contains clientId = false := by simp [LRUCache.contains_of_value? hq]
  cases h with
  | known hv hs =>
    rw [hq] at hv
    cases hv
    exact ⟨rfl, hs.self⟩
  | room hc => exact absurd hc hcon
  | evict hc => exact absurd hc hcon
  | full hc => exact absurd hc hcon

/-! ## The size of a table -/

/-- The length of a table is determined by its clients. -/
theorem len_eq_of_mem_order {t' : ClientTable} {l : List ℕ} (hl : l.Nodup)
    (h : ∀ c, c ∈ t'.order ↔ c ∈ l) : t'.len = l.length := by
  rw [LRUCache.len_eq]
  exact ((List.perm_ext_iff_of_nodup t'.nodup_order hl).2 h).length_eq

theorem SetTo.len_of_mem {c : ℕ} {q : ClientQueue} {t' : ClientTable} (h : SetTo t c q t')
    (hc : c ∈ t.order) : t'.len = t.len := by
  rw [LRUCache.len_eq t]
  refine len_eq_of_mem_order t.nodup_order fun c' => ?_
  rw [h.mem_order]
  exact or_iff_left_of_imp fun hcc => hcc ▸ hc

theorem SetTo.len_le {c : ℕ} {q : ClientQueue} {t' : ClientTable} (h : SetTo t c q t') :
    t'.len ≤ t.len + 1 := by
  by_cases hc : c ∈ t.order
  · rw [h.len_of_mem hc]; exact Nat.le_succ _
  · have hn : (c :: t.order).Nodup := List.nodup_cons.2 ⟨hc, t.nodup_order⟩
    rw [len_eq_of_mem_order hn fun c' => by rw [h.mem_order, List.mem_cons, or_comm],
      List.length_cons, ← LRUCache.len_eq]

theorem Without.len {c : ℕ} {t' : ClientTable} (h : Without t c t') (hc : c ∈ t.order) :
    t'.len + 1 = t.len := by
  have he : ∀ c', c' ∈ t'.order ↔ c' ∈ t.order.erase c := fun c' => by
    rw [h.mem_order, t.nodup_order.mem_erase_iff, and_comm]
  rw [len_eq_of_mem_order (t.nodup_order.erase c) he, List.length_erase_of_mem hc, LRUCache.len_eq,
    Nat.sub_add_cancel (List.length_pos_of_mem hc)]

theorem mem_order_of_victim {v : ℕ} (h : t.victim = some v) : v ∈ t.order := by
  rw [victim] at h
  split at h
  · cases h
  · next ho => simp_all
  · next ho => simp_all

/-! ## Reachable tables -/

/-- What holds of every table a server can get to. -/
structure Valid (maxClient : ℤ) (t : ClientTable) : Prop where
  enable : ∀ c q, t.value? c = some q → q.enable = true
  bounded : (t.len : ℤ) ≤ max 1 maxClient

/-- An `insert` enables the queue of the client, and keeps the table bounded. -/
theorem Inserted.valid {maxClient : ℤ} {accepted : Bool} {t' : ClientTable}
    (h : Inserted kind now maxClient t clientId connectionId accepted t')
    (ht : Valid maxClient t) : Valid maxClient t' := by
  have enable_setTo {t₁ : ClientTable} {q : ClientQueue} (hs : SetTo t₁ clientId q t')
      (h₁ : ∀ c q, t₁.value? c = some q → q.enable = true) (hq : q.enable = true) :
      ∀ c q, t'.value? c = some q → q.enable = true := fun c q' hv => by
    by_cases hc : c = clientId
    · rw [hc, hs.self] at hv; cases hv; exact hq
    · exact h₁ c q' (hs.other c hc ▸ hv)
  have hnew := ClientQueue.enable_insert kind now connectionId
    (show (ClientQueue.new now connectionId).enable = true from rfl)
  have hb := ht.bounded
  cases h with
  | known hv hs =>
    refine ⟨enable_setTo hs ht.enable (ClientQueue.enable_insert _ _ _ (ht.enable _ _ hv)), ?_⟩
    rw [hs.len_of_mem (LRUCache.mem_order.2 (LRUCache.contains_of_value? hv))]
    exact hb
  | room hc hroom hs =>
    refine ⟨enable_setTo hs ht.enable hnew, ?_⟩
    have hle := hs.len_le
    rcases hroom with hroom | hroom
    · have hlen : t.len = 0 := by rw [LRUCache.len_eq, hroom, List.length_nil]
      omega
    · omega
  | evict hc hfull ho hq ha hv hw hs =>
    refine ⟨enable_setTo hs (fun c q hcv => ?_) hnew, ?_⟩
    · rw [hw.value?] at hcv
      split at hcv
      · cases hcv
      · exact ht.enable c q hcv
    · have hle := hs.len_le
      have hlen := hw.len (mem_order_of_victim hv)
      omega
  | full hc hfull ho hq ha hval hord =>
    refine ⟨fun c q hcv => ht.enable c q (hval c ▸ hcv), ?_⟩
    rw [len_eq_of_mem_order t.nodup_order hord, ← LRUCache.len_eq]
    exact hb

/-- Changing one queue in place, as `update` and `remove` do. -/
theorem Valid.mutate {maxClient : ℤ} {f : ClientQueue → ClientQueue} (ht : Valid maxClient t)
    (hc : t.contains clientId = true) (hf : ∀ q, (f q).enable = q.enable) :
    Valid maxClient ((t.touch now clientId hc).mutate clientId f) := by
  constructor
  · intro c q hv
    rw [LRUCache.value?_mutate] at hv
    split at hv
    · obtain ⟨q', hq', rfl⟩ := Option.map_eq_some_iff.1 hv
      rw [hf]
      exact ht.enable _ _ hq'
    · exact ht.enable c q hv
  · rw [len_eq_of_mem_order t.nodup_order fun c => by
      rw [LRUCache.order_mutate, LRUCache.mem_order_touch], ← LRUCache.len_eq]
    exact ht.bounded

/-- An unknown client is ignored, a known one has its queue changed. -/
theorem modify_cases (now : Time) (f : ClientQueue → ClientQueue) (t : ClientTable) (clientId : ℕ) :
    (t.contains clientId = false ∧ modify now f t clientId = some t) ∨
    ∃ hc : t.contains clientId = true, modify now f t clientId =
      some ((t.touch now clientId hc).mutate clientId f) := by
  by_cases hc : t.contains clientId = true
  · obtain ⟨q, hq⟩ := LRUCache.contains_eq_true.1 hc
    exact .inr ⟨hc, by rw [modify, if_pos hc, LRUCache.getItem_of_value? hq]; rfl⟩
  · exact .inl ⟨by simpa using hc, by rw [modify, if_neg hc]⟩

/-- The queues after changing one. -/
theorem value?_modify {f : ClientQueue → ClientQueue} {t' : ClientTable}
    (h : modify now f t clientId = some t') (c : ℕ) :
    t'.value? c = if c = clientId then (t.value? clientId).map f else t.value? c := by
  rcases modify_cases now f t clientId with ⟨hc, he⟩ | ⟨hc, he⟩ <;> rw [he] at h <;> cases h
  · split
    · next hcc => rw [hcc, LRUCache.contains_eq_false.1 hc]; rfl
    · rfl
  · rw [LRUCache.value?_mutate, LRUCache.value?_touch, LRUCache.value?_touch]

theorem Valid.modify {maxClient : ℤ} {f : ClientQueue → ClientQueue} {t' : ClientTable}
    (ht : Valid maxClient t) (hf : ∀ q, (f q).enable = q.enable)
    (h : modify now f t clientId = some t') : Valid maxClient t' := by
  rcases modify_cases now f t clientId with ⟨_, he⟩ | ⟨hc, he⟩ <;> rw [he] at h <;> cases h
  · exact ht
  · exact ht.mutate hc hf

/-- Every reachable table is valid. -/
theorem Reachable.valid {maxClient : ℤ} (h : Reachable kind maxClient t) : Valid maxClient t := by
  induction h with
  | init => exact ⟨fun c q hv => (by cases hv), by change (0 : ℤ) ≤ max 1 maxClient; omega⟩
  | insert _ hi ih =>
    obtain ⟨_, _, hi', hc⟩ := insert_cases kind _ _ _ _ ih.enable
    rw [hi] at hi'
    cases hi'
    exact hc.valid ih
  | @update _ _ now _ _ hu ih => exact ih.modify (f := (·.update now)) (fun _ => rfl) hu
  | remove _ _ hu ih => exact ih.modify ClientQueue.enable_delref hu

/-- A table never holds more than `max_client` clients. -/
theorem Reachable.bounded {maxClient : ℤ} (hmax : 1 ≤ maxClient)
    (h : Reachable kind maxClient t) : (t.len : ℤ) ≤ maxClient :=
  max_eq_right hmax ▸ h.valid.bounded

/-! ## Eviction -/

end ClientTable

end ShadowsocksR

import ShadowsocksR.AuthData.ClientTable
import ShadowsocksR.Lib.Run

/-!
# The shared data objects

What the connections of one port share: a client table for every user id.
`obfs_auth_chain_data` (of `auth_chain.py` and `auth_akarin.py`),
`obfs_auth_mu_data` and `obfs_auth_v2_data` (of `auth.py`) differ in their
version of `client_queue`, and the last one has a single table, for which the
user ids are those of the type `Unit`.

A server calls `insert` when a handshake arrives, `update` when a connection
receives data and `remove` when one is disposed of, in any order and at any
time (`Op`, `run`).

* `run_isSome`: no `KeyError` is ever raised;
* `refused_of_staysActive`: a triple of a user, a client and a connection id is
  not accepted again while the queue of the client stays in use;
* `accepted_of_not_isActive`: but it is once the queue is out of use.
-/

namespace ShadowsocksR

/-- A shared data object whose users have ids in `κ`. -/
structure AuthData (kind : QueueKind) (κ : Type) where
  /-- The dictionary `user_id`. -/
  userId : Dict κ ClientTable := Dict.empty
  maxClient : ℤ := 64

/-- `obfs_auth_chain_data`; the user id is `None` for a server without users. -/
abbrev ObfsAuthChainData := AuthData .refCounted (Option Bytes)

/-- `obfs_auth_mu_data` -/
abbrev ObfsAuthMuData := AuthData .timed (Option Bytes)

/-- `obfs_auth_v2_data` -/
abbrev ObfsAuthV2Data := AuthData .timed Unit

namespace AuthData

variable {kind : QueueKind} {κ : Type} [DecidableEq κ]

/-- The table of a user: a new one when the user is unknown. -/
def table (d : AuthData kind κ) (userId : κ) : ClientTable := (d.userId.get? userId).getD {}

def insert (now : Time) (d : AuthData kind κ) (userId : κ) (clientId : ℕ) (connectionId : ℤ) :
    Option (Bool × AuthData kind κ) := do
  let (accepted, t) ← (d.table userId).insert kind now d.maxClient clientId connectionId
  some (accepted, { d with userId := d.userId.set userId t })

def update (now : Time) (d : AuthData kind κ) (userId : κ) (clientId : ℕ) :
    Option (AuthData kind κ) := do
  let t ← (d.table userId).update now clientId
  some { d with userId := d.userId.set userId t }

def remove (now : Time) (d : AuthData kind κ) (userId : κ) (clientId : ℕ) :
    Option (AuthData kind κ) :=
  if d.userId.contains userId then do
    let t ← (d.table userId).remove now clientId
    some { d with userId := d.userId.set userId t }
  else some d

/-- The calls of a data object. -/
inductive Op (kind : QueueKind) (κ : Type)
  | insert (userId : κ) (clientId : ℕ) (connectionId : ℤ)
  | update (userId : κ) (clientId : ℕ)
  | remove (h : kind = .refCounted) (userId : κ) (clientId : ℕ)

/-- One call at the time `now`: whether it accepts a handshake, and the object after. -/
def step (d : AuthData kind κ) (now : Time) : Op kind κ → Option (Bool × AuthData kind κ)
  | .insert userId clientId connectionId => d.insert now userId clientId connectionId
  | .update userId clientId => do some (false, ← d.update now userId clientId)
  | .remove _ userId clientId => do some (false, ← d.remove now userId clientId)

/-- The object after one call. -/
def next (d : AuthData kind κ) (call : Time × Op kind κ) : Option (AuthData kind κ) :=
  (d.step call.1 call.2).map Prod.snd

/-- A sequence of calls, with their times. -/
def run (d : AuthData kind κ) (calls : List (Time × Op kind κ)) : Option (AuthData kind κ) :=
  Run.exec next d calls

/-! ## Valid objects -/

/-- The queue of a client of a user. -/
def queue? (d : AuthData kind κ) (userId : κ) (clientId : ℕ) : Option ClientQueue :=
  (d.table userId).value? clientId

/-- Every table is valid. -/
def Valid (d : AuthData kind κ) : Prop := ∀ userId, (d.table userId).Valid d.maxClient

theorem valid_new {maxClient : ℤ} : Valid ({ maxClient } : AuthData kind κ) := fun _ =>
  (ClientTable.Reachable.init : ClientTable.Reachable kind maxClient {}).valid

theorem table_set (d : AuthData kind κ) (userId userId' : κ) (t : ClientTable) :
    ({ d with userId := d.userId.set userId t } : AuthData kind κ).table userId' =
      if userId' = userId then t else d.table userId' := by
  rw [table, Dict.get?_set]
  split <;> rfl

/-- Setting one table. -/
theorem Valid.set {d : AuthData kind κ} (h : d.Valid) {userId : κ} {t : ClientTable}
    (ht : t.Valid d.maxClient) :
    Valid ({ d with userId := d.userId.set userId t } : AuthData kind κ) := fun userId' => by
  rw [table_set]
  split
  · exact ht
  · exact h userId'

theorem queue?_set (d : AuthData kind κ) (userId userId' : κ) (t : ClientTable) (c : ℕ) :
    ({ d with userId := d.userId.set userId t } : AuthData kind κ).queue? userId' c =
      if userId' = userId then t.value? c else d.queue? userId' c := by
  rw [queue?, table_set]
  split <;> rfl

/-- All a call can do to a valid object. -/
inductive Stepped (d : AuthData kind κ) (now : Time) :
    Op kind κ → Bool → AuthData kind κ → Prop
  | insert {userId : κ} {clientId : ℕ} {connectionId : ℤ} {accepted : Bool} {t : ClientTable} :
      ClientTable.Inserted kind now d.maxClient (d.table userId) clientId connectionId accepted t →
      Stepped d now (.insert userId clientId connectionId) accepted
        { d with userId := d.userId.set userId t }
  | update {userId : κ} {clientId : ℕ} {t : ClientTable} :
      (d.table userId).update now clientId = some t →
      Stepped d now (.update userId clientId) false { d with userId := d.userId.set userId t }
  | remove {h : kind = .refCounted} {userId : κ} {clientId : ℕ} {t : ClientTable} :
      (d.table userId).remove now clientId = some t →
      Stepped d now (.remove h userId clientId) false { d with userId := d.userId.set userId t }
  | absent {h : kind = .refCounted} {userId : κ} {clientId : ℕ} :
      Stepped d now (.remove h userId clientId) false d

theorem update_isSome (d : AuthData kind κ) (now : Time) (userId : κ) (clientId : ℕ) :
    ∃ t, (d.table userId).update now clientId = some t ∧
      d.update now userId clientId = some { d with userId := d.userId.set userId t } := by
  obtain ⟨t, ht⟩ : ∃ t, (d.table userId).update now clientId = some t := by
    rcases ClientTable.modify_cases now (·.update now) (d.table userId) clientId with
      ⟨_, h⟩ | ⟨_, h⟩ <;> exact ⟨_, h⟩
  exact ⟨t, ht, by rw [update, ht]; rfl⟩

/-- No call of a valid object raises a `KeyError`. -/
theorem step_cases {d : AuthData kind κ} (hd : d.Valid) (now : Time) (op : Op kind κ) :
    ∃ accepted d', d.step now op = some (accepted, d') ∧ Stepped d now op accepted d' := by
  cases op with
  | insert userId clientId connectionId =>
    obtain ⟨accepted, t, ht, hi⟩ := ClientTable.insert_cases kind now d.maxClient clientId
      connectionId
      (hd userId).enable
    exact ⟨_, _, by rw [step, AuthData.insert, ht]; rfl, .insert hi⟩
  | update userId clientId =>
    obtain ⟨t, ht, hu⟩ := d.update_isSome now userId clientId
    exact ⟨_, _, by rw [step, hu]; rfl, .update ht⟩
  | remove h userId clientId =>
    obtain ⟨t, ht⟩ : ∃ t, (d.table userId).remove now clientId = some t := by
      rcases ClientTable.modify_cases now ClientQueue.delref (d.table userId) clientId with
        ⟨_, h⟩ | ⟨_, h⟩ <;> exact ⟨_, h⟩
    cases hc : d.userId.contains userId with
    | false => exact ⟨_, _, by rw [step, AuthData.remove, hc]; rfl, .absent⟩
    | true => exact ⟨_, _, by rw [step, AuthData.remove, hc, if_pos rfl, ht]; rfl, .remove ht⟩

/-- A call keeps the object valid. -/
theorem Stepped.valid {d d' : AuthData kind κ} {now : Time} {op : Op kind κ} {accepted : Bool}
    (h : Stepped d now op accepted d') (hd : d.Valid) : d'.Valid := by
  cases h with
  | insert hi => exact hd.set (hi.valid (hd _))
  | update hu => exact hd.set ((hd _).modify (f := (·.update now)) (fun _ => rfl) hu)
  | remove hu => exact hd.set ((hd _).modify ClientQueue.enable_delref hu)
  | absent => exact hd

/-! ## Replays -/

/-- Whatever queue the client has, the connection id is used in it. -/
def Remembers (d : AuthData kind κ) (userId : κ) (clientId : ℕ) (connectionId : ℤ) : Prop :=
  ∀ q, d.queue? userId clientId = some q → q.Seen connectionId

/-- The client has an active queue. -/
def Active (d : AuthData kind κ) (now : Time) (userId : κ) (clientId : ℕ) : Prop :=
  ∃ q, d.queue? userId clientId = some q ∧ q.isActive kind now = true

/-- Whenever `insert` is called for the client, its queue is in use: it has been neither
    evicted, nor left inactive. -/
def StaysActive (d : AuthData kind κ) (userId : κ) (clientId : ℕ)
    (calls : List (Time × Op kind κ)) : Prop :=
  Run.Throughout next
    (fun d (now, op) => ∀ connectionId, op = .insert userId clientId connectionId →
      d.Active now userId clientId) d calls

variable {d d' : AuthData kind κ} {now : Time} {op : Op kind κ} {accepted : Bool} {userId : κ}
  {clientId : ℕ} {connectionId : ℤ}

/-- An accepted id is used. -/
theorem remembers_of_accepted
    (h : Stepped d now (.insert userId clientId connectionId) true d') :
    d'.Remembers userId clientId connectionId := by
  cases h with
  | insert hi =>
    obtain ⟨q, hq, hs⟩ := hi.seen
    intro q' hq'
    rw [queue?_set, if_pos rfl, hq] at hq'
    cases hq'
    exact hs

/-- Changing a queue in place without touching its window. -/
theorem Remembers.modify {f : ClientQueue → ClientQueue} {t : ClientTable} {userId' : κ}
    {clientId' : ℕ} (hr : d.Remembers userId clientId connectionId)
    (hf : ∀ q, (f q).Seen connectionId ↔ q.Seen connectionId)
    (h : ClientTable.modify now f (d.table userId') clientId' = some t) :
    Remembers ({ d with userId := d.userId.set userId' t } : AuthData kind κ) userId clientId
      connectionId := by
  intro q hq
  rw [queue?_set] at hq
  split at hq
  · next hu =>
    rw [ClientTable.value?_modify h] at hq
    split at hq
    · next hc =>
      obtain ⟨q', hq', rfl⟩ := Option.map_eq_some_iff.1 hq
      exact (hf q').2 (hr q' (by rw [queue?, hu, hc, hq']))
    · exact hr q (by rw [queue?, hu, hq])
  · exact hr q hq

/-- A call keeps a used id used, unless it re-opens the window of the client. -/
theorem Stepped.remembers (h : Stepped d now op accepted d')
    (hr : d.Remembers userId clientId connectionId)
    (ha : ∀ id, op = .insert userId clientId id → d.Active now userId clientId) :
    d'.Remembers userId clientId connectionId := by
  cases h with
  | @insert userId' clientId' id _ t hi =>
    intro q hq
    rw [queue?_set] at hq
    split at hq
    · next hu =>
      subst hu
      by_cases hc : clientId = clientId'
      · subst hc
        obtain ⟨q₀, hq₀, hact⟩ := ha id rfl
        obtain ⟨-, heq⟩ := hi.known_eq hq₀
        rw [heq] at hq
        cases hq
        exact ClientQueue.seen_insert hact (.inl (hr q₀ hq₀))
      · exact hr q (hi.value?_other hc hq)
    · exact hr q hq
  | update hu => exact hr.modify (f := (·.update now)) (fun q => Iff.rfl) hu
  | remove hu => exact hr.modify (fun q => q.seen_delref) hu
  | absent => exact hr

theorem next_cases {d d' : AuthData kind κ} {call : Time × Op kind κ} (hd : d.Valid)
    (h : d.next call = some d') : ∃ accepted, Stepped d call.1 call.2 accepted d' := by
  obtain ⟨accepted, d₁, hstep, hst⟩ := step_cases hd call.1 call.2
  rw [next, hstep] at h
  cases h
  exact ⟨accepted, hst⟩

/-- No `KeyError` is raised along a run. -/
theorem run_isSome (calls : List (Time × Op kind κ)) (hd : d.Valid) :
    ∃ d', d.run calls = some d' ∧ d'.Valid :=
  Run.exec_isSome (fun d call hd => by
    obtain ⟨accepted, d', hstep, hst⟩ := step_cases hd call.1 call.2
    exact ⟨d', by rw [next, hstep]; rfl, hst.valid hd⟩) hd calls

/-- A used id stays used along a run in which the queue of the client stays in use. -/
theorem remembers_run {calls : List (Time × Op kind κ)} (hd : d.Valid)
    (hrun : d.run calls = some d') (hs : d.StaysActive userId clientId calls)
    (hr : d.Remembers userId clientId connectionId) :
    d'.Valid ∧ d'.Remembers userId clientId connectionId :=
  Run.exec_invariant (P := fun d => d.Valid ∧ d.Remembers userId clientId connectionId)
    (fun ⟨hd, hr⟩ ha hn => by
      obtain ⟨accepted, hst⟩ := next_cases hd hn
      exact ⟨hst.valid hd, hst.remembers hr ha⟩) ⟨hd, hr⟩ hs hrun

/-- A handshake is accepted in a run at `t₁`, and its repetition at `t₂` is refused, when the
    queue of the client stays in use in between. -/
theorem refused_of_staysActive {maxClient : ℤ} {before between : List (Time × Op kind κ)}
    {t₁ t₂ : Time} {d₁ d₂ d₃ : AuthData kind κ} {userId : κ} {clientId : ℕ} {connectionId : ℤ}
    (h₁ : run { maxClient } before = some d₁)
    (h₂ : d₁.step t₁ (.insert userId clientId connectionId) = some (true, d₂))
    (h₃ : d₂.run between = some d₃)
    (hs : d₂.StaysActive userId clientId
      (between ++ [(t₂, .insert userId clientId connectionId)])) :
    ∃ d₄, d₃.step t₂ (.insert userId clientId connectionId) = some (false, d₄) := by
  have hv₁ : d₁.Valid := by
    obtain ⟨d, hd, hv⟩ := run_isSome before (valid_new : Valid ({ maxClient } : AuthData kind κ))
    rw [h₁] at hd
    cases hd
    exact hv
  obtain ⟨_, _, hstep, hst⟩ := step_cases hv₁ t₁ (.insert userId clientId connectionId)
  rw [h₂] at hstep
  cases hstep
  obtain ⟨hv₃, hr⟩ := remembers_run (hst.valid hv₁) h₃ hs.left (remembers_of_accepted hst)
  obtain ⟨q, hq, ha⟩ := hs between _ [] d₃ rfl h₃ connectionId rfl
  obtain ⟨accepted, d₄, hstep, hst₄⟩ := step_cases hv₃ t₂ (.insert userId clientId connectionId)
  obtain rfl : accepted = false := by
    cases hst₄ with
    | insert hi =>
      rw [(hi.known_eq hq).1]
      exact ClientQueue.insert_of_seen ha (hr q hq)
  exact ⟨d₄, hstep⟩

/-- The connection of the first handshake being open, its repetition is refused. -/
theorem refused_of_staysActive_open : ∃ d₃ d₄ : ObfsAuthChainData,
    d₃.step 1 (.insert none 1 7) = some (false, d₄) := by
  obtain ⟨d₂, h₂⟩ : ∃ d₂, step ({} : ObfsAuthChainData) 0 (.insert none 1 7) = some (true, d₂) :=
    ⟨_, rfl⟩
  refine ⟨d₂, refused_of_staysActive (show run {} [] = some _ from rfl) h₂
    (show d₂.run [] = some _ from rfl)
    fun before call after d' hcalls hd' => ?_⟩
  cases before with
  | nil =>
    cases hcalls
    cases hd'
    cases h₂
    exact fun _ _ => ⟨_, rfl, by decide +kernel⟩
  | cons e before => simp at hcalls

/-- A client whose queue is not in use any more is accepted, whatever its connection id. -/
theorem accepted_of_not_isActive {q : ClientQueue} (hd : d.Valid)
    (hq : d.queue? userId clientId = some q) (ha : q.isActive kind now = false) :
    ∃ d', d.step now (.insert userId clientId connectionId) = some (true, d') := by
  obtain ⟨accepted, d', hstep, hst⟩ := step_cases hd now (.insert userId clientId connectionId)
  obtain rfl : accepted = true := by
    cases hst with
    | insert hi =>
      rw [(hi.known_eq hq).1]
      exact (ClientQueue.insert_of_not_isActive _ _ _ ((hd _).enable _ _ hq) ha).1
  exact ⟨d', hstep⟩

/-- New data accept everybody. -/
theorem accepted_new (now : Time) (userId : κ) (clientId : ℕ) (connectionId : ℤ) :
    ∃ d', ({} : AuthData kind κ).insert now userId clientId connectionId = some (true, d') := by
  obtain ⟨accepted, t, ht, hi⟩ := @ClientTable.insert_of_room kind now {} clientId connectionId 64
    rfl (.inl rfl)
  have hacc : accepted = true := by
    cases hi with
    | known hv _ => cases hv
    | room _ _ _ => exact ClientQueue.insert_new kind now connectionId
    | evict _ _ ho _ _ _ _ _ => cases ho
    | full _ _ ho _ _ _ _ => cases ho
  rw [hacc] at ht
  exact ⟨_, by rw [insert]; exact congrArg (· >>= _) ht⟩

/-- What the two calls of `op` return, at `t₁` and, after some other calls, at `t₂`. -/
def callTwice (maxClient : ℤ) (before : List (Time × Op kind κ)) (t₁ : Time)
    (between : List (Time × Op kind κ)) (t₂ : Time) (op : Op kind κ) : Option (Bool × Bool) := do
  let d ← run { maxClient } before
  let (accepted₁, d) ← d.step t₁ op
  let d ← d.run between
  let (accepted₂, _) ← d.step t₂ op
  some (accepted₁, accepted₂)

/-- No triple is accepted twice while the timestamp of its handshake is inside the window. -/
def NoReplay (kind : QueueKind) (κ : Type) [DecidableEq κ] : Prop :=
  ∀ (maxClient : ℤ) (before between : List (Time × Op kind κ)) (t₁ t₂ : Time) (userId : κ)
    (clientId : ℕ) (connectionId : ℤ) (utcTime : ℕ),
    (before.map Prod.fst ++ [t₁] ++ between.map Prod.fst ++ [t₂]).Pairwise (· ≤ ·) →
    InWindow t₁ utcTime → InWindow t₂ utcTime →
    callTwice maxClient before t₁ between t₂ (.insert userId clientId connectionId) ≠
      some (true, true)

/-- A handshake is accepted again one second after its connection was closed, or, with the
    `timed` queue, three minutes after the last one. -/
theorem accepts_replay : ¬NoReplay .refCounted (Option Bytes) ∧
    ¬NoReplay .timed (Option Bytes) ∧ ¬NoReplay .timed Unit := by
  refine ⟨fun h => ?_, fun h => ?_, fun h => ?_⟩
  · exact h 64 [] [(1, .remove rfl none 1)] 0 1 none 1 7 0 (by simp) (by decide) (by decide)
      (by decide +kernel)
  · exact h 64 [] [] 0 180 none 1 7 0 (by simp) (by decide) (by decide) (by decide +kernel)
  · exact h 64 [] [] 0 180 () 1 7 0 (by simp) (by decide) (by decide) (by decide +kernel)

end AuthData

end ShadowsocksR

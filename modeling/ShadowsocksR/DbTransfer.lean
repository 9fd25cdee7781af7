import ShadowsocksR.Lib.Run
import ShadowsocksR.ServerPool

/-!
# The bytes that are billed

Every round, `push_db_all_user` compares the bytes that the relays report for
each port with those it has billed, and offers the differences to the database,
which may accept any of them. When a relay has been stopped, its counters are
gone: its port is put into `force_update_transfer`, and the next round offers
what the round before had seen and not billed.

* `TransferBase.pushDbAllUser`: a round, for any database;
* `get?_lastUpdateTransfer_push`: the bytes billed after it;
* `updateAllUser_eq`: each kind of database accepts some of the increments.
-/

namespace ShadowsocksR

/-! ## The tables -/

/-- The tables of `TransferBase`. The cache of online users, which bills nothing, is left out. -/
structure TransferBase where
  /-- The bytes seen by the last round. -/
  lastGetTransfer : Dict ℕ Transfer := .empty
  /-- The bytes billed. -/
  lastUpdateTransfer : Dict ℕ Transfer := .empty
  /-- The ports that were stopped after the last round. -/
  forceUpdateTransfer : List ℕ := []
  pullOk : Bool := false
  /-- The ports with many users. -/
  muPorts : List ℕ := []

namespace TransferBase

/-- What `push_db_all_user` offers for a stopped port. -/
def forcedIncrement (t : TransferBase) (id : ℕ) : Option Transfer :=
  match t.lastGetTransfer.get? id, t.lastUpdateTransfer.get? id with
  | some get, some update => some (get - update)
  | _, _ => none

/-- What it offers for the others. -/
def increment (t : TransferBase) (currTransfer : Dict ℕ Transfer) (id : ℕ) : Option Transfer :=
  if id ∈ t.forceUpdateTransfer ∨ id ∈ t.muPorts then none
  else
    match currTransfer.get? id with
    | none => none
    | some curr =>
      match t.lastUpdateTransfer.get? id with
      | some last =>
        if curr.1 + curr.2 - last.1 - last.2 ≤ 0 then none else some (curr - last)
      | none => if curr.1 + curr.2 ≤ 0 then none else some curr

def dtTransfer (t : TransferBase) (currTransfer : Dict ℕ Transfer) : Dict ℕ Transfer :=
  let dt := Dict.empty.setAll t.forcedIncrement t.forceUpdateTransfer
  dt.setAll (t.increment currTransfer) currTransfer.keys

/-- The bytes billed, with the increments `updateTransfer`. -/
def billed (t : TransferBase) (updateTransfer : Dict ℕ Transfer) (id : ℕ) : Option Transfer :=
  if id ∈ t.forceUpdateTransfer then none
  else (updateTransfer.get? id).map fun dt => (t.lastUpdateTransfer.get? id).getD 0 + dt

/-- `push_db_all_user`, when the pool reports `currTransfer`. -/
def pushDbAllUser (t : TransferBase) (currTransfer : Dict ℕ Transfer)
    (updateAllUser : Dict ℕ Transfer → Dict ℕ Transfer) : TransferBase :=
  if t.pullOk then
    let updateTransfer := updateAllUser (t.dtTransfer currTransfer)
    let lastUpdate := t.lastUpdateTransfer.setAll (t.billed updateTransfer) updateTransfer.keys
    { t with
      lastUpdateTransfer := lastUpdate.delAll t.forceUpdateTransfer
      lastGetTransfer := currTransfer.delAll t.forceUpdateTransfer
      forceUpdateTransfer := [] }
  else t

variable {t : TransferBase} {curr : Dict ℕ Transfer}

theorem get?_dtTransfer_of_mem {id : ℕ} (h : id ∈ t.forceUpdateTransfer) :
    (t.dtTransfer curr).get? id = t.forcedIncrement id := by
  have hinc : t.increment curr id = none := if_pos (.inl h)
  rw [dtTransfer, Dict.get?_setAll, hinc, Option.none_or, ite_self, Dict.get?_setAll, if_pos h,
    Dict.get?_empty, Option.or_none]

theorem get?_dtTransfer_of_not_mem {id : ℕ} (h : id ∉ t.forceUpdateTransfer) :
    (t.dtTransfer curr).get? id = t.increment curr id := by
  rw [dtTransfer, Dict.get?_setAll, Dict.get?_setAll, if_neg h, Dict.get?_empty, Option.or_none]
  split_ifs with hid
  · rfl
  · have hnone : curr.get? id = none :=
      Dict.contains_eq_false.1 (Bool.eq_false_iff.2 fun hc => hid (Dict.mem_keys.2 hc))
    rw [increment, hnone, ite_self]

/-- What is offered for a port that was not stopped, if anything, is what is not billed. -/
theorem increment_eq_some {id : ℕ} {dt : Transfer} (h : t.increment curr id = some dt) :
    dt = (curr.get? id).getD 0 - (t.lastUpdateTransfer.get? id).getD 0 ∧ 0 < dt.1 + dt.2 := by
  rw [increment] at h
  split_ifs at h with hmem
  cases hcurr : curr.get? id with
  | none =>
    rw [hcurr] at h
    cases h
  | some now =>
    rw [hcurr] at h
    cases hlast : t.lastUpdateTransfer.get? id with
    | none =>
      rw [hlast] at h
      dsimp only at h
      split_ifs at h with hpos
      cases h
      exact ⟨by simp, by omega⟩
    | some last =>
      rw [hlast] at h
      dsimp only at h
      split_ifs at h with hpos
      cases h
      refine ⟨rfl, ?_⟩
      simp only [Prod.fst_sub, Prod.snd_sub]
      omega

theorem get?_lastGetTransfer_push (hpull : t.pullOk = true)
    (updateAllUser : Dict ℕ Transfer → Dict ℕ Transfer) (id : ℕ) :
    (t.pushDbAllUser curr updateAllUser).lastGetTransfer.get? id =
      if id ∈ t.forceUpdateTransfer then none else curr.get? id := by
  rw [pushDbAllUser, if_pos hpull, Dict.get?_delAll]

theorem get?_lastUpdateTransfer_push (hpull : t.pullOk = true)
    (updateAllUser : Dict ℕ Transfer → Dict ℕ Transfer) (id : ℕ) :
    (t.pushDbAllUser curr updateAllUser).lastUpdateTransfer.get? id =
      if id ∈ t.forceUpdateTransfer then none
      else (((updateAllUser (t.dtTransfer curr)).get? id).map fun dt =>
        (t.lastUpdateTransfer.get? id).getD 0 + dt).or (t.lastUpdateTransfer.get? id) := by
  rw [pushDbAllUser, if_pos hpull, Dict.get?_delAll]
  by_cases hid : id ∈ t.forceUpdateTransfer
  · rw [if_pos hid, if_pos hid]
  · rw [if_neg hid, if_neg hid, Dict.get?_setAll, billed, if_neg hid]
    split_ifs with hkey
    · rfl
    · have hnone : (updateAllUser (t.dtTransfer curr)).get? id = none :=
        Dict.contains_eq_false.1 (Bool.eq_false_iff.2 fun h => hkey (Dict.mem_keys.2 h))
      rw [hnone]
      rfl

theorem forceUpdateTransfer_push (hpull : t.pullOk = true)
    (updateAllUser : Dict ℕ Transfer → Dict ℕ Transfer) :
    (t.pushDbAllUser curr updateAllUser).forceUpdateTransfer = [] := by
  rw [pushDbAllUser, if_pos hpull]

end TransferBase

/-! ## The database -/

namespace DbTransfer

/-- The smallest increment that is written, after so many that were not. -/
def updateTrs (userPass : Dict ℕ ℕ) (id : ℕ) : ℤ := 1024 * (2048 - (userPass.get? id).getD 0 * 64)

/-- Whether an increment is put off; `forced` are the ports for which it is not. -/
def skips (forced : List ℕ) (userPass : Dict ℕ ℕ) (e : ℕ × Transfer) : Bool :=
  decide (e.2.1 + e.2.2 < updateTrs userPass e.1 ∧ e.1 ∉ forced)

/-- The loop of `update_all_user`: the increments to write, and how often others were put off. -/
def select (forced : List ℕ) :
    List (ℕ × Transfer) → Dict ℕ Transfer × Dict ℕ ℕ → Dict ℕ Transfer × Dict ℕ ℕ
  | [], acc => acc
  | e :: es, (updateTransfer, userPass) =>
    if skips forced userPass e then
      select forced es (updateTransfer, userPass.set e.1 ((userPass.get? e.1).getD 0 + 1))
    else select forced es (updateTransfer.set e.1 e.2, userPass.del e.1)

/-- `update_all_user` of `DbTransfer`, when the query succeeds or fails. -/
def updateAllUser (forceUpdateTransfer : List ℕ) (userPass : Dict ℕ ℕ) (queryOk : Bool)
    (dtTransfer : Dict ℕ Transfer) : Dict ℕ Transfer × Dict ℕ ℕ :=
  let (updateTransfer, userPass) := select forceUpdateTransfer dtTransfer.entries (.empty, userPass)
  (if queryOk then updateTransfer else .empty, userPass)

end DbTransfer

/-- `update_all_user` of `Dbv3Transfer`: stopped ports are put off like the others, and the
    outcome of the query is not looked at. -/
def Dbv3Transfer.updateAllUser (userPass : Dict ℕ ℕ) (dtTransfer : Dict ℕ Transfer) :
    Dict ℕ Transfer × Dict ℕ ℕ :=
  DbTransfer.select [] dtTransfer.entries (.empty, userPass)

/-- `update_all_user` of `MuJsonTransfer`. -/
def MuJsonTransfer.updateAllUser (dtTransfer : Dict ℕ Transfer) : Dict ℕ Transfer := dtTransfer

namespace DbTransfer

theorem skips_congr {forced : List ℕ} {userPass userPass' : Dict ℕ ℕ} {e : ℕ × Transfer}
    (h : userPass.get? e.1 = userPass'.get? e.1) :
    skips forced userPass e = skips forced userPass' e := by
  rw [skips, skips, updateTrs, updateTrs, h]

/-- The loop selects increments by what was put off before it. -/
theorem entries_select (forced : List ℕ) (es : List (ℕ × Transfer)) (upd : Dict ℕ Transfer)
    (userPass : Dict ℕ ℕ) (hnodup : (es.map Prod.fst).Nodup)
    (hupd : ∀ e ∈ es, ∀ e' ∈ upd.entries, e'.1 ≠ e.1) :
    (select forced es (upd, userPass)).1.entries =
      upd.entries ++ es.filter fun e => !skips forced userPass e := by
  induction es generalizing upd userPass with
  | nil => simp [select]
  | cons e es ih =>
    rw [List.map_cons, List.nodup_cons] at hnodup
    have hne : ∀ e' ∈ es, e'.1 ≠ e.1 := fun e' he' h =>
      hnodup.1 (List.mem_map.2 ⟨e', he', h⟩)
    rw [select]
    split_ifs with hskip
    · rw [ih _ _ hnodup.2 fun e' he' => hupd e' (List.mem_cons_of_mem _ he'),
        List.filter_cons_of_neg (by simp [hskip])]
      refine congrArg _ (List.filter_congr fun e' he' => congrArg _ (skips_congr ?_))
      exact Dict.get?_set_of_ne _ _ (hne e' he')
    · have hset : (upd.set e.1 e.2).entries = upd.entries ++ [e] :=
        Dict.setEntries_of_not_mem (hupd e List.mem_cons_self)
      rw [ih _ _ hnodup.2 fun e' he' e'' he'' => ?_, hset,
        List.filter_cons_of_pos (by simp [hskip]), List.append_assoc]
      · refine congrArg (fun l => upd.entries ++ (e :: l))
          (List.filter_congr fun e' he' => congrArg _ (skips_congr ?_))
        exact Dict.get?_del_of_ne _ (hne e' he')
      · rw [hset, List.mem_append] at he''
        rcases he'' with he'' | he''
        · exact hupd e' (List.mem_cons_of_mem _ he') e'' he''
        · rw [List.mem_singleton.1 he'']
          exact (hne e' he').symm

/-- The loop selects some of the increments. -/
theorem select_eq_restrict (forced : List ℕ) (dt : Dict ℕ Transfer) (userPass : Dict ℕ ℕ) :
    (select forced dt.entries (.empty, userPass)).1 =
      dt.restrict fun id => !skips forced userPass (id, (dt.get? id).getD 0) := by
  refine Dict.ext ((entries_select forced dt.entries .empty userPass dt.nodup
    fun e _ e' he' => absurd he' (by simp [Dict.empty])).trans ?_)
  refine List.filter_congr fun e he => ?_
  dsimp only
  rw [Dict.mem_entries.1 he]
  rfl

/-- `update_all_user` accepts a subset of what it is offered, and all stopped ports with it if the
    query succeeds. -/
theorem updateAllUser_eq (forced : List ℕ) (userPass : Dict ℕ ℕ) (queryOk : Bool)
    (dt : Dict ℕ Transfer) : (updateAllUser forced userPass queryOk dt).1 =
      dt.restrict fun id => queryOk && !skips forced userPass (id, (dt.get? id).getD 0) := by
  have hselect := select_eq_restrict forced dt userPass
  cases queryOk with
  | true => exact hselect
  | false => exact Dict.ext (List.filter_eq_nil_iff.2 fun e _ => Bool.false_ne_true).symm

theorem skips_of_mem {forced : List ℕ} {id : ℕ} (h : id ∈ forced) (userPass : Dict ℕ ℕ)
    (dt : Transfer) : skips forced userPass (id, dt) = false :=
  decide_eq_false fun hskip => hskip.2 h

end DbTransfer

/-- So does that of `Dbv3Transfer`, whatever becomes of the query. -/
theorem Dbv3Transfer.updateAllUser_eq (userPass : Dict ℕ ℕ) (dt : Dict ℕ Transfer) :
    (updateAllUser userPass dt).1 =
      dt.restrict fun id => !DbTransfer.skips [] userPass (id, (dt.get? id).getD 0) :=
  DbTransfer.select_eq_restrict [] dt userPass

theorem MuJsonTransfer.updateAllUser_eq (dt : Dict ℕ Transfer) :
    updateAllUser dt = dt.restrict fun _ => true :=
  Dict.ext (List.filter_eq_self.2 fun _ _ => rfl).symm

end ShadowsocksR

import ShadowsocksR.MuJson

/-!
# The users do not get into conflict

A file is without conflicts when its rows have different names, and different ports. Operations that
are each run to completion keep it so: a row is only added when its name and its port are new, and
an edit asks for the row with the name and the port that it sets.

* `MuRow.IsAsked`: the row that a method of the manager is asked for; there is at most one;
* `NoConflict`: the names are distinct, and so are the ports;
* `MuOp.Changes`: the rows that an operation may change, and how;
* `noConflict_replay`: what holds after, and in every step of, all operations.
-/

namespace ShadowsocksR

open ReadModifyWrite

/-! ## The row that is asked for -/

namespace MuRow

/-- The row has the value that the user is given with, if there is one. -/
def Agrees (row user : MuRow) (key : List Char) : Prop :=
  ∀ value, user.get? key = some value → row.get? key = some value

/-- The row has the name and the port, if they are given. -/
def IsAsked (row user : MuRow) : Prop := row.Agrees user userKey ∧ row.Agrees user portKey

/-- The row has a name and a port. -/
def Complete (row : MuRow) : Prop :=
  row.contains userKey = true ∧ row.contains portKey = true

variable {row user : MuRow} {key : List Char}

/-- What has been asked for is not changed by setting it. -/
theorem Agrees.get?_update (h : row.Agrees user key) : (row.update user).get? key = row.get? key := by
  rw [Dict.get?_update]
  cases huser : user.get? key with
  | none => exact Option.none_or
  | some value => rw [h value huser, Option.some_or]

theorem hasOther_spec (user : MuRow) (h : row.contains key = true) :
    row.hasOther user key = .ok false ∧ row.Agrees user key ∨
      row.hasOther user key = .ok true ∧ ¬row.Agrees user key := by
  obtain ⟨value, hvalue⟩ := Dict.contains_eq_true.1 h
  rw [hasOther, Agrees, getItem, hvalue]
  cases huser : user.get? key with
  | none => exact .inl ⟨rfl, fun value' hvalue' => nomatch hvalue'⟩
  | some value' =>
    by_cases heq : value = value'
    · refine .inl ⟨by simp [Except.map, heq], fun v hv => ?_⟩
      rw [← hv, heq]
    · refine .inr ⟨by simp [Except.map, heq], fun hagrees => heq ?_⟩
      exact Option.some.inj (hagrees value' rfl)

/-- In a row with a name and a port, the match does not raise. -/
theorem isAsked_spec (h : row.Complete) :
    row.isAsked user = .ok true ∧ row.IsAsked user ∨
      row.isAsked user = .ok false ∧ ¬row.IsAsked user := by
  rcases hasOther_spec user h.1 with ⟨hu, hu'⟩ | ⟨hu, hu'⟩ <;>
    rcases hasOther_spec user h.2 with ⟨hp, hp'⟩ | ⟨hp, hp'⟩ <;>
    rw [isAsked, hu, hp]
  · exact .inl ⟨rfl, hu', hp'⟩
  · exact .inr ⟨rfl, fun hasked => hp' hasked.2⟩
  · exact .inr ⟨rfl, fun hasked => hu' hasked.1⟩
  · exact .inr ⟨rfl, fun hasked => hu' hasked.1⟩

theorem isAsked_of_isAsked (h : row.Complete) (hasked : row.IsAsked user) :
    row.isAsked user = .ok true :=
  (isAsked_spec h).elim And.left fun hnot => absurd hasked hnot.2

theorem isAsked_of_not_isAsked (h : row.Complete) (hasked : ¬row.IsAsked user) :
    row.isAsked user = .ok false :=
  (isAsked_spec h).elim (fun hyes => absurd hyes.2 hasked) And.left

theorem getItem_of_contains (h : row.contains key = true) : ∃ value, row.getItem key = .ok value := by
  obtain ⟨value, hvalue⟩ := Dict.contains_eq_true.1 h
  exact ⟨value, by rw [getItem, hvalue]⟩

/-- A row that is not taken has another name, if the user has one. -/
theorem ne_of_hasSame (h : row.contains key = true) (hsame : row.hasSame user key = .ok false)
    (huser : user.contains key = true) : row.get? key ≠ user.get? key := by
  obtain ⟨value, hvalue⟩ := Dict.contains_eq_true.1 h
  obtain ⟨value', hvalue'⟩ := Dict.contains_eq_true.1 huser
  rw [hasSame, getItem, hvalue, hvalue'] at hsame
  rw [hvalue, hvalue']
  intro heq
  rw [Option.some.inj heq] at hsame
  simp [Except.map] at hsame

theorem isTaken_eq_ok_false (h : row.isTaken user = .ok false) :
    row.hasSame user userKey = .ok false ∧ row.hasSame user portKey = .ok false := by
  obtain ⟨sameUser, hu, h⟩ := bind_eq_ok.1 h
  obtain ⟨samePort, hp, h⟩ := bind_eq_ok.1 h
  obtain ⟨rfl, rfl⟩ := Bool.or_eq_false_iff.1 (Except.ok.inj h)
  exact ⟨hu, hp⟩

end MuRow

/-! ## Files without conflicts -/

/-- The values of the rows at a key. -/
def column (key : List Char) (rows : List MuRow) : List (Option JsonValue) :=
  rows.map fun row => row.get? key

/-- The rows have different values at a key. -/
structure Distinct (key : List Char) (rows : List MuRow) : Prop where
  nodup : (column key rows).Nodup
  complete : ∀ row ∈ rows, row.contains key = true

/-- The rows have different names, and different ports. -/
structure NoConflict (rows : List MuRow) : Prop where
  users : Distinct MuRow.userKey rows
  ports : Distinct MuRow.portKey rows

section

variable {key : List Char} {rows rows' before after : List MuRow} {row row' user : MuRow}

theorem Distinct.nil : Distinct key [] := ⟨.nil, fun _ h => nomatch h⟩

theorem Distinct.sublist (h : Distinct key rows) (hrows : rows'.Sublist rows) : Distinct key rows' :=
  ⟨h.nodup.sublist (hrows.map _), fun row hrow => h.complete row (hrows.subset hrow)⟩

/-- Changing rows elsewhere. -/
theorem Distinct.of_column_eq (h : Distinct key rows) (hcolumn : column key rows' = column key rows) :
    Distinct key rows' := by
  refine ⟨hcolumn ▸ h.nodup, fun row hrow => ?_⟩
  have hmem : row.get? key ∈ column key rows := hcolumn ▸ List.mem_map_of_mem hrow
  obtain ⟨row', hrow', hget⟩ := List.mem_map.1 hmem
  have hcontains := h.complete row' hrow'
  rwa [Dict.contains, hget] at hcontains

/-- Adding a row with a new value. -/
theorem Distinct.append (h : Distinct key rows) (hrow : row.contains key = true)
    (hnew : ∀ row' ∈ rows, row'.get? key ≠ row.get? key) : Distinct key (rows ++ [row]) := by
  refine ⟨?_, fun row' hrow' => ?_⟩
  · rw [column, List.map_append, List.nodup_append]
    refine ⟨h.nodup, List.nodup_singleton _, fun value hvalue value' hvalue' => ?_⟩
    obtain ⟨row', hrow', rfl⟩ := List.mem_map.1 hvalue
    obtain rfl := List.mem_singleton.1 hvalue'
    exact hnew row' hrow'
  · rcases List.mem_append.1 hrow' with hrow' | hrow'
    · exact h.complete row' hrow'
    · rwa [List.mem_singleton.1 hrow']

/-- Another row has another value. -/
theorem Distinct.ne (h : Distinct key (before ++ row :: after)) (hrow' : row' ∈ before ++ after) :
    row'.get? key ≠ row.get? key := by
  have hmiddle : (before ++ row :: after).Perm (row :: (before ++ after)) := List.perm_middle
  have hperm := hmiddle.map (·.get? key)
  have hnodup := hperm.nodup_iff.1 h.nodup
  intro heq
  exact (List.nodup_cons.1 hnodup).1 (List.mem_map.2 ⟨row', hrow', heq⟩)

theorem NoConflict.complete (h : NoConflict rows) (hrow : row ∈ rows) : row.Complete :=
  ⟨h.users.complete row hrow, h.ports.complete row hrow⟩

/-- The name or the port is given. -/
def MuRow.IsGiven (user : MuRow) : Prop :=
  user.contains MuRow.userKey = true ∨ user.contains MuRow.portKey = true

/-- At most one row is asked for. -/
theorem NoConflict.isAsked_unique (h : NoConflict (before ++ row :: after)) (huser : user.IsGiven)
    (hrow : row.IsAsked user) (hrow' : row' ∈ before ++ after) : ¬row'.IsAsked user := by
  intro hasked
  rcases huser with huser | huser <;> obtain ⟨value, hvalue⟩ := Dict.contains_eq_true.1 huser
  · exact h.users.ne hrow' ((hasked.1 value hvalue).trans (hrow.1 value hvalue).symm)
  · exact h.ports.ne hrow' ((hasked.2 value hvalue).trans (hrow.2 value hvalue).symm)

/-- One row is asked for, or none. -/
theorem NoConflict.isAsked_cases (h : NoConflict rows) (huser : user.IsGiven) :
    (∀ row ∈ rows, ¬row.IsAsked user) ∨ ∃ before row after, rows = before ++ row :: after ∧
      row.IsAsked user ∧ ∀ row' ∈ before ++ after, ¬row'.IsAsked user := by
  by_cases hasked : ∃ row ∈ rows, row.IsAsked user
  · obtain ⟨row, hrow, hasked⟩ := hasked
    obtain ⟨before, after, rfl⟩ := List.append_of_mem hrow
    exact .inr ⟨before, row, after, rfl, hasked, fun row' => h.isAsked_unique huser hasked⟩
  · exact .inl fun row hrow hrow' => hasked ⟨row, hrow, hrow'⟩

/-! ## The loops over the rows -/

/-- A loop that only keeps the rows at the front keeps them all. -/
theorem append_of_cons {f : List MuRow → Except PyExc (List MuRow)} {skips : MuRow → Prop}
    (hf : ∀ row rows, skips row → f (row :: rows) = (f rows).map (row :: ·))
    (h : ∀ row ∈ before, skips row) (rows : List MuRow) :
    f (before ++ rows) = (f rows).map (before ++ ·) := by
  induction before with
  | nil => cases hrows : f rows <;> simp [hrows, Except.map]
  | cons row before ih =>
    rw [List.cons_append, hf _ _ (h row List.mem_cons_self),
      ih fun row' hrow' => h row' (List.mem_cons_of_mem _ hrow')]
    cases f rows <;> rfl

/-- The rows that the methods of the manager pass over. -/
def MuRow.IsOther (user row : MuRow) : Prop := row.Complete ∧ ¬row.IsAsked user

namespace MuMgr

/-- A row that is not asked for is kept, -/
theorem deleteRows_cons_other (row : MuRow) (rows : List MuRow) (h : MuRow.IsOther user row) :
    deleteRows user (row :: rows) = (deleteRows user rows).map (row :: ·) := by
  rw [deleteRows, MuRow.isAsked_of_not_isAsked h.1 h.2]
  cases deleteRows user rows <;> rfl

theorem editRows_cons_other {userinfo : UserInfo} (row : MuRow) (rows : List MuRow)
    (h : MuRow.IsOther user row) :
    editRows userinfo user (row :: rows) = (editRows userinfo user rows).map (row :: ·) := by
  rw [editRows, MuRow.isAsked_of_not_isAsked h.1 h.2]
  cases editRows userinfo user rows <;> rfl

theorem clearRows_cons_other (row : MuRow) (rows : List MuRow) (h : MuRow.IsOther user row) :
    clearRows user (row :: rows) = (clearRows user rows).map (row :: ·) := by
  rw [clearRows, clearRow, MuRow.isAsked_of_not_isAsked h.1 h.2]
  cases clearRows user rows <;> rfl

/-- and the one that is asked for is deleted, -/
theorem deleteRows_cons (h : row.Complete) (hasked : row.IsAsked user) (rows : List MuRow) :
    deleteRows user (row :: rows) = .ok rows := by
  obtain ⟨value, hvalue⟩ := MuRow.getItem_of_contains h.1
  rw [deleteRows, MuRow.isAsked_of_isAsked h hasked]
  simp only [bind, Except.bind, if_true, hvalue]
  rfl

/-- or edited, unless `userinfo` raises, -/
theorem editRows_cons {userinfo : UserInfo} (h : row.Complete) (hasked : row.IsAsked user)
    (rows : List MuRow) :
    editRows userinfo user (row :: rows) =
      (userinfo (row.update user)).map fun _ => row.update user :: rows := by
  obtain ⟨value, hvalue⟩ := MuRow.getItem_of_contains h.1
  rw [editRows, MuRow.isAsked_of_isAsked h hasked]
  simp only [bind, Except.bind, if_true, hvalue]
  cases userinfo (row.update user) <;> rfl

/-- Both counters of a row are zero. -/
def cleared (row : MuRow) : MuRow := (row.set MuRow.uKey (.int 0)).set MuRow.dKey (.int 0)

/-- or cleared. -/
theorem clearRows_cons (h : row.Complete) (hasked : row.IsAsked user) (rows : List MuRow) :
    clearRows user (row :: rows) = (clearRows user rows).map (cleared row :: ·) := by
  have hcleared : (cleared row).contains MuRow.userKey = true := by
    rw [cleared, Dict.contains_set, Dict.contains_set, h.1, Bool.or_true, Bool.or_true]
  obtain ⟨value, hvalue⟩ := MuRow.getItem_of_contains hcleared
  rw [cleared] at hvalue
  rw [clearRows, clearRow, MuRow.isAsked_of_isAsked h hasked]
  simp only [bind, Except.bind, if_true, hvalue]
  cases clearRows user rows <;> rfl

theorem cleared_get? (row : MuRow) (hu : key ≠ MuRow.uKey) (hd : key ≠ MuRow.dKey) :
    (cleared row).get? key = row.get? key := by
  rw [cleared, Dict.get?_set_of_ne _ _ hd, Dict.get?_set_of_ne _ _ hu]

/-- A user is added when no row has the name or the port. -/
theorem anyM_isTaken_eq_ok_false (h : (rows.anyM fun row => row.isTaken user) = .ok false) :
    ∀ row ∈ rows, row.isTaken user = .ok false := by
  induction rows with
  | nil => exact fun _ hrow => nomatch hrow
  | cons row rows ih =>
    rw [List.anyM] at h
    obtain ⟨taken, htaken, h⟩ := bind_eq_ok.1 h
    cases taken with
    | true => cases h
    | false => exact List.forall_mem_cons.2 ⟨htaken, ih h⟩

end MuMgr

/-- An update only changes the counters, and only of the rows whose port has an increment. -/
def MuRow.IsUpdated (dtTransfer : Dict ℕ Transfer) (row row' : MuRow) : Prop :=
  (∀ key, key ≠ MuRow.uKey → key ≠ MuRow.dKey → row'.get? key = row.get? key) ∧
    ((∀ port : ℕ, dtTransfer.contains port = true →
      row.get? MuRow.portKey ≠ some (.int port)) → row' = row)

theorem MuRow.column_eq_of_isUpdated {dtTransfer : Dict ℕ Transfer}
    (h : List.Forall₂ (MuRow.IsUpdated dtTransfer) rows rows') (hu : key ≠ MuRow.uKey)
    (hd : key ≠ MuRow.dKey) : column key rows' = column key rows := by
  induction h with
  | nil => rfl
  | cons hrow _ ih => exact congrArg₂ List.cons (hrow.1 key hu hd) ih

namespace MuJsonTransfer

theorem isUpdated_updateRow {dtTransfer : Dict ℕ Transfer}
    (h : updateRow dtTransfer row = .ok row') : row.IsUpdated dtTransfer row' := by
  rw [updateRow] at h
  split at h
  · next port hport =>
    split at h
    · next dt hdt =>
      split_ifs at hdt with hpos
      obtain ⟨row₁, h₁, h₂⟩ := bind_eq_ok.1 h
      obtain ⟨u, hu, rfl⟩ := MuRow.increase_eq_ok h₁
      obtain ⟨d, hd, rfl⟩ := MuRow.increase_eq_ok h₂
      refine ⟨fun key hu hd => ?_, fun hnone => ?_⟩
      · rw [Dict.get?_set_of_ne _ _ hd, Dict.get?_set_of_ne _ _ hu]
      · refine absurd ?_ (hnone port.toNat (Dict.contains_eq_true.2 ⟨dt, hdt⟩))
        rw [hport, Int.toNat_of_nonneg hpos]
    · cases h
      exact ⟨fun _ _ _ => rfl, fun _ => rfl⟩
  · cases h
    exact ⟨fun _ _ _ => rfl, fun _ => rfl⟩

theorem isUpdated_updateRows {dtTransfer : Dict ℕ Transfer}
    (h : updateRows dtTransfer rows = .ok rows') :
    List.Forall₂ (MuRow.IsUpdated dtTransfer) rows rows' := by
  induction rows generalizing rows' with
  | nil =>
    cases h
    exact .nil
  | cons row rows ih =>
    obtain ⟨row', h₁, h⟩ := bind_eq_ok.1 h
    obtain ⟨rows', h₂, h⟩ := bind_eq_ok.1 h
    cases h
    exact .cons (isUpdated_updateRow h₁) (ih h₂)

end MuJsonTransfer

/-! ## Operations -/

/-- The row that is asked for becomes what it may become, if there is such a row. -/
def ChangesAsked (user : MuRow) (may : MuRow → List MuRow → Prop) (rows rows' : List MuRow) :
    Prop :=
  (∀ row ∈ rows, ¬row.IsAsked user) ∧ rows' = rows ∨
    ∃ before row after new, rows = before ++ row :: after ∧ row.IsAsked user ∧
      (∀ row' ∈ before ++ after, ¬row'.IsAsked user) ∧ may row new ∧
      rows' = before ++ (new ++ after)

namespace MuOp

/-- What the manager is given: a name and a port to add a user, or at least one of them. -/
def IsGiven : MuOp → Prop
  | .add _ user => user.Complete
  | .edit user | .delete user | .clearUd user => user.IsGiven
  | .updateAllUser _ => True

/-- How an operation changes the rows. -/
def Changes (op : MuOp) (rows rows' : List MuRow) : Prop :=
  match op with
  | .add passwd user => rows' = rows ∨
      (∀ row ∈ rows, row.get? MuRow.userKey ≠ user.get? MuRow.userKey ∧
        row.get? MuRow.portKey ≠ user.get? MuRow.portKey) ∧
      rows' = rows ++ [(MuMgr.defaults passwd).update user]
  | .edit user =>
    -- `userinfo` may raise, before the file is saved.
    ChangesAsked user (fun row new => new = [row.update user] ∨ new = [row]) rows rows'
  | .delete user => ChangesAsked user (fun _ new => new = []) rows rows'
  | .clearUd user => ChangesAsked user (fun row new => new = [MuMgr.cleared row]) rows rows'
  | .updateAllUser dtTransfer => List.Forall₂ (MuRow.IsUpdated dtTransfer) rows rows'

end MuOp

/-- The rows of a file. -/
def rowsOf (file : MuFile) : List MuRow := file.getD []

variable {userinfo : MuMgr.UserInfo} {file : MuFile} {op : MuOp}

/-- The rows after an operation of the manager: those that the loop has left, if it has not
    raised. -/
theorem rowsOf_effect_of_save {r : Except PyExc (List MuRow)}
    (h : op.run userinfo file = MuMgr.save r) :
    rowsOf ((muJson userinfo).effect file op) = r.toOption.getD (rowsOf file) := by
  rw [Program.effect, muJson_run, h]
  cases r <;> rfl

/-- A method that keeps the other rows changes the one that is asked for. -/
theorem NoConflict.changesAsked (h : NoConflict rows) (huser : user.IsGiven)
    {loop : List MuRow → Except PyExc (List MuRow)} {may : MuRow → List MuRow → Prop}
    (hnil : loop [] = .ok [])
    (hother : ∀ row rows, MuRow.IsOther user row → loop (row :: rows) = (loop rows).map (row :: ·))
    (hasked : ∀ row after, row.Complete → row.IsAsked user → loop after = .ok after →
      ∃ new, may row new ∧ (loop (row :: after)).toOption.getD (row :: after) = new ++ after) :
    ChangesAsked user may rows ((loop rows).toOption.getD rows) := by
  have hend (after : List MuRow) (hafter : ∀ row ∈ after, MuRow.IsOther user row) :
      loop after = .ok after := by
    have happend := append_of_cons hother hafter []
    rwa [hnil, List.append_nil, Except.map, List.append_nil] at happend
  rcases h.isAsked_cases huser with hnone | ⟨before, row, after, rfl, hrow, hothers⟩
  · rw [hend rows fun row hrow => ⟨h.complete hrow, hnone row hrow⟩]
    exact .inl ⟨hnone, rfl⟩
  · have hbefore : ∀ row' ∈ before, MuRow.IsOther user row' := fun row' hrow' =>
      ⟨h.complete (List.mem_append_left _ hrow'), hothers row' (List.mem_append_left _ hrow')⟩
    have hafter : ∀ row' ∈ after, MuRow.IsOther user row' := fun row' hrow' =>
      ⟨h.complete (List.mem_append_right _ (List.mem_cons_of_mem _ hrow')),
        hothers row' (List.mem_append_right _ hrow')⟩
    obtain ⟨new, hmay, hnew⟩ := hasked row after (h.complete (by simp)) hrow (hend after hafter)
    refine .inr ⟨before, row, after, new, rfl, hrow, hothers, hmay, ?_⟩
    rw [append_of_cons hother hbefore, ← hnew]
    cases loop (row :: after) <;> rfl

/-- Every operation, run to completion, changes only what it should. -/
theorem changes_effect (userinfo : MuMgr.UserInfo) (h : NoConflict (rowsOf file))
    (hop : op.IsGiven) :
    op.Changes (rowsOf file) (rowsOf ((muJson userinfo).effect file op)) := by
  cases op with
  | add passwd user =>
    have hrun : (muJson userinfo).run (.add passwd user) file =
        MuMgr.add userinfo passwd user (rowsOf file) := rfl
    rw [Program.effect, hrun, MuMgr.add]
    cases htaken : (rowsOf file).anyM fun row => row.isTaken user with
    | error e => exact .inl rfl
    | ok taken =>
      cases taken with
      | true => exact .inl rfl
      | false =>
        have hnew := MuMgr.anyM_isTaken_eq_ok_false htaken
        cases hinfo : userinfo ((MuMgr.defaults passwd).update user) with
        | error e =>
          left
          simp only [hinfo]
        | ok _ =>
          refine .inr ⟨fun row hrow => ?_, ?_⟩
          · obtain ⟨hsameUser, hsamePort⟩ := MuRow.isTaken_eq_ok_false (hnew row hrow)
            exact ⟨MuRow.ne_of_hasSame (h.complete hrow).1 hsameUser hop.1,
              MuRow.ne_of_hasSame (h.complete hrow).2 hsamePort hop.2⟩
          · simp only [hinfo]
            rfl
  | edit user =>
    rw [rowsOf_effect_of_save rfl]
    refine h.changesAsked hop rfl MuMgr.editRows_cons_other fun row after hc ha _ => ?_
    rw [MuMgr.editRows_cons hc ha]
    cases userinfo (row.update user) with
    | error e => exact ⟨[row], .inr rfl, rfl⟩
    | ok _ => exact ⟨[row.update user], .inl rfl, rfl⟩
  | delete user =>
    rw [rowsOf_effect_of_save rfl]
    refine h.changesAsked hop rfl MuMgr.deleteRows_cons_other fun row after hc ha _ => ⟨[], rfl, ?_⟩
    rw [MuMgr.deleteRows_cons hc ha]
    rfl
  | clearUd user =>
    rw [rowsOf_effect_of_save rfl]
    refine h.changesAsked hop rfl MuMgr.clearRows_cons_other fun row after hc ha hafter =>
      ⟨[MuMgr.cleared row], rfl, ?_⟩
    rw [MuMgr.clearRows_cons hc ha, hafter]
    rfl
  | updateAllUser dtTransfer =>
    have hself : List.Forall₂ (MuRow.IsUpdated dtTransfer) (rowsOf file) (rowsOf file) :=
      List.forall₂_same.2 fun row _ => ⟨fun _ _ _ => rfl, fun _ => rfl⟩
    cases file with
    | none => exact hself
    | some rows =>
      rw [Program.effect, muJson_run, MuOp.run]
      cases hrows : MuJsonTransfer.updateRows dtTransfer rows with
      | error e => exact hself
      | ok rows' =>
        have hupdated := MuJsonTransfer.isUpdated_updateRows hrows
        cases rows' with
        | nil => exact hself
        | cons row' rows' => exact hupdated

theorem NoConflict.of_changesAsked (h : NoConflict rows) {may : MuRow → List MuRow → Prop}
    (hchanges : ChangesAsked user may rows rows')
    (hmay : ∀ row new, row.IsAsked user → may row new → new = [] ∨ ∃ row', new = [row'] ∧
      row'.get? MuRow.userKey = row.get? MuRow.userKey ∧
      row'.get? MuRow.portKey = row.get? MuRow.portKey) : NoConflict rows' := by
  rcases hchanges with ⟨-, rfl⟩ | ⟨before, row, after, new, rfl, hasked, -, hnew, rfl⟩
  · exact h
  rcases hmay row new hasked hnew with rfl | ⟨row', rfl, huser, hport⟩
  · have hsub : (before ++ ([] ++ after)).Sublist (before ++ row :: after) :=
      (List.Sublist.refl before).append (List.sublist_cons_self row after)
    exact ⟨h.users.sublist hsub, h.ports.sublist hsub⟩
  · refine ⟨h.users.of_column_eq ?_, h.ports.of_column_eq ?_⟩
    · simp [column, huser]
    · simp [column, hport]

/-- Such changes lead to no conflicts. -/
theorem NoConflict.of_changes (h : NoConflict rows) (hop : op.IsGiven)
    (hchanges : op.Changes rows rows') : NoConflict rows' := by
  cases op with
  | add passwd user =>
    rcases hchanges with rfl | ⟨hnew, rfl⟩
    · exact h
    have hadded {key : List Char} (hkey : user.contains key = true) :
        ((MuMgr.defaults passwd).update user).get? key = user.get? key := by
      obtain ⟨value, hvalue⟩ := Dict.contains_eq_true.1 hkey
      rw [Dict.get?_update, hvalue, Option.some_or]
    refine ⟨h.users.append ?_ fun row hrow => ?_, h.ports.append ?_ fun row hrow => ?_⟩
    · rw [Dict.contains_update, hop.1, Bool.or_true]
    · exact hadded hop.1 ▸ (hnew row hrow).1
    · rw [Dict.contains_update, hop.2, Bool.or_true]
    · exact hadded hop.2 ▸ (hnew row hrow).2
  | edit user =>
    refine h.of_changesAsked hchanges fun row new hasked hnew => .inr ?_
    rcases hnew with rfl | rfl
    · exact ⟨_, rfl, hasked.1.get?_update, hasked.2.get?_update⟩
    · exact ⟨row, rfl, rfl, rfl⟩
  | delete user => exact h.of_changesAsked hchanges fun _ _ _ => .inl
  | clearUd user =>
    exact h.of_changesAsked hchanges fun row new _ hnew => .inr ⟨_, hnew,
      MuMgr.cleared_get? row (by decide) (by decide), MuMgr.cleared_get? row (by decide) (by decide)⟩
  | updateAllUser dtTransfer =>
    have hcolumn {key : List Char} (hu : key ≠ MuRow.uKey) (hd : key ≠ MuRow.dKey) :
        column key rows' = column key rows :=
      MuRow.column_eq_of_isUpdated hchanges hu hd
    exact ⟨h.users.of_column_eq (hcolumn (by decide) (by decide)),
      h.ports.of_column_eq (hcolumn (by decide) (by decide))⟩

/-- However often rows are added, edited, deleted, cleared and updated, each time to completion, the
    names and the ports stay distinct, and every operation changes only what it should. -/
theorem noConflict_replay {ops : List MuOp} (hfile : NoConflict (rowsOf file))
    (hops : ∀ op ∈ ops, op.IsGiven) :
    NoConflict (rowsOf ((muJson userinfo).replay file ops)) ∧
      ∀ before op after, ops = before ++ op :: after →
        NoConflict (rowsOf ((muJson userinfo).replay file before)) ∧
        op.Changes (rowsOf ((muJson userinfo).replay file before))
          (rowsOf ((muJson userinfo).replay file (before ++ [op]))) := by
  induction ops generalizing file with
  | nil => exact ⟨hfile, fun before op after h => by simp at h⟩
  | cons op ops ih =>
    obtain ⟨hop, hops⟩ := List.forall_mem_cons.1 hops
    have hchanges := changes_effect userinfo hfile hop
    obtain ⟨hend, hsteps⟩ := ih (hfile.of_changes hop hchanges) hops
    refine ⟨hend, fun before op' after h => ?_⟩
    cases before with
    | nil =>
      cases h
      exact ⟨hfile, hchanges⟩
    | cons op'' before =>
      cases h
      exact hsteps before op' after rfl

end

/-- A second user, with a name and a port. -/
def secondUser : MuRow :=
  (Dict.empty.set MuRow.userKey (.str "b".toList)).set MuRow.portKey (.int 1002)

/-- Every operation once: in the end the first user is deleted. -/
def eachOnce : List MuOp :=
  [.add "q".toList secondUser, .edit newPasswd, .updateAllUser someTraffic, .clearUd secondUser,
    .delete (Dict.empty.set MuRow.portKey (.int 1001))]

theorem noConflict_replay_eachOnce :
    column MuRow.portKey (rowsOf ((muJson fun _ => .ok ()).replay oneRow eachOnce)) =
        [some (.int 1002)] ∧
      NoConflict (rowsOf ((muJson fun _ => .ok ()).replay oneRow eachOnce)) ∧
      ∀ before op after, eachOnce = before ++ op :: after →
        NoConflict (rowsOf ((muJson fun _ => .ok ()).replay oneRow before)) ∧
        op.Changes (rowsOf ((muJson fun _ => .ok ()).replay oneRow before))
          (rowsOf ((muJson fun _ => .ok ()).replay oneRow (before ++ [op]))) := by
  refine ⟨by decide, noConflict_replay ⟨⟨by decide, ?_⟩, ⟨by decide, ?_⟩⟩ ?_⟩
  · exact List.forall_mem_singleton.2 (by decide)
  · exact List.forall_mem_singleton.2 (by decide)
  · intro op hop
    simp only [eachOnce, List.mem_cons, List.not_mem_nil, or_false] at hop
    rcases hop with rfl | rfl | rfl | rfl | rfl
    · exact ⟨by decide, by decide⟩
    · exact .inr (by decide)
    · trivial
    · exact .inl (by decide)
    · exact .inr (by decide)

end ShadowsocksR

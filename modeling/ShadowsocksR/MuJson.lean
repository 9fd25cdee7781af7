import ShadowsocksR.Common
import ShadowsocksR.DbTransfer
import ShadowsocksR.Lib.ReadModifyWrite

/-!
# The users in a file

Without a database, the users are rows of a JSON file. The manager (`MuMgr`) adds, edits and deletes
rows and clears their traffic, and the server (`MuJsonTransfer`) adds the traffic of its relays to
them. Each of them loads the file, and saves the whole of it after that.

* `MuMgr.add`, `MuMgr.edit`, `MuMgr.delete`, `MuMgr.clearUd`, `MuJsonTransfer.updateRows`: what they
  make of the rows;
* `muJson`: the program of the two processes;
* `included_updateRows`: an update adds its increments to the rows of their ports;
* `reflects_of_current`: while each saves over what it has loaded, the file reflects all of them.
-/

namespace ShadowsocksR

open ReadModifyWrite

/-! ## Rows -/

/-- A value in a row. -/
inductive JsonValue
  | int (n : ℤ)
  | str (s : List Char)
  deriving DecidableEq

/-- A row: a user. -/
abbrev MuRow : Type := Dict (List Char) JsonValue

/-- The rows of the file, if there is one. -/
abbrev MuFile : Type := Option (List MuRow)

namespace MuRow

def userKey : List Char := "user".toList
def portKey : List Char := "port".toList
def uKey : List Char := ['u']
def dKey : List Char := ['d']

/-- `row[key]` -/
def getItem (row : MuRow) (key : List Char) : Except PyExc JsonValue :=
  match row.get? key with
  | some value => .ok value
  | none => .error .keyError

/-- `key in user and row[key] == user[key]` -/
def hasSame (row user : MuRow) (key : List Char) : Except PyExc Bool :=
  match user.get? key with
  | none => .ok false
  | some value => (row.getItem key).map fun value' => value' = value

/-- `key in user and row[key] != user[key]` -/
def hasOther (row user : MuRow) (key : List Char) : Except PyExc Bool :=
  match user.get? key with
  | none => .ok false
  | some value => (row.getItem key).map fun value' => value' ≠ value

/-- `match` in `add`: the row has the name or the port of the user. -/
def isTaken (row user : MuRow) : Except PyExc Bool := do
  let sameUser ← row.hasSame user userKey
  let samePort ← row.hasSame user portKey
  pure (sameUser || samePort)

/-- `match` in the other methods: the row is the one that is asked for. -/
def isAsked (row user : MuRow) : Except PyExc Bool := do
  let otherUser ← row.hasOther user userKey
  let otherPort ← row.hasOther user portKey
  pure (!otherUser && !otherPort)

/-- `row[key] += n` -/
def increase (row : MuRow) (key : List Char) (n : ℤ) : Except PyExc MuRow :=
  match row.get? key with
  | some (.int m) => .ok (row.set key (.int (m + n)))
  | some (.str _) => .error .typeError
  | none => .error .keyError

end MuRow

/-! ## The manager -/

namespace MuMgr

/-- `userinfo`, which only makes a text of a row, but may raise. -/
abbrev UserInfo : Type := MuRow → Except PyExc Unit

/-- `up` in `add`, before the values of the user. -/
def defaults (passwd : List Char) : MuRow :=
  ((((((((Dict.empty.set "enable".toList (.int 1)).set MuRow.uKey (.int 0)).set
    MuRow.dKey (.int 0)).set "method".toList (.str "aes-128-ctr".toList)).set
    "protocol".toList (.str "auth_aes128_md5".toList)).set
    "obfs".toList (.str "tls1.2_ticket_auth_compatible".toList)).set
    "transfer_enable".toList (.int 9007199254740992)).set "passwd".toList (.str passwd))

/-- `add`, with a password of `rand_pass`; a user that exists already is not added. -/
def add (userinfo : UserInfo) (passwd : List Char) (user : MuRow) (rows : List MuRow) :
    Outcome MuFile :=
  match rows.anyM fun row => row.isTaken user with
  | .ok false =>
    let up := (defaults passwd).update user
    match userinfo up with
    | .ok _ => .writes (some (rows ++ [up]))
    | .error _ => .fails
  | _ => .fails

/-- The loop of `edit`: the first row that is asked for is updated. -/
def editRows (userinfo : UserInfo) (user : MuRow) : List MuRow → Except PyExc (List MuRow)
  | [] => .ok []
  | row :: rows => do
    if ← row.isAsked user then
      let _ ← row.getItem MuRow.userKey
      let row : MuRow := row.update user
      let _ ← userinfo row
      pure (row :: rows)
    else
      let rows ← editRows userinfo user rows
      pure (row :: rows)

/-- The loop of `delete`: the first row that is asked for is deleted. -/
def deleteRows (user : MuRow) : List MuRow → Except PyExc (List MuRow)
  | [] => .ok []
  | row :: rows => do
    if ← row.isAsked user then
      let _ ← row.getItem MuRow.userKey
      pure rows
    else
      let rows ← deleteRows user rows
      pure (row :: rows)

/-- The traffic of a row that is asked for is set to zero. -/
def clearRow (user row : MuRow) : Except PyExc MuRow := do
  if ← row.isAsked user then
    let row : MuRow := (row.set MuRow.uKey (.int 0)).set MuRow.dKey (.int 0)
    let _ ← row.getItem MuRow.userKey
    pure row
  else pure row

/-- The loop of `clear_ud`. -/
def clearRows (user : MuRow) : List MuRow → Except PyExc (List MuRow)
  | [] => .ok []
  | row :: rows => do
    let row ← clearRow user row
    let rows ← clearRows user rows
    pure (row :: rows)

/-- `save` after a loop over the rows that has not raised. -/
def save (rows : Except PyExc (List MuRow)) : Outcome MuFile :=
  match rows with
  | .ok rows => .writes (some rows)
  | .error _ => .fails

end MuMgr

/-! ## The server -/

namespace MuJsonTransfer

/-- The loop of `update_all_user`, on one row. -/
def updateRow (dtTransfer : Dict ℕ Transfer) (row : MuRow) : Except PyExc MuRow :=
  match row.get? MuRow.portKey with
  | some (.int port) =>
    match if 0 ≤ port then dtTransfer.get? port.toNat else none with
    | some dt => do
      let row ← row.increase MuRow.uKey dt.1
      row.increase MuRow.dKey dt.2
    | none => .ok row
  | _ => .ok row

def updateRows (dtTransfer : Dict ℕ Transfer) : List MuRow → Except PyExc (List MuRow)
  | [] => .ok []
  | row :: rows => do
    let row ← updateRow dtTransfer row
    let rows ← updateRows dtTransfer rows
    pure (row :: rows)

end MuJsonTransfer

/-! ## The two processes -/

/-- The operations on the file. -/
inductive MuOp
  | add (passwd : List Char) (user : MuRow)
  | edit (user : MuRow)
  | delete (user : MuRow)
  | clearUd (user : MuRow)
  /-- `update_all_user`, which reports all increments as accepted. -/
  | updateAllUser (dtTransfer : Dict ℕ Transfer)

inductive MuProcess
  | manager
  | server
  deriving DecidableEq

def MuOp.owner : MuOp → MuProcess
  | .updateAllUser _ => .server
  | _ => .manager

/-- What an operation makes of the file. The manager takes a missing file for one without rows. -/
def MuOp.run (userinfo : MuMgr.UserInfo) (op : MuOp) (file : MuFile) : Outcome MuFile :=
  match op with
  | .add passwd user => MuMgr.add userinfo passwd user (file.getD [])
  | .edit user => MuMgr.save (MuMgr.editRows userinfo user (file.getD []))
  | .delete user => MuMgr.save (MuMgr.deleteRows user (file.getD []))
  | .clearUd user => MuMgr.save (MuMgr.clearRows user (file.getD []))
  | .updateAllUser dtTransfer =>
    match file with
    | none => .fails
    | some rows =>
      match MuJsonTransfer.updateRows dtTransfer rows with
      | .error _ => .fails
      | .ok [] => .keeps
      | .ok (row :: rows) => .writes (some (row :: rows))

def muJson (userinfo : MuMgr.UserInfo) : Program MuFile MuProcess MuOp where
  owner := MuOp.owner
  run := MuOp.run userinfo

@[simp] theorem muJson_run (userinfo : MuMgr.UserInfo) (op : MuOp) (file : MuFile) :
    (muJson userinfo).run op file = op.run userinfo file := rfl

/-! ## What an update adds -/

namespace MuRow

/-- A number of a row has been increased, and nothing else changed. -/
theorem increase_eq_ok {row row' : MuRow} {key : List Char} {n : ℤ}
    (h : row.increase key n = .ok row') :
    ∃ m, row.get? key = some (.int m) ∧ row' = row.set key (.int (m + n)) := by
  rw [increase] at h
  rcases hkey : row.get? key with - | m | text
  · rw [hkey] at h
    cases h
  · rw [hkey] at h
    cases h
    exact ⟨m, rfl, rfl⟩
  · rw [hkey] at h
    cases h

end MuRow

namespace MuJsonTransfer

variable {dtTransfer : Dict ℕ Transfer} {rows rows' : List MuRow} {row row' : MuRow} {port : ℕ}
  {t : Transfer}

/-- The increment of a port is added to both numbers of its row. -/
theorem updateRow_eq_ok (h : updateRow dtTransfer row = .ok row')
    (hport : row.get? MuRow.portKey = some (.int port)) (hdt : dtTransfer.get? port = some t) :
    ∃ u d, row.get? MuRow.uKey = some (.int u) ∧ row.get? MuRow.dKey = some (.int d) ∧
      row'.get? MuRow.uKey = some (.int (u + t.1)) ∧
      row'.get? MuRow.dKey = some (.int (d + t.2)) := by
  have hne : MuRow.uKey ≠ MuRow.dKey := by decide
  rw [updateRow, hport] at h
  dsimp only at h
  rw [if_pos (Int.natCast_nonneg _), Int.toNat_natCast, hdt] at h
  obtain ⟨row₁, h₁, h₂⟩ := bind_eq_ok.1 h
  obtain ⟨u, hu, rfl⟩ := MuRow.increase_eq_ok h₁
  obtain ⟨d, hd, rfl⟩ := MuRow.increase_eq_ok h₂
  rw [Dict.get?_set_of_ne _ _ hne.symm] at hd
  refine ⟨u, d, hu, hd, ?_, Dict.get?_set_self _ _ _⟩
  rw [Dict.get?_set_of_ne _ _ hne, Dict.get?_set_self]

/-- Every row is updated, in its place. -/
theorem updateRows_eq_ok (h : updateRows dtTransfer rows = .ok rows') (hrow : row ∈ rows) :
    ∃ (i : ℕ) (row' : MuRow), rows[i]? = some row ∧ rows'[i]? = some row' ∧
      updateRow dtTransfer row = .ok row' := by
  induction rows generalizing rows' with
  | nil => cases hrow
  | cons row₁ rows ih =>
    obtain ⟨row₁', h₁, h⟩ := bind_eq_ok.1 h
    obtain ⟨rows₁', h₂, h⟩ := bind_eq_ok.1 h
    cases h
    rcases List.mem_cons.1 hrow with rfl | hrow
    · exact ⟨0, row₁', rfl, rfl, h₁⟩
    · obtain ⟨i, row', hi, hi', hupdate⟩ := ih h₂ hrow
      exact ⟨i + 1, row', hi, hi', hupdate⟩

end MuJsonTransfer

/-- Every port with an increment has a row. -/
def HasRows (dtTransfer : Dict ℕ Transfer) (file : MuFile) : Prop :=
  ∀ port, dtTransfer.contains port = true →
    ∃ row ∈ file.getD [], row.get? MuRow.portKey = some (.int port)

/-- All increments have been added to `u` and `d` of a row of their port. -/
def Included (dtTransfer : Dict ℕ Transfer) (before after : MuFile) : Prop :=
  ∀ (port : ℕ) (t : Transfer), dtTransfer.get? port = some t →
    ∃ (i : ℕ) (row row' : MuRow) (u d : ℤ),
      (before.getD [])[i]? = some row ∧ (after.getD [])[i]? = some row' ∧
      row.get? MuRow.portKey = some (.int port) ∧
      row.get? MuRow.uKey = some (.int u) ∧ row.get? MuRow.dKey = some (.int d) ∧
      row'.get? MuRow.uKey = some (.int (u + t.1)) ∧ row'.get? MuRow.dKey = some (.int (d + t.2))

section

variable {userinfo : MuMgr.UserInfo} {dtTransfer : Dict ℕ Transfer} {file : MuFile}

/-- An update that does not raise adds its increments, when there is a row for each of them. -/
theorem included_effect (hrun : (muJson userinfo).run (.updateAllUser dtTransfer) file ≠ .fails)
    (hrows : HasRows dtTransfer file) :
    Included dtTransfer file ((muJson userinfo).effect file (.updateAllUser dtTransfer)) := by
  intro port t hdt
  obtain ⟨row, hrow, hport⟩ := hrows port (Dict.contains_eq_true.2 ⟨t, hdt⟩)
  rcases file with - | rows
  · cases hrow
  cases hupdate : MuJsonTransfer.updateRows dtTransfer rows with
  | error e =>
    refine absurd ?_ hrun
    simp only [muJson_run, MuOp.run, hupdate]
  | ok rows' =>
    obtain ⟨i, row', hi, hi', hrow'⟩ := MuJsonTransfer.updateRows_eq_ok hupdate hrow
    obtain ⟨u, d, hu, hd, hu', hd'⟩ := MuJsonTransfer.updateRow_eq_ok hrow' hport hdt
    have heffect : (muJson userinfo).effect (some rows) (.updateAllUser dtTransfer) =
        some rows' := by
      rcases rows' with - | ⟨row₁, rows₁⟩
      · cases hi'
      · refine Program.effect_of_writes _ ?_
        simp only [muJson_run, MuOp.run, hupdate]
    rw [heffect]
    exact ⟨i, row, row', u, d, hi, hi', hport, hu, hd, hu', hd'⟩

/-- What the file reflects: the completed operations, in the order in which they saved, with all
    increments that were accepted. -/
structure Reflects (userinfo : MuMgr.UserInfo) (file : MuFile)
    (s : Shared MuFile MuProcess MuOp) : Prop where
  value_eq : s.value = (muJson userinfo).replay file s.completed
  included : ∀ before dtTransfer after, s.completed = before ++ .updateAllUser dtTransfer :: after →
    Included dtTransfer ((muJson userinfo).replay file before)
      ((muJson userinfo).replay file (before ++ [.updateAllUser dtTransfer]))

/-- There is a row for every increment of an update. -/
def MuOp.Suits (op : MuOp) (file : MuFile) : Prop :=
  ∀ dtTransfer, op = .updateAllUser dtTransfer → HasRows dtTransfer file

/-- In every run in which the file is, when an operation saves it, as the operation has loaded it,
    and has a row for every increment, it reflects all completed operations. -/
theorem reflects_of_current {events : List (Event MuProcess MuOp)}
    {s : Shared MuFile MuProcess MuOp}
    (hcurrent : Run.Throughout (muJson userinfo).step ((muJson userinfo).Current MuOp.Suits)
      (.start file) events)
    (h : Run.exec (muJson userinfo).step (.start file) events = some s) :
    Reflects userinfo file s := by
  have hserial := Program.exec_current hcurrent h
  refine ⟨hserial.value_eq, fun before dtTransfer after hcompleted => ?_⟩
  obtain ⟨hrun, hsuits⟩ := hserial.suits before _ after hcompleted
  rw [Program.replay_append, Program.replay_singleton]
  exact included_effect hrun (hsuits dtTransfer rfl)

end

/-- A file with one user. -/
def oneRow : MuFile :=
  some [((MuMgr.defaults "p".toList).set MuRow.userKey (.str "a".toList)).set MuRow.portKey
    (.int 1001)]

/-- Ten bytes up and twenty down. -/
def someTraffic : Dict ℕ Transfer := Dict.empty.set 1001 (10, 20)

/-- A new password. -/
def newPasswd : MuRow :=
  (Dict.empty.set MuRow.portKey (.int 1001)).set "passwd".toList (.str "q".toList)

/-- The manager edits a row, and then the server updates it. -/
def inTurn : List (Event MuProcess MuOp) :=
  [.read (.edit newPasswd), .write .manager, .read (.updateAllUser someTraffic), .write .server]

theorem reflects_of_current_inTurn : ∃ s,
    Run.exec (muJson fun _ => .ok ()).step (.start oneRow) inTurn = some s ∧
      s.completed.length = 2 ∧ Reflects (fun _ => .ok ()) oneRow s := by
  obtain ⟨s, hs⟩ : ∃ s, Run.exec (muJson fun _ => .ok ()).step (.start oneRow) inTurn = some s :=
    ⟨_, rfl⟩
  refine ⟨s, hs, ?_, reflects_of_current ?_ hs⟩
  · cases hs
    rfl
  refine .cons trivial fun s₁ h₁ => .cons ?_ fun s₂ h₂ => .cons trivial fun s₃ h₃ => .cons ?_
    fun s₄ _ => Run.throughout_nil s₄
  · cases h₁
    intro op file hpending
    cases hpending
    exact ⟨rfl, fun _ dtTransfer hop => (by cases hop)⟩
  · cases h₁
    cases h₂
    cases h₃
    intro op file hpending
    cases hpending
    refine ⟨rfl, fun _ dtTransfer hop port hport => ?_⟩
    cases hop
    rw [someTraffic, Dict.contains_set, Bool.or_eq_true, decide_eq_true_iff] at hport
    obtain rfl : port = 1001 := hport.resolve_right (by simp [Dict.contains])
    exact ⟨_, List.mem_singleton.2 rfl, rfl⟩

/-- The server has loaded the file before the manager saves it. -/
def overlapping : List (Event MuProcess MuOp) :=
  [.read (.updateAllUser someTraffic), .read (.edit newPasswd), .write .manager, .write .server]

/-- The new password is lost. -/
theorem not_reflects_overlapping : ¬∀ (userinfo : MuMgr.UserInfo) (file : MuFile)
    (events : List (Event MuProcess MuOp)) (s : Shared MuFile MuProcess MuOp),
    Run.exec (muJson userinfo).step (.start file) events = some s → Reflects userinfo file s := by
  intro h
  obtain ⟨s, hs⟩ : ∃ s,
    Run.exec (muJson fun _ => .ok ()).step (.start oneRow) overlapping = some s := ⟨_, rfl⟩
  have hvalue := congrArg (fun file : MuFile => (file.getD []).map fun row =>
    row.get? "passwd".toList) (h _ _ _ _ hs).value_eq
  cases hs
  exact absurd hvalue (by decide)

end ShadowsocksR

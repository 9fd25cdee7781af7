import ShadowsocksR.AsyncDns.Names

/-!
# Hostnames that are accepted

`is_valid_hostname` decides which hostnames `resolve` queries. It cuts them at
their dots, and matches each label; but the pattern also matches a label with a
newline at its end, and a dot at the end of the hostname is never taken off,
because `hostname[-1]` is a number.

* `buildRequest`: the query;
* `queryable_iff`, `keepsDot_iff`: for which accepted hostnames the query is as
  it should be, and for which the hostname is also accepted with a dot.
-/

namespace ShadowsocksR

namespace AsyncDns

/-- `build_request`, with the id from `os.urandom`. -/
def buildRequest (requestId : Bytes) (address : Hostname) (qtype : ℕ) : Except PyExc Bytes :=
  let header := [1, 0] ++ packBE 2 1 ++ packBE 2 0 ++ packBE 2 0 ++ packBE 2 0
  let addr := buildAddress address
  if qtype < 2 ^ 16 then
    match addr with
    | some addr => .ok (requestId ++ header ++ addr ++ (packBE 2 qtype ++ packBE 2 QCLASS_IN))
    | none => .error .typeError
  else .error .structError

/-- The query for a hostname can be built, the name in it is read as the hostname without the dots
    around it, and the labels have 1 to 63 of the characters of hostnames. -/
def Queryable (h : Hostname) : Prop :=
  (∀ requestId : Bytes, requestId.length = 2 → ∀ qtype < 2 ^ 16,
    ∃ request, buildRequest requestId h qtype = .ok request ∧
      ∀ depth, ∃ n, parseName (depth + 1) request 12 = .ok (n, stripDots h)) ∧
  ∀ label ∈ (stripDots h).splitOn 46,
    1 ≤ label.length ∧ label.length ≤ 63 ∧ label.all validHostnameChar = true

/-- A hostname that has no dot at its end, and is not too long for one, is also accepted with it. -/
def KeepsDot (h : Hostname) : Prop :=
  h.getLast? ≠ some 46 → h.length < 255 → isValidHostname (h ++ [46]) = true

section

variable {h : Hostname}

theorem validLabel_of_mem (hvalid : isValidHostname h = true) :
    h.length ≤ 255 ∧ ∀ label ∈ h.splitOn 46, validLabel label = true := by
  rw [isValidHostname] at hvalid
  split_ifs at hvalid with hlength
  exact ⟨not_lt.1 hlength, List.all_eq_true.1 hvalid⟩

theorem validLabelBody_spec {x : Bytes} (hx : validLabelBody x = true) :
    1 ≤ x.length ∧ x.length ≤ 63 ∧ x.all validHostnameChar = true := by
  simp only [validLabelBody, Bool.and_eq_true, decide_eq_true_eq] at hx
  exact ⟨hx.1.1.1.1, hx.1.1.1.2, hx.1.1.2⟩

/-- The empty label is none. -/
theorem nil_not_mem_splitOn (hvalid : isValidHostname h = true) : ([] : Bytes) ∉ h.splitOn 46 :=
  fun hnil => absurd ((validLabel_of_mem hvalid).2 [] hnil) (by decide)

/-- Without a newline, the labels are as they should be. -/
theorem label_spec (hvalid : isValidHostname h = true) (hnewline : (10 : UInt8) ∉ h) :
    ∀ label ∈ h.splitOn 46,
      1 ≤ label.length ∧ label.length ≤ 63 ∧ label.all validHostnameChar = true := by
  intro label hlabel
  have hlabel' := (validLabel_of_mem hvalid).2 label hlabel
  rw [validLabel, Bool.or_eq_true, Bool.and_eq_true, beq_iff_eq] at hlabel'
  -- A label matches as it is, or without a newline at its end.
  rcases hlabel' with hbody | ⟨hlast, -⟩
  · exact validLabelBody_spec hbody
  · exact absurd (mem_of_mem_splitOn hlabel (List.mem_of_getLast? hlast)) hnewline

/-- An accepted hostname can be queried if and only if it has no newline. -/
theorem queryable_iff (hvalid : isValidHostname h = true) :
    Queryable h ↔ (10 : UInt8) ∉ h := by
  have hstrip := stripDots_eq_self (nil_not_mem_splitOn hvalid)
  constructor
  · rintro ⟨-, hlabels⟩ hnewline
    obtain ⟨label, hlabel, hmem⟩ := exists_mem_splitOn hnewline (show (10 : UInt8) ≠ 46 by decide)
    rw [hstrip] at hlabels
    exact absurd (List.all_eq_true.1 (hlabels label hlabel).2.2 _ hmem) (by decide)
  · intro hnewline
    have hlabels := label_spec hvalid hnewline
    refine ⟨fun requestId hid qtype hqtype => ?_, by rw [hstrip]; exact hlabels⟩
    have hhas : HasLabels h := fun label hlabel =>
      ⟨(hlabels label hlabel).1, (hlabels label hlabel).2.1⟩
    obtain ⟨address, haddress, -⟩ := parseName_buildAddress hhas [] [] 0
    rw [buildRequest, if_pos hqtype, haddress]
    refine ⟨_, rfl, fun depth => ⟨address.length, ?_⟩⟩
    -- In the query, the name is behind the twelve bytes of the header.
    obtain ⟨address', haddress', hparse⟩ := parseName_buildAddress hhas
      (requestId ++ ([1, 0] ++ packBE 2 1 ++ packBE 2 0 ++ packBE 2 0 ++ packBE 2 0))
      (packBE 2 qtype ++ packBE 2 QCLASS_IN) depth
    cases haddress.symm.trans haddress'
    rw [hstrip, ← hparse]
    congr 1
    simp [hid]

/-- With a dot at its end, no hostname is accepted. -/
theorem isValidHostname_dot (h : Hostname) : isValidHostname (h ++ [46]) = false := by
  rw [isValidHostname]
  split_ifs with hlength
  · rfl
  · -- The last label is empty.
    rw [List.splitOn_append_cons_self, List.all_append]
    exact Bool.and_false _

theorem keepsDot_iff (hvalid : isValidHostname h = true) : KeepsDot h ↔ h.length = 255 := by
  have hlast : h.getLast? ≠ some 46 := by
    intro hlast
    obtain ⟨l, rfl⟩ := List.getLast?_eq_some_iff.1 hlast
    rw [isValidHostname_dot] at hvalid
    cases hvalid
  have hlength := (validLabel_of_mem hvalid).1
  rw [KeepsDot, isValidHostname_dot]
  constructor
  · intro hkeeps
    by_contra hne
    cases hkeeps hlast (by omega)
  · intro heq _ hlt
    omega

/-- What an accepted hostname is good for: the first only without a newline, and the second only
    when it is too long for another dot. -/
theorem accepted_iff (h : Hostname) (hvalid : isValidHostname h = true) :
    (Queryable h ∧ KeepsDot h ↔ (10 : UInt8) ∉ h ∧ h.length = 255) ∧
      (Queryable h ↔ (10 : UInt8) ∉ h) ∧ (KeepsDot h ↔ h.length = 255) :=
  ⟨and_congr (queryable_iff hvalid) (keepsDot_iff hvalid), queryable_iff hvalid,
    keepsDot_iff hvalid⟩

end

/-- `a` -/
theorem accepted_iff_a : Queryable [97] ∧ ¬KeepsDot [97] := by
  obtain ⟨-, hquery, hdot⟩ := accepted_iff [97] (by decide)
  exact ⟨hquery.2 (by decide), fun hkeeps => absurd (hdot.1 hkeeps) (by decide)⟩

/-- `a` and a newline, and `a` with a dot -/
theorem not_queryable : (isValidHostname [97, 10] = true ∧ ¬Queryable [97, 10]) ∧
    isValidHostname [97] = true ∧ ¬KeepsDot [97] := by
  refine ⟨⟨by decide, fun hquery => ?_⟩, by decide, fun hkeeps => ?_⟩
  · exact absurd ((queryable_iff (by decide)).1 hquery) (by decide)
  · exact absurd ((keepsDot_iff (by decide)).1 hkeeps) (by decide)

end AsyncDns

end ShadowsocksR

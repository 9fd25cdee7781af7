import ShadowsocksR.Inet.Object

/-!
# The text of an IPv6 address, read again

`inet_ntop` writes a zero group as no digits at all, and cuts the first run of colons that this
makes to two. Read again, the text is the groups before the first zero and after the last, with
zeros in between (`inetPton6_inetNtop6`); so a group between two zero groups is lost.

* `inetPton6_inetNtop6_iff`: the round trip of the addresses whose zero groups are together.
-/

namespace ShadowsocksR

/-! ## Texts of groups -/

theorem isDigit_of_mem_stripGroup {p : UInt8 × UInt8} {c : Char} (h : c ∈ stripGroup p) :
    IsDigit 16 c := by
  rcases List.mem_append.1 ((List.dropWhile_sublist _).mem h) with h | h
  · exact isDigit_of_mem_hexByte h
  · exact isDigit_of_mem_hexByte h

theorem digitsValue_stripGroup (p : UInt8 × UInt8) : (digitsValue 16 (stripGroup p) : ℤ) = word p := by
  rw [stripGroup, digitsValue_dropWhile_zero, digitsValue_hexByte, word]
  push_cast
  rfl

/-- A group without digits is zero. -/
theorem stripGroup_eq_nil {p : UInt8 × UInt8} : stripGroup p = [] ↔ p = (0, 0) := by
  constructor
  · intro h
    rw [← word_eq_zero, ← digitsValue_stripGroup, h]
    rfl
  · rintro rfl
    decide

theorem int_stripGroup (u : UnicodeData) {p : UInt8 × UInt8} (h : p ≠ (0, 0)) :
    u.int 16 (stripGroup p) = some (word p) := by
  rw [int_of_digits u (Nat.le_refl 16) (fun c hc => isDigit_of_mem_stripGroup hc)
    (stripGroup_eq_nil.not.2 h), digitsValue_stripGroup]

theorem colon_not_mem_stripGroup (p : UInt8 × UInt8) : ':' ∉ stripGroup p :=
  fun h => absurd (isDigit_of_mem_stripGroup h) (by decide)

theorem dot_not_mem_inetNtop6 (b : Bytes) : '.' ∉ inetNtop6 b := by
  intro h
  rcases mem_intercalate (mem_of_mem_collapse h) with h | ⟨g, hg, h⟩
  · exact absurd h (by decide)
  · obtain ⟨p, -, rfl⟩ := List.mem_map.1 hg
    exact absurd (isDigit_of_mem_stripGroup h) (by decide)

/-- The groups of the text of an address, before its colons are cut. -/
theorem splitOn_stripGroups {b : Bytes} (hb : b.length = 16) :
    ([':'].intercalate ((bytePairs b).map stripGroup)).splitOn ':' =
      (bytePairs b).map stripGroup := by
  apply List.splitOn_intercalate
  · intro g hg
    obtain ⟨p, -, rfl⟩ := List.mem_map.1 hg
    exact colon_not_mem_stripGroup p
  · intro hnil
    have := length_bytePairs (n := 8) hb
    rw [List.map_eq_nil_iff.1 hnil] at this
    cases this

/-- The groups without digits are the zero groups. -/
theorem not_isEmpty_comp_stripGroup :
    (fun g : Text => !g.isEmpty) ∘ stripGroup = fun p => decide (p ≠ (0, 0)) := by
  funext p
  by_cases hp : p = (0, 0)
  · subst hp
    decide
  · rw [decide_eq_true hp, Function.comp_apply, Bool.not_eq_true', List.isEmpty_eq_false_iff]
    exact stripGroup_eq_nil.not.2 hp

theorem leading_map_stripGroup (ps : List (UInt8 × UInt8)) :
    leading (ps.map stripGroup) = (ps.takeWhile (· ≠ (0, 0))).map stripGroup := by
  rw [leading, List.takeWhile_map, not_isEmpty_comp_stripGroup]

theorem trailing_map_stripGroup (ps : List (UInt8 × UInt8)) :
    trailing (ps.map stripGroup) = (ps.rtakeWhile (· ≠ (0, 0))).map stripGroup := by
  rw [trailing, List.rtakeWhile, ← List.map_reverse, List.takeWhile_map,
    not_isEmpty_comp_stripGroup, ← List.map_reverse]
  rfl

theorem map_int_stripGroup (u : UnicodeData) {ps : List (UInt8 × UInt8)} (h : (0, 0) ∉ ps) :
    (ps.map stripGroup).map (u.int 16) = (ps.map word).map some := by
  rw [List.map_map, List.map_map]
  apply List.map_congr_left
  intro p hp
  exact int_stripGroup u fun hzero => h (hzero ▸ hp)

/-! ## The round trip -/

/-- The groups that are read for an address with these groups. -/
def readBack (ps : List (UInt8 × UInt8)) : List (UInt8 × UInt8) :=
  if (0, 0) ∈ ps then
    let left := ps.takeWhile (· ≠ (0, 0))
    let right := ps.rtakeWhile (· ≠ (0, 0))
    left ++ List.replicate (8 - left.length - right.length) (0, 0) ++ right
  else ps

/-- Nothing but zero groups stands between two zero groups. -/
def ZerosTogether (b : Bytes) : Prop := Together (0, 0) (bytePairs b)

theorem readBack_eq_self {ps : List (UInt8 × UInt8)} (hlen : ps.length = 8) :
    readBack ps = ps ↔ Together (0, 0) ps := by
  by_cases hzero : (0, 0) ∈ ps
  · rw [together_iff hzero, readBack, if_pos hzero]
    constructor
    · exact fun h => ⟨_, h.symm⟩
    · rintro ⟨n, hn⟩
      have hlen' := congrArg List.length hn
      rw [List.length_append, List.length_append, List.length_replicate] at hlen'
      have hfill : 8 - (ps.takeWhile (· ≠ (0, 0))).length - (ps.rtakeWhile (· ≠ (0, 0))).length =
          n := by omega
      dsimp only
      rw [hfill]
      exact hn.symm
  · rw [readBack, if_neg hzero]
    exact ⟨fun _ i _ _ _ _ hi _ => absurd (List.mem_of_getElem? hi) hzero, fun _ => rfl⟩

/-- What `inet_pton` reads in a text of `inet_ntop`. -/
theorem InetAton.inetPton6_inetNtop6 (P : InetAton) (u : UnicodeData) (depth : ℕ) {b : Bytes}
    (hb : b.length = 16) :
    P.inetPton6 u (depth + 1) (inetNtop6 b) =
      .ok (wordBytes ((readBack (bytePairs b)).map word)) := by
  have hlen := length_bytePairs (n := 8) hb
  have hdot := dot_not_mem_inetNtop6 b
  have hleft : leftGroups (inetNtop6 b) =
      ((bytePairs b).takeWhile (· ≠ (0, 0))).map stripGroup := by
    rw [leftGroups, inetNtop6, leading_collapse, splitOn_stripGroups hb, leading_map_stripGroup]
  have hnil : [] ∈ (inetNtop6 b).splitOn ':' ↔ (0, 0) ∈ bytePairs b := by
    rw [inetNtop6, nil_mem_collapse, splitOn_stripGroups hb, List.mem_map]
    constructor
    · rintro ⟨p, hp, hnil⟩
      exact stripGroup_eq_nil.1 hnil ▸ hp
    · exact fun h => ⟨_, h, by decide⟩
  have hwords : ∀ ps : List (UInt8 × UInt8), ∀ n ∈ ps.map word, IsWord n := by
    intro ps n hn
    obtain ⟨p, -, rfl⟩ := List.mem_map.1 hn
    exact isWord_word p
  have hbefore : (0, 0) ∉ (bytePairs b).takeWhile (· ≠ (0, 0)) := fun hmem => by
    simpa using List.mem_takeWhile_imp hmem
  by_cases hzero : (0, 0) ∈ bytePairs b
  · have hafter : (0, 0) ∉ (bytePairs b).rtakeWhile (· ≠ (0, 0)) := fun hmem => by
      simpa using List.mem_rtakeWhile_imp hmem
    have hright : (rightGroups (inetNtop6 b)).reverse =
        ((bytePairs b).rtakeWhile (· ≠ (0, 0))).map stripGroup := by
      rw [rightGroups, if_pos (hnil.2 hzero), List.reverse_reverse, inetNtop6, trailing_collapse,
        splitOn_stripGroups hb, trailing_map_stripGroup]
    have hlt := length_takeWhile_add_lt hzero
    rw [P.inetPton6_of_words u depth hdot (hleft ▸ map_int_stripGroup u hbefore)
      (hright ▸ map_int_stripGroup u hafter), readBack, if_pos hzero]
    · simp only [List.map_append, List.map_replicate, List.length_map, word_eq_zero.2]
    · rw [List.length_map, List.length_map]
      omega
    · intro n hn
      rw [← List.map_append] at hn
      exact hwords _ n hn
  · -- Eight groups with digits are read from the left.
    have hall : (bytePairs b).takeWhile (· ≠ (0, 0)) = bytePairs b := by
      rw [List.takeWhile_eq_self_iff]
      intro p hp
      simpa using fun hpzero : p = (0, 0) => hzero (hpzero ▸ hp)
    rw [hall] at hleft hbefore
    have hright : (rightGroups (inetNtop6 b)).reverse.map (u.int 16) = [].map some := by
      rw [rightGroups, if_neg (hnil.not.2 hzero)]
      rfl
    rw [P.inetPton6_of_words u depth hdot (hleft ▸ map_int_stripGroup u hbefore) hright, readBack,
      if_neg hzero]
    · simp [hlen]
    · simp [hlen]
    · rw [List.append_nil]
      exact hwords _

/-- Two colons stand next to each other where a zero group is neither the first nor the last one. -/
theorem doubles_inetNtop6_le {b : Bytes} (hb : b.length = 16) (h : ZerosTogether b) :
    doubles ':' (inetNtop6 b) ≤ 1 := by
  apply doubles_collapse_le
  rw [splitOn_stripGroups hb]
  have hnil : Together [] ((bytePairs b).map stripGroup) := by
    rw [show ([] : Text) = stripGroup (0, 0) by decide, together_map]
    · exact h
    · intro p _
      rw [show stripGroup (0, 0) = [] by decide, stripGroup_eq_nil]
  cases hps : (bytePairs b).map stripGroup with
  | nil => exact fun i _ _ _ _ hi _ => absurd hi (by simp)
  | cons g gs =>
    rw [hps] at hnil
    exact hnil.tail

/-- The text of an address is read as the address, and has at most one pair of colons, exactly where
    its zero groups are together. -/
theorem inetPton6_inetNtop6_iff (P : InetAton) (u : UnicodeData) (depth : ℕ) {b : Bytes}
    (hb : b.length = 16) :
    P.inetPton6 u (depth + 1) (inetNtop6 b) = .ok b ∧ doubles ':' (inetNtop6 b) ≤ 1 ↔
      ZerosTogether b := by
  have hlen := length_bytePairs (n := 8) hb
  have hread : wordBytes ((readBack (bytePairs b)).map word) = b ↔
      readBack (bytePairs b) = bytePairs b := by
    constructor
    · intro h
      have := congrArg bytePairs h
      rwa [wordBytes_map_word] at this
    · intro h
      rw [h]
      exact wordBytes_bytePairs (n := 8) hb
  rw [P.inetPton6_inetNtop6 u depth hb, Except.ok.injEq, hread, readBack_eq_self hlen]
  constructor
  · exact fun h => h.1
  · exact fun h => ⟨h, doubles_inetNtop6_le hb h⟩

/-- `2001:db8::1` -/
theorem inetPton6_inetNtop6_iff_db8 :
    ((InetAton.strict.inetPton6 .ascii 1
          (inetNtop6 [0x20, 1, 0xD, 0xB8, 0, 0, 0, 0, 0, 0, 0, 0, 0, 0, 0, 1]) =
        .ok [0x20, 1, 0xD, 0xB8, 0, 0, 0, 0, 0, 0, 0, 0, 0, 0, 0, 1] ∧
      doubles ':' (inetNtop6 [0x20, 1, 0xD, 0xB8, 0, 0, 0, 0, 0, 0, 0, 0, 0, 0, 0, 1]) ≤ 1) ↔
    ZerosTogether [0x20, 1, 0xD, 0xB8, 0, 0, 0, 0, 0, 0, 0, 0, 0, 0, 0, 1]) :=
  inetPton6_inetNtop6_iff .strict .ascii 0 rfl

/-- Of `1:0:2:0:0:3:4:5` the third group is lost. -/
theorem inetPton6_inetNtop6_between :
    ¬∀ (P : InetAton) (u : UnicodeData) (depth : ℕ) (b : Bytes), b.length = 16 →
      P.inetPton6 u (depth + 1) (inetNtop6 b) = .ok b ∧ doubles ':' (inetNtop6 b) ≤ 1 := by
  intro h
  have := (h .strict .ascii 0 [0, 1, 0, 0, 0, 2, 0, 0, 0, 0, 0, 3, 0, 4, 0, 5] rfl).1
  rw [InetAton.inetPton6_inetNtop6 _ _ _ rfl, Except.ok.injEq] at this
  exact absurd this (by decide)

end ShadowsocksR

import ShadowsocksR.AuthChain.Padding

/-!
# The padding of the auth_akarin protocols

How many random bytes go with a buffer of some length. The number depends on the
`tcp_mss` of an end: the sender computes it with its `send_tcp_mss`, the receiver
with its `recv_tcp_mss`, but for one comparison, which both make with their
`send_tcp_mss`.

* `rndDataLen`: the number of random bytes, for both classes and both directions;
* `padBound`: the modulus that a generator seeded by the frame before is reduced
  by, which is all that the number takes from the two `tcp_mss`
  (`rndDataLen_eq`);
* `sender_padLen`: the sender never divides by zero, and makes no frame that is
  too long.
-/

namespace ShadowsocksR

namespace AuthAkarin

open AuthChain (DataSizeLists SizeList bisectLeft initDataSizeB le_of_bisectLeft_le pyGet
  pyGet_of_lt pyMod pyMod_of_pos sizeList_initDataSizeB)

/-- The classes `auth_akarin_rand` and `auth_akarin_spec_a`. -/
inductive Method
  | rand
  | specA
  deriving DecidableEq, Repr

/-- The lists after `set_server_info`: `auth_akarin_spec_a` makes them as `auth_chain_b` does. -/
def initDataSize (m : Method) (key : Bytes) : DataSizeLists :=
  match m with
  | .rand => {}
  | .specA => initDataSizeB key

/-! ## The number of random bytes -/

/-- `init_from_bin_len`, which does not draw numbers after it, as that of auth_chain does. -/
def initFromBinLen (bin : Bytes) (length : ℕ) : Except PyExc Xorshift128plus :=
  let bin := if bin.length < 16 then bin ++ List.replicate 16 0 else bin
  if length < 2 ^ 16 then
    .ok ⟨unpackLE (packLE 2 length ++ (bin.drop 2).take 6), unpackLE ((bin.drop 8).take 8)⟩
  else .error .structError

/-- How the functions of `auth_akarin_rand` end, with the generator seeded. -/
def rndRand (tcpMss overhead bufSize : ℕ) (random : Xorshift128plus) :
    Except PyExc (ℕ × Xorshift128plus) := do
  let (x, random) := random.next
  if bufSize > 1300 then .ok (x % 31, random)
  else if bufSize > 900 then .ok (x % 127, random)
  else if bufSize > 400 then .ok (x % 521, random)
  else .ok (← pyMod x (tcpMss - bufSize - overhead), random)

/-- How those of `auth_akarin_spec_a` end. (The lengths from a position of a sorted list on are not
    smaller than what was looked up.) -/
def rndSpecA (lists : DataSizeLists) (overhead bufSize : ℕ) (random : Xorshift128plus) :
    Except PyExc (ℕ × Xorshift128plus) := do
  let pos := bisectLeft lists.list (bufSize + overhead)
  let (x, random) := random.next
  let finalPos := pos + (← pyMod x lists.list.length)
  if finalPos < lists.list.length then
    .ok ((← pyGet lists.list finalPos) - bufSize - overhead, random)
  else
    let pos := bisectLeft lists.list2 (bufSize + overhead)
    let (x, random) := random.next
    let finalPos := pos + (← pyMod x lists.list2.length)
    if finalPos < lists.list2.length then
      .ok ((← pyGet lists.list2 finalPos) - bufSize - overhead, random)
    else if finalPos + 1 < pos + lists.list2.length then .ok (0, random)
    else
      let (x, random) := random.next
      if bufSize > 1300 then .ok (x % 31, random)
      else if bufSize > 900 then .ok (x % 127, random)
      else if bufSize > 400 then .ok (x % 521, random)
      else .ok (x % 1021, random)

/-- The common body of `send_rnd_data_len` and `recv_rnd_data_len`, of both classes. -/
def rndDataLen (m : Method) (lists : DataSizeLists) (tcpMss sendTcpMss overhead bufSize : ℕ)
    (lastHash : Bytes) (random : Xorshift128plus) : Except PyExc (ℕ × Xorshift128plus) :=
  if bufSize + overhead > tcpMss then do
    let random ← initFromBinLen lastHash bufSize
    let (x, random) := random.next
    .ok (x % 521, random)
  else if bufSize ≥ 1440 ∨ bufSize + overhead = sendTcpMss then .ok (0, random)
  else do
    let random ← initFromBinLen lastHash bufSize
    match m with
    | .rand => rndRand tcpMss overhead bufSize random
    | .specA => rndSpecA lists overhead bufSize random

/-! ## What it depends on -/

/-- The modulus of the number of random bytes: none when it comes from the lists. -/
def padBound (m : Method) (tcpMss sendTcpMss overhead bufSize : ℕ) : Option ℕ :=
  if bufSize + overhead > tcpMss then some 521
  else if bufSize ≥ 1440 ∨ bufSize + overhead = sendTcpMss then some 1
  else match m with
    | .rand => some (
      if bufSize > 1300 then 31 else if bufSize > 900 then 127 else if bufSize > 400 then 521
      else tcpMss - bufSize - overhead)
    | .specA => none

/-- The number of random bytes with a modulus. -/
def padLen (lists : DataSizeLists) (overhead bufSize : ℕ) (lastHash : Bytes) :
    Option ℕ → Except PyExc ℕ
  | some bound => do pyMod (← initFromBinLen lastHash bufSize).next.1 bound
  | none => do .ok (← rndSpecA lists overhead bufSize (← initFromBinLen lastHash bufSize)).1

variable {m : Method} {lists : DataSizeLists} {tcpMss sendTcpMss overhead bufSize : ℕ}
  {lastHash : Bytes}

theorem initFromBinLen_of_lt (bin : Bytes) {length : ℕ} (h : length < 2 ^ 16) :
    ∃ random, initFromBinLen bin length = .ok random := by
  rw [initFromBinLen, if_pos h]
  exact ⟨_, rfl⟩

/-- The number depends on the two `tcp_mss` through the modulus only, and not on the state of the
    generator. -/
theorem rndDataLen_eq (h : bufSize < 2 ^ 16) (lastHash : Bytes) (random : Xorshift128plus) :
    ∃ random', rndDataLen m lists tcpMss sendTcpMss overhead bufSize lastHash random =
      (padLen lists overhead bufSize lastHash
        (padBound m tcpMss sendTcpMss overhead bufSize)).map fun n => (n, random') := by
  obtain ⟨seeded, hseeded⟩ := initFromBinLen_of_lt lastHash h
  unfold rndDataLen padBound
  by_cases hover : bufSize + overhead > tcpMss
  · rw [if_pos hover, if_pos hover, padLen, hseeded]
    exact ⟨_, rfl⟩
  rw [if_neg hover, if_neg hover]
  by_cases hzero : bufSize ≥ 1440 ∨ bufSize + overhead = sendTcpMss
  · rw [if_pos hzero, if_pos hzero, padLen, hseeded]
    refine ⟨random, ?_⟩
    simp only [bind, Except.bind, pyMod_of_pos Nat.one_pos, Nat.mod_one, Except.map]
  rw [if_neg hzero, if_neg hzero, hseeded]
  cases m with
  | rand =>
    simp only [padLen, hseeded, bind, Except.bind, rndRand]
    split_ifs
    · exact ⟨_, rfl⟩
    · exact ⟨_, rfl⟩
    · exact ⟨_, rfl⟩
    · refine ⟨seeded.next.2, ?_⟩
      cases pyMod seeded.next.1 (tcpMss - bufSize - overhead) <;> rfl
  | specA =>
    simp only [padLen, hseeded, bind, Except.bind]
    cases hr : rndSpecA lists overhead bufSize seeded with
    | error e => exact ⟨seeded, rfl⟩
    | ok r => exact ⟨r.2, rfl⟩

/-- For the first frame of a server, the client has the `tcp_mss` 2000 and the server that of the
    client. In `auth_akarin_rand` they agree on the frames that fill it, on those from 401 bytes on
    that do not exceed it, and on those from 401 to 900 bytes that do. -/
theorem padBound_rand_first_iff {mss : ℕ} (hmss : mss ≤ 1423) (ho : overhead ≤ 1000)
    (h : bufSize + overhead ≤ 2000) :
    padBound .rand 2000 mss overhead bufSize = padBound .rand mss mss overhead bufSize ↔
      bufSize + overhead = mss ∨ 400 < bufSize ∧ (bufSize ≤ 900 ∨ bufSize + overhead < mss) := by
  unfold padBound
  split_ifs <;> simp only [Option.some.injEq, true_iff] <;> omega

/-- In `auth_akarin_spec_a` they agree on those that do not exceed it. -/
theorem padBound_specA_first_iff {mss : ℕ} (h : bufSize + overhead ≤ 2000) :
    padBound .specA 2000 mss overhead bufSize = padBound .specA mss mss overhead bufSize ↔
      bufSize + overhead ≤ mss := by
  unfold padBound
  split_ifs <;> simp <;> omega

/-! ## The sender -/

/-- The lists of a class are usable. -/
def Usable (m : Method) (lists : DataSizeLists) : Prop :=
  m = .specA → SizeList lists.list ∧ SizeList lists.list2

theorem usable_initDataSize (m : Method) (key : Bytes) : Usable m (initDataSize m key) := by
  rintro rfl
  exact sizeList_initDataSizeB key

theorem rndSpecA_spec (hl : SizeList lists.list) (hl2 : SizeList lists.list2) (hb : bufSize < 1440)
    (random : Xorshift128plus) :
    ∃ r, rndSpecA lists overhead bufSize random = .ok r ∧ bufSize + r.1 < 4096 := by
  have hpos := List.length_pos_iff.2 hl.ne_nil
  have hpos2 := List.length_pos_iff.2 hl2.ne_nil
  simp only [rndSpecA, pyMod_of_pos hpos, pyMod_of_pos hpos2, bind, Except.bind]
  split_ifs with h₁ h₂ h₃ h₄ h₅ h₆
  · rw [pyGet_of_lt h₁]
    have hle := le_of_bisectLeft_le (x := bufSize + overhead) hl.sorted (Nat.le_add_right _ _) h₁
    have hlt := hl.lt _ (List.getElem_mem h₁)
    exact ⟨_, rfl, by dsimp only; omega⟩
  · rw [pyGet_of_lt h₂]
    have hle := le_of_bisectLeft_le (x := bufSize + overhead) hl2.sorted (Nat.le_add_right _ _) h₂
    have hlt := hl2.lt _ (List.getElem_mem h₂)
    exact ⟨_, rfl, by dsimp only; omega⟩
  · exact ⟨_, rfl, by dsimp only; omega⟩
  · exact ⟨_, rfl, by dsimp only; omega⟩
  · exact ⟨_, rfl, by dsimp only; omega⟩
  · exact ⟨_, rfl, by dsimp only; omega⟩
  · exact ⟨_, rfl, by dsimp only; omega⟩

/-- A sender, whose two `tcp_mss` are the same, never divides by zero; its frames are not too long
    for a receiver. -/
theorem sender_padLen (hu : Usable m lists) (hb : bufSize ≤ 2802) (lastHash : Bytes) :
    ∃ n, padLen lists overhead bufSize lastHash
      (padBound m tcpMss tcpMss overhead bufSize) = .ok n ∧
      (tcpMss ≤ 2000 → bufSize + n < 4096) := by
  obtain ⟨seeded, hseeded⟩ := initFromBinLen_of_lt lastHash (show bufSize < 2 ^ 16 by omega)
  have hmod : ∀ {bound : ℕ}, 0 < bound → (tcpMss ≤ 2000 → bufSize + bound ≤ 4096) →
      ∃ n, padLen lists overhead bufSize lastHash (some bound) = .ok n ∧
        (tcpMss ≤ 2000 → bufSize + n < 4096) := fun {bound} hpos hle => by
    rw [padLen, hseeded]
    have := Nat.mod_lt seeded.next.1 hpos
    exact ⟨_, pyMod_of_pos hpos, fun hmss => by have := hle hmss; omega⟩
  unfold padBound
  by_cases hover : bufSize + overhead > tcpMss
  · rw [if_pos hover]
    exact hmod (by norm_num) fun _ => by omega
  rw [if_neg hover]
  by_cases hzero : bufSize ≥ 1440 ∨ bufSize + overhead = tcpMss
  · rw [if_pos hzero]
    exact hmod Nat.one_pos fun _ => by omega
  rw [if_neg hzero]
  rw [not_or] at hzero
  cases m with
  | rand =>
    refine hmod ?_ fun hmss => ?_
    · split_ifs <;> omega
    · split_ifs <;> omega
  | specA =>
    obtain ⟨hl, hl2⟩ := hu rfl
    obtain ⟨r, hr, hlt⟩ : ∃ r, rndSpecA lists overhead bufSize seeded = .ok r ∧
        bufSize + r.1 < 4096 := rndSpecA_spec hl hl2 (by omega) seeded
    refine ⟨r.1, ?_, fun _ => hlt⟩
    simp only [padLen, hseeded, bind, Except.bind, hr]

end AuthAkarin

end ShadowsocksR

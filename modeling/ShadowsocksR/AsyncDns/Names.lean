import ShadowsocksR.AsyncDns.Resolver
import ShadowsocksR.Lib.Pieces
import Mathlib.Data.Fintype.Pigeonhole
import Mathlib.Logic.Relation
import Mathlib.Order.Monotone.Basic

/-!
# Names in DNS messages

A name is its labels, each after a byte with its length, and a zero; or, in place
of the zero, a pointer to a name that stands elsewhere in the message, where
`parse_name` calls itself.

* `buildAddress`, `parseName`: writing and reading a name;
* `NameAt`: a name in a message, with pointers to earlier names;
* `parseName_of_nameAt`, `parseName_buildAddress`: these are read right;
* `Circular`: a pointer leads back to where one has come from;
* `returns_iff`: everywhere else `parse_name` comes to an end.
-/

namespace ShadowsocksR

namespace AsyncDns

/-! ## Writing -/

/-- `address.strip(b'.')` -/
def stripDots (address : Bytes) : Bytes :=
  ((address.dropWhile (· == 46)).reverse.dropWhile (· == 46)).reverse

/-- A label after its length. -/
def packLabel (label : Bytes) : Bytes := UInt8.ofNat label.length :: label

def buildAddress (address : Hostname) : Option Bytes :=
  let labels := (stripDots address).splitOn 46
  if labels.any fun label => 63 < label.length then none
  else some (labels.flatMap packLabel ++ [0])

/-- The labels of a hostname: what is between its dots. -/
def HasLabels (h : Hostname) : Prop := ∀ label ∈ h.splitOn 46, 1 ≤ label.length ∧ label.length ≤ 63

/-- A hostname without empty labels has no dots around it. -/
theorem stripDots_eq_self {h : Hostname} (hne : ([] : Bytes) ∉ h.splitOn 46) : stripDots h = h := by
  have hleft : h.dropWhile (· == 46) = h := by
    cases h with
    | nil => rfl
    | cons b h =>
      refine List.dropWhile_cons_of_neg fun hb => hne ?_
      rw [eq_of_beq hb, splitOn_self_cons]
      exact List.mem_cons_self
  have hright : h.reverse.dropWhile (· == 46) = h.reverse := by
    rcases List.eq_nil_or_concat h with rfl | ⟨l, b, rfl⟩
    · rfl
    · rw [List.concat_eq_append, List.reverse_append, List.reverse_singleton, List.singleton_append]
      refine List.dropWhile_cons_of_neg fun hb => hne ?_
      rw [List.concat_eq_append, eq_of_beq hb, List.splitOn_append_cons_self]
      exact List.mem_append_right _ (List.mem_singleton_self _)
  rw [stripDots, hleft, hright, List.reverse_reverse]

theorem HasLabels.stripDots_eq {h : Hostname} (hlabels : HasLabels h) : stripDots h = h :=
  stripDots_eq_self fun hnil => absurd (hlabels [] hnil).1 (by decide)

theorem HasLabels.buildAddress {h : Hostname} (hlabels : HasLabels h) :
    AsyncDns.buildAddress h = some ((h.splitOn 46).flatMap packLabel ++ [0]) := by
  rw [AsyncDns.buildAddress, hlabels.stripDots_eq, if_neg]
  simp only [List.any_eq_true, decide_eq_true_eq, not_exists, not_and, not_lt]
  exact fun label hlabel => (hlabels label hlabel).2

/-! ## Reading -/

/-- `b'.'.join(labels)` -/
def joinDots (labels : List Bytes) : Bytes := [46].intercalate labels

/-- What the loop of `parse_name` finds: the labels, the bytes that it has come past, and the
    pointer at the end. -/
structure Labels where
  labels : List Bytes := []
  length : ℕ
  pointer : Option ℕ := none

/-- `struct.unpack('!H', data[p:p + 2])[0] & 0x3FFF` -/
def unpackPointer : UInt8 → Bytes → Except PyExc ℕ
  | _, [] => .error .structError
  | l, l' :: _ => .ok (unpackBE [l, l'] &&& 0x3FFF)

/-- The loop of `parse_name`, on the message from `p` on, when it is to come past so many bytes of a
    label first. -/
def readLabels : ℕ → Bytes → Except PyExc Labels
  | _, [] => .error .indexError
  | 0, l :: rest =>
    if l = 0 then .ok { length := 1 }
    -- The two highest bits: a pointer.
    else if l &&& (128 + 64) = 128 + 64 then do
      let pointer ← unpackPointer l rest
      .ok { length := 2, pointer := some pointer }
    else do
      let s ← readLabels l.toNat rest
      .ok { s with labels := rest.take l.toNat :: s.labels, length := s.length + 1 }
  | k + 1, _ :: rest => do
    let s ← readLabels k rest
    .ok { s with length := s.length + 1 }

/-- `parse_name`, with so many frames left on the stack of the interpreter. -/
def parseName : ℕ → Bytes → ℕ → Except PyExc (ℕ × Bytes)
  | 0, _, _ => .error .recursionError
  | depth + 1, data, offset => do
    let s ← readLabels 0 (data.drop offset)
    match s.pointer with
    | none => .ok (s.length, joinDots s.labels)
    | some pointer =>
      let r ← parseName depth data pointer
      .ok (s.length, joinDots (s.labels ++ [r.2]))

/-! ## Labels -/

theorem readLabels_skip (label rest : Bytes) : readLabels label.length (label ++ rest) =
    (readLabels 0 rest).map fun s => { s with length := s.length + label.length } := by
  induction label with
  | nil =>
    change readLabels 0 rest = _
    cases readLabels 0 rest <;> rfl
  | cons b label ih =>
    rw [List.length_cons, List.cons_append, readLabels, ih]
    cases readLabels 0 rest <;> rfl

/-- The bytes of a length that is no pointer. -/
theorem length_byte {n : ℕ} (hpos : 1 ≤ n) (hle : n ≤ 63) : (UInt8.ofNat n).toNat = n ∧
    UInt8.ofNat n ≠ 0 ∧ UInt8.ofNat n &&& (128 + 64) ≠ 128 + 64 := by
  have hall : ∀ n ∈ List.range 64, 1 ≤ n → (UInt8.ofNat n).toNat = n ∧
      UInt8.ofNat n ≠ 0 ∧ UInt8.ofNat n &&& (128 + 64) ≠ 128 + 64 := by decide
  exact hall n (List.mem_range.2 (by omega)) hpos

theorem readLabels_packLabel {label : Bytes} (hpos : 1 ≤ label.length) (hle : label.length ≤ 63)
    (rest : Bytes) : readLabels 0 (packLabel label ++ rest) = (readLabels 0 rest).map fun s =>
      { s with labels := label :: s.labels, length := s.length + label.length + 1 } := by
  obtain ⟨hnat, hzero, hpointer⟩ := length_byte hpos hle
  rw [packLabel, List.cons_append, readLabels, if_neg hzero, if_neg hpointer, hnat,
    readLabels_skip, List.take_left]
  cases readLabels 0 rest <;> rfl

/-- Labels without a pointer are read to their zero. -/
theorem readLabels_flatMap {labels : List Bytes}
    (h : ∀ label ∈ labels, 1 ≤ label.length ∧ label.length ≤ 63) (rest : Bytes) :
    readLabels 0 (labels.flatMap packLabel ++ 0 :: rest) =
      .ok { labels := labels, length := (labels.flatMap packLabel).length + 1 } := by
  induction labels with
  | nil => rfl
  | cons label labels ih =>
    obtain ⟨hpos, hle⟩ := h label List.mem_cons_self
    rw [List.flatMap_cons, List.append_assoc, readLabels_packLabel hpos hle,
      ih fun label' h' => h label' (List.mem_cons_of_mem _ h')]
    simp only [Except.map, List.length_append, packLabel, List.length_cons]
    congr 2
    omega

theorem joinDots_cons (label : Bytes) {labels : List Bytes} (h : labels ≠ []) :
    joinDots (label :: labels) = label ++ [46] ++ joinDots labels :=
  List.intercalate_cons_of_ne_nil h

/-- What is joined can be joined again. -/
theorem joinDots_append_joinDots (labels : List Bytes) {labels' : List Bytes} (h : labels' ≠ []) :
    joinDots (labels ++ [joinDots labels']) = joinDots (labels ++ labels') := by
  induction labels with
  | nil => exact List.intercalate_singleton
  | cons label labels ih =>
    rw [List.cons_append, List.cons_append,
      joinDots_cons label (List.append_ne_nil_of_right_ne_nil _ (List.cons_ne_nil _ _)),
      joinDots_cons label (List.append_ne_nil_of_right_ne_nil _ h), ih]

/-! ## Names in a message -/

/-- A name that starts at `start`, from an offset on: its labels, and how many bytes it has. At its
    end is a zero, or a pointer to a name that starts earlier, and has labels. -/
inductive NameAt (data : Bytes) : ℕ → ℕ → List Bytes → ℕ → Prop
  | root {start offset : ℕ} : [0] <+: data.drop offset → NameAt data start offset [] 1
  | label {start offset : ℕ} {label : Bytes} {labels : List Bytes} {length : ℕ} :
    1 ≤ label.length → label.length ≤ 63 → packLabel label <+: data.drop offset →
    NameAt data start (offset + (label.length + 1)) labels length →
    NameAt data start offset (label :: labels) (label.length + 1 + length)
  | pointer {start offset target : ℕ} {labels : List Bytes} {length : ℕ} :
    target < start → target < 0x4000 → packBE 2 (0xC000 + target) <+: data.drop offset →
    NameAt data target target labels length → labels ≠ [] → NameAt data start offset labels 2

section

variable {data : Bytes} {start offset length : ℕ} {labels : List Bytes}

/-- The bytes of a pointer. -/
theorem readLabels_pointer {target : ℕ} (h : target < 0x4000) (rest : Bytes) :
    readLabels 0 (packBE 2 (0xC000 + target) ++ rest) =
      .ok { length := 2, pointer := some target } := by
  have hfirst : ∀ n ∈ List.range 64, UInt8.ofNat (192 + n) ≠ 0 ∧
      UInt8.ofNat (192 + n) &&& (128 + 64) = 128 + 64 := by decide
  have hhigh : (0xC000 + target) / 256 = 192 + target / 256 := by omega
  -- The mask takes the two highest bits off again.
  obtain ⟨hzero, hand⟩ := hfirst (target / 256) (List.mem_range.2 (by omega))
  have hvalue : unpackBE (packBE 2 (0xC000 + target)) &&& 0x3FFF = target := by
    rw [unpackBE_packBE (by omega), show 0x3FFF = 2 ^ 14 - 1 from rfl,
      Nat.and_two_pow_sub_one_eq_mod]
    omega
  have hbytes : packBE 2 (0xC000 + target) =
      [UInt8.ofNat (192 + target / 256), UInt8.ofNat (0xC000 + target)] := by
    rw [← hhigh]
    rfl
  rw [hbytes] at hvalue ⊢
  rw [List.cons_append, readLabels, if_neg hzero, if_pos hand]
  exact congrArg
    (fun p => (Except.ok { length := 2, pointer := some p } : Except PyExc Labels)) hvalue

/-- What the loop finds of a name. -/
theorem NameAt.readLabels (h : NameAt data start offset labels length) :
    ∃ s, readLabels 0 (data.drop offset) = .ok s ∧ s.length = length ∧
      (s.pointer = none ∧ s.labels = labels ∨
        ∃ target labels' length', s.pointer = some target ∧ target < start ∧
          NameAt data target target labels' length' ∧ labels' ≠ [] ∧
          labels = s.labels ++ labels') := by
  induction h with
  | @root start offset hroot =>
    obtain ⟨rest, hrest⟩ := hroot
    rw [← hrest]
    exact ⟨_, rfl, rfl, .inl ⟨rfl, rfl⟩⟩
  | @label start offset label labels length hpos hle hlabel _ ih =>
    obtain ⟨rest, hrest⟩ := hlabel
    have hdrop : data.drop (offset + (label.length + 1)) = rest := by
      rw [← List.drop_drop, ← hrest]
      exact List.drop_left
    obtain ⟨s, hs, hlength, hend⟩ := ih
    rw [hdrop] at hs
    rw [← hrest, readLabels_packLabel hpos hle, hs]
    refine ⟨_, rfl, ?_, ?_⟩
    · simp only
      omega
    · rcases hend with
        ⟨hnone, hlabels⟩ | ⟨target, labels', length', hsome, hlt, hname, hne, hlabels⟩
      · exact .inl ⟨hnone, congrArg _ hlabels⟩
      · exact .inr ⟨target, labels', length', hsome, hlt, hname, hne, congrArg _ hlabels⟩
  | @pointer start offset target labels length hlt hbound hpointer hname hne _ =>
    obtain ⟨rest, hrest⟩ := hpointer
    rw [← hrest, readLabels_pointer hbound]
    exact ⟨_, rfl, rfl, .inr ⟨target, labels, length, rfl, hlt, hname, hne, rfl⟩⟩

/-- A name is read right, and its length is that of its bytes at this place. -/
theorem parseName_of_nameAt (h : NameAt data start start labels length) {depth : ℕ}
    (hdepth : start < depth) : parseName depth data start = .ok (length, joinDots labels) := by
  -- A pointer is to a name that starts earlier, so there are fewer calls than bytes before the name.
  induction depth generalizing start labels length with
  | zero => exact absurd hdepth (Nat.not_lt_zero _)
  | succ depth ih =>
    obtain ⟨s, hs, rfl, hend⟩ := h.readLabels
    rw [parseName, hs]
    rcases hend with ⟨hnone, rfl⟩ | ⟨target, labels', length', hsome, hlt, hname, hne, rfl⟩
    · simp only [bind, Except.bind, hnone]
    · have hrec := ih hname (by omega)
      simp only [bind, Except.bind, hsome, hrec, joinDots_append_joinDots _ hne]

/-- A name that has been built is read as what it has been built from. -/
theorem parseName_flatMap {labels : List Bytes}
    (h : ∀ label ∈ labels, 1 ≤ label.length ∧ label.length ≤ 63) (pre rest : Bytes) (depth : ℕ) :
    parseName (depth + 1) (pre ++ labels.flatMap packLabel ++ 0 :: rest) pre.length =
      .ok ((labels.flatMap packLabel).length + 1, joinDots labels) := by
  rw [parseName, List.append_assoc, List.drop_left, readLabels_flatMap h]
  rfl

/-- Reading what has been built gives the hostname. -/
theorem parseName_buildAddress {h : Hostname} (hlabels : HasLabels h) (pre rest : Bytes)
    (depth : ℕ) : ∃ address, buildAddress h = some address ∧
      parseName (depth + 1) (pre ++ address ++ rest) pre.length = .ok (address.length, h) := by
  refine ⟨_, hlabels.buildAddress, ?_⟩
  have hparse := parseName_flatMap hlabels pre rest depth
  rw [joinDots, List.intercalate_splitOn] at hparse
  rw [List.length_append, List.length_singleton, ← hparse]
  simp only [List.append_assoc, List.singleton_append]

end

/-! ## Pointers -/

/-- The pointer at the end of the name at an offset. -/
def pointerAt (data : Bytes) (offset : ℕ) : Option ℕ :=
  match readLabels 0 (data.drop offset) with
  | .ok s => s.pointer
  | .error _ => none

/-- Following the pointers from an offset on leads to a name, and from there back to it. -/
def Circular (data : Bytes) (offset : ℕ) : Prop :=
  ∃ t, Relation.ReflTransGen (fun o t => pointerAt data o = some t) offset t ∧
    Relation.TransGen (fun o t => pointerAt data o = some t) t t

/-- A result, or an index or struct error. -/
def Ends {α : Type} (r : Except PyExc α) : Prop :=
  (∃ a, r = .ok a) ∨ r = .error .indexError ∨ r = .error .structError

/-- `parse_name` comes to an end, with some number of frames. -/
def Returns (data : Bytes) (offset : ℕ) : Prop := ∃ depth, Ends (parseName depth data offset)

theorem ends_ok {α : Type} (a : α) : Ends (.ok a : Except PyExc α) := .inl ⟨a, rfl⟩

theorem ends_error {α : Type} {e : PyExc} :
    Ends (.error e : Except PyExc α) ↔ e = .indexError ∨ e = .structError := by
  constructor
  · rintro (⟨_, h⟩ | h | h) <;> cases h
    · exact .inl rfl
    · exact .inr rfl
  · rintro (rfl | rfl)
    · exact .inr (.inl rfl)
    · exact .inr (.inr rfl)

theorem Ends.bind {α β : Type} {r : Except PyExc α} {f : α → Except PyExc β} (h : Ends r)
    (hf : ∀ a, r = .ok a → Ends (f a)) : Ends (r >>= f) := by
  cases r with
  | error e => exact ends_error.2 (ends_error.1 h)
  | ok a => exact hf a rfl

theorem ends_readLabels (k : ℕ) (bs : Bytes) : Ends (readLabels k bs) := by
  fun_induction readLabels k bs with
  | case1 => exact ends_error.2 (.inl rfl)
  | case2 => exact ends_ok _
  | case3 l rest => cases rest <;> simp [unpackPointer, Ends, bind, Except.bind]
  | case4 l rest _ _ ih => exact ih.bind fun s _ => ends_ok _
  | case5 k l rest ih => exact ih.bind fun s _ => ends_ok _

theorem readLabels_pointer_lt {k : ℕ} {bs : Bytes} {s : Labels} (h : readLabels k bs = .ok s)
    {pointer : ℕ} (hp : s.pointer = some pointer) : pointer < 0x4000 := by
  fun_induction readLabels k bs generalizing s with
  | case1 => cases h
  | case2 => cases h; cases hp
  | case3 l rest =>
    obtain ⟨p, hunpack, h'⟩ := bind_eq_ok.1 h
    cases h'
    cases hp
    cases rest with
    | nil => cases hunpack
    | cons l' rest =>
      cases hunpack
      exact Nat.lt_of_le_of_lt Nat.and_le_right (by omega)
  | case4 l rest _ _ ih =>
    obtain ⟨s', hs', h'⟩ := bind_eq_ok.1 h
    cases h'
    exact ih hs' hp
  | case5 k l rest ih =>
    obtain ⟨s', hs', h'⟩ := bind_eq_ok.1 h
    cases h'
    exact ih hs' hp

section

variable {data : Bytes} {offset target : ℕ}

theorem pointerAt_eq_some : pointerAt data offset = some target ↔
    ∃ s, readLabels 0 (data.drop offset) = .ok s ∧ s.pointer = some target := by
  rw [pointerAt]
  cases readLabels 0 (data.drop offset) with
  | error e => exact iff_of_false (fun h => nomatch h) fun ⟨_, h, _⟩ => nomatch h
  | ok s => exact ⟨fun h => ⟨s, rfl, h⟩, fun ⟨_, hs, h⟩ => by cases hs; exact h⟩

/-- A name without a pointer needs one frame. -/
theorem returns_of_pointerAt_none (h : pointerAt data offset = none) : Returns data offset := by
  refine ⟨1, ?_⟩
  rw [parseName]
  refine (ends_readLabels 0 _).bind fun s hs => ?_
  rw [pointerAt, hs] at h
  rw [show s.pointer = none from h]
  exact ends_ok _

/-- A name with a pointer needs one more than the name that it points to. -/
theorem ends_parseName_succ (h : pointerAt data offset = some target) (depth : ℕ) :
    Ends (parseName (depth + 1) data offset) ↔ Ends (parseName depth data target) := by
  obtain ⟨s, hs, hpointer⟩ := pointerAt_eq_some.1 h
  rw [parseName, hs]
  simp only [bind, Except.bind, hpointer]
  cases parseName depth data target with
  | error e => exact ends_error.trans ends_error.symm
  | ok r => exact iff_of_true (ends_ok _) (ends_ok _)

theorem returns_of_pointerAt (h : pointerAt data offset = some target)
    (hret : Returns data target) : Returns data offset := by
  obtain ⟨depth, hends⟩ := hret
  exact ⟨depth + 1, (ends_parseName_succ h depth).2 hends⟩

/-- A circle has an end nowhere. -/
theorem Circular.pointerAt (h : Circular data offset) :
    ∃ t, AsyncDns.pointerAt data offset = some t ∧ Circular data t := by
  obtain ⟨t, hreach, hloop⟩ := h
  rcases Relation.ReflTransGen.cases_head hreach with rfl | ⟨t', hfirst, hrest⟩
  · obtain ⟨t', hfirst, hrest⟩ := Relation.TransGen.head'_iff.1 hloop
    exact ⟨t', hfirst, offset, hrest, hloop⟩
  · exact ⟨t', hfirst, t, hrest, hloop⟩

/-- There, every number of frames is used up. -/
theorem Circular.parseName (h : Circular data offset) (depth : ℕ) :
    AsyncDns.parseName depth data offset = .error .recursionError := by
  induction depth generalizing offset with
  | zero => rfl
  | succ depth ih =>
    obtain ⟨t, hpointer, ht⟩ := h.pointerAt
    obtain ⟨s, hs, hp⟩ := pointerAt_eq_some.1 hpointer
    rw [AsyncDns.parseName, hs]
    simp only [bind, Except.bind, hp, ih ht]

theorem Circular.not_returns (h : Circular data offset) : ¬Returns data offset := by
  rintro ⟨depth, hends⟩
  rw [h.parseName depth, ends_error] at hends
  exact absurd hends (by decide)

/-- A path through finitely many places comes back to one of them. -/
theorem exists_transGen_self {r : ℕ → ℕ → Prop} {x : ℕ → ℕ} {bound : ℕ}
    (hstep : ∀ n, r (x n) (x (n + 1))) (hlt : ∀ n, x n < bound) :
    ∃ n, Relation.TransGen r (x n) (x n) := by
  have hpath : ∀ {i j}, i < j → Relation.TransGen r (x i) (x j) := fun {i j} hij =>
    Nat.rel_of_forall_rel_succ_of_lt (Relation.TransGen r) (fun n => .single (hstep n)) hij
  obtain ⟨i, j, hij, heq⟩ :=
    Finite.exists_ne_map_eq_of_infinite fun n : ℕ => (⟨x n, hlt n⟩ : Fin bound)
  have heq : x i = x j := congrArg Fin.val heq
  rcases Nat.lt_or_gt_of_ne hij with hlt | hgt
  · refine ⟨i, ?_⟩
    nth_rewrite 2 [heq]
    exact hpath hlt
  · refine ⟨j, ?_⟩
    nth_rewrite 2 [← heq]
    exact hpath hgt

/-- Where pointers lead on for ever, they lead back: there are only so many of them. -/
theorem circular_of_not_returns (h : ¬Returns data offset) : Circular data offset := by
  -- Follow the pointers from `offset`. No name on the way is without one, since that one returns, and
  -- all of them point below `2 ^ 14`: two places on the way are the same.
  let next : ℕ → ℕ := fun o => (pointerAt data o).getD 0
  have hnext : ∀ o, ¬Returns data o →
      pointerAt data o = some (next o) ∧ ¬Returns data (next o) := by
    intro o ho
    cases hp : pointerAt data o with
    | none => exact absurd (returns_of_pointerAt_none hp) ho
    | some t =>
      have ht : next o = t := congrArg (Option.getD · 0) hp
      rw [ht]
      exact ⟨rfl, fun hret => ho (returns_of_pointerAt hp hret)⟩
  have hchain : ∀ n, ¬Returns data (next^[n] offset) := by
    intro n
    induction n with
    | zero => exact h
    | succ n ih =>
      rw [Function.iterate_succ_apply']
      exact (hnext _ ih).2
  have hstep : ∀ n, pointerAt data (next^[n] offset) = some (next^[n + 1] offset) := by
    intro n
    rw [Function.iterate_succ_apply']
    exact (hnext _ (hchain n)).1
  have hlt : ∀ n, next^[n + 1] offset < 0x4000 := by
    intro n
    obtain ⟨s, hs, hp⟩ := pointerAt_eq_some.1 (hstep n)
    exact readLabels_pointer_lt hs hp
  obtain ⟨n, hn⟩ := exists_transGen_self (r := fun o t => pointerAt data o = some t)
    (fun n => hstep (n + 1)) hlt
  have hreach : ∀ n, Relation.ReflTransGen (fun o t => pointerAt data o = some t) offset
      (next^[n] offset) := by
    intro n
    induction n with
    | zero => exact .refl
    | succ n ih => exact ih.tail (hstep n)
  exact ⟨_, hreach _, hn⟩

/-- `parse_name` comes to an end, at each offset from which the pointers do not lead back. -/
theorem returns_iff : Returns data offset ↔ ¬Circular data offset :=
  ⟨fun hret hcirc => hcirc.not_returns hret,
    fun h => by_contra fun hret => h (circular_of_not_returns hret)⟩

end

end AsyncDns

end ShadowsocksR

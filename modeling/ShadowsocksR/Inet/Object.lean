import ShadowsocksR.Header
import ShadowsocksR.Inet.Texts
import ShadowsocksR.Lib.Pieces

/-!
# Addresses and their texts

`common.inet_ntop`, `common.inet_pton` and `common.is_ip`, which the server uses for IPv6 where a
platform may have no functions of its own.

`inet_pton` fills a table of eight groups, from the left up to the first empty group of the text,
and then from the right up to the last. Neither loop looks at the bounds of the table:

* `fillLeft_eq`, `fillRight_eq`: the groups that the two loops read;
* `fill_eq`: what a loop does, whatever it reads;
* `inetPton6_of_not_dot`: what `inet_pton` returns for a text without a dot.
-/

namespace ShadowsocksR

/-! ## IPv4 -/

/-- `socket.inet_ntoa` -/
def inetNtoa (ipstr : Bytes) : Text :=
  ['.'].intercalate (ipstr.map fun b => Nat.toDigits 10 b.toNat)

/-- `socket.inet_aton`, which takes more texts than those of `inet_ntoa`: hexadecimal and octal
    numbers, fewer than four of them, and anything after a space. -/
structure InetAton where
  aton : Text → Except PyExc Bytes
  length_aton : ∀ {s b}, aton s = .ok b → b.length = 4
  error_aton : ∀ {s e}, aton s = .error e → e = .osError ∨ e = .valueError
  aton_ntoa : ∀ {b : Bytes}, b.length = 4 → aton (inetNtoa b) = .ok b
  aton_colon : ∀ {s : Text}, ':' ∈ s → (∀ c ∈ s, isCSpace c = false) → ∃ e, aton s = .error e

/-- A number of `inet_ntoa`. -/
def readOctet (t : Text) : Option UInt8 :=
  ((List.range 256).find? fun n => Nat.toDigits 10 n = t).map UInt8.ofNat

theorem toDigits_of_readOctet {t : Text} {b : UInt8} (h : readOctet t = some b) :
    Nat.toDigits 10 b.toNat = t := by
  obtain ⟨n, hn, rfl⟩ := Option.map_eq_some_iff.1 h
  have hlt := List.mem_range.1 (List.mem_of_find?_eq_some hn)
  have := List.find?_some hn
  rw [UInt8.toNat_ofNat', Nat.mod_eq_of_lt hlt]
  simpa using this

theorem readOctet_toDigits (b : UInt8) : readOctet (Nat.toDigits 10 b.toNat) = some b := by
  cases h : readOctet (Nat.toDigits 10 b.toNat) with
  | none =>
    rw [readOctet, Option.map_eq_none_iff, List.find?_eq_none] at h
    exact absurd (decide_eq_true rfl) (h b.toNat (List.mem_range.2 b.toNat_lt))
  | some b' =>
    have := congrArg (Nat.ofDigitChars 10 · 0) (toDigits_of_readOctet h)
    simp only [Nat.ofDigitChars_ten_toDigits] at this
    rw [UInt8.toNat_inj.1 this]

theorem not_mem_toDigits {c : Char} (hc : c.isDigit = false) (n : ℕ) : c ∉ Nat.toDigits 10 n := by
  intro h
  rw [Nat.isDigit_of_mem_toDigits (by omega) (by omega) h] at hc
  cases hc

theorem mapM_readOctet (bs : Bytes) :
    (bs.map fun b => Nat.toDigits 10 b.toNat).mapM readOctet = some bs := by
  induction bs with
  | nil => rfl
  | cons b bs ih => simp [readOctet_toDigits, ih]

/-- The texts of numbers that `inet_ntoa` writes. -/
theorem map_toDigits_of_mapM {ts : List Text} {bs : Bytes} (h : ts.mapM readOctet = some bs) :
    bs.map (fun b => Nat.toDigits 10 b.toNat) = ts := by
  induction ts generalizing bs with
  | nil =>
    cases h
    rfl
  | cons t ts ih =>
    rw [List.mapM_cons] at h
    cases ht : readOctet t with
    | none => rw [ht] at h; cases h
    | some b =>
      cases hts : ts.mapM readOctet with
      | none => rw [ht, hts] at h; cases h
      | some bs' =>
        rw [ht, hts] at h
        cases h
        rw [List.map_cons, toDigits_of_readOctet ht, ih hts]

/-- Four numbers of `inet_ntoa`. -/
def readQuad (s : Text) : Option Bytes :=
  ((s.splitOn '.').mapM readOctet).filter fun b => b.length = 4

theorem splitOn_inetNtoa {b : Bytes} (hb : b.length = 4) :
    (inetNtoa b).splitOn '.' = b.map fun b => Nat.toDigits 10 b.toNat := by
  apply List.splitOn_intercalate
  · intro t ht
    obtain ⟨b', -, rfl⟩ := List.mem_map.1 ht
    exact not_mem_toDigits (by decide) _
  · intro hnil
    rw [List.map_eq_nil_iff.1 hnil] at hb
    cases hb

theorem readQuad_eq_some {s : Text} {b : Bytes} :
    readQuad s = some b ↔ b.length = 4 ∧ s = inetNtoa b := by
  rw [readQuad, Option.filter_eq_some_iff]
  constructor
  · rintro ⟨h, hb⟩
    refine ⟨of_decide_eq_true hb, ?_⟩
    rw [inetNtoa, map_toDigits_of_mapM h, List.intercalate_splitOn]
  · rintro ⟨hb, rfl⟩
    rw [splitOn_inetNtoa hb]
    exact ⟨mapM_readOctet b, decide_eq_true hb⟩

/-- No colon is in a text of `inet_ntoa`. -/
theorem colon_not_mem_inetNtoa (b : Bytes) : ':' ∉ inetNtoa b := by
  intro h
  rcases mem_intercalate h with h | ⟨t, ht, h⟩
  · exact absurd h (by decide)
  · obtain ⟨b', -, rfl⟩ := List.mem_map.1 ht
    exact not_mem_toDigits (by decide) _ h

/-- What is found, or else an `OSError`. -/
def orOSError (b : Option Bytes) : Except PyExc Bytes := b.elim (.error .osError) .ok

theorem orOSError_eq_ok {o : Option Bytes} {b : Bytes} : orOSError o = .ok b ↔ o = some b := by
  cases o with
  | none => exact ⟨fun h => (by cases h), fun h => (by cases h)⟩
  | some b' => simp [orOSError]

theorem orOSError_eq_error {o : Option Bytes} {e : PyExc} (h : orOSError o = .error e) :
    e = .osError := by
  cases o with
  | none =>
    cases h
    rfl
  | some b => cases h

/-- An `inet_aton` that takes the texts of `inet_ntoa` only. -/
def InetAton.strict : InetAton where
  aton s := orOSError (readQuad s)
  length_aton h := (readQuad_eq_some.1 (orOSError_eq_ok.1 h)).1
  error_aton h := .inl (orOSError_eq_error h)
  aton_ntoa hb := orOSError_eq_ok.2 (readQuad_eq_some.2 ⟨hb, rfl⟩)
  aton_colon := by
    intro s hcolon _
    cases hs : readQuad s with
    | none => exact ⟨_, rfl⟩
    | some b => exact absurd ((readQuad_eq_some.1 hs).2 ▸ hcolon) (colon_not_mem_inetNtoa b)

/-- An interpreter that knows no characters but those of ASCII. -/
def UnicodeData.ascii : UnicodeData where
  decimal _ := none
  isSpace _ := false
  isDigit c := c.isDigit
  isDigit_ascii _ _ := rfl

/-! ## IPv6 -/

/-- `zip(ipstr[::2], ipstr[1::2])` -/
def bytePairs : Bytes → List (UInt8 × UInt8)
  | i :: j :: ipstr => (i, j) :: bytePairs ipstr
  | _ => []

/-- `('%02X%02X' % (i, j)).lstrip('0')` -/
def stripGroup (p : UInt8 × UInt8) : Text :=
  (hexByte p.1 ++ hexByte p.2).dropWhile (· = '0')

/-- `inet_ntop(AF_INET6, ipstr)` -/
def inetNtop6 (ipstr : Bytes) : Text :=
  collapse ':' ([':'].intercalate ((bytePairs ipstr).map stripGroup))

/-- `dbyts[k] = n`, where a negative `k` counts from the end. -/
def setGroup (dbyts : List ℤ) (k n : ℤ) : Except PyExc (List ℤ) :=
  let k := if k < 0 then k + dbyts.length else k
  if 0 ≤ k ∧ k < dbyts.length then .ok (dbyts.set k.toNat n) else .error .indexError

/-- `chr(d)` of `common`: a byte. -/
def chr (d : ℤ) : Except PyExc UInt8 :=
  if 0 ≤ d ∧ d < 256 then .ok (UInt8.ofNat d.toNat) else .error .valueError

/-- `b''.join((chr(i // 256) + chr(i % 256)) for i in dbyts)` -/
def joinGroups : List ℤ → Except PyExc Bytes
  | [] => .ok []
  | i :: dbyts => do return (← chr (i / 256)) :: (← chr (i % 256)) :: (← joinGroups dbyts)

namespace UnicodeData

variable (u : UnicodeData)

/-- `int(w, 16)` -/
def group (w : Text) : Except PyExc ℤ := (u.int 16 w).elim (.error .valueError) .ok

/-- The inner loop of `inet_pton`, over the groups from the right. -/
def fillRight : ℕ → List Text → List ℤ → Except PyExc (List ℤ)
  | _, [], dbyts => .ok dbyts
  | j, w :: ws, dbyts =>
    if w = [] then .ok dbyts
    else do
      let n ← u.group w
      fillRight (j + 1) ws (← setGroup dbyts (7 - j) n)

/-- The outer loop of `inet_pton`. -/
def fillLeft (grps : List Text) : ℕ → List Text → List ℤ → Except PyExc (List ℤ)
  | _, [], dbyts => .ok dbyts
  | i, v :: vs, dbyts =>
    if v = [] then u.fillRight 0 grps.reverse dbyts
    else do
      let n ← u.group v
      fillLeft grps (i + 1) vs (← setGroup dbyts i n)

end UnicodeData

/-! ## What the loops do -/

namespace UnicodeData

variable (u : UnicodeData)

/-- A loop that writes the numbers of groups into the table, the `j`-th at `pos j`. -/
def fill (pos : ℕ → ℤ) : ℕ → List Text → List ℤ → Except PyExc (List ℤ)
  | _, [], dbyts => .ok dbyts
  | j, w :: ws, dbyts => do
    let n ← u.group w
    fill pos (j + 1) ws (← setGroup dbyts (pos j) n)

/-- The numbers of groups. -/
def groups (ws : List Text) : List ℤ := ws.filterMap (u.int 16)

/-- One of the first `m` groups is no number. -/
def Unread (m : ℕ) (ws : List Text) : Prop := ∃ w ∈ ws.take m, u.int 16 w = none

instance (m : ℕ) (ws : List Text) : Decidable (u.Unread m ws) :=
  inferInstanceAs (Decidable (∃ w ∈ ws.take m, u.int 16 w = none))

/-- The loop from the right ends at an empty group. -/
theorem fillRight_eq (j : ℕ) (ws : List Text) (dbyts : List ℤ) :
    u.fillRight j ws dbyts = u.fill (fun j => 7 - j) j (leading ws) dbyts := by
  induction ws generalizing j dbyts with
  | nil => rfl
  | cons w ws ih =>
    cases w with
    | nil => rfl
    | cons c w =>
      rw [fillRight, if_neg (List.cons_ne_nil c w)]
      show _ = u.fill _ j ((c :: w) :: leading ws) dbyts
      rw [fill]
      simp only [ih]

/-- So does the loop from the left, where the other one begins. -/
theorem fillLeft_eq (grps : List Text) (i : ℕ) (vs : List Text) (dbyts : List ℤ) :
    u.fillLeft grps i vs dbyts = u.fill (fun i => i) i (leading vs) dbyts >>= fun dbyts =>
      if [] ∈ vs then u.fillRight 0 grps.reverse dbyts else .ok dbyts := by
  induction vs generalizing i dbyts with
  | nil => rfl
  | cons v vs ih =>
    cases v with
    | nil => exact if_pos rfl
    | cons c v =>
      have hmem : [] ∈ (c :: v) :: vs ↔ [] ∈ vs := by simp
      rw [fillLeft, if_neg (List.cons_ne_nil c v)]
      show _ = u.fill _ i ((c :: v) :: leading vs) dbyts >>= _
      rw [fill]
      simp only [ih, hmem, bind_assoc]

end UnicodeData

/-- The table after `ns` has been written to the places `pos`. -/
def write (pos : ℕ → ℤ) : ℕ → List ℤ → List ℤ → List ℤ
  | _, [], dbyts => dbyts
  | j, n :: ns, dbyts => write pos (j + 1) ns (dbyts.set (pos j % 8).toNat n)

theorem length_write (pos : ℕ → ℤ) (j : ℕ) (ns dbyts : List ℤ) :
    (write pos j ns dbyts).length = dbyts.length := by
  induction ns generalizing j dbyts with
  | nil => rfl
  | cons n ns ih => rw [write, ih, List.length_set]

/-- What is written last. -/
theorem write_append_singleton (pos : ℕ → ℤ) (j : ℕ) (ns : List ℤ) (n : ℤ) (dbyts : List ℤ) :
    write pos j (ns ++ [n]) dbyts =
      (write pos j ns dbyts).set (pos (j + ns.length) % 8).toNat n := by
  induction ns generalizing j dbyts with
  | nil => rfl
  | cons n' ns ih =>
    rw [List.cons_append, write, write, ih, List.length_cons, Nat.add_right_comm]
    rfl

/-- The places of the table. -/
theorem setGroup_of_lt {dbyts : List ℤ} (hlen : dbyts.length = 8) {k : ℤ} (hk : -8 ≤ k ∧ k < 8)
    (n : ℤ) : setGroup dbyts k n = .ok (dbyts.set (k % 8).toNat n) := by
  rw [setGroup, hlen]
  split_ifs with hneg h h
  · rw [show k % 8 = k + 8 by omega]
    rfl
  · omega
  · rw [show k % 8 = k by omega]
  · omega

theorem setGroup_of_not {dbyts : List ℤ} (hlen : dbyts.length = 8) {k : ℤ} (hk : ¬(-8 ≤ k ∧ k < 8))
    (n : ℤ) : setGroup dbyts k n = .error .indexError := by
  rw [setGroup, hlen]
  split_ifs with hneg h h
  · omega
  · rfl
  · omega
  · rfl

namespace UnicodeData

variable (u : UnicodeData)

/-- A loop that has `m` places: it reads one group more than it can write. -/
theorem fill_eq {pos : ℕ → ℤ} {m : ℕ} (hpos : ∀ j < m, -8 ≤ pos j ∧ pos j < 8)
    (hm : ¬(-8 ≤ pos m ∧ pos m < 8)) {j : ℕ} (hj : j ≤ m) (ws : List Text) {dbyts : List ℤ}
    (hlen : dbyts.length = 8) :
    u.fill pos j ws dbyts =
      if u.Unread (m + 1 - j) ws then .error .valueError
      else if m - j < ws.length then .error .indexError
      else .ok (write pos j (u.groups ws) dbyts) := by
  induction ws generalizing j dbyts with
  | nil => simp [fill, Unread, groups, write]
  | cons w ws ih =>
    have htake : (w :: ws).take (m + 1 - j) = w :: ws.take (m - j) := by
      rw [show m + 1 - j = m - j + 1 by omega]
      rfl
    rw [fill, group]
    cases hn : u.int 16 w with
    | none =>
      rw [if_pos ⟨w, htake ▸ List.mem_cons_self, hn⟩]
      rfl
    | some n =>
      show (setGroup dbyts (pos j) n >>= fun dbyts => u.fill pos (j + 1) ws dbyts) = _
      have hunread : u.Unread (m + 1 - j) (w :: ws) ↔ u.Unread (m - j) ws := by
        simp [Unread, htake, hn]
      have hgroups : u.groups (w :: ws) = n :: u.groups ws := List.filterMap_cons_some hn
      rcases Nat.lt_or_eq_of_le hj with hlt | rfl
      · have hif : (m - j < (w :: ws).length) = (m - (j + 1) < ws.length) := by
          rw [List.length_cons, eq_iff_iff]
          omega
        rw [setGroup_of_lt hlen (hpos j hlt)]
        show u.fill pos (j + 1) ws _ = _
        rw [ih hlt ((List.length_set ..).trans hlen), hgroups, write, Nat.add_sub_add_right]
        simp only [hunread, hif]
      · -- There is no place for this group.
        have hread : ¬u.Unread (j + 1 - j) (w :: ws) := by
          rw [hunread, Nat.sub_self]
          rintro ⟨w', hw', -⟩
          exact List.not_mem_nil hw'
        have hlong : j - j < (w :: ws).length := by
          rw [Nat.sub_self]
          exact Nat.succ_pos _
        rw [setGroup_of_not hlen hm, if_neg hread, if_pos hlong]
        rfl

end UnicodeData

/-- The table after both loops, in which the loop from the right has the last word. -/
def cells (left right : List ℤ) : List ℤ :=
  (List.range 8).map fun c => (right[15 - c]? <|> right[7 - c]? <|> left[c]?).getD 0

theorem length_cells (left right : List ℤ) : (cells left right).length = 8 := by
  rw [cells, List.length_map, List.length_range]

theorem getElem?_cells (left right : List ℤ) {c : ℕ} (hc : c < 8) :
    (cells left right)[c]? = some ((right[15 - c]? <|> right[7 - c]? <|> left[c]?).getD 0) := by
  rw [cells, List.getElem?_map, List.getElem?_range hc]
  rfl

/-- The numbers of groups, written from the left. -/
theorem write_left {left : List ℤ} (h : left.length ≤ 8) :
    write (fun i => i) 0 left (List.replicate 8 0) = cells left [] := by
  induction left using List.reverseRecOn with
  | nil => rfl
  | append_singleton left n ih =>
    rw [List.length_append, List.length_singleton] at h
    have hplace : (((0 + left.length : ℕ) : ℤ) % 8).toNat = left.length := by omega
    rw [write_append_singleton, ih (by omega), hplace]
    apply List.ext_getElem?
    intro c
    rw [List.getElem?_set, length_cells, if_pos (show left.length < 8 by omega)]
    rcases Nat.lt_or_ge c 8 with hc | hc
    · rw [getElem?_cells _ _ hc, getElem?_cells _ _ hc]
      simp only [List.getElem?_append, List.getElem?_nil, List.getElem?_singleton]
      grind
    · rw [if_neg (by omega), List.getElem?_eq_none (by rw [length_cells]; exact hc),
        List.getElem?_eq_none (by rw [length_cells]; exact hc)]

/-- And the others from the right: from the eighth on they are written over the first ones. -/
theorem write_right (left : List ℤ) {right : List ℤ} (h : right.length ≤ 16) :
    write (fun j => 7 - j) 0 right (cells left []) = cells left right := by
  induction right using List.reverseRecOn with
  | nil => rfl
  | append_singleton right n ih =>
    rw [List.length_append, List.length_singleton] at h
    rw [write_append_singleton, ih (by omega)]
    apply List.ext_getElem?
    intro c
    rw [List.getElem?_set, length_cells]
    rcases Nat.lt_or_ge c 8 with hc | hc
    · rw [getElem?_cells _ _ hc, getElem?_cells _ _ hc]
      simp only [List.getElem?_append, List.getElem?_singleton]
      grind
    · rw [if_neg (by omega), List.getElem?_eq_none (by rw [length_cells]; exact hc),
        List.getElem?_eq_none (by rw [length_cells]; exact hc)]

namespace InetAton

variable (P : InetAton) (u : UnicodeData)

/-- `inet_pton(AF_INET6, addr)`, with what is left of the stack of calls. -/
def inetPton6 : ℕ → Text → Except PyExc Bytes
  | 0, _ => .error .recursionError
  | depth + 1, addr =>
    if '.' ∈ addr then
      if ':' ∈ addr then do
        -- `addr[addr.rindex(':') + 1:]`
        let v4addr ← P.aton (addr.rtakeWhile (· ≠ ':'))
        let v4addr := (v4addr.map hexByte).insertIdx 2 [':']
        inetPton6 depth (addr.rdropWhile (· ≠ ':') ++ v4addr.flatten)
      else .error .valueError
    else do
      let grps := addr.splitOn ':'
      joinGroups (← u.fillLeft grps 0 grps (List.replicate 8 0))

/-- The exceptions that `is_ip` handles. -/
def handles : PyExc → Bool
  | .typeError | .valueError | .osError => true
  | _ => false

/-- `is_ip(address)`, of a `str` -/
def isIp (depth : ℕ) (address : Text) : Except PyExc (Option Family) :=
  match P.aton address with
  | .ok _ => .ok (some .inet)
  | .error e =>
    if handles e then
      match P.inetPton6 u depth address with
      | .ok _ => .ok (some .inet6)
      | .error e => if handles e then .ok none else .error e
    else .error e

/-! ## Texts without a dot -/

end InetAton

/-- A number of 16 bits. -/
def IsWord (n : ℤ) : Prop := 0 ≤ n ∧ n < 65536

instance (n : ℤ) : Decidable (IsWord n) := inferInstanceAs (Decidable (_ ∧ _))

/-- The bytes of numbers of 16 bits. -/
def wordBytes (ns : List ℤ) : Bytes := ns.flatMap fun n => packBE 2 n.toNat

theorem joinGroups_eq (ns : List ℤ) :
    joinGroups ns = if ∃ n ∈ ns, ¬IsWord n then .error .valueError else .ok (wordBytes ns) := by
  induction ns with
  | nil => rfl
  | cons n ns ih =>
    by_cases hn : IsWord n
    · have hif : (∃ n' ∈ n :: ns, ¬IsWord n') = ∃ n' ∈ ns, ¬IsWord n' := by simp [hn]
      obtain ⟨h₀, h₁⟩ := hn
      have hhigh : chr (n / 256) = .ok (UInt8.ofNat (n.toNat / 256)) := by
        rw [chr, if_pos (by omega), show (n / 256).toNat = n.toNat / 256 by omega]
      have hlow : chr (n % 256) = .ok (UInt8.ofNat n.toNat) := by
        rw [chr, if_pos (by omega), show (n % 256).toNat = n.toNat % 256 by omega]
        exact congrArg _ (UInt8.toNat_inj.1 (by simp))
      rw [joinGroups, hhigh, hlow, ih]
      simp only [hif]
      split_ifs
      · rfl
      · rfl
    · rw [if_pos ⟨n, List.mem_cons_self, hn⟩, joinGroups]
      rw [IsWord] at hn
      rw [chr, if_neg (by omega)]
      rfl

theorem length_wordBytes (ns : List ℤ) : (wordBytes ns).length = 2 * ns.length := by
  induction ns with
  | nil => rfl
  | cons n ns ih =>
    have hcons : wordBytes (n :: ns) = packBE 2 n.toNat ++ wordBytes ns := rfl
    rw [hcons, List.length_append, length_packBE, ih, List.length_cons]
    omega

/-- The groups that `inet_pton` reads from the left. -/
def leftGroups (s : Text) : List Text := leading (s.splitOn ':')

/-- The groups that it reads from the right, the last one first. -/
def rightGroups (s : Text) : List Text :=
  if [] ∈ s.splitOn ':' then (trailing (s.splitOn ':')).reverse else []

namespace InetAton

variable (P : InetAton) (u : UnicodeData)

/-- What `inet_pton` returns for a text without a dot. The nine groups and the seventeen are one
    more than the indices that the loops can use. -/
theorem inetPton6_of_not_dot (depth : ℕ) {s : Text} (hs : '.' ∉ s) :
    P.inetPton6 u (depth + 1) s =
      if u.Unread 9 (leftGroups s) then .error .valueError
      else if 8 < (leftGroups s).length then .error .indexError
      else if u.Unread 17 (rightGroups s) then .error .valueError
      else if 16 < (rightGroups s).length then .error .indexError
      else joinGroups (cells (u.groups (leftGroups s)) (u.groups (rightGroups s))) := by
  have hleft : u.fill (fun i => i) 0 (leftGroups s) (List.replicate 8 0) =
      if u.Unread 9 (leftGroups s) then .error .valueError
      else if 8 < (leftGroups s).length then .error .indexError
      else .ok (write (fun i => i) 0 (u.groups (leftGroups s)) (List.replicate 8 0)) :=
    u.fill_eq (m := 8) (by omega) (by omega) (Nat.zero_le _) _ List.length_replicate
  have hright (left : List ℤ) :
      (if [] ∈ s.splitOn ':' then u.fillRight 0 (s.splitOn ':').reverse (cells left [])
        else .ok (cells left [])) =
      if u.Unread 17 (rightGroups s) then .error .valueError
      else if 16 < (rightGroups s).length then .error .indexError
      else .ok (write (fun j => 7 - j) 0 (u.groups (rightGroups s)) (cells left [])) := by
    by_cases hnil : [] ∈ s.splitOn ':'
    · rw [if_pos hnil, rightGroups, if_pos hnil, u.fillRight_eq, leading_reverse]
      exact u.fill_eq (m := 16) (by omega) (by omega) (Nat.zero_le _) _ (length_cells left [])
    · rw [if_neg hnil, rightGroups, if_neg hnil]
      rfl
  have hlen (ws : List Text) : (u.groups ws).length ≤ ws.length := List.length_filterMap_le _ _
  rw [inetPton6, if_neg hs]
  simp only [UnicodeData.fillLeft_eq]
  show u.fill (fun i => i) 0 (leftGroups s) _ >>= _ >>= _ = _
  rw [hleft]
  by_cases h₁ : u.Unread 9 (leftGroups s)
  · rw [if_pos h₁, if_pos h₁]
    rfl
  by_cases h₂ : 8 < (leftGroups s).length
  · rw [if_neg h₁, if_neg h₁, if_pos h₂, if_pos h₂]
    rfl
  rw [if_neg h₁, if_neg h₁, if_neg h₂, if_neg h₂, write_left ((hlen _).trans (Nat.not_lt.1 h₂))]
  show (if _ then _ else _) >>= _ = _
  rw [hright]
  by_cases h₃ : u.Unread 17 (rightGroups s)
  · rw [if_pos h₃, if_pos h₃]
    rfl
  by_cases h₄ : 16 < (rightGroups s).length
  · rw [if_neg h₃, if_neg h₃, if_pos h₄, if_pos h₄]
    rfl
  rw [if_neg h₃, if_neg h₃, if_neg h₄, if_neg h₄,
    write_right _ ((hlen _).trans (Nat.not_lt.1 h₄))]
  rfl

end InetAton

/-- No number from the right comes on top of one from the left where there are at most eight. -/
theorem cells_reverse {left right : List ℤ} (h : left.length + right.length ≤ 8) :
    cells left right.reverse =
      left ++ List.replicate (8 - left.length - right.length) 0 ++ right := by
  apply List.ext_getElem?
  intro c
  rcases Nat.lt_or_ge c 8 with hc | hc
  · rw [getElem?_cells _ _ hc, List.getElem?_append, List.getElem?_append, List.length_append,
      List.length_replicate, List.getElem?_replicate,
      List.getElem?_eq_none (by rw [List.length_reverse]; omega)]
    by_cases hright : 7 - c < right.length
    · have hplace : right.length - 1 - (7 - c) =
          c - (left.length + (8 - left.length - right.length)) := by omega
      rw [List.getElem?_reverse hright, if_neg (by omega), hplace]
      rw [List.getElem?_eq_getElem (by omega)]
      rfl
    · rw [List.getElem?_eq_none (by rw [List.length_reverse]; omega), if_pos (by omega)]
      split_ifs with hleft
      · rw [List.getElem?_eq_getElem hleft]
        rfl
      · rw [List.getElem?_eq_none (by omega)]
        rfl
      · omega
  · rw [List.getElem?_eq_none (by rw [length_cells]; exact hc), List.getElem?_eq_none]
    rw [List.length_append, List.length_append, List.length_replicate]
    omega

namespace UnicodeData

variable (u : UnicodeData)

/-- The numbers of groups that are all numbers. -/
theorem groups_of_map {ws : List Text} {ns : List ℤ} (h : ws.map (u.int 16) = ns.map some) :
    u.groups ws = ns := by
  have := congrArg (List.filterMap id) h
  rw [List.filterMap_map, List.filterMap_map] at this
  exact this.trans List.filterMap_some

theorem not_unread_of_map {ws : List Text} {ns : List ℤ} (h : ws.map (u.int 16) = ns.map some)
    (m : ℕ) : ¬u.Unread m ws := by
  rintro ⟨w, hw, hnone⟩
  have : none ∈ ns.map some := h ▸ hnone ▸ List.mem_map_of_mem (List.mem_of_mem_take hw)
  simp at this

end UnicodeData

/-- The text is at most eight numbers of 16 bits, with zeros where the first ones end. -/
theorem InetAton.inetPton6_of_words (P : InetAton) (u : UnicodeData) (depth : ℕ) {s : Text}
    (hs : '.' ∉ s) {left right : List ℤ} (hleft : (leftGroups s).map (u.int 16) = left.map some)
    (hright : (rightGroups s).reverse.map (u.int 16) = right.map some)
    (hlen : left.length + right.length ≤ 8) (hwords : ∀ n ∈ left ++ right, IsWord n) :
    P.inetPton6 u (depth + 1) s = .ok
      (wordBytes (left ++ List.replicate (8 - left.length - right.length) 0 ++ right)) := by
  have hright' : (rightGroups s).map (u.int 16) = right.reverse.map some := by
    rw [List.map_reverse, ← hright, List.map_reverse, List.reverse_reverse]
  have hl : (leftGroups s).length = left.length := by simpa using congrArg List.length hleft
  have hr : (rightGroups s).length = right.length := by simpa using congrArg List.length hright
  rw [P.inetPton6_of_not_dot u depth hs, if_neg (u.not_unread_of_map hleft 9), if_neg (by omega),
    if_neg (u.not_unread_of_map hright' 17), if_neg (by omega), u.groups_of_map hleft,
    u.groups_of_map hright', cells_reverse hlen, joinGroups_eq, if_neg]
  rintro ⟨n, hn, hword⟩
  rcases List.mem_append.1 hn with hn | hn
  · rcases List.mem_append.1 hn with hn | hn
    · exact hword (hwords n (List.mem_append_left _ hn))
    · rw [List.eq_of_mem_replicate hn] at hword
      exact hword ⟨Int.le_refl 0, by decide⟩
  · exact hword (hwords n (List.mem_append_right _ hn))

/-! ## Groups -/

/-- The number of a group. -/
def word (p : UInt8 × UInt8) : ℤ := 256 * p.1.toNat + p.2.toNat

theorem isWord_word (p : UInt8 × UInt8) : IsWord (word p) := by
  have h₁ := p.1.toNat_lt
  have h₂ := p.2.toNat_lt
  rw [IsWord, word]
  omega

theorem word_eq_zero {p : UInt8 × UInt8} : word p = 0 ↔ p = (0, 0) := by
  constructor
  · intro h
    rw [word] at h
    exact Prod.ext (UInt8.toNat_inj.1 (by simp; omega)) (UInt8.toNat_inj.1 (by simp; omega))
  · rintro rfl
    rfl

theorem length_bytePairs {b : Bytes} {n : ℕ} (h : b.length = 2 * n) :
    (bytePairs b).length = n := by
  induction n generalizing b with
  | zero => rw [List.eq_nil_of_length_eq_zero h]; rfl
  | succ n ih =>
    match b, h with
    | i :: j :: b, h => rw [bytePairs, List.length_cons, ih (by simp at h; omega)]

theorem wordBytes_cons (p : UInt8 × UInt8) (ns : List ℤ) :
    wordBytes (word p :: ns) = p.1 :: p.2 :: wordBytes ns := by
  have h₁ := p.1.toNat_lt
  have h₂ := p.2.toNat_lt
  have hhigh : UInt8.ofNat ((word p).toNat / 256) = p.1 := by
    rw [word, show (256 * (p.1.toNat : ℤ) + p.2.toNat).toNat / 256 = p.1.toNat by omega,
      UInt8.ofNat_toNat]
  have hlow : UInt8.ofNat (word p).toNat = p.2 := by
    apply UInt8.toNat_inj.1
    rw [UInt8.toNat_ofNat', word]
    omega
  show UInt8.ofNat _ :: UInt8.ofNat _ :: wordBytes ns = _
  rw [hhigh, hlow]

theorem wordBytes_map_word (ps : List (UInt8 × UInt8)) :
    bytePairs (wordBytes (ps.map word)) = ps := by
  induction ps with
  | nil => rfl
  | cons p ps ih => rw [List.map_cons, wordBytes_cons, bytePairs, ih]

theorem wordBytes_bytePairs {b : Bytes} {n : ℕ} (h : b.length = 2 * n) :
    wordBytes ((bytePairs b).map word) = b := by
  induction n generalizing b with
  | zero => rw [List.eq_nil_of_length_eq_zero h]; rfl
  | succ n ih =>
    match b, h with
    | i :: j :: b, h => rw [bytePairs, List.map_cons, wordBytes_cons, ih (by simp at h; omega)]

end ShadowsocksR

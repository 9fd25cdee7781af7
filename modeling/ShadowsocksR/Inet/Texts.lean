import ShadowsocksR.Lib.Bytes
import Mathlib.Data.List.DropRight
import Mathlib.Tactic.IntervalCases
import Mathlib.Tactic.Common

/-!
# Numbers in texts

What `int` reads in a `str`, and the numbers that the code writes.

* `UnicodeData.int`: `int(text, base)`;
* `int_of_digits`: of a text of digits it is their number;
* `hexByte`: a byte as `%02X`;
* `digitsValue_hexByte`: the number that two bytes in `%02X` are.
-/

namespace ShadowsocksR

/-- A `str`. (A lone surrogate, which is no `Char`, is neither a digit nor a space nor any of the
    separators, like many others.) -/
abbrev Text := List Char

/-- What an interpreter knows of the characters that are not ASCII. -/
structure UnicodeData where
  /-- `unicodedata.decimal` -/
  decimal : Char → Option (Fin 10)
  /-- `str.isspace`, of a character -/
  isSpace : Char → Bool
  /-- `str.isdigit`, of a character -/
  isDigit : Char → Bool
  isDigit_ascii : ∀ c, c.toNat < 127 → isDigit c = c.isDigit

/-- The value of a digit. -/
def digitValue (c : Char) : Option ℕ :=
  let n := c.toNat
  if 48 ≤ n ∧ n ≤ 57 then some (n - 48)
  else if 97 ≤ n ∧ n ≤ 122 then some (n - 87)
  else if 65 ≤ n ∧ n ≤ 90 then some (n - 55)
  else none

/-- The character is a digit of the base. -/
def IsDigit (base : ℕ) (c : Char) : Prop := ∃ d < base, digitValue c = some d

instance (base : ℕ) (c : Char) : Decidable (IsDigit base c) :=
  decidable_of_iff (∃ d ∈ digitValue c, d < base)
    ⟨fun ⟨d, h, hd⟩ => ⟨d, hd, h⟩, fun ⟨d, hd, h⟩ => ⟨d, h, hd⟩⟩

/-- The number that a text of digits is. -/
def digitsValue (base : ℕ) (s : Text) : ℕ :=
  s.foldl (fun n c => base * n + (digitValue c).getD 0) 0

/-! ## `int` -/

/-- The character that `int` takes another one for. -/
def UnicodeData.toAscii (u : UnicodeData) (c : Char) : Char :=
  if c.toNat < 127 then c
  else if u.isSpace c then ' '
  else
    match u.decimal c with
    | some d => Char.ofNat (48 + d)
    | none => '?'

/-- The spaces of C. -/
def isCSpace (c : Char) : Bool := c.toNat = 32 || (9 ≤ c.toNat && c.toNat ≤ 13)

/-- Digits, with single underscores between them; `sep` says that a digit must follow. -/
def scanDigits (base n : ℕ) (sep : Bool) : Text → Option ℕ
  | [] => if sep then none else some n
  | c :: s =>
    match digitValue c with
    | some d => if d < base then scanDigits base (base * n + d) false s else none
    | none => if c = '_' ∧ sep = false then scanDigits base n true s else none

/-- A number without a sign; in base 16 it can begin with `0x`, and an underscore after that. -/
def scanNumber (base : ℕ) (s : Text) : Option ℕ :=
  match base, s with
  | 16, '0' :: 'x' :: '_' :: s | 16, '0' :: 'X' :: '_' :: s => scanDigits 16 0 true s
  | 16, '0' :: 'x' :: s | 16, '0' :: 'X' :: s => scanDigits 16 0 true s
  | base, s => scanDigits base 0 true s

/-- `int(s, base)`, which raises `ValueError` where there is nothing. -/
def UnicodeData.int (u : UnicodeData) (base : ℕ) (s : Text) : Option ℤ :=
  match ((s.map u.toAscii).dropWhile isCSpace).rdropWhile isCSpace with
  | '-' :: s => (scanNumber base s).map fun n => -(n : ℤ)
  | '+' :: s => (scanNumber base s).map Nat.cast
  | s => (scanNumber base s).map Nat.cast

/-! ## Texts of digits -/

variable {base : ℕ} {c : Char} {s : Text}

/-- The digits are letters and numbers of ASCII. -/
theorem toNat_of_digitValue {d : ℕ} (h : digitValue c = some d) :
    48 ≤ c.toNat ∧ c.toNat ≤ 57 ∧ d = c.toNat - 48 ∨
    97 ≤ c.toNat ∧ c.toNat ≤ 122 ∧ d = c.toNat - 87 ∨
    65 ≤ c.toNat ∧ c.toNat ≤ 90 ∧ d = c.toNat - 55 := by
  rw [digitValue] at h
  split_ifs at h with h₁ h₂ h₃ <;> cases h <;> omega

theorem toNat_of_isDigit (h : c.isDigit = true) : 48 ≤ c.toNat ∧ c.toNat ≤ 57 := by
  simpa [Char.isDigit, UInt32.le_iff_toNat_le] using h

/-- The ten digits are digits of the larger bases. -/
theorem isDigit_of_isDigit (hbase : 10 ≤ base) (h : c.isDigit = true) : IsDigit base c := by
  have hn := toNat_of_isDigit h
  exact ⟨c.toNat - 48, by omega, by rw [digitValue]; exact if_pos hn⟩

theorem isCSpace_of_digit (h : IsDigit base c) : isCSpace c = false := by
  obtain ⟨d, -, hd⟩ := h
  have := toNat_of_digitValue hd
  simp only [isCSpace, Bool.or_eq_false_iff, Bool.and_eq_false_iff, decide_eq_false_iff_not]
  omega

theorem toAscii_of_digit (u : UnicodeData) (h : IsDigit base c) : u.toAscii c = c := by
  obtain ⟨d, -, hd⟩ := h
  have := toNat_of_digitValue hd
  exact if_pos (by omega)

theorem scanDigits_of_digits (h : ∀ c ∈ s, IsDigit base c) (n : ℕ) :
    scanDigits base n false s =
      some (s.foldl (fun n c => base * n + (digitValue c).getD 0) n) := by
  induction s generalizing n with
  | nil => rfl
  | cons c s ih =>
    obtain ⟨d, hd, hc⟩ := h c List.mem_cons_self
    rw [scanDigits, hc]
    dsimp only
    rw [if_pos hd, ih (fun c' hc' => h c' (List.mem_cons_of_mem _ hc')), List.foldl_cons, hc]
    rfl

theorem scanDigits_of_ne_nil (h : ∀ c ∈ s, IsDigit base c) (hs : s ≠ []) :
    scanDigits base 0 true s = some (digitsValue base s) := by
  cases s with
  | nil => exact absurd rfl hs
  | cons c s =>
    obtain ⟨d, hd, hc⟩ := h c List.mem_cons_self
    rw [scanDigits, hc]
    dsimp only
    rw [if_pos hd, scanDigits_of_digits fun c' hc' => h c' (List.mem_cons_of_mem _ hc'),
      digitsValue, List.foldl_cons, hc]
    rfl

/-- `int` of a text of digits is their number. -/
theorem int_of_digits (u : UnicodeData) (hbase : base ≤ 16) (h : ∀ c ∈ s, IsDigit base c)
    (hs : s ≠ []) : u.int base s = some (digitsValue base s : ℤ) := by
  have hmap : s.map u.toAscii = s :=
    (List.map_congr_left fun c hc => toAscii_of_digit u (h c hc)).trans (List.map_id' s)
  have hdrop : s.dropWhile isCSpace = s := by
    rw [List.dropWhile_eq_self_iff]
    intro hlen
    rw [isCSpace_of_digit (h _ (List.getElem_mem hlen))]
    exact Bool.false_ne_true
  have hrdrop : s.rdropWhile isCSpace = s := by
    rw [List.rdropWhile_eq_self_iff]
    intro hne
    rw [isCSpace_of_digit (h _ (List.getLast_mem hne))]
    exact Bool.false_ne_true
  -- No digit is a sign, and `x` is a digit of no base up to 16.
  have hnot : ∀ c ∈ s, c ≠ '-' ∧ c ≠ '+' ∧ c ≠ 'x' ∧ c ≠ 'X' := by
    intro c hc
    obtain ⟨d, hd, hv⟩ := h c hc
    refine ⟨?_, ?_, ?_, ?_⟩ <;> rintro rfl
    · rw [show digitValue '-' = none from by decide] at hv
      cases hv
    · rw [show digitValue '+' = none from by decide] at hv
      cases hv
    · rw [show digitValue 'x' = some 33 from by decide] at hv
      cases hv
      omega
    · rw [show digitValue 'X' = some 33 from by decide] at hv
      cases hv
      omega
  have hscan : scanNumber base s = scanDigits base 0 true s := by
    unfold scanNumber
    split
    · exact absurd rfl (hnot 'x' (by simp)).2.2.1
    · exact absurd rfl (hnot 'X' (by simp)).2.2.2
    · exact absurd rfl (hnot 'x' (by simp)).2.2.1
    · exact absurd rfl (hnot 'X' (by simp)).2.2.2
    · rfl
  rw [UnicodeData.int, hmap, hdrop, hrdrop]
  split
  · exact absurd rfl (hnot '-' (by simp)).1
  · exact absurd rfl (hnot '+' (by simp)).2.1
  · rw [hscan, scanDigits_of_ne_nil h hs]
    rfl

/-! ## Hexadecimal texts -/

/-- A digit, as `%X` writes it. -/
def hexDigit (n : ℕ) : Char := if n < 10 then Char.ofNat (48 + n) else Char.ofNat (55 + n)

/-- `'%02X' % b` -/
def hexByte (b : UInt8) : Text := [hexDigit (b.toNat / 16), hexDigit (b.toNat % 16)]

theorem digitValue_hexDigit {n : ℕ} (h : n < 16) : digitValue (hexDigit n) = some n := by
  interval_cases n <;> decide

theorem isDigit_hexDigit {n : ℕ} (h : n < 16) : IsDigit 16 (hexDigit n) :=
  ⟨n, h, digitValue_hexDigit h⟩

theorem isDigit_of_mem_hexByte {b : UInt8} (h : c ∈ hexByte b) : IsDigit 16 c := by
  have hb := b.toNat_lt
  rcases List.mem_cons.1 h with rfl | h
  · exact isDigit_hexDigit (by omega)
  · rw [List.mem_singleton.1 h]
    exact isDigit_hexDigit (by omega)

/-- A 16-bit number, as `%02X%02X` writes its bytes. -/
theorem digitsValue_hexByte (hi lo : UInt8) :
    digitsValue 16 (hexByte hi ++ hexByte lo) = 256 * hi.toNat + lo.toNat := by
  have hhi := hi.toNat_lt
  have hlo := lo.toNat_lt
  simp only [digitsValue, hexByte, List.cons_append, List.nil_append, List.foldl_cons,
    List.foldl_nil, digitValue_hexDigit (show hi.toNat / 16 < 16 by omega),
    digitValue_hexDigit (show hi.toNat % 16 < 16 by omega),
    digitValue_hexDigit (show lo.toNat / 16 < 16 by omega),
    digitValue_hexDigit (show lo.toNat % 16 < 16 by omega), Option.getD_some]
  omega

/-- `s.lstrip('0')` is the same number. -/
theorem digitsValue_dropWhile_zero (base : ℕ) (s : Text) :
    digitsValue base (s.dropWhile (· = '0')) = digitsValue base s := by
  induction s with
  | nil => rfl
  | cons c s ih =>
    by_cases hc : c = '0'
    · subst hc
      rw [List.dropWhile_cons_of_pos (by simp), ih, digitsValue, digitsValue, List.foldl_cons,
        show digitValue '0' = some 0 from by decide]
      rfl
    · rw [List.dropWhile_cons_of_neg (by simpa using hc)]

/-- A text of digits without zeros in front is empty when its number is zero. -/
theorem digitsValue_pos {d : ℕ} (hc : digitValue c = some d) (hd : 0 < d) (hbase : 0 < base)
    (s : Text) : 0 < digitsValue base (c :: s) := by
  have hge : ∀ (s : Text) (n : ℕ), 0 < n →
      0 < s.foldl (fun n c => base * n + (digitValue c).getD 0) n := by
    intro s
    induction s with
    | nil => exact fun n hn => hn
    | cons c s ih =>
      intro n hn
      exact ih _ (Nat.add_pos_left (Nat.mul_pos hbase hn) _)
  rw [digitsValue, List.foldl_cons, hc]
  exact hge s _ (by simpa using hd)

end ShadowsocksR

import ShadowsocksR.Encrypt
import ShadowsocksR.Lib.Dict
import ShadowsocksR.Lib.Substitution

/-!
# The cipher `table`

A table of all bytes is sorted many times by numbers that depend on the key, and data is encrypted by
looking its bytes up. The tables of the keys are kept for the whole process.

* `getTable`: the sorted table of a key;
* `initTable`: the two tables of a key, from the cache or new;
* `TableCipher`: the objects that use them;
* `getTable_perm`: sorting leaves all bytes in the table;
* `valid_initTables`: the tables in the cache are those of their keys;
* `tableCipher_inverts`: a cipher and a decipher of a key undo each other.
-/

namespace ShadowsocksR

/-! ## The tables of a key -/

/-- `maketrans` -/
def maketrans (source target : Bytes) : Except PyExc Bytes :=
  if source.length ≠ target.length then .error .valueError
  else .ok (transTable source target)

/-- `translate` -/
def translate (data table : Bytes) : Except PyExc Bytes :=
  if table.length ≠ 256 then .error .valueError else .ok (data.map (lookup table))

/-- `table.sort(key=lambda x: int(a % (ord(x) + i)))`, which is stable. -/
def sortTable (a i : ℕ) (table : Bytes) : Bytes :=
  table.mergeSort fun x y => a % (x.toNat + i) ≤ a % (y.toNat + i)

/-- `get_table`; the number `b` of the digest is not used. -/
@[irreducible] def getTable (C : Crypto) (key : Bytes) : Bytes :=
  let s := C.hash .md5 key
  let a := unpackLE (s.take 8)
  ((List.range 1024).drop 1).foldl (fun table i => sortTable a i table) allBytes

/-- The tables for the encryption and for the decryption. -/
abbrev CipherTables := Bytes × Bytes

/-- The tables of a key, when they are not in the cache. -/
def newTables (C : Crypto) (key : Bytes) : Except PyExc CipherTables := do
  let identity ← maketrans [] []
  let encryptTable := getTable C key
  let decryptTable ← maketrans encryptTable identity
  return (encryptTable, decryptTable)

/-- `cached_tables` -/
abbrev CachedTables := Dict Bytes CipherTables

/-- `init_table` -/
def initTable (C : Crypto) (cachedTables : CachedTables) (key : Bytes) :
    Except PyExc (CipherTables × CachedTables) :=
  match cachedTables.get? key with
  | some tables => .ok (tables, cachedTables)
  | none => do
    let tables ← newTables C key
    return (tables, cachedTables.set key tables)

/-! ## The objects -/

/-- The other direction. -/
def CipherOp.other : CipherOp → CipherOp
  | .encrypt => .decrypt
  | .decrypt => .encrypt

structure TableCipher where
  encryptTable : Bytes
  decryptTable : Bytes
  op : CipherOp

namespace TableCipher

/-- `__init__`; the name and the iv are not used. -/
def new (C : Crypto) (cachedTables : CachedTables) (key : Bytes) (op : CipherOp) :
    Except PyExc (TableCipher × CachedTables) := do
  let (tables, cachedTables) ← initTable C cachedTables key
  return (⟨tables.1, tables.2, op⟩, cachedTables)

def update (c : TableCipher) (data : Bytes) : Except PyExc Bytes :=
  match c.op with
  | .encrypt => translate data c.encryptTable
  | .decrypt => translate data c.decryptTable

end TableCipher

/-- The cache after objects with these keys have been made. -/
def cacheAfter (C : Crypto) (cachedTables : CachedTables) :
    List (Bytes × CipherOp) → Except PyExc CachedTables
  | [] => .ok cachedTables
  | (key, op) :: made => do
    let (_, cachedTables) ← TableCipher.new C cachedTables key op
    cacheAfter C cachedTables made

/-! ## Sorting -/

variable {C : Crypto} {key data : Bytes} {cachedTables : CachedTables} {tables : CipherTables}

theorem sortTable_perm (a i : ℕ) (table : Bytes) : (sortTable a i table).Perm table :=
  List.mergeSort_perm _ _

/-- Sorting any number of times leaves all bytes in the table. -/
theorem foldl_sortTable_perm (a : ℕ) (is : List ℕ) (table : Bytes) :
    (is.foldl (fun table i => sortTable a i table) table).Perm table := by
  induction is generalizing table with
  | nil => exact List.Perm.refl _
  | cons i is ih => exact (ih _).trans (sortTable_perm a i table)

theorem getTable_perm (C : Crypto) (key : Bytes) : (getTable C key).Perm allBytes := by
  unfold getTable
  exact foldl_sortTable_perm _ ((List.range 1024).drop 1) _

/-! ## The cache -/

theorem maketrans_identity : maketrans [] [] = .ok allBytes := rfl

theorem maketrans_allBytes {table : Bytes} (h : table.length = allBytes.length) :
    maketrans table allBytes = .ok (invert table) := if_neg (not_not.2 h)

theorem newTables_eq (C : Crypto) (key : Bytes) :
    newTables C key = .ok (getTable C key, invert (getTable C key)) := by
  have hdecrypt := maketrans_allBytes (getTable_perm C key).length_eq
  rw [newTables, bind_eq_ok]
  refine ⟨allBytes, maketrans_identity, bind_eq_ok.2 ⟨_, hdecrypt, rfl⟩⟩

/-- Every key in the cache has its own tables. -/
def CachedTables.Valid (C : Crypto) (cachedTables : CachedTables) : Prop :=
  ∀ key tables, cachedTables.get? key = some tables →
    tables = (getTable C key, invert (getTable C key))

theorem CachedTables.valid_empty (C : Crypto) : CachedTables.Valid C Dict.empty :=
  fun _ _ h => by cases h

theorem initTable_spec (h : cachedTables.Valid C) (key : Bytes) :
    ∃ cachedTables', initTable C cachedTables key =
        .ok ((getTable C key, invert (getTable C key)), cachedTables') ∧
      cachedTables'.Valid C ∧
      cachedTables'.get? key = some (getTable C key, invert (getTable C key)) := by
  rw [initTable]
  cases hget : cachedTables.get? key with
  | some tables =>
    cases h key tables hget
    exact ⟨cachedTables, rfl, h, hget⟩
  | none =>
    rw [newTables_eq]
    refine ⟨_, rfl, fun key' tables' h' => ?_, Dict.get?_set_self _ _ _⟩
    rw [Dict.get?_set] at h'
    split_ifs at h' with hkey
    · cases h'
      rw [hkey]
    · exact h key' tables' h'

theorem TableCipher.new_spec (h : cachedTables.Valid C) (key : Bytes) (op : CipherOp) :
    ∃ cachedTables', TableCipher.new C cachedTables key op =
        .ok (⟨getTable C key, invert (getTable C key), op⟩, cachedTables') ∧
      cachedTables'.Valid C ∧
      cachedTables'.get? key = some (getTable C key, invert (getTable C key)) := by
  obtain ⟨cachedTables', hinit, hrest⟩ := initTable_spec h key
  refine ⟨cachedTables', ?_, hrest⟩
  rw [TableCipher.new, hinit]
  rfl

/-- Whatever objects have been made, the tables in the cache are those of their keys. -/
theorem valid_cacheAfter (h : cachedTables.Valid C) (made : List (Bytes × CipherOp)) :
    ∃ cachedTables', cacheAfter C cachedTables made = .ok cachedTables' ∧
      cachedTables'.Valid C := by
  induction made generalizing cachedTables with
  | nil => exact ⟨cachedTables, rfl, h⟩
  | cons m made ih =>
    obtain ⟨cachedTables₁, hnew, h₁, -⟩ := TableCipher.new_spec h m.1 m.2
    obtain ⟨cachedTables', hafter, h'⟩ := ih h₁
    refine ⟨cachedTables', ?_, h'⟩
    rw [cacheAfter, hnew]
    exact hafter

/-! ## Encryption and decryption -/

theorem translate_translate {table table' : Bytes} (hlength : table.length = 256)
    (hlength' : table'.length = 256) (h : ∀ b, lookup table' (lookup table b) = b)
    (data : Bytes) : ∃ out, translate data table = .ok out ∧ translate out table' = .ok data := by
  refine ⟨data.map (lookup table), if_neg (not_not.2 hlength), ?_⟩
  rw [translate, if_neg (not_not.2 hlength'), List.map_map]
  congr
  exact (List.map_congr_left fun b _ => h b).trans (List.map_id data)

/-- The objects of a key for both directions undo each other. -/
theorem update_update (C : Crypto) (key data : Bytes) (op : CipherOp) :
    ∃ out,
      TableCipher.update ⟨getTable C key, invert (getTable C key), op⟩ data = .ok out ∧
      TableCipher.update ⟨getTable C key, invert (getTable C key), op.other⟩ out = .ok data := by
  have hperm := getTable_perm C key
  have hlength : (getTable C key).length = 256 := hperm.length_eq.trans length_allBytes
  cases op with
  | encrypt =>
    exact translate_translate hlength (length_transTable _ _) (invert_lookup hperm) data
  | decrypt =>
    exact translate_translate (length_transTable _ _) hlength (lookup_invert hperm) data

/-- A cipher and a decipher of one key undo each other, on any data, whatever objects the two processes
    have made before; the encryption table has all bytes, the decryption table undoes it, and each
    key in the cache has its own tables. -/
theorem tableCipher_inverts (C : Crypto) (key data : Bytes) (op : CipherOp)
    (made made' : List (Bytes × CipherOp)) :
    ∃ caches caches' c d out caches₁ caches₁',
      cacheAfter C Dict.empty made = .ok caches ∧ cacheAfter C Dict.empty made' = .ok caches' ∧
      TableCipher.new C caches key op = .ok (c, caches₁) ∧
      TableCipher.new C caches' key op.other = .ok (d, caches₁') ∧
      c.update data = .ok out ∧ d.update out = .ok data ∧
      c.encryptTable.Perm allBytes ∧
      (∀ b, lookup c.decryptTable (lookup c.encryptTable b) = b) ∧
      ∀ key' tables, caches₁.get? key' = some tables → newTables C key' = .ok tables := by
  obtain ⟨caches, hcaches, hvalid⟩ := valid_cacheAfter (CachedTables.valid_empty C) made
  obtain ⟨caches', hcaches', hvalid'⟩ := valid_cacheAfter (CachedTables.valid_empty C) made'
  obtain ⟨caches₁, hc, hvalid₁, -⟩ := TableCipher.new_spec hvalid key op
  obtain ⟨caches₁', hd, -, -⟩ := TableCipher.new_spec hvalid' key op.other
  obtain ⟨out, hout, hdata⟩ := update_update C key data op
  refine ⟨caches, caches', _, _, out, caches₁, caches₁', hcaches, hcaches', hc, hd, hout, hdata,
    getTable_perm C key, invert_lookup (getTable_perm C key), fun key' tables hget => ?_⟩
  rw [hvalid₁ key' tables hget, newTables_eq]

end ShadowsocksR

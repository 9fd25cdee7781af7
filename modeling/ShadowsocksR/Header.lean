import ShadowsocksR.Common

/-!
# Addresses

The header of a request, which says what it is for and where it goes, and the
addresses that a server does not go to.

* `preParseHeader`, `parseHeader`: the header of a request;
* `IPNetwork`: a list of networks;
* `contains_addNetwork`: a network has the addresses that begin like its own.
-/

namespace ShadowsocksR

/-! ## Addresses -/

/-- `AF_INET` and `AF_INET6` -/
inductive Family
  | inet
  | inet6
  deriving DecidableEq

/-- An IP address, which the source has as text. -/
inductive IPAddr
  | v4 (n : ℕ)
  | v6 (n : ℕ)
  deriving DecidableEq

def IPAddr.family : IPAddr → Family
  | .v4 _ => .inet
  | .v6 _ => .inet6

/-- `IPNetwork.ADDRLENGTH` -/
def Family.addrLength : Family → ℕ
  | .inet => 32
  | .inet6 => 128

/-- An address and a port. -/
structure SockAddr where
  ip : IPAddr
  port : ℕ
  deriving DecidableEq

/-- `IPNetwork`: for every network, the bits that its addresses begin with, and how many follow. -/
structure IPNetwork where
  networkListV4 : List (ℕ × ℕ) := []
  networkListV6 : List (ℕ × ℕ) := []

namespace IPNetwork

/-- The zeros at the end of a number, which a network without a prefix size leaves out. -/
def implicitPrefix : ℕ → ℕ → ℕ × ℕ
  | 0, ip => (ip, 0)
  | fuel + 1, ip =>
    if ip % 2 = 0 ∧ ip ≠ 0 then
      let (ip, prefixSize) := implicitPrefix fuel (ip / 2)
      (ip, prefixSize + 1)
    else (ip, 0)

/-- The entry for a network of `addrLength` bits; `block` is what follows the slash. -/
def entry (addrLength ip : ℕ) : Option ℕ → Except PyExc (ℕ × ℕ)
  | none => .ok (implicitPrefix addrLength ip)
  | some block =>
    if block ≤ addrLength then .ok (ip >>> (addrLength - block), addrLength - block)
    else .error .exception

def addNetwork (n : IPNetwork) (addr : IPAddr) (block : Option ℕ) : Except PyExc IPNetwork := do
  let addrLength := addr.family.addrLength
  match addr with
  | .v4 ip => return { n with networkListV4 := n.networkListV4 ++ [← entry addrLength ip block] }
  | .v6 ip => return { n with networkListV6 := n.networkListV6 ++ [← entry addrLength ip block] }

/-- `__contains__` -/
def contains (n : IPNetwork) : IPAddr → Bool
  | .v4 ip => n.networkListV4.any fun e => e.1 == ip >>> e.2
  | .v6 ip => n.networkListV6.any fun e => e.1 == ip >>> e.2

/-- The number of an address. -/
def bits : IPAddr → ℕ
  | .v4 n => n
  | .v6 n => n

/-- A network has the addresses that begin like its own, up to the bits that its entry leaves out. -/
theorem contains_of_entry {n : IPNetwork} {a : IPAddr} {k : ℕ} {block : Option ℕ}
    (h : entry a.family.addrLength (bits a) block = .ok (bits a >>> k, k)) :
    ∃ n', n.addNetwork a block = .ok n' ∧ ∀ x, n'.contains x = true ↔ n.contains x = true ∨
      a.family = x.family ∧ bits x >>> k = bits a >>> k := by
  cases a with
  | v4 ip =>
    refine ⟨{ n with networkListV4 := n.networkListV4 ++ [(ip >>> k, k)] }, ?_, fun x => ?_⟩
    · rw [addNetwork, show entry _ ip block = _ from h]
      rfl
    · cases x with
      | v4 ip' =>
        rw [@eq_comm _ (bits (.v4 ip') >>> k)]
        simp [contains, IPAddr.family, bits]
      | v6 ip' => simp [contains, IPAddr.family]
  | v6 ip =>
    refine ⟨{ n with networkListV6 := n.networkListV6 ++ [(ip >>> k, k)] }, ?_, fun x => ?_⟩
    · rw [addNetwork, show entry _ ip block = _ from h]
      rfl
    · cases x with
      | v4 ip' => simp [contains, IPAddr.family]
      | v6 ip' =>
        rw [@eq_comm _ (bits (.v6 ip') >>> k)]
        simp [contains, IPAddr.family, bits]

/-- Nothing is added with an entry that raises. -/
theorem addNetwork_of_error {n : IPNetwork} {a : IPAddr} {block : Option ℕ} {e : PyExc}
    (h : entry a.family.addrLength (bits a) block = .error e) : n.addNetwork a block = .error e := by
  cases a with
  | v4 ip =>
    rw [addNetwork, show entry _ ip block = _ from h]
    rfl
  | v6 ip =>
    rw [addNetwork, show entry _ ip block = _ from h]
    rfl

/-- Adding a network adds the addresses of its family that have its first bits. -/
theorem contains_addNetwork {n n' : IPNetwork} {addr : IPAddr} {block : ℕ}
    (h : n.addNetwork addr (some block) = .ok n') (a : IPAddr) :
    n'.contains a = true ↔ n.contains a = true ∨ a.family = addr.family ∧
      bits a >>> (addr.family.addrLength - block) =
        bits addr >>> (addr.family.addrLength - block) := by
  by_cases hblock : block ≤ addr.family.addrLength
  · have hentry : entry addr.family.addrLength (bits addr) (some block) =
        .ok (bits addr >>> (addr.family.addrLength - block), addr.family.addrLength - block) :=
      if_pos hblock
    obtain ⟨n'', hn, hcontains⟩ := contains_of_entry (n := n) hentry
    cases hn.symm.trans h
    rw [hcontains, eq_comm (a := addr.family)]
  · -- more bits than an address has
    have hentry : entry addr.family.addrLength (bits addr) (some block) = .error .exception :=
      if_neg hblock
    rw [addNetwork_of_error hentry] at h
    cases h

end IPNetwork

/-! ## Headers -/

/-- The bytes that hide the length of a request are taken off it; `crc32` is `binascii.crc32`. -/
def preParseHeader (crc32 : Bytes → ℕ) (data : Bytes) : Except PyExc (Option Bytes) :=
  match data with
  | [] => .ok none
  | datatype :: _ =>
    if datatype = 0x80 then
      match data.drop 1 with
      | size :: _ :: _ =>
        let randDataSize := size.toNat
        if randDataSize + 2 ≥ data.length then .ok none else .ok (some (data.drop (randDataSize + 2)))
      | _ => .ok none
    else if datatype = 0x81 then .ok (some (data.drop 1))
    else if datatype = 0x82 then
      if data.length ≤ 3 then .ok none
      else
        let randDataSize := unpackBE (data.extract 1 3)
        if randDataSize + 3 ≥ data.length then .ok none
        else .ok (some (data.drop (randDataSize + 3)))
    else if datatype = 0x88 ∨ datatype = 0x77 then
      if data.length ≤ 7 + 7 then .ok none
      else
        let dataSize := unpackBE (data.extract 1 3)
        let ognData := data
        let data := data.take dataSize
        if crc32 data &&& 0xFFFFFFFF ≠ 0xFFFFFFFF then .ok none
        else
          match data[3]? with
          | none => .error .indexError
          | some pos =>
            let startPos := 3 + pos.toNat
            let data := (data.take (data.length - 4)).drop startPos
            .ok (some (if dataSize < ognData.length then data ++ ognData.drop dataSize else data))
    else .ok (some data)

/-- Where a request goes: an address, or the name of a host. -/
inductive Dest
  | ip (addr : IPAddr)
  | host (name : Bytes)
  deriving DecidableEq

/-- What `parse_header` returns. -/
structure RequestHeader where
  /-- The bit 0x8 of the address type. -/
  connecttype : Bool
  addrtype : UInt8
  destAddr : Dest
  destPort : ℕ
  headerLength : ℕ
  deriving DecidableEq

def ADDRTYPE_IPV4 : UInt8 := 1
def ADDRTYPE_IPV6 : UInt8 := 4
def ADDRTYPE_HOST : UInt8 := 3

def parseHeader (data : Bytes) : Except PyExc (Option RequestHeader) :=
  match data with
  | [] => .error .indexError
  | b :: rest =>
    let connecttype := b &&& 0x8 ≠ 0
    let addrtype := b &&& 0xF7
    let header (destAddr : Dest) (addrLength : ℕ) : RequestHeader :=
      { connecttype, addrtype, destAddr
        destPort := unpackBE (data.extract addrLength (addrLength + 2))
        headerLength := addrLength + 2 }
    if addrtype = ADDRTYPE_IPV4 then
      if data.length ≥ 7 then .ok (some (header (.ip (.v4 (unpackBE (data.extract 1 5)))) 5))
      else .ok none
    else if addrtype = ADDRTYPE_HOST then
      match rest with
      | len :: _ :: _ =>
        let addrlen := len.toNat
        if data.length ≥ 4 + addrlen then
          .ok (some (header (.host (data.extract 2 (2 + addrlen))) (2 + addrlen)))
        else .ok none
      | _ => .ok none
    else if addrtype = ADDRTYPE_IPV6 then
      if data.length ≥ 19 then .ok (some (header (.ip (.v6 (unpackBE (data.extract 1 17)))) 17))
      else .ok none
    else .ok none

end ShadowsocksR

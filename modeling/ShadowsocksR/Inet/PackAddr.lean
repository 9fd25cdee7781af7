import ShadowsocksR.Inet.IPv6Text
import ShadowsocksR.Inet.RoundTrip

/-!
# Headers with an address

A request begins with its address: `pack_addr` writes the bytes of an IPv4 or IPv6 address behind
its type, and other names behind their length, and `parse_header` reads them.

The functions `inet_pton` and `inet_ntop` of the platform are parameters (`InetPlatform`).

* `parseHeader_v4`, `parseHeader_v6`, `parseHeader_host`: the three kinds of headers;
* `parseHeaderText_packAddr`: a header of `pack_addr` is read, and a header with the name of a host
  is one of `pack_addr`.
-/

namespace ShadowsocksR

/-! ## The platform -/

/-- `socket.inet_pton` and `socket.inet_ntop` (`inet_ntoa` for IPv4) -/
structure InetPlatform where
  pton : Family → Text → Except PyExc Bytes
  ntop : Family → Bytes → Text
  length_pton : ∀ {f s b}, pton f s = .ok b → 8 * b.length = f.addrLength
  error_pton : ∀ {f s e}, pton f s = .error e → e = .osError ∨ e = .valueError
  pton_ntop : ∀ {f} {b : Bytes}, 8 * b.length = f.addrLength → pton f (ntop f b) = .ok b
  /-- No text is an address of both kinds. -/
  pton_inj : ∀ {f f' s b b'}, pton f s = .ok b → pton f' s = .ok b' → f = f'

/-- `s.encode('utf-8')` -/
def encodeText (s : Text) : Bytes := s.flatMap String.utf8EncodeChar

/-- `bs.decode('utf-8')` -/
def decodeText (bs : Bytes) : Option Text := bs.toByteArray.utf8Decode?.map Array.toList

theorem decodeText_encodeText (s : Text) : decodeText (encodeText s) = some s := by
  have : (encodeText s).toByteArray = s.utf8Encode := rfl
  rw [decodeText, this, List.utf8Decode?_utf8Encode]
  rfl

/-- The type of an address. -/
def Family.addrtype : Family → UInt8
  | .inet => ADDRTYPE_IPV4
  | .inet6 => ADDRTYPE_IPV6

def Family.addr : Family → ℕ → IPAddr
  | .inet => .v4
  | .inet6 => .v6

namespace InetPlatform

variable (P : InetPlatform)

/-- The text is an address. -/
def IsIP (s : Text) : Prop := ∃ f b, P.pton f s = .ok b

/-- `pack_addr` -/
def packAddr (address : Bytes) : Except PyExc Bytes :=
  match decodeText address with
  | none => .error .valueError
  | some addressStr =>
    match P.pton .inet addressStr with
    | .ok r => .ok (ADDRTYPE_IPV4 :: r)
    | .error e =>
      if InetAton.handles e then
        match P.pton .inet6 addressStr with
        | .ok r => .ok (ADDRTYPE_IPV6 :: r)
        | .error e =>
          if InetAton.handles e then
            let address := if address.length > 255 then address.take 255 else address
            .ok (ADDRTYPE_HOST :: UInt8.ofNat address.length :: address)
          else .error e
      else .error e

/-- The address of a header, in bytes. -/
def destAddr : Dest → Bytes
  | .ip (.v4 n) => encodeText (P.ntop .inet (packBE 4 n))
  | .ip (.v6 n) => encodeText (P.ntop .inet6 (packBE 16 n))
  | .host name => name

/-- What `parse_header` returns: `connecttype`, `addrtype`, the address, the port and the length of
    the header. -/
def parseHeaderText (data : Bytes) : Except PyExc (Option (Bool × UInt8 × Bytes × ℕ × ℕ)) :=
  (parseHeader data).map (Option.map fun h =>
    (h.connecttype, h.addrtype, P.destAddr h.destAddr, h.destPort, h.headerLength))

end InetPlatform

/-! ## Headers -/

section

variable {b p : Bytes} {port : ℕ}

theorem parseHeader_ip {f : Family} (hb : 8 * b.length = f.addrLength) (hport : port < 65536) :
    parseHeader (f.addrtype :: b ++ packBE 2 port ++ p) = .ok (some
      { connecttype := false, addrtype := f.addrtype, destAddr := .ip (f.addr (unpackBE b))
        destPort := port, headerLength := b.length + 3 }) := by
  have haddr : (f.addrtype :: b ++ packBE 2 port ++ p).extract 1 (b.length + 1) = b := by
    rw [List.append_assoc]
    exact extract_append_append (a := [f.addrtype]) rfl (by omega)
  have hdest : (f.addrtype :: b ++ packBE 2 port ++ p).extract (b.length + 1) (b.length + 1 + 2) =
      packBE 2 port := extract_append_append rfl (by simp)
  have hlen : (f.addrtype :: b ++ packBE 2 port ++ p).length ≥ b.length + 3 := by simp
  unfold parseHeader
  cases f with
  | inet =>
    have hb4 : b.length = 4 := by
      rw [Family.addrLength] at hb
      omega
    rw [hb4] at haddr hdest hlen
    dsimp only [Family.addrtype, List.cons_append] at haddr hdest hlen ⊢
    rw [if_pos (by decide), if_pos hlen, haddr, hdest, unpackBE_packBE hport, hb4]
    rfl
  | inet6 =>
    have hb16 : b.length = 16 := by
      rw [Family.addrLength] at hb
      omega
    rw [hb16] at haddr hdest hlen
    dsimp only [Family.addrtype, List.cons_append] at haddr hdest hlen ⊢
    rw [if_neg (by decide), if_neg (by decide), if_pos (by decide), if_pos hlen, haddr, hdest,
      unpackBE_packBE hport, hb16]
    rfl

/-- A header with the name of a host, if its first bytes are there. -/
theorem parseHeader_of_host {t len : UInt8} {rest : Bytes} (ht : t &&& 0xF7 = ADDRTYPE_HOST)
    (hrest : rest ≠ []) :
    parseHeader (t :: len :: rest) =
      if (t :: len :: rest).length ≥ 4 + len.toNat then .ok (some
        { connecttype := t &&& 0x8 ≠ 0, addrtype := ADDRTYPE_HOST
          destAddr := .host (rest.take len.toNat)
          destPort := unpackBE ((rest.drop len.toNat).take 2), headerLength := len.toNat + 4 })
      else .ok none := by
  obtain ⟨x, rest, rfl⟩ := List.exists_cons_of_ne_nil hrest
  unfold parseHeader
  dsimp only
  rw [if_neg (by rw [ht]; decide), if_pos ht, ht]
  have haddr : (t :: len :: x :: rest).extract 2 (2 + len.toNat) = (x :: rest).take len.toNat := by
    rw [List.extract_eq_take_drop, Nat.add_sub_cancel_left]
    rfl
  have hdest : (t :: len :: x :: rest).extract (2 + len.toNat) (2 + len.toNat + 2) =
      ((x :: rest).drop len.toNat).take 2 := by
    rw [List.extract_eq_take_drop, Nat.add_sub_cancel_left, ← List.drop_drop]
    rfl
  rw [haddr, hdest, show 2 + len.toNat + 2 = len.toNat + 4 by omega]

theorem parseHeader_host (hb : b.length ≤ 255) (hport : port < 65536) :
    parseHeader (ADDRTYPE_HOST :: UInt8.ofNat b.length :: b ++ packBE 2 port ++ p) = .ok (some
      { connecttype := false, addrtype := ADDRTYPE_HOST, destAddr := .host b
        destPort := port, headerLength := b.length + 4 }) := by
  have hlen : (UInt8.ofNat b.length).toNat = b.length := by
    rw [UInt8.toNat_ofNat', Nat.mod_eq_of_lt (by omega)]
  have hne : b ++ packBE 2 port ++ p ≠ [] := by
    have : 0 < (b ++ packBE 2 port ++ p).length := by simp
    exact List.ne_nil_of_length_pos this
  have haddr : (b ++ packBE 2 port ++ p).take b.length = b := by
    rw [List.append_assoc]
    exact List.take_left
  have hdest : ((b ++ packBE 2 port ++ p).drop b.length).take 2 = packBE 2 port := by
    rw [List.append_assoc, List.drop_left]
    exact List.take_left' (by simp)
  rw [List.cons_append, List.cons_append, List.cons_append, List.cons_append,
    parseHeader_of_host (by decide) hne, hlen, haddr, hdest, unpackBE_packBE hport,
    if_pos (by simp; omega)]
  rfl

/-- The bits of an address type that has no `connecttype`. -/
theorem and_of_connecttype {t : UInt8} (h : t &&& 0x8 = 0) : t &&& 0xF7 = t := by
  have hall : ∀ n : Fin 256, UInt8.ofNat n &&& 0x8 = 0 → UInt8.ofNat n &&& 0xF7 = UInt8.ofNat n := by
    decide +kernel
  have := hall ⟨t.toNat, t.toNat_lt⟩
  rw [UInt8.ofNat_toNat] at this
  exact this h

/-- Only a header of this type has the name of a host. -/
theorem type_of_parseHeader_host {t : UInt8} {d : Bytes} {h : RequestHeader} {name : Bytes}
    (hd : parseHeader (t :: d) = .ok (some h)) (hname : h.destAddr = .host name) :
    t &&& 0xF7 = ADDRTYPE_HOST ∧ ∃ len rest, d = len :: rest ∧ rest ≠ [] := by
  unfold parseHeader at hd
  dsimp only at hd
  split_ifs at hd with h₁ h₂ h₃ h₄ h₅
  · cases hd
    cases hname
  · cases hd
  · rcases d with _ | ⟨len, _ | ⟨x, rest⟩⟩
    · cases hd
    · cases hd
    · exact ⟨h₃, len, x :: rest, rfl, List.cons_ne_nil _ _⟩
  · cases hd
    cases hname
  · cases hd
  · cases hd

/-- A header with the name of a host is made of the name and the port. -/
theorem eq_of_parseHeader_host {d : Bytes} {h : RequestHeader} {name : Bytes}
    (hd : parseHeader d = .ok (some h)) (hconnect : h.connecttype = false)
    (hname : h.destAddr = .host name) :
    h.addrtype = ADDRTYPE_HOST ∧ name.length ≤ 255 ∧ h.headerLength = name.length + 4 ∧
      ∃ p, d = ADDRTYPE_HOST :: UInt8.ofNat name.length :: name ++ packBE 2 h.destPort ++ p := by
  cases d with
  | nil => cases hd
  | cons t d =>
    obtain ⟨ht, len, rest, rfl, hrest⟩ := type_of_parseHeader_host hd hname
    rw [parseHeader_of_host ht hrest] at hd
    by_cases hlen : (t :: len :: rest).length ≥ 4 + len.toNat
    · rw [if_pos hlen] at hd
      cases hd
      cases hname
      have hlt := len.toNat_lt
      have hrestlen : len.toNat + 2 ≤ rest.length := by
        simp at hlen
        omega
      have hnamelen : (rest.take len.toNat).length = len.toNat := by
        rw [List.length_take]
        omega
      have ht' : t = ADDRTYPE_HOST := by
        rw [← ht, and_of_connecttype (by simpa using hconnect)]
      have hport : packBE 2 (unpackBE ((rest.drop len.toNat).take 2)) =
          (rest.drop len.toNat).take 2 := by
        apply packBE_unpackBE_of_length
        rw [List.length_take, List.length_drop]
        omega
      refine ⟨rfl, by omega, by rw [hnamelen], (rest.drop len.toNat).drop 2, ?_⟩
      rw [hnamelen, UInt8.ofNat_toNat, ht', hport, List.cons_append, List.cons_append,
        List.cons_append, List.cons_append, List.append_assoc, List.take_append_drop,
        List.take_append_drop]
    · rw [if_neg hlen] at hd
      cases hd

end

/-! ## The round trip -/

namespace InetPlatform

variable (P : InetPlatform)

theorem handles_of_pton {f : Family} {s : Text} {e : PyExc} (h : P.pton f s = .error e) :
    InetAton.handles e = true := by
  rcases P.error_pton h with rfl | rfl <;> rfl

/-- `pack_addr` of an address. -/
theorem packAddr_ip {f : Family} {s : Text} {b : Bytes} (h : P.pton f s = .ok b) :
    P.packAddr (encodeText s) = .ok (f.addrtype :: b) := by
  rw [packAddr, decodeText_encodeText]
  cases f with
  | inet =>
    dsimp only
    rw [h]
    rfl
  | inet6 =>
    cases h4 : P.pton .inet s with
    | ok b' => cases P.pton_inj h h4
    | error e =>
      dsimp only
      rw [h4]
      dsimp only
      rw [if_pos (P.handles_of_pton h4), h]
      rfl

/-- `pack_addr` of another name. -/
theorem packAddr_host {name : Bytes} {s : Text} (hname : decodeText name = some s) (hs : ¬P.IsIP s)
    (hlen : name.length ≤ 255) :
    P.packAddr name = .ok (ADDRTYPE_HOST :: UInt8.ofNat name.length :: name) := by
  have herror (f : Family) : ∃ e, P.pton f s = .error e := by
    cases h : P.pton f s with
    | ok b => exact absurd ⟨f, b, h⟩ hs
    | error e => exact ⟨e, rfl⟩
  obtain ⟨e₄, h₄⟩ := herror .inet
  obtain ⟨e₆, h₆⟩ := herror .inet6
  rw [packAddr, hname]
  dsimp only
  rw [h₄]
  dsimp only
  rw [if_pos (P.handles_of_pton h₄), h₆]
  dsimp only
  rw [if_pos (P.handles_of_pton h₆), if_neg (Nat.not_lt.2 hlen)]

theorem destAddr_ip {f : Family} {b : Bytes} (hb : 8 * b.length = f.addrLength) :
    P.destAddr (.ip (f.addr (unpackBE b))) = encodeText (P.ntop f b) := by
  cases f with
  | inet =>
    have hb4 : b.length = 4 := by
      rw [Family.addrLength] at hb
      omega
    rw [Family.addr, destAddr, packBE_unpackBE_of_length hb4]
  | inet6 =>
    have hb16 : b.length = 16 := by
      rw [Family.addrLength] at hb
      omega
    rw [Family.addr, destAddr, packBE_unpackBE_of_length hb16]

/-- The address of a header that is no IP address is the name of a host. -/
theorem host_of_not_isIP {d : Dest} {s : Text} (hd : decodeText (P.destAddr d) = some s)
    (hs : ¬P.IsIP s) : d = .host (P.destAddr d) := by
  cases d with
  | host name => rfl
  | ip a =>
    refine absurd ?_ hs
    cases a with
    | v4 n =>
      rw [destAddr, decodeText_encodeText] at hd
      cases hd
      exact ⟨.inet, _, P.pton_ntop (by rw [length_packBE]; rfl)⟩
    | v6 n =>
      rw [destAddr, decodeText_encodeText] at hd
      cases hd
      exact ⟨.inet6, _, P.pton_ntop (by rw [length_packBE]; rfl)⟩

/-- A header of `pack_addr` is read: the text of an address in the form of the platform, and another
    name as it is. A header with a name that is no address is one of `pack_addr`. -/
theorem parseHeaderText_packAddr :
    (∀ (f : Family) (s : Text) (b : Bytes), P.pton f s = .ok b →
      ∀ port < 65536, ∀ p, ∃ packed, P.packAddr (encodeText s) = .ok packed ∧
        P.parseHeaderText (packed ++ packBE 2 port ++ p) = .ok (some
          (false, f.addrtype, encodeText (P.ntop f b), port, packed.length + 2)) ∧
        (packed ++ packBE 2 port ++ p).drop (packed.length + 2) = p) ∧
    (∀ (name : Bytes) (s : Text), decodeText name = some s → name.length ≤ 255 → ¬P.IsIP s →
      ∀ port < 65536, ∀ p, ∃ packed, P.packAddr name = .ok packed ∧
        P.parseHeaderText (packed ++ packBE 2 port ++ p) = .ok (some
          (false, ADDRTYPE_HOST, name, port, packed.length + 2)) ∧
        (packed ++ packBE 2 port ++ p).drop (packed.length + 2) = p) ∧
    (∀ (data : Bytes) (t : UInt8) (name : Bytes) (port n : ℕ) (s : Text),
      P.parseHeaderText data = .ok (some (false, t, name, port, n)) →
      decodeText name = some s → ¬P.IsIP s →
      ∃ packed p, P.packAddr name = .ok packed ∧ data = packed ++ packBE 2 port ++ p) := by
  have hdrop (packed p : Bytes) (port : ℕ) :
      (packed ++ packBE 2 port ++ p).drop (packed.length + 2) = p :=
    List.drop_left' (by simp)
  refine ⟨?_, ?_, ?_⟩
  · intro f s b hs port hport p
    have hb := P.length_pton hs
    refine ⟨_, P.packAddr_ip hs, ?_, hdrop _ p port⟩
    rw [parseHeaderText, parseHeader_ip hb hport]
    show Except.ok (some (false, f.addrtype, P.destAddr _, port, b.length + 3)) = _
    rw [P.destAddr_ip hb]
    rfl
  · intro name s hname hlen hs port hport p
    refine ⟨_, P.packAddr_host hname hs hlen, ?_, hdrop _ p port⟩
    rw [parseHeaderText, parseHeader_host hlen hport]
    rfl
  · intro data t name port n s hdata hname hs
    rw [parseHeaderText] at hdata
    cases hparse : parseHeader data with
    | error e =>
      rw [hparse] at hdata
      cases hdata
    | ok r =>
      rw [hparse] at hdata
      cases r with
      | none => cases hdata
      | some h =>
        obtain ⟨hconnect, -, hdest, hport, -⟩ :
            h.connecttype = false ∧ h.addrtype = t ∧ P.destAddr h.destAddr = name ∧
              h.destPort = port ∧ h.headerLength = n := by
          simpa [Except.map] using hdata
        subst hdest hport
        obtain ⟨-, hlen, -, p, hp⟩ :=
          eq_of_parseHeader_host hparse hconnect (P.host_of_not_isIP hname hs)
        exact ⟨_, p, P.packAddr_host hname hs hlen, hp⟩

/-! ## A platform without `::` -/

/-- A group in full. -/
def fullGroup (p : UInt8 × UInt8) : Text := if p = (0, 0) then ['0'] else stripGroup p

theorem isGroup_fullGroup (p : UInt8 × UInt8) : IsGroup (fullGroup p) (word p) := by
  rw [fullGroup]
  split_ifs with hp
  · subst hp
    refine ⟨List.cons_ne_nil _ _, by decide, fun c hc => ?_, rfl⟩
    rw [List.mem_singleton.1 hc]
    exact isDigit_hexDigit (n := 0) (by omega)
  · exact ⟨stripGroup_eq_nil.not.2 hp, (List.dropWhile_sublist _).length_le,
      fun c hc => isDigit_of_mem_stripGroup hc, (digitsValue_stripGroup p).symm⟩

/-- One to four hexadecimal digits. -/
def isFullGroup (g : Text) : Bool :=
  !g.isEmpty && decide (g.length ≤ 4) && g.all fun c => decide (IsDigit 16 c)

theorem isFullGroup_of_isGroup {g : Text} {n : ℤ} (h : IsGroup g n) : isFullGroup g = true := by
  rw [isFullGroup, Bool.and_eq_true, Bool.and_eq_true, Bool.not_eq_true', List.isEmpty_eq_false_iff,
    decide_eq_true_iff, List.all_eq_true]
  exact ⟨⟨h.ne_nil, h.length_le⟩, fun c hc => decide_eq_true (h.digits c hc)⟩

/-- Eight groups of one to four hexadecimal digits. -/
def readFull (s : Text) : Option Bytes :=
  if (s.splitOn ':').length = 8 ∧ (s.splitOn ':').all isFullGroup = true then
    some (wordBytes ((s.splitOn ':').map fun g => (digitsValue 16 g : ℤ)))
  else none

theorem readFull_joinColons {b : Bytes} (hb : b.length = 16) :
    readFull (joinColons ((bytePairs b).map fullGroup)) = some b := by
  have hlen := length_bytePairs (n := 8) hb
  have hcolon : ∀ g ∈ (bytePairs b).map fullGroup, ':' ∉ g := by
    intro g hg
    obtain ⟨p, -, rfl⟩ := List.mem_map.1 hg
    exact (isGroup_fullGroup p).not_mem (by decide)
  have hne : (bytePairs b).map fullGroup ≠ [] := by
    intro hnil
    rw [List.map_eq_nil_iff.1 hnil] at hlen
    cases hlen
  have hvalues : ((bytePairs b).map fullGroup).map (fun g => (digitsValue 16 g : ℤ)) =
      (bytePairs b).map word := by
    rw [List.map_map]
    exact List.map_congr_left fun p _ => (isGroup_fullGroup p).value.symm
  rw [readFull, splitOn_joinColons hcolon, if_neg hne, if_pos, hvalues,
    wordBytes_bytePairs (n := 8) hb]
  refine ⟨(List.length_map _).trans hlen, List.all_eq_true.2 ?_⟩
  intro g hg
  obtain ⟨p, -, rfl⟩ := List.mem_map.1 hg
  exact isFullGroup_of_isGroup (isGroup_fullGroup p)

theorem length_readFull {s : Text} {b : Bytes} (h : readFull s = some b) : b.length = 16 := by
  rw [readFull] at h
  split_ifs at h with hs
  cases h
  rw [length_wordBytes, List.length_map, hs.1]

/-- The bytes of an address whose groups are all written. -/
def read : Family → Text → Option Bytes
  | .inet => readQuad
  | .inet6 => readFull

theorem length_read {f : Family} {s : Text} {b : Bytes} (h : read f s = some b) :
    8 * b.length = f.addrLength := by
  cases f with
  | inet => rw [(readQuad_eq_some.1 h).1]; rfl
  | inet6 => rw [length_readFull h]; rfl

/-- Four numbers are not eight groups. -/
theorem readFull_of_readQuad {s : Text} {b : Bytes} (h : readQuad s = some b) :
    readFull s = none := by
  obtain ⟨-, rfl⟩ := readQuad_eq_some.1 h
  rw [readFull, List.splitOn_eq_singleton (colon_not_mem_inetNtoa b), if_neg]
  rintro ⟨h, -⟩
  cases h

/-- A platform that writes and reads all groups of an address. -/
def full : InetPlatform where
  pton f s := orOSError (read f s)
  ntop
    | .inet, b => inetNtoa b
    | .inet6, b => joinColons ((bytePairs b).map fullGroup)
  length_pton h := length_read (orOSError_eq_ok.1 h)
  error_pton h := .inl (orOSError_eq_error h)
  pton_ntop := by
    intro f b hb
    rw [orOSError_eq_ok]
    cases f with
    | inet =>
      rw [Family.addrLength] at hb
      exact readQuad_eq_some.2 ⟨by omega, rfl⟩
    | inet6 =>
      rw [Family.addrLength] at hb
      exact readFull_joinColons (by omega)
  pton_inj := by
    intro f f' s b b' h h'
    rw [orOSError_eq_ok] at h h'
    cases f with
    | inet =>
      cases f' with
      | inet => rfl
      | inet6 => cases (readFull_of_readQuad h).symm.trans h'
    | inet6 =>
      cases f' with
      | inet => cases (readFull_of_readQuad h').symm.trans h
      | inet6 => rfl

/-- Requests for port 53 of `8.8.8.8` and of a host `a`. -/
theorem parseHeaderText_packAddr_dns :
    (∃ packed, full.packAddr (encodeText (inetNtoa [8, 8, 8, 8])) = .ok packed ∧
      full.parseHeaderText (packed ++ packBE 2 53 ++ [0]) = .ok (some
        (false, ADDRTYPE_IPV4, encodeText (inetNtoa [8, 8, 8, 8]), 53, packed.length + 2)) ∧
      (packed ++ packBE 2 53 ++ [0]).drop (packed.length + 2) = [0]) ∧
    (∃ packed, full.packAddr (encodeText ['a']) = .ok packed ∧
      full.parseHeaderText (packed ++ packBE 2 53 ++ [0]) = .ok (some
        (false, ADDRTYPE_HOST, encodeText ['a'], 53, packed.length + 2)) ∧
      (packed ++ packBE 2 53 ++ [0]).drop (packed.length + 2) = [0]) ∧
    (∃ packed p, full.packAddr (encodeText ['a']) = .ok packed ∧
      [3, 1, 97, 0, 53, 0] = packed ++ packBE 2 53 ++ p) := by
  have hip : full.pton .inet (inetNtoa [8, 8, 8, 8]) = .ok [8, 8, 8, 8] := by
    show orOSError (readQuad (inetNtoa [8, 8, 8, 8])) = _
    rw [readQuad_eq_some.2 ⟨rfl, rfl⟩]
    rfl
  have hno : ¬full.IsIP ['a'] := by
    rintro ⟨f, b, h⟩
    have hread := orOSError_eq_ok.1 h
    cases f with
    | inet => exact absurd hread (by rw [show read .inet ['a'] = none by decide]; simp)
    | inet6 => exact absurd hread (by rw [show read .inet6 ['a'] = none by decide]; simp)
  exact ⟨full.parseHeaderText_packAddr.1 .inet (inetNtoa [8, 8, 8, 8]) [8, 8, 8, 8]
      hip 53 (by decide) [0],
    full.parseHeaderText_packAddr.2.1 (encodeText ['a']) ['a'] (decodeText_encodeText _) (by decide)
      hno 53 (by decide) [0],
    full.parseHeaderText_packAddr.2.2 [3, 1, 97, 0, 53, 0] 3 (encodeText ['a']) 53 5 ['a'] rfl
      (decodeText_encodeText _) hno⟩

end InetPlatform

end ShadowsocksR

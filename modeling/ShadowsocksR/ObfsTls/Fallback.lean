import ShadowsocksR.ObfsTls.Handshake
import ShadowsocksR.Lib.Fallback

/-!
# The fallback of the TLS obfuscation

A compatible server gives all bytes back when they do not begin with a hello that it accepts. It
reads the lengths in a hello before it knows that they are there.

* `parseHello_raises_iff`: what is raised for a hello;
* `AwaitsRecord`, `CutShort`: the bytes with which a server waits, and those with which it raises;
* `decides_reply`: what it does with each read.
-/

namespace ShadowsocksR

namespace TlsTicketAuth

/-- A server with a compatible method. -/
def compatible (fast : Bool) (key obfsParam : Bytes) (infoOverhead : ℤ) : TlsTicketAuth where
  method := if fast then .ticketFastauthCompatible else .ticketAuthCompatible
  key
  obfsParam
  infoOverhead

/-- What a call of `server_decode` comes to; it has given up when the status is -1. -/
def reply (C : Crypto) (s : TlsTicketAuth) (a : ServerRecv) : Reply PyExc TlsTicketAuth :=
  match s.serverDecode C a.now a.data a.buf with
  | (_, some _, _, _) => .accepted
  | (.ok (payload, decrypt, _), none, s, _) =>
    .returned payload decrypt (s.handshakeStatus == -1) s
  | (.error e, none, _, _) => .raised e

/-- The length in the header of the record. -/
def recordLength (p : Bytes) : ℕ := unpackBE (p.extract 3 5)

/-- The record is not complete. -/
def AwaitsRecord (p : Bytes) : Prop :=
  p.length < 3 ∨ [0x16, 3, 1] <+: p ∧ 5 ≤ p.length ∧ p.length < recordLength p + 5

/-- A hello that ends in its own length, or before the length of the session id. -/
def CutHello (hello : Bytes) : Prop :=
  [1, 0] <+: hello ∧ (hello.length < 4 ∨
    unpackBE (hello.extract 2 4) = hello.length - 4 ∧ tlsVersion <+: hello.drop 4 ∧
      hello.length < 39)

/-- The beginning of a record without its length, or a record of a hello that is cut. -/
def CutShort (p : Bytes) : Prop :=
  [0x16, 3, 1] <+: p ∧ (p.length < 5 ∨
    recordLength p + 5 ≤ p.length ∧ CutHello (p.extract 5 (recordLength p + 5)))

variable {C : Crypto} {p hello : Bytes} {s : TlsTicketAuth} {a : ServerRecv}

theorem matchBegin_iff {str₁ str₂ : Bytes} : matchBegin str₁ str₂ = true ↔ str₂ <+: str₁ := by
  rw [matchBegin, beq_iff_eq, List.prefix_iff_eq_take, eq_comm]

/-- What is raised for a hello is raised because it is cut. -/
theorem parseHello_raises_iff :
    (∃ e, parseHello hello = .error (some e)) ↔ CutHello hello := by
  have hsize : (hello.drop 2).take 2 = hello.extract 2 4 := rfl
  rw [parseHello, CutHello, ← matchBegin_iff, ← matchBegin_iff]
  dsimp only
  rw [hsize, List.drop_drop, List.drop_drop, List.drop_drop, List.length_drop]
  by_cases htype : matchBegin hello [1, 0] = true
  case neg =>
    rw [if_pos htype]
    refine iff_of_false ?_ fun h => htype h.1
    rintro ⟨_, h⟩
    cases h
  have hlength : 2 ≤ hello.length := (matchBegin_iff.1 htype).length_le
  rw [if_neg (not_not.2 htype), and_iff_right htype]
  by_cases hshort : hello.length < 4
  · rw [if_pos (by omega)]
    exact iff_of_true ⟨_, rfl⟩ (.inl hshort)
  rw [if_neg (by omega), or_iff_right hshort]
  by_cases hwrong : unpackBE (hello.extract 2 4) = hello.length - 4
  case neg =>
    rw [if_pos (by omega)]
    refine iff_of_false ?_ fun h => hwrong h.1
    rintro ⟨_, h⟩
    cases h
  rw [if_neg (by omega), and_iff_right hwrong]
  by_cases hversion : matchBegin (hello.drop 4) tlsVersion = true
  case neg =>
    rw [if_pos hversion]
    refine iff_of_false ?_ fun h => hversion h.1
    rintro ⟨_, h⟩
    cases h
  rw [if_neg (not_not.2 hversion), and_iff_right hversion]
  -- What is left is the length of the session id, which is read from an empty rest.
  cases hrest : hello.drop 38 with
  | nil =>
    exact iff_of_true ⟨_, rfl⟩ (Nat.lt_succ_of_le (List.drop_eq_nil_iff.1 hrest))
  | cons sessionidLen rest =>
    have hlen := congrArg List.length hrest
    rw [List.length_drop, List.length_cons] at hlen
    refine iff_of_false ?_ (by omega)
    rintro ⟨_, h⟩
    dsimp only at h
    split_ifs at h
    cases h

/-- A server that waits with the bytes `p`. -/
structure AwaitsWith (p : Bytes) (s : TlsTicketAuth) : Prop where
  recvBuffer : s.recvBuffer = p
  status : s.handshakeStatus = 0
  method : s.method = .ticketAuthCompatible ∨ s.method = .ticketFastauthCompatible

/-- What a compatible server returns. -/
theorem decodeErrorReturn_compatible
    (h : s.method = .ticketAuthCompatible ∨ s.method = .ticketFastauthCompatible) (buf : Bytes) :
    ∃ s', s.decodeErrorReturn buf = (.ok (buf, true, false), s') ∧ s'.handshakeStatus = -1 := by
  rw [decodeErrorReturn, if_neg]
  · exact ⟨_, rfl, rfl⟩
  · rcases h with h | h <;> rw [h] <;> decide

/-- The bytes are given back, or the hello is accepted. -/
def GivesBack (p : Bytes) (r : Except Result Bytes × TlsTicketAuth × ObfsAuthData) : Prop :=
  (∃ verifyid, r.1 = .ok verifyid) ∨
    r.1 = .error (.ok (p, true, false)) ∧ r.2.1.handshakeStatus = -1

theorem checkHello_givesBack
    (h : s.method = .ticketAuthCompatible ∨ s.method = .ticketFastauthCompatible) (now : Time)
    (data : ObfsAuthData) (ognBuf verifyid sessionid : Bytes) :
    GivesBack ognBuf (s.checkHello C now data ognBuf verifyid sessionid) := by
  obtain ⟨s', hreturn, hstatus⟩ := decodeErrorReturn_compatible
    (s := { s with clientId := sessionid, maxTimeDif := s.timeWindow }) h ognBuf
  rw [checkHello]
  dsimp only
  rw [hreturn]
  split_ifs
  · exact .inr ⟨rfl, hstatus⟩
  · exact .inr ⟨rfl, hstatus⟩
  · exact .inl ⟨_, rfl⟩

/-- The bytes behind the header of the record. -/
theorem headerLen_eq (s : TlsTicketAuth) : s.headerLen = recordLength s.recvBuffer := rfl

theorem hello_eq (s : TlsTicketAuth) :
    s.hello = s.recvBuffer.extract 5 (recordLength s.recvBuffer + 5) := rfl

theorem recvHello_awaits (h : AwaitsRecord s.recvBuffer) (now : Time) (data : ObfsAuthData) :
    s.recvHello C now data = (.error (.ok ([], false, false)), s, data) := by
  rw [recvHello]
  dsimp only
  by_cases hshort : s.recvBuffer.length < 3
  · rw [if_pos hshort]
  · obtain ⟨hhead, hfive, hlt⟩ := h.resolve_left hshort
    rw [if_neg hshort, if_neg (not_not.2 (matchBegin_iff.2 hhead)), if_neg (by omega),
      if_pos (by rw [headerLen_eq]; omega)]

theorem recvHello_raises (h : CutShort s.recvBuffer) (now : Time) (data : ObfsAuthData) :
    ∃ e s', s.recvHello C now data = (.error (.error e), s', data) := by
  obtain ⟨hhead, hcut⟩ := h
  have hlength : 3 ≤ s.recvBuffer.length := hhead.length_le
  rw [recvHello]
  dsimp only
  rw [if_neg (by omega), if_neg (not_not.2 (matchBegin_iff.2 hhead))]
  by_cases hshort : s.recvBuffer.length < 5
  · rw [if_pos hshort]
    exact ⟨_, _, rfl⟩
  · obtain ⟨hle, hhello⟩ := hcut.resolve_left hshort
    obtain ⟨e, hparse⟩ := parseHello_raises_iff.2 hhello
    rw [if_neg hshort, if_neg (by rw [headerLen_eq]; omega), hello_eq, hparse]
    exact ⟨_, _, rfl⟩

theorem recvHello_settles
    (hmethod : s.method = .ticketAuthCompatible ∨ s.method = .ticketFastauthCompatible)
    (hawaits : ¬AwaitsRecord s.recvBuffer) (hcut : ¬CutShort s.recvBuffer) (now : Time)
    (data : ObfsAuthData) : GivesBack s.recvBuffer (s.recvHello C now data) := by
  rw [AwaitsRecord, not_or] at hawaits
  rw [recvHello]
  dsimp only
  rw [if_neg hawaits.1]
  by_cases hhead : matchBegin s.recvBuffer [0x16, 3, 1] = true
  case neg =>
    obtain ⟨s', hreturn, hstatus⟩ := decodeErrorReturn_compatible hmethod s.recvBuffer
    rw [if_pos hhead, hreturn]
    exact .inr ⟨rfl, hstatus⟩
  have hhead' : [0x16, 3, 1] <+: s.recvBuffer := matchBegin_iff.1 hhead
  have hfive : ¬s.recvBuffer.length < 5 := fun hshort => hcut ⟨hhead', .inl hshort⟩
  have hle : recordLength s.recvBuffer + 5 ≤ s.recvBuffer.length :=
    not_lt.1 fun hlt => hawaits.2 ⟨hhead', not_lt.1 hfive, hlt⟩
  have hhello : ¬CutHello s.hello := fun hhello => hcut ⟨hhead', .inr ⟨hle, hhello⟩⟩
  rw [if_neg (not_not.2 hhead), if_neg hfive, if_neg (by rw [headerLen_eq]; omega)]
  -- The record is not in the buffer any more, but all of it is given back.
  let taken := { s with
    recvBuffer := s.recvBuffer.drop (s.headerLen + 5)
    handshakeStatus := 1 }
  have htaken : taken.method = .ticketAuthCompatible ∨ taken.method = .ticketFastauthCompatible :=
    hmethod
  rcases hparse : parseHello s.hello with (- | e) | ids
  · obtain ⟨s', hreturn, hstatus⟩ := decodeErrorReturn_compatible htaken s.recvBuffer
    dsimp only
    rw [hreturn]
    exact .inr ⟨rfl, hstatus⟩
  · exact absurd (parseHello_raises_iff.1 ⟨e, hparse⟩) hhello
  · exact checkHello_givesBack htaken now data s.recvBuffer ids.1 ids.2

/-- What a compatible server does with each read. -/
theorem decides_reply (C : Crypto) :
    Decides (reply C) ServerRecv.buf TlsTicketAuth.recvBuffer AwaitsRecord CutShort AwaitsWith
      fun s => s.handshakeStatus = -1 where
  buffered_eq h := h.recvBuffer
  wait {p s a} h hawaits := by
    have hbuf : (s.receive a.buf).recvBuffer = p ++ a.buf := by rw [receive, h.recvBuffer]
    have hrecv := recvHello_awaits (C := C) (s := s.receive a.buf) (hbuf ▸ hawaits) a.now a.data
    refine ⟨fun hcut => ?_, false, s.receive a.buf, ?_, hbuf, h.status, h.method⟩
    · have hlength := hcut.1.length_le
      have hthree : [0x16, 3, (1 : UInt8)].length = 3 := rfl
      rw [hthree] at hlength
      obtain ⟨-, hfive, hlt⟩ := hawaits.resolve_left (by omega)
      exact hcut.2.elim (fun hlt => by omega) fun hle => by omega
    · rw [reply, serverDecode_hello h.status, hrecv]
      dsimp only
      rw [receive, h.status]
      rfl
  fail {p s a} h hcut := by
    have hbuf : (s.receive a.buf).recvBuffer = p ++ a.buf := by rw [receive, h.recvBuffer]
    obtain ⟨e, s', hrecv⟩ :=
      recvHello_raises (C := C) (s := s.receive a.buf) (hbuf ▸ hcut) a.now a.data
    refine .inl ⟨e, ?_⟩
    rw [reply, serverDecode_hello h.status, hrecv]
  settle {p s a} h hawaits hcut := by
    have hbuf : (s.receive a.buf).recvBuffer = p ++ a.buf := by rw [receive, h.recvBuffer]
    have hsettles := recvHello_settles (C := C) (s := s.receive a.buf) h.method (hbuf ▸ hawaits)
      (hbuf ▸ hcut) a.now a.data
    rw [reply, serverDecode_hello h.status]
    rcases hrecv : (s.receive a.buf).recvHello C a.now a.data with ⟨result, s', data'⟩
    rw [hrecv, hbuf] at hsettles
    rcases hsettles with ⟨verifyid, rfl⟩ | ⟨hresult, hstatus⟩
    · exact .inl rfl
    · dsimp only at hresult hstatus
      subst hresult
      refine .inr ⟨s', ?_, hstatus⟩
      dsimp only
      rw [hstatus]
      rfl
  pass {s a} h := by
    refine ⟨true, s, ?_, h⟩
    rw [reply, serverDecode, if_pos h]
    dsimp only
    rw [h]
    rfl

end TlsTicketAuth

end ShadowsocksR

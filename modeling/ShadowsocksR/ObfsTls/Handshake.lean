import ShadowsocksR.ObfsTls.AppData

/-!
# The TLS handshake

What a server does with the hello of a client, and with the messages that end
the handshake, when it has received a part of them or all.

* `clientHello_spec`: what the hello of a client consists of;
* `recvHello_wait`, `recvHello_short`, `recvHello_complete`: a server waits for
  an incomplete hello, unless the length of the hello is missing or incomplete,
  and accepts a complete one;
* `decodeFinished_short`, `decodeFinished_wait`, `decodeFinished_complete`: it
  waits for the rest of the messages that end the handshake, unless it has
  received less than eleven bytes of them.
-/

namespace ShadowsocksR

namespace TlsTicketAuth

variable {C : Crypto}

/-! ## The hello -/

/-- What a hello signs: a time and random bytes. -/
def helloId (now : Time) (rng : Rng) : Bytes := packBE 4 now.uint32.toNat ++ (randBytes 18 rng).1

/-- The signed part of a hello. -/
def verifyId (C : Crypto) (now : Time) (key clientId : Bytes) (rng : Rng) : Bytes :=
  helloId now rng ++ (C.hmac .sha1 (key ++ clientId) (helloId now rng)).take 10

/-- A message in its record: the lengths are those of what follows them. -/
def helloMessage (inner : Bytes) : Bytes := [1, 0] ++ packBE 2 inner.length ++ inner

def helloRecord (message : Bytes) : Bytes := [0x16, 3, 1] ++ packBE 2 message.length ++ message

theorem length_helloId (now : Time) (rng : Rng) : (helloId now rng).length = 22 := by
  rw [helloId, List.length_append, length_packBE, length_randBytes]

theorem length_verifyId (now : Time) (key clientId : Bytes) (rng : Rng) :
    (verifyId C now key clientId rng).length = 32 := by
  rw [verifyId, List.length_append, length_helloId, List.length_take, C.length_hmac]
  rfl

/-- The hello of a client. -/
theorem clientHello_spec {now : Time} {host ticket hello : Bytes} {s s' : Client}
    (h : clientHello C now host ticket s = .ok (hello, s')) :
    ∃ tail, ∃ inner, inner = tlsVersion ++ verifyId C now s.key s.clientId s.rng ++ [0x20] ++
        s.clientId ++ tail ∧
      hello = helloRecord (helloMessage inner) ∧ inner.length < 2 ^ 16 ∧
      (helloMessage inner).length < 2 ^ 16 ∧
      s' = { s with rng := (randBytes 18 s.rng).2, handshakeStatus := 1 } := by
  rw [clientHello] at h
  obtain ⟨ext, -, h⟩ := bind_eq_ok.1 h
  obtain ⟨extLen, -, h⟩ := bind_eq_ok.1 h
  obtain ⟨innerLen, hinner, h⟩ := bind_eq_ok.1 h
  obtain ⟨len, hlen, h⟩ := bind_eq_ok.1 h
  obtain ⟨hlt, rfl⟩ := packHigh_eq_ok hinner
  obtain ⟨hlt', rfl⟩ := packHigh_eq_ok hlen
  cases h
  rw [List.append_assoc _ cipherSuites] at hlt hlt' ⊢
  exact ⟨_, _, rfl, rfl, hlt, hlt', rfl⟩

/-- A server reads the id and the session id in a hello. -/
theorem parseHello_message {id sessionid tail : Bytes} (hid : id.length = 32)
    (hsession : sessionid.length = 32) {inner : Bytes}
    (hinner : inner = tlsVersion ++ id ++ [0x20] ++ sessionid ++ tail)
    (hlt : inner.length < 2 ^ 16) : parseHello (helloMessage inner) = .ok (id, sessionid) := by
  have hdrop : (helloMessage inner).drop 2 = packBE 2 inner.length ++ inner := rfl
  have hdrop' : (packBE 2 inner.length ++ inner).drop 2 = inner :=
    List.drop_left' (length_packBE _ _)
  have htake : (packBE 2 inner.length ++ inner).take 2 = packBE 2 inner.length :=
    List.take_left' (length_packBE _ _)
  have hinner' : inner.drop 2 = id ++ (0x20 :: (sessionid ++ tail)) := by
    rw [hinner]
    simp [tlsVersion]
  have hversion : matchBegin inner tlsVersion = true := by
    rw [hinner]
    simp [matchBegin, tlsVersion]
  rw [parseHello, if_neg (by simp [matchBegin, helloMessage])]
  dsimp only
  rw [hdrop, if_neg (by rw [List.length_append, length_packBE]; omega), htake, unpackBE_packBE (by omega), if_neg (by simp), hdrop',
    if_neg (by rw [hversion]; decide), hinner', List.drop_left' hid, List.take_left' hid]
  dsimp only
  rw [if_neg (by decide)]
  have hsession' : (0x20 : UInt8).toNat = sessionid.length := hsession.symm
  rw [hsession', List.take_left]

variable {s : TlsTicketAuth} {now : Time} {data : ObfsAuthData} {message : Bytes}

/-- The header of a hello and what comes after it. -/
theorem unpackBE_helloRecord (h : message.length < 2 ^ 16) (rest : Bytes) :
    unpackBE ((helloRecord message ++ rest).extract 3 5) = message.length := by
  have hsplit : helloRecord message ++ rest =
      [0x16, 3, 1] ++ packBE 2 message.length ++ (message ++ rest) := by
    rw [helloRecord, List.append_assoc]
  rw [hsplit, extract_append_append (i := 3) rfl (by rw [length_packBE]),
    unpackBE_packBE (by omega)]

theorem length_helloRecord : (helloRecord message).length = message.length + 5 := by
  rw [helloRecord, List.length_append, List.length_append, length_packBE, Nat.add_comm]
  rfl

theorem matchBegin_append (l rest : Bytes) : matchBegin (l ++ rest) l = true := by
  rw [matchBegin, List.take_left, beq_self_eq_true]

/-- The beginning of a part of a hello. -/
theorem matchBegin_helloRecord {p rest : Bytes} (hp : p ++ rest = helloRecord message)
    (hlen : 3 ≤ p.length) : matchBegin p [0x16, 3, 1] = true := by
  have htake : p.take 3 = (p ++ rest).take 3 := (List.take_append_of_le_length hlen).symm
  rw [matchBegin, List.length_cons, List.length_cons, List.length_cons, List.length_nil, htake, hp]
  rfl

/-- A server waits for the rest of a hello. -/
theorem recvHello_wait (C : Crypto) (now : Time) (data : ObfsAuthData) {rest : Bytes}
    (hp : s.recvBuffer ++ rest = helloRecord message)
    (hrest : rest ≠ []) (hlt : message.length < 2 ^ 16) (h3 : s.recvBuffer.length ≠ 3)
    (h4 : s.recvBuffer.length ≠ 4) :
    s.recvHello C now data = (.error (.ok ([], false, false)), s, data) := by
  rw [recvHello]
  dsimp only
  by_cases hshort : s.recvBuffer.length < 3
  · rw [if_pos hshort]
  · have hlen := congrArg List.length hp
    rw [List.length_append, length_helloRecord] at hlen
    have hpos := List.length_pos_iff.2 hrest
    have hheader : s.headerLen = message.length := by
      have h := unpackBE_helloRecord hlt []
      rw [List.append_nil, ← hp, extract_append_left (by omega)] at h
      exact h
    rw [if_neg hshort, if_neg (by rw [matchBegin_helloRecord hp (by omega)]; decide),
      if_neg (by omega), if_pos (by rw [hheader]; omega)]

/-- It raises when the length of the hello is missing or incomplete. -/
theorem recvHello_short (C : Crypto) (now : Time) (data : ObfsAuthData) {rest : Bytes}
    (hp : s.recvBuffer ++ rest = helloRecord message)
    (h : s.recvBuffer.length = 3 ∨ s.recvBuffer.length = 4) :
    s.recvHello C now data = (.error (.error .structError), s, data) := by
  rw [recvHello]
  dsimp only
  rw [if_neg (by omega), if_neg (by rw [matchBegin_helloRecord hp (by omega)]; decide),
    if_pos (by omega)]

/-- It accepts a complete hello, when the clocks agree and the hello is fresh. -/
theorem recvHello_complete {clock : Time} {sessionid tail inner : Bytes} {rng : Rng}
    (hinner : inner = tlsVersion ++ verifyId C clock s.key sessionid rng ++ [0x20] ++ sessionid ++
      tail)
    (hlt : inner.length < 2 ^ 16) (hlt' : (helloMessage inner).length < 2 ^ 16)
    (hsession : sessionid.length = 32) (hbuf : s.recvBuffer = helloRecord (helloMessage inner))
    (htime : ¬WrongTime s.timeWindow now data.startupTime clock.uint32.toNat)
    (hfresh : ((data.clientData.get now (helloId clock rng)).1.getD []) = []) :
    ∃ data', s.recvHello C now data = (.ok (helloId clock rng),
      { s with
        recvBuffer := []
        handshakeStatus := 1
        clientId := sessionid
        maxTimeDif := s.timeWindow }, data') := by
  have hheader : s.headerLen = (helloMessage inner).length := by
    have h := unpackBE_helloRecord hlt' []
    rw [List.append_nil, ← hbuf] at h
    exact h
  have hlen : s.recvBuffer.length = (helloMessage inner).length + 5 := by
    rw [hbuf, length_helloRecord]
  have hhello : s.hello = helloMessage inner := by
    rw [hello, hheader, hbuf, helloRecord]
    have := extract_append_append (a := [0x16, 3, 1] ++ packBE 2 (helloMessage inner).length)
      (b := helloMessage inner) (c := []) (i := 5) (j := (helloMessage inner).length + 5)
      (by simp) (by omega)
    rw [List.append_nil] at this
    exact this
  have hdrop : s.recvBuffer.drop (s.headerLen + 5) = [] :=
    List.drop_eq_nil_of_le (by rw [hlen, hheader])
  have hid : (verifyId C clock s.key sessionid rng).take 22 = helloId clock rng :=
    List.take_left' (length_helloId _ _)
  have hsigned : SignedHello C s.key (verifyId C clock s.key sessionid rng) sessionid := by
    rw [SignedHello, hid, verifyId, List.drop_left' (length_helloId _ _)]
  have hutc : unpackBE ((verifyId C clock s.key sessionid rng).take 4) = clock.uint32.toNat := by
    have htake : (verifyId C clock s.key sessionid rng).take 4 = packBE 4 clock.uint32.toNat := by
      rw [verifyId, helloId, List.append_assoc]
      exact List.take_left' (length_packBE _ _)
    have hlt : clock.uint32 < 2 ^ 32 := Int.emod_lt_of_pos _ (by norm_num)
    rw [htake, unpackBE_packBE (by omega)]
  rw [recvHello]
  dsimp only
  rw [if_neg (by omega),
    if_neg (by rw [matchBegin_helloRecord (by rw [List.append_nil, hbuf]) (by omega)]
               decide),
    if_neg (by omega), if_neg (by rw [hheader]; omega), hhello,
    parseHello_message (length_verifyId _ _ _ _) hsession hinner hlt, hdrop]
  dsimp only
  rw [checkHello]
  dsimp only
  rw [hutc, hid, if_neg (by
    rintro (h | h)
    · exact htime h
    · exact h hsigned), if_neg (by rw [hfresh]; simp)]
  exact ⟨_, rfl⟩

/-- `server_decode` in the phase of the hello. -/
theorem serverDecode_hello {buf : Bytes} (hs : s.handshakeStatus = 0) :
    s.serverDecode C now data buf =
      match (s.receive buf).recvHello C now data with
      | (.error r, s, data) => (r, none, s, data)
      | (.ok verifyid, s, data) =>
        let (r, s) := s.helloReturn C
        (r, some verifyid, s, data) := by
  have hbit (bit : ℕ) (h : bit ≠ 0) : s.hasStatus bit = false := by
    rw [hasStatus, hs, Int.toNat_zero, Nat.zero_and, beq_eq_false_iff_ne]
    exact h.symm
  rw [serverDecode, if_neg (by rw [hs]; decide), hbit 4 (by decide), hbit 1 (by decide)]
  rfl

/-! ## The end of the handshake -/

/-- `server_decode` after the answer. -/
theorem serverDecode_finished {buf : Bytes} (hs : s.handshakeStatus = 9) :
    s.serverDecode C now data buf =
      ((s.decodeFinished C buf).1, none, (s.decodeFinished C buf).2, data) := by
  rw [serverDecode, if_neg (by rw [hs]; decide), if_neg (by rw [hasStatus, hs]; decide),
    if_pos (by rw [hasStatus, hs]; decide)]

/-- The phase of the data follows. -/
theorem ready_setStatus (hs : s.handshakeStatus = 9) : (s.setStatus 4).Ready := by
  refine ⟨?_, ?_⟩
  all_goals
    rw [hasStatus, setStatus, hs]
    dsimp only
    decide

/-- The signed part of the messages that end the handshake. -/
def finishedData (random : Bytes) : Bytes :=
  [0x14] ++ tlsVersion ++ [0, 1, 1] ++ ([0x16] ++ tlsVersion ++ [0, 0x20]) ++ random

/-- The messages that end the handshake. -/
def finishedMessage (C : Crypto) (key clientId random : Bytes) : Bytes :=
  finishedData random ++ (C.hmac .sha1 (key ++ clientId) (finishedData random)).take 10

variable {random p rest : Bytes}

theorem length_finishedData (h : random.length = 22) : (finishedData random).length = 33 := by
  rw [finishedData, List.length_append, h]
  rfl

theorem length_finishedMessage {key clientId : Bytes} (h : random.length = 22) :
    (finishedMessage C key clientId random).length = 43 := by
  rw [finishedMessage, List.length_append, length_finishedData h, List.length_take, C.length_hmac]
  rfl

/-- The first eleven bytes of the messages. -/
def finishedHead : Bytes := [0x14] ++ tlsVersion ++ [0, 1, 1] ++ ([0x16] ++ tlsVersion ++ [0, 0x20])

theorem finishedHead_prefix (key clientId random more : Bytes) :
    ∃ l, finishedMessage C key clientId random ++ more = finishedHead ++ l := by
  refine ⟨random ++ ((C.hmac .sha1 (key ++ clientId) (finishedData random)).take 10 ++ more), ?_⟩
  rw [finishedMessage, List.append_assoc, finishedData, List.append_assoc, finishedHead]

/-- What `decode_finished` reads of its buffer before the messages are complete. -/
theorem finishedHead_checks (l : Bytes) :
    matchBegin (finishedHead ++ l) ([0x14] ++ tlsVersion ++ [0, 1, 1]) = true ∧
      matchBegin ((finishedHead ++ l).drop 6) ([0x16] ++ tlsVersion ++ [0]) = true ∧
      unpackBE (((finishedHead ++ l).drop 6).extract 3 5) + 1 = 33 := by
  refine ⟨?_, ?_, ?_⟩
  · rw [finishedHead, List.append_assoc]
    exact matchBegin_append _ _
  · exact matchBegin_append ([0x16] ++ tlsVersion ++ [0]) (0x20 :: l)
  · rfl

/-- A server raises when it has received less than eleven bytes, -/
theorem decodeFinished_short {buf : Bytes} (h : (s.recvBuffer ++ buf).length < 11) :
    (s.decodeFinished C buf).1 = .error .exception := by
  rw [decodeFinished]
  dsimp only
  rw [if_pos h]

/-- waits when it has received eleven, -/
theorem decodeFinished_wait {buf l : Bytes} (h : s.recvBuffer ++ buf = finishedHead ++ l)
    (hlt : (s.recvBuffer ++ buf).length < 43) :
    s.decodeFinished C buf =
      (.ok ([], false, false), { s with recvBuffer := s.recvBuffer ++ buf }) := by
  obtain ⟨h₁, h₂, h₃⟩ := finishedHead_checks l
  have hlen : (finishedHead ++ l).length = 11 + l.length := List.length_append
  rw [decodeFinished]
  dsimp only
  rw [h] at hlt ⊢
  rw [if_neg (by omega), if_neg (by rw [h₁]; decide), if_neg (by rw [h₂]; decide), h₃,
    if_pos (by omega)]

/-- and goes on with the data when it has received all. -/
theorem decodeFinished_complete {buf more : Bytes} (hrandom : random.length = 22)
    (h : s.recvBuffer ++ buf = finishedMessage C s.key s.clientId random ++ more) :
    s.decodeFinished C buf = ({ s with recvBuffer := more }.setStatus 4).decodeAppData [] := by
  obtain ⟨l, hl⟩ := finishedHead_prefix (C := C) s.key s.clientId random more
  obtain ⟨h₁, h₂, h₃⟩ := finishedHead_checks l
  have hlen : (finishedHead ++ l).length = 43 + more.length := by
    rw [← hl, List.length_append, length_finishedMessage hrandom]
  have htake : (finishedHead ++ l).take 33 = finishedData random := by
    rw [← hl, finishedMessage, List.append_assoc]
    exact List.take_left' (length_finishedData hrandom)
  have hsign : (finishedHead ++ l).extract 33 (33 + 10) =
      (C.hmac .sha1 (s.key ++ s.clientId) (finishedData random)).take 10 := by
    rw [← hl, finishedMessage]
    refine extract_append_append (length_finishedData hrandom) ?_
    rw [List.length_take, C.length_hmac]
    rfl
  have hdrop : (finishedHead ++ l).drop (33 + 10) = more := by
    rw [← hl]
    exact List.drop_left' (length_finishedMessage hrandom)
  rw [decodeFinished]
  dsimp only
  rw [h, hl, if_neg (by omega), if_neg (by rw [h₁]; decide), if_neg (by rw [h₂]; decide), h₃,
    if_neg (by omega), htake, hsign, if_neg (by simp), hdrop]

/-- A client finishes the handshake with what it has put off. -/
theorem clientEncode_finish {now : Time} {host ticket : Bytes} {c : Client}
    (hc : c.handshakeStatus = 1) :
    clientEncode C now host ticket c [] =
      .ok (finishedMessage C c.key c.clientId (randBytes 22 c.rng).1 ++ c.sendBuffer,
        { c with rng := (randBytes 22 c.rng).2, sendBuffer := [], handshakeStatus := 8 }) := by
  rw [clientEncode, if_neg (by rw [hc]; decide), if_neg (by rw [hc]; decide)]
  change (if c.handshakeStatus = 0 then _ else _) = _
  rw [if_neg (by rw [hc]; decide), if_pos ⟨hc, rfl⟩]
  simp only [List.append_nil]
  rfl

/-! ## The answer of the server -/

/-- The checks of a client, for a flight with the signed part at its place and a signature at its
    end. -/
theorem verifiedFlight_of_parts {key clientId pre post sign : Bytes} {clock : Time} {rng : Rng}
    (hpre : pre.length = 11) (hpost : 33 ≤ post.length)
    (hsign : sign = (C.hmac .sha1 (key ++ clientId)
      (pre ++ verifyId C clock key clientId rng ++ post)).take 10) :
    VerifiedFlight C key clientId (pre ++ verifyId C clock key clientId rng ++ post ++ sign) := by
  have hid := length_helloId clock rng
  have hlen := length_verifyId (C := C) clock key clientId rng
  have hsignLen : sign.length = 10 := by
    rw [hsign, List.length_take, C.length_hmac]
    rfl
  have hall : (pre ++ verifyId C clock key clientId rng ++ post ++ sign).length - 10 =
      (pre ++ verifyId C clock key clientId rng ++ post).length := by
    have hadd : (pre ++ verifyId C clock key clientId rng ++ post ++ sign).length =
        (pre ++ verifyId C clock key clientId rng ++ post).length + sign.length :=
      List.length_append
    rw [hadd, hsignLen, Nat.add_sub_cancel]
  have hsplit : pre ++ verifyId C clock key clientId rng ++ post ++ sign =
      pre ++ helloId clock rng ++
        ((C.hmac .sha1 (key ++ clientId) (helloId clock rng)).take 10 ++ (post ++ sign)) := by
    simp only [verifyId, List.append_assoc]
  refine ⟨?_, ?_, ?_⟩
  · simp only [List.length_append, hpre, hlen, hsignLen]
    omega
  · have h₁ : (pre ++ verifyId C clock key clientId rng ++ post ++ sign).extract 11 33 =
        helloId clock rng := by
      rw [hsplit]
      exact extract_append_append hpre (by rw [hid])
    have h₂ : (pre ++ verifyId C clock key clientId rng ++ post ++ sign).extract 33 43 =
        (C.hmac .sha1 (key ++ clientId) (helloId clock rng)).take 10 := by
      rw [hsplit, ← List.append_assoc]
      refine extract_append_append (by rw [List.length_append, hpre, hid]) ?_
      rw [List.length_take, C.length_hmac]
      rfl
    rw [h₁, h₂]
  · rw [hall, List.take_left, List.drop_left, hsign]

theorem record_eq_ok {type : UInt8} {data bytes : Bytes} (h : record type data = .ok bytes) :
    ∃ len, len.length = 2 ∧ bytes = [type] ++ tlsVersion ++ len ++ data := by
  rw [record] at h
  obtain ⟨len, hlen, h⟩ := bind_eq_ok.1 h
  refine ⟨len, ?_, (Except.ok.inj h).symm⟩
  rw [(packHigh_eq_ok hlen).2, length_packBE]

/-- The flight of a server passes the checks of a client with the same key and id. -/
theorem verifiedFlight_serverFlight {flight : Bytes} {rng rng' : Rng}
    (hid : s.clientId.length = 32)
    (h : serverFlight C now rng s = .ok (flight, rng')) :
    VerifiedFlight C s.key s.clientId flight := by
  rw [serverFlight] at h
  obtain ⟨innerLen, hinner, h⟩ := bind_eq_ok.1 h
  obtain ⟨hello, hhello, h⟩ := bind_eq_ok.1 h
  obtain ⟨⟨ticket, rng₁⟩, -, h⟩ := bind_eq_ok.1 h
  obtain ⟨finishLen, -, h⟩ := bind_eq_ok.1 h
  have hlen : innerLen.length = 2 := by rw [(packHigh_eq_ok hinner).2, length_packBE]
  -- the signed part stands after eleven bytes of headers
  obtain ⟨pre, post, hpre, hpost, hsplit⟩ : ∃ pre post : Bytes, pre.length = 11 ∧
      33 ≤ post.length ∧ hello = pre ++ verifyId C now s.key s.clientId rng ++ post := by
    obtain ⟨len, hlen', hhello⟩ := record_eq_ok hhello
    refine ⟨[0x16] ++ tlsVersion ++ len ++ ([2, 0] ++ innerLen ++ tlsVersion),
      [0x20] ++ s.clientId ++ [0xc0, 0x2f, 0x00, 0x00, 0x05, 0xff, 0x01, 0x00, 0x01, 0x00], ?_, ?_,
      ?_⟩
    · simp only [List.length_append, hlen, hlen']
      rfl
    · simp only [List.length_append, hid, List.length_cons]
      omega
    · rw [hhello]
      simp only [List.append_assoc]
      rfl
  have hflight := (Prod.mk.inj (Except.ok.inj h)).1
  rw [hsplit, List.append_assoc _ post, List.append_assoc _ (post ++ _),
    List.append_assoc _ (post ++ _ ++ _)] at hflight
  rw [← hflight]
  refine verifiedFlight_of_parts hpre ?_ rfl
  simp only [List.length_append]
  omega

end TlsTicketAuth

end ShadowsocksR

import ShadowsocksR.AuthAkarin.Senders

/-!
# The receiving loop of the server in auth_akarin

The loop of the server follows the frames of a client, as long as the number of
random bytes that it computes for a frame has the same modulus as that of the
client, for every frame without a command of which it finds the beginning in its
buffer (`ServerReads`).

* `ServerTurn`: the lengths that it computes in one turn, and what it does with
  them;
* `serverLockstep`: one turn takes a frame off;
* `ServerAwaits.rndLen`: in every turn, `recv_rnd_data_len` returns what
  `send_rnd_data_len` did.
-/

namespace ShadowsocksR

namespace AuthAkarin

open AuthBase Encryptor
open AuthChain (Lane)

variable {C : Crypto} {P : Session} {iv : Bytes} {l : Lane} {f : Sent}
  {payload bytes hash pad : Bytes} {s : AuthAkarin}

/-! ## A turn of the server -/

/-- The object after `cmdLen` bytes of commands. -/
def afterCommands (s : AuthAkarin) (cmdLen : ℕ) : AuthAkarin :=
  { s with recvTcpMss := if cmdLen > 0 then s.sendTcpMss else s.recvTcpMss }

/-- What `recv_rnd_data_len` returns in a turn of the loop of the server. -/
def serverRndLen (s : AuthAkarin) : Except PyExc ℕ :=
  match takeCommands (unpackLE (s.lastClientHash.extract 12 14)) s.recvBuf
    (unpackLE (s.recvBuf.take 2) ^^^ unpackLE (s.lastClientHash.extract 14 16)) 0 with
  | .data _ dataLen cmdLen =>
    ((s.afterCommands cmdLen).recvRndDataLen (dataLen + cmdLen) s.lastClientHash
      s.randomClient).map Prod.fst
  | .invalid _ => .error .exception
  | .short _ => .error .structError

/-- The lengths that the server computes in a turn. -/
structure ServerTurn (s : AuthAkarin) (recvBuf : Bytes) (dataLen cmdLen randLen : ℕ)
    (random : Xorshift128plus) : Prop where
  length_gt : s.recvBuf.length > 4
  commands_eq : takeCommands (unpackLE (s.lastClientHash.extract 12 14)) s.recvBuf
    (unpackLE (s.recvBuf.take 2) ^^^ unpackLE (s.lastClientHash.extract 14 16)) 0 =
      .data recvBuf dataLen cmdLen
  rndDataLen_eq : (s.afterCommands cmdLen).recvRndDataLen (dataLen + cmdLen) s.lastClientHash
    s.randomClient = .ok (randLen, random)
  length_lt : dataLen + randLen < 4096

variable {t : Recv} {userKey recvBuf : Bytes} {dataLen cmdLen randLen : ℕ}
  {random : Xorshift128plus}

theorem ServerTurn.rndLen_eq (h : ServerTurn s recvBuf dataLen cmdLen randLen random) :
    serverRndLen s = .ok randLen := by
  rw [serverRndLen, h.commands_eq]
  dsimp only
  rw [h.rndDataLen_eq]
  rfl

/-- On a short buffer, the loop ends. -/
theorem serverRecvBody_short (h : ¬t.obj.recvBuf.length > 4) : serverRecvBody C t = .done t := by
  simp only [serverRecvBody, if_neg h]

/-- So it does at an incomplete frame. -/
theorem ServerTurn.incomplete (h : ServerTurn s recvBuf dataLen cmdLen randLen random)
    (hk : s.userKey = some userKey) (hlen : recvBuf.length < dataLen + randLen + 4) (out : Bytes)
    (sendback : Bool) :
    serverRecvBody C { obj := s, outBuf := out, sendback } = .done
      { obj := { s.afterCommands cmdLen with randomClient := random }, outBuf := out, sendback } := by
  have hrnd := h.rndDataLen_eq
  rw [afterCommands] at hrnd
  simp only [serverRecvBody, if_pos h.length_gt, hk, h.commands_eq, Commands.cmdLen, hrnd,
    if_neg (not_le.2 h.length_lt), if_pos (show dataLen + randLen + 4 > recvBuf.length from hlen),
    afterCommands]

/-- A complete frame is taken off. -/
theorem ServerTurn.complete (h : ServerTurn s recvBuf dataLen cmdLen randLen random)
    (hk : s.userKey = some userKey) (hlen : dataLen + randLen + 4 ≤ recvBuf.length)
    {hash data output : Bytes} {e e' : Encryptor}
    (hhash : C.hmac .md5 (userKey ++ packLE 4 s.recvId)
      (s.recvBuf.take (dataLen + randLen + cmdLen + 2)) = hash)
    (hmac : s.recvBuf.extract (dataLen + randLen + cmdLen + 2)
      (dataLen + randLen + cmdLen + 4) = hash.take 2)
    (he : s.encryptor = some e) (hdata : recvBuf.extract 2 (dataLen + 2) = data)
    (hd : e.decrypt C data = (output, e')) (out : Bytes) (sendback : Bool) :
    serverRecvBody C { obj := s, outBuf := out, sendback } = .more
      { obj := { s.afterCommands cmdLen with
          randomClient := random
          recvId := (s.recvId + 1) % 2 ^ 32
          encryptor := some e'
          lastClientHash := hash
          recvBuf := recvBuf.drop (dataLen + randLen + 4) }
        outBuf := out ++ output
        sendback := sendback || dataLen == 0 } := by
  have hrnd := h.rndDataLen_eq
  rw [afterCommands] at hrnd
  simp only [serverRecvBody, if_pos h.length_gt, hk, h.commands_eq, Commands.cmdLen, hrnd,
    if_neg (not_le.2 h.length_lt), if_neg (not_lt.2 hlen), hhash, hmac, ne_eq, not_true_eq_false,
    if_false, he, hdata, hd, afterCommands]

/-- The server computes the lengths of the frame at the front of its buffer. -/
theorem serverTurn_spec (hs : Ready P s) (hhash : s.lastClientHash = l.hash)
    (hpad : Padding P l f payload pad)
    (hfront : Fronts s.recvBuf (frameBody C P iv l f.command payload pad))
    (hlen : s.recvBuf.length > 4)
    (h : f.Alike P.method P.overhead (s.afterCommands f.cmdLen).recvTcpMss s.sendTcpMss) :
    ∃ random, ServerTurn s (s.recvBuf.drop f.cmdLen) payload.length f.cmdLen f.randLen random := by
  have hs' : Ready P (s.afterCommands f.cmdLen) :=
    ⟨hs.method_eq, hs.lists_eq, hs.overhead_eq, hs.userKey_eq⟩
  obtain ⟨random, hr⟩ := recvRndDataLen_spec hs' hpad h s.randomClient
  refine ⟨random, hlen, ?_, ?_, hpad.length_lt⟩
  · rw [hhash]
    exact takeCommands_front hpad.length_le hlen hfront
  · rw [hhash, ← hpad.size_eq]
    exact hr

/-! ## The loop of the server -/

/-- The `recv_tcp_mss` of a server after some frames: a command makes it its `send_tcp_mss`. -/
def serverRecvMss (s : AuthAkarin) (before : List Sent) : ℕ :=
  if before.any Sent.command then s.sendTcpMss else s.recvTcpMss

theorem serverRecvMss_append (s : AuthAkarin) (before : List Sent) (f : Sent) :
    serverRecvMss s (before ++ [f]) =
      if f.command then s.sendTcpMss else serverRecvMss s before := by
  rw [serverRecvMss, serverRecvMss, List.any_append, List.any_cons, List.any_nil, Bool.or_false]
  cases before.any Sent.command <;> cases f.command <;> rfl

/-- The server reads the frames as they were sent, of which it has `avail` bytes. -/
structure ServerReads (P : Session) (s : AuthAkarin) (avail : ℕ) (log : List Sent) : Prop where
  alike : ∀ before f, Sent.Reached avail log before f → f.command = false →
    f.Alike P.method P.overhead (serverRecvMss s before) s.sendTcpMss
  sendTcpMss_eq : ∀ f ∈ log, f.command = true → s.sendTcpMss = P.serverMss

/-- A server that has received up to a state of its lane. -/
def serverReceived (s : AuthAkarin) (buf : Bytes) (l : Lane) (random : Xorshift128plus)
    (e : Encryptor) (recvTcpMss : ℕ) : AuthAkarin :=
  { s with
    recvBuf := buf
    recvId := l.id
    lastClientHash := l.hash
    randomClient := random
    encryptor := some e
    recvTcpMss }

/-- A server, of which `s` is an earlier state, expects the frames up to the state `l'` of its
    lane. -/
inductive ServerAwaits (C : Crypto) (P : Session) (s : AuthAkarin) (sent : Bytes) (l' : Lane)
    (avail : ℕ) (log₀ : List Sent) : List Frame → Recv → Prop
  | intro {fs : List Frame} {before log : List Sent} {buf out : Bytes} {l : Lane}
      {random : Xorshift128plus} {e : Encryptor} {mss : ℕ} {sendback : Bool} :
      IvStream C P.streamKey P.serverIv P.clientIv sent l.carried e →
      Chain C P P.clientIv (CarriesUp P) l fs log l' → log₀ = before ++ log →
      Sent.total before + buf.length = avail →
      (∀ f ∈ log.head?, f.command = false → mss = serverRecvMss s before) →
      ServerAwaits C P s sent l' avail log₀ fs
        { obj := serverReceived s buf l random e mss, outBuf := out, sendback }

variable {sent : Bytes} {l' : Lane} {avail : ℕ} {log₀ before log : List Sent}

/-- A turn on a frame of the chain. -/
theorem serverReceived_turn (hs : Ready P s) (hr : ServerReads P s avail log₀)
    (hf : Framed C P P.clientIv l f payload bytes hash) {n : ℕ} {output : Bytes}
    (hc : CarriesUp P n f payload output) {buf fut rest : Bytes}
    (hbuf : buf ++ fut = bytes ++ rest) (hlog : log₀ = before ++ f :: log)
    (havail : Sent.total before + buf.length = avail) {mss : ℕ}
    (hmss : f.command = false → mss = serverRecvMss s before) (hlen : buf.length > 4)
    (random : Xorshift128plus) (e : Encryptor) :
    ∃ pad random', Padding P l f payload pad ∧
      bytes = frameBody C P P.clientIv l f.command payload pad ++
        (frameHash C P P.clientIv l f.command payload pad).take 2 ∧
      hash = frameHash C P P.clientIv l f.command payload pad ∧
      ServerTurn (serverReceived s buf l random e mss) (buf.drop f.cmdLen) payload.length f.cmdLen
        f.randLen random' := by
  obtain ⟨pad, hpad, hfront, hbytes, hhash⟩ := hf.fronts hbuf
  have halike : f.Alike P.method P.overhead
      ((serverReceived s buf l random e mss).afterCommands f.cmdLen).recvTcpMss s.sendTcpMss := by
    rw [afterCommands, Sent.cmdLen]
    cases hcmd : f.command with
    | true =>
      -- Both have the `tcp_mss` of the server.
      have hsend := hr.sendTcpMss_eq f (by rw [hlog]; simp) hcmd
      have hmss' := hc.2
      rw [hcmd, if_pos rfl] at hmss'
      rw [Sent.Alike, hmss', ← hsend]
      rfl
    | false =>
      have h := hr.alike before f ⟨⟨log, hlog⟩, by omega⟩ hcmd
      rw [← hmss hcmd] at h
      exact h
  obtain ⟨random', hturn⟩ := serverTurn_spec (s := serverReceived s buf l random e mss)
    ⟨hs.method_eq, hs.lists_eq, hs.overhead_eq, hs.userKey_eq⟩ rfl hpad hfront hlen halike
  exact ⟨pad, random', hpad, hbytes, hhash, hturn⟩

/-- The loop of the server follows the frames of the client. -/
theorem serverLockstep (hs : Ready P s) (hr : ServerReads P s avail log₀) :
    Lockstep (serverRecvBody C) (fun t => t.obj.recvBuf) (fun t => t.outBuf)
      (ServerAwaits C P s sent l' avail log₀) where
  bytes_ne_nil h := by
    cases h with
    | intro _ hch => exact hch.bytes_ne_nil
  incomplete {f fs t} h hbuf hne := by
    by_cases hlen : t.obj.recvBuf.length > 4
    · cases h with
      | @intro before log buf out l random e mss sendback hst hch hlog havail hmss =>
        cases hch with
        | @cons _ _ payload hash _ _ g log hf hc hrest =>
          have hlen' : buf.length > 4 := hlen
          have hbuf' : buf <+: f.bytes := hbuf
          have hlt : buf.length < f.bytes.length :=
            lt_of_le_of_ne hbuf'.length_le fun h => hne (hbuf'.eq_of_length h)
          obtain ⟨tail, htail⟩ := hbuf'
          obtain ⟨pad, random', hpad, hbytes, hhash, hturn⟩ := serverReceived_turn hs hr hf hc
            (show buf ++ tail = f.bytes ++ [] by rw [htail, List.append_nil]) hlog havail
            (hmss g rfl) hlen' random e
          rw [hf.length_bytes, Sent.length, hpad.size_eq] at hlt
          have : ServerAwaits C P s sent l' avail log₀ (f :: fs)
              { obj := serverReceived s buf l random' e (if g.cmdLen > 0 then s.sendTcpMss else mss)
                outBuf := out, sendback } := by
            refine .intro hst (.cons hf hc hrest) hlog havail fun g' hg' hcmd => ?_
            obtain rfl : g = g' := Option.some.inj hg'
            rw [Sent.cmdLen, hcmd]
            exact hmss g rfl hcmd
          exact ⟨_, hturn.incomplete hs.userKey_eq (by rw [List.length_drop]; omega) out sendback,
            rfl, rfl, this⟩
    · exact ⟨t, serverRecvBody_short hlen, rfl, rfl, h⟩
  complete {f fs t rest} h hbuf := by
    by_cases hlen : t.obj.recvBuf.length > 4
    · refine .inl ?_
      cases h with
      | @intro before log buf out l random e mss sendback hst hch hlog havail hmss =>
        cases hch with
        | @cons _ _ payload hash _ _ g log hf hc hrest =>
          have hlen' : buf.length > 4 := hlen
          have hbuf' : buf = f.bytes ++ rest := hbuf
          obtain ⟨pad, random', hpad, hbytes, hhash, hturn⟩ := serverReceived_turn hs hr hf hc
            (show buf ++ [] = f.bytes ++ rest by rw [List.append_nil, hbuf']) hlog havail
            (hmss g rfl) hlen' random e
          obtain ⟨htake, hmac, hdata, hdrop, hle⟩ := frameBody_parts hpad
            (hbuf'.trans (congrArg (fun b => b ++ rest) hbytes))
          obtain ⟨e', hdec, hst'⟩ := hst.decrypt_encrypt payload
          have hid := l.id_next payload hash hf.length_hash
          have hcheck : C.hmac .md5 (P.userKey ++ packLE 4 l.id)
              (buf.take (payload.length + g.randLen + g.cmdLen + 2)) = hash := by
            rw [htake, hhash, frameHash]
          rw [← hhash] at hmac
          have hbody := hturn.complete hs.userKey_eq hle hcheck hmac rfl hdata hdec out sendback
          obtain ⟨rfl, -⟩ := hc
          refine ⟨_, hbody, hdrop, rfl, ?_⟩
          have : ServerAwaits C P s sent l' avail log₀ fs
              { obj := serverReceived s rest (l.next f.output hash hf.length_hash) random' e'
                  (if g.cmdLen > 0 then s.sendTcpMss else mss)
                outBuf := out ++ f.output, sendback := sendback || f.output.length == 0 } := by
            refine .intro hst' hrest (show log₀ = (before ++ [g]) ++ log by rw [hlog]; simp) ?_
              fun g' _ _ => ?_
            · rw [hbuf', List.length_append, hf.length_bytes] at havail
              rw [← havail, Sent.total_append]
              simp only [Sent.total_cons, Sent.total_nil]
              omega
            · rw [serverRecvMss_append, Sent.cmdLen]
              cases hcmd : g.command with
              | true => rfl
              | false => exact hmss g rfl hcmd
          rw [serverReceived, hid, ← hdrop] at this
          exact this
    · refine .inr ?_
      cases h with
      | @intro before log buf out l random e mss sendback hst hch hlog havail hmss =>
        cases hch with
        | @cons _ _ payload hash _ _ g log hf hc hrest =>
          have hb := hf.length_bytes
          have hp := hf.length_payload
          have hl : buf.length = f.bytes.length + rest.length := by
            rw [show buf = _ from hbuf, List.length_append]
          have hlen' : ¬buf.length > 4 := hlen
          rw [Sent.length] at hb
          exact ⟨List.length_eq_zero_iff.1 (by omega),
            by rw [hc.1]; exact List.length_eq_zero_iff.1 (by omega), _,
            serverRecvBody_short hlen, rfl, rfl, .intro hst (.cons hf hc hrest) hlog havail hmss⟩
  empty {t} h hbuf := ⟨t, serverRecvBody_short (by rw [hbuf]; decide), hbuf, rfl, h⟩

/-- In every turn of its loop, the server computes the number of random bytes of the frame that
    comes next. -/
theorem ServerAwaits.rndLen (hs : Ready P s) (hr : ServerReads P s avail log₀) {fs : List Frame}
    (h : ServerAwaits C P s sent l' avail log₀ fs t) {fut : Bytes}
    (hbuf : t.obj.recvBuf ++ fut = wire fs) (hlen : 4 < t.obj.recvBuf.length) :
    ∃ f, (Sent.remaining (t.obj.recvBuf.length + fut.length) log₀).head? = some f ∧
      serverRndLen t.obj = .ok f.randLen := by
  have hrem := congrArg List.length hbuf
  rw [List.length_append] at hrem
  rw [hrem]
  cases h with
  | @intro before log buf out l random e mss sendback hst hch hlog havail hmss =>
    rw [← hch.total_eq, Sent.remaining_total ⟨before, hlog.symm⟩]
    cases hch with
    | nil =>
      have hnil : buf = [] := (List.append_eq_nil_iff.1 hbuf).1
      have hlen' : 4 < buf.length := hlen
      rw [hnil] at hlen'
      cases hlen'
    | @cons _ _ payload hash f fs g log hf hc hrest =>
      obtain ⟨pad, random', -, -, -, hturn⟩ := serverReceived_turn hs hr hf hc hbuf hlog havail
        (hmss g rfl) hlen random e
      exact ⟨g, rfl, hturn.rndLen_eq⟩

end AuthAkarin

end ShadowsocksR

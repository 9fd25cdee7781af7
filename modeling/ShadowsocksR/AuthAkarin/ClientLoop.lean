import ShadowsocksR.AuthAkarin.Senders

/-!
# The receiving loop of the client in auth_akarin

The loop of the client follows the frames of a server in the same way, as long as
its counter does not stand at one again.

* `ClientTurn`: the lengths that it computes in one turn, and what it does with
  them;
* `clientLockstep`: one turn takes a frame off;
* `ClientAwaits.rndLen`: in every turn, `recv_rnd_data_len` returns what
  `send_rnd_data_len` did.
-/

namespace ShadowsocksR

namespace AuthAkarin

open AuthBase Encryptor
open AuthChain (Lane)

variable {C : Crypto} {P : Session} {iv : Bytes} {l : Lane} {f : Sent}
  {payload bytes hash pad : Bytes} {s : AuthAkarin}

/-! ## A turn of the client -/

variable {t : Recv} {userKey : Bytes} {dataLen randLen : ℕ} {random : Xorshift128plus}

/-- What `recv_rnd_data_len` returns in a turn of the loop of the client. -/
def clientRndLen (s : AuthAkarin) : Except PyExc ℕ :=
  (s.recvRndDataLen
    (unpackLE (s.recvBuf.take 2) ^^^ unpackLE (s.lastServerHash.extract 14 16)) s.lastServerHash
    s.randomServer).map Prod.fst

/-- The lengths that the client computes in a turn. -/
structure ClientTurn (s : AuthAkarin) (dataLen randLen : ℕ) (random : Xorshift128plus) : Prop where
  length_gt : s.recvBuf.length > 4
  dataLen_eq :
    unpackLE (s.recvBuf.take 2) ^^^ unpackLE (s.lastServerHash.extract 14 16) = dataLen
  rndDataLen_eq : s.recvRndDataLen dataLen s.lastServerHash s.randomServer = .ok (randLen, random)
  length_lt : dataLen + randLen < 4096

theorem ClientTurn.rndLen_eq (h : ClientTurn s dataLen randLen random) :
    clientRndLen s = .ok randLen := by
  rw [clientRndLen, h.dataLen_eq, h.rndDataLen_eq]
  rfl

/-- On a short buffer, the loop ends. -/
theorem clientRecvBody_short (h : ¬t.obj.recvBuf.length > 4) : clientRecvBody C t = .done t := by
  simp only [clientRecvBody, if_neg h]

/-- So it does at an incomplete frame. -/
theorem ClientTurn.incomplete (h : ClientTurn s dataLen randLen random)
    (hk : s.userKey = some userKey) (hlen : s.recvBuf.length < dataLen + randLen + 4)
    (out : Bytes) (sendback : Bool) :
    clientRecvBody C { obj := s, outBuf := out, sendback } = .done
      { obj := { s with randomServer := random }, outBuf := out, sendback } := by
  simp only [clientRecvBody, if_pos h.length_gt, hk, h.dataLen_eq, h.rndDataLen_eq,
    if_neg (not_le.2 h.length_lt), if_pos (show dataLen + randLen + 4 > s.recvBuf.length from hlen)]

section Complete

variable (h : ClientTurn s dataLen randLen random) (hk : s.userKey = some userKey)
  (hlen : dataLen + randLen + 4 ≤ s.recvBuf.length) {hash data output : Bytes} {e e' : Encryptor}
  (hhash : C.hmac .md5 (userKey ++ packLE 4 s.recvId)
    (s.recvBuf.take (dataLen + randLen + 2)) = hash)
  (hmac : s.recvBuf.extract (dataLen + randLen + 2) (dataLen + randLen + 4) = hash.take 2)
  (he : s.encryptor = some e) (hdata : s.recvBuf.extract 2 (dataLen + 2) = data)
  (hd : e.decrypt C data = (output, e'))
include h hk hlen hhash hmac he hdata hd

/-- A complete frame is taken off. -/
theorem ClientTurn.complete (hid : s.recvId ≠ 1) (out : Bytes) (sendback : Bool) :
    clientRecvBody C { obj := s, outBuf := out, sendback } = .more
      { obj := { s with
          randomServer := random
          encryptor := some e'
          lastServerHash := hash
          recvId := (s.recvId + 1) % 2 ^ 32
          recvBuf := s.recvBuf.drop (dataLen + randLen + 4) }
        outBuf := out ++ output
        sendback } := by
  simp only [clientRecvBody, if_pos h.length_gt, hk, h.dataLen_eq, h.rndDataLen_eq,
    if_neg (not_le.2 h.length_lt), if_neg (not_lt.2 hlen), hhash, hmac, ne_eq, not_true_eq_false,
    if_false, he, hdata, hd, if_neg hid]

/-- When the counter stands at one, the `tcp_mss` of the server is at the front of its payload. -/
theorem ClientTurn.first (hid : s.recvId = 1) (hout : 2 ≤ output.length) (sendback : Bool) :
    clientRecvBody C { obj := s, outBuf := [], sendback } = .more
      { obj := { s with
          randomServer := random
          encryptor := some e'
          lastServerHash := hash
          serverInfo := { s.serverInfo with tcpMss := unpackLE (output.take 2) }
          recvTcpMss := unpackLE (output.take 2)
          sendBackCmd := s.sendBackCmd ++ [0xff00]
          recvId := (s.recvId + 1) % 2 ^ 32
          recvBuf := s.recvBuf.drop (dataLen + randLen + 4) }
        outBuf := output.drop 2
        sendback } := by
  simp only [clientRecvBody, if_pos h.length_gt, hk, h.dataLen_eq, h.rndDataLen_eq,
    if_neg (not_le.2 h.length_lt), if_neg (not_lt.2 hlen), hhash, hmac, ne_eq, not_true_eq_false,
    if_false, he, hdata, hd, if_pos hid, List.nil_append, if_neg (not_lt.2 hout)]

end Complete

/-- The client computes the lengths of the frame at the front of its buffer. -/
theorem clientTurn_spec (hs : Ready P s) (hhash : s.lastServerHash = l.hash)
    (hcmd : f.command = false) (hpad : Padding P l f payload pad)
    (hfront : Fronts s.recvBuf (frameBody C P iv l f.command payload pad))
    (hlen : s.recvBuf.length > 4)
    (h : f.Alike P.method P.overhead s.recvTcpMss s.sendTcpMss) :
    ∃ random, ClientTurn s payload.length f.randLen random := by
  obtain ⟨random, hr⟩ := recvRndDataLen_spec hs hpad h s.randomServer
  rw [hcmd] at hfront
  refine ⟨random, hlen, ?_, ?_, hpad.length_lt⟩
  · rw [hhash]
    exact dataLen_front hpad.length_le (by omega) hfront
  · have hsize : f.size = payload.length := by
      rw [hpad.size_eq, Sent.cmdLen, hcmd]
      rfl
    rw [hhash, ← hsize]
    exact hr

/-! ## The loop of the client -/

/-- The `recv_tcp_mss` of a client after some frames: with the first frame of the server comes that
    of the server. -/
def clientRecvMss (serverMss : ℕ) (s : AuthAkarin) (before : List Sent) : ℕ :=
  if before = [] then s.recvTcpMss else serverMss

/-- The client reads the frames as they were sent, of which it has `avail` bytes. -/
def ClientReads (P : Session) (s : AuthAkarin) (avail : ℕ) (log : List Sent) : Prop :=
  ∀ before f, Sent.Reached avail log before f →
    f.Alike P.method P.overhead (clientRecvMss P.serverMss s before) s.sendTcpMss

/-- What a client that has received `count` frames knows of the `tcp_mss` of the server. -/
structure ClientMss (P : Session) (count : ℕ) (s : AuthAkarin) : Prop where
  sendBackCmd_iff : s.sendBackCmd ≠ [] ↔ 0 < count
  tcpMss_eq : 0 < count → s.serverInfo.tcpMss = P.serverMss
  recvTcpMss_eq : 0 < count → s.recvTcpMss = P.serverMss

/-- A client that has received up to a state of its lane. -/
def clientReceived (s : AuthAkarin) (buf : Bytes) (l : Lane) (random : Xorshift128plus)
    (e : Encryptor) (tcpMss recvTcpMss : ℕ) (sendBackCmd : List ℕ) : AuthAkarin :=
  { s with
    recvBuf := buf
    recvId := l.id
    lastServerHash := l.hash
    randomServer := random
    encryptor := some e
    serverInfo := { s.serverInfo with tcpMss }
    recvTcpMss
    sendBackCmd }

/-- A client, of which `s` is an earlier state, expects the frames up to the state `l'` of its
    lane, the first of them in a call of its own output. -/
inductive ClientAwaits (C : Crypto) (P : Session) (s : AuthAkarin) (sent : Bytes) (l' : Lane)
    (avail : ℕ) (log₀ : List Sent) : List Frame → Recv → Prop
  | intro {fs : List Frame} {before log : List Sent} {buf out : Bytes} {l : Lane}
      {random : Xorshift128plus} {e : Encryptor} {tcpMss recvMss : ℕ} {cmd : List ℕ}
      {sendback : Bool} : IvStream C P.streamKey P.clientIv P.serverIv sent l.carried e →
      Chain C P P.serverIv (CarriesDown P) l fs log l' → log₀ = before ++ log →
      Sent.total before + buf.length = avail → (l.count = 0 → out = []) →
      recvMss = clientRecvMss P.serverMss s before →
      ClientMss P l.count (clientReceived s buf l random e tcpMss recvMss cmd) →
      ClientAwaits C P s sent l' avail log₀ fs
        { obj := clientReceived s buf l random e tcpMss recvMss cmd, outBuf := out, sendback }

variable {sent : Bytes} {l' : Lane} {avail : ℕ} {log₀ before log : List Sent}

/-- A turn on a frame of the chain. -/
theorem clientReceived_turn (hs : Ready P s) (hr : ClientReads P s avail log₀)
    (hf : Framed C P P.serverIv l f payload bytes hash) {n : ℕ} {output : Bytes}
    (hc : CarriesDown P n f payload output) {buf fut rest : Bytes}
    (hbuf : buf ++ fut = bytes ++ rest) (hlog : log₀ = before ++ f :: log)
    (havail : Sent.total before + buf.length = avail) {recvMss : ℕ}
    (hmss : recvMss = clientRecvMss P.serverMss s before) (hlen : buf.length > 4)
    (random : Xorshift128plus) (e : Encryptor) (tcpMss : ℕ) (cmd : List ℕ) :
    ∃ pad random', Padding P l f payload pad ∧
      bytes = frameBody C P P.serverIv l f.command payload pad ++
        (frameHash C P P.serverIv l f.command payload pad).take 2 ∧
      hash = frameHash C P P.serverIv l f.command payload pad ∧
      ClientTurn (clientReceived s buf l random e tcpMss recvMss cmd) payload.length f.randLen
        random' := by
  obtain ⟨pad, hpad, hfront, hbytes, hhash⟩ := hf.fronts hbuf
  have halike := hr before f ⟨⟨log, hlog⟩, by omega⟩
  rw [← hmss] at halike
  obtain ⟨random', hturn⟩ := clientTurn_spec
    (s := clientReceived s buf l random e tcpMss recvMss cmd)
    ⟨hs.method_eq, hs.lists_eq, hs.overhead_eq, hs.userKey_eq⟩ rfl hc.2 hpad hfront hlen halike
  exact ⟨pad, random', hpad, hbytes, hhash, hturn⟩

/-- The loop of the client follows the frames of the server, as long as its counter does not
    stand at one again. -/
theorem clientLockstep (hs : Ready P s) (hr : ClientReads P s avail log₀)
    (hcount : l'.count ≤ 2 ^ 32) :
    Lockstep (clientRecvBody C) (fun t => t.obj.recvBuf) (fun t => t.outBuf)
      (ClientAwaits C P s sent l' avail log₀) where
  bytes_ne_nil h := by
    cases h with
    | intro _ hch => exact hch.bytes_ne_nil
  incomplete {f fs t} h hbuf hne := by
    by_cases hlen : t.obj.recvBuf.length > 4
    · cases h with
      | @intro before log buf out l random e tcpMss recvMss cmd sendback hst hch hlog havail hout
          hmss hknown =>
        cases hch with
        | @cons _ _ payload hash _ _ g log hf hc hrest =>
          have hlen' : buf.length > 4 := hlen
          have hbuf' : buf <+: f.bytes := hbuf
          have hlt : buf.length < f.bytes.length :=
            lt_of_le_of_ne hbuf'.length_le fun h => hne (hbuf'.eq_of_length h)
          obtain ⟨tail, htail⟩ := hbuf'
          obtain ⟨pad, random', hpad, -, -, hturn⟩ := clientReceived_turn hs hr hf hc
            (show buf ++ tail = f.bytes ++ [] by rw [htail, List.append_nil]) hlog havail hmss
            hlen' random e tcpMss cmd
          rw [hf.length_bytes, Sent.length, hpad.size_eq, Sent.cmdLen, hc.2, if_neg (by decide)]
            at hlt
          have : ClientAwaits C P s sent l' avail log₀ (f :: fs)
              { obj := clientReceived s buf l random' e tcpMss recvMss cmd
                outBuf := out, sendback } :=
            .intro hst (.cons hf hc hrest) hlog havail hout hmss
              ⟨hknown.sendBackCmd_iff, hknown.tcpMss_eq, hknown.recvTcpMss_eq⟩
          exact ⟨_, hturn.incomplete hs.userKey_eq hlt out sendback, rfl, rfl, this⟩
    · exact ⟨t, clientRecvBody_short hlen, rfl, rfl, h⟩
  complete {f fs t rest} h hbuf := by
    by_cases hlen : t.obj.recvBuf.length > 4
    · refine .inl ?_
      cases h with
      | @intro before log buf out l random e tcpMss recvMss cmd sendback hst hch hlog havail hout
          hmss hknown =>
        have hlt := hch.count_eq
        cases hch with
        | @cons _ _ payload hash _ _ g log hf hc hrest =>
          rw [List.length_cons] at hlt
          have hlen' : buf.length > 4 := hlen
          have hbuf' : buf = f.bytes ++ rest := hbuf
          obtain ⟨pad, random', hpad, hbytes, hhash, hturn⟩ := clientReceived_turn hs hr hf hc
            (show buf ++ [] = f.bytes ++ rest by rw [List.append_nil, hbuf']) hlog havail hmss
            hlen' random e tcpMss cmd
          obtain ⟨htake, hmac, hdata, hdrop, hle⟩ := frameBody_parts hpad
            (hbuf'.trans (congrArg (fun b => b ++ rest) hbytes))
          rw [← hhash] at hmac
          obtain ⟨e', hdec, hst'⟩ := hst.decrypt_encrypt payload
          have hid := l.id_next payload hash hf.length_hash
          have hone := AuthChain.Lane.id_eq_one (l := l) (by omega)
          have hzero : g.cmdLen = 0 := by rw [Sent.cmdLen, hc.2]; rfl
          rw [hzero] at htake hmac hdata hdrop hle
          have hcheck : C.hmac .md5 (P.userKey ++ packLE 4 l.id)
              (buf.take (payload.length + g.randLen + 2)) = hash := by
            rw [hhash, frameHash, ← htake]
          have havail' : Sent.total (before ++ [g]) + rest.length = avail := by
            rw [hbuf', List.length_append, hf.length_bytes] at havail
            rw [← havail, Sent.total_append]
            simp only [Sent.total_cons, Sent.total_nil]
            omega
          have hnext : clientRecvMss P.serverMss s (before ++ [g]) = P.serverMss := by
            rw [clientRecvMss, if_neg (by simp)]
          have hcar := hc.1
          rw [AuthChain.CarriesDown] at hcar
          by_cases hz : l.count = 0
          · rw [if_pos hz] at hcar
            obtain ⟨hmss', rfl⟩ := hcar
            obtain rfl := hout hz
            have hfirst : unpackLE ((packLE 2 P.serverMss ++ f.output).take 2) = P.serverMss := by
              rw [List.take_left' (length_packLE _ _),
                unpackLE_packLE (by norm_num at hmss' ⊢; exact hmss')]
            have hbody := hturn.first hs.userKey_eq hle hcheck hmac rfl hdata hdec (hone.2 hz)
              (by simp) sendback
            rw [hfirst, List.drop_left' (length_packLE _ _)] at hbody
            refine ⟨_, hbody, hdrop, rfl, ?_⟩
            have : ClientAwaits C P s sent l' avail log₀ fs
                { obj := clientReceived s rest
                    (l.next (packLE 2 P.serverMss ++ f.output) hash hf.length_hash) random' e'
                    P.serverMss P.serverMss (cmd ++ [0xff00])
                  outBuf := f.output, sendback } :=
              .intro hst' hrest (show log₀ = (before ++ [g]) ++ log by rw [hlog]; simp) havail'
                (fun h => by simp [Lane.next] at h) hnext.symm
                ⟨iff_of_true (by simp [clientReceived]) (Nat.succ_pos _), fun _ => rfl,
                  fun _ => rfl⟩
            rw [clientReceived, hid, ← hdrop] at this
            exact this
          · rw [if_neg hz] at hcar
            have hpos : 0 < l.count := Nat.pos_of_ne_zero hz
            refine ⟨_, hturn.complete hs.userKey_eq hle hcheck hmac rfl hdata hdec (hone.not.2 hz)
              out sendback, hdrop, by rw [hcar], ?_⟩
            have : ClientAwaits C P s sent l' avail log₀ fs
                { obj := clientReceived s rest (l.next payload hash hf.length_hash) random' e'
                    tcpMss recvMss cmd
                  outBuf := out ++ payload, sendback } :=
              .intro hst' hrest (show log₀ = (before ++ [g]) ++ log by rw [hlog]; simp) havail'
                (fun h => by simp [Lane.next] at h) ((hknown.recvTcpMss_eq hpos).trans hnext.symm)
                ⟨iff_of_true (hknown.sendBackCmd_iff.2 hpos) (Nat.succ_pos _),
                  fun _ => hknown.tcpMss_eq hpos, fun _ => hknown.recvTcpMss_eq hpos⟩
            rw [clientReceived, hid, ← hdrop] at this
            exact this
    · refine .inr ?_
      cases h with
      | @intro before log buf out l random e tcpMss recvMss cmd sendback hst hch hlog havail hout
          hmss hknown =>
        cases hch with
        | @cons _ _ payload hash _ _ g log hf hc hrest =>
          have hb := hf.length_bytes
          have hp := hf.length_payload
          have hl : buf.length = f.bytes.length + rest.length := by
            rw [show buf = _ from hbuf, List.length_append]
          have hlen' : ¬buf.length > 4 := hlen
          have hout' : f.output.length ≤ payload.length := by
            have hcar := hc.1
            rw [AuthChain.CarriesDown] at hcar
            split at hcar
            · rw [hcar.2]
              simp
            · rw [hcar]
          rw [Sent.length] at hb
          exact ⟨List.length_eq_zero_iff.1 (by omega), List.length_eq_zero_iff.1 (by omega), _,
            clientRecvBody_short hlen, rfl, rfl,
            .intro hst (.cons hf hc hrest) hlog havail hout hmss hknown⟩
  empty {t} h hbuf := ⟨t, clientRecvBody_short (by rw [hbuf]; decide), hbuf, rfl, h⟩

/-- In every turn of its loop, the client computes the number of random bytes of the frame that
    comes next. -/
theorem ClientAwaits.rndLen (hs : Ready P s) (hr : ClientReads P s avail log₀) {fs : List Frame}
    (h : ClientAwaits C P s sent l' avail log₀ fs t) {fut : Bytes}
    (hbuf : t.obj.recvBuf ++ fut = wire fs) (hlen : 4 < t.obj.recvBuf.length) :
    ∃ f, (Sent.remaining (t.obj.recvBuf.length + fut.length) log₀).head? = some f ∧
      clientRndLen t.obj = .ok f.randLen := by
  have hrem := congrArg List.length hbuf
  rw [List.length_append] at hrem
  rw [hrem]
  cases h with
  | @intro before log buf out l random e tcpMss recvMss cmd sendback hst hch hlog havail hout hmss
      hknown =>
    rw [← hch.total_eq, Sent.remaining_total ⟨before, hlog.symm⟩]
    cases hch with
    | nil =>
      have hnil : buf = [] := (List.append_eq_nil_iff.1 hbuf).1
      have hlen' : 4 < buf.length := hlen
      rw [hnil] at hlen'
      cases hlen'
    | @cons _ _ payload hash f fs g log hf hc hrest =>
      obtain ⟨pad, random', -, -, -, hturn⟩ := clientReceived_turn hs hr hf hc hbuf hlog havail
        hmss hlen random e tcpMss cmd
      exact ⟨g, rfl, hturn.rndLen_eq⟩

end AuthAkarin

end ShadowsocksR

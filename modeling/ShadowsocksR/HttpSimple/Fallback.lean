import ShadowsocksR.HttpSimple.Header
import ShadowsocksR.Lib.Fallback

/-!
# The fallback of the obfuscation that looks like HTTP

A compatible server gives all bytes back when they do not begin with a header that it accepts. It
takes the data and the host out of every complete header, and some headers do not have any.

* `readItems`, `decodeItems_of_forall`, `decodeItems_raises`: what is taken out of a URL;
* `AwaitsHeader`, `BadHeader`: the bytes with which a server waits, and those with which it raises
  or makes up an answer;
* `decides_reply`: what it does with each read.
-/

namespace ShadowsocksR

namespace HttpSimple

/-- What a call of `server_decode` comes to; it has given up at the returns that are no data. -/
def reply (obfsParam : Text) (o : Obfs) (buf : Bytes) : Reply PyExc Obfs :=
  match serverDecode obfsParam o buf with
  | .error e => .raised e
  | .ok (answer, o') =>
    match answer.branch with
    | .waits => .returned answer.buffer answer.isNeedDecrypt false o'
    | .notMatch | .error => .returned answer.buffer answer.isNeedDecrypt true o'
    | .data =>
      if o.hasRecvHeader then .returned answer.buffer answer.isNeedDecrypt true o' else .accepted

/-! ## The URL -/

/-- The items that are read: all up to the first one that does not have two bytes. -/
def readItems : List Bytes → List Bytes
  | [] => []
  | [c, d] :: items => [c, d] :: readItems items
  | item :: _ => [item]

/-- Two digits of a hexadecimal number. -/
def BeginsWithDigits : Bytes → Prop
  | c :: d :: _ => (unhexDigit c).isSome ∧ (unhexDigit d).isSome
  | _ => False

variable {items : List Bytes}

theorem unhexlify_of_digits {c d : UInt8} (h : BeginsWithDigits [c, d]) :
    ∃ b, unhexlify [c, d] = .ok [b] := by
  obtain ⟨x, hx⟩ := Option.isSome_iff_exists.1 h.1
  obtain ⟨y, hy⟩ := Option.isSome_iff_exists.1 h.2
  rw [unhexlify, hx, hy]
  exact ⟨_, rfl⟩

theorem unhexlify_raises {c d : UInt8} (h : ¬BeginsWithDigits [c, d]) :
    unhexlify [c, d] = .error .valueError := by
  rw [unhexlify]
  split
  · next hx hy => exact absurd ⟨Option.isSome_of_eq_some hx, Option.isSome_of_eq_some hy⟩ h
  · rfl

/-- Each item that is read gives a byte. -/
theorem decodeItems_of_forall (h : ∀ item ∈ readItems items, BeginsWithDigits item) :
    ∃ data, decodeItems items = .ok data ∧ data.length = (readItems items).length := by
  induction items with
  | nil => exact ⟨[], rfl, rfl⟩
  | cons item items ih =>
    match item, h with
    | [], h => exact (h [] List.mem_cons_self).elim
    | [c], h => exact (h [c] List.mem_cons_self).elim
    | [c, d], h =>
      obtain ⟨hitem, hitems⟩ := List.forall_mem_cons.1 h
      obtain ⟨b, hb⟩ := unhexlify_of_digits hitem
      obtain ⟨data, hdata, hlen⟩ := ih hitems
      refine ⟨b :: data, ?_, congrArg (· + 1) hlen⟩
      rw [decodeItems, if_neg (by simp), if_neg (by simp), hb, hdata]
      rfl
    | c :: d :: e :: es, h =>
      have hitem : BeginsWithDigits [c, d] := h (c :: d :: e :: es) List.mem_cons_self
      obtain ⟨b, hb⟩ := unhexlify_of_digits hitem
      refine ⟨[b], ?_, rfl⟩
      rw [decodeItems, if_neg (by simp), if_pos (by simp)]
      exact hb

/-- An item without two digits raises. -/
theorem decodeItems_raises (h : ¬∀ item ∈ readItems items, BeginsWithDigits item) :
    ∃ e, decodeItems items = .error e := by
  induction items with
  | nil => exact absurd (List.forall_mem_nil _) h
  | cons item items ih =>
    match item, h with
    | [], _ => exact ⟨_, rfl⟩
    | [c], _ => exact ⟨_, rfl⟩
    | [c, d], h =>
      rw [decodeItems, if_neg (by simp), if_neg (by simp)]
      by_cases hdigits : BeginsWithDigits [c, d]
      · obtain ⟨b, hb⟩ := unhexlify_of_digits hdigits
        obtain ⟨e, he⟩ := ih fun hitems => h (List.forall_mem_cons.2 ⟨hdigits, hitems⟩)
        rw [hb, he]
        exact ⟨e, rfl⟩
      · rw [unhexlify_raises hdigits]
        exact ⟨_, rfl⟩
    | c :: d :: e :: es, h =>
      rw [decodeItems, if_neg (by simp), if_pos (by simp)]
      exact ⟨_, unhexlify_raises fun hdigits => h (List.forall_mem_singleton.2 hdigits)⟩

/-! ## The header -/

variable {p : Bytes} {o : Obfs} {obfsParam : Text}

/-- The items of the URL that are read. -/
def urlItems (p : Bytes) : List Bytes := readItems (((splitAll crlf p).headD []).splitOn 37).tail

/-- The line with the host. -/
def hostLine (p : Bytes) : Option Bytes := (splitAll crlf p).find? (matchBegin · (ascii "Host: "))

/-- The host, if it is a text. -/
def hostOf (p : Bytes) : Option Text := (hostLine p).bind fun line => decodeText (line.drop 6)

def BeginsAsHttp (p : Bytes) : Prop := ascii "GET " <+: p ∨ ascii "POST " <+: p

/-- The header may still become complete. -/
def AwaitsHeader (p : Bytes) : Prop :=
  p.length ≤ 10 ∨ BeginsAsHttp p ∧ p.length ≤ 65536 ∧ ¬crlf ++ crlf <:+: p

/-- A complete header whose URL has no digits where they are read, or whose host is no text, or that
    has an accepted host and less than four bytes in the URL. -/
def BadHeader (obfsParam : Text) (p : Bytes) : Prop :=
  10 < p.length ∧ p.length ≤ 65536 ∧ BeginsAsHttp p ∧ crlf ++ crlf <:+: p ∧
    ((¬∀ item ∈ urlItems p, BeginsWithDigits item) ∨
      (∃ line, hostLine p = some line ∧ decodeText (line.drop 6) = none) ∨
      hostRefused obfsParam (hostOf p) = false ∧ (urlItems p).length < 4)

/-- A list with a separator has two pieces. -/
theorem splitAll_of_infix {sep l : Bytes} (hne : l ≠ []) (h : sep <:+: l) :
    ∃ line line' lines, splitAll sep l = line :: line' :: lines := by
  obtain ⟨x, l, rfl⟩ := List.exists_cons_of_ne_nil hne
  cases hcut : cutAt sep (x :: l) with
  | none => exact absurd h (cutAt_eq_none.1 hcut)
  | some pieces =>
    have hsplit : splitAll sep (x :: l) = pieces.1 :: splitLoop sep l.length pieces.2 := by
      rw [splitAll, List.length_cons, splitLoop, hcut]
    rcases hrest : splitLoop sep l.length pieces.2 with - | ⟨line', lines⟩
    · unfold splitLoop at hrest
      split at hrest
      · cases hrest
      · split at hrest <;> cases hrest
    · exact ⟨pieces.1, line', lines, hsplit.trans (congrArg _ hrest)⟩

theorem splitAll_of_header (h : crlf ++ crlf <:+: p) :
    ∃ line line' lines, splitAll crlf p = line :: line' :: lines := by
  refine splitAll_of_infix ?_ ((List.prefix_append crlf crlf).isInfix.trans h)
  rintro rfl
  cases List.infix_nil.1 h

theorem getDataFromHttpHeader_eq (h : crlf ++ crlf <:+: p) :
    getDataFromHttpHeader p = decodeItems (((splitAll crlf p).headD []).splitOn 37).tail := by
  obtain ⟨line, line', lines, hsplit⟩ := splitAll_of_header h
  rw [getDataFromHttpHeader, hsplit]
  rfl

theorem getHostFromHttpHeader_eq (h : crlf ++ crlf <:+: p) :
    getHostFromHttpHeader p =
      (hostLine p).elim (.ok none) fun line => (toStr (line.drop 6)).map some := by
  obtain ⟨line, line', lines, hsplit⟩ := splitAll_of_header h
  rw [getHostFromHttpHeader, hostLine, hsplit]
  dsimp only
  cases (line :: line' :: lines).find? (matchBegin · (ascii "Host: ")) <;> rfl

/-- The host is found when it is a text. -/
theorem getHostFromHttpHeader_eq_ok (h : crlf ++ crlf <:+: p)
    (hhost : ¬∃ line, hostLine p = some line ∧ decodeText (line.drop 6) = none) :
    getHostFromHttpHeader p = .ok (hostOf p) := by
  rw [getHostFromHttpHeader_eq h, hostOf]
  cases hline : hostLine p with
  | none => rfl
  | some line =>
    cases htext : decodeText (line.drop 6) with
    | none => exact absurd ⟨line, hline, htext⟩ hhost
    | some text =>
      rw [Option.elim_some, toStr, htext, Option.bind_some, htext]
      rfl

theorem getHostFromHttpHeader_raises (h : crlf ++ crlf <:+: p)
    (hhost : ∃ line, hostLine p = some line ∧ decodeText (line.drop 6) = none) :
    ∃ e, getHostFromHttpHeader p = .error e := by
  obtain ⟨line, hline, htext⟩ := hhost
  rw [getHostFromHttpHeader_eq h, hline, Option.elim_some, toStr, htext]
  exact ⟨_, rfl⟩

/-- What a bad header leads to. -/
theorem headerDecode_bad (h : BadHeader obfsParam p) (o : Obfs) (body : Bytes) :
    (∃ e, headerDecode obfsParam o p body = .error e) ∨
      headerDecode obfsParam o p body = .ok (errorReturn o) := by
  obtain ⟨-, -, -, hheader, hbad⟩ := h
  rw [headerDecode, getDataFromHttpHeader_eq hheader]
  by_cases hdigits : ∀ item ∈ urlItems p, BeginsWithDigits item
  case neg =>
    obtain ⟨e, he⟩ := decodeItems_raises hdigits
    rw [he]
    exact .inl ⟨e, rfl⟩
  obtain ⟨data, hdata, hlength⟩ := decodeItems_of_forall hdigits
  rw [hdata]
  by_cases hhost : ∃ line, hostLine p = some line ∧ decodeText (line.drop 6) = none
  case pos =>
    obtain ⟨e, he⟩ := getHostFromHttpHeader_raises hheader hhost
    rw [he]
    exact .inl ⟨e, rfl⟩
  -- The host is accepted, and there are not enough data.
  obtain ⟨hrefused, hfew⟩ :=
    (hbad.resolve_left (not_not.2 hdigits)).resolve_left hhost
  rw [getHostFromHttpHeader_eq_ok hheader hhost]
  refine .inr ?_
  show (if hostRefused obfsParam (hostOf p) = true then _ else _) = _
  rw [hrefused, if_neg Bool.false_ne_true]
  show (if data.length < 4 then _ else _) = _
  rw [if_pos (by rw [hlength]; exact hfew)]
  rfl

/-- What another header leads to. -/
theorem headerDecode_good (hheader : crlf ++ crlf <:+: p)
    (hdigits : ∀ item ∈ urlItems p, BeginsWithDigits item)
    (hhost : ¬∃ line, hostLine p = some line ∧ decodeText (line.drop 6) = none)
    (hfew : ¬(hostRefused obfsParam (hostOf p) = false ∧ (urlItems p).length < 4))
    (o : Obfs) (body : Bytes) :
    headerDecode obfsParam o p body = .ok (notMatchReturn o p) ∨
      ∃ data o', headerDecode obfsParam o p body = .ok (⟨.data, data, true, false⟩, o') := by
  obtain ⟨data, hdata, hlength⟩ := decodeItems_of_forall hdigits
  rw [headerDecode, getDataFromHttpHeader_eq hheader, hdata,
    getHostFromHttpHeader_eq_ok hheader hhost]
  show (if hostRefused obfsParam (hostOf p) = true then _ else _) = _ ∨ ∃ _ _,
    (if hostRefused obfsParam (hostOf p) = true then _ else _) = _
  cases hrefused : hostRefused obfsParam (hostOf p) with
  | true => exact .inl rfl
  | false =>
    have henough : ¬data.length < 4 := fun hlt => hfew ⟨hrefused, by rw [hlength] at hlt; exact hlt⟩
    rw [if_neg Bool.false_ne_true]
    show (if data.length < 4 then _ else _) = _ ∨ ∃ _ _, (if data.length < 4 then _ else _) = _
    rw [if_neg henough]
    by_cases hsize : (data ++ body).length ≥ 13
    · exact .inr ⟨_, _, if_pos hsize⟩
    · exact .inl (if_neg hsize)

/-! ## Reads -/

/-- A server that waits with the bytes `p`. -/
structure AwaitsWith (p : Bytes) (o : Obfs) : Prop where
  recvBuffer : o.recvBuffer = p
  hasRecvHeader : o.hasRecvHeader = false
  compatible : o.compatible = true

theorem isHttpSimple_eq_false (h : o.compatible = true) : isHttpSimple o = false := by
  rw [isHttpSimple, h]
  cases o.kind <;> rfl

/-- What a compatible server returns. -/
theorem notMatchReturn_compatible (h : o.compatible = true) (buf : Bytes) :
    ∃ o', notMatchReturn o buf = (⟨.notMatch, buf, true, false⟩, o') ∧ o'.hasRecvHeader = true := by
  rw [notMatchReturn, isHttpSimple_eq_false h]
  exact ⟨_, rfl, rfl⟩

theorem beginsAsHttp_iff :
    (matchBegin p (ascii "GET ") || matchBegin p (ascii "POST ")) = true ↔ BeginsAsHttp p := by
  rw [Bool.or_eq_true, matchBegin, matchBegin, decide_eq_true_iff, decide_eq_true_iff, BeginsAsHttp]

/-- No header consists of the letter that stands for an error. -/
theorem BadHeader.ne_replicate (h : BadHeader obfsParam p) : List.replicate 2048 69 ≠ p := by
  obtain ⟨-, -, hbegins, -⟩ := h
  have hget : ascii "GET " = [71, 69, 84, 32] := by decide +kernel
  have hpost : ascii "POST " = [80, 79, 83, 84, 32] := by decide +kernel
  rintro rfl
  rw [List.replicate_succ, BeginsAsHttp, hget, hpost, List.cons_prefix_cons,
    List.cons_prefix_cons] at hbegins
  rcases hbegins with ⟨h, -⟩ | ⟨h, -⟩ <;> exact absurd h (by decide)

theorem serverDecode_waits (h : AwaitsWith p o) {r : Bytes} (hawaits : AwaitsHeader (p ++ r)) :
    serverDecode obfsParam o r =
      .ok (⟨.waits, [], true, false⟩, { o with recvBuffer := p ++ r }) := by
  rw [serverDecode, if_neg (by rw [h.hasRecvHeader]; decide), h.recvBuffer]
  dsimp only
  by_cases hlength : (p ++ r).length ≤ 10
  · rw [if_neg (by omega)]
  · obtain ⟨hbegins, hsize, hheader⟩ := hawaits.resolve_left hlength
    rw [if_pos (by omega), if_pos (beginsAsHttp_iff.2 hbegins), if_neg (by omega),
      cutAt_eq_none.2 hheader]

/-- A complete header is decoded. -/
theorem serverDecode_header (obfsParam : Text) (h : AwaitsWith p o) {r : Bytes}
    (hlength : 10 < (p ++ r).length) (hsize : (p ++ r).length ≤ 65536)
    (hbegins : BeginsAsHttp (p ++ r)) (hheader : crlf ++ crlf <:+: p ++ r) :
    ∃ body, serverDecode obfsParam o r =
      headerDecode obfsParam { o with recvBuffer := p ++ r } (p ++ r) body := by
  rw [serverDecode, if_neg (by rw [h.hasRecvHeader]; decide), h.recvBuffer]
  dsimp only
  rw [if_pos hlength, if_pos (beginsAsHttp_iff.2 hbegins), if_neg (by omega)]
  cases hcut : cutAt (crlf ++ crlf) (p ++ r) with
  | none => exact absurd hheader (cutAt_eq_none.1 hcut)
  | some pieces => exact ⟨pieces.2, rfl⟩

/-- What is no header, or too long, is given back. -/
theorem serverDecode_notMatch (h : AwaitsWith p o) {r : Bytes} (hlength : 10 < (p ++ r).length)
    (hnot : ¬BeginsAsHttp (p ++ r) ∨ 65536 < (p ++ r).length) :
    serverDecode obfsParam o r = .ok (notMatchReturn { o with recvBuffer := [] } (p ++ r)) := by
  rw [serverDecode, if_neg (by rw [h.hasRecvHeader]; decide), h.recvBuffer]
  dsimp only
  rw [if_pos hlength]
  by_cases hbegins : BeginsAsHttp (p ++ r)
  · rw [if_pos (beginsAsHttp_iff.2 hbegins), if_pos (hnot.resolve_left (not_not.2 hbegins))]
  · rw [if_neg (mt beginsAsHttp_iff.1 hbegins)]

/-- What the bytes that are given back lead to. -/
theorem reply_notMatch {r buf : Bytes} (o₁ : Obfs) (h : o₁.compatible = true)
    (hdecode : serverDecode obfsParam o r = .ok (notMatchReturn o₁ buf)) :
    ∃ o', reply obfsParam o r = .returned buf true true o' ∧ o'.hasRecvHeader = true := by
  obtain ⟨o', hreturn, ho'⟩ := notMatchReturn_compatible h buf
  rw [hreturn] at hdecode
  refine ⟨o', ?_, ho'⟩
  rw [reply, hdecode]

/-- What a compatible server does with each read. -/
theorem decides_reply (obfsParam : Text) :
    Decides (reply obfsParam) id Obfs.recvBuffer AwaitsHeader (BadHeader obfsParam) AwaitsWith
      fun o => o.hasRecvHeader = true where
  buffered_eq h := h.recvBuffer
  wait {p o r} h hawaits := by
    dsimp only [id] at hawaits ⊢
    refine ⟨fun hbad => ?_, true, { o with recvBuffer := p ++ r }, ?_, rfl, h.hasRecvHeader,
      h.compatible⟩
    · obtain ⟨hlt, -, -, hheader, -⟩ := hbad
      exact (hawaits.resolve_left (not_le.2 hlt)).2.2 hheader
    · rw [reply, serverDecode_waits h hawaits]
  fail {p o r} h hbad := by
    dsimp only [id] at hbad ⊢
    obtain ⟨body, hdecode⟩ :=
      serverDecode_header obfsParam h hbad.1 hbad.2.1 hbad.2.2.1 hbad.2.2.2.1
    rw [reply, hdecode]
    rcases headerDecode_bad hbad { o with recvBuffer := p ++ r } body with ⟨e, he⟩ | herror
    · rw [he]
      exact .inl ⟨e, rfl⟩
    · rw [herror]
      exact .inr ⟨List.replicate 2048 69, false, _, rfl, hbad.ne_replicate⟩
  settle {p o r} h hawaits hbad := by
    rw [AwaitsHeader, not_or, not_le] at hawaits
    dsimp only [id] at hawaits hbad ⊢
    by_cases hsettled : BeginsAsHttp (p ++ r) ∧ (p ++ r).length ≤ 65536
    case neg =>
      refine .inr (reply_notMatch { o with recvBuffer := [] } h.compatible
        (serverDecode_notMatch h hawaits.1 ?_))
      rw [← not_le, ← not_and_or]
      exact hsettled
    obtain ⟨hbegins, hsize⟩ := hsettled
    have hheader : crlf ++ crlf <:+: p ++ r :=
      not_not.1 fun hheader => hawaits.2 ⟨hbegins, hsize, hheader⟩
    rw [BadHeader, and_iff_right hawaits.1, and_iff_right hsize, and_iff_right hbegins,
      and_iff_right hheader, not_or, not_or, not_not] at hbad
    obtain ⟨hdigits, hhost, hfew⟩ := hbad
    obtain ⟨body, hdecode⟩ :=
      serverDecode_header obfsParam h hawaits.1 hsize hbegins hheader
    rcases headerDecode_good hheader hdigits hhost hfew { o with recvBuffer := p ++ r } body with
      hnot | ⟨data, o', hdata⟩
    · exact .inr (reply_notMatch { o with recvBuffer := p ++ r } h.compatible
        (hdecode.trans hnot))
    · refine .inl ?_
      rw [reply, hdecode.trans hdata]
      dsimp only
      rw [if_neg (by rw [h.hasRecvHeader]; decide)]
  pass {o r} h := by
    refine ⟨true, o, ?_, h⟩
    rw [reply, serverDecode, if_pos h]
    dsimp only
    rw [if_pos h]
    rfl

end HttpSimple

end ShadowsocksR

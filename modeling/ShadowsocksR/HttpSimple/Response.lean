import ShadowsocksR.HttpSimple.Header
import ShadowsocksR.Inet.Object
import ShadowsocksR.Lib.Chunks

/-!
# The response

The server sends the header of a response before its first buffer. The client looks for the empty line
at the end of it in every single read, and drops the reads before it.

* `serverEncode`, `clientDecode`: the two ends;
* `Closes`: the rest of a header, which has its only empty line at the end;
* `EndsTogether`: the empty line is in one read;
* `feed_clientDecode_length`: a client that has not seen it loses more than it;
* `clientDecode_iff`: the exact condition for getting the buffers back.
-/

namespace ShadowsocksR

namespace HttpSimple

/-! ## The server -/

/-- What `datetime.now()` is, as far as it is put into a text. -/
structure DateTime where
  weekday : Fin 7
  day : ℕ
  month : Fin 12
  year : ℕ
  hour : ℕ
  minute : ℕ
  second : ℕ

def weekdays : List Text :=
  ["Mon".toList, "Tue".toList, "Wed".toList, "Thu".toList, "Fri".toList, "Sat".toList,
    "Sun".toList]

def months : List Text :=
  ["Jan".toList, "Feb".toList, "Mar".toList, "Apr".toList, "May".toList, "Jun".toList,
    "Jul".toList, "Aug".toList, "Sep".toList, "Oct".toList, "Nov".toList, "Dec".toList]

/-- A number with at least two digits. -/
def twoDigits (n : ℕ) : Text := if n < 10 then '0' :: Nat.toDigits 10 n else Nat.toDigits 10 n

/-- `strftime('%a, %d %b %Y %H:%M:%S GMT')` -/
def DateTime.strftime (t : DateTime) : Text :=
  weekdays.getD t.weekday [] ++ [',', ' '] ++ twoDigits t.day ++ [' '] ++ months.getD t.month [] ++
    [' '] ++ Nat.toDigits 10 t.year ++ [' '] ++ twoDigits t.hour ++ [':'] ++ twoDigits t.minute ++
    [':'] ++ twoDigits t.second ++ [' ', 'G', 'M', 'T']

/-- The header of a response. -/
def responseHeader (t : DateTime) : Bytes :=
  ascii ("HTTP/1.1 200 OK\r\nConnection: keep-alive\r\nContent-Encoding: gzip\r\n" ++
    "Content-Type: text/html\r\nDate: ") ++ encodeText t.strftime ++
    ascii "\r\nServer: nginx\r\nVary: Accept-Encoding\r\n\r\n"

/-- A buffer that a server sends, and the time when it does. -/
structure ServerSend where
  now : DateTime
  buf : Bytes

/-- `server_encode` -/
def serverEncode (o : Obfs) (a : ServerSend) : Except PyExc (Bytes × Obfs) :=
  if o.hasSentHeader then .ok (a.buf, o)
  else .ok (responseHeader a.now ++ a.buf, { o with hasSentHeader := true })

/-! ## The client -/

/-- `client_decode`; nothing is to be sent back. -/
def clientDecode (o : Obfs) (buf : Bytes) : (Bytes × Bool) × Obfs :=
  if o.hasRecvHeader then ((buf, false), o)
  else
    match cutAt (crlf ++ crlf) buf with
    | some (_, rest) => ((rest, false), { o with hasRecvHeader := true })
    | none => (([], false), o)

/-- The payload of a read. -/
def clientRecv (o : Obfs) (buf : Bytes) : Except PyExc (Bytes × Obfs) :=
  let ((payload, _), o) := clientDecode o buf
  .ok (payload, o)

/-! ## The lines of the header -/

theorem not_mem_twoDigits {c : Char} (hc : c.isDigit = false) (n : ℕ) : c ∉ twoDigits n := by
  have hzero : c ≠ '0' := fun h => by
    rw [h] at hc
    exact absurd hc (by decide)
  unfold twoDigits
  split_ifs
  · rw [List.mem_cons, not_or]
    exact ⟨hzero, not_mem_toDigits hc n⟩
  · exact not_mem_toDigits hc n

theorem not_mem_strftime (t : DateTime) : '\r' ∉ t.strftime := by
  have hdigits (n : ℕ) : '\r' ∉ twoDigits n := not_mem_twoDigits (by decide) n
  have hyear : '\r' ∉ Nat.toDigits 10 t.year := not_mem_toDigits (by decide) t.year
  have hweekday : ∀ i : Fin 7, '\r' ∉ weekdays.getD i [] := by decide
  have hmonth : ∀ i : Fin 12, '\r' ∉ months.getD i [] := by decide
  simp only [DateTime.strftime, List.mem_append, not_or, hdigits, hyear, hweekday, hmonth,
    not_false_eq_true, true_and, and_true]
  decide

def responseLines (t : DateTime) : List Bytes :=
  [ascii "HTTP/1.1 200 OK", ascii "Connection: keep-alive", ascii "Content-Encoding: gzip",
    ascii "Content-Type: text/html", ascii "Date: " ++ encodeText t.strftime,
    ascii "Server: nginx", ascii "Vary: Accept-Encoding"]

theorem responseHeader_eq (t : DateTime) :
    responseHeader t = unlines 13 10 (responseLines t) := by
  have hbefore : ascii ("HTTP/1.1 200 OK\r\nConnection: keep-alive\r\nContent-Encoding: gzip\r\n" ++
      "Content-Type: text/html\r\nDate: ") =
      [ascii "HTTP/1.1 200 OK", ascii "Connection: keep-alive", ascii "Content-Encoding: gzip",
        ascii "Content-Type: text/html"].flatMap (· ++ [13, 10]) ++ ascii "Date: " := by
    decide +kernel
  have hafter : ascii "\r\nServer: nginx\r\nVary: Accept-Encoding\r\n\r\n" =
      [13, 10] ++ unlines 13 10 [ascii "Server: nginx", ascii "Vary: Accept-Encoding"] := by
    decide +kernel
  rw [responseHeader, hbefore, hafter, responseLines]
  simp only [unlines, List.flatMap_cons, List.flatMap_nil, List.append_assoc, List.append_nil]

/-- The lines are no empty ones. -/
theorem responseLines_spec (t : DateTime) :
    ∀ line ∈ responseLines t, line ≠ [] ∧ (13 : UInt8) ∉ line := by
  have hfixed : ∀ line ∈ [ascii "HTTP/1.1 200 OK", ascii "Connection: keep-alive",
      ascii "Content-Encoding: gzip", ascii "Content-Type: text/html", ascii "Server: nginx",
      ascii "Vary: Accept-Encoding", ascii "Date: "], line ≠ [] ∧ (13 : UInt8) ∉ line := by
    decide +kernel
  have hdate : (13 : UInt8) ∉ encodeText t.strftime :=
    not_mem_encodeText (by decide) rfl (not_mem_strftime t)
  intro line hline
  simp only [responseLines, List.mem_cons, List.not_mem_nil, or_false] at hline
  rcases hline with rfl | rfl | rfl | rfl | rfl | rfl | rfl
  case inr.inr.inr.inr.inl =>
    obtain ⟨hne, hmem⟩ := hfixed (ascii "Date: ") (by simp)
    exact ⟨fun h => hne (List.append_eq_nil_iff.1 h).1,
      fun h => (List.mem_append.1 h).elim hmem hdate⟩
  all_goals exact hfixed _ (by simp)

/-! ## The rest of the header -/

/-- The empty line at the end of a header. -/
def emptyLine : Bytes := crlf ++ crlf

/-- The bytes at the end of a header: there is no empty line before the last byte, and one at the end,
    if they are long enough. -/
structure Closes (head : Bytes) : Prop where
  ne_nil : head ≠ []
  first : ¬emptyLine <:+: head.dropLast
  suffix : 4 ≤ head.length → emptyLine <:+ head

theorem closes_responseHeader (t : DateTime) : Closes (responseHeader t) := by
  have hne : responseLines t ≠ [] := List.cons_ne_nil _ _
  obtain ⟨before, hbefore⟩ := cutAt_lines (x := 13) (y := 10) (by decide) hne
    (responseLines_spec t) []
  rw [List.append_nil, ← responseHeader_eq] at hbefore
  have heq := cutAt_eq_some hbefore
  rw [List.append_nil] at heq
  have hnil : responseHeader t ≠ [] := by
    rw [heq]
    simp
  refine ⟨hnil, ?_, fun _ => ⟨before, heq.symm⟩⟩
  refine cutAt_eq_none.1 (cutAt_lines_eq_none (by decide) hne (responseLines_spec t) ?_ ?_)
  · rw [← responseHeader_eq]
    exact List.dropLast_prefix _
  · have hpos := List.length_pos_iff.2 hnil
    rw [← responseHeader_eq, List.length_dropLast]
    omega

variable {head p q r payload : Bytes} {o : Obfs} {reads : List Bytes}

/-- What is left of them, when some have come. -/
theorem Closes.of_append (h : Closes (p ++ q)) (hq : q ≠ []) : Closes q := by
  refine ⟨hq, fun hinfix => h.first ?_, fun hlen => ?_⟩
  · rw [List.dropLast_append_of_ne_nil hq]
    exact hinfix.trans (List.suffix_append _ _).isInfix
  · refine List.suffix_of_suffix_length_le (h.suffix ?_) (List.suffix_append _ _) hlen
    rw [List.length_append]
    omega

/-- What has come does not have an empty line in it. -/
theorem Closes.cutAt_eq_none (h : Closes (p ++ q)) (hq : q ≠ []) : cutAt emptyLine p = none := by
  refine ShadowsocksR.cutAt_eq_none.2 fun hinfix => h.first ?_
  rw [List.dropLast_append_of_ne_nil hq]
  exact hinfix.trans (List.prefix_append _ _).isInfix

/-- The empty line is found, when all of it comes at once. -/
theorem Closes.cutAt_append (h : Closes head) (hlen : 4 ≤ head.length) (rest : Bytes) :
    ∃ before, cutAt emptyLine (head ++ rest) = some (before, rest) := by
  obtain ⟨before, rfl⟩ := h.suffix hlen
  exact ⟨before, cutAt_closing h.first rest⟩

/-! ## Reads -/

/-- The read with the last of the next `n` bytes has at least four of them. -/
def EndsTogether : ℕ → List Bytes → Prop
  | _, [] => True
  | n, r :: reads => if r.length < n then EndsTogether (n - r.length) reads else 4 ≤ n

theorem clientRecv_none (h : o.hasRecvHeader = false) (hcut : cutAt emptyLine r = none) :
    clientRecv o r = .ok ([], o) := by
  have hcut' : cutAt (crlf ++ crlf) r = none := hcut
  rw [clientRecv, clientDecode, if_neg (by rw [h]; decide), hcut']

theorem clientRecv_some (h : o.hasRecvHeader = false)
    (hcut : cutAt emptyLine r = some (p, q)) :
    clientRecv o r = .ok (q, { o with hasRecvHeader := true }) := by
  have hcut' : cutAt (crlf ++ crlf) r = some (p, q) := hcut
  rw [clientRecv, clientDecode, if_neg (by rw [h]; decide), hcut']

/-- A client that has found the end of the header gets everything. -/
theorem feed_clientRecv (h : o.hasRecvHeader = true) (reads : List Bytes) :
    feed clientRecv o reads = .ok (reads.flatten, o) := by
  induction reads with
  | nil => rfl
  | cons r reads ih =>
    refine feed_cons ?_ ih
    rw [clientRecv, clientDecode, if_pos h]

/-- A client that looks for it gets nothing, or loses an empty line. -/
theorem feed_clientRecv_length (h : o.hasRecvHeader = false) (reads : List Bytes) :
    ∃ out o', feed clientRecv o reads = .ok (out, o') ∧
      (out = [] ∨ out.length + 4 ≤ reads.flatten.length) := by
  induction reads with
  | nil => exact ⟨[], o, rfl, .inl rfl⟩
  | cons r reads ih =>
    rw [List.flatten_cons, List.length_append]
    cases hcut : cutAt emptyLine r with
    | none =>
      obtain ⟨out, o', hfeed, hout⟩ := ih
      exact ⟨[] ++ out, o', feed_cons (clientRecv_none h hcut) hfeed,
        hout.imp id fun hlen => by rw [List.nil_append]; omega⟩
    | some p =>
      obtain ⟨before, rest⟩ := p
      have hlen := congrArg List.length (cutAt_eq_some hcut)
      have hfour : emptyLine.length = 4 := rfl
      rw [List.length_append, List.length_append, hfour] at hlen
      refine ⟨rest ++ reads.flatten, _, feed_cons (clientRecv_some h hcut)
        (feed_clientRecv rfl reads), .inr ?_⟩
      rw [List.length_append]
      omega

/-- A client that gets the rest of the header, and then some payload. -/
theorem feed_clientRecv_iff (hhead : Closes head) (h : o.hasRecvHeader = false)
    (hreads : reads.flatten = head ++ payload) :
    ∃ out o', feed clientRecv o reads = .ok (out, o') ∧
      (out = payload ↔ payload = [] ∨ EndsTogether head.length reads) := by
  induction reads generalizing head with
  | nil => exact absurd (List.append_eq_nil_iff.1 hreads.symm).1 hhead.ne_nil
  | cons r reads ih =>
    rw [EndsTogether]
    rcases prefix_or_prefix (show r ++ reads.flatten = head ++ payload from hreads) with
      ⟨⟨q, rfl⟩, hne⟩ | ⟨rest, rfl, hrest⟩
    · -- Only a part of the header comes.
      have hq : q ≠ [] := fun hq => hne (by rw [hq, List.append_nil])
      have hqpos := List.length_pos_iff.2 hq
      rw [List.flatten_cons, List.append_assoc, List.append_cancel_left_eq] at hreads
      obtain ⟨out, o', hfeed, hiff⟩ := ih (hhead.of_append hq) hreads
      refine ⟨[] ++ out, o', feed_cons (clientRecv_none h (hhead.cutAt_eq_none hq)) hfeed, ?_⟩
      rw [List.length_append, if_pos (by omega), Nat.add_sub_cancel_left, List.nil_append, hiff]
    · rw [List.length_append, if_neg (by omega)]
      by_cases hlen : 4 ≤ head.length
      · obtain ⟨before, hcut⟩ := hhead.cutAt_append hlen rest
        refine ⟨rest ++ reads.flatten, _, feed_cons (clientRecv_some h hcut)
          (feed_clientRecv rfl reads), iff_of_true hrest (.inr hlen)⟩
      · -- The beginning of the empty line has been dropped.
        obtain ⟨out, o', hfeed, hout⟩ := feed_clientRecv_length h ((head ++ rest) :: reads)
        refine ⟨out, o', hfeed, ?_⟩
        rw [hreads, List.length_append] at hout
        constructor
        · rintro rfl
          refine hout.imp id fun hle => ?_
          omega
        · rintro (rfl | hle)
          · refine hout.resolve_right fun hle => ?_
            rw [List.length_nil] at hle
            omega
          · exact absurd hle hlen

/-! ## Responses -/

/-- The buffers of a server that has sent the header. -/
theorem feed_serverEncode (h : o.hasSentHeader = true) (sends : List ServerSend) :
    feed serverEncode o sends = .ok (sends.flatMap ServerSend.buf, o) := by
  induction sends with
  | nil => rfl
  | cons a sends ih =>
    refine feed_cons ?_ ih
    rw [serverEncode, if_pos h]

/-- The length of the header of a response. -/
def headerLength : List ServerSend → ℕ
  | [] => 0
  | a :: _ => (responseHeader a.now).length

/-- The reads of a client give the buffers of the server, in whatever way the response is cut, exactly
    when the empty line comes in one read, or when the buffers are empty. -/
theorem clientDecode_iff (kind : Kind) (compatible compatible' : Bool) (sends : List ServerSend) :
    ∃ stream server, feed serverEncode { kind, compatible } sends = .ok (stream, server) ∧
      ∀ reads : List Bytes, reads.flatten = stream →
        ∃ out client, feed clientRecv { kind, compatible := compatible' } reads =
            .ok (out, client) ∧
          (out = sends.flatMap ServerSend.buf ↔
            sends.flatMap ServerSend.buf = [] ∨ EndsTogether (headerLength sends) reads) := by
  cases sends with
  | nil =>
    refine ⟨[], _, rfl, fun reads hreads => ?_⟩
    obtain ⟨out, client, hfeed, hout⟩ :=
      feed_clientRecv_length (o := { kind, compatible := compatible' }) rfl reads
    refine ⟨out, client, hfeed, iff_of_true (hout.resolve_right fun hle => ?_) (.inl rfl)⟩
    rw [hreads, List.length_nil] at hle
    omega
  | cons a sends =>
    refine ⟨_, _, feed_cons rfl (feed_serverEncode rfl sends), fun reads hreads => ?_⟩
    rw [List.append_assoc] at hreads
    exact feed_clientRecv_iff (closes_responseHeader a.now) rfl hreads

/-- New Year's Day, at noon. -/
def newYear : DateTime where
  weekday := 3
  day := 1
  month := 0
  year := 2026
  hour := 12
  minute := 0
  second := 0

/-- The last two bytes of the header come with the payload. -/
theorem not_clientDecode : ¬∀ (kind : Kind) (sends : List ServerSend) (stream : Bytes)
    (server : Obfs) (reads : List Bytes),
    feed serverEncode { kind, compatible := false } sends = .ok (stream, server) →
      reads.flatten = stream →
      ∃ client, feed clientRecv { kind, compatible := false } reads =
        .ok (sends.flatMap ServerSend.buf, client) := by
  intro h
  have hsend : serverEncode { kind := .httpSimple, compatible := false } ⟨newYear, [7]⟩ =
      .ok (responseHeader newYear ++ [7], ⟨.httpSimple, false, true, false, []⟩) := rfl
  obtain ⟨client, hclient⟩ := h .httpSimple [⟨newYear, [7]⟩] _ _
    [(responseHeader newYear).dropLast.dropLast, [13, 10, 7]] (feed_singleton hsend)
    (by decide +kernel)
  have hfirst : clientRecv { kind := .httpSimple, compatible := false }
      (responseHeader newYear).dropLast.dropLast =
        .ok ([], { kind := .httpSimple, compatible := false }) :=
    clientRecv_none rfl (by decide +kernel)
  have hsecond : clientRecv { kind := .httpSimple, compatible := false } [13, 10, 7] =
      .ok ([], { kind := .httpSimple, compatible := false }) :=
    clientRecv_none rfl (by decide)
  rw [feed_cons hfirst (feed_singleton hsecond)] at hclient
  cases hclient

end HttpSimple

end ShadowsocksR

import ShadowsocksR.AsyncDns.Names
import ShadowsocksR.Header
import ShadowsocksR.Inet.Texts

/-!
# DNS messages

`parse_response` reads a message: a header with four numbers, and so many
questions, answers, records of authorities and additional records, one after the
other. Where a record starts is known from the lengths of those before it.

* `parseRecord`, `parseBody`, `parseResponse`: reading a message;
* `QuestionAt`, `RecordAt`, `Message`: what a message is;
* `parse_message`: a message is read exactly.
-/

namespace ShadowsocksR

namespace AsyncDns

def QTYPE_CNAME : ℕ := 5

def QTYPE_NS : ℕ := 2

/-- The value of a record: `None`, the text of an address, or bytes. -/
inductive Value
  | none
  | text (s : Text)
  | bytes (b : Bytes)
  deriving DecidableEq

/-- What `parse_record` returns with the length of a record. -/
structure Record where
  name : Bytes
  value : Value
  recordType : ℕ
  recordClass : ℕ
  recordTtl : Option ℤ
  deriving DecidableEq

/-- An entry of `questions` and `answers`. -/
def Record.triple (r : Record) : Value × ℕ × ℕ := (r.value, r.recordType, r.recordClass)

/-- `DNSResponse`, with the values of all records. -/
structure ParsedResponse where
  hostname : Option Bytes := none
  questions : List (Value × ℕ × ℕ) := []
  answers : List (Value × ℕ × ℕ) := []
  deriving DecidableEq

/-- What `parse_header` returns. -/
structure MessageHeader where
  resId : ℕ
  resQr : UInt8
  resTc : UInt8
  resRa : UInt8
  resRcode : UInt8
  resQdcount : ℕ
  resAncount : ℕ
  resNscount : ℕ
  resArcount : ℕ

/-! ## Reading -/

section

variable (inetNtop : Family → Bytes → Text) (depth : ℕ)

/-- `socket.inet_ntop`, which takes 4 or 16 bytes. -/
def packedText (family : Family) (packed : Bytes) : Except PyExc Value :=
  if 8 * packed.length = family.addrLength then .ok (.text (inetNtop family packed))
  else .error .valueError

/-- `parse_ip`, with so many frames left for `parse_name`. -/
def parseIp (addrtype : ℕ) (data : Bytes) (length offset : ℕ) : Except PyExc Value :=
  if addrtype = QTYPE_A then packedText inetNtop .inet (data.extract offset (offset + length))
  else if addrtype = QTYPE_AAAA then
    packedText inetNtop .inet6 (data.extract offset (offset + length))
  else if addrtype = QTYPE_CNAME ∨ addrtype = QTYPE_NS then do
    let r ← parseName depth data offset
    .ok (.bytes r.2)
  else .ok (.bytes (data.extract offset (offset + length)))

/-- `struct.unpack('!HH', data)` -/
def unpackHH (data : Bytes) : Except PyExc (ℕ × ℕ) :=
  if data.length = 4 then .ok (unpackBE (data.extract 0 2), unpackBE (data.extract 2 4))
  else .error .structError

/-- A number of 32 bits with its sign. -/
def signed (n : ℕ) : ℤ := if n < 2 ^ 31 then n else n - 2 ^ 32

/-- `struct.unpack('!HHiH', data)` -/
def unpackHHiH (data : Bytes) : Except PyExc (ℕ × ℕ × ℤ × ℕ) :=
  if data.length = 10 then
    .ok (unpackBE (data.extract 0 2), unpackBE (data.extract 2 4),
      signed (unpackBE (data.extract 4 8)), unpackBE (data.extract 8 10))
  else .error .structError

/-- `parse_record` -/
def parseRecord (data : Bytes) (question : Bool) (offset : ℕ) : Except PyExc (ℕ × Record) := do
  let (nlen, name) ← parseName depth data offset
  -- The data of the record start behind its ten bytes of fields.
  if !question then
    let (rtype, rclass, ttl, rdlength) ←
      unpackHHiH (data.extract (offset + nlen) (offset + nlen + 10))
    let ip ← parseIp inetNtop depth rtype data rdlength (offset + nlen + 10)
    .ok (nlen + 10 + rdlength, ⟨name, ip, rtype, rclass, some ttl⟩)
  else
    let (rtype, rclass) ← unpackHH (data.extract (offset + nlen) (offset + nlen + 4))
    .ok (nlen + 4, ⟨name, .none, rtype, rclass, none⟩)

/-- A loop of `parse_response`: so many records, and the offset after them. -/
def parseRecords (data : Bytes) (question : Bool) : ℕ → ℕ → Except PyExc (ℕ × List Record)
  | 0, offset => .ok (offset, [])
  | n + 1, offset => do
    let (l, r) ← parseRecord inetNtop depth data question offset
    let (offset, rs) ← parseRecords data question n (offset + l)
    .ok (offset, r :: rs)

/-- `parse_header` -/
def parseMessageHeader (data : Bytes) : Option MessageHeader :=
  if data.length ≥ 12 then
    some
      { resId := unpackBE (data.extract 0 2)
        resQr := data.getD 2 0 &&& 128
        resTc := data.getD 2 0 &&& 2
        resRa := data.getD 3 0 &&& 128
        resRcode := data.getD 3 0 &&& 15
        resQdcount := unpackBE (data.extract 4 6)
        resAncount := unpackBE (data.extract 6 8)
        resNscount := unpackBE (data.extract 8 10)
        resArcount := unpackBE (data.extract 10 12) }
  else none

/-- The `try` of `parse_response`. -/
def parseBody (data : Bytes) : Except PyExc (Option ParsedResponse) :=
  match parseMessageHeader data with
  | none => .ok none
  | some header => do
    let (offset, qds) ← parseRecords inetNtop depth data true header.resQdcount 12
    let (offset, ans) ← parseRecords inetNtop depth data false header.resAncount offset
    let (offset, _) ← parseRecords inetNtop depth data false header.resNscount offset
    let _ ← parseRecords inetNtop depth data false header.resArcount offset
    .ok (some
      { hostname := qds.head?.map Record.name
        questions := qds.map Record.triple
        answers := ans.map Record.triple })

def parseResponse (data : Bytes) : Option ParsedResponse :=
  match parseBody inetNtop depth data with
  | .ok response => response
  | .error _ => none

end

/-! ## Messages -/

section

variable (inetNtop : Family → Bytes → Text) (data : Bytes)

/-- At an offset stands a question, of so many bytes. -/
inductive QuestionAt (offset : ℕ) : Record → ℕ → Prop
  | mk {labels : List Bytes} {nlen rtype rclass : ℕ} :
    NameAt data offset offset labels nlen → rtype < 2 ^ 16 → rclass < 2 ^ 16 →
    packBE 2 rtype ++ packBE 2 rclass <+: data.drop (offset + nlen) →
    QuestionAt offset ⟨joinDots labels, .none, rtype, rclass, none⟩ (nlen + 4)

/-- At an offset stands the data of a record, of so many bytes: an address, a name, or anything. -/
inductive DataAt (offset : ℕ) : ℕ → Value → ℕ → Prop
  | a {packed : Bytes} : packed.length = 4 → packed <+: data.drop offset →
    DataAt offset QTYPE_A (.text (inetNtop .inet packed)) 4
  | aaaa {packed : Bytes} : packed.length = 16 → packed <+: data.drop offset →
    DataAt offset QTYPE_AAAA (.text (inetNtop .inet6 packed)) 16
  | name {rtype : ℕ} {labels : List Bytes} {length : ℕ} : rtype = QTYPE_CNAME ∨ rtype = QTYPE_NS →
    NameAt data offset offset labels length →
    DataAt offset rtype (.bytes (joinDots labels)) length
  | other {rtype : ℕ} {raw : Bytes} :
    rtype ≠ QTYPE_A → rtype ≠ QTYPE_AAAA → ¬(rtype = QTYPE_CNAME ∨ rtype = QTYPE_NS) →
    raw <+: data.drop offset → DataAt offset rtype (.bytes raw) raw.length

/-- At an offset stands a record, of so many bytes. -/
inductive RecordAt (offset : ℕ) : Record → ℕ → Prop
  | mk {labels : List Bytes} {nlen rtype rclass t rdlength : ℕ} {value : Value} :
    NameAt data offset offset labels nlen →
    rtype < 2 ^ 16 → rclass < 2 ^ 16 → t < 2 ^ 32 → rdlength < 2 ^ 16 →
    packBE 2 rtype ++ packBE 2 rclass ++ packBE 4 t ++ packBE 2 rdlength <+:
      data.drop (offset + nlen) →
    DataAt inetNtop data (offset + nlen + 10) rtype value rdlength →
    RecordAt offset ⟨joinDots labels, value, rtype, rclass, some (signed t)⟩ (nlen + 10 + rdlength)

end

/-- Records one after the other, each at its offset, and the offset after them. -/
inductive Sequence (At : ℕ → Record → ℕ → Prop) : ℕ → List Record → ℕ → Prop
  | nil {offset : ℕ} : Sequence At offset [] offset
  | cons {offset n offset' : ℕ} {r : Record} {rs : List Record} :
    At offset r n → Sequence At (offset + n) rs offset' → Sequence At offset (r :: rs) offset'

/-- A message with these questions, answers, records of authorities and additional records. -/
structure Message (inetNtop : Family → Bytes → Text) (data : Bytes)
    (questions answers authorities additional : List Record) : Prop where
  header : packBE 2 questions.length ++ packBE 2 answers.length ++ packBE 2 authorities.length ++
    packBE 2 additional.length <+: data.drop 4
  lengths : ∀ rs ∈ [questions, answers, authorities, additional], rs.length < 2 ^ 16
  sections : ∃ o₁ o₂ o₃ o₄, Sequence (QuestionAt data) 12 questions o₁ ∧
    Sequence (RecordAt inetNtop data) o₁ answers o₂ ∧
    Sequence (RecordAt inetNtop data) o₂ authorities o₃ ∧
    Sequence (RecordAt inetNtop data) o₃ additional o₄

/-! ## Reading messages -/

section

variable {data : Bytes} {offset : ℕ}

theorem extract_start {bs : Bytes} (h : bs <+: data.drop offset) {n : ℕ} (hn : bs.length = n) :
    data.extract offset (offset + n) = bs := by
  rw [List.extract_eq_take_drop, Nat.add_sub_cancel_left, ← hn]
  exact (List.prefix_iff_eq_take.1 h).symm

theorem NameAt.offset_lt {start length : ℕ} {labels : List Bytes}
    (h : NameAt data start offset labels length) : offset < data.length := by
  have hlt : ∀ {bs : Bytes}, bs <+: data.drop offset → 0 < bs.length → offset < data.length := by
    intro bs hbs hpos
    have hle := hbs.length_le
    rw [List.length_drop] at hle
    omega
  cases h with
  | root h => exact hlt h Nat.one_pos
  | label _ _ h => exact hlt h (Nat.succ_pos _)
  | pointer _ _ h => exact hlt h (by rw [length_packBE]; exact Nat.two_pos)

theorem unpackHH_pack {m n : ℕ} (hm : m < 2 ^ 16) (hn : n < 2 ^ 16) :
    unpackHH (packBE 2 m ++ packBE 2 n) = .ok (m, n) := by
  have hfirst : (packBE 2 m ++ packBE 2 n).extract 0 2 = packBE 2 m := by
    rw [List.extract_eq_take_drop]
    exact List.take_left' (length_packBE 2 m)
  have hsecond : (packBE 2 m ++ packBE 2 n).extract 2 4 = packBE 2 n := by
    rw [List.extract_eq_take_drop, List.drop_left' (length_packBE 2 m)]
    exact List.take_of_length_le (by simp)
  rw [unpackHH, if_pos (by simp), hfirst, hsecond, unpackBE_packBE hm, unpackBE_packBE hn]

theorem unpackHHiH_pack {k l m n : ℕ} (hk : k < 2 ^ 16) (hl : l < 2 ^ 16) (hm : m < 2 ^ 32)
    (hn : n < 2 ^ 16) : unpackHHiH (packBE 2 k ++ packBE 2 l ++ packBE 4 m ++ packBE 2 n) =
      .ok (k, l, signed m, n) := by
  have h₁ : (packBE 2 k ++ packBE 2 l ++ packBE 4 m ++ packBE 2 n).extract 0 2 = packBE 2 k := by
    rw [List.append_assoc, List.append_assoc]
    exact extract_append_append (a := []) rfl (by simp)
  have h₂ : (packBE 2 k ++ packBE 2 l ++ packBE 4 m ++ packBE 2 n).extract 2 4 = packBE 2 l := by
    rw [List.append_assoc]
    exact extract_append_append (by simp) (by simp)
  have h₃ : (packBE 2 k ++ packBE 2 l ++ packBE 4 m ++ packBE 2 n).extract 4 8 = packBE 4 m :=
    extract_append_append (by simp) (by simp)
  have h₄ : (packBE 2 k ++ packBE 2 l ++ packBE 4 m ++ packBE 2 n).extract 8 10 = packBE 2 n := by
    rw [← List.append_nil (packBE 2 k ++ packBE 2 l ++ packBE 4 m ++ packBE 2 n)]
    exact extract_append_append (by simp) (by simp)
  rw [unpackHHiH, if_pos (by simp), h₁, h₂, h₃, h₄, unpackBE_packBE hk, unpackBE_packBE hl,
    unpackBE_packBE hm, unpackBE_packBE hn]

variable {inetNtop : Family → Bytes → Text} {depth : ℕ} {r : Record} {rs : List Record} {n : ℕ}

/-- A question is read right. -/
theorem parseRecord_of_questionAt (h : QuestionAt data offset r n) (hdepth : data.length ≤ depth) :
    parseRecord inetNtop depth data true offset = .ok (n, r) := by
  obtain ⟨hname, htype, hclass, hrest⟩ := h
  rw [parseRecord, parseName_of_nameAt hname (lt_of_lt_of_le hname.offset_lt hdepth)]
  simp only [bind, Except.bind, Bool.not_true, Bool.false_eq_true, if_false]
  rw [extract_start hrest (by simp), unpackHH_pack htype hclass]

theorem parseIp_of_dataAt {rtype : ℕ} {value : Value}
    (h : DataAt inetNtop data offset rtype value n) (hdepth : data.length ≤ depth) :
    parseIp inetNtop depth rtype data n offset = .ok value := by
  cases h with
  | a hlength h =>
    rw [parseIp, if_pos rfl, extract_start h hlength, packedText, if_pos (by rw [hlength]; rfl)]
  | aaaa hlength h =>
    rw [parseIp, if_neg (by decide), if_pos rfl, extract_start h hlength, packedText,
      if_pos (by rw [hlength]; rfl)]
  | name htype hname =>
    have ha : rtype ≠ QTYPE_A := by rcases htype with rfl | rfl <;> decide
    have haaaa : rtype ≠ QTYPE_AAAA := by rcases htype with rfl | rfl <;> decide
    rw [parseIp, if_neg ha, if_neg haaaa, if_pos htype,
      parseName_of_nameAt hname (lt_of_lt_of_le hname.offset_lt hdepth)]
    rfl
  | other ha haaaa hname h =>
    rw [parseIp, if_neg ha, if_neg haaaa, if_neg hname, extract_start h rfl]

/-- A record is read right, whatever its data is. -/
theorem parseRecord_of_recordAt (h : RecordAt inetNtop data offset r n)
    (hdepth : data.length ≤ depth) : parseRecord inetNtop depth data false offset = .ok (n, r) := by
  obtain ⟨hname, htype, hclass, httl, hlength, hrest, hdata⟩ := h
  rw [parseRecord, parseName_of_nameAt hname (lt_of_lt_of_le hname.offset_lt hdepth)]
  simp only [bind, Except.bind, Bool.not_false, if_true]
  rw [extract_start hrest (by simp), unpackHHiH_pack htype hclass httl hlength]
  simp only [parseIp_of_dataAt hdata hdepth]

/-- Records that are read right one by one are read right one after the other. -/
theorem parseRecords_of_sequence {At : ℕ → Record → ℕ → Prop} {question : Bool} {offset' : ℕ}
    (hAt : ∀ {offset r n}, At offset r n →
      parseRecord inetNtop depth data question offset = .ok (n, r))
    (h : Sequence At offset rs offset') :
    parseRecords inetNtop depth data question rs.length offset = .ok (offset', rs) := by
  induction h with
  | nil => rfl
  | cons hr _ ih =>
    rw [List.length_cons, parseRecords, hAt hr]
    simp only [bind, Except.bind, ih]

variable {questions answers authorities additional : List Record}

/-- The numbers in the header of a message. -/
theorem Message.parseMessageHeader
    (h : Message inetNtop data questions answers authorities additional) :
    ∃ header, AsyncDns.parseMessageHeader data = some header ∧
      header.resQdcount = questions.length ∧ header.resAncount = answers.length ∧
      header.resNscount = authorities.length ∧ header.resArcount = additional.length := by
  obtain ⟨rest, hrest⟩ := h.header
  have hlength : 12 ≤ data.length := by
    have hle := h.header.length_le
    simp only [List.length_append, length_packBE, List.length_drop] at hle
    omega
  -- The four numbers are behind the identifier and the flags.
  have hextract : ∀ i j, data.extract (4 + i) (4 + j) = (data.drop 4).extract i j := by
    intro i j
    rw [List.extract_eq_take_drop, List.extract_eq_take_drop, List.drop_drop, Nat.add_sub_add_left]
  have hcount : ∀ rs ∈ [questions, answers, authorities, additional], rs.length < 256 ^ 2 :=
    h.lengths
  simp only [List.mem_cons, List.not_mem_nil, or_false, forall_eq_or_imp, forall_eq] at hcount
  obtain ⟨hq, ha, hn, har⟩ := hcount
  rw [AsyncDns.parseMessageHeader, if_pos hlength]
  refine ⟨_, rfl, ?_, ?_, ?_, ?_⟩
  · refine (congrArg unpackBE ((hextract 0 2).trans ?_)).trans (unpackBE_packBE hq)
    rw [← hrest, List.append_assoc, List.append_assoc, List.append_assoc]
    exact extract_append_append (a := []) rfl (by simp)
  · refine (congrArg unpackBE ((hextract 2 4).trans ?_)).trans (unpackBE_packBE ha)
    rw [← hrest, List.append_assoc, List.append_assoc]
    exact extract_append_append (by simp) (by simp)
  · refine (congrArg unpackBE ((hextract 4 6).trans ?_)).trans (unpackBE_packBE hn)
    rw [← hrest, List.append_assoc]
    exact extract_append_append (by simp) (by simp)
  · refine (congrArg unpackBE ((hextract 6 8).trans ?_)).trans (unpackBE_packBE har)
    rw [← hrest]
    exact extract_append_append (by simp) (by simp)

/-- Every message is read exactly. -/
theorem Message.parseResponse (h : Message inetNtop data questions answers authorities additional)
    (hdepth : data.length ≤ depth) : AsyncDns.parseResponse inetNtop depth data = some
      { hostname := questions.head?.map Record.name
        questions := questions.map Record.triple
        answers := answers.map Record.triple } := by
  obtain ⟨header, hheader, hq, ha, hn, har⟩ := h.parseMessageHeader
  -- Each loop ends at the offset at which the next section starts.
  obtain ⟨o₁, o₂, o₃, o₄, hquestions, hanswers, hauthorities, hadditional⟩ := h.sections
  have hquestion : ∀ {offset r n}, QuestionAt data offset r n →
      parseRecord inetNtop depth data true offset = .ok (n, r) :=
    fun hr => parseRecord_of_questionAt hr hdepth
  have hrecord : ∀ {offset r n}, RecordAt inetNtop data offset r n →
      parseRecord inetNtop depth data false offset = .ok (n, r) :=
    fun hr => parseRecord_of_recordAt hr hdepth
  rw [AsyncDns.parseResponse, parseBody, hheader]
  simp only [hq, ha, hn, har, bind, Except.bind, parseRecords_of_sequence hquestion hquestions,
    parseRecords_of_sequence hrecord hanswers, parseRecords_of_sequence hrecord hauthorities,
    parseRecords_of_sequence hrecord hadditional]

end

/-- The parsers are exact: a message with a question is read as it is, and a hostname is read from
    what is built for it. -/
theorem parse_exact (inetNtop : Family → Bytes → Text) :
    (∀ data questions answers authorities additional,
      Message inetNtop data questions answers authorities additional →
      ∀ q, questions.head? = some q → ∀ depth, data.length ≤ depth →
        parseResponse inetNtop depth data = some
          { hostname := some q.name
            questions := questions.map Record.triple
            answers := answers.map Record.triple }) ∧
    ∀ h, HasLabels h → ∃ address, buildAddress h = some address ∧
      ∀ depth, parseName (depth + 1) address 0 = .ok (address.length, h) := by
  refine ⟨fun data questions answers authorities additional hmessage q hq depth hdepth => ?_,
    fun h hlabels => ?_⟩
  · rw [hmessage.parseResponse hdepth, hq]
    rfl
  · refine ⟨_, hlabels.buildAddress, fun depth => ?_⟩
    obtain ⟨address, haddress, hparse⟩ := parseName_buildAddress hlabels [] [] depth
    cases hlabels.buildAddress.symm.trans haddress
    rw [List.nil_append, List.append_nil] at hparse
    exact hparse

/-- A response: the name `a` has the other name `b.a`, which has an address. -/
def twoAnswers : Bytes :=
  [0, 1, 129, 128, 0, 1, 0, 2, 0, 0, 0, 0] ++
    [1, 97, 0, 0, 1, 0, 1] ++
    [192, 12, 0, 5, 0, 1, 0, 0, 0, 60, 0, 4, 1, 98, 192, 12] ++
    [192, 31, 0, 1, 0, 1, 0, 0, 0, 60, 0, 4, 127, 0, 0, 1]

theorem nameAt_a : NameAt twoAnswers 12 12 [[97]] 3 :=
  .label (by decide) (by decide) (by decide) (.root (by decide))

theorem nameAt_ba : NameAt twoAnswers 31 31 [[98], [97]] 4 :=
  .label (by decide) (by decide) (by decide)
    (.pointer (by decide) (by decide) (by decide) nameAt_a (by decide))

theorem message_twoAnswers (inetNtop : Family → Bytes → Text) :
    Message inetNtop twoAnswers [⟨[97], .none, 1, 1, none⟩]
      [⟨[97], .bytes [98, 46, 97], 5, 1, some 60⟩,
        ⟨[98, 46, 97], .text (inetNtop .inet [127, 0, 0, 1]), 1, 1, some 60⟩] [] [] where
  header :=
    (by decide : packBE 2 1 ++ packBE 2 2 ++ packBE 2 0 ++ packBE 2 0 <+: twoAnswers.drop 4)
  lengths := by simp
  sections := ⟨_, _, _, _,
    .cons (.mk nameAt_a (by decide) (by decide) (by decide)) .nil,
    .cons (.mk (t := 60) (.pointer (by decide) (by decide) (by decide) nameAt_a (by decide))
        (by decide) (by decide) (by decide) (by decide) (by decide) (.name (.inl rfl) nameAt_ba))
      (.cons (.mk (t := 60) (.pointer (by decide) (by decide) (by decide) nameAt_ba (by decide))
        (by decide) (by decide) (by decide) (by decide) (by decide) (.a rfl (by decide))) .nil),
    .nil, .nil⟩

theorem parse_exact_twoAnswers : parseResponse (fun _ _ => []) 100 twoAnswers = some
    { hostname := some [97]
      questions := [(.none, 1, 1)]
      answers := [(.bytes [98, 46, 97], 5, 1), (.text [], 1, 1)] } :=
  (parse_exact fun _ _ => []).1 _ _ _ _ _ (message_twoAnswers _) _ rfl 100 (by decide)

/-! ## Coming to an end -/

section

variable {inetNtop : Family → Bytes → Text} {depth : ℕ} {data : Bytes}

end

end AsyncDns

end ShadowsocksR

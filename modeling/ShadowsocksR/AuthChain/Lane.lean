import ShadowsocksR.AuthChain.Object

/-!
# The frames of one direction

After the handshake the two ends of a connection share some parameters
(`Session`), and each direction of it has a state that both ends know (`Lane`):
how many frames have gone, the hash of the last one, and the bytes they carried.
A frame is determined by that state, up to the random bytes in it (`Framed`).

* `packData_spec`: a sender makes a frame of its lane;
* `takeFrame_complete`, `takeFrame_incomplete`: a receiver in the same state
  takes it off its buffer, or sees that it is incomplete;
* `Chain`: the frames that lead from one state of a lane to another.
-/

namespace ShadowsocksR

namespace AuthChain

open AuthBase Encryptor

/-- What the ends of a connection share. -/
structure Session where
  method : Method
  key : Bytes
  overhead : ℕ
  userKey : Bytes
  streamKey : Bytes

def Session.lists (P : Session) : DataSizeLists := initDataSize P.method P.key

/-- The state of one direction. -/
structure Lane where
  count : ℕ := 0
  hash : Bytes
  length_hash : hash.length = 16
  carried : Bytes := []

/-- The counters `pack_id` and `recv_id`. -/
def Lane.id (l : Lane) : ℕ := (l.count + 1) % 2 ^ 32

/-- The state after a frame. -/
def Lane.next (l : Lane) (payload hash : Bytes) (h : hash.length = 16) : Lane where
  count := l.count + 1
  hash := hash
  length_hash := h
  carried := l.carried ++ payload

theorem Lane.id_next (l : Lane) (payload hash : Bytes) (h : hash.length = 16) :
    (l.next payload hash h).id = (l.id + 1) % 2 ^ 32 := by
  simp [id, next]

variable (C : Crypto) (P : Session)

/-- The signed part of a frame, with the padding `pre` before and `post` after what it carries. -/
def frameBody (l : Lane) (pre payload post : Bytes) : Bytes :=
  packLE 2 (payload.length ^^^ unpackLE (l.hash.drop 14)) ++
    (pre ++ stream C P.streamKey l.carried payload ++ post)

/-- The hash of a frame. -/
def frameHash (l : Lane) (pre payload post : Bytes) : Bytes :=
  C.hmac .md5 (P.userKey ++ packLE 4 l.id) (frameBody C P l pre payload post)

theorem length_frameHash (l : Lane) (pre payload post : Bytes) :
    (frameHash C P l pre payload post).length = 16 := C.length_hmac _ _ _

theorem length_frameBody (l : Lane) (pre payload post : Bytes) :
    (frameBody C P l pre payload post).length =
      payload.length + (pre.length + post.length) + 2 := by
  simp only [frameBody, List.length_append, length_packLE, length_stream]
  omega

/-- A payload and a padding of a lane: the receiver computes the same lengths, whatever the state
    of its generator. -/
structure Padding (l : Lane) (pre payload post : Bytes) : Prop where
  length_le : payload.length ≤ 2800
  length_lt : payload.length + (pre.length + post.length) < 4096
  agrees : ∀ random, ∃ random', rndDataLen P.method P.lists P.overhead payload.length l.hash
    random = .ok (((pre.length + post.length : ℕ) : ℤ), random') ∧
    (0 < payload.length → 0 < pre.length + post.length →
      (rndStartPos (pre.length + post.length) random').1 = pre.length)

/-- A frame of a lane that carries a payload, and its hash. -/
inductive Framed (l : Lane) (payload : Bytes) : Bytes → Bytes → Prop
  | intro {pre post : Bytes} : Padding P l pre payload post →
      Framed l payload
        (frameBody C P l pre payload post ++ (frameHash C P l pre payload post).take 2)
        (frameHash C P l pre payload post)

variable {C P} {l : Lane} {payload bytes hash : Bytes}

theorem Framed.length_hash (h : Framed C P l payload bytes hash) : hash.length = 16 := by
  cases h
  exact length_frameHash _ _ _ _ _ _

theorem Framed.length_bytes (h : Framed C P l payload bytes hash) :
    payload.length + 4 ≤ bytes.length := by
  cases h
  rw [List.length_append, List.length_take, length_frameHash, length_frameBody]
  omega

theorem Framed.length_payload (h : Framed C P l payload bytes hash) : payload.length ≤ 2800 := by
  cases h with
  | intro hpad => exact hpad.length_le

/-! ## The sender -/

/-- An object that sends on a lane, when `lastHash` is its hash for that direction, and receives
    after the bytes `received`. -/
structure Sends (C : Crypto) (P : Session) (received : Bytes) (l : Lane) (lastHash : Bytes)
    (s : AuthChain) : Prop where
  method_eq : s.method = P.method
  lists_eq : s.lists = P.lists
  overhead_eq : s.serverInfo.overhead = P.overhead
  userKey_eq : s.userKey = some P.userKey
  packId_eq : s.packId = l.id
  hash_eq : lastHash = l.hash
  stream : ∃ e, s.encryptor = some e ∧ Stream C P.streamKey l.carried received e

variable {s : AuthChain} {received lastHash : Bytes}

/-- The padding that a sender makes. -/
theorem rndData_spec (hm : P.method ≠ .f) (hs : Sends C P received l lastHash s) {buf : Bytes}
    (hlen : buf.length = payload.length) (hle : payload.length ≤ 2800)
    (random : Xorshift128plus) :
    ∃ pre post random' rng, s.rndData buf lastHash random =
      .ok (pre ++ buf ++ post, random', rng) ∧ Padding P l pre payload post := by
  obtain ⟨n, hlt, hdet⟩ := rndDataLen_spec hm P.key P.overhead l.hash hle
  have hagree : ∀ random, ∃ random', rndDataLen P.method P.lists P.overhead payload.length l.hash
      random = .ok ((n : ℤ), random') := fun random => by
    rcases hdet with ⟨rfl, h⟩ | ⟨r, h⟩
    · exact h random
    · exact ⟨r, h random⟩
  obtain ⟨r, hr⟩ := hagree random
  have hsame : ∀ random random', rndDataLen P.method P.lists P.overhead payload.length l.hash
      random = .ok ((n : ℤ), random') → 0 < n → random' = r := fun random₁ r₁ h₁ hn => by
    rcases hdet with ⟨rfl, h⟩ | ⟨r', h⟩
    · omega
    · have e₁ := (h random₁).symm.trans h₁
      have e₂ := (h random).symm.trans hr
      cases e₁
      cases e₂
      rfl
  have hrnd : s.rndData buf lastHash random = (do
      let d ← randBytesInt n s.rng
      if buf.length = 0 then .ok (d.1, r, d.2)
      else if (n : ℤ) > 0 then
        let start := rndStartPos (n : ℤ).toNat r
        .ok (d.1.take start.1 ++ buf ++ d.1.drop start.1, start.2, d.2)
      else .ok (buf, r, d.2)) := by
    rw [rndData, hs.method_eq, hs.lists_eq, hs.overhead_eq, hs.hash_eq, hlen, hr]
    rfl
  rw [randBytesInt_natCast] at hrnd
  have hb : (randBytes n s.rng).1.length = n := length_randBytes _ _
  simp only [bind, Except.bind] at hrnd
  by_cases hz : buf.length = 0
  · rw [if_pos hz] at hrnd
    obtain rfl := List.length_eq_zero_iff.1 hz
    refine ⟨[], _, _, _, by rw [hrnd]; rfl, hle, by simpa [hb] using hlt, fun random => ?_⟩
    obtain ⟨r', hr'⟩ := hagree random
    exact ⟨r', by simpa [hb] using hr', fun hpos => by omega⟩
  · rw [if_neg hz] at hrnd
    by_cases hn : 0 < n
    · rw [if_pos (by omega), Int.toNat_natCast] at hrnd
      have hstart : (rndStartPos n r).1 ≤ n := by
        rw [rndStartPos, if_pos hn]
        exact (Nat.mod_lt _ hn).le
      have hsum : ((randBytes n s.rng).1.take (rndStartPos n r).1).length +
          ((randBytes n s.rng).1.drop (rndStartPos n r).1).length = n := by
        rw [List.length_take, List.length_drop, hb]
        omega
      refine ⟨_, _, _, _, hrnd, hle, by rw [hsum]; exact hlt, fun random => ?_⟩
      obtain ⟨r', hr'⟩ := hagree random
      refine ⟨r', by rw [hsum]; exact hr', fun _ _ => ?_⟩
      rw [hsum, hsame _ _ hr' hn, List.length_take, hb, min_eq_left hstart]
    · rw [if_neg (by omega)] at hrnd
      obtain rfl : n = 0 := by omega
      refine ⟨[], [], r, (randBytes 0 s.rng).2, by rw [hrnd]; simp, hle, by simpa using hlt,
        fun random => ?_⟩
      obtain ⟨r', hr'⟩ := hagree random
      exact ⟨r', by simpa using hr', fun _ h => by simp at h⟩

/-- A sender makes a frame of its lane. -/
theorem packData_spec (hm : P.method ≠ .f) (hs : Sends C P received l lastHash s)
    (hle : payload.length ≤ 2800) (random : Xorshift128plus) :
    ∃ p, s.packData C payload lastHash random = .ok p ∧
      Framed C P l payload p.data p.lastHash ∧
      Stream C P.streamKey (l.carried ++ payload) received p.encryptor := by
  obtain ⟨e, he, hst⟩ := hs.stream
  obtain ⟨e', henc, hst'⟩ := hst.encrypt payload
  obtain ⟨pre, post, random', rng, hrnd, hpad⟩ :=
    rndData_spec hm hs (length_stream (C := C) P.streamKey l.carried payload) hle random
  have hpack : pack 2 ((Encryptor.stream C P.streamKey l.carried payload).length ^^^
      unpackLE (lastHash.drop 14)) =
      .ok (packLE 2 (payload.length ^^^ unpackLE (l.hash.drop 14))) := by
    rw [length_stream, hs.hash_eq]
    refine pack_of_lt (xor_lt (by omega) ((unpackLE_lt _).trans_le ?_))
    rw [List.length_drop, l.length_hash]
  refine ⟨{ data := _, lastHash := _, random := random', encryptor := e', rng }, ?_,
    .intro hpad, hst'⟩
  simp only [packData, he, hs.userKey_eq, henc, hrnd, hpack, bind, Except.bind, hs.packId_eq]
  rfl

/-! ## The receiver -/

/-- The lengths in a frame. -/
theorem dataLen_frame {pre post tail : Bytes} (hpad : Padding P l pre payload post) :
    unpackLE ((frameBody C P l pre payload post ++ tail).take 2) ^^^
      unpackLE (l.hash.extract 14 16) = payload.length := by
  have hle := hpad.length_le
  have hmask : unpackLE (l.hash.drop 14) < 256 ^ 2 := (unpackLE_lt _).trans_le (by
    rw [List.length_drop, l.length_hash])
  have hextract : l.hash.extract 14 16 = l.hash.drop 14 := by
    rw [List.extract_eq_take_drop]
    exact List.take_of_length_le (by rw [List.length_drop, l.length_hash])
  rw [frameBody, List.append_assoc, List.take_left' (length_packLE _ _), hextract,
    unpackLE_packLE (xor_lt (by omega) hmask), xor_xor_cancel]

theorem takeFrame_eq {userKey : Bytes} {random random' : Xorshift128plus} {dataLen randLen : ℕ}
    (hlen : unpackLE (s.recvBuf.take 2) ^^^ unpackLE (lastHash.extract 14 16) = dataLen)
    (hrnd : rndDataLen s.method s.lists s.serverInfo.overhead dataLen lastHash random =
      .ok ((randLen : ℤ), random')) :
    s.takeFrame C userKey lastHash random = .ok (s.takeData C userKey dataLen randLen random') := by
  simp only [takeFrame, hlen, hrnd, bind, Except.bind, Int.toNat_natCast]

/-- A receiver in the state of the lane takes a frame off its buffer. -/
theorem takeFrame_complete (rest : Bytes) (h : Framed C P l payload bytes hash)
    (hbuf : s.recvBuf = bytes ++ rest) (hm : s.method = P.method) (hl : s.lists = P.lists)
    (ho : s.serverInfo.overhead = P.overhead) (hid : s.recvId = l.id) (random : Xorshift128plus) :
    ∃ random', s.takeFrame C P.userKey l.hash random =
      .ok (.frame (Encryptor.stream C P.streamKey l.carried payload) hash rest payload.length
        random') := by
  cases h with
  | @intro pre post hpad =>
    obtain ⟨r, hr, hstart⟩ := hpad.agrees random
    have hlt := hpad.length_lt
    have hbody := length_frameBody C P l pre payload post
    have hhash := length_frameHash C P l pre payload post
    have hdata : unpackLE (s.recvBuf.take 2) ^^^ unpackLE (l.hash.extract 14 16) =
        payload.length := by
      rw [hbuf, List.append_assoc]
      exact dataLen_frame hpad
    rw [takeFrame_eq hdata (by rw [hm, hl, ho]; exact hr)]
    have htake : s.recvBuf.take (payload.length + (pre.length + post.length) + 2) =
        frameBody C P l pre payload post := by
      rw [hbuf, List.append_assoc]
      exact List.take_left' hbody
    have hmac : s.recvBuf.extract (payload.length + (pre.length + post.length) + 2)
        (payload.length + (pre.length + post.length) + 4) =
        (frameHash C P l pre payload post).take 2 := by
      rw [hbuf]
      exact extract_append_append hbody (by rw [List.length_take, hhash]; omega)
    have hdrop : s.recvBuf.drop (payload.length + (pre.length + post.length) + 4) = rest := by
      rw [hbuf]
      exact List.drop_left' (by rw [List.length_append, List.length_take, hhash, hbody]; omega)
    have hslice : s.recvBuf.extract (2 + pre.length) (payload.length + (2 + pre.length)) =
        Encryptor.stream C P.streamKey l.carried payload := by
      have hparts : s.recvBuf =
          packLE 2 (payload.length ^^^ unpackLE (l.hash.drop 14)) ++ pre ++
            Encryptor.stream C P.streamKey l.carried payload ++
            (post ++ ((frameHash C P l pre payload post).take 2 ++ rest)) := by
        rw [hbuf, frameBody]
        simp only [List.append_assoc]
      rw [hparts]
      exact extract_append_append (by simp) (by rw [length_stream]; omega)
    have hlen : payload.length + (pre.length + post.length) + 4 ≤ s.recvBuf.length := by
      rw [hbuf]
      simp only [List.length_append, List.length_take, hhash, hbody]
      omega
    rw [takeData, if_neg (by omega), if_neg (by omega), htake, hmac, hdrop, hid]
    simp only [frameHash, ne_eq, not_true_eq_false, if_false]
    by_cases hpos : payload.length > 0 ∧ pre.length + post.length > 0
    · refine ⟨(rndStartPos (pre.length + post.length) r).2, ?_⟩
      rw [if_pos hpos, hstart hpos.1 hpos.2, hslice]
    · refine ⟨r, ?_⟩
      have hdata' : s.recvBuf.extract (2 + 0) (payload.length + (2 + 0)) =
          Encryptor.stream C P.streamKey l.carried payload := by
        by_cases hz : payload.length = 0
        · rw [List.extract_eq_take_drop, hz, Nat.zero_add, Nat.sub_self, List.take_zero]
          exact (List.length_eq_zero_iff.1 (by rw [length_stream, hz])).symm
        · have hpre : pre.length = 0 := by omega
          rw [← hslice, hpre]
      rw [if_neg hpos, hdata']

/-- It waits for the rest of an incomplete frame. -/
theorem takeFrame_incomplete (h : Framed C P l payload bytes hash) (hbuf : s.recvBuf <+: bytes)
    (hne : s.recvBuf ≠ bytes) (h2 : 2 ≤ s.recvBuf.length) (hm : s.method = P.method)
    (hl : s.lists = P.lists) (ho : s.serverInfo.overhead = P.overhead)
    (random : Xorshift128plus) :
    ∃ random', s.takeFrame C P.userKey l.hash random = .ok (.incomplete random') := by
  cases h with
  | @intro pre post hpad =>
    obtain ⟨r, hr, -⟩ := hpad.agrees random
    have hlt := hpad.length_lt
    obtain ⟨t, ht⟩ := hbuf
    have hlen : s.recvBuf.length < payload.length + (pre.length + post.length) + 4 := by
      have hpos : 0 < t.length := List.length_pos_iff.2 fun h0 => hne (by rw [← ht, h0]; simp)
      have := congrArg List.length ht
      simp only [List.length_append, List.length_take, length_frameHash, length_frameBody] at this
      omega
    have hdata : unpackLE (s.recvBuf.take 2) ^^^ unpackLE (l.hash.extract 14 16) =
        payload.length := by
      rw [← (List.take_append_of_le_length h2 : (s.recvBuf ++ t).take _ = _), ht]
      exact dataLen_frame hpad
    rw [takeFrame_eq hdata (by rw [hm, hl, ho]; exact hr), takeData, if_neg (by omega),
      if_pos (by omega)]
    exact ⟨r, rfl⟩

/-! ## Chains of frames -/

/-- The frames that lead from one state of a lane to another: `carries n payload output` says what
    comes out of the payload of the frame that `n` others have gone before. -/
inductive Chain (C : Crypto) (P : Session) (carries : ℕ → Bytes → Bytes → Prop) :
    Lane → List Frame → Lane → Prop
  | nil (l : Lane) : Chain C P carries l [] l
  | cons {l l' : Lane} {payload hash : Bytes} {f : Frame} {fs : List Frame}
      (h : Framed C P l payload f.bytes hash) : carries l.count payload f.output →
      Chain C P carries (l.next payload hash h.length_hash) fs l' →
      Chain C P carries l (f :: fs) l'

variable {carries : ℕ → Bytes → Bytes → Prop} {l' l'' : Lane} {fs gs : List Frame}

theorem Chain.append (h : Chain C P carries l fs l') (h' : Chain C P carries l' gs l'') :
    Chain C P carries l (fs ++ gs) l'' := by
  induction h with
  | nil => exact h'
  | cons hf hc _ ih => exact .cons hf hc (ih h')

theorem Chain.count_eq (h : Chain C P carries l fs l') : l'.count = l.count + fs.length := by
  induction h with
  | nil => rfl
  | cons _ _ _ ih =>
    simp only [ih, List.length_cons, Lane.next]
    omega

theorem Chain.bytes_ne_nil (h : Chain C P carries l fs l') : ∀ f ∈ fs, f.bytes ≠ [] := by
  induction h with
  | nil => simp
  | cons hf _ _ ih =>
    intro g hg
    rcases List.mem_cons.1 hg with rfl | hg
    · exact List.ne_nil_of_length_pos (by have := hf.length_bytes; omega)
    · exact ih g hg

end AuthChain

end ShadowsocksR

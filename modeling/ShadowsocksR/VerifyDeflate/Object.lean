import ShadowsocksR.Encrypt
import ShadowsocksR.Lib.Cutting

/-!
# The protocol of verify_deflate

The object `verify_deflate` compresses what it is given. The first two bytes of the output of zlib
are always the same: it sends the length of the frame in their place.

* `Zlib`: what the object relies on;
* `Zlib.stored`: a zlib that compresses nothing;
* `packData`: a frame;
* `clientPostDecrypt`, `serverPostDecrypt`: the loops that take frames off a buffer.
-/

namespace ShadowsocksR

/-! ## zlib -/

/-- `unit_len`: the most bytes in a frame. -/
def VerifyDeflate.unitLen : ℕ := 32700

/-- The module `zlib`, on buffers of at most `unit_len` bytes. -/
structure Zlib where
  compress : Bytes → Bytes
  decompress : Bytes → Except PyExc Bytes
  decompress_compress : ∀ {data : Bytes}, data.length ≤ VerifyDeflate.unitLen →
    decompress (compress data) = .ok data
  /-- The first bytes say that the window is of 32 KiB, and the level is the default one. -/
  take_compress : ∀ {data : Bytes}, data.length ≤ VerifyDeflate.unitLen →
    (compress data).take 2 = [0x78, 0x9c]
  le_length_compress : ∀ {data : Bytes}, data.length ≤ VerifyDeflate.unitLen →
    8 ≤ (compress data).length
  length_compress_le : ∀ {data : Bytes}, data.length ≤ VerifyDeflate.unitLen →
    (compress data).length ≤ data.length + 60

namespace Zlib

/-- The two sums of Adler-32. -/
def adlerSums (data : Bytes) : ℕ × ℕ :=
  data.foldl (fun (a, b) byte => ((a + byte.toNat) % 65521, (b + (a + byte.toNat)) % 65521)) (1, 0)

def adler32 (data : Bytes) : Bytes := packBE 2 (adlerSums data).2 ++ packBE 2 (adlerSums data).1

/-- Data that do not get shorter, in one block that is stored as it is. -/
def deflateStored (data : Bytes) : Bytes :=
  [0x78, 0x9c, 1] ++ packLE 2 data.length ++ packLE 2 (65535 - data.length) ++ data ++
    adler32 data

/-- Reading one block that is stored. -/
def inflateStored (bs : Bytes) : Except PyExc Bytes :=
  let length := unpackLE (bs.extract 3 5)
  let data := bs.extract 7 (7 + length)
  if bs.take 3 = [0x78, 0x9c, 1] ∧ length + unpackLE (bs.extract 5 7) = 65535 ∧
      bs.drop (7 + length) = adler32 data then
    .ok data
  else .error .exception

theorem inflateStored_deflateStored {data : Bytes} (h : data.length ≤ 65535) :
    inflateStored (deflateStored data) = .ok data := by
  have hlow : unpackLE ((deflateStored data).extract 3 5) = data.length := by
    rw [deflateStored, List.append_assoc, List.append_assoc, extract_append_append (by simp) (by simp),
      unpackLE_packLE (by omega)]
  have hhigh : unpackLE ((deflateStored data).extract 5 7) = 65535 - data.length := by
    rw [deflateStored, List.append_assoc, extract_append_append (by simp) (by simp),
      unpackLE_packLE (by omega)]
  have hdata : (deflateStored data).extract 7 (7 + data.length) = data :=
    extract_append_append (by simp) rfl
  have hsum : (deflateStored data).drop (7 + data.length) = adler32 data :=
    List.drop_left' (by simp; omega)
  rw [inflateStored, hlow, hdata, if_pos ⟨rfl, by omega, hsum⟩]

/-- A zlib that stores everything. -/
def stored : Zlib where
  compress := deflateStored
  decompress := inflateStored
  decompress_compress h := inflateStored_deflateStored (h.trans (by decide))
  take_compress _ := rfl
  le_length_compress _ := by simp [deflateStored, adler32]; omega
  length_compress_le _ := by simp [deflateStored, adler32]; omega

end Zlib

/-! ## The object -/

/-- The object `verify_deflate`. -/
structure VerifyDeflate where
  recvBuf : Bytes := []
  decryptPacketNum : ℕ := 0
  rawTrans : Bool := false

namespace VerifyDeflate

variable (Z : Zlib)

/-- `pack_data` -/
def packData (s : VerifyDeflate) (buf : Bytes) : Except PyExc (Bytes × VerifyDeflate) :=
  if buf.length = 0 then .ok ([], s)
  else do
    let data := Z.compress buf
    let length ← packHigh 2 data.length
    return (length ++ data.drop 2, s)

/-- The loop that packs a buffer; every turn of it shortens the buffer. -/
def packAll (s : VerifyDeflate) (buf : Bytes) : Except PyExc (Bytes × VerifyDeflate) :=
  match cut unitLen (packData Z) (buf.length + 1) { obj := s, buf } with
  | .done t | .more t => .ok (t.ret, t.obj)
  | .fail e _ => .error e

/-- `client_pre_encrypt` -/
def clientPreEncrypt (s : VerifyDeflate) (buf : Bytes) : Except PyExc (Bytes × VerifyDeflate) :=
  packAll Z s buf

/-- `server_pre_encrypt` -/
def serverPreEncrypt (s : VerifyDeflate) (buf : Bytes) : Except PyExc (Bytes × VerifyDeflate) :=
  packAll Z s buf

/-- The state of the loops over `recv_buf`. -/
structure Recv where
  obj : VerifyDeflate
  outBuf : Bytes := []

/-- One turn of the loops over `recv_buf`, which `bad` leaves at a bad length. -/
def recvBody {ε : Type} (raise : PyExc → ε) (bad : VerifyDeflate → ε) (t : Recv) : Next Recv ε :=
  let s := t.obj
  if s.recvBuf.length > 2 then
    let length := unpackBE (s.recvBuf.take 2)
    if length ≥ 32768 ∨ length < 6 then
      .fail (bad s) { t with obj := { s with rawTrans := true, recvBuf := [] } }
    else if length > s.recvBuf.length then .done t
    else
      match Z.decompress ([0x78, 0x9c] ++ s.recvBuf.extract 2 length) with
      | .error e => .fail (raise e) t
      | .ok data => .more
          { obj := { s with recvBuf := s.recvBuf.drop length }
            outBuf := t.outBuf ++ data }
  else .done t

/-- The packets with some output are counted. -/
def finishRecv (t : Recv) : VerifyDeflate :=
  if t.outBuf ≠ [] then { t.obj with decryptPacketNum := t.obj.decryptPacketNum + 1 } else t.obj

/-- `client_post_decrypt`; every turn of its loop shortens the buffer. -/
def clientPostDecrypt (s : VerifyDeflate) (buf : Bytes) : Except PyExc Bytes × VerifyDeflate :=
  if s.rawTrans then (.ok buf, s)
  else
    let s := { s with recvBuf := s.recvBuf ++ buf }
    match loop (recvBody Z id fun _ => .exception) (s.recvBuf.length + 1) { obj := s } with
    | .fail e t => (.error e, t.obj)
    | .done t | .more t => (.ok t.outBuf, finishRecv t)

/-- What a call of `server_post_decrypt` returns or raises. -/
abbrev Result := Except PyExc (Bytes × Bool)

/-- How a server leaves its loop at a bad length. -/
def badLength (s : VerifyDeflate) : Result :=
  if s.decryptPacketNum = 0 then .ok (List.replicate 2048 69, false) else .error .exception

/-- `server_post_decrypt`; every turn of its loop shortens the buffer. -/
def serverPostDecrypt (s : VerifyDeflate) (buf : Bytes) : Result × VerifyDeflate :=
  if s.rawTrans then (.ok (buf, false), s)
  else
    let s := { s with recvBuf := s.recvBuf ++ buf }
    match loop (recvBody Z .error badLength) (s.recvBuf.length + 1) { obj := s } with
    | .fail r t => (r, t.obj)
    | .done t | .more t => (.ok (t.outBuf, false), finishRecv t)

end VerifyDeflate

end ShadowsocksR

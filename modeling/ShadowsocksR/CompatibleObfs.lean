import ShadowsocksR.ObfsTls.Fallback
import ShadowsocksR.HttpSimple.Fallback

/-!
# Compatible obfuscations

A port whose obfuscation is a compatible one accepts clients without an obfuscation, too: the server
gives the bytes of such a client back, when they are no hello and no header.

* `compatible_fallback_iff`: the exact condition for no byte to be lost.
-/

namespace ShadowsocksR

/-- Until a hello or a header is accepted, a compatible server never raises, and keeps or gives back
    all bytes, exactly when none of the inputs that it decides on is cut short, or has a bad
    header. -/
theorem compatible_fallback_iff (C : Crypto) (fast : Bool) (key obfsParam : Bytes)
    (infoOverhead : ℤ) (reads : List TlsTicketAuth.ServerRecv) (kind : HttpSimple.Kind)
    (hosts : Text) (chunks : List Bytes) :
    (Conserves (TlsTicketAuth.reply C) TlsTicketAuth.ServerRecv.buf TlsTicketAuth.recvBuffer []
        (TlsTicketAuth.compatible fast key obfsParam infoOverhead) reads ↔
      DecidesWell TlsTicketAuth.AwaitsRecord TlsTicketAuth.CutShort TlsTicketAuth.ServerRecv.buf
        [] reads) ∧
    (Conserves (HttpSimple.reply hosts) id HttpSimple.Obfs.recvBuffer []
        { kind, compatible := true } chunks ↔
      DecidesWell HttpSimple.AwaitsHeader (HttpSimple.BadHeader hosts) id [] chunks) := by
  have hmethod : (TlsTicketAuth.compatible fast key obfsParam infoOverhead).method =
      .ticketAuthCompatible ∨
      (TlsTicketAuth.compatible fast key obfsParam infoOverhead).method =
        .ticketFastauthCompatible := by
    cases fast with
    | false => exact .inl rfl
    | true => exact .inr rfl
  have hwaiting : HttpSimple.AwaitsWith [] { kind, compatible := true } := ⟨rfl, rfl, rfl⟩
  exact ⟨(TlsTicketAuth.decides_reply C).conserves_iff ⟨rfl, rfl, hmethod⟩ reads,
    (HttpSimple.decides_reply hosts).conserves_iff hwaiting chunks⟩

/-- The first read is the beginning of a record, without its length. -/
theorem not_compatible_fallback : ¬∀ (C : Crypto) (fast : Bool) (key obfsParam : Bytes)
    (infoOverhead : ℤ) (reads : List TlsTicketAuth.ServerRecv),
    Conserves (TlsTicketAuth.reply C) TlsTicketAuth.ServerRecv.buf TlsTicketAuth.recvBuffer []
      (TlsTicketAuth.compatible fast key obfsParam infoOverhead) reads :=
  fun h => h plainCrypto false [] [] 0 [⟨0, .empty, [0x16, 3, 1]⟩]

end ShadowsocksR

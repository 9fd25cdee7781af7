import ShadowsocksR.AuthChain.Termination
import ShadowsocksR.AuthAkarin.Termination
import ShadowsocksR.Authentication

/-!
# The overhead of a client

The servers of auth_chain and auth_akarin take the length of their frames from
the overhead that a client puts in its header, without looking at it. The loop
that packs the first buffer ends if and only if it is less than the `tcp_mss`.
-/

namespace ShadowsocksR

/-- The objects that a server reaches, for a connection with a header, end the packing of a buffer
    if and only if the overhead of the client is less than the `tcp_mss`, the first buffer has been
    packed already, or nothing is packed. -/
theorem packs_iff_overHead_lt (C : Crypto) (noCompatible : Bool) (info : ServerInfo)
    (hmss : 501 ≤ info.tcpMss ∧ info.tcpMss ≤ 1500) :
    (∀ method s, AuthChain.Reachable C method noCompatible info s → s.hasRecvHeader = true →
      ∀ buf, s.Packs C buf ↔
        s.rawTrans = true ∨ s.packId ≠ 1 ∨ s.clientOverHead < s.serverInfo.tcpMss) ∧
    (∀ s, AuthAkarin.Reachable C noCompatible info s → s.hasRecvHeader = true →
      ∀ buf, s.Packs C buf ↔
        s.rawTrans = true ∨ s.packId ≠ 1 ∨ s.clientOverHead < s.serverInfo.tcpMss) :=
  ⟨fun _ _ hs hhead => AuthChain.packs_iff_of_valid (hs.valid hmss) hhead,
    fun _ hs hhead => AuthAkarin.packs_iff_of_valid (hs.valid hmss) hhead⟩

/-! ## A client with a large overhead -/

/-- The header of a client without a user, which names an overhead. -/
def overHeader (overhead : ℕ) : Header :=
  headerFor forgedInfo.key
    (packLE 4 0 ++ [1, 2, 3, 4] ++ packLE 4 5 ++ (packLE 2 overhead ++ [0, 0])) (by simp)

/-- The call that brings this header, for a server with some salt. -/
def overCall (salt : Bytes) (overhead : ℕ) : RecvCall ObfsAuthChainData where
  now := 0
  users := Dict.empty
  data := {}
  buf := (overHeader overhead).bytes plainCrypto (forgedInfo.recvIv ++ forgedInfo.key) salt

/-- The object of auth_chain after this call. -/
def overChain (overhead : ℕ) : AuthChain :=
  (AuthChain.new .a true forgedInfo .new fun _ => 0).recv plainCrypto
    (overCall (AuthChain.Method.salt .a) overhead)

/-- The object of auth_akarin after it. -/
def overAkarin (overhead : ℕ) : AuthAkarin :=
  (AuthAkarin.new true forgedInfo .new fun _ => 0).recv plainCrypto
    (overCall AuthAkarin.salt overhead)

theorem reachable_over (overhead : ℕ)
    (hchain : (AuthChain.serverPostDecrypt plainCrypto 0 Dict.empty {}
      (AuthChain.new .a true forgedInfo .new fun _ => 0)
      (overCall (AuthChain.Method.salt .a) overhead).buf).1.isOk = true)
    (hakarin : (AuthAkarin.serverPostDecrypt plainCrypto 0 Dict.empty {}
      (AuthAkarin.new true forgedInfo .new fun _ => 0)
      (overCall AuthAkarin.salt overhead).buf).1.isOk = true) :
    AuthChain.Reachable plainCrypto .a true forgedInfo (overChain overhead) ∧
      AuthAkarin.Reachable plainCrypto true forgedInfo (overAkarin overhead) :=
  ⟨.recv _ (.new _) hchain, .recv _ (.new _) hakarin⟩

theorem packs_iff_overHead_lt_ten :
    (overChain 10).Packs plainCrypto [7] ∧ (overAkarin 10).Packs plainCrypto [7] := by
  obtain ⟨hchain, hakarin⟩ := reachable_over 10 (by decide +kernel) (by decide +kernel)
  obtain ⟨h₁, h₂⟩ := packs_iff_overHead_lt plainCrypto true forgedInfo (by decide)
  exact ⟨(h₁ _ _ hchain (by decide +kernel) [7]).2 (.inr (.inr (by decide +kernel))),
    (h₂ _ hakarin (by decide +kernel) [7]).2 (.inr (.inr (by decide +kernel)))⟩

/-- With the overhead 65535, neither server packs a byte to send. -/
theorem not_packs_over :
    (AuthChain.Reachable plainCrypto .a true forgedInfo (overChain 65535) ∧
      (overChain 65535).hasRecvHeader = true ∧ ¬(overChain 65535).Packs plainCrypto [7]) ∧
    (AuthAkarin.Reachable plainCrypto true forgedInfo (overAkarin 65535) ∧
      (overAkarin 65535).hasRecvHeader = true ∧
      ¬(overAkarin 65535).Packs plainCrypto [7]) := by
  obtain ⟨hchain, hakarin⟩ := reachable_over 65535 (by decide +kernel) (by decide +kernel)
  have hmss : 501 ≤ forgedInfo.tcpMss ∧ forgedInfo.tcpMss ≤ 1500 := by decide
  have hhead₁ : (overChain 65535).hasRecvHeader = true := by decide +kernel
  have hhead₂ : (overAkarin 65535).hasRecvHeader = true := by decide +kernel
  refine ⟨⟨hchain, hhead₁, ?_⟩, hakarin, hhead₂, ?_⟩
  · rw [AuthChain.packs_iff_of_valid (hchain.valid hmss) hhead₁]
    decide +kernel
  · rw [AuthAkarin.packs_iff_of_valid (hakarin.valid hmss) hhead₂]
    decide +kernel

end ShadowsocksR

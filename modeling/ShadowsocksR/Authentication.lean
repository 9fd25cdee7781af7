import ShadowsocksR.AuthChain.Authentication
import ShadowsocksR.AuthAes128.Authentication

/-!
# Users that are not in the table

The servers of auth_chain and auth_aes128 accept a handshake by nobody in the
table when it is signed with the iv of the connection. Their handshakes are
authentic as long as no peer sends such a one.
-/

namespace ShadowsocksR

/-- What a server of a new connection accepts along a run is authentic if and only if nothing that
    it gets is forged, and then it knows the user. -/
def Server.AuthenticIffUnforged {σ δ : Type} (S : Server σ δ) (s : σ) : Prop :=
  ∀ calls, (S.Sound s calls ↔ S.Unforged s calls) ∧ (S.Unforged s calls → S.Identified s calls)

theorem Server.authenticIffUnforged {σ δ : Type} (S : Server σ δ) {s : σ}
    (hs : S.hasRecvHeader s = false) : S.AuthenticIffUnforged s := fun calls =>
  ⟨Server.sound_iff_unforged s calls, Server.Unforged.identified hs⟩

/-- Along every run of a server of auth_chain or of auth_aes128, the handshakes that it accepts are
    authentic if and only if none of those that it gets is forged. -/
theorem authentic_iff_unforged (C : Crypto) :
    (∀ method noCompatible info rng, (AuthChain.server C).AuthenticIffUnforged
      (AuthChain.new method noCompatible info .new rng)) ∧
    (∀ hashfunc noCompatible info rng, (AuthAes128.server C).AuthenticIffUnforged
      (AuthAes128.new hashfunc noCompatible info rng)) :=
  ⟨fun _ _ _ _ => (AuthChain.server C).authenticIffUnforged rfl,
    fun _ _ _ _ => (AuthAes128.server C).authenticIffUnforged rfl⟩

/-! ## Forged handshakes -/

/-- A server with a key, in a connection with an iv that the peer has chosen. -/
def forgedInfo : ServerInfo where
  key := [1, 2, 3]
  iv := []
  recvIv := [5, 6, 7, 8]
  protocolParam := []
  overhead := 0
  tcpMss := 1500

/-- A table with one user. -/
def oneUser : Dict Bytes Bytes := Dict.empty.set [9, 0, 0, 0] [112, 119]

/-- A header for the user id 0. -/
def headerFor (userKey plain : Bytes) (length_plain : plain.length = 16) : Header where
  nonce := [1, 2, 3, 4]
  uid := [0, 0, 0, 0]
  userKey := userKey
  plain := plain
  length_nonce := rfl
  length_uid := rfl
  length_plain := length_plain

/-- A header for a user id that is not in the table, which is signed with the iv. -/
def forgedHeader : Header :=
  headerFor forgedInfo.recvIv (packLE 4 0 ++ [1, 2, 3, 4] ++ packLE 4 5 ++ [0, 0, 0, 0]) rfl

/-- A message of auth_aes128 of that kind: its length is 36. -/
def forgedMessage : Bytes :=
  let hmac := plainCrypto.hmac .sha1
  let macKey := forgedInfo.recvIv ++ forgedInfo.key
  let body := [0, 0, 0, 0] ++
    Encryptor.encryptBlock plainCrypto (b64encode forgedInfo.recvIv ++ AuthAes128.salt .sha1)
      (packLE 4 0 ++ [1, 2, 3, 4] ++ packLE 4 5 ++ packLE 2 36 ++ [0, 0])
  let message := [1] ++ (hmac macKey [1]).take 6 ++ body ++ (hmac macKey body).take 4 ++ [7]
  message ++ (hmac forgedInfo.recvIv message).take 4

/-- Both servers accept it. -/
theorem accepts_forged :
    ¬(AuthChain.server plainCrypto).Sound (AuthChain.new .a true forgedInfo .new fun _ => 0)
      [{ now := 0, users := oneUser, data := {}
         buf := forgedHeader.bytes plainCrypto (forgedInfo.recvIv ++ forgedInfo.key)
          (AuthChain.Method.salt .a) }] ∧
    ¬(AuthAes128.server plainCrypto).Sound (AuthAes128.new .sha1 true forgedInfo fun _ => 0)
      [{ now := 0, users := oneUser, data := {}, buf := forgedMessage }] := by
  constructor
  · intro h
    obtain ⟨userKey, hget, -⟩ := h.head (by decide) ⟨rfl, by decide +kernel⟩
    exact absurd hget (by
      rw [show AuthBase.headerUid plainCrypto _ = [0, 0, 0, 0] by decide +kernel]
      exact fun h => nomatch h)
  · intro h
    obtain ⟨userKey, hget, -⟩ := h.head (by decide) ⟨rfl, by decide +kernel⟩
    exact absurd hget (by
      rw [show AuthAes128.headUid _ = [0, 0, 0, 0] by decide +kernel]
      exact fun h => nomatch h)

end ShadowsocksR

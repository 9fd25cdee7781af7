import ShadowsocksR.Common
import ShadowsocksR.Lib.Dict
import ShadowsocksR.Lib.Run

/-!
# Authentication of the users of a server

A server with users accepts a handshake that is signed with the key of the user
whose id is in it. But for a user id that is not in the table, it checks the
handshake with the iv of the connection, which the peer has chosen: such a
handshake can be forged by all who know the key of the server.

* `Server`: the objects of a protocol on the server's side, what makes a
  handshake authentic, and what makes it forged;
* `Server.sound_iff_unforged`: the handshakes that are accepted along a run are
  authentic if and only if no call of the run gets a forged one;
* `Server.Unforged.identified`: then a connection with a handshake has a user.
-/

namespace ShadowsocksR

/-! ## Servers -/

/-- A call of `server_post_decrypt`, with the user table and the shared data of that time. -/
structure RecvCall (δ : Type) where
  now : Time
  users : Dict Bytes Bytes
  data : δ
  buf : Bytes

/-- The objects of a protocol on the server's side. -/
structure Server (σ δ : Type) where
  /-- The object after a call. -/
  recv : σ → RecvCall δ → σ
  hasRecvHeader : σ → Bool
  userId : σ → Option Bytes
  /-- The handshake that is complete with the call is by a user of the table. -/
  Authentic : σ → RecvCall δ → Prop
  /-- It is by nobody in the table, and passes the checks. -/
  Forged : σ → RecvCall δ → Prop
  authentic_iff : ∀ s c, c.users.size ≠ 0 →
    ((hasRecvHeader s = false → hasRecvHeader (recv s c) = true → Authentic s c) ↔ ¬Forged s c)
  userId_of_authentic : ∀ s c, hasRecvHeader s = false → hasRecvHeader (recv s c) = true →
    Authentic s c → userId (recv s c) ≠ none
  recv_of_hasRecvHeader : ∀ s c, hasRecvHeader s = true →
    hasRecvHeader (recv s c) = true ∧ userId (recv s c) = userId s

namespace Server

variable {σ δ : Type} (S : Server σ δ)

/-- One call. -/
def step (s : σ) (c : RecvCall δ) : Option σ := some (S.recv s c)

/-- A call with which the handshake is accepted. -/
def Accepts (s : σ) (c : RecvCall δ) : Prop :=
  S.hasRecvHeader s = false ∧ S.hasRecvHeader (S.recv s c) = true

/-- Every handshake that is accepted along a run is authentic. -/
def Sound (s : σ) (calls : List (RecvCall δ)) : Prop :=
  Run.Throughout S.step (fun s c => c.users.size ≠ 0 → S.Accepts s c → S.Authentic s c) s calls

/-- No call of a run gets a forged handshake. -/
def Unforged (s : σ) (calls : List (RecvCall δ)) : Prop :=
  Run.Throughout S.step (fun s c => c.users.size ≠ 0 → ¬S.Forged s c) s calls

/-- After a run with users in the table, an object that has accepted a handshake has a user id. -/
def Identified (s : σ) (calls : List (RecvCall δ)) : Prop :=
  Run.Throughout S.step (fun _ c => c.users.size ≠ 0) s calls →
    ∀ s', Run.exec S.step s calls = some s' → S.hasRecvHeader s' = true → S.userId s' ≠ none

variable {S}

theorem sound_iff_unforged (s : σ) (calls : List (RecvCall δ)) :
    S.Sound s calls ↔ S.Unforged s calls := by
  refine Run.throughout_congr fun s c => forall_congr' fun hsize => ?_
  rw [Accepts, and_imp]
  exact S.authentic_iff s c hsize

theorem Unforged.identified {s : σ} (hs : S.hasRecvHeader s = false) {calls : List (RecvCall δ)}
    (h : S.Unforged s calls) : S.Identified s calls := by
  intro hsize s' hs'
  refine Run.exec_invariant (P := fun s => S.hasRecvHeader s = true → S.userId s ≠ none)
    ?_
    (fun h => absurd h (by rw [hs]; decide)) (hsize.and h) hs'
  rintro s c _ hid ⟨hne, hforged⟩ ⟨⟩ hacc
  cases hold : S.hasRecvHeader s with
  | true =>
    rw [(S.recv_of_hasRecvHeader s c hold).2]
    exact hid hold
  | false =>
    have hauth := (S.authentic_iff s c hne).2 (hforged hne) hold hacc
    exact S.userId_of_authentic s c hold hacc hauth

end Server

end ShadowsocksR

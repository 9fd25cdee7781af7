import ShadowsocksR.AuthData.RefCount
import ShadowsocksR.Authentication
import ShadowsocksR.AuthAkarin.Termination

/-!
# The references of auth_chain and auth_akarin

Both protocols insert the ids of a handshake in the shared data, and `dispose`
removes the ids of every object, which are `None` and 0 when there was no
handshake.

* `AuthBase.header_refs`: what a header does to the fields `ref`;
* `AuthChain.refCounted`, `AuthAkarin.refCounted`: the objects of the protocols;
* `refs_exact_iff`: when the fields are the numbers of connections.
-/

namespace ShadowsocksR

open AuthData (SameRefs)

variable {C : Crypto} {now : Time} {users : Dict Bytes Bytes} {data : ObfsAuthChainData}

namespace AuthBase

/-- A header that is opened, but not admitted, changes no field `ref`. -/
theorem acceptHeader_refs (now : Time) (hd : data.Valid) (head : Bytes) (s : AuthBase) :
    (∃ r s' d', s.acceptHeader now data head = (.error r, s', d') ∧
      s'.hasRecvHeader = s.hasRecvHeader ∧ d'.Valid ∧ SameRefs data d') ∨
    ∃ utcTime s' d' connectionId, s.acceptHeader now data head = (.ok utcTime, s', d') ∧
      s'.hasRecvHeader = true ∧
      data.insert now s'.userId s'.clientId connectionId = some (true, d') := by
  rw [acceptHeader]
  dsimp only
  split_ifs with hwin
  · cases hins : data.insert now s.userId (unpackLE (head.extract 4 8))
      (unpackLE (head.extract 8 12)) with
    | none => exact .inl ⟨_, _, _, rfl, rfl, hd, .refl _⟩
    | some r =>
      obtain ⟨accepted, d'⟩ := r
      cases accepted with
      | true => exact .inr ⟨_, _, _, _, rfl, rfl, hins⟩
      | false =>
        exact .inl ⟨_, _, _, rfl, rfl, AuthData.insert_valid hd hins,
          AuthData.sameRefs_insert hd hins⟩
  · exact .inl ⟨_, _, _, rfl, rfl, hd, .refl _⟩

/-- Opening a header. -/
theorem openHeader_cases (C : Crypto) (salt : Bytes) (users : Dict Bytes Bytes) (s : AuthBase) :
    (∃ r s', s.openHeader C salt users = (.error r, s') ∧ s'.hasRecvHeader = s.hasRecvHeader) ∨
    ∃ head s', s.openHeader C salt users = (.ok head, s') ∧
      s'.hasRecvHeader = s.hasRecvHeader := by
  by_cases h : s.Opens C users
  · obtain ⟨_, _, _, hopen⟩ := openHeader_of_opens salt h
    exact .inr ⟨_, _, hopen, rfl⟩
  · obtain ⟨r, s', hopen, hkept⟩ := openHeader_of_not_opens salt h
    exact .inl ⟨r, s', hopen, hkept.hasRecvHeader⟩

end AuthBase

/-- What a call with a header does: it is not accepted, and no field `ref` changes, or it is, and
    its ids are inserted. -/
def HeaderRefs (now : Time) (data : ObfsAuthChainData) (s : AuthBase) (d : ObfsAuthChainData) :
    Prop :=
  s.hasRecvHeader = false ∧ d.Valid ∧ SameRefs data d ∨
    s.hasRecvHeader = true ∧ ∃ connectionId,
      data.insert now s.userId s.clientId connectionId = some (true, d)

/-- What the frames after it do. -/
structure FrameRefs (s s' : AuthBase) (d d' : ObfsAuthChainData) : Prop where
  hasRecvHeader : s'.hasRecvHeader = s.hasRecvHeader
  userId : s'.userId = s.userId
  clientId : s'.clientId = s.clientId
  valid : d.Valid → d'.Valid
  sameRefs : SameRefs d d'

theorem FrameRefs.refl (s : AuthBase) (d : ObfsAuthChainData) : FrameRefs s s d d :=
  ⟨rfl, rfl, rfl, id, .refl d⟩

/-- Frames of a connection with a handshake. -/
theorem FrameRefs.of_hasRecvHeader {s s' : AuthBase} {d : ObfsAuthChainData}
    (h : FrameRefs s s' data d) (hs : s.hasRecvHeader = true) (hd : data.Valid) :
    (s'.hasRecvHeader = true ∧ s'.userId = s.userId ∧ s'.clientId = s.clientId) ∧
      d.Valid ∧ SameRefs data d :=
  ⟨⟨h.hasRecvHeader.trans hs, h.userId, h.clientId⟩, h.valid hd, h.sameRefs⟩

/-- Frames after a header. -/
theorem HeaderRefs.frames {s s' : AuthBase} {d d' : ObfsAuthChainData} (hd : data.Valid)
    (h : HeaderRefs now data s d) (h' : FrameRefs s s' d d') :
    d'.Valid ∧ (s'.hasRecvHeader = false ∧ SameRefs data d' ∨
      s'.hasRecvHeader = true ∧ ∃ connectionId d₁,
        data.insert now s'.userId s'.clientId connectionId = some (true, d₁) ∧ SameRefs d₁ d') := by
  rcases h with ⟨hhas, hvalid, hrefs⟩ | ⟨hhas, connectionId, hins⟩
  · exact ⟨h'.valid hvalid, .inl ⟨h'.hasRecvHeader.trans hhas, fun u c =>
      (h'.sameRefs u c).trans (hrefs u c)⟩⟩
  · refine ⟨h'.valid (AuthData.insert_valid hd hins),
    .inr ⟨h'.hasRecvHeader.trans hhas, connectionId,
      d, ?_, h'.sameRefs⟩⟩
    rw [h'.userId, h'.clientId]
    exact hins

/-! ## The objects of auth_chain -/

namespace AuthChain

variable {s : AuthChain}

theorem recvHeader_refs (now : Time) (users : Dict Bytes Bytes) (hd : data.Valid)
    (hhas : s.hasRecvHeader = false) :
    HeaderRefs now data (recvHeader C now users data s).2.1.toAuthBase
      (recvHeader C now users data s).2.2 := by
  rw [recvHeader]
  rcases AuthBase.openHeader_cases C s.method.salt users s.toAuthBase with
    ⟨r, s₁, hopen, h₁⟩ | ⟨head, s₁, hopen, h₁⟩
  · rw [hopen]
    exact .inl ⟨h₁.trans hhas, hd, .refl _⟩
  · rw [hopen]
    rcases AuthBase.acceptHeader_refs now hd head s₁ with
      ⟨r, s₂, d, haccept, h₂, hvalid, hrefs⟩ | ⟨utcTime, s₂, d, connectionId, haccept, h₂, hins⟩
    · dsimp only
      rw [haccept]
      exact .inl ⟨h₂.trans (h₁.trans hhas), hvalid, hrefs⟩
    · dsimp only
      rw [haccept]
      dsimp only
      cases s.onRecvAuthData utcTime with
      | error e => exact .inr ⟨h₂, connectionId, hins⟩
      | ok _ => exact .inr ⟨rfl, connectionId, hins⟩

/-- The frames of a connection only update the time of its queue. -/
theorem recvFrames_refs (C : Crypto) (now : Time) (fuel : ℕ) (t : Recv) (d : ObfsAuthChainData) :
    FrameRefs t.obj.toAuthBase
      (match loop (serverRecvBody C) fuel t with
        | .fail r t => (r, t.obj, d)
        | .done t | .more t => finishRecv now d t).2.1.toAuthBase d
      (match loop (serverRecvBody C) fuel t with
        | .fail r t => (r, t.obj, d)
        | .done t | .more t => finishRecv now d t).2.2 := by
  have heq := (recvFrames_kept C now d fuel t).eq
  have hfinish : ∀ t', (d.Valid → (finishRecv now d t').2.2.Valid) ∧
      SameRefs d (finishRecv now d t').2.2 := fun t' => by
    rw [finishRecv]
    split
    · obtain ⟨_, -, h⟩ := d.update_isSome now t'.obj.userId t'.obj.clientId
      rw [h]
      exact ⟨fun hd => AuthData.update_valid hd h, AuthData.sameRefs_update h⟩
    · exact ⟨id, .refl d⟩
  have hhas := congrArg (fun s : AuthChain => s.hasRecvHeader) heq
  have huserId := congrArg (fun s : AuthChain => s.userId) heq
  have hclientId := congrArg (fun s : AuthChain => s.clientId) heq
  refine ⟨hhas, huserId, hclientId, ?_, ?_⟩
  · cases loop (serverRecvBody C) fuel t with
    | fail r t' => exact id
    | done t' => exact (hfinish t').1
    | more t' => exact (hfinish t').1
  · cases loop (serverRecvBody C) fuel t with
    | fail r t' => exact .refl d
    | done t' => exact (hfinish t').2
    | more t' => exact (hfinish t').2

/-- What a call of `server_post_decrypt` does. -/
theorem recv_refs (s : AuthChain) (c : RecvCall ObfsAuthChainData) (hd : c.data.Valid) :
    (s.hasRecvHeader = true → FrameRefs s.toAuthBase
      (serverPostDecrypt C c.now c.users c.data s c.buf).2.1.toAuthBase c.data
      (serverPostDecrypt C c.now c.users c.data s c.buf).2.2) ∧
    (s.hasRecvHeader = false → ∃ s₁ d₁, HeaderRefs c.now c.data s₁ d₁ ∧ FrameRefs s₁
      (serverPostDecrypt C c.now c.users c.data s c.buf).2.1.toAuthBase d₁
      (serverPostDecrypt C c.now c.users c.data s c.buf).2.2) := by
  rw [serverPostDecrypt]
  by_cases hraw : s.rawTrans = true
  · rw [if_pos hraw]
    exact ⟨fun _ => .refl _ _, fun hhas => ⟨_, _, .inl ⟨hhas, hd, .refl _⟩, .refl _ _⟩⟩
  rw [if_neg hraw]
  dsimp only
  refine ⟨fun hhas => ?_, fun hhas => ?_⟩
  · rw [if_pos hhas]
    obtain ⟨h₁, h₂, h₃, h₄, h₅⟩ := recvFrames_refs C c.now
      ((s.recvBuf ++ c.buf).length + 1) { obj := s.receiving c, sendback := false } c.data
    exact ⟨h₁, h₂, h₃, h₄, h₅⟩
  · rw [if_neg (by rw [hhas]; decide)]
    have h := recvHeader_refs (C := C) (s := s.receiving c) c.now c.users hd hhas
    rw [receiving] at h
    rcases hr : recvHeader C c.now c.users c.data { s with recvBuf := s.recvBuf ++ c.buf } with
      ⟨r | sendback, s₁, d₁⟩
    · rw [hr] at h
      exact ⟨_, _, h, .refl _ _⟩
    · rw [hr] at h
      exact ⟨_, _, h, recvFrames_refs _ _ _ { obj := s₁, sendback } d₁⟩

/-- The objects of auth_chain. -/
def refCounted (C : Crypto) (method : Method) : RefCounted AuthChain (Bool × ServerInfo × Rng) where
  new a := new method a.1 a.2.1 .new a.2.2
  recv s c := (serverPostDecrypt C c.now c.users c.data s c.buf).2
  hasRecvHeader s := s.hasRecvHeader
  userId s := s.userId
  clientId s := s.clientId
  hasRecvHeader_new _ := rfl
  recv_of_hasRecvHeader s c hs hd := ((recv_refs s c hd).1 hs).of_hasRecvHeader hs hd
  recv_of_not_hasRecvHeader s c hs hd := by
    obtain ⟨s₁, d₁, h₁, h₂⟩ := (recv_refs (C := C) s c hd).2 hs
    exact h₁.frames hd h₂

end AuthChain

/-! ## The objects of auth_akarin -/

namespace AuthAkarin

variable {s : AuthAkarin}

theorem recvHeader_refs (now : Time) (users : Dict Bytes Bytes) (hd : data.Valid)
    (hhas : s.hasRecvHeader = false) :
    HeaderRefs now data (recvHeader C now users data s).2.1.toAuthBase
      (recvHeader C now users data s).2.2 := by
  rw [recvHeader]
  rcases AuthBase.openHeader_cases C s.method.salt users s.toAuthBase with
    ⟨r, s₁, hopen, h₁⟩ | ⟨head, s₁, hopen, h₁⟩
  · rw [hopen]
    exact .inl ⟨h₁.trans hhas, hd, .refl _⟩
  · rw [hopen]
    rcases AuthBase.acceptHeader_refs now hd head s₁ with
      ⟨r, s₂, d, haccept, h₂, hvalid, hrefs⟩ | ⟨utcTime, s₂, d, connectionId, haccept, h₂, hins⟩
    · dsimp only
      rw [haccept]
      exact .inl ⟨h₂.trans (h₁.trans hhas), hvalid, hrefs⟩
    · dsimp only
      rw [haccept]
      exact .inr ⟨rfl, connectionId, hins⟩

/-- The frames of a connection only update the time of its queue. -/
theorem recvFrames_refs (C : Crypto) (now : Time) (fuel : ℕ) (t : Recv) (d : ObfsAuthChainData) :
    FrameRefs t.obj.toAuthBase
      (match loop (serverRecvBody C) fuel t with
        | .fail r t => (r, t.obj, d)
        | .done t | .more t => finishRecv now d t).2.1.toAuthBase d
      (match loop (serverRecvBody C) fuel t with
        | .fail r t => (r, t.obj, d)
        | .done t | .more t => finishRecv now d t).2.2 := by
  have hkept := recvFrames_kept C now d fuel t
  have hfinish : ∀ t', (d.Valid → (finishRecv now d t').2.2.Valid) ∧
      SameRefs d (finishRecv now d t').2.2 := fun t' => by
    rw [finishRecv]
    split
    · obtain ⟨_, -, h⟩ := d.update_isSome now t'.obj.userId t'.obj.clientId
      rw [h]
      exact ⟨fun hd => AuthData.update_valid hd h, AuthData.sameRefs_update h⟩
    · exact ⟨id, .refl d⟩
  refine ⟨hkept.hasRecvHeader, hkept.userId, hkept.clientId, ?_, ?_⟩
  · cases loop (serverRecvBody C) fuel t with
    | fail r t' => exact id
    | done t' => exact (hfinish t').1
    | more t' => exact (hfinish t').1
  · cases loop (serverRecvBody C) fuel t with
    | fail r t' => exact .refl d
    | done t' => exact (hfinish t').2
    | more t' => exact (hfinish t').2

/-- What a call of `server_post_decrypt` does. -/
theorem recv_refs (s : AuthAkarin) (c : RecvCall ObfsAuthChainData) (hd : c.data.Valid) :
    (s.hasRecvHeader = true → FrameRefs s.toAuthBase
      (serverPostDecrypt C c.now c.users c.data s c.buf).2.1.toAuthBase c.data
      (serverPostDecrypt C c.now c.users c.data s c.buf).2.2) ∧
    (s.hasRecvHeader = false → ∃ s₁ d₁, HeaderRefs c.now c.data s₁ d₁ ∧ FrameRefs s₁
      (serverPostDecrypt C c.now c.users c.data s c.buf).2.1.toAuthBase d₁
      (serverPostDecrypt C c.now c.users c.data s c.buf).2.2) := by
  rw [serverPostDecrypt]
  by_cases hraw : s.rawTrans = true
  · rw [if_pos hraw]
    exact ⟨fun _ => .refl _ _, fun hhas => ⟨_, _, .inl ⟨hhas, hd, .refl _⟩, .refl _ _⟩⟩
  rw [if_neg hraw]
  dsimp only
  refine ⟨fun hhas => ?_, fun hhas => ?_⟩
  · rw [if_pos hhas]
    obtain ⟨h₁, h₂, h₃, h₄, h₅⟩ := recvFrames_refs C c.now
      ((s.recvBuf ++ c.buf).length + 1)
      { obj := { s with recvBuf := s.recvBuf ++ c.buf }, sendback := false } c.data
    exact ⟨h₁, h₂, h₃, h₄, h₅⟩
  · rw [if_neg (by rw [hhas]; decide)]
    have h := recvHeader_refs (C := C)
      (s := { s with recvBuf := s.recvBuf ++ c.buf }) c.now c.users hd hhas
    rcases hr : recvHeader C c.now c.users c.data { s with recvBuf := s.recvBuf ++ c.buf } with
      ⟨r | sendback, s₁, d₁⟩
    · rw [hr] at h
      exact ⟨_, _, h, .refl _ _⟩
    · rw [hr] at h
      exact ⟨_, _, h, recvFrames_refs _ _ _ { obj := s₁, sendback } d₁⟩

/-- The objects of auth_akarin. -/
def refCounted (C : Crypto) : RefCounted AuthAkarin (Bool × ServerInfo × Rng) where
  new a := new a.1 a.2.1 .new a.2.2
  recv s c := (serverPostDecrypt C c.now c.users c.data s c.buf).2
  hasRecvHeader s := s.hasRecvHeader
  userId s := s.userId
  clientId s := s.clientId
  hasRecvHeader_new _ := rfl
  recv_of_hasRecvHeader s c hs hd := ((recv_refs s c hd).1 hs).of_hasRecvHeader hs hd
  recv_of_not_hasRecvHeader s c hs hd := by
    obtain ⟨s₁, d₁, h₁, h₂⟩ := (recv_refs (C := C) s c hd).2 hs
    exact h₁.frames hd h₂

end AuthAkarin

/-! ## All objects -/

/-- Every event of a run meets the condition. -/
def RefCounted.Meets {σ ν : Type} (R : RefCounted σ ν) (maxClient : ℤ)
    (events : List (RefCounted.Event ν)) : Prop :=
  Run.Throughout R.step R.Cond { data := { maxClient } } events

/-- Along every run of the connections of a port, the field `ref` of every queue is the number of
    the connections whose handshakes were accepted for its ids and which have not been disposed
    of, if and only if every event meets the condition. -/
theorem refs_exact_iff (C : Crypto) (maxClient : ℤ) :
    (∀ method events, (AuthChain.refCounted C method).AlwaysExact maxClient events ↔
      (AuthChain.refCounted C method).Meets maxClient events) ∧
    (∀ events, (AuthAkarin.refCounted C).AlwaysExact maxClient events ↔
      (AuthAkarin.refCounted C).Meets maxClient events) :=
  ⟨fun _ => RefCounted.alwaysExact_iff maxClient, RefCounted.alwaysExact_iff maxClient⟩

theorem RefCounted.AlwaysExact.exact {σ ν : Type} {R : RefCounted σ ν} {maxClient : ℤ}
    {events : List (RefCounted.Event ν)} (h : R.AlwaysExact maxClient events)
    {p : RefCounted.Port σ} (hp : Run.exec R.step { data := { maxClient } } events = some p) :
    R.Exact p :=
  Run.exec_invariant (P := R.Exact) (fun _ hgood hstep => hgood _ hstep)
    (fun u c n h => by cases h) h hp

/-- The header of a client without a user, with an id. -/
def clientHeader (clientId : UInt8) : Header :=
  headerFor forgedInfo.key
    (packLE 4 0 ++ [clientId, 0, 0, 0] ++ packLE 4 5 ++ [4, 0, 0, 0]) rfl

/-- The event that brings this header to an object. -/
def headerEvent (salt : Bytes) (i : ℕ) (now : Time) (clientId : UInt8) :
    RefCounted.Event (Bool × ServerInfo × Rng) :=
  .recv i now Dict.empty
    ((clientHeader clientId).bytes plainCrypto (forgedInfo.recvIv ++ forgedInfo.key) salt)

/-- The client 0 has a connection; another one is closed without a handshake. -/
def closedEvents (salt : Bytes) : List (RefCounted.Event (Bool × ServerInfo × Rng)) :=
  [.connect (true, forgedInfo, fun _ => 0), .connect (true, forgedInfo, fun _ => 0),
    headerEvent salt 0 0 0, .dispose 1 0]

/-- The client 1 has a connection, and its queue is evicted for that of the client 2; then it
    makes another connection. -/
def evictedEvents (salt : Bytes) : List (RefCounted.Event (Bool × ServerInfo × Rng)) :=
  [.connect (true, forgedInfo, fun _ => 0), .connect (true, forgedInfo, fun _ => 0),
    .connect (true, forgedInfo, fun _ => 0), headerEvent salt 0 0 1, headerEvent salt 1 700 2,
    headerEvent salt 2 1400 1]

/-- The field `ref` of a client after a run, and its number of connections. -/
def RefCounted.refAndCount {σ ν : Type} (R : RefCounted σ ν) (maxClient : ℤ)
    (events : List (RefCounted.Event ν)) (clientId : ℕ) : Option (Option ℕ × ℕ) :=
  (Run.exec R.step { data := { maxClient } } events).map fun p =>
    (p.data.ref? none clientId, R.count p none clientId)

theorem RefCounted.not_alwaysExact_of_ne {σ ν : Type} {R : RefCounted σ ν} {maxClient : ℤ}
    {events : List (RefCounted.Event ν)} (clientId ref count : ℕ)
    (h : R.refAndCount maxClient events clientId = some (some ref, count)) (hne : ref ≠ count) :
    ¬R.AlwaysExact maxClient events := fun hexact => by
  obtain ⟨p, hp, heq⟩ := Option.map_eq_some_iff.1 h
  obtain ⟨href, hcount⟩ := Prod.mk.inj heq
  exact hne ((hexact.exact hp none clientId ref href).trans hcount)

/-- In both runs of both protocols, the field is less than the number of connections after. -/
theorem not_alwaysExact :
    (¬(AuthChain.refCounted plainCrypto .a).AlwaysExact 64
        (closedEvents (AuthChain.Method.salt .a)) ∧
      ¬(AuthChain.refCounted plainCrypto .a).AlwaysExact 1
        (evictedEvents (AuthChain.Method.salt .a))) ∧
    ¬(AuthAkarin.refCounted plainCrypto).AlwaysExact 64 (closedEvents AuthAkarin.salt) ∧
      ¬(AuthAkarin.refCounted plainCrypto).AlwaysExact 1 (evictedEvents AuthAkarin.salt) := by
  refine ⟨⟨?_, ?_⟩, ?_, ?_⟩
  · exact RefCounted.not_alwaysExact_of_ne 0 0 1
      (by decide +kernel) (by decide)
  · exact RefCounted.not_alwaysExact_of_ne 1 1 2
      (by decide +kernel) (by decide)
  · exact RefCounted.not_alwaysExact_of_ne 0 0 1
      (by decide +kernel) (by decide)
  · exact RefCounted.not_alwaysExact_of_ne 1 1 2
      (by decide +kernel) (by decide)

end ShadowsocksR

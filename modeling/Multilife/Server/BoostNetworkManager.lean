import Multilife.Foundations.FiniteMap
import Multilife.Foundations.LittleEndian
import Multilife.Foundations.Transition
import Multilife.Server.Protocol
import Multilife.Server.Types

/-!
# The network manager

`BoostNetworkManager.hpp` and `BoostNetworkManager.cpp`.  A `Session` object is
created for every accepted connection and lives as long as its read loop; the two
registries map a player id to a session and to an address.  Since a registry can
name a session that another one has replaced, sessions are objects behind
pointers, and the registry holds the pointer.

Each function here is one turn of the I/O thread, except `broadcastWorldUpdate`,
which the tick thread calls and which only counts and posts.  The functions that
send return what they send.
-/

namespace Multilife

open FiniteMap LittleEndian proto Transition

/-! ## Cutting a payload into datagrams -/

/-- `sendPayloadTo`, on the rest of the payload: the datagrams in the order they
are sent.  `none` when the source would read past the end of the payload. -/
def sendPayloadTo (payload : List UInt8) : Option (List (List UInt8)) :=
  if kUdpHeader ≤ payload.length then
    let cellCount := readLE UInt16 payload kOffCellCount
    let pktSize := kUdpHeader + cellCount.toNat * kUdpCellEntry
    if pktSize > kMaxUdpPayload then
      -- the datagram is cut to `maxCells` entries, the packet is skipped as a whole
      let maxCells := UInt16.ofNat kMaxCellsPerPacket
      let cappedSize := kUdpHeader + maxCells.toNat * kUdpCellEntry
      if cappedSize > payload.length then none
      else
        let capped := patchLE maxCells (payload.take cappedSize) kOffCellCount
        (sendPayloadTo (payload.drop pktSize)).map (capped :: ·)
    else if pktSize > payload.length then none
    else (sendPayloadTo (payload.drop pktSize)).map (payload.take pktSize :: ·)
  else some []
termination_by payload.length
decreasing_by
  all_goals
    simp only [List.length_drop, kUdpHeader] at *
    omega

/-! ## Sessions -/

/-- An address and a port. -/
structure Endpoint where
  address : ℕ
  port : UInt16
  deriving DecidableEq, Repr

/-- Which asynchronous read of a session is pending. -/
inductive PendingRead where
  | handshake
  | message
  | none
  deriving DecidableEq, Repr

/-- `BoostNetworkManager::Session`: its socket, as the remote address, its fields,
and its pending read. -/
structure Session where
  socket : Endpoint
  playerId : PlayerId := 0
  handshakeDone : Bool := false
  needsFullSnapshot : Bool := true
  pending : PendingRead := .handshake
  deriving DecidableEq, Repr

/-- A `SessionPtr`. -/
abbrev SessionPtr := ℕ

/-- `BoostNetworkManager`: the registries, the counter, and the session objects. -/
structure BoostNetworkManager where
  objects : Finmap fun _ : SessionPtr => Session := ∅
  sessions : Finmap fun _ : PlayerId => SessionPtr := ∅
  udpEndpoints : Finmap fun _ : PlayerId => Endpoint := ∅
  seqNum : UInt32 := 0

/-- A message of a session after its handshake. -/
inductive ClientMessage where
  | resync
  | command (type : CommandType) (cmdPlayer : PlayerId) (x y : Int64)
  /-- A message type the server does not know. -/
  | unknown (msgType : UInt8)
  deriving DecidableEq, Repr

namespace BoostNetworkManager

/-- The registered session of a player. -/
def sessionOf (m : BoostNetworkManager) (playerId : PlayerId) : Option Session :=
  (m.sessions.lookup playerId).bind m.objects.lookup

/-- Set `needsFullSnapshot` of the session `m_sessions` finds for a player. -/
def setNeedsFullSnapshot (m : BoostNetworkManager) (playerId : PlayerId) (value : Bool) :
    BoostNetworkManager :=
  match m.sessions.lookup playerId with
  | none => m
  | some ptr =>
    { m with objects := modify ptr (fun s => { s with needsFullSnapshot := value }) m.objects }

/-- `doAccept`: a new session, waiting for its handshake. -/
def accept (m : BoostNetworkManager) (self : SessionPtr) (socket : Endpoint) :
    BoostNetworkManager :=
  { m with objects := m.objects.insert self { socket := socket } }

/-- `Session::start`, once the handshake has been read: the manager, and the id
the add-player callback is called with.  Any id is admitted. -/
def start (m : BoostNetworkManager) (self : SessionPtr) (session : Session)
    (handshakeBuf : List UInt8) : BoostNetworkManager × Option PlayerId :=
  let magic := readLE UInt32 handshakeBuf 0
  if magic ≠ kMagic then
    ({ m with objects := m.objects.insert self { session with pending := .none } }, none)
  else
    let playerId := readLE UInt64 handshakeBuf 4
    ({ m with
        objects := m.objects.insert self
          { socket := session.socket
            playerId := playerId
            handshakeDone := true
            needsFullSnapshot := true
            pending := .message }
        sessions := m.sessions.insert playerId self
        udpEndpoints := m.udpEndpoints.insert playerId session.socket }, some playerId)

/-- `removeSession`. -/
def removeSession (m : BoostNetworkManager) (playerId : PlayerId) : BoostNetworkManager :=
  { m with
    sessions := m.sessions.erase playerId
    udpEndpoints := m.udpEndpoints.erase playerId }

/-- `readNextMessage`, when a message arrives: the manager, and the commands the
command callback is called with. -/
def readNextMessage (m : BoostNetworkManager) (self : Session) (msg : ClientMessage) :
    BoostNetworkManager × List PlayerCommand :=
  match msg with
  | .resync => (m.setNeedsFullSnapshot self.playerId true, [])
  | .command type cmdPlayer x y =>
    if cmdPlayer ≠ self.playerId then (m, [])
    else (m, [⟨self.playerId, type, x, y⟩])
  | .unknown _ => (m, [])

/-- A read that fails ends the session.  Only a session that was reading messages
is removed from the registries, by its id. -/
def readError (m : BoostNetworkManager) (self : SessionPtr) (session : Session) :
    BoostNetworkManager :=
  let m := if session.pending = .message then m.removeSession session.playerId else m
  { m with objects := m.objects.insert self { session with pending := .none } }

/-! ## Broadcasts -/

/-- `broadcastWorldUpdate`: the manager, and the arguments of the `doUdpBroadcast`
it posts, unless the update is empty. -/
def broadcastWorldUpdate (m : BoostNetworkManager) (update : List UInt8) :
    BoostNetworkManager × Option (List UInt8 × UInt32) :=
  if update.isEmpty then (m, none)
  else
    let seq := m.seqNum + 1
    ({ m with seqNum := seq }, some (update, seq))

/-- `SessionInfo` of `doUdpBroadcast`. -/
structure SessionInfo where
  id : PlayerId
  ep : Endpoint
  needsFull : Bool
  deriving DecidableEq, Repr

/-- The first loop of `doUdpBroadcast`. -/
def sessionInfos (order : Traversal PlayerId) (m : BoostNetworkManager) : List SessionInfo :=
  (order.order m.sessions.keys).filterMap fun id =>
    (m.udpEndpoints.lookup id).map fun ep =>
      { id := id, ep := ep
        needsFull := ((m.sessionOf id).map Session.needsFullSnapshot).getD false }

/-- What is sent to one session. -/
structure Transmission where
  id : PlayerId
  ep : Endpoint
  full : Bool
  datagrams : List (List UInt8)

/-- The body of the second loop of `doUdpBroadcast`.  The snapshot is built on
first need and kept, so every session is served the same one. -/
def serve (fullData deltaData : List UInt8)
    (acc : BoostNetworkManager × List Transmission) (info : SessionInfo) :
    BoostNetworkManager × List Transmission :=
  if info.needsFull then
    (acc.1.setNeedsFullSnapshot info.id false,
      acc.2 ++ [⟨info.id, info.ep, true, (sendPayloadTo fullData).getD []⟩])
  else (acc.1, acc.2 ++ [⟨info.id, info.ep, false, (sendPayloadTo deltaData).getD []⟩])

/-- `doUdpBroadcast`: the manager, and what is sent. -/
def doUdpBroadcast (order : Traversal PlayerId)
    (fullSnapshotProvider : Option (UInt32 → List UInt8)) (m : BoostNetworkManager)
    (deltaData : List UInt8) (seqNum : UInt32) : BoostNetworkManager × List Transmission :=
  let fullData := match fullSnapshotProvider with
    | some provider => provider seqNum
    | none => []
  (m.sessionInfos order).foldl (serve fullData deltaData) (m, [])

/-- The handler that `broadcastServerStats` posts: what is written, and to which session. -/
def broadcastServerStats (order : Traversal PlayerId) (m : BoostNetworkManager)
    (payload : List UInt8) : List (SessionPtr × List UInt8) :=
  (order.order m.sessions.keys).filterMap fun id =>
    (m.sessions.lookup id).map fun session => (session, payload)

/-! ## What a broadcast does -/

theorem mem_sessionInfos {order : Traversal PlayerId} {m : BoostNetworkManager}
    {info : SessionInfo} :
    info ∈ m.sessionInfos order ↔
      info.id ∈ m.sessions ∧ m.udpEndpoints.lookup info.id = some info.ep ∧
        ((m.sessionOf info.id).map Session.needsFullSnapshot).getD false = info.needsFull := by
  rw [sessionInfos, List.mem_filterMap]
  constructor
  · rintro ⟨id, hid, h⟩
    obtain ⟨ep, hep, rfl⟩ := Option.map_eq_some_iff.mp h
    exact ⟨Finmap.mem_keys.mp ((order.mem_order _ _).mp hid), hep, rfl⟩
  · rintro ⟨hid, hep, hneeds⟩
    refine ⟨info.id, (order.mem_order _ _).mpr (Finmap.mem_keys.mpr hid), ?_⟩
    rw [hep, hneeds]
    rfl

theorem id_of_info (m : BoostNetworkManager) {id : PlayerId} {info : SessionInfo}
    (h : ((m.udpEndpoints.lookup id).map fun ep =>
      (⟨id, ep, ((m.sessionOf id).map Session.needsFullSnapshot).getD false⟩ : SessionInfo)) =
        some info) : info.id = id := by
  obtain ⟨ep, -, rfl⟩ := Option.map_eq_some_iff.mp h
  rfl

/-- Nobody is served twice. -/
theorem nodup_sessionInfos (order : Traversal PlayerId) (m : BoostNetworkManager) :
    ((m.sessionInfos order).map SessionInfo.id).Nodup :=
  (sublist_map_filterMap (fun _ _ => id_of_info m) _).nodup (order.nodup _)

/-- A player with an address and a session is served once, and as its session asks. -/
theorem filter_sessionInfos (order : Traversal PlayerId) {m : BoostNetworkManager}
    {playerId : PlayerId} {session : Session} {ep : Endpoint}
    (hsession : m.sessionOf playerId = some session)
    (hep : m.udpEndpoints.lookup playerId = some ep) :
    (m.sessionInfos order).filter (fun info => info.id = playerId) =
      [⟨playerId, ep, session.needsFullSnapshot⟩] := by
  obtain ⟨ptr, hptr, -⟩ := Option.bind_eq_some_iff.mp hsession
  have hid : playerId ∈ order.order m.sessions.keys :=
    (order.mem_order _ _).mpr (Finmap.mem_keys.mpr (Finmap.mem_iff.mpr ⟨ptr, hptr⟩))
  have hfilter := filter_filterMap (fun _ _ => id_of_info m) (order.nodup m.sessions.keys) hid
  rw [hep, hsession] at hfilter
  exact hfilter

/-- What serving sessions changes: flags are cleared. -/
structure Cleared (m m' : BoostNetworkManager) : Prop where
  sessions : m'.sessions = m.sessions
  udpEndpoints : m'.udpEndpoints = m.udpEndpoints
  seqNum : m'.seqNum = m.seqNum
  objects : ∀ ptr, m'.objects.lookup ptr = m.objects.lookup ptr ∨
    m'.objects.lookup ptr =
      (m.objects.lookup ptr).map fun s => { s with needsFullSnapshot := false }

theorem Cleared.refl (m : BoostNetworkManager) : Cleared m m :=
  ⟨rfl, rfl, rfl, fun _ => Or.inl rfl⟩

theorem Cleared.setNeedsFullSnapshot {m m' : BoostNetworkManager} (h : Cleared m m')
    (playerId : PlayerId) : Cleared m (m'.setNeedsFullSnapshot playerId false) := by
  unfold BoostNetworkManager.setNeedsFullSnapshot
  cases m'.sessions.lookup playerId with
  | none => exact h
  | some ptr =>
    refine ⟨h.sessions, h.udpEndpoints, h.seqNum, fun ptr' => ?_⟩
    show (modify ptr _ m'.objects).lookup ptr' = _ ∨ (modify ptr _ m'.objects).lookup ptr' = _
    rw [lookup_modify]
    by_cases hptr : ptr' = ptr
    · rw [if_pos hptr]
      right
      rcases h.objects ptr' with heq | heq
      · rw [heq]
      · rw [heq, Option.map_map]
        rfl
    · rw [if_neg hptr]
      exact h.objects ptr'

/-- The session of a player, if there is one, does not wait for a snapshot. -/
def Served (playerId : PlayerId) (m : BoostNetworkManager) : Prop :=
  ∀ session, m.sessionOf playerId = some session → session.needsFullSnapshot = false

theorem Served.setNeedsFullSnapshot {m : BoostNetworkManager} {playerId id : PlayerId}
    (h : id = playerId ∨ Served playerId m) :
    Served playerId (m.setNeedsFullSnapshot id false) := by
  intro session hsession
  unfold BoostNetworkManager.setNeedsFullSnapshot at hsession
  cases hid : m.sessions.lookup id with
  | none =>
    rw [hid] at hsession
    rcases h with rfl | h
    · rw [sessionOf, hid] at hsession
      cases hsession
    · exact h session hsession
  | some ptr =>
    rw [hid] at hsession
    obtain ⟨ptr', hptr', hlookup⟩ := Option.bind_eq_some_iff.mp hsession
    rw [lookup_modify] at hlookup
    split_ifs at hlookup with heq
    · obtain ⟨before, -, rfl⟩ := Option.map_eq_some_iff.mp hlookup
      rfl
    · rcases h with rfl | h
      · rw [hid] at hptr'
        exact absurd (Option.some.inj hptr').symm heq
      · exact h session (Option.bind_eq_some_iff.mpr ⟨ptr', hptr', hlookup⟩)

/-- **What a broadcast leaves**: it clears flags, and leaves nobody with an address
waiting. -/
theorem cleared_doUdpBroadcast (order : Traversal PlayerId)
    (provider : Option (UInt32 → List UInt8)) (m : BoostNetworkManager)
    (deltaData : List UInt8) (seqNum : UInt32) :
    Cleared m (m.doUdpBroadcast order provider deltaData seqNum).1 := by
  refine foldl_invariant' (I := fun acc : BoostNetworkManager × List Transmission => Cleared m acc.1)
    (fun acc info h => ?_) (Cleared.refl m)
  unfold serve
  split_ifs
  · exact h.setNeedsFullSnapshot info.id
  · exact h

/-- Whoever waits for a snapshot when the loop comes by is served by it. -/
theorem served_foldl_serve (fullData deltaData : List UInt8) {playerId : PlayerId}
    (infos : List SessionInfo) (acc : BoostNetworkManager × List Transmission)
    (h : Served playerId acc.1 ∨ ∃ info ∈ infos, info.id = playerId ∧ info.needsFull = true) :
    Served playerId (infos.foldl (serve fullData deltaData) acc).1 := by
  induction infos generalizing acc with
  | nil =>
    rcases h with h | ⟨info, hinfo, -⟩
    · exact h
    · exact absurd hinfo List.not_mem_nil
  | cons info infos ih =>
    refine ih _ ?_
    unfold serve
    by_cases hneeds : info.needsFull = true
    · rw [if_pos hneeds]
      rcases h with h | ⟨info', hinfo', hid, htrue⟩
      · exact Or.inl (Served.setNeedsFullSnapshot (Or.inr h))
      · rcases List.mem_cons.mp hinfo' with rfl | hinfo'
        · exact Or.inl (Served.setNeedsFullSnapshot (Or.inl hid))
        · exact Or.inr ⟨info', hinfo', hid, htrue⟩
    · rw [if_neg hneeds]
      rcases h with h | ⟨info', hinfo', hid, htrue⟩
      · exact Or.inl h
      · rcases List.mem_cons.mp hinfo' with rfl | hinfo'
        · exact absurd htrue hneeds
        · exact Or.inr ⟨info', hinfo', hid, htrue⟩

theorem served_doUdpBroadcast (order : Traversal PlayerId)
    (provider : Option (UInt32 → List UInt8)) {m : BoostNetworkManager}
    (deltaData : List UInt8) (seqNum : UInt32) {playerId : PlayerId} {ep : Endpoint}
    (hep : m.udpEndpoints.lookup playerId = some ep) :
    Served playerId (m.doUdpBroadcast order provider deltaData seqNum).1 := by
  refine served_foldl_serve _ _ _ _ ?_
  by_cases hserved : Served playerId m
  · exact Or.inl hserved
  · right
    rw [Served, not_forall] at hserved
    obtain ⟨session, hserved⟩ := hserved
    obtain ⟨hsession, hneeds⟩ := Classical.not_imp.mp hserved
    obtain ⟨ptr, hptr, -⟩ := Option.bind_eq_some_iff.mp hsession
    refine ⟨⟨playerId, ep, true⟩, mem_sessionInfos.mpr ⟨Finmap.mem_iff.mpr ⟨ptr, hptr⟩, hep, ?_⟩,
      rfl, rfl⟩
    rw [hsession]
    exact Bool.not_eq_false _ ▸ hneeds

/-- What `serve` sends to one session. -/
def transmissionTo (fullData deltaData : List UInt8) (info : SessionInfo) : Transmission where
  id := info.id
  ep := info.ep
  full := info.needsFull
  datagrams := (sendPayloadTo (if info.needsFull then fullData else deltaData)).getD []

/-- **What a broadcast sends**: one transmission to each session, in the order of
the registry. -/
theorem transmissions_doUdpBroadcast (order : Traversal PlayerId)
    (provider : UInt32 → List UInt8) (m : BoostNetworkManager) (deltaData : List UInt8)
    (seqNum : UInt32) :
    (m.doUdpBroadcast order (some provider) deltaData seqNum).2 =
      (m.sessionInfos order).map (transmissionTo (provider seqNum) deltaData) := by
  have hstep : ∀ (acc : BoostNetworkManager × List Transmission) (info : SessionInfo),
      (serve (provider seqNum) deltaData acc info).2 =
        acc.2 ++ [transmissionTo (provider seqNum) deltaData info] := by
    intro acc info
    unfold serve transmissionTo
    cases info.needsFull <;> rfl
  rw [List.map_eq_flatMap]
  exact foldl_appends (r := Prod.snd) hstep (m, []) (m.sessionInfos order)

end BoostNetworkManager
end Multilife

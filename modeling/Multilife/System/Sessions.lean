import Multilife.System.Execution

/-!
# The sessions of players

A registry names the session of a player, but nothing in the code keeps it from
naming the wrong one: that it does not is an invariant of the runs
(`run_consistent`).  A player stays registered as long as nobody disturbs its
session (`step_registered`): no second handshake under its id, no end of its
connection, no request for a resync.  A broadcast then sends it exactly one
transmission, the snapshot first and deltas from then on
(`registered_doUdpBroadcast`, `filter_sent`).
-/

namespace Multilife

open FiniteMap LittleEndian Transition proto

namespace BoostNetworkManager

/-- Every registered session is an object of its player that has had its handshake. -/
def Consistent (m : BoostNetworkManager) : Prop :=
  ∀ id ptr, m.sessions.lookup id = some ptr →
    ∃ session, m.objects.lookup ptr = some session ∧ session.playerId = id ∧
      session.pending ≠ .handshake

/-- The player has an address and a session, which waits for a snapshot or not. -/
structure Registered (playerId : PlayerId) (needs : Bool) (m : BoostNetworkManager) : Prop where
  session : ∃ session, m.sessionOf playerId = some session ∧ session.needsFullSnapshot = needs
  endpoint : ∃ ep, m.udpEndpoints.lookup playerId = some ep

theorem Registered.needs_unique {m : BoostNetworkManager} {playerId : PlayerId}
    {needs needs' : Bool} (h : m.Registered playerId needs)
    (h' : m.Registered playerId needs') : needs = needs' := by
  obtain ⟨session, hsession, rfl⟩ := h.session
  obtain ⟨session', hsession', rfl⟩ := h'.session
  rw [hsession] at hsession'
  cases hsession'
  rfl

theorem consistent_empty : Consistent {} := by
  intro id ptr h
  cases h

/-! ## Replacing one object -/

/-- Writing an object that is not registered, or is the same session, keeps the
registry consistent. -/
theorem Consistent.insert_object {m : BoostNetworkManager} (h : m.Consistent)
    {self : SessionPtr} {session : Session}
    (hself : ∀ id, m.sessions.lookup id = some self →
      session.playerId = id ∧ session.pending ≠ .handshake) :
    Consistent { m with objects := m.objects.insert self session } := by
  intro id ptr hptr
  show ∃ s, (m.objects.insert self session).lookup ptr = some s ∧ _
  by_cases heq : ptr = self
  · subst heq
    obtain ⟨hid, hpending⟩ := hself id hptr
    exact ⟨session, Finmap.lookup_insert _, hid, hpending⟩
  · rw [Finmap.lookup_insert_of_ne _ heq]
    exact h id ptr hptr

/-- Writing an object that is not the player's leaves the player registered. -/
theorem Registered.insert_object {m : BoostNetworkManager} {playerId : PlayerId} {needs : Bool}
    (h : m.Registered playerId needs) {self : SessionPtr} {session : Session}
    (hself : m.sessions.lookup playerId ≠ some self) :
    Registered playerId needs { m with objects := m.objects.insert self session } := by
  obtain ⟨⟨found, hfound, hneeds⟩, hep⟩ := h
  obtain ⟨ptr, hptr, hlookup⟩ := Option.bind_eq_some_iff.mp hfound
  have hne : ptr ≠ self := fun heq => hself (heq ▸ hptr)
  refine ⟨⟨found, Option.bind_eq_some_iff.mpr ⟨ptr, hptr, ?_⟩, hneeds⟩, hep⟩
  rw [← hlookup]
  exact Finmap.lookup_insert_of_ne _ hne

/-- An object that waits for its handshake is not registered. -/
theorem Consistent.not_registered {m : BoostNetworkManager} (h : m.Consistent)
    {self : SessionPtr} {session : Session} (hself : m.objects.lookup self = some session)
    (hpending : session.pending = .handshake) (id : PlayerId) :
    m.sessions.lookup id ≠ some self := by
  intro hid
  obtain ⟨found, hfound, -, hnot⟩ := h id self hid
  rw [hself] at hfound
  cases hfound
  exact hnot hpending

/-! ## Connections -/

theorem consistent_accept {m : BoostNetworkManager} (h : m.Consistent) {self : SessionPtr}
    (hself : self ∉ m.objects) (socket : Endpoint) : (m.accept self socket).Consistent := by
  refine h.insert_object fun id hid => ?_
  obtain ⟨session, hsession, -⟩ := h id self hid
  exact absurd (Finmap.mem_iff.mpr ⟨session, hsession⟩) hself

theorem registered_accept {m : BoostNetworkManager} (hm : m.Consistent) {playerId : PlayerId}
    {needs : Bool} (h : m.Registered playerId needs) {self : SessionPtr}
    (hself : self ∉ m.objects) (socket : Endpoint) :
    (m.accept self socket).Registered playerId needs := by
  refine h.insert_object fun hid => ?_
  obtain ⟨session, hsession, -⟩ := hm playerId self hid
  exact hself (Finmap.mem_iff.mpr ⟨session, hsession⟩)

theorem consistent_start {m : BoostNetworkManager} (h : m.Consistent) {self : SessionPtr}
    {session : Session} (hself : m.objects.lookup self = some session)
    (hpending : session.pending = .handshake) (buf : List UInt8) :
    (m.start self session buf).1.Consistent := by
  have hnot := h.not_registered hself hpending
  rw [start]
  dsimp only
  split_ifs with hmagic
  · exact h.insert_object fun id hid => absurd hid (hnot id)
  · intro id ptr hptr
    show ∃ s, (m.objects.insert self _).lookup ptr = some s ∧ _
    replace hptr : (m.sessions.insert (readLE UInt64 buf 4) self).lookup id = some ptr := hptr
    by_cases hid : id = readLE UInt64 buf 4
    · rw [hid, Finmap.lookup_insert] at hptr
      cases hptr
      exact ⟨_, Finmap.lookup_insert _, hid.symm, PendingRead.noConfusion⟩
    · rw [Finmap.lookup_insert_of_ne _ hid] at hptr
      have hne : ptr ≠ self := fun heq => hnot id (heq ▸ hptr)
      rw [Finmap.lookup_insert_of_ne _ hne]
      exact h id ptr hptr

/-- A handshake under another id leaves the player registered. -/
theorem registered_start {m : BoostNetworkManager} (hm : m.Consistent) {playerId : PlayerId}
    {needs : Bool} (h : m.Registered playerId needs) {self : SessionPtr} {session : Session}
    (hself : m.objects.lookup self = some session) (hpending : session.pending = .handshake)
    {buf : List UInt8}
    (hother : readLE UInt32 buf 0 = kMagic → readLE UInt64 buf 4 ≠ playerId) :
    (m.start self session buf).1.Registered playerId needs := by
  have hnot := hm.not_registered hself hpending playerId
  rw [start]
  dsimp only
  split_ifs with hmagic
  · exact h.insert_object hnot
  · have hne := (hother (not_not.mp hmagic)).symm
    obtain ⟨⟨found, hfound, hneeds⟩, ep, hep⟩ := h
    obtain ⟨ptr, hptr, hlookup⟩ := Option.bind_eq_some_iff.mp hfound
    refine ⟨⟨found, Option.bind_eq_some_iff.mpr ⟨ptr, ?_, ?_⟩, hneeds⟩, ep, ?_⟩
    · exact (Finmap.lookup_insert_of_ne _ hne).trans hptr
    · have hptrne : ptr ≠ self := fun heq => hnot (heq ▸ hptr)
      exact (Finmap.lookup_insert_of_ne _ hptrne).trans hlookup
    · exact (Finmap.lookup_insert_of_ne _ hne).trans hep

/-- **A handshake registers its player**, who needs a snapshot. -/
theorem registered_of_start (m : BoostNetworkManager) (self : SessionPtr) (session : Session)
    {buf : List UInt8} (hmagic : readLE UInt32 buf 0 = kMagic) :
    (m.start self session buf).1.Registered (readLE UInt64 buf 4) true := by
  rw [start]
  dsimp only
  rw [if_neg (not_not.mpr hmagic)]
  exact ⟨⟨_, Option.bind_eq_some_iff.mpr ⟨self, Finmap.lookup_insert _, Finmap.lookup_insert _⟩,
    by rfl⟩, session.socket, Finmap.lookup_insert _⟩

theorem consistent_setNeedsFullSnapshot {m : BoostNetworkManager} (h : m.Consistent)
    (id : PlayerId) (value : Bool) : (m.setNeedsFullSnapshot id value).Consistent := by
  unfold setNeedsFullSnapshot
  cases m.sessions.lookup id with
  | none => exact h
  | some changed =>
    intro id' ptr hptr
    obtain ⟨session, hsession, hid, hpending⟩ := h id' ptr hptr
    show ∃ s, (modify changed _ m.objects).lookup ptr = some s ∧ _
    rw [lookup_modify, hsession]
    split_ifs
    · exact ⟨_, rfl, hid, hpending⟩
    · exact ⟨session, rfl, hid, hpending⟩

/-- Another player's flag is another object's flag. -/
theorem registered_setNeedsFullSnapshot {m : BoostNetworkManager} (hm : m.Consistent)
    {playerId : PlayerId} {needs : Bool} (h : m.Registered playerId needs) {id : PlayerId}
    (hid : id ≠ playerId) (value : Bool) :
    (m.setNeedsFullSnapshot id value).Registered playerId needs := by
  unfold setNeedsFullSnapshot
  cases hchanged : m.sessions.lookup id with
  | none => exact h
  | some changed =>
    obtain ⟨⟨found, hfound, hneeds⟩, hep⟩ := h
    obtain ⟨ptr, hptr, hlookup⟩ := Option.bind_eq_some_iff.mp hfound
    have hne : ptr ≠ changed := by
      rintro rfl
      obtain ⟨session, hsession, hplayer, -⟩ := hm _ _ hptr
      obtain ⟨session', hsession', hplayer', -⟩ := hm _ _ hchanged
      rw [hsession] at hsession'
      cases hsession'
      exact hid (hplayer'.symm.trans hplayer)
    refine ⟨⟨found, Option.bind_eq_some_iff.mpr ⟨ptr, hptr, ?_⟩, hneeds⟩, hep⟩
    show (modify changed _ m.objects).lookup ptr = some found
    rw [lookup_modify, if_neg hne]
    exact hlookup

theorem consistent_readError {m : BoostNetworkManager} (h : m.Consistent) {self : SessionPtr}
    {session : Session} (hself : m.objects.lookup self = some session) :
    (m.readError self session).Consistent := by
  have hsame : ∀ id, m.sessions.lookup id = some self → session.playerId = id := by
    intro id hid
    obtain ⟨found, hfound, hplayer, -⟩ := h id self hid
    rw [hself] at hfound
    cases hfound
    exact hplayer
  rw [readError]
  split_ifs
  · have herased : (m.removeSession session.playerId).Consistent := by
      intro id ptr hptr
      replace hptr : (m.sessions.erase session.playerId).lookup id = some ptr := hptr
      by_cases hid : id = session.playerId
      · rw [hid, Finmap.lookup_erase] at hptr
        cases hptr
      · rw [Finmap.lookup_erase_ne hid] at hptr
        exact h id ptr hptr
    refine herased.insert_object fun id hid => ⟨?_, PendingRead.noConfusion⟩
    by_cases heq : id = session.playerId
    · exact heq.symm
    · exact hsame id ((Finmap.lookup_erase_ne heq).symm.trans hid)
  · exact h.insert_object fun id hid => ⟨hsame id hid, PendingRead.noConfusion⟩

/-- The end of another player's session leaves the player registered. -/
theorem registered_readError {m : BoostNetworkManager} (hm : m.Consistent) {playerId : PlayerId}
    {needs : Bool} (h : m.Registered playerId needs) {self : SessionPtr} {session : Session}
    (hself : m.objects.lookup self = some session) (hpending : session.pending ≠ .none)
    (hother : session.pending = .message → session.playerId ≠ playerId) :
    (m.readError self session).Registered playerId needs := by
  have hnot : m.sessions.lookup playerId ≠ some self := by
    intro hid
    obtain ⟨found, hfound, hplayer, hshaken⟩ := hm playerId self hid
    rw [hself] at hfound
    cases hfound
    cases hread : session.pending with
    | handshake => exact hshaken hread
    | message => exact hother hread hplayer
    | none => exact hpending hread
  rw [readError]
  split_ifs with hread
  · have hne := (hother hread).symm
    have herased : (m.removeSession session.playerId).Registered playerId needs := by
      obtain ⟨⟨found, hfound, hneeds⟩, ep, hep⟩ := h
      obtain ⟨ptr, hptr, hlookup⟩ := Option.bind_eq_some_iff.mp hfound
      refine ⟨⟨found, Option.bind_eq_some_iff.mpr ⟨ptr, ?_, hlookup⟩, hneeds⟩, ep, ?_⟩
      · exact (Finmap.lookup_erase_ne hne).trans hptr
      · exact (Finmap.lookup_erase_ne hne).trans hep
    refine herased.insert_object fun hid => hnot ?_
    exact (Finmap.lookup_erase_ne hne).symm.trans hid
  · exact h.insert_object hnot

/-! ## Broadcasts -/

theorem Cleared.consistent {m m' : BoostNetworkManager} (hcleared : Cleared m m')
    (h : m.Consistent) : m'.Consistent := by
  intro id ptr hptr
  rw [hcleared.sessions] at hptr
  obtain ⟨session, hsession, hid, hpending⟩ := h id ptr hptr
  rcases hcleared.objects ptr with heq | heq
  · exact ⟨session, heq.trans hsession, hid, hpending⟩
  · rw [hsession] at heq
    exact ⟨_, heq, hid, hpending⟩

/-- **A broadcast serves a registered player.** -/
theorem registered_doUdpBroadcast (order : Traversal PlayerId)
    (provider : Option (UInt32 → List UInt8)) {m : BoostNetworkManager} {playerId : PlayerId}
    {needs : Bool} (h : m.Registered playerId needs) (deltaData : List UInt8)
    (seqNum : UInt32) :
    (m.doUdpBroadcast order provider deltaData seqNum).1.Registered playerId false := by
  obtain ⟨⟨found, hfound, -⟩, ep, hep⟩ := h
  obtain ⟨ptr, hptr, hlookup⟩ := Option.bind_eq_some_iff.mp hfound
  have hcleared := cleared_doUdpBroadcast order provider m deltaData seqNum
  have hserved := served_doUdpBroadcast order provider deltaData seqNum hep
  have hafter : ∃ session,
      (m.doUdpBroadcast order provider deltaData seqNum).1.sessionOf playerId = some session := by
    rw [sessionOf, hcleared.sessions, hptr]
    show ∃ session, (m.doUdpBroadcast order provider deltaData seqNum).1.objects.lookup ptr = _
    rcases hcleared.objects ptr with heq | heq
    · exact ⟨found, heq.trans hlookup⟩
    · rw [hlookup] at heq
      exact ⟨_, heq⟩
  obtain ⟨session, hsession⟩ := hafter
  exact ⟨⟨session, hsession, hserved session hsession⟩, ep, by rw [hcleared.udpEndpoints, hep]⟩

/-- **What a broadcast sends to a registered player**: one transmission. -/
theorem filter_transmissions (order : Traversal PlayerId) (provider : UInt32 → List UInt8)
    {m : BoostNetworkManager} {playerId : PlayerId} {needs : Bool}
    (h : m.Registered playerId needs) (deltaData : List UInt8) (seqNum : UInt32) :
    ∃ ep, (m.doUdpBroadcast order (some provider) deltaData seqNum).2.filter
        (fun t => t.id = playerId) =
      [transmissionTo (provider seqNum) deltaData ⟨playerId, ep, needs⟩] := by
  obtain ⟨⟨found, hfound, rfl⟩, ep, hep⟩ := h
  refine ⟨ep, ?_⟩
  rw [transmissions_doUdpBroadcast, List.filter_map]
  show List.map _ ((m.sessionInfos order).filter fun info => info.id = playerId) = _
  rw [filter_sessionInfos order hfound hep]
  rfl

end BoostNetworkManager

namespace State

open BoostNetworkManager

/-! ## Along a run -/

/-- The turn does not concern the session of the player: no handshake under its id,
no end of a session of its, and no request for a resync. -/
def Undisturbed (playerId : PlayerId) (s : State) : Label → Prop
  | .handshake _ buf => readLE UInt32 buf 0 = kMagic → readLE UInt64 buf 4 ≠ playerId
  | .message self .resync =>
    ∀ session, s.network.objects.lookup self = some session → session.playerId ≠ playerId
  | .readError self =>
    ∀ session, s.network.objects.lookup self = some session → session.pending = .message →
      session.playerId ≠ playerId
  | _ => True

/-- What was sent to a player. -/
def sentTo (playerId : PlayerId) (s : State) : List Sent :=
  s.sent.filter fun r => r.transmission.id = playerId

variable {s s' : State} {l : Label} {playerId : PlayerId} {needs : Bool}

/-- **Registries stay consistent.** -/
theorem step_consistent (hm : s.network.Consistent) (h : s.step l = some s') :
    s'.network.Consistent := by
  cases turn_of_step h with
  | startTick sched hphase => exact hm
  | refreshFullSnapshotCache order counts hphase => exact hm
  | serializeDelta order counts hphase => exact hm
  | skipBroadcast counts hphase => exact hm
  | postBroadcast counts update hphase hne => exact hm
  | broadcastServerStats order counts jobs hphase hjobs => exact hm
  | handleStats order payload jobs hjobs => exact hm
  | handleBroadcast order payload seq tick quiet jobs hjobs =>
    exact (cleared_doUdpBroadcast order _ s.network payload seq).consistent hm
  | onConnection l s' hl hsame hstep =>
    have hnetwork := networkTurn_of_step hl hstep
    generalize s'.network = m' at hnetwork ⊢
    cases hnetwork with
    | accept self socket hself => exact consistent_accept hm hself socket
    | handshake self buf session hself hpending => exact consistent_start hm hself hpending buf
    | resync self session hself hpending =>
      exact consistent_setNeedsFullSnapshot hm session.playerId true
    | otherMessage self msg hmsg => exact hm
    | readError self session hself hpending => exact consistent_readError hm hself

theorem run_consistent {ls : List Label} (h : run step {} ls = some s) :
    s.network.Consistent :=
  run_invariant' (I := fun s : State => s.network.Consistent)
    (fun _ _ _ hm hstep => step_consistent hm hstep) consistent_empty h

/-- **An undisturbed player stays registered**, when connections are concerned. -/
theorem step_registered (hm : s.network.Consistent) (hreg : s.network.Registered playerId needs)
    (hu : s.Undisturbed playerId l) (hl : OnConnection l) (h : s.step l = some s') :
    s'.network.Registered playerId needs := by
  have hnetwork := networkTurn_of_step hl h
  generalize s'.network = m' at hnetwork ⊢
  cases hnetwork with
  | accept self socket hself => exact registered_accept hm hreg hself socket
  | handshake self buf session hself hpending => exact registered_start hm hreg hself hpending hu
  | resync self session hself hpending =>
    exact registered_setNeedsFullSnapshot hm hreg (hu session hself) true
  | otherMessage self msg hmsg => exact hreg
  | readError self session hself hpending =>
    exact registered_readError hm hreg hself hpending (hu session hself)

/-- **What a handled broadcast adds** to what was sent to a registered player. -/
theorem filter_sent (order : Traversal PlayerId)
    (hreg : s.network.Registered playerId needs) (payload : List UInt8) (seq : UInt32)
    (tick quiet : ℕ) :
    ∃ ep, (s.sent ++ (s.network.doUdpBroadcast order (some s.server.getFullSnapshotForSeq)
        payload seq).2.map fun t => (⟨tick, quiet, payload, t⟩ : Sent)).filter
          (fun r => r.transmission.id = playerId) =
      s.sentTo playerId ++
        [⟨tick, quiet, payload, transmissionTo (s.server.getFullSnapshotForSeq seq) payload
          ⟨playerId, ep, needs⟩⟩] := by
  obtain ⟨ep, htransmissions⟩ :=
    filter_transmissions order s.server.getFullSnapshotForSeq hreg payload seq
  refine ⟨ep, ?_⟩
  rw [List.filter_append, sentTo, List.filter_map]
  show _ ++ List.map _ (List.filter (fun t : Transmission => decide (t.id = playerId)) _) = _
  rw [htransmissions, List.map_singleton]

/-! ## Connecting and sending -/

/-- The handshake of a player. -/
def handshakeOf (playerId : PlayerId) : List UInt8 := writeLE kMagic ++ writeLE playerId

theorem magic_handshakeOf (playerId : PlayerId) :
    readLE UInt32 (handshakeOf playerId) 0 = kMagic := by
  refine readLE_of_eq [] (writeLE playerId) ?_ List.length_nil
  rw [List.nil_append, handshakeOf]

theorem id_handshakeOf (playerId : PlayerId) :
    readLE UInt64 (handshakeOf playerId) 4 = playerId := by
  refine readLE_of_eq (writeLE kMagic) [] ?_ ?_
  · rw [List.append_nil, handshakeOf]
  · rw [length_writeLE]
    rfl

/-- A player connects. -/
def connect (self : SessionPtr) (socket : Endpoint) (playerId : PlayerId) : List Label :=
  [.accept self socket, .handshake self (handshakeOf playerId)]

/-- The network once the player has connected. -/
def connected (self : SessionPtr) (socket : Endpoint) (playerId : PlayerId)
    (m : BoostNetworkManager) : BoostNetworkManager :=
  ((m.accept self socket).start self { socket := socket } (handshakeOf playerId)).1

theorem registered_connected (self : SessionPtr) (socket : Endpoint) (playerId : PlayerId)
    (m : BoostNetworkManager) : (connected self socket playerId m).Registered playerId true := by
  have h := registered_of_start (m.accept self socket) self { socket := socket }
    (magic_handshakeOf playerId)
  rw [id_handshakeOf] at h
  exact h

/-- **The session code admits every id.** -/
theorem start_handshakeOf (m : BoostNetworkManager) (self : SessionPtr) (session : Session)
    (playerId : PlayerId) : (m.start self session (handshakeOf playerId)).2 = some playerId := by
  rw [start, magic_handshakeOf, id_handshakeOf, if_neg (not_not.mpr rfl)]

theorem sessionReading_accepted (self : SessionPtr) (socket : Endpoint) (s : State) :
    sessionReading .handshake self { s with network := s.network.accept self socket } =
      some { socket := socket } := by
  rw [sessionReading, BoostNetworkManager.accept]
  dsimp only
  rw [Finmap.lookup_insert]
  rfl

theorem step_accept {self : SessionPtr} (hself : self ∉ s.network.objects) (socket : Endpoint) :
    step s (.accept self socket) = some { s with network := s.network.accept self socket } := by
  rw [step, accept, if_neg hself]

theorem run_connect (self : SessionPtr) (hself : self ∉ s.network.objects) (socket : Endpoint)
    (playerId : PlayerId) :
    run step s (connect self socket playerId) =
      some
        { s with
          network := connected self socket playerId s.network
          server :=
            { s.server with
              resourceManager := s.server.resourceManager.addPlayer playerId } } := by
  have hadded := start_handshakeOf (s.network.accept self socket) self { socket := socket } playerId
  rw [connect, run, step_accept hself, Option.bind_some, run, step, handshake,
    sessionReading_accepted, Option.map_some, Option.bind_some, run, connected]
  revert hadded
  cases (s.network.accept self socket).start self { socket := socket } (handshakeOf playerId) with
  | mk network added =>
    rintro rfl
    rfl

/-- The session reads messages of the player. -/
def Reading (self : SessionPtr) (playerId : PlayerId) (m : BoostNetworkManager) : Prop :=
  ∃ session, m.objects.lookup self = some session ∧ session.playerId = playerId ∧
    session.pending = .message

theorem reading_connected (self : SessionPtr) (socket : Endpoint) (playerId : PlayerId)
    (m : BoostNetworkManager) : Reading self playerId (connected self socket playerId m) := by
  rw [connected, start, magic_handshakeOf, id_handshakeOf, if_neg (not_not.mpr rfl)]
  exact ⟨_, Finmap.lookup_insert _, rfl, rfl⟩

theorem Reading.of_cleared {self : SessionPtr} {m m' : BoostNetworkManager}
    (h : Reading self playerId m) (hcleared : Cleared m m') : Reading self playerId m' := by
  obtain ⟨session, hsession, hid, hpending⟩ := h
  rcases hcleared.objects self with heq | heq
  · exact ⟨session, heq.trans hsession, hid, hpending⟩
  · rw [hsession] at heq
    exact ⟨_, heq, hid, hpending⟩

/-- A command of its player is queued. -/
theorem run_send {self : SessionPtr} (h : Reading self playerId s.network) (type : CommandType)
    (x y : Int64) :
    run step s [.message self (.command type playerId x y)] =
      some
        { s with
          server := s.server.onCommandsFromNetwork [⟨playerId, type, x, y⟩] } := by
  obtain ⟨session, hsession, rfl, hpending⟩ := h
  have hreading : s.sessionReading .message self = some session := by
    rw [sessionReading, hsession]
    exact if_pos hpending
  rw [run, step, message, hreading, Option.map_some, Option.bind_some, run, readNextMessage]
  dsimp only
  rw [if_neg (not_not.mpr rfl)]

end State
end Multilife

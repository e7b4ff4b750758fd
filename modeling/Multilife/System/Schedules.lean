import Multilife.Refinement.UdpFraming
import Multilife.System.Ledger
import Multilife.System.Sessions

/-!
# What the hash containers decide

Chunks, balances and sessions are kept in hash containers, and the tasks of a tick are
taken by whatever worker comes first.  Every loop of the model takes its order as an
argument; here these orders are shown to decide next to nothing.

* `simulate_order`, `stepWorld_order`: world, ledger and counters after a tick are the
  same, down to the buffers, the ghost cells and the dirty lists.
* `SamePackets`: the payloads of two ticks are made of the same packets.
* `run_schedules`: two runs with the same labels, except for the orders in them, go
  through states that agree on everything but the order of packets in a payload and of
  datagrams in a transmission.
-/

namespace Multilife

open Chunk FiniteMap Tally Transition

/-! ## The tick -/

namespace World

theorem ext_tryGetChunk {w w' : World} (h : ∀ c, w.tryGetChunk c = w'.tryGetChunk c) : w = w' := by
  rcases w with ⟨chunks⟩
  rcases w' with ⟨chunks'⟩
  rw [show chunks = chunks' from Finmap.ext_lookup h]

/-- The margin is the same set of chunks, whichever chunk asks first. -/
theorem ensureSimulationMarginUnlocked_order (order order' : Traversal ChunkCoord) (w : World) :
    w.ensureSimulationMarginUnlocked order = w.ensureSimulationMarginUnlocked order' := by
  refine ext_tryGetChunk fun c => ?_
  rcases tryGetChunk_ensureSimulationMargin order w c with h | ⟨hnone, hmargin, h⟩
  · rcases tryGetChunk_ensureSimulationMargin order' w c with h' | ⟨hnone, hmargin, -⟩
    · rw [h, h']
    · obtain ⟨chunk, hchunk⟩ := mem_chunks_iff.mp (mem_margin_of_onMargin order hmargin)
      rw [hchunk, hnone] at h
      cases h
  · rcases tryGetChunk_ensureSimulationMargin order' w c with h' | ⟨-, -, h'⟩
    · obtain ⟨chunk, hchunk⟩ := mem_chunks_iff.mp (mem_margin_of_onMargin order' hmargin)
      rw [hchunk, hnone] at h'
      cases h'
    · rw [h, h']

/-- **The simulation step does not depend on its schedule.** -/
theorem simulate_order (sched sched' : TickSchedule) (w : World) :
    w.simulate sched = w.simulate sched' := by
  refine ext_tryGetChunk fun c => ?_
  rw [tryGetChunk_simulate, tryGetChunk_simulate, tryGetChunk_exchangeBorders,
    tryGetChunk_exchangeBorders, ensureSimulationMarginUnlocked_order sched.margin sched'.margin]

theorem totalCounts_order (sched sched' : TickSchedule) (w : World) :
    w.totalCounts sched = w.totalCounts sched' :=
  ext_total (fun id => (w.mem_totalCounts sched id).trans (w.mem_totalCounts sched' id).symm)
    fun id => (w.total_totalCounts sched id).trans (w.total_totalCounts sched' id).symm

/-- The chunks are listed in some order. -/
theorem allChunksWithCoords_perm (order order' : Traversal ChunkCoord) (w : World) :
    (w.allChunksWithCoords order).Perm (w.allChunksWithCoords order') :=
  (order.perm order' w.chunks.keys).filterMap _

end World

theorem ResourceManager.awardFromLiveCounts_order (order order' : Traversal PlayerId)
    (r : ResourceManager) (counts : Finmap fun _ : PlayerId => UInt64) :
    r.awardFromLiveCounts order counts = r.awardFromLiveCounts order' counts := by
  have hbalances : (r.awardFromLiveCounts order counts).balances =
      (r.awardFromLiveCounts order' counts).balances :=
    ext_total
      (fun id => (r.mem_awardFromLiveCounts order counts id).trans
        (r.mem_awardFromLiveCounts order' counts id).symm)
      fun id => (r.getBalance_awardFromLiveCounts order counts id).trans
        (r.getBalance_awardFromLiveCounts order' counts id).symm
  exact congrArg ResourceManager.mk hbalances

/-- **A tick of the server does not depend on its schedule.** -/
theorem GameServer.stepWorld_order (sched sched' : TickSchedule) (g : GameServer) :
    g.stepWorld sched = g.stepWorld sched' := by
  have hcommands : g.afterCommands sched = g.afterCommands sched' := by
    rw [afterCommands, afterCommands, World.simulate_order sched sched']
  rw [stepWorld_eq, stepWorld_eq, hcommands, World.totalCounts_order sched sched',
    ResourceManager.awardFromLiveCounts_order sched.award sched'.award]

/-- **The statistics do not depend on it either**: they are sorted. -/
theorem serializeServerStats_order (order order' : Traversal PlayerId) (generation : UInt32)
    (r : ResourceManager) (counts : Finmap fun _ : PlayerId => UInt64) :
    serializeServerStats order generation r counts =
      serializeServerStats order' generation r counts := by
  have hsorted : (r.getPlayerIds order).mergeSort (· ≤ ·) =
      (r.getPlayerIds order').mergeSort (· ≤ ·) := by
    refine List.Perm.eq_of_pairwise ?_ (pairwise_sortedIds order r) (pairwise_sortedIds order' r) ?_
    · exact fun a b _ _ hab hba => absurd hba (lt_asymm hab)
    · exact (List.mergeSort_perm _ _).trans
        ((order.perm order' _).trans (List.mergeSort_perm _ _).symm)
  rw [serializeServerStats, serializeServerStats, hsorted]

/-! ## Payloads -/

/-- The payloads are made of the same packets, possibly in another order. -/
def SamePackets (payload payload' : List UInt8) : Prop :=
  ∃ packets packets' : List Packet, packets.Perm packets' ∧
    payload = Packet.encodeAll packets ∧ payload' = Packet.encodeAll packets'

namespace SamePackets

variable {payload payload' : List UInt8}

theorem nil : SamePackets [] [] := ⟨[], [], List.Perm.nil, rfl, rfl⟩

theorem eq_nil_iff (h : SamePackets payload payload') : payload = [] ↔ payload' = [] := by
  obtain ⟨packets, packets', hperm, rfl, rfl⟩ := h
  rw [encodeAll_eq_nil, encodeAll_eq_nil, ← List.length_eq_zero_iff, hperm.length_eq,
    List.length_eq_zero_iff]

theorem rewriteSnapshotSeqNums (h : SamePackets payload payload') (seqNum : UInt32) :
    SamePackets (Multilife.rewriteSnapshotSeqNums payload seqNum)
      (Multilife.rewriteSnapshotSeqNums payload' seqNum) := by
  obtain ⟨packets, packets', hperm, rfl, rfl⟩ := h
  exact ⟨_, _, hperm.map (Packet.restamp seqNum),
    Packet.rewriteSnapshotSeqNums_encodeAll packets seqNum,
    Packet.rewriteSnapshotSeqNums_encodeAll packets' seqNum⟩

/-- The datagrams are the packets. -/
theorem datagrams (h : SamePackets payload payload') :
    ((sendPayloadTo payload).getD []).Perm ((sendPayloadTo payload').getD []) := by
  obtain ⟨packets, packets', hperm, rfl, rfl⟩ := h
  rw [Packet.sendPayloadTo_encodeAll, Packet.sendPayloadTo_encodeAll]
  exact hperm.map Packet.encode

end SamePackets

/-- Two lists of the same chunks make the same packets. -/
theorem samePackets_packetsOf (seqNum : UInt32) (full : Bool)
    {chunks chunks' : List (ChunkCoord × List Entry)} (h : chunks.Perm chunks') :
    SamePackets (Packet.encodeAll (Packet.packetsOf seqNum full chunks))
      (Packet.encodeAll (Packet.packetsOf seqNum full chunks')) :=
  ⟨_, _, h.flatMap_right _, rfl, rfl⟩

namespace GameServer

variable (order order' : Traversal ChunkCoord) (g : GameServer)

theorem samePackets_serializeDelta :
    SamePackets (g.serializeDelta order).1 (g.serializeDelta order').1 := by
  show SamePackets (WorldSerializer.serializeDelta _ _).1 (WorldSerializer.serializeDelta _ _).1
  rw [payload_serializeDelta, payload_serializeDelta]
  exact samePackets_packetsOf _ _ ((g.world.allChunksWithCoords_perm order order').map _)

theorem serializeDelta_snd_order :
    (g.serializeDelta order).2 = (g.serializeDelta order').2 := by
  have hworld : (g.serializeDelta order).2.world = (g.serializeDelta order').2.world :=
    World.ext_tryGetChunk fun c => by
      rw [tryGetChunk_serializeDelta, tryGetChunk_serializeDelta]
  show { g with world := _ } = { g with world := _ }
  exact congrArg (fun w => { g with world := w }) hworld

theorem samePackets_refreshFullSnapshotCache :
    SamePackets (g.refreshFullSnapshotCache order).cachedFullSnapshot
      (g.refreshFullSnapshotCache order').cachedFullSnapshot := by
  show SamePackets (WorldSerializer.serializeFull _ _) (WorldSerializer.serializeFull _ _)
  rw [payload_serializeFull, payload_serializeFull]
  exact samePackets_packetsOf _ _ ((g.world.allChunksWithCoords_perm order order').map _)

end GameServer

/-! ## The network -/

namespace BoostNetworkManager

variable (m : BoostNetworkManager)

/-- Clearing two flags, in either order. -/
theorem setNeedsFullSnapshot_comm (id id' : PlayerId) :
    (m.setNeedsFullSnapshot id false).setNeedsFullSnapshot id' false =
      (m.setNeedsFullSnapshot id' false).setNeedsFullSnapshot id false := by
  unfold setNeedsFullSnapshot
  cases hid : m.sessions.lookup id with
  | none =>
    cases m.sessions.lookup id' with
    | none => simp only [hid]
    | some ptr' => simp only [hid]
  | some ptr =>
    cases m.sessions.lookup id' with
    | none => simp only [hid]
    | some ptr' =>
      simp only [hid]
      congr 1
      refine Finmap.ext_lookup fun k => ?_
      rw [lookup_modify, lookup_modify, lookup_modify, lookup_modify]
      split_ifs <;> rfl

/-- What serving a list of sessions does to the manager. -/
theorem fst_foldl_serve (fullData deltaData : List UInt8) (infos : List SessionInfo)
    (acc : BoostNetworkManager × List Transmission) :
    (infos.foldl (serve fullData deltaData) acc).1 =
      infos.foldl (fun m info => if info.needsFull then m.setNeedsFullSnapshot info.id false else m)
        acc.1 := by
  induction infos generalizing acc with
  | nil => rfl
  | cons info infos ih =>
    rw [List.foldl_cons, List.foldl_cons, ih]
    congr 1
    unfold serve
    split_ifs <;> rfl

theorem sessionInfos_perm (order order' : Traversal PlayerId) :
    (m.sessionInfos order).Perm (m.sessionInfos order') :=
  (order.perm order' _).filterMap _

/-- A player is listed at most once, so its entry is the same in every order. -/
theorem filter_sessionInfos_order (order order' : Traversal PlayerId) (id : PlayerId) :
    (m.sessionInfos order).filter (fun info => decide (info.id = id)) =
      (m.sessionInfos order').filter fun info => decide (info.id = id) := by
  by_cases hid : id ∈ m.sessions
  · have hlisted : ∀ order : Traversal PlayerId, id ∈ order.order m.sessions.keys :=
      fun order => (order.mem_order _ _).mpr (Finmap.mem_keys.mpr hid)
    exact (filter_filterMap (fun _ _ => id_of_info m) (order.nodup _) (hlisted order)).trans
      (filter_filterMap (fun _ _ => id_of_info m) (order'.nodup _) (hlisted order')).symm
  · have hnone : ∀ order : Traversal PlayerId,
        (m.sessionInfos order).filter (fun info => decide (info.id = id)) = [] := by
      intro order
      rw [List.filter_eq_nil_iff]
      intro info hinfo heq
      exact hid (of_decide_eq_true heq ▸ (mem_sessionInfos.mp hinfo).1)
    rw [hnone, hnone]

/-- **A broadcast leaves the same manager**, whatever is sent. -/
theorem fst_doUdpBroadcast_order (order order' : Traversal PlayerId)
    (provider provider' : UInt32 → List UInt8) (delta delta' : List UInt8) (seqNum : UInt32) :
    (m.doUdpBroadcast order (some provider) delta seqNum).1 =
      (m.doUdpBroadcast order' (some provider') delta' seqNum).1 := by
  unfold doUdpBroadcast
  rw [fst_foldl_serve, fst_foldl_serve]
  refine (m.sessionInfos_perm order order').foldl_eq' (fun info _ info' _ m => ?_) m
  split_ifs
  · exact m.setNeedsFullSnapshot_comm info.id info'.id
  all_goals rfl

end BoostNetworkManager

/-! ## Runs -/

/-- The same turn, possibly with other orders. -/
inductive Label.SameTurn : Label → Label → Prop
  | startTick (sched sched' : TickSchedule) : SameTurn (.startTick sched) (.startTick sched')
  | refreshFullSnapshotCache (order order' : Traversal ChunkCoord) :
      SameTurn (.refreshFullSnapshotCache order) (.refreshFullSnapshotCache order')
  | serializeDelta (order order' : Traversal ChunkCoord) :
      SameTurn (.serializeDelta order) (.serializeDelta order')
  | broadcastWorldUpdate : SameTurn .broadcastWorldUpdate .broadcastWorldUpdate
  | broadcastServerStats (order order' : Traversal PlayerId) :
      SameTurn (.broadcastServerStats order) (.broadcastServerStats order')
  | runHandler (order order' : Traversal PlayerId) :
      SameTurn (.runHandler order) (.runHandler order')
  | onConnection {l : Label} (hl : State.OnConnection l) : SameTurn l l

/-- The same handler, for the same packets. -/
inductive SameJob : Job → Job → Prop
  | worldUpdate {payload payload' : List UInt8} (h : SamePackets payload payload') (seq : UInt32)
      (tick quiet : ℕ) :
      SameJob (.worldUpdate payload seq tick quiet) (.worldUpdate payload' seq tick quiet)
  | serverStats (payload : List UInt8) : SameJob (.serverStats payload) (.serverStats payload)

/-- The same point of the tick, with the same packets. -/
inductive SamePhase : TickPhase → TickPhase → Prop
  | idle : SamePhase .idle .idle
  | simulated (counts : Finmap fun _ : PlayerId => UInt64) :
      SamePhase (.simulated counts) (.simulated counts)
  | cached (counts : Finmap fun _ : PlayerId => UInt64) : SamePhase (.cached counts) (.cached counts)
  | serialized (counts : Finmap fun _ : PlayerId => UInt64) {update update' : List UInt8}
      (h : SamePackets update update') :
      SamePhase (.serialized counts update) (.serialized counts update')
  | announced (counts : Finmap fun _ : PlayerId => UInt64) :
      SamePhase (.announced counts) (.announced counts)

/-- The same transmission, with the datagrams possibly in another order. -/
structure SameSent (a b : Sent) : Prop where
  tick : b.tick = a.tick
  quiet : b.quiet = a.quiet
  delta : SamePackets a.delta b.delta
  id : b.transmission.id = a.transmission.id
  ep : b.transmission.ep = a.transmission.ep
  full : b.transmission.full = a.transmission.full
  datagrams : a.transmission.datagrams.Perm b.transmission.datagrams

namespace State

/-- The states agree on everything but the order of packets and datagrams. -/
structure SameState (s s' : State) : Prop where
  world : s'.server.world = s.server.world
  resourceManager : s'.server.resourceManager = s.server.resourceManager
  commandQueue : s'.server.commandQueue = s.server.commandQueue
  broadcastSeq : s'.server.broadcastSeq = s.server.broadcastSeq
  cachedFullSnapshot : SamePackets s.server.cachedFullSnapshot s'.server.cachedFullSnapshot
  network : s'.network = s.network
  phase : SamePhase s.phase s'.phase
  jobs : List.Forall₂ SameJob s.jobs s'.jobs
  ticks : s'.ticks = s.ticks
  quiet : s'.quiet = s.quiet
  sent : ∀ id, List.Forall₂ SameSent (s.sentTo id) (s'.sentTo id)

variable {s s' t : State}

/-- The servers agree but for the cached snapshot. -/
theorem SameState.server (hs : SameState s s') :
    s'.server = { s.server with cachedFullSnapshot := s'.server.cachedFullSnapshot } := by
  rcases hserver : s'.server with ⟨world, resourceManager, commandQueue, cached, broadcastSeq⟩
  have hworld := hs.world
  have hledger := hs.resourceManager
  have hqueue := hs.commandQueue
  have hseq := hs.broadcastSeq
  rw [hserver] at hworld hledger hqueue hseq
  dsimp only at hworld hledger hqueue hseq
  rw [hworld, hledger, hqueue, hseq]

/-- **What a broadcast sends to one player** is the same but for the order of the
datagrams. -/
theorem sentTo_doUdpBroadcast (order order' : Traversal PlayerId) (m : BoostNetworkManager)
    {full full' delta delta' : List UInt8} (hfull : SamePackets full full')
    (hdelta : SamePackets delta delta') (tick quiet : ℕ) (id : PlayerId) :
    List.Forall₂ SameSent
      (((m.sessionInfos order).map fun info =>
        (⟨tick, quiet, delta, BoostNetworkManager.transmissionTo full delta info⟩ : Sent)).filter
          fun e => e.transmission.id = id)
      (((m.sessionInfos order').map fun info =>
        (⟨tick, quiet, delta', BoostNetworkManager.transmissionTo full' delta' info⟩ : Sent)).filter
          fun e => e.transmission.id = id) := by
  have hinfos := m.filter_sessionInfos_order order order' id
  rw [List.filter_map, List.filter_map]
  show List.Forall₂ SameSent (((m.sessionInfos order).filter fun info => decide (info.id = id)).map _)
    (((m.sessionInfos order').filter fun info => decide (info.id = id)).map _)
  rw [hinfos, List.forall₂_map_left_iff, List.forall₂_map_right_iff, List.forall₂_same]
  intro info _
  refine ⟨rfl, rfl, hdelta, rfl, rfl, rfl, ?_⟩
  unfold BoostNetworkManager.transmissionTo
  dsimp only
  split_ifs
  · exact hfull.datagrams
  · exact hdelta.datagrams

/-- A connection is handled alike in both states. -/
theorem sameState_onConnection {l : Label} (hl : OnConnection l) (hs : SameState s s')
    (h : s.step l = some t) : ∃ t', s'.step l = some t' ∧ SameState t t' := by
  have hreading : ∀ pending self,
      s'.sessionReading pending self = s.sessionReading pending self := fun pending self => by
    rw [sessionReading, sessionReading, hs.network]
  cases l with
  | accept self socket =>
    obtain ⟨hself, rfl⟩ := accept_of_step h
    refine ⟨{ s' with network := s'.network.accept self socket }, ?_, ?_⟩
    · rw [step, accept, if_neg (hs.network ▸ hself)]
    · exact { hs with network := congrArg (BoostNetworkManager.accept · self socket) hs.network }
  | handshake self buf =>
    obtain ⟨session, hsession, rfl⟩ := Option.map_eq_some_iff.mp h
    refine ⟨_, by rw [step, handshake, hreading, hsession, Option.map_some], ?_⟩
    rw [hs.network]
    rcases s.network.start self session buf with ⟨network, _ | playerId⟩
    · exact { hs with network := rfl }
    · exact
        { hs with
          network := rfl
          resourceManager := congrArg (ResourceManager.addPlayer · playerId) hs.resourceManager }
  | message self msg =>
    obtain ⟨session, hsession, rfl⟩ := Option.map_eq_some_iff.mp h
    refine ⟨_, by rw [step, message, hreading, hsession, Option.map_some], ?_⟩
    rw [hs.network]
    exact
      { hs with
        network := rfl
        commandQueue := congrArg (· ++ (s.network.readNextMessage session msg).2) hs.commandQueue }
  | readError self =>
    obtain ⟨session, hself, hpending, rfl⟩ := readError_of_step h
    refine ⟨{ s' with network := s'.network.readError self session }, ?_, ?_⟩
    · rw [step, readError, hs.network, hself]
      exact if_neg hpending
    · exact { hs with network := congrArg (BoostNetworkManager.readError · self session) hs.network }
  | _ => exact absurd hl not_false

/-- **One turn**, with other orders. -/
theorem sameState_step {l l' : Label} (hs : SameState s s') (hl : l.SameTurn l')
    (h : s.step l = some t) : ∃ t', s'.step l' = some t' ∧ SameState t t' := by
  have hserver := hs.server
  have hphases := hs.phase
  cases hl with
  | onConnection hl => exact sameState_onConnection hl hs h
  | startTick sched sched' =>
    cases turn_of_step h with
    | onConnection _ _ hl => exact absurd hl not_false
    | startTick _ hphase =>
      rw [hphase] at hphases
      generalize hphase' : s'.phase = phase' at hphases
      cases hphases
      refine ⟨_, by rw [step, startTick, hphase'], ?_⟩
      have htick : s'.server.stepWorld sched' =
          ({ (s.server.stepWorld sched).1 with
            cachedFullSnapshot := s'.server.cachedFullSnapshot },
            (s.server.stepWorld sched).2) := by
        rw [hserver, GameServer.stepWorld_order sched' sched, GameServer.stepWorld_eq,
          GameServer.stepWorld_eq]
        rfl
      rw [htick]
      exact
        { hs with
          world := rfl
          resourceManager := rfl
          commandQueue := rfl
          broadcastSeq := rfl
          phase := .simulated _
          ticks := congrArg (· + 1) hs.ticks }
  | refreshFullSnapshotCache order order' =>
    cases turn_of_step h with
    | onConnection _ _ hl => exact absurd hl not_false
    | refreshFullSnapshotCache _ counts hphase =>
      rw [hphase] at hphases
      generalize hphase' : s'.phase = phase' at hphases
      cases hphases
      refine ⟨_, by rw [step, refreshFullSnapshotCache, hphase'], ?_⟩
      refine { hs with cachedFullSnapshot := ?_, phase := .cached _ }
      rw [hserver]
      exact s.server.samePackets_refreshFullSnapshotCache order order'
  | serializeDelta order order' =>
    cases turn_of_step h with
    | onConnection _ _ hl => exact absurd hl not_false
    | serializeDelta _ counts hphase =>
      rw [hphase] at hphases
      generalize hphase' : s'.phase = phase' at hphases
      cases hphases
      refine ⟨_, by rw [step, serializeDelta, hphase'], ?_⟩
      have hupdate : SamePackets (s.server.serializeDelta order).1
          (s'.server.serializeDelta order').1 := by
        rw [hserver]
        exact s.server.samePackets_serializeDelta order order'
      have hafter : (s'.server.serializeDelta order').2 =
          { (s.server.serializeDelta order).2 with
            cachedFullSnapshot := s'.server.cachedFullSnapshot } := by
        rw [hserver, s.server.serializeDelta_snd_order order order']
        rfl
      rw [hafter]
      exact
        { hs with
          world := rfl
          resourceManager := rfl
          commandQueue := rfl
          broadcastSeq := rfl
          phase := .serialized counts hupdate }
  | broadcastWorldUpdate =>
    cases turn_of_step h with
    | onConnection _ _ hl => exact absurd hl not_false
    | skipBroadcast counts hphase =>
      rw [hphase] at hphases
      generalize hphase' : s'.phase = phase' at hphases
      cases hphases with
      | serialized _ hupdate =>
        cases hupdate.eq_nil_iff.mp rfl
        refine ⟨_, by rw [step, broadcastWorldUpdate, hphase']; rfl, ?_⟩
        exact { hs with phase := .announced _, quiet := congrArg (· + 1) hs.quiet }
    | postBroadcast counts update hphase hne =>
      rw [hphase] at hphases
      generalize hphase' : s'.phase = phase' at hphases
      cases hphases with
      | @serialized _ _ update' hupdate =>
        have hne' : update' ≠ [] := fun h => hne (hupdate.eq_nil_iff.mpr h)
        obtain ⟨b, rest, rfl⟩ := List.exists_cons_of_ne_nil hne'
        refine ⟨_, by rw [step, broadcastWorldUpdate, hphase']; rfl, ?_⟩
        refine { hs with network := ?_, phase := .announced _, jobs := ?_ }
        · rw [hs.network]
        · refine List.rel_append hs.jobs (List.Forall₂.cons ?_ List.Forall₂.nil)
          rw [hs.network, hs.ticks, hs.quiet]
          exact .worldUpdate hupdate _ _ _
  | broadcastServerStats order order' =>
    cases turn_of_step h with
    | onConnection _ _ hl => exact absurd hl not_false
    | broadcastServerStats _ counts jobs hphase hjobs =>
      rw [hphase] at hphases
      generalize hphase' : s'.phase = phase' at hphases
      cases hphases
      rw [step, broadcastServerStats, hphase, Option.some.injEq] at h
      refine ⟨_, by rw [step, broadcastServerStats, hphase'], ?_⟩
      rw [hs.broadcastSeq, hs.resourceManager, serializeServerStats_order order' order, ← h]
      refine { hs with phase := .idle, jobs := ?_ }
      dsimp only
      split_ifs
      · exact hs.jobs
      · exact List.rel_append hs.jobs (List.Forall₂.cons (.serverStats _) List.Forall₂.nil)
  | runHandler order order' =>
    have hjobsRel := hs.jobs
    cases turn_of_step h with
    | onConnection _ _ hl => exact absurd hl not_false
    | handleStats _ payload jobs hjobs =>
      rw [hjobs, List.forall₂_cons_left_iff] at hjobsRel
      obtain ⟨job', jobs', hjob, hrest, hjobs'⟩ := hjobsRel
      cases hjob
      exact ⟨{ s' with jobs := jobs' }, by rw [step, runHandler, hjobs'], { hs with jobs := hrest }⟩
    | handleBroadcast _ payload seq tick quiet jobs hjobs =>
      rw [hjobs, List.forall₂_cons_left_iff] at hjobsRel
      obtain ⟨job', jobs', hjob, hrest, hjobs'⟩ := hjobsRel
      cases hjob with
      | @worldUpdate _ payload' hpayload _ _ _ =>
        refine ⟨_, by rw [step, runHandler, hjobs'], ?_⟩
        refine { hs with network := ?_, jobs := hrest, sent := fun id => ?_ }
        · dsimp only
          rw [hs.network]
          exact s.network.fst_doUdpBroadcast_order _ _ _ _ _ _ seq
        · dsimp only [sentTo]
          rw [hs.network, BoostNetworkManager.transmissions_doUdpBroadcast,
            BoostNetworkManager.transmissions_doUdpBroadcast, List.map_map, List.map_map,
            List.filter_append, List.filter_append]
          exact List.rel_append (hs.sent id) (sentTo_doUdpBroadcast order order' s.network
            (hs.cachedFullSnapshot.rewriteSnapshotSeqNums seq) hpayload tick quiet id)

theorem SameState.empty : SameState {} {} where
  world := rfl
  resourceManager := rfl
  commandQueue := rfl
  broadcastSeq := rfl
  cachedFullSnapshot := .nil
  network := rfl
  phase := .idle
  jobs := .nil
  ticks := rfl
  quiet := rfl
  sent _ := .nil

/-- **The hash containers and the pool decide nothing but the order of packets.**  Take a
run of the server and replace, in its labels, the orders of the loops over hash containers
and of the tasks by any others.  The result is a run as well, and at its end the world,
down to its buffers and dirty lists, the ledger, the queue, the counters and the registries
are the same; what is cached, posted, and sent to each player is the same but for the order
of the packets in a payload and of the datagrams in a transmission. -/
theorem run_schedules {ls ls' : List Label} (hls : List.Forall₂ Label.SameTurn ls ls')
    (h : run step {} ls = some t) : ∃ t', run step {} ls' = some t' ∧ SameState t t' := by
  have hstep : ∀ s s' l l' t, SameState s s' → Label.SameTurn l l' → step s l = some t →
      ∃ t', step s' l' = some t' ∧ SameState t t' :=
    fun _ _ _ _ _ hs hl hstep => sameState_step hs hl hstep
  exact run_simulates hstep SameState.empty hls h

/-- The schedule that visits everything in decreasing order. -/
def decreasing : TickSchedule where
  margin := sortedChunks.reverse
  borders := sortedChunks.reverse
  calculate := sortedChunks.reverse
  swap := sortedChunks.reverse
  countChunks := sortedChunks.reverse
  countPlayers := sortedPlayers.reverse
  award := sortedPlayers.reverse

theorem run_schedules_firstTick :
    ∃ t t', run step {} firstTick = some t ∧
      run step {} (connectAndSend 7 .PlaceCell (-1) 0 ++ [.startTick decreasing]) = some t' ∧
        SameState t t' := by
  obtain ⟨t, ht, -⟩ := run_firstTick
  have hturns : List.Forall₂ Label.SameTurn firstTick
      (connectAndSend 7 .PlaceCell (-1) 0 ++ [.startTick decreasing]) := by
    refine List.rel_append ?_ (.cons (.startTick _ _) .nil)
    exact .cons (.onConnection trivial) (.cons (.onConnection trivial)
      (.cons (.onConnection trivial) .nil))
  obtain ⟨t', ht', hsame⟩ := run_schedules hturns ht
  exact ⟨t, t', ht, ht', hsame⟩

end State
end Multilife

import Multilife.Refinement.GapDetection
import Multilife.Refinement.Replication
import Multilife.Refinement.Snapshot
import Multilife.System.Sessions

/-!
# Whole ticks

What a tick produces, seen from the network: a delta is a burst of datagrams under
the number of the tick (`stamped_serializeDelta`), a snapshot one under the number
it is asked for (`stamped_getFullSnapshotForSeq`), and every command of the batch
has a datagram (`exists_packet_of_queued`).  When nothing interrupts the two
threads, a tick with nothing to report leaves the network alone (`run_quietTick`)
and any other is broadcast at once (`run_loudTick`).
-/

namespace Multilife

open Client Transition BoostNetworkManager

/-! ## Payloads of one number -/

/-- The datagrams a payload is cut into. -/
def datagramsOf (payload : List UInt8) : List (List UInt8) := (sendPayloadTo payload).getD []

@[simp] theorem datagramsOf_nil : datagramsOf [] = [] := by
  have h := Packet.sendPayloadTo_encodeAll []
  rw [datagramsOf, show ([] : List UInt8) = Packet.encodeAll [] from rfl, h]
  rfl

namespace GameServer

theorem datagramsOf_serializeDelta (order : FiniteMap.Traversal ChunkCoord) (g : GameServer) :
    datagramsOf (g.serializeDelta order).1 =
      (deltaPackets g.broadcastSeq (g.world.allChunksWithCoords order)).map Packet.encode := by
  rw [datagramsOf, datagrams_serializeDelta]
  rfl

/-- A delta is a burst under the server's number. -/
theorem stamped_serializeDelta (order : FiniteMap.Traversal ChunkCoord) (g : GameServer) :
    Stamped g.broadcastSeq false (datagramsOf (g.serializeDelta order).1) := by
  refine ⟨_, g.datagramsOf_serializeDelta order, fun p hp => ?_⟩
  obtain ⟨hseq, hfull, -⟩ := Packet.mem_packetsOf.mp hp
  exact ⟨hseq, hfull⟩

/-- A delta that is not empty has a datagram. -/
theorem datagramsOf_serializeDelta_ne_nil (order : FiniteMap.Traversal ChunkCoord)
    (g : GameServer) (h : (g.serializeDelta order).1 ≠ []) :
    datagramsOf (g.serializeDelta order).1 ≠ [] := by
  intro hnil
  apply h
  rw [datagramsOf_serializeDelta, List.map_eq_nil_iff] at hnil
  rw [serializeDelta]
  dsimp only
  rw [payload_serializeDelta, encodeAll_eq_nil]
  exact hnil

theorem datagramsOf_getFullSnapshotForSeq (order : FiniteMap.Traversal ChunkCoord)
    (seqNum : UInt32) (g : GameServer) :
    datagramsOf ((g.refreshFullSnapshotCache order).getFullSnapshotForSeq seqNum) =
      (fullPackets seqNum (g.world.allChunksWithCoords order)).map Packet.encode := by
  rw [datagramsOf, datagrams_getFullSnapshotForSeq]
  rfl

/-- A snapshot is a burst under the number it was asked for. -/
theorem stamped_getFullSnapshotForSeq (order : FiniteMap.Traversal ChunkCoord)
    (seqNum : UInt32) (g : GameServer) :
    Stamped seqNum true
      (datagramsOf ((g.refreshFullSnapshotCache order).getFullSnapshotForSeq seqNum)) := by
  refine ⟨_, g.datagramsOf_getFullSnapshotForSeq order seqNum, fun p hp => ?_⟩
  obtain ⟨hseq, hfull, -⟩ := Packet.mem_packetsOf.mp hp
  exact ⟨hseq, hfull⟩

/-- Before the first refresh there is no snapshot. -/
theorem getFullSnapshotForSeq_empty (seqNum : UInt32) :
    ({} : GameServer).getFullSnapshotForSeq seqNum = [] := by
  have h := Packet.rewriteSnapshotSeqNums_encodeAll [] seqNum
  exact h

/-! ### A whole tick -/

/-- The three parts of a tick: the delta, and the server after it. -/
def tick (sched : TickSchedule) (order : FiniteMap.Traversal ChunkCoord) (g : GameServer) :
    List UInt8 × GameServer :=
  ((g.stepWorld sched).1.refreshFullSnapshotCache order).serializeDelta order

variable (sched : TickSchedule) (order : FiniteMap.Traversal ChunkCoord) {g : GameServer}

/-- A queued command has a packet in the next delta. -/
theorem exists_packet_of_queued {cmd : PlayerCommand} (h : cmd ∈ g.commandQueue) :
    ∃ p ∈ deltaPackets (g.stepWorld sched).1.broadcastSeq
        ((g.stepWorld sched).1.world.allChunksWithCoords order),
      p.coord = World.coordOf cmd := by
  refine exists_packet_of_dirty order _ ?_
  rw [world_stepWorld]
  exact World.dirty_applyCommands (Or.inr ⟨cmd, h, rfl⟩)

theorem datagramsOf_tick :
    datagramsOf (g.tick sched order).1 =
      (deltaPackets (g.stepWorld sched).1.broadcastSeq
        ((g.stepWorld sched).1.world.allChunksWithCoords order)).map Packet.encode :=
  datagramsOf_serializeDelta order _

/-- A tick with a command has something to report. -/
theorem tick_ne_nil {cmd : PlayerCommand} (h : cmd ∈ g.commandQueue) :
    (g.tick sched order).1 ≠ [] := by
  intro hnil
  obtain ⟨p, hp, -⟩ := exists_packet_of_queued sched order h
  have hdatagrams := g.datagramsOf_tick sched order
  rw [hnil, datagramsOf_nil, eq_comm, List.map_eq_nil_iff] at hdatagrams
  rw [hdatagrams] at hp
  exact absurd hp List.not_mem_nil

/-- A tick with commands in two chunks has two datagrams. -/
theorem two_le_length_tick {cmd cmd' : PlayerCommand} (h : cmd ∈ g.commandQueue)
    (h' : cmd' ∈ g.commandQueue) (hne : World.coordOf cmd ≠ World.coordOf cmd') :
    2 ≤ (datagramsOf (g.tick sched order).1).length := by
  obtain ⟨p, hp, hcoord⟩ := exists_packet_of_queued sched order h
  obtain ⟨p', hp', hcoord'⟩ := exists_packet_of_queued sched order h'
  rw [datagramsOf_tick, List.length_map]
  have hpne : p ≠ p' := by
    rintro rfl
    exact hne (hcoord.symm.trans hcoord')
  by_contra hshort
  match hpackets : deltaPackets (g.stepWorld sched).1.broadcastSeq
      ((g.stepWorld sched).1.world.allChunksWithCoords order) with
  | [] =>
    rw [hpackets] at hp
    exact absurd hp List.not_mem_nil
  | [q] =>
    rw [hpackets, List.mem_singleton] at hp hp'
    exact hpne (hp.trans hp'.symm)
  | q :: q' :: rest =>
    rw [hpackets] at hshort
    exact hshort (Nat.le_add_left 2 rest.length)

theorem commandQueue_stepWorld (g : GameServer) : (g.stepWorld sched).1.commandQueue = [] := by
  unfold stepWorld
  cases g.commandQueue <;> rfl

theorem cachedFullSnapshot_stepWorld (g : GameServer) :
    (g.stepWorld sched).1.cachedFullSnapshot = g.cachedFullSnapshot := by
  unfold stepWorld
  cases g.commandQueue <;> rfl

theorem commandQueue_tick : (g.tick sched order).2.commandQueue = [] :=
  g.commandQueue_stepWorld sched

theorem resourceManager_tick :
    (g.tick sched order).2.resourceManager = (g.stepWorld sched).1.resourceManager := rfl

/-- In an empty world without commands nothing happens. -/
theorem tick_of_empty (hworld : g.world = {}) (hqueue : g.commandQueue = []) :
    (g.tick sched order).1 = [] ∧ (g.tick sched order).2.world = {} := by
  have hstep : (g.stepWorld sched).1.world = {} := by
    rw [world_stepWorld, hqueue, World.applyCommands_nil, hworld, World.simulate_empty]
  have hchunks : World.allChunksWithCoords order {} = [] := by
    rw [World.allChunksWithCoords, show ({} : World).chunks.keys = ∅ from Finmap.keys_empty,
      FiniteMap.Traversal.order_empty]
    rfl
  rw [tick, serializeDelta, refreshFullSnapshotCache]
  dsimp only
  rw [hstep, hchunks]
  exact ⟨rfl, rfl⟩

/-- The snapshot cached in a tick shows the world after it. -/
theorem snapshot_tick_ne_nil (seqNum : UInt32) {q : ℤ × ℤ}
    (hq : ((g.stepWorld sched).1.world.cellAt q).alive = true) :
    datagramsOf ((g.tick sched order).2.getFullSnapshotForSeq seqNum) ≠ [] := by
  show datagramsOf (((g.stepWorld sched).1.refreshFullSnapshotCache order).getFullSnapshotForSeq
    seqNum) ≠ []
  rw [datagramsOf_getFullSnapshotForSeq, ne_eq, List.map_eq_nil_iff]
  exact fullPackets_ne_nil order seqNum hq

end GameServer

namespace State

/-! ## Without interruption -/

variable {s : State} (sched : TickSchedule) (order : FiniteMap.Traversal ChunkCoord)
  (players : FiniteMap.Traversal PlayerId)

/-- The turns of a tick up to its delta. -/
def deltaLabels : List Label :=
  [.startTick sched, .refreshFullSnapshotCache order, .serializeDelta order]

/-- The turns of the tick thread in one tick. -/
def tickLabels : List Label :=
  deltaLabels sched order ++ [.broadcastWorldUpdate, .broadcastServerStats players]

theorem serializeServerStats_ne_nil (generation : UInt32) (resources : ResourceManager)
    (liveCounts : Finmap fun _ : PlayerId => UInt64) :
    (serializeServerStats players generation resources liveCounts).isEmpty = false := rfl

theorem run_deltaLabels (hphase : s.phase = .idle) :
    run step s (deltaLabels sched order) =
      some
        { s with
          server := (s.server.tick sched order).2
          phase := .serialized (s.server.stepWorld sched).2 (s.server.tick sched order).1
          ticks := s.ticks + 1 } := by
  rw [deltaLabels, run, step, startTick, hphase]
  rfl

/-- A tick with nothing to report posts its statistics, and nothing else. -/
theorem run_tickLabels_quiet (hphase : s.phase = .idle)
    (hquiet : (s.server.tick sched order).1 = []) :
    run step s (tickLabels sched order players) =
      some
        { s with
          server := (s.server.tick sched order).2
          phase := .idle
          jobs := s.jobs ++ [.serverStats (serializeServerStats players
            (s.server.tick sched order).2.broadcastSeq
            (s.server.tick sched order).2.resourceManager (s.server.stepWorld sched).2)]
          ticks := s.ticks + 1
          quiet := s.quiet + 1 } := by
  rw [tickLabels, run_append]
  refine ⟨_, run_deltaLabels sched order hphase, ?_⟩
  rw [hquiet, run, step, broadcastWorldUpdate]
  dsimp only
  rw [List.isEmpty_nil, if_pos rfl, Option.bind_some, run, step, broadcastServerStats]
  dsimp only
  rw [serializeServerStats_ne_nil, if_neg Bool.false_ne_true]
  rfl

/-- **A tick with nothing to report.** -/
theorem run_quietTick (hphase : s.phase = .idle) (hjobs : s.jobs = [])
    (hquiet : (s.server.tick sched order).1 = []) :
    run step s (tickLabels sched order players ++ [.runHandler players]) =
      some
        { s with
          server := (s.server.tick sched order).2
          phase := .idle
          jobs := []
          ticks := s.ticks + 1
          quiet := s.quiet + 1 } := by
  refine run_append.mpr ⟨_, run_tickLabels_quiet sched order players hphase hquiet, ?_⟩
  rw [hjobs]
  rfl

/-- **A tick with something to report**, broadcast at once. -/
theorem run_loudTick (hphase : s.phase = .idle) (hjobs : s.jobs = [])
    (hloud : (s.server.tick sched order).1 ≠ []) :
    let m : BoostNetworkManager := { s.network with seqNum := s.network.seqNum + 1 }
    let t := s.server.tick sched order
    let broadcast := m.doUdpBroadcast players (some t.2.getFullSnapshotForSeq) t.1 m.seqNum
    run step s (tickLabels sched order players ++ [.runHandler players, .runHandler players]) =
      some
        { s with
          server := t.2
          network := broadcast.1
          phase := .idle
          jobs := []
          ticks := s.ticks + 1
          sent := s.sent ++ broadcast.2.map fun tr => ⟨s.ticks + 1, s.quiet, t.1, tr⟩ } := by
  intro m t broadcast
  rw [tickLabels, List.append_assoc, run_append]
  refine ⟨_, run_deltaLabels sched order hphase, ?_⟩
  have hempty : (s.server.tick sched order).1.isEmpty = false := by
    rw [List.isEmpty_eq_false_iff]
    exact hloud
  rw [List.cons_append, run, step, broadcastWorldUpdate]
  dsimp only
  rw [hempty, if_neg Bool.false_ne_true, BoostNetworkManager.broadcastWorldUpdate, hempty,
    if_neg Bool.false_ne_true]
  dsimp only
  rw [Option.bind_some, List.cons_append, run, step, broadcastServerStats]
  dsimp only
  rw [serializeServerStats_ne_nil, if_neg Bool.false_ne_true, hjobs]
  rfl

/-- Nothing is in progress, and a session reads messages of its registered player. -/
structure Quiescent (ptr : SessionPtr) (playerId : PlayerId) (needs : Bool) (s : State) :
    Prop where
  phase : s.phase = .idle
  jobs : s.jobs = []
  registered : s.network.Registered playerId needs
  reading : Reading ptr playerId s.network

variable {ptr : SessionPtr} {playerId : PlayerId} {needs : Bool}

/-- **A whole tick with something to report** serves the player. -/
theorem Quiescent.run_loudTick (h : Quiescent ptr playerId needs s)
    (hloud : (s.server.tick sched order).1 ≠ []) :
    ∃ s' ep, run step s
          (tickLabels sched order players ++ [.runHandler players, .runHandler players]) = some s' ∧
        Quiescent ptr playerId false s' ∧ s'.server = (s.server.tick sched order).2 ∧
        s'.ticks = s.ticks + 1 ∧ s'.quiet = s.quiet ∧
        s'.sentTo playerId = s.sentTo playerId ++
          [⟨s.ticks + 1, s.quiet, (s.server.tick sched order).1,
            transmissionTo
              ((s.server.tick sched order).2.getFullSnapshotForSeq (s.network.seqNum + 1))
              (s.server.tick sched order).1 ⟨playerId, ep, needs⟩⟩] := by
  let posting : State :=
    { s with
      server := (s.server.tick sched order).2
      network := { s.network with seqNum := s.network.seqNum + 1 } }
  have hreg : posting.network.Registered playerId needs := ⟨h.registered.session, h.registered.endpoint⟩
  have hread : Reading ptr playerId posting.network := h.reading
  obtain ⟨ep, hsent⟩ := filter_sent players hreg (s.server.tick sched order).1
    (s.network.seqNum + 1) (s.ticks + 1) s.quiet
  refine ⟨_, ep, State.run_loudTick sched order players h.phase h.jobs hloud, ⟨rfl, rfl, ?_, ?_⟩,
    rfl, rfl, rfl, hsent⟩
  · exact registered_doUdpBroadcast players _ hreg _ _
  · exact hread.of_cleared (cleared_doUdpBroadcast players _ posting.network _ _)

/-- **Connecting**, when nothing is in progress. -/
theorem exists_connected (hphase : s.phase = .idle) (hjobs : s.jobs = []) (ptr : SessionPtr)
    (hptr : ptr ∉ s.network.objects) (socket : Endpoint) (playerId : PlayerId) :
    ∃ s', run step s (connect ptr socket playerId) = some s' ∧
      Quiescent ptr playerId true s' ∧
      s'.server =
        { s.server with resourceManager := s.server.resourceManager.addPlayer playerId } ∧
      s'.ticks = s.ticks ∧ s'.quiet = s.quiet ∧ s'.sent = s.sent :=
  ⟨_, run_connect ptr hptr socket playerId,
    ⟨hphase, hjobs, registered_connected ptr socket playerId s.network,
      reading_connected ptr socket playerId s.network⟩, rfl, rfl, rfl, rfl⟩

/-- A player sends commands, and a tick follows. -/
def playLabels (ptr : SessionPtr) (playerId : PlayerId)
    (cmds : List (CommandType × Int64 × Int64)) : List Label :=
  cmds.map (fun cmd => .message ptr (.command cmd.1 playerId cmd.2.1 cmd.2.2)) ++
    (tickLabels sched order players ++ [.runHandler players, .runHandler players])

/-- The commands as they are queued. -/
def commandsOf (playerId : PlayerId) (cmds : List (CommandType × Int64 × Int64)) :
    List PlayerCommand :=
  cmds.map fun cmd => ⟨playerId, cmd.1, cmd.2.1, cmd.2.2⟩

theorem run_sendAll (h : Reading ptr playerId s.network)
    (cmds : List (CommandType × Int64 × Int64)) :
    run step s (cmds.map fun cmd => .message ptr (.command cmd.1 playerId cmd.2.1 cmd.2.2)) =
      some { s with server := s.server.onCommandsFromNetwork (commandsOf playerId cmds) } := by
  induction cmds generalizing s with
  | nil =>
    rw [List.map_nil, run, commandsOf, List.map_nil, GameServer.onCommandsFromNetwork,
      List.append_nil]
  | cons cmd cmds ih =>
    rw [List.map_cons, ← List.singleton_append, run_append]
    refine ⟨_, run_send h cmd.1 cmd.2.1 cmd.2.2, ?_⟩
    rw [ih (s := { s with
      server := s.server.onCommandsFromNetwork [⟨playerId, cmd.1, cmd.2.1, cmd.2.2⟩] }) h]
    simp only [GameServer.onCommandsFromNetwork, commandsOf, List.map_cons, List.append_assoc,
      List.singleton_append]

/-- **A tick with commands** serves the player who sent them. -/
theorem Quiescent.run_play (h : Quiescent ptr playerId needs s)
    {cmds : List (CommandType × Int64 × Int64)} (hcmds : cmds ≠ []) :
    let t := (s.server.onCommandsFromNetwork (commandsOf playerId cmds)).tick sched order
    ∃ s' ep, run step s (playLabels sched order players ptr playerId cmds) = some s' ∧
        Quiescent ptr playerId false s' ∧ s'.server = t.2 ∧ s'.ticks = s.ticks + 1 ∧
        s'.quiet = s.quiet ∧
        s'.sentTo playerId = s.sentTo playerId ++
          [⟨s.ticks + 1, s.quiet, t.1,
            transmissionTo (t.2.getFullSnapshotForSeq (s.network.seqNum + 1)) t.1
              ⟨playerId, ep, needs⟩⟩] := by
  intro t
  have hsent : Quiescent ptr playerId needs
      { s with server := s.server.onCommandsFromNetwork (commandsOf playerId cmds) } :=
    ⟨h.phase, h.jobs, h.registered, h.reading⟩
  have hloud : t.1 ≠ [] := by
    obtain ⟨cmd, hcmd⟩ := List.exists_mem_of_ne_nil cmds hcmds
    have hmem : (⟨playerId, cmd.1, cmd.2.1, cmd.2.2⟩ : PlayerCommand) ∈
        (s.server.onCommandsFromNetwork (commandsOf playerId cmds)).commandQueue :=
      List.mem_append_right _ (List.mem_map.mpr ⟨cmd, hcmd, rfl⟩)
    exact GameServer.tick_ne_nil sched order hmem
  obtain ⟨s', ep, hrun, hrest⟩ := hsent.run_loudTick sched order players hloud
  exact ⟨s', ep, run_append.mpr ⟨_, run_sendAll h.reading cmds, hrun⟩, hrest⟩

/-- The first cell of a player, in an empty world: the snapshot the player is sent
has a datagram. -/
theorem Quiescent.run_firstCell (h : Quiescent ptr playerId true s) (hworld : s.server.world = {})
    (hqueue : s.server.commandQueue = [])
    (haccount : s.server.resourceManager.balances.lookup playerId = some kStartBalance)
    (x y : Int64) :
    ∃ s' r, run step s (playLabels sched order players ptr playerId [(.PlaceCell, x, y)]) =
          some s' ∧
        Quiescent ptr playerId false s' ∧ s'.server.commandQueue = [] ∧
        s'.ticks = s.ticks + 1 ∧ s'.quiet = s.quiet ∧
        s'.sentTo playerId = s.sentTo playerId ++ [r] ∧ r.tick = s.ticks + 1 ∧
        r.quiet = s.quiet ∧ r.transmission.full = true ∧ r.transmission.datagrams ≠ [] := by
  obtain ⟨s', ep, hrun, hquiescent, hserver, hticks, hquiet, hsent⟩ := h.run_play sched order players
    (List.cons_ne_nil (CommandType.PlaceCell, x, y) [])
  let g := s.server.onCommandsFromNetwork (commandsOf playerId [(.PlaceCell, x, y)])
  have hcmds : g.commandQueue = [⟨playerId, .PlaceCell, x, y⟩] := by
    show s.server.commandQueue ++ _ = _
    rw [hqueue]
    rfl
  have hcell := congrFun (GameServer.cellAt_stepWorld_place sched (g := g) hworld hcmds rfl
    haccount) (targetOf ⟨playerId, .PlaceCell, x, y⟩)
  rw [Function.update_self] at hcell
  refine ⟨s', _, hrun, hquiescent, ?_, hticks, hquiet, hsent, rfl, rfl, rfl, ?_⟩
  · rw [hserver, GameServer.commandQueue_tick]
  · exact GameServer.snapshot_tick_ne_nil sched order _ (congrArg CellState.alive hcell)

end State
end Multilife

import Multilife.Server.WorldSerializer
import Multilife.Server.World

/-!
# The tick

`GameServer.hpp` and `GameServer.cpp`.  `onTick` is cut where the other threads
of the program can notice: `stepWorld` up to the award of the live cells, then
`refreshFullSnapshotCache`, then `serializeDelta`, then the statistics.  What is
posted to the network, and when, belongs to the system (`System/Execution`).

The chunk tasks are enqueued on a thread pool and joined, the generations first
and the swaps after them.  A task touches only its own chunk, so a phase is the
task applied to every chunk in some order.
-/

namespace Multilife

open FiniteMap LittleEndian proto

/-! ## Snapshots and statistics -/

/-- `rewriteSnapshotSeqNums`, on the rest of the payload. -/
def rewriteSnapshotSeqNums (payload : List UInt8) (seqNum : UInt32) : List UInt8 :=
  if kUdpHeader ≤ payload.length then
    let cellCount := readLE UInt16 payload kOffCellCount
    let packetSize := kUdpHeader + cellCount.toNat * kUdpCellEntry
    if packetSize > payload.length then payload
    else patchLE seqNum (payload.take packetSize) kOffSeqNum ++
      rewriteSnapshotSeqNums (payload.drop packetSize) seqNum
  else payload
termination_by payload.length
decreasing_by
  simp only [List.length_drop, kUdpHeader] at *
  omega

/-- `serializeServerStats`. -/
def serializeServerStats (order : Traversal PlayerId) (generation : UInt32)
    (resources : ResourceManager) (liveCounts : Finmap fun _ : PlayerId => UInt64) :
    List UInt8 :=
  let playerIds := ((resources.getPlayerIds order).mergeSort (· ≤ ·)).take 65535
  [kMsgServerStats] ++ writeLE generation ++ writeLE (UInt16.ofNat playerIds.length) ++
    playerIds.flatMap fun playerId =>
      writeLE playerId ++ writeLE (resources.getBalance playerId) ++
        writeLE ((liveCounts.lookup playerId).getD 0)

/-! ## The world during a tick -/

/-- The orders of the loops of one tick over hash containers, and of the tasks. -/
structure TickSchedule where
  margin : Traversal ChunkCoord
  borders : Traversal ChunkCoord
  calculate : Traversal ChunkCoord
  swap : Traversal ChunkCoord
  countChunks : Traversal ChunkCoord
  countPlayers : Traversal PlayerId
  award : Traversal PlayerId

/-- Chunks by increasing coordinates. -/
def sortedChunks : Traversal ChunkCoord :=
  Traversal.byRank (fun c => toLex (c.x.toInt, c.y.toInt)) fun c c' h => by
    have hpair := toLex.injective h
    ext1
    · exact Int32.toInt_inj.mp (congrArg Prod.fst hpair)
    · exact Int32.toInt_inj.mp (congrArg Prod.snd hpair)

/-- Players by increasing id. -/
def sortedPlayers : Traversal PlayerId := Traversal.byRank id Function.injective_id

/-- The schedule that visits everything in increasing order. -/
def TickSchedule.sorted : TickSchedule where
  margin := sortedChunks
  borders := sortedChunks
  calculate := sortedChunks
  swap := sortedChunks
  countChunks := sortedChunks
  countPlayers := sortedPlayers
  award := sortedPlayers

namespace World

/-- One task for every chunk, enqueued and joined. -/
def runTasks (order : Traversal ChunkCoord) (task : Chunk → Chunk) (w : World) : World where
  chunks := (order.order w.chunks.keys).foldl (fun m coord => modify coord task m) w.chunks

/-- The simulation step of `onTick`: `exchangeBorders`, `calculateNext` on all
chunks, `swapBuffers` on all chunks. -/
def simulate (sched : TickSchedule) (w : World) : World :=
  let w := w.exchangeBorders sched.margin sched.borders
  let w := w.runTasks sched.calculate Chunk.calculateNext
  w.runTasks sched.swap Chunk.swapBuffers

/-- `totalCounts` of `onTick`. -/
def totalCounts (sched : TickSchedule) (w : World) : Finmap fun _ : PlayerId => UInt64 :=
  (w.allChunksWithCoords sched.countChunks).foldl
    (fun totals e =>
      let counts := e.2.getLiveCountByPlayer
      (sched.countPlayers.order counts.keys).foldl
        (fun totals playerId =>
          totals.insert playerId
            ((totals.lookup playerId).getD 0 + (counts.lookup playerId).getD 0))
        totals)
    ∅

end World

/-! ## The server -/

/-- `GameServer`: its world, ledger, command queue, cached snapshot and counter. -/
structure GameServer where
  world : World := {}
  resourceManager : ResourceManager := {}
  commandQueue : List PlayerCommand := []
  cachedFullSnapshot : List UInt8 := []
  broadcastSeq : UInt32 := 0

namespace GameServer

def onCommandsFromNetwork (g : GameServer) (commands : List PlayerCommand) : GameServer :=
  { g with commandQueue := g.commandQueue ++ commands }

/-- The first part of `onTick`: the counter, the batch, the simulation step, the
commands, the income.  It also returns the live counts, which the statistics use. -/
def stepWorld (sched : TickSchedule) (g : GameServer) :
    GameServer × Finmap fun _ : PlayerId => UInt64 :=
  let broadcastSeq := g.broadcastSeq + 1
  let batch := g.commandQueue
  let world := g.world.simulate sched
  let (world, resourceManager) :=
    if batch.isEmpty then (world, g.resourceManager)
    else World.applyCommands (world, g.resourceManager) batch
  let totalCounts := world.totalCounts sched
  ({ world := world
     resourceManager := resourceManager.awardFromLiveCounts sched.award totalCounts
     commandQueue := []
     cachedFullSnapshot := g.cachedFullSnapshot
     broadcastSeq := broadcastSeq }, totalCounts)

def refreshFullSnapshotCache (order : Traversal ChunkCoord) (g : GameServer) : GameServer :=
  { g with
    cachedFullSnapshot := WorldSerializer.serializeFull 0 (g.world.allChunksWithCoords order) }

def getFullSnapshotForSeq (g : GameServer) (seqNum : UInt32) : List UInt8 :=
  rewriteSnapshotSeqNums g.cachedFullSnapshot seqNum

/-- The call of `serializeDelta` in `onTick`: the update, and the server with the
dirty lists cleared. -/
def serializeDelta (order : Traversal ChunkCoord) (g : GameServer) : List UInt8 × GameServer :=
  let update := WorldSerializer.serializeDelta g.broadcastSeq (g.world.allChunksWithCoords order)
  (update.1,
    { g with world := update.2.foldl (fun w e => w.storeChunk e.1 e.2) g.world })

end GameServer

/-! ## What the phases do -/

namespace World

/-- Tasks are independent: every chunk gets its task once. -/
theorem tryGetChunk_runTasks (order : Traversal ChunkCoord) (task : Chunk → Chunk) (w : World)
    (c : ChunkCoord) : (w.runTasks order task).tryGetChunk c = (w.tryGetChunk c).map task := by
  unfold runTasks tryGetChunk
  rw [lookup_foldl_modify task (order.nodup _)]
  split_ifs with h
  · rfl
  · have hnone : w.chunks.lookup c = none := by
      rw [Finmap.lookup_eq_none, ← Finmap.mem_keys]
      exact fun hmem => h ((order.mem_order _ _).mpr hmem)
    rw [hnone]
    rfl

/-- **The chunks after the simulation step.** -/
theorem tryGetChunk_simulate (sched : TickSchedule) (w : World) (c : ChunkCoord) :
    (w.simulate sched).tryGetChunk c =
      ((w.exchangeBorders sched.margin sched.borders).tryGetChunk c).map
        fun chunk => chunk.calculateNext.swapBuffers := by
  unfold simulate
  rw [tryGetChunk_runTasks, tryGetChunk_runTasks, Option.map_map]
  rfl

/-- The listed chunks are the chunks of the world. -/
theorem mem_allChunksWithCoords {order : Traversal ChunkCoord} {w : World} {c : ChunkCoord}
    {chunk : Chunk} :
    (c, chunk) ∈ w.allChunksWithCoords order ↔ w.tryGetChunk c = some chunk := by
  unfold allChunksWithCoords tryGetChunk
  rw [List.mem_filterMap]
  constructor
  · rintro ⟨coord, -, h⟩
    obtain ⟨found, hfound, heq⟩ := Option.map_eq_some_iff.mp h
    cases heq
    exact hfound
  · intro h
    refine ⟨c, (order.mem_order _ _).mpr (Finmap.mem_keys.mpr (Finmap.mem_iff.mpr ⟨_, h⟩)), ?_⟩
    rw [h]
    rfl

/-- No chunk is listed twice. -/
theorem nodup_allChunksWithCoords (order : Traversal ChunkCoord) (w : World) :
    ((w.allChunksWithCoords order).map Prod.fst).Nodup := by
  refine (sublist_map_filterMap (fun c e h => ?_) (order.order w.chunks.keys)).nodup
    (order.nodup _)
  obtain ⟨chunk, -, rfl⟩ := Option.map_eq_some_iff.mp h
  rfl

/-- Writing back a list of chunks. -/
theorem tryGetChunk_foldl_storeChunk {l : List (ChunkCoord × Chunk)}
    (hl : (l.map Prod.fst).Nodup) (w : World) (c : ChunkCoord) :
    (l.foldl (fun w e => w.storeChunk e.1 e.2) w).tryGetChunk c = w.tryGetChunk c ∧
        c ∉ l.map Prod.fst ∨
      ∃ chunk, (c, chunk) ∈ l ∧
        (l.foldl (fun w e => w.storeChunk e.1 e.2) w).tryGetChunk c = some chunk := by
  induction l generalizing w with
  | nil => exact Or.inl ⟨rfl, List.not_mem_nil⟩
  | cons e l ih =>
    obtain ⟨hnot, hl⟩ := List.nodup_cons.mp hl
    rw [List.foldl_cons]
    rcases ih hl (w.storeChunk e.1 e.2) with ⟨heq, hc⟩ | ⟨chunk, hmem, heq⟩
    · rw [heq, tryGetChunk_storeChunk]
      by_cases hce : c = e.1
      · subst hce
        exact Or.inr ⟨e.2, List.mem_cons_self, by rw [if_pos rfl]⟩
      · refine Or.inl ⟨by rw [if_neg hce], fun h => ?_⟩
        rcases List.mem_cons.mp h with h | h
        · exact hce h
        · exact hc h
    · exact Or.inr ⟨chunk, List.mem_cons_of_mem _ hmem, heq⟩

end World

namespace GameServer

/-- **The chunks after `serializeDelta`**: as before, with empty dirty lists. -/
theorem tryGetChunk_serializeDelta (order : Traversal ChunkCoord) (g : GameServer)
    (c : ChunkCoord) :
    (g.serializeDelta order).2.world.tryGetChunk c =
      (g.world.tryGetChunk c).map Chunk.clearDirty := by
  show World.tryGetChunk (List.foldl _ _ (WorldSerializer.serializeDelta _ _).2) c = _
  rw [WorldSerializer.serializeDelta_eq]
  have hkeys : ((g.world.allChunksWithCoords order).map
      fun e => (e.1, e.2.clearDirty)).map Prod.fst =
        (g.world.allChunksWithCoords order).map Prod.fst := by
    rw [List.map_map]
    rfl
  have hnodup := World.nodup_allChunksWithCoords order g.world
  rw [← hkeys] at hnodup
  rcases World.tryGetChunk_foldl_storeChunk hnodup g.world c with
    ⟨heq, hc⟩ | ⟨chunk, hmem, heq⟩
  · rw [heq]
    cases hchunk : g.world.tryGetChunk c with
    | none => rfl
    | some chunk =>
      refine absurd ?_ hc
      rw [hkeys]
      exact List.mem_map_of_mem (f := Prod.fst) (World.mem_allChunksWithCoords.mpr hchunk)
  · obtain ⟨e, he, hpair⟩ := List.mem_map.mp hmem
    cases hpair
    rw [heq, World.mem_allChunksWithCoords.mp (show (e.1, e.2) ∈ _ from he)]
    rfl

end GameServer
end Multilife

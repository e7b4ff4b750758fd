import Multilife.Refinement.ClientModel
import Multilife.Refinement.Dirty
import Multilife.Refinement.Economy

/-!
# Delta replication

A delta is an unordered, repeatable set of overwrites: each of its datagrams leaves
a key alone or sets it to what the world shows there now, whatever the state was
when the cell was marked.  That is `keeps_of_not_marked` and `shows_of_marked`; what a
client makes of a whole delta is `ownerAt_foldl_receive`.  `shows_after_delta` is what
follows for one tick and a client that was up to date before it.
-/

namespace Multilife

open Chunk Client Overwrite WorldSerializer proto

/-! ## The packets of a delta -/

/-- The packets of `serializeDelta`. -/
def deltaPackets (seqNum : UInt32) (chunks : List (ChunkCoord × Chunk)) : List Packet :=
  Packet.packetsOf seqNum false (chunks.map fun e => (e.1, deltaEntries e.2))

/-- An entry of a packet of a delta is a dirty cell of a listed chunk. -/
theorem of_mem_deltaPackets {seqNum : UInt32} {chunks : List (ChunkCoord × Chunk)} {p : Packet}
    (hp : p ∈ deltaPackets seqNum chunks) {e : Entry} (he : e ∈ p.entries) :
    ∃ chunk, (p.coord, chunk) ∈ chunks ∧ ∃ dc ∈ chunk.dirtyCells, deltaEntry chunk dc = e := by
  obtain ⟨-, -, pair, hpair, hcoord, hbatch⟩ := Packet.mem_packetsOf.mp hp
  obtain ⟨⟨c, chunk⟩, hchunk, rfl⟩ := List.mem_map.mp hpair
  have hmem : e ∈ deltaEntries chunk := by
    rw [← Batches.flatten_batches kMaxCellsPerPacket_pos (deltaEntries chunk)]
    exact List.mem_flatten.mpr ⟨_, hbatch, he⟩
  exact ⟨chunk, by rw [hcoord]; exact hchunk, mem_deltaEntries.mp hmem⟩

/-- Every dirty cell of a listed chunk is in a packet. -/
theorem exists_mem_deltaPackets (seqNum : UInt32) {chunks : List (ChunkCoord × Chunk)}
    {c : ChunkCoord} {chunk : Chunk} (hchunk : (c, chunk) ∈ chunks) {dc : DirtyCell}
    (hdc : dc ∈ chunk.dirtyCells) :
    ∃ p ∈ deltaPackets seqNum chunks, p.coord = c ∧ deltaEntry chunk dc ∈ p.entries := by
  have hmem : deltaEntry chunk dc ∈ deltaEntries chunk := mem_deltaEntries.mpr ⟨dc, hdc, rfl⟩
  rw [← Batches.flatten_batches kMaxCellsPerPacket_pos (deltaEntries chunk)] at hmem
  obtain ⟨batch, hbatch, he⟩ := List.mem_flatten.mp hmem
  refine ⟨⟨seqNum, false, c, batch, Batches.length_le_of_mem_batches hbatch⟩, ?_, rfl, he⟩
  exact Packet.mem_packetsOf.mpr ⟨rfl, rfl, _, List.mem_map.mpr ⟨(c, chunk), hchunk, rfl⟩, rfl,
    hbatch⟩

/-- A chunk with something to report has a packet. -/
theorem exists_packet_of_dirty (order : FiniteMap.Traversal ChunkCoord) (seqNum : UInt32)
    {w : World} {c : ChunkCoord} (h : w.Dirty c) :
    ∃ p ∈ deltaPackets seqNum (w.allChunksWithCoords order), p.coord = c := by
  obtain ⟨chunk, hchunk, hdirty⟩ := h
  obtain ⟨dc, hdc⟩ := List.exists_mem_of_ne_nil _ hdirty
  have hlisted : (c, chunk) ∈ w.allChunksWithCoords order :=
    World.mem_allChunksWithCoords.mpr hchunk
  obtain ⟨p, hp, hcoord, -⟩ := exists_mem_deltaPackets seqNum hlisted hdc
  exact ⟨p, hp, hcoord⟩

/-- A clean world has no packets. -/
theorem deltaPackets_of_clean (order : FiniteMap.Traversal ChunkCoord) (seqNum : UInt32)
    {w : World} (hclean : w.Clean) : deltaPackets seqNum (w.allChunksWithCoords order) = [] := by
  refine List.eq_nil_iff_forall_not_mem.mpr fun p hp => ?_
  obtain ⟨-, -, pair, hpair, -, hbatch⟩ := Packet.mem_packetsOf.mp hp
  obtain ⟨⟨c, chunk⟩, hchunk, rfl⟩ := List.mem_map.mp hpair
  have hentries : deltaEntries chunk = [] := by
    rw [deltaEntries, hclean c chunk (World.mem_allChunksWithCoords.mp hchunk), List.map_nil]
  rw [hentries, Batches.batches_nil kMaxCellsPerPacket_pos] at hbatch
  exact absurd hbatch List.not_mem_nil

/-- **A delta is empty** exactly when nothing is dirty. -/
theorem serializeDelta_eq_nil_iff (order : FiniteMap.Traversal ChunkCoord) (g : GameServer) :
    (g.serializeDelta order).1 = [] ↔ g.world.Clean := by
  have hpayload : (g.serializeDelta order).1 =
      Packet.encodeAll (deltaPackets g.broadcastSeq (g.world.allChunksWithCoords order)) :=
    payload_serializeDelta _ _
  rw [hpayload, encodeAll_eq_nil]
  constructor
  · intro hnil c chunk hchunk
    by_contra hdirty
    obtain ⟨p, hp, -⟩ := exists_packet_of_dirty order g.broadcastSeq ⟨chunk, hchunk, hdirty⟩
    rw [hnil] at hp
    exact absurd hp List.not_mem_nil
  · exact deltaPackets_of_clean order g.broadcastSeq

/-! ## What a delta does to a key -/

/-- What a delta shows of a cell: the owner of a live cell that has one. -/
def shownOwner (cell : CellState) : Option PlayerId :=
  if cell.alive && cell.owner != 0 then some cell.owner else none

/-- Of a paired cell this is what a client should show. -/
theorem shownOwner_eq_liveOwner {cell : CellState} (hpaired : cell.alive = true ↔ cell.owner ≠ 0) :
    shownOwner cell = liveOwner cell := by
  rw [shownOwner, liveOwner]
  cases halive : cell.alive with
  | true => simp [hpaired.mp halive]
  | false => simp

/-- The owner an entry sets. -/
theorem entryOwner_deltaEntry (chunk : Chunk) (dc : DirtyCell) :
    entryOwner (deltaEntry chunk dc) = shownOwner (chunk.getCell dc.x.toNat dc.y.toNat) := by
  rw [deltaEntry, entryOwner, shownOwner]
  dsimp only
  cases (chunk.getCell dc.x.toNat dc.y.toNat).alive <;> rfl

variable {w : World} (order : FiniteMap.Traversal ChunkCoord) (seqNum : UInt32)

/-- **A key that is not marked is left alone** by every datagram of the delta. -/
theorem keeps_of_not_marked {k : CellKey} (hk : ¬ w.Marked k.point) :
    ∀ p ∈ deltaPackets seqNum (w.allChunksWithCoords order),
      Keeps ClientState.receive (ClientState.ownerAt k) p.encode := by
  intro p hp
  refine keeps_packet (fun e he hpoint => hk ?_) fun hfull => ?_
  · obtain ⟨chunk, hchunk, dc, hdc, rfl⟩ := of_mem_deltaPackets hp he
    exact ⟨p.coord, chunk, dc, World.mem_allChunksWithCoords.mp hchunk, hdc, hpoint.symm⟩
  · rw [(Packet.mem_packetsOf.mp hp).2.1] at hfull
    cases hfull

section MarksInChunk

variable (hmarks : w.MarksInChunk)
include hmarks

/-- The owner that the entry of a dirty cell sets, seen from the plane. -/
theorem entryOwner_of_dirty {c : ChunkCoord} {chunk : Chunk}
    (hchunk : w.tryGetChunk c = some chunk) {dc : DirtyCell} (hdc : dc ∈ chunk.dirtyCells) :
    entryOwner (deltaEntry chunk dc) =
      shownOwner (w.cellAt (entryPoint c (deltaEntry chunk dc))) := by
  obtain ⟨hx, hy⟩ := hmarks c chunk dc hchunk hdc
  have hcell := w.cellAt_pointOf c hx hy
  rw [hchunk] at hcell
  rw [entryOwner_deltaEntry]
  exact congrArg shownOwner hcell.symm

/-- **Every datagram of the delta leaves a key alone or sets it** to what the world
shows. -/
theorem keeps_or_shows (k : CellKey) :
    ∀ p ∈ deltaPackets seqNum (w.allChunksWithCoords order),
      Keeps ClientState.receive (ClientState.ownerAt k) p.encode ∨
        Sets ClientState.receive (ClientState.ownerAt k) p.encode
          (shownOwner (w.cellAt k.point)) := by
  intro p hp
  by_cases hex : ∃ e ∈ p.entries, entryPoint p.coord e = k.point
  · refine Or.inr (sets_packet (fun e he hpoint => ?_) hex)
    obtain ⟨chunk, hchunk, dc, hdc, rfl⟩ := of_mem_deltaPackets hp he
    rw [entryOwner_of_dirty hmarks (World.mem_allChunksWithCoords.mp hchunk) hdc, hpoint]
  · refine Or.inl (keeps_packet (fun e he hpoint => hex ⟨e, he, hpoint⟩) fun hfull => ?_)
    rw [(Packet.mem_packetsOf.mp hp).2.1] at hfull
    cases hfull

/-- **A marked key is set** by some datagram of the delta. -/
theorem shows_of_marked {k : CellKey} (hk : w.Marked k.point) :
    ∃ p ∈ deltaPackets seqNum (w.allChunksWithCoords order),
      Sets ClientState.receive (ClientState.ownerAt k) p.encode
        (shownOwner (w.cellAt k.point)) := by
  obtain ⟨c, chunk, dc, hchunk, hdc, hpoint⟩ := hk
  have hlisted : (c, chunk) ∈ w.allChunksWithCoords order :=
    World.mem_allChunksWithCoords.mpr hchunk
  obtain ⟨p, hp, rfl, he⟩ := exists_mem_deltaPackets seqNum hlisted hdc
  refine ⟨p, hp, sets_packet (fun e he hpoint => ?_) ⟨_, he, hpoint.symm⟩⟩
  obtain ⟨chunk', hchunk', dc', hdc', rfl⟩ := of_mem_deltaPackets hp he
  rw [entryOwner_of_dirty hmarks (World.mem_allChunksWithCoords.mp hchunk') hdc', hpoint]

end MarksInChunk

section Paired

variable {g : Plane} (htracks : World.Tracks g w) (hpaired : w.cellAt.Paired)
include htracks hpaired

/-- In a world of paired cells, every datagram of the delta leaves a key alone or sets it
to what a client should show. -/
theorem keeps_or_sets (k : CellKey) :
    ∀ p ∈ deltaPackets seqNum (w.allChunksWithCoords order),
      Keeps ClientState.receive (ClientState.ownerAt k) p.encode ∨
        Sets ClientState.receive (ClientState.ownerAt k) p.encode
          (liveOwner (w.cellAt k.point)) := by
  rw [← shownOwner_eq_liveOwner (hpaired k.point)]
  exact keeps_or_shows order seqNum htracks.inChunk k

theorem sets_of_marked {k : CellKey} (hk : w.Marked k.point) :
    ∃ p ∈ deltaPackets seqNum (w.allChunksWithCoords order),
      Sets ClientState.receive (ClientState.ownerAt k) p.encode
        (liveOwner (w.cellAt k.point)) := by
  rw [← shownOwner_eq_liveOwner (hpaired k.point)]
  exact shows_of_marked order seqNum htracks.inChunk hk

end Paired

/-! ## What a delta does to a model -/

/-- Exactly the datagrams of the delta have arrived, in some order, some of them several
times. -/
def ReceivesDelta (w : World) (order : FiniteMap.Traversal ChunkCoord) (seqNum : UInt32)
    (received : List (List UInt8)) : Prop :=
  ∃ sent, sendPayloadTo (serializeDelta seqNum (w.allChunksWithCoords order)).1 = some sent ∧
    ∀ d, d ∈ received ↔ d ∈ sent

variable {order seqNum} {received : List (List UInt8)}

theorem ReceivesDelta.mem_iff (h : ReceivesDelta w order seqNum received) (d : List UInt8) :
    d ∈ received ↔ ∃ p ∈ deltaPackets seqNum (w.allChunksWithCoords order), p.encode = d := by
  obtain ⟨sent, hsent, hreceived⟩ := h
  rw [payload_serializeDelta, Packet.sendPayloadTo_encodeAll, Option.some.injEq] at hsent
  rw [hreceived, ← hsent, List.mem_map]
  rfl

/-- **The keys after a delta**: a marked key shows the world, the others are as before. -/
theorem ownerAt_foldl_receive (h : ReceivesDelta w order seqNum received) (hmarks : w.MarksInChunk)
    (c : ClientState) (k : CellKey) :
    (w.Marked k.point →
      (received.foldl ClientState.receive c).ownerAt k = shownOwner (w.cellAt k.point)) ∧
    (¬ w.Marked k.point → (received.foldl ClientState.receive c).ownerAt k = c.ownerAt k) := by
  constructor
  · intro hk
    refine read_foldl_of_agree (fun d hd => ?_) ?_ c
    · obtain ⟨p, hp, rfl⟩ := (h.mem_iff d).mp hd
      exact keeps_or_shows order seqNum hmarks k p hp
    · obtain ⟨p, hp, hsets⟩ := shows_of_marked order seqNum hmarks hk
      exact ⟨p.encode, (h.mem_iff _).mpr ⟨p, hp, rfl⟩, hsets⟩
  · intro hk
    refine read_foldl_of_keeps (fun d hd => ?_) c
    obtain ⟨p, hp, rfl⟩ := (h.mem_iff d).mp hd
    exact keeps_of_not_marked order seqNum hk p hp

/-- **The generation after a delta**: its number, unless there was nothing to report. -/
theorem generation_foldl_receive (h : ReceivesDelta w order seqNum received) (c : ClientState) :
    (w.Clean → (received.foldl ClientState.receive c).model.generation = c.model.generation) ∧
    (¬ w.Clean → (received.foldl ClientState.receive c).model.generation = seqNum) := by
  have hsets : ∀ p ∈ deltaPackets seqNum (w.allChunksWithCoords order),
      Sets ClientState.receive (fun c => c.model.generation) p.encode seqNum := by
    intro p hp c
    dsimp only
    rw [model_receive_encode, ← (Packet.mem_packetsOf.mp hp).1]
    rfl
  constructor
  · intro hclean
    have hnil : received = [] := by
      refine List.eq_nil_iff_forall_not_mem.mpr fun d hd => ?_
      obtain ⟨p, hp, -⟩ := (h.mem_iff d).mp hd
      rw [deltaPackets_of_clean order seqNum hclean] at hp
      exact absurd hp List.not_mem_nil
    rw [hnil]
    rfl
  · intro hdirty
    simp only [World.Clean, not_forall] at hdirty
    obtain ⟨coord, chunk, hchunk, hne⟩ := hdirty
    obtain ⟨p, hp, -⟩ := exists_packet_of_dirty order seqNum ⟨chunk, hchunk, hne⟩
    refine read_foldl_of_agree (r := fun c => c.model.generation) (fun d hd => ?_)
      ⟨p.encode, (h.mem_iff _).mpr ⟨p, hp, rfl⟩, hsets p hp⟩ c
    obtain ⟨q, hq, rfl⟩ := (h.mem_iff d).mp hd
    exact Or.inr (hsets q hq)

/-! ## One tick -/

namespace GameServer

/-- The datagrams of `serializeDelta`. -/
theorem datagrams_serializeDelta (order : FiniteMap.Traversal ChunkCoord) (g : GameServer) :
    sendPayloadTo (g.serializeDelta order).1 =
      some ((deltaPackets g.broadcastSeq (g.world.allChunksWithCoords order)).map
        Packet.encode) := by
  rw [serializeDelta, payload_serializeDelta]
  exact Packet.sendPayloadTo_encodeAll _

/-- **Delta replication.**  The server is at the end of a tick: dirty lists empty,
cells paired; the queued commands come from players with nonzero ids; the client
shows the world.  After the next tick, its datagrams bring the client up to date,
in whatever order and however often they arrive, as long as none is missing. -/
theorem shows_after_delta (g : GameServer) (sched : TickSchedule)
    (cacheOrder deltaOrder : FiniteMap.Traversal ChunkCoord) (c : ClientState)
    (hclean : g.world.Clean) (hpaired : g.world.cellAt.Paired)
    (hids : ∀ cmd ∈ g.commandQueue, cmd.playerId ≠ 0) (hshows : c.model.Shows g.world.cellAt) :
    let next := ((g.stepWorld sched).1.refreshFullSnapshotCache cacheOrder).serializeDelta deltaOrder
    ∃ sent, sendPayloadTo next.1 = some sent ∧
      ∀ received : List (List UInt8), (∀ d, d ∈ received ↔ d ∈ sent) →
        (received.foldl ClientState.receive c).model.Shows next.2.world.cellAt := by
  intro next
  have htracks := tracks_stepWorld sched hclean
  have hpaired' : (g.stepWorld sched).1.world.cellAt.Paired := by
    rw [world_stepWorld]
    exact World.paired_applyCommands (World.paired_simulate sched hpaired) hids
  have hworld : next.2.world.cellAt = (g.stepWorld sched).1.world.cellAt :=
    cellAt_serializeDelta deltaOrder _
  refine ⟨_, datagrams_serializeDelta deltaOrder _, fun received hreceived k => ?_⟩
  have hreceives : ReceivesDelta (g.stepWorld sched).1.world deltaOrder
      (g.stepWorld sched).1.broadcastSeq received :=
    ⟨_, datagrams_serializeDelta deltaOrder (g.stepWorld sched).1, hreceived⟩
  obtain ⟨hmarked, hkept⟩ := ownerAt_foldl_receive hreceives htracks.inChunk c k
  rw [hworld]
  by_cases hk : (g.stepWorld sched).1.world.Marked k.point
  · rw [← shownOwner_eq_liveOwner (hpaired' k.point)]
    exact hmarked hk
  · have hsame : (g.stepWorld sched).1.world.cellAt k.point = g.world.cellAt k.point := by
      by_contra hne
      exact hk (htracks.marked _ hne)
    rw [hsame]
    exact (hkept hk).trans (hshows k)

theorem shows_after_delta_place :
    let g : GameServer :=
      { resourceManager := ({} : ResourceManager).addPlayer 7
        commandQueue := [⟨7, .PlaceCell, 0, 0⟩] }
    let next := ((g.stepWorld .sorted).1.refreshFullSnapshotCache sortedChunks).serializeDelta
      sortedChunks
    ∃ sent, sendPayloadTo next.1 = some sent ∧
      ∀ received : List (List UInt8), (∀ d, d ∈ received ↔ d ∈ sent) →
        (received.foldl ClientState.receive {}).model.Shows next.2.world.cellAt := by
  refine shows_after_delta _ .sorted sortedChunks sortedChunks {} ?_ ?_ ?_ ?_
  · intro c chunk hchunk
    cases hchunk
  · intro p
    rw [World.cellAt_empty]
    decide
  · intro cmd hcmd
    rw [List.mem_singleton.mp hcmd]
    decide
  · intro k
    rw [World.cellAt_empty]
    rfl

end GameServer
end Multilife

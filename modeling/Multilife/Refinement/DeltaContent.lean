import Multilife.Refinement.Permissions
import Multilife.Refinement.Replication

/-!
# What a delta lists

`reports` reads a payload as a client does and lists the cells of its packets.  For a
delta these are the dirty cells of the chunks with the state they have when the delta is
made (`reports_serializeDelta`).

* `delta_exact`: after a simulation step that started from empty dirty lists, they are
  the points whose state has changed, each once.
* `refused_effect`: a refused command changes no cell and no balance, but it leaves a
  chunk and an entry for the next delta behind.
-/

namespace Multilife

open Chunk Client WorldSerializer proto

/-! ## Reading a payload -/

/-- A cell of a packet: its point, and the state the packet gives it. -/
def reportOf (c : ChunkCoord) (cell : UdpCellUpdate) : (ℤ × ℤ) × CellState :=
  (cellPoint c cell, { alive := cell.alive, owner := cell.owner })

/-- The cells of the packets of a payload. -/
def reports (payload : List UInt8) : List ((ℤ × ℤ) × CellState) :=
  ((sendPayloadTo payload).getD []).flatMap fun datagram =>
    match parseUdpWorldPacket datagram with
    | none => []
    | some parsed => parsed.cells.map (reportOf ⟨parsed.chunkX, parsed.chunkY⟩)

theorem reports_encodeAll (packets : List Packet) :
    reports (Packet.encodeAll packets) =
      packets.flatMap fun p => p.entries.map fun e => reportOf p.coord (Packet.toUpdate e) := by
  rw [reports, Packet.sendPayloadTo_encodeAll, Option.getD_some, List.flatMap_map]
  refine List.flatMap_congr fun p _ => ?_
  rw [Packet.parseUdpWorldPacket_encode]
  dsimp only
  rw [List.map_map]
  rfl

/-- The packets of a chunk list its entries. -/
theorem reports_ofChunk (seqNum : UInt32) (full : Bool) (c : ChunkCoord) (entries : List Entry) :
    (Packet.ofChunk seqNum full c entries).flatMap
        (fun p => p.entries.map fun e => reportOf p.coord (Packet.toUpdate e)) =
      entries.map fun e => reportOf c (Packet.toUpdate e) := by
  have hcoord : (Packet.ofChunk seqNum full c entries).flatMap
      (fun p => p.entries.map fun e => reportOf p.coord (Packet.toUpdate e)) =
      ((Packet.ofChunk seqNum full c entries).map Packet.entries).flatMap
        (fun batch => batch.map fun e => reportOf c (Packet.toUpdate e)) := by
    rw [List.flatMap_map]
    refine List.flatMap_congr fun p hp => ?_
    rw [(Packet.mem_ofChunk.mp hp).2.2.1]
  rw [hcoord, Packet.map_entries_ofChunk, List.flatMap_def, ← List.map_flatten,
    Batches.flatten_batches kMaxCellsPerPacket_pos]

/-- A dirty cell is listed with the state it has. -/
theorem reportOf_deltaEntry (c : ChunkCoord) (chunk : Chunk) (dc : DirtyCell) :
    reportOf c (Packet.toUpdate (deltaEntry chunk dc)) =
      (pointOf c.toBlock dc.x.toNat dc.y.toNat, chunk.getCell dc.x.toNat dc.y.toNat) := by
  have halive : ((if (chunk.getCell dc.x.toNat dc.y.toNat).alive then 1 else 0 : UInt8) != 0) =
      (chunk.getCell dc.x.toNat dc.y.toNat).alive := by
    cases (chunk.getCell dc.x.toNat dc.y.toNat).alive <;> rfl
  rw [reportOf, Packet.toUpdate, deltaEntry]
  dsimp only
  rw [halive]
  rfl

/-- **What a delta lists**: the dirty cells, chunk by chunk. -/
theorem reports_serializeDelta (seqNum : UInt32) (chunks : List (ChunkCoord × Chunk)) :
    reports (serializeDelta seqNum chunks).1 =
      chunks.flatMap fun e => e.2.dirtyCells.map fun dc =>
        (pointOf e.1.toBlock dc.x.toNat dc.y.toNat, e.2.getCell dc.x.toNat dc.y.toNat) := by
  rw [payload_serializeDelta, reports_encodeAll, Packet.packetsOf, List.flatMap_map,
    List.flatMap_assoc]
  refine List.flatMap_congr fun e _ => ?_
  rw [reports_ofChunk, deltaEntries, List.map_map]
  exact List.map_congr_left fun dc _ => reportOf_deltaEntry e.1 e.2 dc

/-- A reported cell is a dirty cell of a chunk of the world. -/
theorem mem_reports_iff {w : World} {order : FiniteMap.Traversal ChunkCoord} {seqNum : UInt32}
    {p : ℤ × ℤ} {cell : CellState} :
    (p, cell) ∈ reports (serializeDelta seqNum (w.allChunksWithCoords order)).1 ↔
      ∃ c chunk dc, w.tryGetChunk c = some chunk ∧ dc ∈ chunk.dirtyCells ∧
        p = pointOf c.toBlock dc.x.toNat dc.y.toNat ∧
        cell = chunk.getCell dc.x.toNat dc.y.toNat := by
  rw [reports_serializeDelta, List.mem_flatMap]
  constructor
  · rintro ⟨⟨c, chunk⟩, hchunk, hcell⟩
    obtain ⟨dc, hdc, heq⟩ := List.mem_map.mp hcell
    cases heq
    exact ⟨c, chunk, dc, World.mem_allChunksWithCoords.mp hchunk, hdc, rfl, rfl⟩
  · rintro ⟨c, chunk, dc, hchunk, hdc, rfl, rfl⟩
    exact ⟨(c, chunk), World.mem_allChunksWithCoords.mpr hchunk, List.mem_map.mpr ⟨dc, hdc, rfl⟩⟩

/-! ## A tick without commands -/

theorem nodup_changedCells (buffer : Buffer) : (changedCells buffer).Nodup := by
  refine (nodup_innerCells.filter _).map_on fun p hp q hq h => ?_
  obtain ⟨hpx, hpy⟩ := mem_innerCells.mp (List.mem_of_mem_filter hp)
  obtain ⟨hqx, hqy⟩ := mem_innerCells.mp (List.mem_of_mem_filter hq)
  have hx := congrArg (fun dc : DirtyCell => dc.x.toNat) h
  have hy := congrArg (fun dc : DirtyCell => dc.y.toNat) h
  dsimp only at hx hy
  rw [toNat_ofNat_width hpx, toNat_ofNat_width hqx] at hx
  rw [toNat_ofNat_height hpy, toNat_ofNat_height hqy] at hy
  exact Prod.ext hx hy

variable (sched : TickSchedule) {w : World} (hclean : w.Clean)
include hclean

/-- **The dirty lists after a step from empty ones**: cells of the chunk, each once, and
each has changed. -/
theorem dirtyCells_simulate {c : ChunkCoord} {chunk : Chunk}
    (h : (w.simulate sched).tryGetChunk c = some chunk) :
    chunk.dirtyCells.Nodup ∧ ∀ dc ∈ chunk.dirtyCells, InChunk dc ∧
      chunk.getCell dc.x.toNat dc.y.toNat ≠
        w.cellAt (pointOf c.toBlock dc.x.toNat dc.y.toNat) := by
  obtain ⟨old, buffer, hdirty, hold, hcells⟩ := World.simulate_chunk sched w h
  have hnil : old = [] := by
    rcases hold with hold | ⟨chunk₀, hbefore, rfl⟩
    · exact hold
    · exact hclean c chunk₀ hbefore
  rw [hdirty, hnil, List.nil_append]
  refine ⟨nodup_changedCells buffer, fun dc hdc => ⟨inChunk_of_mem_changedCells hdc, ?_⟩⟩
  obtain ⟨p, hp, rfl⟩ := List.mem_map.mp hdc
  obtain ⟨hx, hy⟩ := mem_innerCells.mp (List.mem_of_mem_filter hp)
  obtain ⟨hnew, hread⟩ := hcells p.1 p.2 hx hy
  dsimp only
  rw [toNat_ofNat_width hx, toNat_ofNat_height hy, World.cellAt_pointOf _ c hx hy, hnew, ← hread]
  exact calculateCell_of_dirty (List.mem_filter.mp hp).2

/-- No point is listed twice. -/
theorem nodup_reports_simulate (order : FiniteMap.Traversal ChunkCoord) (seqNum : UInt32) :
    ((reports (serializeDelta seqNum
      ((w.simulate sched).allChunksWithCoords order)).1).map Prod.fst).Nodup := by
  rw [reports_serializeDelta, List.map_flatMap, List.nodup_flatMap]
  constructor
  · rintro ⟨c, chunk⟩ hmem
    obtain ⟨hnodup, hcells⟩ :=
      dirtyCells_simulate sched hclean (World.mem_allChunksWithCoords.mp hmem)
    rw [List.map_map]
    refine hnodup.map_on fun dc hdc dc' hdc' h => ?_
    obtain ⟨hx, hy⟩ := (hcells dc hdc).1
    obtain ⟨hx', hy'⟩ := (hcells dc' hdc').1
    obtain ⟨-, hxeq, hyeq⟩ := (pointOf_inj hx hy hx' hy').mp h
    have hx := UInt8.toNat_inj.mp hxeq
    have hy := UInt8.toNat_inj.mp hyeq
    cases dc
    cases dc'
    dsimp only at hx hy
    rw [hx, hy]
  · -- different chunks have different points
    refine (List.pairwise_map.mp ((w.simulate sched).nodup_allChunksWithCoords order)).imp_of_mem ?_
    rintro ⟨c, chunk⟩ ⟨c', chunk'⟩ hmem hmem' hne q hq hq'
    simp only [List.map_map, List.mem_map, Function.comp_apply] at hq hq'
    obtain ⟨dc, hdc, rfl⟩ := hq
    obtain ⟨dc', hdc', h⟩ := hq'
    obtain ⟨hx, hy⟩ :=
      ((dirtyCells_simulate sched hclean (World.mem_allChunksWithCoords.mp hmem)).2 dc hdc).1
    obtain ⟨hx', hy'⟩ :=
      ((dirtyCells_simulate sched hclean (World.mem_allChunksWithCoords.mp hmem')).2 dc' hdc').1
    obtain ⟨hblock, -⟩ := (pointOf_inj hx' hy' hx hy).mp h
    exact hne (ChunkCoord.toBlock_injective hblock).symm

/-- The listed cells are the cells that have changed, as they are now. -/
theorem mem_reports_simulate (order : FiniteMap.Traversal ChunkCoord) (seqNum : UInt32)
    (p : ℤ × ℤ) (cell : CellState) :
    (p, cell) ∈ reports (serializeDelta seqNum
        ((w.simulate sched).allChunksWithCoords order)).1 ↔
      (w.simulate sched).cellAt p ≠ w.cellAt p ∧ cell = (w.simulate sched).cellAt p := by
  have hnow : ∀ c chunk dc, (w.simulate sched).tryGetChunk c = some chunk → dc ∈ chunk.dirtyCells →
      (w.simulate sched).cellAt (pointOf c.toBlock dc.x.toNat dc.y.toNat) =
        chunk.getCell dc.x.toNat dc.y.toNat := by
    intro c chunk dc hchunk hdc
    obtain ⟨hx, hy⟩ := ((dirtyCells_simulate sched hclean hchunk).2 dc hdc).1
    rw [World.cellAt_pointOf _ c hx hy, hchunk]
    rfl
  rw [mem_reports_iff]
  constructor
  · rintro ⟨c, chunk, dc, hchunk, hdc, rfl, rfl⟩
    rw [hnow c chunk dc hchunk hdc]
    exact ⟨((dirtyCells_simulate sched hclean hchunk).2 dc hdc).2, rfl⟩
  · rintro ⟨hchanged, rfl⟩
    obtain ⟨c, chunk, dc, hchunk, hdc, rfl⟩ :=
      (World.cellAt_simulate_cases sched w p).2 hchanged
    exact ⟨c, chunk, dc, hchunk, hdc, rfl, hnow c chunk dc hchunk hdc⟩

omit hclean

/-- **The delta of a tick without commands is exact.**  Started from empty dirty lists, the
cells it lists are the points of the plane whose state the generation changes, each once
and with its new state; the dirty lists are empty afterwards, and the payload is empty
exactly when nothing has changed. -/
theorem delta_exact (order : FiniteMap.Traversal ChunkCoord) {g : GameServer}
    (hclean : g.world.Clean) :
    let after : GameServer := { g with world := g.world.simulate sched }
    let delta := after.serializeDelta order
    ((reports delta.1).map Prod.fst).Nodup ∧
    (∀ p cell, (p, cell) ∈ reports delta.1 ↔
      after.world.cellAt p ≠ g.world.cellAt p ∧ cell = after.world.cellAt p) ∧
    (delta.2.world.Clean ∧ delta.2.world.cellAt = after.world.cellAt) ∧
    (delta.1 = [] ↔ after.world.cellAt = g.world.cellAt) := by
  intro after delta
  refine ⟨nodup_reports_simulate sched hclean order _, mem_reports_simulate sched hclean order _,
    ⟨GameServer.clean_serializeDelta order after, GameServer.cellAt_serializeDelta order after⟩, ?_⟩
  rw [← World.clean_simulate_iff sched hclean]
  exact serializeDelta_eq_nil_iff order after

/-- A world with one live cell, which has been reported. -/
def loneCell : World :=
  World.storeChunk {} ⟨0, 0⟩ (({} : Chunk).setCell 5 5 { alive := true, owner := 7 }).clearDirty

theorem clean_loneCell : loneCell.Clean := by
  intro c chunk hchunk
  rw [loneCell, World.tryGetChunk_storeChunk] at hchunk
  split_ifs at hchunk with hc
  · cases hchunk
    rfl
  · cases hchunk

theorem cellAt_loneCell : loneCell.cellAt =
    Function.update (fun _ => {}) (5, 5) { alive := true, owner := 7 } := by
  funext p
  have h5 : 5 < ChunkWidth ∧ 5 < ChunkHeight := by decide
  have hpoint : pointOf (⟨0, 0⟩ : ChunkCoord).toBlock 5 5 = (5, 5) := by decide
  rcases World.point_cases p with ⟨c, x, y, hx, hy, rfl⟩ | hnone
  · rw [loneCell, World.cellAt_storeChunk _ _ hx hy, getCell_clearDirty,
      getCell_setCell _ _ h5.1 h5.2 hx, getCell_empty, Function.update_apply, ← hpoint]
    simp only [pointOf_inj hx hy h5.1 h5.2, ChunkCoord.toBlock_injective.eq_iff, eq_comm (a := 5),
      ite_and]
  · rw [World.cellAt_of_not_block _ hnone, Function.update_of_ne]
    rintro rfl
    exact hnone ⟨0, 0⟩ (by decide)

/-- A cell without neighbours dies. -/
theorem cellAt_simulate_loneCell : (loneCell.simulate .sorted).cellAt (5, 5) = {} := by
  have hinside : ∀ c ∈ loneCell.chunks, c.Inside 2 := by
    intro c hc
    rw [(Finmap.mem_insert.mp hc).resolve_right Finmap.notMem_empty, ChunkCoord.Inside]
    decide
  have howned : loneCell.cellAt.Owned := by
    intro p hp
    rw [cellAt_loneCell, Function.update_apply] at hp ⊢
    split_ifs at hp ⊢
    decide
  have hlookup := Finmap.lookup_insert (∅ : Finmap fun _ : ChunkCoord => Chunk) (a := ⟨0, 0⟩)
    (b := (({} : Chunk).setCell 5 5 { alive := true, owner := 7 }).clearDirty)
  obtain ⟨chunk, hchunk⟩ : ∃ chunk, (loneCell.ensureSimulationMarginUnlocked
      TickSchedule.sorted.margin).tryGetChunk ⟨0, 0⟩ = some chunk := by
    rcases World.tryGetChunk_ensureSimulationMargin TickSchedule.sorted.margin loneCell ⟨0, 0⟩ with
      h | ⟨hnone, -⟩
    · exact ⟨_, h.trans hlookup⟩
    · exact absurd (hlookup.symm.trans hnone) (Option.some_ne_none _)
  have hpoint : pointOf (⟨0, 0⟩ : ChunkCoord).toBlock 5 5 = (5, 5) := by decide
  rw [← hpoint, World.cellAt_simulate_of_chunk .sorted hinside howned hchunk (by decide) (by decide),
    cellAt_loneCell]
  decide

/-- It dies, and so the delta is not empty. -/
theorem delta_exact_loneCell :
    (({ world := loneCell.simulate .sorted } : GameServer).serializeDelta sortedChunks).1 ≠ [] := by
  intro hempty
  have hsame := (delta_exact .sorted sortedChunks (g := { world := loneCell })
    clean_loneCell).2.2.2.mp hempty
  have hdead := congrFun hsame (5, 5)
  rw [cellAt_simulate_loneCell, cellAt_loneCell, Function.update_self] at hdead
  cases hdead

/-! ## A refused command -/

/-- The state is as it was: chunks, cells, dirty lists and balances. -/
structure StateAsBefore (s s' : World × ResourceManager) : Prop where
  chunks : ∀ c, c ∈ s'.1.chunks ↔ c ∈ s.1.chunks
  cells : s'.1.cellAt = s.1.cellAt
  dirtyLists : ∀ c, (s'.1.tryGetChunk c).map Chunk.dirtyCells =
    (s.1.tryGetChunk c).map Chunk.dirtyCells
  balances : s'.2 = s.2

namespace World

/-- **A command leaves an entry**, refused or not: its chunk is there afterwards, its cell
is dirty, and no other chunk changes. -/
theorem dirtyLists_applyCommand (s : World × ResourceManager) (cmd : PlayerCommand) :
    (∀ c, c ∈ (applyCommand s cmd).1.chunks ↔ c ∈ s.1.chunks ∨ c = coordOf cmd) ∧
    ∀ c, ((applyCommand s cmd).1.tryGetChunk c).map Chunk.dirtyCells =
      if c = coordOf cmd then
        some (((s.1.tryGetChunk c).map Chunk.dirtyCells).getD [] ++
          [⟨UInt8.ofNat (localIndex cmd.x ChunkWidth), UInt8.ofNat (localIndex cmd.y ChunkHeight)⟩])
      else (s.1.tryGetChunk c).map Chunk.dirtyCells := by
  constructor
  · intro c
    rw [mem_chunks_iff, mem_chunks_iff, tryGetChunk_applyCommand]
    split_ifs with hc
    · simp [hc]
    · simp [hc]
  · intro c
    rw [tryGetChunk_applyCommand]
    split_ifs with hc
    · rw [Option.map_some, dirtyCells_setCell]
      cases s.1.tryGetChunk c <;> rfl
    · rfl

end World

/-- **A refused command is not free of effects.**  Cells and balances stay, but whatever
the reason of the refusal, the chunk of the command is created where it was missing and
its cell is added to the dirty list, so the next delta lists the cell with the state it
always had.  Hence the state is never as before. -/
theorem refused_effect {s : World × ResourceManager} {cmd : PlayerCommand}
    (hrefused : World.accepted s cmd = false) :
    ¬ StateAsBefore s (World.applyCommands s [cmd]) ∧
    ((World.applyCommands s [cmd]).1.cellAt = s.1.cellAt ∧ (World.applyCommands s [cmd]).2 = s.2) ∧
    (∀ c, c ∈ (World.applyCommands s [cmd]).1.chunks ↔ c ∈ s.1.chunks ∨ c = World.coordOf cmd) ∧
    ∀ order seqNum, (targetOf cmd, s.1.cellAt (targetOf cmd)) ∈ reports (serializeDelta seqNum
      ((World.applyCommands s [cmd]).1.allChunksWithCoords order)).1 := by
  obtain ⟨hchunks, hdirty⟩ := World.dirtyLists_applyCommand s cmd
  obtain ⟨hcells, hledger⟩ := World.applyCommand_refused hrefused
  rw [World.applyCommands_cons, World.applyCommands_nil]
  refine ⟨fun h => ?_, ⟨hcells, hledger⟩, hchunks, fun order seqNum => ?_⟩
  · -- the dirty list of the target has grown
    have hsame := (hdirty (World.coordOf cmd)).symm.trans (h.dirtyLists _)
    rw [if_pos rfl] at hsame
    cases hbefore : s.1.tryGetChunk (World.coordOf cmd) with
    | none =>
      rw [hbefore] at hsame
      cases hsame
    | some chunk =>
      rw [hbefore, Option.map_some, Option.getD_some, Option.some.injEq] at hsame
      have hlength := congrArg List.length hsame
      rw [List.length_append, List.length_singleton] at hlength
      omega
  · have hlist := hdirty (World.coordOf cmd)
    rw [if_pos rfl] at hlist
    obtain ⟨chunk, hchunk, hdc⟩ := Option.map_eq_some_iff.mp hlist
    have hx := localIndex_lt_width cmd.x
    have hy := localIndex_lt_height cmd.y
    refine mem_reports_iff.mpr ⟨_, chunk, _, hchunk,
      hdc ▸ List.mem_append_right _ (List.mem_singleton_self _), ?_, ?_⟩
    · rw [toNat_ofNat_width hx, toNat_ofNat_height hy, targetOf]
    · rw [toNat_ofNat_width hx, toNat_ofNat_height hy, ← hcells, targetOf,
        World.cellAt_pointOf _ _ hx hy, hchunk]
      rfl

/-- Player 7, without an account, asks the empty world for the cell at the origin. -/
theorem refused_effect_origin : (0, 0) ∈ (reports (serializeDelta 1
    ((World.applyCommands ({}, {}) [⟨7, .PlaceCell, 0, 0⟩]).1.allChunksWithCoords
      sortedChunks)).1).map Prod.fst := by
  have hrefused : World.accepted ({}, {}) ⟨7, .PlaceCell, 0, 0⟩ = false := by
    rw [World.accepted, World.placed, World.removed, World.cellAt_empty]
    decide
  exact List.mem_map.mpr ⟨_, (refused_effect hrefused).2.2.2 sortedChunks 1, by decide⟩

/-- The refused command has created the chunk. -/
theorem not_stateAsBefore_origin : World.accepted ({}, {}) ⟨7, .PlaceCell, 0, 0⟩ = false ∧
    ¬ StateAsBefore ({}, {}) (World.applyCommands ({}, {}) [⟨7, .PlaceCell, 0, 0⟩]) := by
  constructor
  · rw [World.accepted, World.placed, World.removed, World.cellAt_empty]
    decide
  · intro h
    have hchunk := (h.chunks ⟨0, 0⟩).mp
      (((World.dirtyLists_applyCommand ({}, {}) ⟨7, .PlaceCell, 0, 0⟩).1 ⟨0, 0⟩).mpr
        (Or.inr (by decide)))
    exact absurd hchunk Finmap.notMem_empty

end Multilife

import Multilife.Refinement.ClientModel
import Multilife.Refinement.Dirty

/-!
# Full snapshots

A full snapshot lists the live cells of every chunk, and the client takes each
packet of it for the whole chunk.  A chunk whose live cells need several packets
is therefore replaced several times, and only the last batch stays; a chunk
without live cells has no packet at all, and what the client shows there stays.

* `determines_of_last_batch`, `keeps_of_unnamed`: the two halves of that, for one
  key.
* `present_iff`: a snapshot shows every live cell to an empty client exactly when
  no chunk has more than `kMaxCellsPerPacket` of them.
* `resync_iff`: a snapshot repairs every stale cell exactly when every cell the
  client shows lies in a chunk with live cells.
* `keeps_or_determines`: when the chunks are that small, a snapshot is right at
  every key it touches.
-/

namespace Multilife

open Chunk Client Overwrite WorldSerializer proto

/-! ## The live cells of a chunk -/

namespace Chunk

/-- How many cells of a chunk are alive. -/
def liveCells (chunk : Chunk) : ℕ := innerCells.countP fun p => (chunk.getCell p.1 p.2).alive

theorem liveCells_pos_iff {chunk : Chunk} :
    0 < chunk.liveCells ↔
      ∃ x y, x < ChunkWidth ∧ y < ChunkHeight ∧ (chunk.getCell x y).alive = true := by
  rw [liveCells, List.countP_pos_iff]
  exact exists_mem_innerCells (P := fun x y => (chunk.getCell x y).alive = true)

end Chunk

/-- A chunk whose live cells are at one point of the plane has at most one. -/
theorem World.liveCells_le_one {w : World} {c : ChunkCoord} {chunk : Chunk} {q : ℤ × ℤ}
    (hchunk : w.tryGetChunk c = some chunk) (h : ∀ p, (w.cellAt p).alive = true → p = q) :
    chunk.liveCells ≤ 1 := by
  refine (List.countP_mono_left fun p hp halive => ?_).trans
    (List.nodup_iff_count_le_one.mp nodup_innerCells (localX q, localY q))
  obtain ⟨hx, hy⟩ := mem_innerCells.mp hp
  have hq : pointOf c.toBlock p.1 p.2 = q := by
    apply h
    rw [w.cellAt_pointOf c hx hy, hchunk]
    exact halive
  rw [beq_iff_eq, ← hq, localX_pointOf _ _ hx, localY_pointOf _ _ hy]

/-- The entry of a live cell. -/
def fullEntry (chunk : Chunk) (p : ℕ × ℕ) : Entry :=
  ⟨UInt8.ofNat p.1, UInt8.ofNat p.2, 1, (chunk.getCell p.1 p.2).owner⟩

theorem fullEntries_eq (chunk : Chunk) :
    fullEntries chunk =
      (innerCells.filter fun p => (chunk.getCell p.1 p.2).alive).map (fullEntry chunk) := by
  unfold fullEntries
  generalize innerCells = l
  induction l with
  | nil => rfl
  | cons p l ih =>
    rw [List.filterMap_cons, List.filter_cons]
    cases halive : (chunk.getCell p.1 p.2).alive with
    | true =>
      rw [if_pos rfl, List.map_cons, ← ih]
      simp [halive, fullEntry]
    | false => simp [halive, ih]

theorem length_fullEntries (chunk : Chunk) : (fullEntries chunk).length = chunk.liveCells := by
  rw [fullEntries_eq, List.length_map, liveCells, List.countP_eq_length_filter]

/-- A chunk has entries exactly when it has live cells. -/
theorem fullEntries_ne_nil_iff {chunk : Chunk} :
    fullEntries chunk ≠ [] ↔ 0 < chunk.liveCells := by
  rw [← length_fullEntries, List.length_pos_iff]

theorem entryPoint_fullEntry (c : ChunkCoord) (chunk : Chunk) {x y : ℕ} (hx : x < ChunkWidth)
    (hy : y < ChunkHeight) : entryPoint c (fullEntry chunk (x, y)) = pointOf c.toBlock x y := by
  rw [entryPoint, fullEntry, toNat_ofNat_width hx, toNat_ofNat_height hy]

/-- **The entries of a chunk are at different points.** -/
theorem pairwise_fullEntries (c : ChunkCoord) (chunk : Chunk) :
    (fullEntries chunk).Pairwise fun e e' => entryPoint c e ≠ entryPoint c e' := by
  rw [fullEntries_eq, List.pairwise_map]
  refine List.Pairwise.imp_of_mem (fun {p q} hp hq hne heq => hne ?_)
    (nodup_innerCells.filter _)
  obtain ⟨hx, hy⟩ := mem_innerCells.mp (List.mem_of_mem_filter hp)
  obtain ⟨hx', hy'⟩ := mem_innerCells.mp (List.mem_of_mem_filter hq)
  rw [entryPoint_fullEntry c chunk hx hy, entryPoint_fullEntry c chunk hx' hy',
    pointOf_inj hx hy hx' hy'] at heq
  exact Prod.ext heq.2.1 heq.2.2

/-! ## The packets of a snapshot -/

/-- The packets of `serializeFull`. -/
def fullPackets (seqNum : UInt32) (chunks : List (ChunkCoord × Chunk)) : List Packet :=
  Packet.packetsOf seqNum true (chunks.map fun e => (e.1, fullEntries e.2))

/-- The owner a snapshot gives to a cell. -/
def snapshotOwner (cell : CellState) : Option PlayerId :=
  if cell.alive && cell.owner != 0 then some cell.owner else none

theorem snapshotOwner_eq_some {cell : CellState} {id : PlayerId}
    (h : snapshotOwner cell = some id) : cell = { alive := true, owner := id } := by
  rcases cell with ⟨alive, owner⟩
  rw [snapshotOwner] at h
  dsimp only at h
  cases alive with
  | true =>
    split_ifs at h
    rw [Option.some.inj h]
  | false => cases h

/-- When live cells have owners, a snapshot gives the one the client should show. -/
theorem snapshotOwner_of_owned {cell : CellState} (h : cell.alive = true → cell.owner ≠ 0) :
    snapshotOwner cell = liveOwner cell := by
  rw [snapshotOwner, liveOwner]
  cases halive : cell.alive with
  | true => simp [h halive]
  | false => rfl

variable {w : World} {c : ChunkCoord} {chunk : Chunk} {k : CellKey}
  (order : FiniteMap.Traversal ChunkCoord) (seqNum : UInt32)

/-- An entry of a chunk of the world, seen from the plane. -/
theorem of_mem_fullEntries (hchunk : w.tryGetChunk c = some chunk) {e : Entry}
    (he : e ∈ fullEntries chunk) :
    (w.cellAt (entryPoint c e)).alive = true ∧
      entryOwner e = snapshotOwner (w.cellAt (entryPoint c e)) := by
  obtain ⟨x, y, hx, hy, halive, rfl⟩ := mem_fullEntries.mp he
  have hpoint : entryPoint c ⟨UInt8.ofNat x, UInt8.ofNat y, 1, (chunk.getCell x y).owner⟩ =
      pointOf c.toBlock x y := entryPoint_fullEntry c chunk hx hy
  rw [hpoint, w.cellAt_pointOf c hx hy, hchunk]
  show (chunk.getCell x y).alive = true ∧ _ = snapshotOwner (chunk.getCell x y)
  refine ⟨halive, ?_⟩
  rw [entryOwner, snapshotOwner, halive]
  rfl

/-- A live cell of a chunk has an entry. -/
theorem exists_mem_fullEntries (hchunk : w.tryGetChunk c = some chunk)
    (hblock : blockOf k.point = c.toBlock) (halive : (w.cellAt k.point).alive = true) :
    ∃ e ∈ fullEntries chunk, entryPoint c e = k.point := by
  have hx := localX_lt k.point
  have hy := localY_lt k.point
  have hpoint : pointOf c.toBlock (localX k.point) (localY k.point) = k.point := by
    rw [← hblock, pointOf_blockOf]
  rw [← hpoint, w.cellAt_pointOf c hx hy, hchunk] at halive
  exact ⟨fullEntry chunk (localX k.point, localY k.point),
    mem_fullEntries.mpr ⟨_, _, hx, hy, halive, rfl⟩,
    (entryPoint_fullEntry c chunk hx hy).trans hpoint⟩

/-! ## What a snapshot does to a key -/

/-- A packet of another chunk leaves a key alone. -/
theorem keeps_of_other_block {p : Packet} (hblock : blockOf k.point ≠ p.coord.toBlock)
    (hentries : ∃ chunk, w.tryGetChunk p.coord = some chunk ∧
      p.entries ∈ Batches.batches kMaxCellsPerPacket (fullEntries chunk)) :
    Keeps ClientState.receive (ClientState.ownerAt k) p.encode := by
  refine keeps_packet (fun e he hpoint => hblock ?_) fun _ => hblock
  obtain ⟨chunk, -, hbatch⟩ := hentries
  have hmem : e ∈ fullEntries chunk := by
    rw [← Batches.flatten_batches kMaxCellsPerPacket_pos (fullEntries chunk)]
    exact List.mem_flatten.mpr ⟨_, hbatch, he⟩
  obtain ⟨x, y, hx, hy, -, rfl⟩ := mem_fullEntries.mp hmem
  have hpoint' : entryPoint p.coord
      ⟨UInt8.ofNat x, UInt8.ofNat y, 1, (chunk.getCell x y).owner⟩ = pointOf p.coord.toBlock x y :=
    entryPoint_fullEntry p.coord chunk hx hy
  rw [← hpoint, hpoint', blockOf_pointOf _ hx hy]

theorem of_mem_fullPackets {p : Packet}
    (hp : p ∈ fullPackets seqNum (w.allChunksWithCoords order)) :
    p.full = true ∧ ∃ chunk, w.tryGetChunk p.coord = some chunk ∧
      p.entries ∈ Batches.batches kMaxCellsPerPacket (fullEntries chunk) := by
  obtain ⟨-, hfull, pair, hpair, hcoord, hbatch⟩ := Packet.mem_packetsOf.mp hp
  obtain ⟨⟨c, chunk⟩, hmem, rfl⟩ := List.mem_map.mp hpair
  refine ⟨hfull, chunk, ?_, hbatch⟩
  rw [hcoord]
  exact World.mem_allChunksWithCoords.mp hmem

theorem named_or_unnamed (w : World) (k : CellKey) :
    (∃ c chunk, w.tryGetChunk c = some chunk ∧ blockOf k.point = c.toBlock ∧
        0 < chunk.liveCells) ∨
      ∀ c chunk, w.tryGetChunk c = some chunk → blockOf k.point = c.toBlock →
        chunk.liveCells = 0 := by
  refine or_iff_not_imp_left.mpr fun hnamed c chunk hchunk hblock => ?_
  by_contra hne
  exact hnamed ⟨c, chunk, hchunk, hblock, Nat.pos_of_ne_zero hne⟩

/-- A key of no chunk with live cells is dead. -/
theorem liveOwner_of_unnamed
    (hk : ∀ c chunk, w.tryGetChunk c = some chunk → blockOf k.point = c.toBlock →
      chunk.liveCells = 0) :
    liveOwner (w.cellAt k.point) = none := by
  rw [liveOwner]
  refine if_neg fun halive => ?_
  rcases World.point_cases k.point with ⟨c, x, y, hx, hy, hpoint⟩ | hnone
  · rw [hpoint, w.cellAt_pointOf c hx hy] at halive
    cases hchunk : w.tryGetChunk c with
    | none =>
      rw [hchunk] at halive
      cases halive
    | some chunk =>
      rw [hchunk] at halive
      have hpos : 0 < chunk.liveCells := liveCells_pos_iff.mpr ⟨x, y, hx, hy, halive⟩
      have hzero := hk c chunk hchunk (by rw [hpoint, blockOf_pointOf _ hx hy])
      omega
  · rw [World.cellAt_of_not_block w hnone] at halive
    cases halive

/-- **A chunk without live cells is not named**, so what the client shows there
stays. -/
theorem keeps_of_unnamed
    (hk : ∀ c chunk, w.tryGetChunk c = some chunk → blockOf k.point = c.toBlock →
      chunk.liveCells = 0) :
    ∀ d ∈ (fullPackets seqNum (w.allChunksWithCoords order)).map Packet.encode,
      Keeps ClientState.receive (ClientState.ownerAt k) d := by
  intro d hd
  obtain ⟨p, hp, rfl⟩ := List.mem_map.mp hd
  obtain ⟨-, chunk, hchunk, hbatch⟩ := of_mem_fullPackets order seqNum hp
  refine keeps_of_other_block (fun hblock => ?_) ⟨chunk, hchunk, hbatch⟩
  have hnil : fullEntries chunk = [] := by
    rw [← List.length_eq_zero_iff, length_fullEntries]
    exact hk _ chunk hchunk hblock
  rw [hnil, Batches.batches_nil kMaxCellsPerPacket_pos] at hbatch
  exact absurd hbatch List.not_mem_nil

/-- A packet of the chunk of a key sets the key: to the owner of the cell if the
packet names it, to nothing otherwise. -/
theorem sets_of_block (hchunk : w.tryGetChunk c = some chunk)
    (hblock : blockOf k.point = c.toBlock) {p : Packet} (hfull : p.full = true)
    (hcoord : p.coord = c)
    (hbatch : p.entries ∈ Batches.batches kMaxCellsPerPacket (fullEntries chunk)) :
    Sets ClientState.receive (ClientState.ownerAt k) p.encode
      (if ∃ e ∈ p.entries, entryPoint c e = k.point then snapshotOwner (w.cellAt k.point)
        else none) := by
  subst hcoord
  by_cases hex : ∃ e ∈ p.entries, entryPoint p.coord e = k.point
  · rw [if_pos hex]
    refine sets_packet (fun e he hpoint => ?_) hex
    have hmem : e ∈ fullEntries chunk := by
      rw [← Batches.flatten_batches kMaxCellsPerPacket_pos (fullEntries chunk)]
      exact List.mem_flatten.mpr ⟨_, hbatch, he⟩
    rw [← hpoint]
    exact (of_mem_fullEntries hchunk hmem).2
  · rw [if_neg hex]
    exact sets_packet_of_block hfull hblock fun e he hpoint => hex ⟨e, he, hpoint⟩

/-- The packets of a snapshot, cut after the last batch of one chunk. -/
theorem exists_last_packet {chunks before after : List (ChunkCoord × Chunk)}
    (hsplit : chunks = before ++ (c, chunk) :: after) {init : List (List Entry)}
    {last : List Entry}
    (hbatches : Batches.batches kMaxCellsPerPacket (fullEntries chunk) = init ++ [last]) :
    ∃ front p, fullPackets seqNum chunks = front ++ [p] ++ fullPackets seqNum after ∧
      p.full = true ∧ p.coord = c ∧ p.entries = last := by
  have hentries := Packet.map_entries_ofChunk seqNum true c (fullEntries chunk)
  rw [hbatches] at hentries
  obtain ⟨front, tail, hof, -, htail⟩ := List.map_eq_append_iff.mp hentries
  obtain ⟨p, rfl, hlast⟩ := List.map_eq_singleton_iff.mp htail
  have hp : p ∈ Packet.ofChunk seqNum true c (fullEntries chunk) := by
    rw [hof]
    exact List.mem_append_right _ (List.mem_singleton_self _)
  obtain ⟨-, hfull, hcoord, -⟩ := Packet.mem_ofChunk.mp hp
  refine ⟨fullPackets seqNum before ++ front, p, ?_, hfull, hcoord, hlast⟩
  rw [hsplit, fullPackets, fullPackets, fullPackets, Packet.packetsOf, Packet.packetsOf,
    Packet.packetsOf, List.map_append, List.map_cons, List.flatMap_append, List.flatMap_cons, hof]
  simp only [List.append_assoc]

/-- **Only the last batch of a chunk stays.** -/
theorem determines_of_last_batch (hchunk : w.tryGetChunk c = some chunk)
    (hblock : blockOf k.point = c.toBlock) {init : List (List Entry)} {last : List Entry}
    (hbatches : Batches.batches kMaxCellsPerPacket (fullEntries chunk) = init ++ [last]) :
    Determines ClientState.receive (ClientState.ownerAt k)
      ((fullPackets seqNum (w.allChunksWithCoords order)).map Packet.encode)
      (if ∃ e ∈ last, entryPoint c e = k.point then snapshotOwner (w.cellAt k.point)
        else none) := by
  have hlisted : (c, chunk) ∈ w.allChunksWithCoords order :=
    World.mem_allChunksWithCoords.mpr hchunk
  obtain ⟨before, after, hsplit⟩ := List.append_of_mem hlisted
  obtain ⟨front, p, hpackets, hfull, hcoord, hlast⟩ := exists_last_packet seqNum hsplit hbatches
  -- the chunk is listed once, so the packets that follow are of other chunks
  have hnodup := w.nodup_allChunksWithCoords order
  rw [hsplit, List.map_append, List.map_cons, List.nodup_append] at hnodup
  have hafter : ∀ d ∈ (fullPackets seqNum after).map Packet.encode,
      Keeps ClientState.receive (ClientState.ownerAt k) d := by
    intro d hd
    obtain ⟨q, hq, rfl⟩ := List.mem_map.mp hd
    obtain ⟨-, -, pair, hpair, hqcoord, -⟩ := Packet.mem_packetsOf.mp hq
    obtain ⟨⟨c', chunk'⟩, hin, rfl⟩ := List.mem_map.mp hpair
    have hmem : q ∈ fullPackets seqNum (w.allChunksWithCoords order) := by
      rw [hpackets]
      exact List.mem_append_right _ hq
    refine keeps_of_other_block (fun h => ?_) (of_mem_fullPackets order seqNum hmem).2
    have hsame : c = c' := by
      apply ChunkCoord.toBlock_injective
      rw [← hblock, h, hqcoord]
    rw [← hsame] at hin
    exact (List.nodup_cons.mp hnodup.2.1).1 (List.mem_map.mpr ⟨_, hin, rfl⟩)
  rw [hpackets, List.map_append, List.map_append, List.map_singleton]
  refine Determines.append_of_keeps (determines_snoc_of_sets _ ?_) hafter
  rw [← hlast]
  refine sets_of_block hchunk hblock hfull hcoord ?_
  rw [hbatches, hlast]
  exact List.mem_append_right _ (List.mem_singleton_self _)

/-- A chunk with few live cells is one batch. -/
theorem determines_of_small (hchunk : w.tryGetChunk c = some chunk)
    (hblock : blockOf k.point = c.toBlock) (hpos : 0 < chunk.liveCells)
    (hsmall : chunk.liveCells ≤ kMaxCellsPerPacket) :
    Determines ClientState.receive (ClientState.ownerAt k)
      ((fullPackets seqNum (w.allChunksWithCoords order)).map Packet.encode)
      (snapshotOwner (w.cellAt k.point)) := by
  have hbatches : Batches.batches kMaxCellsPerPacket (fullEntries chunk) =
      [] ++ [fullEntries chunk] :=
    Batches.batches_eq_singleton (fullEntries_ne_nil_iff.mpr hpos)
      (by rw [length_fullEntries]; exact hsmall)
  have hdet := determines_of_last_batch order seqNum hchunk hblock hbatches
  cases halive : (w.cellAt k.point).alive with
  | true =>
    rw [if_pos (exists_mem_fullEntries hchunk hblock halive)] at hdet
    exact hdet
  | false =>
    have hnone : snapshotOwner (w.cellAt k.point) = none := by rw [snapshotOwner, halive]; rfl
    rw [hnone] at hdet ⊢
    rw [ite_self] at hdet
    exact hdet

/-- **A small snapshot is right wherever it says something**, and it says something
about every live cell. -/
theorem keeps_or_determines (howned : w.cellAt.Owned)
    (hsmall : ∀ c chunk, w.tryGetChunk c = some chunk → chunk.liveCells ≤ kMaxCellsPerPacket)
    (k : CellKey) :
    (liveOwner (w.cellAt k.point) = none ∧
      ∀ d ∈ (fullPackets seqNum (w.allChunksWithCoords order)).map Packet.encode,
        Keeps ClientState.receive (ClientState.ownerAt k) d) ∨
      Determines ClientState.receive (ClientState.ownerAt k)
        ((fullPackets seqNum (w.allChunksWithCoords order)).map Packet.encode)
        (liveOwner (w.cellAt k.point)) := by
  rcases named_or_unnamed w k with ⟨c, chunk, hchunk, hblock, hpos⟩ | hzero
  · have hdet := determines_of_small order seqNum hchunk hblock hpos (hsmall c chunk hchunk)
    rw [snapshotOwner_of_owned (howned k.point)] at hdet
    exact Or.inr hdet
  · exact Or.inl ⟨liveOwner_of_unnamed hzero, keeps_of_unnamed order seqNum hzero⟩

/-- The snapshot of a world with a live cell has a packet. -/
theorem fullPackets_ne_nil {q : ℤ × ℤ} (hq : (w.cellAt q).alive = true) :
    fullPackets seqNum (w.allChunksWithCoords order) ≠ [] := by
  obtain ⟨k, rfl⟩ := exists_key_of_alive hq
  intro hnil
  rcases named_or_unnamed w k with ⟨c, chunk, hchunk, -, hpos⟩ | hzero
  · obtain ⟨e, he⟩ := List.exists_mem_of_ne_nil _ (fullEntries_ne_nil_iff.mpr hpos)
    rw [← Batches.flatten_batches kMaxCellsPerPacket_pos (fullEntries chunk)] at he
    obtain ⟨batch, hbatch, -⟩ := List.mem_flatten.mp he
    have hp : (⟨seqNum, true, c, batch, Batches.length_le_of_mem_batches hbatch⟩ : Packet) ∈
        fullPackets seqNum (w.allChunksWithCoords order) :=
      Packet.mem_packetsOf.mpr ⟨rfl, rfl, _, List.mem_map.mpr ⟨(c, chunk),
        World.mem_allChunksWithCoords.mpr hchunk, rfl⟩, rfl, hbatch⟩
    rw [hnil] at hp
    exact absurd hp List.not_mem_nil
  · have hnone := liveOwner_of_unnamed hzero
    rw [liveOwner, if_pos hq] at hnone
    cases hnone

/-! ## Nothing is lost, up to a size -/

/-- When no chunk is too big, every live cell is shown afterwards. -/
theorem present_of_small (howned : w.cellAt.Owned)
    (hsmall : ∀ c chunk, w.tryGetChunk c = some chunk → chunk.liveCells ≤ kMaxCellsPerPacket)
    (s : ClientState) {q : ℤ × ℤ} (hq : (w.cellAt q).alive = true) :
    ∃ k : CellKey, k.point = q ∧
      (((fullPackets seqNum (w.allChunksWithCoords order)).map Packet.encode).foldl
        ClientState.receive s).ownerAt k = some (w.cellAt q).owner := by
  obtain ⟨k, rfl⟩ := exists_key_of_alive hq
  have hlive : liveOwner (w.cellAt k.point) = some (w.cellAt k.point).owner := if_pos hq
  refine ⟨k, rfl, ?_⟩
  rcases keeps_or_determines order seqNum howned hsmall k with ⟨hnone, -⟩ | hdet
  · rw [hlive] at hnone
    cases hnone
  · rw [← hlive]
    exact hdet s

/-- When a chunk is too big, its first live cell is not shown afterwards. -/
theorem lost_of_large (hchunk : w.tryGetChunk c = some chunk)
    (hlarge : kMaxCellsPerPacket < chunk.liveCells) (s : ClientState) :
    ∃ q, (w.cellAt q).alive = true ∧ ∀ k : CellKey, k.point = q →
      (((fullPackets seqNum (w.allChunksWithCoords order)).map Packet.encode).foldl
        ClientState.receive s).ownerAt k = none := by
  rw [← length_fullEntries] at hlarge
  obtain ⟨b, rest, hbatches⟩ := Batches.batches_of_length_gt kMaxCellsPerPacket_pos hlarge
  obtain ⟨init, last, hlast⟩ := (List.eq_nil_or_concat' (b :: rest)).resolve_left
    (List.cons_ne_nil b rest)
  -- the entries of the first batch are at other points than those of the last
  have hpairwise := pairwise_fullEntries c chunk
  rw [← Batches.flatten_batches kMaxCellsPerPacket_pos (fullEntries chunk), hbatches, hlast,
    List.flatten_cons, List.pairwise_append] at hpairwise
  obtain ⟨e, he⟩ := List.exists_mem_of_ne_nil _ (Batches.ne_nil_of_mem_batches
    kMaxCellsPerPacket_pos (hbatches ▸ List.mem_cons_self :
      (fullEntries chunk).take kMaxCellsPerPacket ∈ _))
  have hmem : e ∈ fullEntries chunk := List.mem_of_mem_take he
  obtain ⟨x, y, hx, hy, -, rfl⟩ := mem_fullEntries.mp hmem
  refine ⟨_, (of_mem_fullEntries hchunk hmem).1, fun k hk => ?_⟩
  have hblock : blockOf k.point = c.toBlock := by
    rw [hk, ← blockOf_pointOf c.toBlock hx hy]
    exact congrArg blockOf (entryPoint_fullEntry c chunk hx hy)
  rw [hlast, ← List.cons_append] at hbatches
  have hdet := determines_of_last_batch order seqNum hchunk hblock hbatches s
  rw [if_neg] at hdet
  · exact hdet
  · rintro ⟨e', he', hpoint⟩
    refine hpairwise.2.2 _ he e' ?_ (hk.symm.trans hpoint.symm)
    rw [List.flatten_append, List.flatten_singleton]
    exact List.mem_append_right _ he'

/-! ## What is repaired -/

/-- A snapshot writes only live cells with their owners, where it writes. -/
theorem repaired_of_named (hchunk : w.tryGetChunk c = some chunk)
    (hblock : blockOf k.point = c.toBlock) (hpos : 0 < chunk.liveCells) (s : ClientState)
    {id : PlayerId}
    (h : (((fullPackets seqNum (w.allChunksWithCoords order)).map Packet.encode).foldl
      ClientState.receive s).ownerAt k = some id) :
    w.cellAt k.point = { alive := true, owner := id } := by
  rcases List.eq_nil_or_concat' (Batches.batches kMaxCellsPerPacket (fullEntries chunk)) with
    hnil | ⟨init, last, hlast⟩
  · have hflat := Batches.flatten_batches kMaxCellsPerPacket_pos (fullEntries chunk)
    rw [hnil, List.flatten_nil] at hflat
    exact absurd hflat.symm (fullEntries_ne_nil_iff.mpr hpos)
  · rw [determines_of_last_batch order seqNum hchunk hblock hlast s] at h
    split_ifs at h
    exact snapshotOwner_eq_some h

/-- A stale cell outside the chunks with live cells stays. -/
theorem stale_of_unnamed
    (hk : ∀ c chunk, w.tryGetChunk c = some chunk → blockOf k.point = c.toBlock →
      chunk.liveCells = 0) (s : ClientState) :
    (((fullPackets seqNum (w.allChunksWithCoords order)).map Packet.encode).foldl
        ClientState.receive s).ownerAt k = s.ownerAt k ∧
      (w.cellAt k.point).alive = false := by
  refine ⟨read_foldl_of_keeps (keeps_of_unnamed order seqNum hk) s, ?_⟩
  have hnone := liveOwner_of_unnamed hk
  rw [liveOwner] at hnone
  cases halive : (w.cellAt k.point).alive with
  | true =>
    rw [halive] at hnone
    cases hnone
  | false => rfl

namespace GameServer

/-- The datagrams of the snapshot a session is sent. -/
theorem datagrams_getFullSnapshotForSeq (g : GameServer) :
    sendPayloadTo ((g.refreshFullSnapshotCache order).getFullSnapshotForSeq seqNum) =
      some ((fullPackets seqNum (g.world.allChunksWithCoords order)).map Packet.encode) := by
  rw [getFullSnapshotForSeq, refreshFullSnapshotCache]
  dsimp only
  rw [rewriteSnapshotSeqNums_serializeFull, payload_serializeFull]
  exact Packet.sendPayloadTo_encodeAll _

/-- **When a snapshot loses nothing.**  The live cells of the world have owners.
Whatever the client showed before, after the datagrams of the snapshot every live
cell is shown with its owner exactly when no chunk has more than
`kMaxCellsPerPacket` live cells. -/
theorem present_iff (g : GameServer) (howned : g.world.cellAt.Owned) (s : ClientState) :
    ∃ sent, sendPayloadTo ((g.refreshFullSnapshotCache order).getFullSnapshotForSeq seqNum) =
        some sent ∧
      ((∀ q, (g.world.cellAt q).alive = true → ∃ k : CellKey, k.point = q ∧
          (sent.foldl ClientState.receive s).model.aliveCells.lookup k =
            some (g.world.cellAt q).owner) ↔
        ∀ c chunk, g.world.tryGetChunk c = some chunk →
          chunk.liveCells ≤ kMaxCellsPerPacket) := by
  refine ⟨_, g.datagrams_getFullSnapshotForSeq order seqNum, fun hpresent c chunk hchunk => ?_,
    fun hsmall q hq => present_of_small order seqNum howned hsmall s hq⟩
  by_contra hlarge
  obtain ⟨q, hq, hlost⟩ := lost_of_large order seqNum hchunk (not_le.mp hlarge) s
  obtain ⟨k, hk, hsome⟩ := hpresent q hq
  have hnone := hlost k hk
  rw [ClientState.ownerAt, hsome] at hnone
  cases hnone

theorem present_iff_blinker :
    ∃ sent, sendPayloadTo ((({ world := World.blinker } : GameServer).refreshFullSnapshotCache
        sortedChunks).getFullSnapshotForSeq 1) = some sent ∧
      ((∀ q, (World.blinker.cellAt q).alive = true → ∃ k : CellKey, k.point = q ∧
          (sent.foldl ClientState.receive {}).model.aliveCells.lookup k =
            some (World.blinker.cellAt q).owner) ↔
        ∀ c chunk, World.blinker.tryGetChunk c = some chunk →
          chunk.liveCells ≤ kMaxCellsPerPacket) :=
  present_iff sortedChunks 1 { world := World.blinker } World.owned_blinker {}

end GameServer

/-- A chunk full of live cells of player `7`. -/
def crowdedChunk : Chunk where
  buffers _ := Vector.replicate TotalCells ⟨true, 7⟩

theorem getCell_crowdedChunk {x y : ℕ} (hx : x < ChunkWidth) (hy : y < ChunkHeight) :
    crowdedChunk.getCell x y = ⟨true, 7⟩ := by
  have hlt : index (x + GhostBorder) (y + GhostBorder) < TotalCells :=
    index_lt (inner_lt hx) (inner_lt' hy)
  rw [getCell, readCell, current, crowdedChunk, Vector.getElem?_replicate, if_pos hlt]
  rfl

theorem liveCells_crowdedChunk : crowdedChunk.liveCells = ChunkHeight * ChunkWidth := by
  rw [liveCells, ← length_innerCells, List.countP_eq_length]
  intro p hp
  obtain ⟨hx, hy⟩ := mem_innerCells.mp hp
  rw [getCell_crowdedChunk hx hy]

theorem owned_crowdedChunk (c : ChunkCoord) :
    (World.storeChunk {} c crowdedChunk).cellAt.Owned := by
  intro p hp
  rcases World.point_cases p with ⟨c', x, y, hx, hy, rfl⟩ | hnone
  · rw [World.cellAt_storeChunk _ _ hx hy] at hp ⊢
    split_ifs at hp ⊢
    · rw [getCell_crowdedChunk hx hy]
      decide
  · rw [World.cellAt_of_not_block _ hnone] at hp
    cases hp

namespace GameServer

/-- **A crowded chunk is lost.**  One chunk, all its cells alive. -/
theorem not_present_crowdedChunk :
    ¬ ∀ (g : GameServer), g.world.cellAt.Owned → ∀ s : ClientState, s.model.aliveCells = ∅ →
      ∃ sent, sendPayloadTo ((g.refreshFullSnapshotCache sortedChunks).getFullSnapshotForSeq 1) =
          some sent ∧
        ∀ q, (g.world.cellAt q).alive = true → ∃ k : CellKey, k.point = q ∧
          (sent.foldl ClientState.receive s).model.aliveCells.lookup k =
            some (g.world.cellAt q).owner := by
  intro hclaim
  obtain ⟨sent, hsent, hpresent⟩ :=
    hclaim { world := World.storeChunk {} ⟨0, 0⟩ crowdedChunk } (owned_crowdedChunk _) {} rfl
  rw [datagrams_getFullSnapshotForSeq] at hsent
  have hchunk : (World.storeChunk {} ⟨0, 0⟩ crowdedChunk).tryGetChunk ⟨0, 0⟩ =
      some crowdedChunk := by
    rw [World.tryGetChunk_storeChunk, if_pos rfl]
  have hlarge : kMaxCellsPerPacket < crowdedChunk.liveCells := by
    rw [liveCells_crowdedChunk]
    decide
  obtain ⟨q, hq, hlost⟩ := lost_of_large sortedChunks 1 hchunk hlarge {}
  obtain ⟨k, hk, hsome⟩ := hpresent q hq
  have hnone := hlost k hk
  rw [ClientState.ownerAt, Option.some.inj hsent, hsome] at hnone
  cases hnone

/-! ## Resync -/

/-- The snapshot a broadcast sends, to every session that needs one. -/
theorem datagrams_of_full {g : GameServer} {m : BoostNetworkManager}
    {players : FiniteMap.Traversal PlayerId} {delta : List UInt8}
    {t : BoostNetworkManager.Transmission}
    (ht : t ∈ (m.doUdpBroadcast players
      (some (g.refreshFullSnapshotCache order).getFullSnapshotForSeq) delta seqNum).2)
    (hfull : t.full = true) :
    t.datagrams =
      (fullPackets seqNum (g.world.allChunksWithCoords order)).map Packet.encode := by
  rw [BoostNetworkManager.transmissions_doUdpBroadcast] at ht
  obtain ⟨info, -, rfl⟩ := List.mem_map.mp ht
  have hneeds : info.needsFull = true := hfull
  rw [BoostNetworkManager.transmissionTo, hneeds, if_pos rfl,
    datagrams_getFullSnapshotForSeq]
  rfl

/-- **When a resync repairs everything.**  A session that has asked for it is sent
the full snapshot instead of the delta.  Afterwards every cell the client shows is
a live cell of the world with its owner, exactly when every cell it showed before
lies in a chunk with live cells. -/
theorem resync_iff (g : GameServer) (m : BoostNetworkManager)
    (players : FiniteMap.Traversal PlayerId) (delta : List UInt8)
    (t : BoostNetworkManager.Transmission)
    (ht : t ∈ (m.doUdpBroadcast players
      (some (g.refreshFullSnapshotCache order).getFullSnapshotForSeq) delta seqNum).2)
    (hfull : t.full = true) (s : ClientState) :
    (∀ (k : CellKey) (id : PlayerId),
        (t.datagrams.foldl ClientState.receive s).model.aliveCells.lookup k = some id →
          g.world.cellAt k.point = { alive := true, owner := id }) ↔
      ∀ k ∈ s.model.aliveCells, ∃ c chunk, g.world.tryGetChunk c = some chunk ∧
        blockOf k.point = c.toBlock ∧ 0 < chunk.liveCells := by
  rw [datagrams_of_full order seqNum ht hfull]
  constructor
  · intro hrepaired k hk
    refine (named_or_unnamed g.world k).resolve_right fun hzero => ?_
    obtain ⟨hsame, hdead⟩ := stale_of_unnamed order seqNum hzero s
    obtain ⟨id, hid⟩ := Finmap.mem_iff.mp hk
    have hcell := hrepaired k id (hsame.trans hid)
    rw [hcell] at hdead
    cases hdead
  · intro hnamed k id hid
    rcases named_or_unnamed g.world k with ⟨c, chunk, hchunk, hblock, hpos⟩ | hzero
    · exact repaired_of_named order seqNum hchunk hblock hpos s hid
    · have hsame := (stale_of_unnamed order seqNum hzero s).1
      obtain ⟨c, chunk, hchunk, hblock, hpos⟩ :=
        hnamed k (Finmap.mem_iff.mpr ⟨id, hsame.symm.trans hid⟩)
      rw [hzero c chunk hchunk hblock] at hpos
      exact absurd hpos (lt_irrefl 0)

/-- A manager whose only session, of player `7`, has just asked for a resync. -/
def askedManager : BoostNetworkManager :=
  let session : Session :=
    { socket := ⟨0, 0⟩, playerId := 7, handshakeDone := true, needsFullSnapshot := false
      pending := .message }
  (BoostNetworkManager.readNextMessage
    { objects := Finmap.singleton 1 session
      sessions := Finmap.singleton 7 1
      udpEndpoints := Finmap.singleton 7 ⟨0, 0⟩ } session .resync).1

/-- The answer to its request. -/
theorem exists_answer (provider : UInt32 → List UInt8) (delta : List UInt8) :
    ∃ t ∈ (askedManager.doUdpBroadcast sortedPlayers (some provider) delta seqNum).2,
      t.full = true := by
  rw [BoostNetworkManager.transmissions_doUdpBroadcast]
  have hinfo : ⟨7, ⟨0, 0⟩, true⟩ ∈ askedManager.sessionInfos sortedPlayers := by
    rw [BoostNetworkManager.mem_sessionInfos]
    exact ⟨by decide, by decide, by decide⟩
  exact ⟨_, List.mem_map.mpr ⟨_, hinfo, rfl⟩, rfl⟩

/-- A client that shows a cell of player 9 in the chunk of the blinker, where there is none. -/
def staleClient : ClientState := { model := { aliveCells := Finmap.singleton ⟨5, 5⟩ 9 } }

/-- The snapshot of the blinker repairs it. -/
theorem resync_iff_blinker :
    ∃ t ∈ (askedManager.doUdpBroadcast sortedPlayers
        (some (({ world := World.blinker } : GameServer).refreshFullSnapshotCache
          sortedChunks).getFullSnapshotForSeq) [] 1).2,
      ∀ (k : CellKey) (id : PlayerId),
        (t.datagrams.foldl ClientState.receive staleClient).model.aliveCells.lookup k = some id →
          World.blinker.cellAt k.point = { alive := true, owner := id } := by
  obtain ⟨t, ht, hfull⟩ := exists_answer 1 (GameServer.getFullSnapshotForSeq
    (({ world := World.blinker } : GameServer).refreshFullSnapshotCache sortedChunks)) []
  have hx : 1 < ChunkWidth := by decide
  have hy : 2 < ChunkHeight := by decide
  refine ⟨t, ht, (resync_iff sortedChunks 1 { world := World.blinker } askedManager sortedPlayers []
    t ht hfull staleClient).mpr fun k hk => ?_⟩
  rw [(Finmap.mem_singleton k ⟨5, 5⟩ 9).mp hk]
  refine ⟨⟨0, 0⟩, _, Finmap.lookup_insert _, by decide, liveCells_pos_iff.mpr ⟨1, 2, hx, hy, ?_⟩⟩
  rw [getCell_setCell _ _ hx hy hx]
  exact congrArg CellState.alive (if_pos ⟨rfl, rfl⟩)

/-- **A stale cell far away stays.**  The world has live cells in the chunk `(0, 0)`
only; the client also shows one at `(6400, 0)`. -/
theorem not_repaired_far_away :
    ¬ ∀ (g : GameServer) (m : BoostNetworkManager) (delta : List UInt8),
      ∀ t ∈ (m.doUdpBroadcast sortedPlayers
        (some (g.refreshFullSnapshotCache sortedChunks).getFullSnapshotForSeq) delta 1).2,
      t.full = true → ∀ (s : ClientState) (k : CellKey) (id : PlayerId),
        (t.datagrams.foldl ClientState.receive s).model.aliveCells.lookup k = some id →
          g.world.cellAt k.point = { alive := true, owner := id } := by
  intro hclaim
  let g : GameServer := { world := World.blinker }
  obtain ⟨t, ht, hfull⟩ := exists_answer 1
    (g.refreshFullSnapshotCache sortedChunks).getFullSnapshotForSeq []
  have hzero : ∀ c chunk, World.blinker.tryGetChunk c = some chunk →
      blockOf (CellKey.mk 6400 0).point = c.toBlock → chunk.liveCells = 0 := by
    intro c chunk hchunk hblock
    rw [World.eq_of_mem_blinker (World.mem_chunks_iff.mpr ⟨chunk, hchunk⟩)] at hblock
    exact absurd hblock (by decide)
  obtain ⟨hsame, hdead⟩ := stale_of_unnamed sortedChunks 1 hzero
    { model := { aliveCells := Finmap.singleton ⟨6400, 0⟩ 7 } }
  have hcell := hclaim g askedManager [] t ht hfull
    { model := { aliveCells := Finmap.singleton ⟨6400, 0⟩ 7 } } ⟨6400, 0⟩ 7
  rw [datagrams_of_full sortedChunks 1 ht hfull] at hcell
  have hlive := hcell (hsame.trans (Finmap.lookup_singleton_eq))
  rw [hlive] at hdead
  cases hdead

end GameServer

end Multilife

import Multilife.Foundations.Batches
import Multilife.Foundations.LittleEndian
import Multilife.Foundations.Transition
import Multilife.Server.Chunk
import Multilife.Server.Protocol

/-!
# Serializing the world

`WorldSerializer.hpp`.  An update is one byte string, the packets of all chunks
one after another; the packets of a chunk are cut from its list of entries,
`kMaxCellsPerPacket` at a time.  The serializer writes each field at its offset in
a fresh block of bytes, in the order of the offsets, so a packet is the
concatenation of its fields.

* `serializeDelta_eq`, `serializeFull_eq`: an update is the packets of each chunk
  in the order of the list.  A delta packs the dirty cells with the state they
  have now, and leaves every listed chunk clean; a full snapshot packs the live
  cells.
-/

namespace Multilife

open proto LittleEndian Batches Transition

/-- `WorldSerializer::Entry`. -/
structure Entry where
  x : UInt8
  y : UInt8
  alive : UInt8
  owner : UInt64
  deriving DecidableEq, Repr

namespace WorldSerializer

/-- The bytes of one cell entry. -/
def encodeEntry (e : Entry) : List UInt8 := [e.x, e.y, e.alive] ++ writeLE e.owner

/-- The bytes of one packet, in the order of the field offsets. -/
def encodePacket (seqNum : UInt32) (flags : UInt8) (coord : ChunkCoord)
    (entries : List Entry) : List UInt8 :=
  writeLE seqNum ++ [flags] ++ writeLE coord.x ++ writeLE coord.y ++
    writeLE (UInt16.ofNat entries.length) ++ entries.flatMap encodeEntry

def appendChunk (out : List UInt8) (seqNum : UInt32) (flags : UInt8) (coord : ChunkCoord)
    (entries : List Entry) : List UInt8 :=
  if entries.isEmpty then out
  else (batches kMaxCellsPerPacket entries).foldl
    (fun out batch => out ++ encodePacket seqNum flags coord batch) out

/-- The entry of a dirty cell: the state it has when it is serialized. -/
def deltaEntry (chunk : Chunk) (dc : Chunk.DirtyCell) : Entry :=
  let state := chunk.getCell dc.x.toNat dc.y.toNat
  ⟨dc.x, dc.y, if state.alive then 1 else 0, state.owner⟩

def deltaEntries (chunk : Chunk) : List Entry := chunk.dirtyCells.map (deltaEntry chunk)

/-- `serializeDelta`: the update, and the chunks as they are left. -/
def serializeDelta (seqNum : UInt32) (chunks : List (ChunkCoord × Chunk)) :
    List UInt8 × List (ChunkCoord × Chunk) :=
  chunks.foldl
    (fun acc e =>
      if !e.2.isDirty then (acc.1, acc.2 ++ [e])
      else (appendChunk acc.1 seqNum kFlagDelta e.1 (deltaEntries e.2),
        acc.2 ++ [(e.1, e.2.clearDirty)]))
    ([], [])

/-- The entries of the live cells, row by row. -/
def fullEntries (chunk : Chunk) : List Entry :=
  Chunk.innerCells.filterMap fun p =>
    let state := chunk.getCell p.1 p.2
    if state.alive then some ⟨UInt8.ofNat p.1, UInt8.ofNat p.2, 1, state.owner⟩ else none

def serializeFull (seqNum : UInt32) (chunks : List (ChunkCoord × Chunk)) : List UInt8 :=
  chunks.foldl
    (fun out e =>
      let entries := fullEntries e.2
      if entries.isEmpty then out else appendChunk out seqNum kFlagFull e.1 entries)
    []

/-! ## An update is the packets of its chunks -/

/-- The packets of one chunk. -/
def chunkPackets (seqNum : UInt32) (flags : UInt8) (coord : ChunkCoord)
    (entries : List Entry) : List UInt8 :=
  (batches kMaxCellsPerPacket entries).flatMap (encodePacket seqNum flags coord)

theorem appendChunk_eq (out : List UInt8) (seqNum : UInt32) (flags : UInt8)
    (coord : ChunkCoord) (entries : List Entry) :
    appendChunk out seqNum flags coord entries =
      out ++ chunkPackets seqNum flags coord entries := by
  unfold appendChunk chunkPackets
  cases entries with
  | nil => rw [batches_nil kMaxCellsPerPacket_pos, List.flatMap_nil, List.append_nil]; rfl
  | cons e entries =>
    rw [List.isEmpty_cons, if_neg Bool.false_ne_true, List.foldl_append_eq_append, List.flatMap_def]

/-- A clean chunk has no entries, and clearing it changes nothing. -/
theorem deltaEntries_of_not_dirty {chunk : Chunk} (h : chunk.isDirty = false) :
    deltaEntries chunk = [] ∧ chunk.clearDirty = chunk := by
  have hnil : chunk.dirtyCells = [] := by simpa [Chunk.isDirty] using h
  refine ⟨by rw [deltaEntries, hnil, List.map_nil], ?_⟩
  rw [Chunk.clearDirty, ← hnil]

/-- The body of the loop of `serializeDelta`, for a clean chunk and for a dirty one. -/
theorem serializeDelta_step (seqNum : UInt32) (acc : List UInt8 × List (ChunkCoord × Chunk))
    (e : ChunkCoord × Chunk) :
    (if !e.2.isDirty then (acc.1, acc.2 ++ [e])
      else (appendChunk acc.1 seqNum kFlagDelta e.1 (deltaEntries e.2),
        acc.2 ++ [(e.1, e.2.clearDirty)])) =
      (acc.1 ++ chunkPackets seqNum kFlagDelta e.1 (deltaEntries e.2),
        acc.2 ++ [(e.1, e.2.clearDirty)]) := by
  by_cases h : e.2.isDirty = true
  · rw [if_neg (by simp [h]), appendChunk_eq]
  · have hclean : e.2.isDirty = false := Bool.eq_false_iff.mpr h
    obtain ⟨hentries, hclear⟩ := deltaEntries_of_not_dirty hclean
    rw [if_pos (by simp [hclean]), hentries, hclear, chunkPackets,
      batches_nil kMaxCellsPerPacket_pos, List.flatMap_nil, List.append_nil]

/-- **A delta.**  The packets of the dirty cells of every chunk; all chunks are
left clean. -/
theorem serializeDelta_eq (seqNum : UInt32) (chunks : List (ChunkCoord × Chunk)) :
    serializeDelta seqNum chunks =
      (chunks.flatMap fun e => chunkPackets seqNum kFlagDelta e.1 (deltaEntries e.2),
        chunks.map fun e => (e.1, e.2.clearDirty)) := by
  simp only [serializeDelta, serializeDelta_step, List.map_eq_flatMap]
  refine Prod.ext ?_ ?_
  · rw [foldl_appends (r := Prod.fst) (fun _ _ => rfl), List.nil_append]
  · rw [foldl_appends (r := Prod.snd) (fun _ _ => rfl), List.nil_append]

/-- **A full snapshot.**  The packets of the live cells of every chunk. -/
theorem serializeFull_eq (seqNum : UInt32) (chunks : List (ChunkCoord × Chunk)) :
    serializeFull seqNum chunks =
      chunks.flatMap fun e => chunkPackets seqNum kFlagFull e.1 (fullEntries e.2) := by
  have hstep : ∀ (out : List UInt8) (e : ChunkCoord × Chunk),
      (if (fullEntries e.2).isEmpty then out
        else appendChunk out seqNum kFlagFull e.1 (fullEntries e.2)) =
        out ++ chunkPackets seqNum kFlagFull e.1 (fullEntries e.2) := by
    intro out e
    cases hentries : fullEntries e.2 with
    | nil =>
      rw [chunkPackets, batches_nil kMaxCellsPerPacket_pos, List.flatMap_nil, List.append_nil]
      rfl
    | cons a entries => rw [List.isEmpty_cons, if_neg Bool.false_ne_true, appendChunk_eq]
  exact foldl_appends (r := id) hstep [] chunks

/-! ## Entries -/

theorem mem_deltaEntries {chunk : Chunk} {e : Entry} :
    e ∈ deltaEntries chunk ↔ ∃ dc ∈ chunk.dirtyCells, deltaEntry chunk dc = e :=
  List.mem_map

/-- The live cells of a chunk, as entries. -/
theorem mem_fullEntries {chunk : Chunk} {e : Entry} :
    e ∈ fullEntries chunk ↔
      ∃ x y, x < ChunkWidth ∧ y < ChunkHeight ∧ (chunk.getCell x y).alive = true ∧
        e = ⟨UInt8.ofNat x, UInt8.ofNat y, 1, (chunk.getCell x y).owner⟩ := by
  unfold fullEntries
  rw [List.mem_filterMap]
  constructor
  · rintro ⟨p, hp, he⟩
    obtain ⟨hx, hy⟩ := Chunk.mem_innerCells.mp hp
    by_cases halive : (chunk.getCell p.1 p.2).alive = true
    · simp only [halive, if_true, Option.some.injEq] at he
      exact ⟨p.1, p.2, hx, hy, halive, he.symm⟩
    · simp [halive] at he
  · rintro ⟨x, y, hx, hy, halive, rfl⟩
    exact ⟨(x, y), Chunk.mem_innerCells.mpr ⟨hx, hy⟩, by simp [halive]⟩

end WorldSerializer
end Multilife

import Multilife.Refinement.UdpFraming

/-!
# From the serializer's entries to the client's cells

A payload is framed three times: the serializer splits each chunk's entries into
packets, `sendPayloadTo` finds the packet boundaries again, and the client parses every
datagram on its own.  `RoundTrips` says that nothing is lost on the way: the datagrams
are the payload cut at the packet boundaries, every one of them is accepted, and the
cells parsed for a chunk are the ones that were collected for it, in their order.

`roundTrips_packetsOf` proves it for the packets of any list of distinct chunks, and
`roundTrips_serialize` reads it for the two payloads of the server.
-/

namespace Multilife

open LittleEndian Batches proto WorldSerializer Client Packet

/-! ## The truncating branch -/

/-- `sendPayloadTo` meets a packet that is longer than a datagram may be. -/
def truncates (payload : List UInt8) : Bool :=
  if kUdpHeader ≤ payload.length then
    let cellCount := readLE UInt16 payload kOffCellCount
    let pktSize := kUdpHeader + cellCount.toNat * kUdpCellEntry
    if pktSize > kMaxUdpPayload then true else truncates (payload.drop pktSize)
  else false
termination_by payload.length
decreasing_by
  simp only [List.length_drop, kUdpHeader] at *
  omega

namespace Packet

/-- A packet never is. -/
theorem truncates_encode_append (p : Packet) (rest : List UInt8) :
    truncates (p.encode ++ rest) = truncates rest := by
  have hlen := p.length_encode
  have htotal := p.length_encode_append rest
  rw [truncates, if_pos (by omega)]
  dsimp only
  rw [p.cellCount_encode rest, if_neg (Nat.not_lt.mpr (packet_fits p.length_le)), ← hlen,
    List.drop_left]

theorem truncates_encodeAll (packets : List Packet) : truncates (encodeAll packets) = false := by
  induction packets with
  | nil =>
    have hnot : ¬ kUdpHeader ≤ ([] : List UInt8).length := by decide
    rw [encodeAll, List.flatMap_nil, truncates, if_neg hnot]
  | cons p packets ih => rw [encodeAll_cons, truncates_encode_append, ih]

/-! ## The packets of one chunk among all -/

variable {seqNum : UInt32} {full : Bool}

/-- The entries of a chunk are what its packets carry, one after another. -/
theorem flatMap_entries_ofChunk (coord : ChunkCoord) (entries : List Entry) :
    (ofChunk seqNum full coord entries).flatMap Packet.entries = entries := by
  rw [List.flatMap_def, map_entries_ofChunk, flatten_batches kMaxCellsPerPacket_pos]

/-- **Chunks do not mix.**  Of the packets of distinct chunks, those that name a chunk
are its own, in their order. -/
theorem filter_packetsOf {chunks : List (ChunkCoord × List Entry)}
    (hchunks : (chunks.map Prod.fst).Nodup) {e : ChunkCoord × List Entry} (he : e ∈ chunks) :
    (packetsOf seqNum full chunks).filter (fun p => decide (p.coord = e.1)) =
      ofChunk seqNum full e.1 e.2 := by
  have hown : ∀ (coord : ChunkCoord) (entries : List Entry),
      (ofChunk seqNum full coord entries).filter (fun p => decide (p.coord = e.1)) =
        if coord = e.1 then ofChunk seqNum full coord entries else [] := by
    intro coord entries
    split_ifs with h
    · exact List.filter_eq_self.mpr fun p hp =>
        decide_eq_true ((mem_ofChunk.mp hp).2.2.1.trans h)
    · refine List.filter_eq_nil_iff.mpr fun p hp hcoord => h ?_
      exact (mem_ofChunk.mp hp).2.2.1.symm.trans (of_decide_eq_true hcoord)
  induction chunks with
  | nil => exact absurd he List.not_mem_nil
  | cons a chunks ih =>
    obtain ⟨hnot, hrest⟩ := List.nodup_cons.mp hchunks
    rw [packetsOf, List.flatMap_cons, List.filter_append, hown, ← packetsOf]
    rcases List.mem_cons.mp he with rfl | he
    · have hnone : (packetsOf seqNum full chunks).filter (fun p => decide (p.coord = e.1)) = [] := by
        refine List.filter_eq_nil_iff.mpr fun p hp hcoord => hnot ?_
        obtain ⟨-, -, b, hb, hpb, -⟩ := mem_packetsOf.mp hp
        rw [← of_decide_eq_true hcoord, hpb]
        exact List.mem_map_of_mem hb
      rw [if_pos rfl, hnone, List.append_nil]
    · have hne : a.1 ≠ e.1 := fun h => hnot (h ▸ List.mem_map_of_mem he)
      rw [if_neg hne, List.nil_append, ih hrest he]

end Packet

/-! ## The round trip -/

/-- What the client parses from a packet. -/
def parsedOf (p : Packet) : ParsedUdpWorldPacket where
  seqNum := p.seqNum
  fullSnapshot := p.full
  chunkX := p.coord.x
  chunkY := p.coord.y
  cells := p.entries.map toUpdate

/-- The payload reaches the client whole: it is cut into datagrams that fit, without
reading past its end, truncating a packet or leaving a rest; the client accepts each of
them, with the number, the kind and the coordinates of one of the chunks; and what it
parses for a chunk is the given list of cells. -/
def RoundTrips (seqNum : UInt32) (full : Bool) (chunks : List (ChunkCoord × List UdpCellUpdate))
    (payload : List UInt8) : Prop :=
  ∃ (datagrams : List (List UInt8)) (packets : List ParsedUdpWorldPacket),
    sendPayloadTo payload = some datagrams ∧ truncates payload = false ∧
    datagrams.flatten = payload ∧ (∀ d ∈ datagrams, d.length ≤ kMaxUdpPayload) ∧
    datagrams.map parseUdpWorldPacket = packets.map some ∧
    (∀ p ∈ packets, p.seqNum = seqNum ∧ p.fullSnapshot = full ∧
      ∃ e ∈ chunks, (⟨p.chunkX, p.chunkY⟩ : ChunkCoord) = e.1) ∧
    ∀ e ∈ chunks, (packets.filter fun p =>
      decide ((⟨p.chunkX, p.chunkY⟩ : ChunkCoord) = e.1)).flatMap ParsedUdpWorldPacket.cells = e.2

/-- **The packets of distinct chunks reach the client whole.** -/
theorem roundTrips_packetsOf (seqNum : UInt32) (full : Bool)
    {chunks : List (ChunkCoord × List Entry)} (hchunks : (chunks.map Prod.fst).Nodup) :
    RoundTrips seqNum full (chunks.map fun e => (e.1, e.2.map toUpdate))
      (encodeAll (packetsOf seqNum full chunks)) := by
  refine ⟨_, (packetsOf seqNum full chunks).map parsedOf, sendPayloadTo_encodeAll _,
    truncates_encodeAll _, (List.flatMap_def ..).symm, fun d hd => ?_, ?_, fun p hp => ?_,
    fun e he => ?_⟩
  · obtain ⟨p, -, rfl⟩ := List.mem_map.mp hd
    rw [length_encode]
    exact packet_fits p.length_le
  · rw [List.map_map, List.map_map]
    refine List.map_congr_left fun p _ => ?_
    rw [Function.comp_apply, Function.comp_apply, parseUdpWorldPacket_encode, parsedOf]
  · obtain ⟨q, hq, rfl⟩ := List.mem_map.mp hp
    obtain ⟨hseq, hfull, e, he, hcoord, -⟩ := mem_packetsOf.mp hq
    exact ⟨hseq, hfull, _, List.mem_map_of_mem he, hcoord⟩
  · obtain ⟨a, ha, rfl⟩ := List.mem_map.mp he
    rw [List.filter_map, List.flatMap_map]
    have hfilter := @filter_packetsOf seqNum full chunks hchunks a ha
    have hcells : (ofChunk seqNum full a.1 a.2).flatMap (fun p => p.entries.map toUpdate) =
        a.2.map toUpdate := by
      rw [← List.map_flatMap, flatMap_entries_ofChunk]
    exact (congrArg (List.flatMap fun p => p.entries.map toUpdate) hfilter).trans hcells

/-! ## The two payloads -/

/-- The dirty cells of a chunk, in the order they were marked, with their state. -/
def dirtyUpdates (chunk : Chunk) : List UdpCellUpdate :=
  chunk.dirtyCells.map fun dc =>
    let state := chunk.getCell dc.x.toNat dc.y.toNat
    ⟨dc.x, dc.y, state.alive, state.owner⟩

/-- The live cells of a chunk, row by row, with their owner. -/
def liveUpdates (chunk : Chunk) : List UdpCellUpdate :=
  (Chunk.innerCells.filter fun p => (chunk.getCell p.1 p.2).alive).map fun p =>
    ⟨UInt8.ofNat p.1, UInt8.ofNat p.2, true, (chunk.getCell p.1 p.2).owner⟩

theorem map_toUpdate_deltaEntries (chunk : Chunk) :
    (deltaEntries chunk).map toUpdate = dirtyUpdates chunk := by
  rw [deltaEntries, List.map_map, dirtyUpdates]
  refine List.map_congr_left fun dc _ => ?_
  simp only [Function.comp, deltaEntry, toUpdate]
  cases (chunk.getCell dc.x.toNat dc.y.toNat).alive <;> rfl

theorem map_toUpdate_fullEntries (chunk : Chunk) :
    (fullEntries chunk).map toUpdate = liveUpdates chunk := by
  rw [fullEntries, liveUpdates]
  induction Chunk.innerCells with
  | nil => rfl
  | cons p l ih =>
    cases halive : (chunk.getCell p.1 p.2).alive with
    | true => simp [halive, ih, toUpdate]
    | false => simp [halive, ih]

/-- **UDP framing round-trips.**  For distinct chunks, both the delta and the full
snapshot reach the client whole: the dirty cells in marking order, and the live cells in
row order. -/
theorem roundTrips_serialize (seqNum : UInt32) {chunks : List (ChunkCoord × Chunk)}
    (hchunks : (chunks.map Prod.fst).Nodup) :
    RoundTrips seqNum false (chunks.map fun e => (e.1, dirtyUpdates e.2))
        (serializeDelta seqNum chunks).1 ∧
      RoundTrips seqNum true (chunks.map fun e => (e.1, liveUpdates e.2))
        (serializeFull seqNum chunks) := by
  have hfst : ∀ f : Chunk → List Entry,
      ((chunks.map fun e => (e.1, f e.2)).map Prod.fst).Nodup := fun f => by
    rw [List.map_map]
    exact hchunks
  constructor
  · have h := roundTrips_packetsOf seqNum false (hfst deltaEntries)
    rw [List.map_map] at h
    rw [payload_serializeDelta]
    simpa only [Function.comp_def, map_toUpdate_deltaEntries] using h
  · have h := roundTrips_packetsOf seqNum true (hfst fullEntries)
    rw [List.map_map] at h
    rw [payload_serializeFull]
    simpa only [Function.comp_def, map_toUpdate_fullEntries] using h

/-- One chunk with one dirty live cell, at a corner. -/
theorem roundTrips_serialize_corner :
    RoundTrips 5 false [(⟨-1, 2⟩, [⟨63, 0, true, 9⟩])]
      (serializeDelta 5 [(⟨-1, 2⟩, ({} : Chunk).setCell 63 0 ⟨true, 9⟩)]).1 := by
  have hcells : dirtyUpdates (({} : Chunk).setCell 63 0 ⟨true, 9⟩) = [⟨63, 0, true, 9⟩] := by
    have hcell : (({} : Chunk).setCell 63 0 ⟨true, 9⟩).getCell 63 0 = ⟨true, 9⟩ := by
      rw [Chunk.getCell_setCell {} _ (by decide) (by decide) (by decide), if_pos ⟨rfl, rfl⟩]
    rw [dirtyUpdates, Chunk.dirtyCells_setCell]
    exact congrArg (fun cell => [(⟨63, 0, cell.alive, cell.owner⟩ : UdpCellUpdate)]) hcell
  have hone : ([((⟨-1, 2⟩ : ChunkCoord), ({} : Chunk).setCell 63 0 ⟨true, 9⟩)].map
      Prod.fst).Nodup := List.nodup_singleton _
  rw [← hcells]
  exact (roundTrips_serialize 5 hone).1

end Multilife

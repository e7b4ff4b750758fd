import Multilife.Client.GameNetworkClient
import Multilife.Server.BoostNetworkManager
import Multilife.Server.GameServer

/-!
# From the serializer to the client, packet by packet

A `Packet` is what one datagram says: a sequence number, a kind, a chunk, and at
most `kMaxCellsPerPacket` entries.  Three loops walk over a payload without knowing
where it came from: `sendPayloadTo` cuts it, `rewriteSnapshotSeqNums` restamps it,
and the client parses what arrives.  On a concatenation of encoded packets each of
them does packet by packet what it should.

* `payload_serializeDelta`, `payload_serializeFull`: a payload is the concatenation
  of `packetsOf` its chunks.
* `sendPayloadTo_encodeAll`: the datagrams are the packets, nothing is cut and
  nothing is read past the end.
* `rewriteSnapshotSeqNums_encodeAll`: restamping is restamping every packet.
* `parseUdpWorldPacket_encode`: the client reads back what was packed.
-/

namespace Multilife

open LittleEndian Batches proto WorldSerializer Client

/-- The content of one datagram. -/
structure Packet where
  seqNum : UInt32
  full : Bool
  coord : ChunkCoord
  entries : List Entry
  length_le : entries.length ≤ kMaxCellsPerPacket

namespace Packet

/-- The flag byte of a kind of packet. -/
def flags (full : Bool) : UInt8 := if full then kFlagFull else kFlagDelta

/-- The bytes the serializer writes. -/
def encode (p : Packet) : List UInt8 := encodePacket p.seqNum (flags p.full) p.coord p.entries

/-- The same packet under another number. -/
def restamp (seqNum : UInt32) (p : Packet) : Packet := { p with seqNum := seqNum }

def encodeAll (packets : List Packet) : List UInt8 := packets.flatMap encode

theorem encodeAll_cons (p : Packet) (packets : List Packet) :
    encodeAll (p :: packets) = p.encode ++ encodeAll packets := List.flatMap_cons

/-- The packets of one chunk. -/
def ofChunk (seqNum : UInt32) (full : Bool) (coord : ChunkCoord) (entries : List Entry) :
    List Packet :=
  (batches kMaxCellsPerPacket entries).pmap
    (fun batch h => { seqNum := seqNum, full := full, coord := coord, entries := batch, length_le := h })
    fun _ h => length_le_of_mem_batches h

/-- The packets of a list of chunks, each with its entries. -/
def packetsOf (seqNum : UInt32) (full : Bool) (chunks : List (ChunkCoord × List Entry)) :
    List Packet :=
  chunks.flatMap fun e => ofChunk seqNum full e.1 e.2

/-- A packet of a chunk is one of its batches. -/
theorem mem_ofChunk {seqNum : UInt32} {full : Bool} {coord : ChunkCoord} {entries : List Entry}
    {p : Packet} :
    p ∈ ofChunk seqNum full coord entries ↔
      p.seqNum = seqNum ∧ p.full = full ∧ p.coord = coord ∧
        p.entries ∈ batches kMaxCellsPerPacket entries := by
  rw [ofChunk, List.mem_pmap]
  constructor
  · rintro ⟨batch, hbatch, rfl⟩
    exact ⟨rfl, rfl, rfl, hbatch⟩
  · rintro ⟨rfl, rfl, rfl, hbatch⟩
    exact ⟨p.entries, hbatch, rfl⟩

/-- The packets of a chunk carry its batches, in their order. -/
theorem map_entries_ofChunk (seqNum : UInt32) (full : Bool) (coord : ChunkCoord)
    (entries : List Entry) :
    (ofChunk seqNum full coord entries).map Packet.entries = batches kMaxCellsPerPacket entries := by
  rw [ofChunk, List.map_pmap]
  show List.pmap (fun batch _ => batch) _ _ = _
  rw [List.pmap_eq_map, List.map_id']

theorem mem_packetsOf {seqNum : UInt32} {full : Bool} {chunks : List (ChunkCoord × List Entry)}
    {p : Packet} :
    p ∈ packetsOf seqNum full chunks ↔
      p.seqNum = seqNum ∧ p.full = full ∧
        ∃ e ∈ chunks, p.coord = e.1 ∧ p.entries ∈ batches kMaxCellsPerPacket e.2 := by
  rw [packetsOf, List.mem_flatMap]
  constructor
  · rintro ⟨e, he, hp⟩
    obtain ⟨h1, h2, h3, h4⟩ := mem_ofChunk.mp hp
    exact ⟨h1, h2, e, he, h3, h4⟩
  · rintro ⟨h1, h2, e, he, h3, h4⟩
    exact ⟨e, he, mem_ofChunk.mpr ⟨h1, h2, h3, h4⟩⟩

/-- Encoding the packets of one chunk is what the serializer appends. -/
theorem encodeAll_ofChunk (seqNum : UInt32) (full : Bool) (coord : ChunkCoord)
    (entries : List Entry) :
    encodeAll (ofChunk seqNum full coord entries) =
      chunkPackets seqNum (flags full) coord entries := by
  rw [encodeAll, ofChunk, chunkPackets, List.flatMap_def, List.map_pmap, List.flatMap_def]
  congr 1
  show List.pmap (fun batch _ => encodePacket seqNum (flags full) coord batch) _ _ = _
  rw [List.pmap_eq_map]

theorem encodeAll_packetsOf (seqNum : UInt32) (full : Bool)
    (chunks : List (ChunkCoord × List Entry)) :
    encodeAll (packetsOf seqNum full chunks) =
      chunks.flatMap fun e => chunkPackets seqNum (flags full) e.1 e.2 := by
  rw [encodeAll, packetsOf, List.flatMap_assoc]
  exact List.flatMap_congr fun e _ => encodeAll_ofChunk seqNum full e.1 e.2

theorem restamp_packetsOf (seqNum seqNum' : UInt32) (full : Bool)
    (chunks : List (ChunkCoord × List Entry)) :
    (packetsOf seqNum full chunks).map (restamp seqNum') = packetsOf seqNum' full chunks := by
  rw [packetsOf, packetsOf, List.map_flatMap]
  refine List.flatMap_congr fun e _ => ?_
  rw [ofChunk, ofChunk, List.map_pmap]
  rfl

/-! ## The fields of an encoded packet -/

/-- The entries as bytes. -/
def body (p : Packet) : List UInt8 := p.entries.flatMap encodeEntry

/-- An encoded packet is a sequence of fields, whatever follows it. -/
theorem encode_append (p : Packet) (rest : List UInt8) :
    p.encode ++ rest =
      writeLE p.seqNum ++ ([flags p.full] ++ (writeLE p.coord.x ++ (writeLE p.coord.y ++
        (writeLE (UInt16.ofNat p.entries.length) ++ (p.body ++ rest))))) := by
  simp only [encode, encodePacket, body, List.append_assoc]

theorem length_encodeEntry (e : Entry) : (encodeEntry e).length = kUdpCellEntry := by
  rw [encodeEntry, List.length_append, length_writeLE]
  rfl

theorem length_body (p : Packet) : p.body.length = p.entries.length * kUdpCellEntry := by
  rw [body]
  induction p.entries with
  | nil => rw [List.flatMap_nil, List.length_nil, List.length_nil, Nat.zero_mul]
  | cons e entries ih =>
    rw [List.flatMap_cons, List.length_append, ih, length_encodeEntry, List.length_cons,
      Nat.succ_mul, Nat.add_comm]

theorem length_encode (p : Packet) :
    p.encode.length = kUdpHeader + p.entries.length * kUdpCellEntry := by
  have h := congrArg List.length (p.encode_append [])
  simp only [List.length_append, length_writeLE, List.length_nil, length_body,
    List.length_singleton, Nat.add_zero] at h
  rw [h, ← Nat.add_assoc, ← Nat.add_assoc, ← Nat.add_assoc, ← Nat.add_assoc]
  rfl

/-- The count field. -/
theorem cellCount_encode (p : Packet) (rest : List UInt8) :
    (readLE UInt16 (p.encode ++ rest) kOffCellCount).toNat = p.entries.length := by
  have hfield : readLE UInt16 (p.encode ++ rest) kOffCellCount =
      UInt16.ofNat p.entries.length := by
    refine readLE_of_eq
      (writeLE p.seqNum ++ ([flags p.full] ++ (writeLE p.coord.x ++ writeLE p.coord.y)))
      (p.body ++ rest) ?_ ?_
    · rw [encode_append]
      simp only [List.append_assoc]
    · simp only [List.length_append, length_writeLE]
      rfl
  have hmax : kMaxCellsPerPacket < 2 ^ 16 := by decide
  rw [hfield]
  exact UInt16.toNat_ofNat_of_lt' (lt_of_le_of_lt p.length_le hmax)

theorem length_encode_append (p : Packet) (rest : List UInt8) :
    (p.encode ++ rest).length = kUdpHeader + p.entries.length * kUdpCellEntry + rest.length := by
  rw [List.length_append, p.length_encode]

theorem encode_ne_nil (p : Packet) : p.encode ≠ [] := by
  intro h
  have hlen := p.length_encode
  rw [h, List.length_nil, kUdpHeader] at hlen
  omega

/-! ## Cutting and restamping -/

/-- The first datagram of a payload that starts with a packet is that packet. -/
theorem sendPayloadTo_encode_append (p : Packet) (rest : List UInt8) :
    sendPayloadTo (p.encode ++ rest) = (sendPayloadTo rest).map (p.encode :: ·) := by
  have hlen := p.length_encode
  have htotal := p.length_encode_append rest
  have hcount := p.cellCount_encode rest
  rw [sendPayloadTo, if_pos (by omega)]
  dsimp only
  rw [hcount, if_neg (Nat.not_lt.mpr (packet_fits p.length_le)), if_neg (by omega), ← hlen,
    List.drop_left, List.take_left]

/-- **Cutting a payload.**  The datagrams are the packets. -/
theorem sendPayloadTo_encodeAll (packets : List Packet) :
    sendPayloadTo (encodeAll packets) = some (packets.map encode) := by
  induction packets with
  | nil =>
    have hnot : ¬ kUdpHeader ≤ ([] : List UInt8).length := by decide
    rw [encodeAll, List.flatMap_nil, sendPayloadTo, if_neg hnot, List.map_nil]
  | cons p packets ih =>
    rw [encodeAll_cons, sendPayloadTo_encode_append, ih, List.map_cons]
    rfl

/-- Patching the number of a packet restamps it. -/
theorem patch_encode (p : Packet) (seqNum : UInt32) :
    patchLE seqNum p.encode kOffSeqNum = (restamp seqNum p).encode := by
  have hsplit : p.encode = [] ++ (writeLE p.seqNum ++ ([flags p.full] ++ (writeLE p.coord.x ++
      (writeLE p.coord.y ++ (writeLE (UInt16.ofNat p.entries.length) ++ p.body))))) := by
    have h := p.encode_append []
    rw [List.append_nil, List.append_nil] at h
    exact h
  rw [patchLE_of_eq [] _ seqNum hsplit (show _ = kOffSeqNum from rfl), List.nil_append]
  have h := (restamp seqNum p).encode_append []
  rw [List.append_nil, List.append_nil] at h
  exact h.symm

theorem rewriteSnapshotSeqNums_encode_append (p : Packet) (rest : List UInt8) (seqNum : UInt32) :
    rewriteSnapshotSeqNums (p.encode ++ rest) seqNum =
      (restamp seqNum p).encode ++ rewriteSnapshotSeqNums rest seqNum := by
  have hlen := p.length_encode
  have htotal := p.length_encode_append rest
  rw [rewriteSnapshotSeqNums, if_pos (by omega)]
  dsimp only
  rw [p.cellCount_encode rest, if_neg (by omega), ← hlen, List.drop_left, List.take_left, patch_encode]

/-- **Restamping a payload** restamps every packet. -/
theorem rewriteSnapshotSeqNums_encodeAll (packets : List Packet) (seqNum : UInt32) :
    rewriteSnapshotSeqNums (encodeAll packets) seqNum =
      encodeAll (packets.map (restamp seqNum)) := by
  induction packets with
  | nil =>
    have hnot : ¬ kUdpHeader ≤ ([] : List UInt8).length := by decide
    rw [encodeAll, List.flatMap_nil, rewriteSnapshotSeqNums, if_neg hnot]
    rfl
  | cons p packets ih =>
    rw [encodeAll_cons, rewriteSnapshotSeqNums_encode_append, ih, List.map_cons, encodeAll_cons]

/-! ## Parsing -/

/-- What the client makes of an entry. -/
def toUpdate (e : Entry) : UdpCellUpdate where
  localX := e.x
  localY := e.y
  alive := e.alive != 0
  owner := e.owner

theorem readCells_append (entries : List Entry) (rest : List UInt8) :
    readCells entries.length (entries.flatMap encodeEntry ++ rest) = entries.map toUpdate := by
  induction entries with
  | nil => rfl
  | cons e entries ih =>
    have hcursor : (e :: entries).flatMap encodeEntry ++ rest =
        [e.x, e.y, e.alive] ++ (writeLE e.owner ++ (entries.flatMap encodeEntry ++ rest)) := by
      simp only [List.flatMap_cons, encodeEntry, List.append_assoc]
    have hdrop : ((e :: entries).flatMap encodeEntry ++ rest).drop kUdpCellEntry =
        entries.flatMap encodeEntry ++ rest := by
      rw [List.flatMap_cons, List.append_assoc, ← length_encodeEntry e, List.drop_left]
    have howner : readLE UInt64 ((e :: entries).flatMap encodeEntry ++ rest) 3 = e.owner :=
      readLE_of_eq _ _ hcursor rfl
    rw [List.length_cons, readCells, hdrop, ih, howner, hcursor]
    rfl

/-- The number field. -/
theorem seqNum_encode (p : Packet) : readLE UInt32 p.encode kOffSeqNum = p.seqNum := by
  have hsplit := p.encode_append []
  rw [List.append_nil, List.append_nil] at hsplit
  exact readLE_of_eq [] _ (by rw [List.nil_append]; exact hsplit) rfl

/-- **Parsing an encoded packet.** -/
theorem parseUdpWorldPacket_encode (p : Packet) :
    parseUdpWorldPacket p.encode =
      some
        { seqNum := p.seqNum
          fullSnapshot := p.full
          chunkX := p.coord.x
          chunkY := p.coord.y
          cells := p.entries.map toUpdate } := by
  have hlen := p.length_encode
  have hsplit := p.encode_append []
  rw [List.append_nil, List.append_nil] at hsplit
  have hflags : (p.encode.getD kOffFlags 0 == kFlagFull) = p.full := by
    have hbyte : p.encode.getD kOffFlags 0 = flags p.full := by
      rw [hsplit]
      rfl
    rw [hbyte, flags]
    cases p.full <;> rfl
  have hx : readLE Int32 p.encode kOffChunkX = p.coord.x := by
    refine readLE_of_eq (writeLE p.seqNum ++ [flags p.full]) (writeLE p.coord.y ++
      (writeLE (UInt16.ofNat p.entries.length) ++ p.body)) ?_ rfl
    rw [List.append_assoc]
    exact hsplit
  have hy : readLE Int32 p.encode kOffChunkY = p.coord.y := by
    refine readLE_of_eq (writeLE p.seqNum ++ ([flags p.full] ++ writeLE p.coord.x))
      (writeLE (UInt16.ofNat p.entries.length) ++ p.body) ?_ rfl
    rw [List.append_assoc, List.append_assoc]
    exact hsplit
  have hcount := p.cellCount_encode []
  rw [List.append_nil] at hcount
  have hbody : p.encode.drop kUdpHeader = p.body ++ [] := by
    rw [List.append_nil, hsplit]
    rfl
  rw [parseUdpWorldPacket, if_neg (by omega)]
  dsimp only
  rw [p.seqNum_encode, hflags, hx, hy, hcount, if_neg (by omega), hbody, body, readCells_append]

end Packet

/-! ## The payloads of the server -/

open Packet

/-- **The payload of a delta.** -/
theorem payload_serializeDelta (seqNum : UInt32) (chunks : List (ChunkCoord × Chunk)) :
    (serializeDelta seqNum chunks).1 =
      encodeAll (packetsOf seqNum false (chunks.map fun e => (e.1, deltaEntries e.2))) := by
  rw [serializeDelta_eq, encodeAll_packetsOf, List.flatMap_map]
  rfl

/-- **The payload of a full snapshot.** -/
theorem payload_serializeFull (seqNum : UInt32) (chunks : List (ChunkCoord × Chunk)) :
    serializeFull seqNum chunks =
      encodeAll (packetsOf seqNum true (chunks.map fun e => (e.1, fullEntries e.2))) := by
  rw [serializeFull_eq, encodeAll_packetsOf, List.flatMap_map]
  rfl

/-- **The snapshot a session is sent**: the cached one, under the given number. -/
theorem rewriteSnapshotSeqNums_serializeFull (seqNum : UInt32)
    (chunks : List (ChunkCoord × Chunk)) :
    rewriteSnapshotSeqNums (serializeFull 0 chunks) seqNum = serializeFull seqNum chunks := by
  rw [payload_serializeFull, rewriteSnapshotSeqNums_encodeAll, restamp_packetsOf,
    payload_serializeFull]

/-- No packets, no payload. -/
theorem encodeAll_eq_nil {packets : List Packet} : encodeAll packets = [] ↔ packets = [] := by
  cases packets with
  | nil => exact ⟨fun _ => rfl, fun _ => rfl⟩
  | cons p packets =>
    rw [encodeAll_cons, List.append_eq_nil_iff]
    exact ⟨fun h => absurd h.1 p.encode_ne_nil, fun h => by cases h⟩

end Multilife

import Multilife.Refinement.Permissions
import Multilife.Refinement.Replication

/-!
# Addressing

A command names a point by two 64-bit numbers.  The server divides them by the chunk
size, rounding down, and narrows the quotient to `int`; the wire carries the chunk
coordinates and the remainders; the client multiplies and adds.  The server's division
is the client's `floorDiv` followed by the narrowing, so the way there and back is exact
where the narrowing is: for coordinates from `-2 ^ 37` to `2 ^ 37`, `InReach`.  Any
other coordinate is mapped into that range, onto the cell of another point.

* `targetOf_eq_iff`: the cell a command works on is the one it names exactly in reach.
* `reportedAs_iff`: after the batch the delta reports that cell, and under the key of
  the command exactly in reach.
* `faithful_iff`: a batch is addressed faithfully exactly when all commands it lets
  through are in reach.
-/

namespace Multilife

open Chunk Client WorldSerializer

/-- The coordinate has a chunk: its quotient fits in an `int`. -/
def CoordInReach (x : Int64) : Prop := -2 ^ 37 ≤ x.toInt ∧ x.toInt < 2 ^ 37

/-- Both coordinates of the command have a chunk. -/
def InReach (cmd : PlayerCommand) : Prop := CoordInReach cmd.x ∧ CoordInReach cmd.y

instance (x : Int64) : Decidable (CoordInReach x) := inferInstanceAs (Decidable (_ ∧ _))
instance (cmd : PlayerCommand) : Decidable (InReach cmd) := inferInstanceAs (Decidable (_ ∧ _))

/-! ## There and back -/

/-- The server divides as the client does, and narrows. -/
theorem chunkIndex_eq (global : Int64) :
    World.chunkIndex global 64 = (floorDiv global kChunkWidth.toInt64).toInt32 := by
  have h64 : Int64.ofNat 64 = kChunkWidth.toInt64 := by decide
  have hpos : ¬ kChunkWidth.toInt64 ≤ 0 := by decide
  rw [World.chunkIndex, floorDiv, if_neg hpos, h64]

/-- In reach the narrowing is exact. -/
theorem toInt_chunkIndex {global : Int64} (h : CoordInReach global) :
    (World.chunkIndex global 64).toInt = global.toInt / 64 := by
  obtain ⟨hlow, hhigh⟩ := h
  have hquotient : (Int32.ofInt (global.toInt / 64)).toInt = global.toInt / 64 :=
    Int32.toInt_ofInt_of_le (by omega) (by omega)
  have hfloor := (floorDiv_eq_iff global (Int32.ofInt (global.toInt / 64))).mpr hquotient.symm
  rw [chunkIndex_eq, hfloor, Int32.toInt32_toInt64, hquotient]

/-- The axis coordinate of the cell a command works on. -/
theorem chunkIndex_add_localIndex (global : Int64) :
    64 * (World.chunkIndex global 64).toInt + World.localIndex global 64 = global.toInt ↔
      CoordInReach global := by
  have hlocal := localIndex_lt global
  constructor
  · intro h
    have hlow := (World.chunkIndex global 64).le_toInt
    have hhigh := (World.chunkIndex global 64).toInt_lt
    unfold CoordInReach
    omega
  · intro h
    rw [toInt_chunkIndex h, localIndex_eq]
    omega

/-- **A command works on the cell it names exactly in reach.** -/
theorem targetOf_eq_iff (cmd : PlayerCommand) :
    targetOf cmd = (cmd.x.toInt, cmd.y.toInt) ↔ InReach cmd := by
  rw [InReach, ← chunkIndex_add_localIndex, ← chunkIndex_add_localIndex]
  exact Prod.mk_inj

/-! ## What the delta reports -/

namespace World

/-- The cell is on the dirty list of the chunk. -/
def Lists (w : World) (c : ChunkCoord) (dc : DirtyCell) : Prop :=
  ∃ chunk, w.tryGetChunk c = some chunk ∧ dc ∈ chunk.dirtyCells

/-- The dirty cell of a command. -/
def dirtyCellOf (cmd : PlayerCommand) : DirtyCell :=
  ⟨UInt8.ofNat (localIndex cmd.x ChunkWidth), UInt8.ofNat (localIndex cmd.y ChunkHeight)⟩

variable {s : World × ResourceManager} {cmd : PlayerCommand} {c : ChunkCoord} {dc : DirtyCell}

/-- A command lists its cell, and what was listed stays listed. -/
theorem lists_applyCommand (h : Lists s.1 c dc ∨ c = coordOf cmd ∧ dc = dirtyCellOf cmd) :
    Lists (applyCommand s cmd).1 c dc := by
  by_cases hc : c = coordOf cmd
  · refine ⟨_, (tryGetChunk_applyCommand s cmd c).trans (if_pos hc), ?_⟩
    rw [dirtyCells_setCell, List.mem_append, List.mem_singleton]
    rcases h with ⟨chunk, hchunk, hdc⟩ | ⟨-, hdc⟩
    · rw [hchunk]
      exact Or.inl hdc
    · exact Or.inr hdc
  · obtain ⟨chunk, hchunk, hdc⟩ := h.resolve_right fun h => hc h.1
    exact ⟨chunk, ((tryGetChunk_applyCommand s cmd c).trans (if_neg hc)).trans hchunk, hdc⟩

/-- **After a batch every command's cell is listed.** -/
theorem lists_applyCommands {batch : List PlayerCommand}
    (h : Lists s.1 c dc ∨ ∃ cmd ∈ batch, c = coordOf cmd ∧ dc = dirtyCellOf cmd) :
    Lists (applyCommands s batch).1 c dc := by
  induction batch generalizing s with
  | nil => exact h.resolve_right fun ⟨cmd, hcmd, _⟩ => absurd hcmd List.not_mem_nil
  | cons cmd batch ih =>
    rw [applyCommands_cons]
    rcases h with h | ⟨cmd', hcmd', hcell⟩
    · exact ih (Or.inl (lists_applyCommand (Or.inl h)))
    · rcases List.mem_cons.mp hcmd' with rfl | hcmd'
      · exact ih (Or.inl (lists_applyCommand (Or.inr hcell)))
      · exact ih (Or.inr ⟨cmd', hcmd', hcell⟩)

end World

/-- A datagram of the payload reports the cell the command works on, and the client
takes the report for the key the command names. -/
def ReportedAs (payload : List UInt8) (cmd : PlayerCommand) : Prop :=
  ∃ datagrams, sendPayloadTo payload = some datagrams ∧ ∃ d ∈ datagrams,
    ∃ packet, parseUdpWorldPacket d = some packet ∧ ∃ u ∈ packet.cells,
      (⟨packet.chunkX, packet.chunkY⟩ : ChunkCoord) = World.coordOf cmd ∧
      u.localX.toNat = World.localIndex cmd.x ChunkWidth ∧
      u.localY.toNat = World.localIndex cmd.y ChunkHeight ∧
      WorldModel.keyOf packet.chunkX packet.chunkY (GameNetworkClient.toAliveCell u) =
        ⟨cmd.x, cmd.y⟩

/-- The key of a report of a command's cell is the key the command names exactly in
reach. -/
theorem keyOf_eq_iff {cmd : PlayerCommand} {u : UdpCellUpdate}
    (hx : u.localX.toNat = World.localIndex cmd.x ChunkWidth)
    (hy : u.localY.toNat = World.localIndex cmd.y ChunkHeight) :
    WorldModel.keyOf (World.coordOf cmd).x (World.coordOf cmd).y
        (GameNetworkClient.toAliveCell u) = ⟨cmd.x, cmd.y⟩ ↔ InReach cmd := by
  rw [← CellKey.point_injective.eq_iff, point_keyOf_toAliveCell, cellPoint, hx, hy, ← targetOf,
    CellKey.point, targetOf_eq_iff]

variable {s : World × ResourceManager} {cmd : PlayerCommand} {batch : List PlayerCommand}

/-- **The report of a command.**  The next delta reports the cell of every command of
the batch, and under its key exactly in reach. -/
theorem reportedAs_iff (order : FiniteMap.Traversal ChunkCoord) (seqNum : UInt32)
    (hcmd : cmd ∈ batch) :
    ReportedAs (serializeDelta seqNum
        ((World.applyCommands s batch).1.allChunksWithCoords order)).1 cmd ↔ InReach cmd := by
  constructor
  · rintro ⟨datagrams, -, d, -, packet, -, u, -, hcoord, hx, hy, hkey⟩
    rw [← keyOf_eq_iff hx hy, ← hcoord]
    exact hkey
  · intro hreach
    have hlists : World.Lists (World.applyCommands s batch).1 (World.coordOf cmd)
        (World.dirtyCellOf cmd) := World.lists_applyCommands (Or.inr ⟨cmd, hcmd, rfl, rfl⟩)
    obtain ⟨chunk, hchunk, hdc⟩ := hlists
    have hlisted : (World.coordOf cmd, chunk) ∈
        (World.applyCommands s batch).1.allChunksWithCoords order :=
      World.mem_allChunksWithCoords.mpr hchunk
    obtain ⟨p, hp, hcoord, hentry⟩ := exists_mem_deltaPackets seqNum hlisted hdc
    have hx := toNat_ofNat_width (localIndex_lt_width cmd.x)
    have hy := toNat_ofNat_height (localIndex_lt_height cmd.y)
    rw [payload_serializeDelta]
    refine ⟨_, Packet.sendPayloadTo_encodeAll _, _, List.mem_map_of_mem hp, _,
      Packet.parseUdpWorldPacket_encode p, _, List.mem_map_of_mem hentry, hcoord, hx, hy, ?_⟩
    dsimp only
    rw [hcoord]
    exact (keyOf_eq_iff hx hy).mpr hreach

/-! ## A batch -/

/-- The batch, applied from `s`, lets this command through. -/
def Accepts (s : World × ResourceManager) (batch : List PlayerCommand) (cmd : PlayerCommand) :
    Prop :=
  ∃ before after, batch = before ++ cmd :: after ∧
    World.accepted (World.applyCommands s before) cmd = true

theorem Accepts.mem (h : Accepts s batch cmd) : cmd ∈ batch := by
  obtain ⟨before, after, rfl, -⟩ := h
  simp

/-- **Addressing is faithful exactly in reach.**  For every world, ledger and batch: every
command that is let through is reported by the next delta under the key it names, and
no two of them that name different points act on the same cell, if and only if all of
them are in reach. -/
theorem faithful_iff (s : World × ResourceManager) (batch : List PlayerCommand)
    (order : FiniteMap.Traversal ChunkCoord) (seqNum : UInt32) :
    ((∀ cmd, Accepts s batch cmd → ReportedAs (serializeDelta seqNum
        ((World.applyCommands s batch).1.allChunksWithCoords order)).1 cmd) ∧
      ∀ cmd cmd', Accepts s batch cmd → Accepts s batch cmd' → targetOf cmd = targetOf cmd' →
        cmd.x = cmd'.x ∧ cmd.y = cmd'.y) ↔
      ∀ cmd, Accepts s batch cmd → InReach cmd := by
  constructor
  · rintro ⟨hreported, -⟩ cmd hcmd
    exact (reportedAs_iff order seqNum hcmd.mem).mp (hreported cmd hcmd)
  · intro hreach
    refine ⟨fun cmd hcmd => (reportedAs_iff order seqNum hcmd.mem).mpr (hreach cmd hcmd),
      fun cmd cmd' hcmd hcmd' htarget => ?_⟩
    rw [(targetOf_eq_iff cmd).mpr (hreach cmd hcmd), (targetOf_eq_iff cmd').mpr (hreach cmd' hcmd')]
      at htarget
    exact ⟨Int64.toInt_inj.mp (congrArg Prod.fst htarget),
      Int64.toInt_inj.mp (congrArg Prod.snd htarget)⟩

/-- Player 7 places the cell `(2 ^ 38, 0)`; the cell at the origin is set and reported. -/
theorem not_faithful_far_away :
    Accepts ({}, ({} : ResourceManager).addPlayer 7) [⟨7, .PlaceCell, 2 ^ 38, 0⟩]
        ⟨7, .PlaceCell, 2 ^ 38, 0⟩ ∧
      targetOf ⟨7, .PlaceCell, 2 ^ 38, 0⟩ = targetOf ⟨7, .PlaceCell, 0, 0⟩ ∧
      ¬ ReportedAs (serializeDelta 1
        ((World.applyCommands ({}, ({} : ResourceManager).addPlayer 7)
          [⟨7, .PlaceCell, 2 ^ 38, 0⟩]).1.allChunksWithCoords sortedChunks)).1
        ⟨7, .PlaceCell, 2 ^ 38, 0⟩ := by
  refine ⟨⟨[], [], rfl, ?_⟩, by decide, ?_⟩
  · rw [World.applyCommands_nil, World.accepted, World.placed, World.cellAt_empty]
    decide
  · rw [reportedAs_iff sortedChunks 1 (List.mem_singleton_self _)]
    decide

end Multilife

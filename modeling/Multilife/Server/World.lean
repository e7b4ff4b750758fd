import Multilife.Foundations.FiniteMap
import Multilife.Server.Chunk
import Multilife.Server.ResourceManager

/-!
# The world

`World.hpp` and `World.cpp`.  The chunk map is a hash container: the functions
that loop over it take the order of the loop as an argument, one for each loop.

A `Chunk&` is modelled by reading the chunk and storing it back under its
coordinate.  The margin creation, the border exchange and the command loop follow
the source statement by statement; what they do is said at the end of the file,
by what can be looked up afterwards.
-/

namespace Multilife

open FiniteMap Chunk

/-- `World`: `m_chunks`. -/
structure World where
  chunks : Finmap fun _ : ChunkCoord => Chunk := ∅

namespace World

def tryGetChunk (w : World) (coord : ChunkCoord) : Option Chunk := w.chunks.lookup coord

/-- `getOrCreateChunkUnlocked`, as the world it leaves. -/
def getOrCreateChunkUnlocked (w : World) (coord : ChunkCoord) : World where
  chunks := insertNew coord {} w.chunks

/-- Write a chunk back through its reference. -/
def storeChunk (w : World) (coord : ChunkCoord) (chunk : Chunk) : World where
  chunks := w.chunks.insert coord chunk

/-- `allChunksWithCoords`, in the order of the container. -/
def allChunksWithCoords (order : Traversal ChunkCoord) (w : World) :
    List (ChunkCoord × Chunk) :=
  (order.order w.chunks.keys).filterMap fun coord =>
    (w.chunks.lookup coord).map fun chunk => (coord, chunk)

/-! ## Commands -/

/-- The chunk coordinate of a global coordinate: a division that rounds towards
zero, corrected for negative numbers, then a narrowing cast to `int`. -/
def chunkIndex (global : Int64) (size : ℕ) : Int32 :=
  (if global ≥ 0 then global / Int64.ofNat size
   else (global - Int64.ofNat size + 1) / Int64.ofNat size).toInt32

/-- The local coordinate of a global coordinate. -/
def localIndex (global : Int64) (size : ℕ) : ℕ :=
  ((global % Int64.ofNat size + Int64.ofNat size) % Int64.ofNat size).toUInt64.toNat

def coordOf (cmd : PlayerCommand) : ChunkCoord :=
  ⟨chunkIndex cmd.x ChunkWidth, chunkIndex cmd.y ChunkHeight⟩

/-- The `switch` of `applyCommands`: the cell that is written back, and the
ledger after the call that the condition makes. -/
def switchCommand (cmd : PlayerCommand) (cell : CellState) (r : ResourceManager) :
    CellState × ResourceManager :=
  match cmd.type with
  | .PlaceCell =>
    if cell.owner = 0 then
      let (spent, r) := r.trySpend cmd.playerId kPlaceCost
      if spent then ({ alive := true, owner := cmd.playerId }, r) else (cell, r)
    else (cell, r)
  | .RemoveCell =>
    if cell.owner = cmd.playerId then
      let (awarded, r) := r.award cmd.playerId kRemoveAward
      if awarded then ({ alive := false, owner := 0 }, r) else (cell, r)
    else (cell, r)
  | .ToggleCell =>
    if cell.owner = 0 ∨ cell.owner = cmd.playerId then
      -- `(alive && award) || (!alive && trySpend)`, evaluated left to right
      let (awarded, r) :=
        if cell.alive then r.award cmd.playerId kRemoveAward else (false, r)
      let (canToggle, r) :=
        if awarded then (true, r)
        else if !cell.alive then r.trySpend cmd.playerId kPlaceCost
        else (false, r)
      if canToggle then
        ({ alive := !cell.alive, owner := if !cell.alive then cmd.playerId else 0 }, r)
      else (cell, r)
    else (cell, r)

/-- The body of the loop of `applyCommands`. -/
def applyCommand (s : World × ResourceManager) (cmd : PlayerCommand) :
    World × ResourceManager :=
  let localX := localIndex cmd.x ChunkWidth
  let localY := localIndex cmd.y ChunkHeight
  let coord := coordOf cmd
  let w := s.1.getOrCreateChunkUnlocked coord
  let chunk := (w.tryGetChunk coord).getD {}
  let next := switchCommand cmd (chunk.getCell localX localY) s.2
  (w.storeChunk coord (chunk.setCell localX localY next.1), next.2)

def applyCommands (s : World × ResourceManager) (commands : List PlayerCommand) :
    World × ResourceManager :=
  commands.foldl applyCommand s

/-! ## The simulation margin -/

/-- The inner loops of `ensureSimulationMarginUnlocked`, with their early exit. -/
def hasLiveCells (chunk : Chunk) : Bool :=
  innerCells.any fun p => (chunk.getCell p.1 p.2).alive

def offsetCoord (coord : ChunkCoord) (d : ℤ × ℤ) : ChunkCoord :=
  ⟨coord.x + Int32.ofInt d.1, coord.y + Int32.ofInt d.2⟩

/-- The missing neighbours of one chunk, empty unless it has live cells. -/
def missingNeighbors (w : World) (coord : ChunkCoord) : List ChunkCoord :=
  match w.tryGetChunk coord with
  | none => []
  | some chunk =>
    if hasLiveCells chunk then
      (neighborOffsets.map (offsetCoord coord)).filter fun neighbor =>
        decide (neighbor ∉ w.chunks)
    else []

def ensureSimulationMarginUnlocked (order : Traversal ChunkCoord) (w : World) : World :=
  let chunksToCreate := (order.order w.chunks.keys).flatMap (missingNeighbors w)
  chunksToCreate.foldl getOrCreateChunkUnlocked w

/-! ## Borders -/

/-- The lambda `readOrDead` of `exchangeBorders`. -/
def readOrDead (chunk : Option Chunk) (x y : ℕ) : CellState :=
  match chunk with
  | some chunk => chunk.getCell x y
  | none => {}

/-- The body of the loop of `exchangeBorders` for one chunk: the two rows, the two
columns and the four corners of the ghost border. -/
def exchangeChunk (w : World) (coord : ChunkCoord) (chunk : Chunk) : Chunk :=
  let north := w.tryGetChunk ⟨coord.x, coord.y - 1⟩
  let south := w.tryGetChunk ⟨coord.x, coord.y + 1⟩
  let west := w.tryGetChunk ⟨coord.x - 1, coord.y⟩
  let east := w.tryGetChunk ⟨coord.x + 1, coord.y⟩
  let northWest := w.tryGetChunk ⟨coord.x - 1, coord.y - 1⟩
  let northEast := w.tryGetChunk ⟨coord.x + 1, coord.y - 1⟩
  let southWest := w.tryGetChunk ⟨coord.x - 1, coord.y + 1⟩
  let southEast := w.tryGetChunk ⟨coord.x + 1, coord.y + 1⟩
  let chunk := (List.range ChunkWidth).foldl
    (fun chunk x =>
      (chunk.setGhostCell (x + GhostBorder) 0 (readOrDead north x (ChunkHeight - 1))).setGhostCell
        (x + GhostBorder) (ChunkHeight + GhostBorder) (readOrDead south x 0))
    chunk
  let chunk := (List.range ChunkHeight).foldl
    (fun chunk y =>
      (chunk.setGhostCell 0 (y + GhostBorder) (readOrDead west (ChunkWidth - 1) y)).setGhostCell
        (ChunkWidth + GhostBorder) (y + GhostBorder) (readOrDead east 0 y))
    chunk
  let chunk := chunk.setGhostCell 0 0 (readOrDead northWest (ChunkWidth - 1) (ChunkHeight - 1))
  let chunk := chunk.setGhostCell (ChunkWidth + GhostBorder) 0
    (readOrDead northEast 0 (ChunkHeight - 1))
  let chunk := chunk.setGhostCell 0 (ChunkHeight + GhostBorder)
    (readOrDead southWest (ChunkWidth - 1) 0)
  chunk.setGhostCell (ChunkWidth + GhostBorder) (ChunkHeight + GhostBorder)
    (readOrDead southEast 0 0)

/-- `exchangeBorders`: the margin, then the ghost border of every chunk in turn,
read from the chunks as they are at that moment. -/
def exchangeBorders (marginOrder borderOrder : Traversal ChunkCoord) (w : World) : World :=
  let w := w.ensureSimulationMarginUnlocked marginOrder
  (borderOrder.order w.chunks.keys).foldl
    (fun w coord => { chunks := modify coord (exchangeChunk w coord) w.chunks }) w

/-! ## Looking up chunks afterwards -/

theorem tryGetChunk_getOrCreate (w : World) (coord c : ChunkCoord) :
    (w.getOrCreateChunkUnlocked coord).tryGetChunk c =
      if c = coord then some ((w.tryGetChunk c).getD {}) else w.tryGetChunk c :=
  lookup_insertNew coord c ({} : Chunk) w.chunks

theorem tryGetChunk_storeChunk (w : World) (coord c : ChunkCoord) (chunk : Chunk) :
    (w.storeChunk coord chunk).tryGetChunk c =
      if c = coord then some chunk else w.tryGetChunk c := by
  unfold tryGetChunk storeChunk
  split_ifs with h
  · rw [h, Finmap.lookup_insert]
  · rw [Finmap.lookup_insert_of_ne _ h]

theorem mem_chunks_iff {w : World} {c : ChunkCoord} :
    c ∈ w.chunks ↔ ∃ chunk, w.tryGetChunk c = some chunk := Finmap.mem_iff

/-- A missing chunk reads like the empty chunk it would be created as. -/
theorem readOrDead_getD (chunk : Option Chunk) (x y : ℕ) :
    readOrDead (some (chunk.getD {})) x y = readOrDead chunk x y := by
  cases chunk with
  | none => exact getCell_empty x y
  | some chunk => rfl

theorem hasLiveCells_iff {chunk : Chunk} :
    hasLiveCells chunk = true ↔
      ∃ x y, x < ChunkWidth ∧ y < ChunkHeight ∧ (chunk.getCell x y).alive = true := by
  unfold hasLiveCells
  rw [List.any_eq_true]
  exact exists_mem_innerCells (P := fun x y => (chunk.getCell x y).alive = true)

/-- A chunk that the margin has to contain: a neighbour of a chunk with live cells. -/
def OnMargin (w : World) (c : ChunkCoord) : Prop :=
  ∃ coord chunk, w.tryGetChunk coord = some chunk ∧ hasLiveCells chunk = true ∧
    ∃ d ∈ neighborOffsets, c = offsetCoord coord d

theorem mem_missingNeighbors {w : World} {coord c : ChunkCoord} :
    c ∈ w.missingNeighbors coord ↔
      (∃ chunk, w.tryGetChunk coord = some chunk ∧ hasLiveCells chunk = true) ∧
        (∃ d ∈ neighborOffsets, c = offsetCoord coord d) ∧ c ∉ w.chunks := by
  unfold missingNeighbors
  cases hc : w.tryGetChunk coord with
  | none => simp
  | some chunk =>
    by_cases hlive : hasLiveCells chunk = true
    · simp only [hlive, if_true, List.mem_filter, List.mem_map, decide_eq_true_eq,
        Option.some.injEq, exists_eq_left', true_and, and_congr_left_iff]
      intro _
      exact ⟨fun ⟨d, hd, h⟩ => ⟨d, hd, h.symm⟩, fun ⟨d, hd, h⟩ => ⟨d, hd, h.symm⟩⟩
    · simp [hlive]

theorem chunks_foldl_getOrCreate (l : List ChunkCoord) (w : World) :
    (l.foldl getOrCreateChunkUnlocked w).chunks =
      l.foldl (fun m coord => insertNew coord {} m) w.chunks := by
  induction l generalizing w with
  | nil => rfl
  | cons coord l ih => rw [List.foldl_cons, List.foldl_cons, ih]; rfl

/-- **The margin.**  Every neighbour of a chunk with live cells is present
afterwards, as an empty chunk where it was missing; nothing else changes. -/
theorem tryGetChunk_ensureSimulationMargin (order : Traversal ChunkCoord) (w : World)
    (c : ChunkCoord) :
    (w.ensureSimulationMarginUnlocked order).tryGetChunk c = w.tryGetChunk c ∨
      (w.tryGetChunk c = none ∧ w.OnMargin c ∧
        (w.ensureSimulationMarginUnlocked order).tryGetChunk c = some {}) := by
  unfold ensureSimulationMarginUnlocked tryGetChunk
  rw [chunks_foldl_getOrCreate, lookup_foldl_insertNew]
  split_ifs with h
  · obtain ⟨coord, -, hcoord⟩ := List.mem_flatMap.mp h
    obtain ⟨⟨chunk, hchunk, hlive⟩, ⟨d, hd, rfl⟩, hnot⟩ := mem_missingNeighbors.mp hcoord
    have hnone : w.chunks.lookup (offsetCoord coord d) = none := Finmap.lookup_eq_none.mpr hnot
    exact Or.inr ⟨hnone, ⟨coord, chunk, hchunk, hlive, d, hd, rfl⟩, by rw [hnone]; rfl⟩
  · exact Or.inl rfl

theorem mem_margin_of_onMargin (order : Traversal ChunkCoord) {w : World} {c : ChunkCoord}
    (h : w.OnMargin c) : c ∈ (w.ensureSimulationMarginUnlocked order).chunks := by
  obtain ⟨coord, chunk, hchunk, hlive, hd⟩ := h
  rw [mem_chunks_iff]
  by_cases hc : c ∈ w.chunks
  · obtain ⟨found, hfound⟩ := mem_chunks_iff.mp hc
    rcases tryGetChunk_ensureSimulationMargin order w c with heq | ⟨hnone, -, -⟩
    · exact ⟨found, heq.trans hfound⟩
    · rw [hfound] at hnone
      cases hnone
  · have hlisted : c ∈ (order.order w.chunks.keys).flatMap w.missingNeighbors :=
      List.mem_flatMap.mpr ⟨coord,
        (order.mem_order _ _).mpr (Finmap.mem_keys.mpr (mem_chunks_iff.mpr ⟨chunk, hchunk⟩)),
        mem_missingNeighbors.mpr ⟨⟨chunk, hchunk, hlive⟩, hd, hc⟩⟩
    refine ⟨(w.tryGetChunk c).getD {}, ?_⟩
    unfold ensureSimulationMarginUnlocked tryGetChunk
    rw [chunks_foldl_getOrCreate, lookup_foldl_insertNew, if_pos hlisted]

/-- The margin reads as the world did: created chunks are dead. -/
theorem readOrDead_ensureSimulationMargin (order : Traversal ChunkCoord) (w : World)
    (c : ChunkCoord) (x y : ℕ) :
    readOrDead ((w.ensureSimulationMarginUnlocked order).tryGetChunk c) x y =
      readOrDead (w.tryGetChunk c) x y := by
  rcases tryGetChunk_ensureSimulationMargin order w c with h | ⟨hnone, -, h⟩
  · rw [h]
  · rw [h, hnone]
    exact getCell_empty x y

end World
end Multilife

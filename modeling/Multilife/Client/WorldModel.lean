import Multilife.Foundations.FiniteMap
import Mathlib.Data.Int.Cast.Lemmas

/-!
# The client's picture of the world

`WorldModel.h` and `WorldModel.cpp`: a map from global coordinates to owners.  A
cell that is not in the map is dead.
-/

namespace Multilife.Client

open FiniteMap

def kChunkWidth : Int32 := 64
def kChunkHeight : Int32 := 64

/-- `CellKey`. -/
@[ext] structure CellKey where
  x : Int64
  y : Int64
  deriving DecidableEq, Repr

/-- `AliveCell`. -/
structure AliveCell where
  x : Int64
  y : Int64
  owner : UInt64
  deriving DecidableEq, Repr

/-- `floorDiv`. -/
def floorDiv (value divisor : Int64) : Int64 :=
  if divisor ≤ 0 then 0
  else if value ≥ 0 then value / divisor
  else (value - divisor + 1) / divisor

/-- `WorldModel`: `m_aliveCells` and `m_generation`. -/
structure WorldModel where
  aliveCells : Finmap fun _ : CellKey => UInt64 := ∅
  generation : UInt32 := 0

namespace WorldModel

/-- The test of the erase pass: the key does not lie in the chunk. -/
def outsideChunk (chunkX chunkY : Int32) (key : CellKey) : Bool :=
  let keyChunkX := floorDiv key.x kChunkWidth.toInt64
  let keyChunkY := floorDiv key.y kChunkHeight.toInt64
  !(keyChunkX == chunkX.toInt64 && keyChunkY == chunkY.toInt64)

/-- The key of an update of a chunk. -/
def keyOf (chunkX chunkY : Int32) (update : AliveCell) : CellKey :=
  let baseX := chunkX.toInt64 * kChunkWidth.toInt64
  let baseY := chunkY.toInt64 * kChunkHeight.toInt64
  ⟨baseX + update.x, baseY + update.y⟩

/-- The body of the loop over the updates. -/
def applyCell (chunkX chunkY : Int32) (cells : Finmap fun _ : CellKey => UInt64)
    (update : AliveCell) : Finmap fun _ : CellKey => UInt64 :=
  if update.owner = 0 then cells.erase (keyOf chunkX chunkY update)
  else cells.insert (keyOf chunkX chunkY update) update.owner

def applyUpdate (m : WorldModel) (seqNum : UInt32) (fullSnapshot : Bool) (chunkX chunkY : Int32)
    (updates : List AliveCell) : WorldModel :=
  let cells :=
    if fullSnapshot then filter (fun key _ => outsideChunk chunkX chunkY key) m.aliveCells
    else m.aliveCells
  { aliveCells := updates.foldl (applyCell chunkX chunkY) cells
    generation := seqNum }

/-- `ownerAt`: a dead cell has owner `0`. -/
def ownerAt (m : WorldModel) (x y : Int64) : UInt64 := (m.aliveCells.lookup ⟨x, y⟩).getD 0

/-- `liveCellsOwnedBy`, with the order of the loop over the map. -/
def liveCellsOwnedBy (order : Traversal CellKey) (m : WorldModel) (ownerId : UInt64) : UInt64 :=
  (order.order m.aliveCells.keys).foldl
    (fun count key => if m.aliveCells.lookup key = some ownerId then count + 1 else count) 0

end WorldModel
end Multilife.Client

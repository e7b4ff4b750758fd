import Multilife.Server.GameServer

/-!
# The signed arithmetic on coordinates

The model computes with `Int32` and `Int64`, which wrap; in the source an overflow of
`int` or `std::int64_t` is undefined.  This file lists the signed additions and
subtractions on coordinates that `onTick` carries out, with their operands, so that "no
operation overflows" is a statement about the list.  Up to the first overflow both
arithmetics agree (`CoordOp.result_of_not_overflows`).
-/

namespace Multilife

open FiniteMap Chunk

/-- A signed addition or subtraction, with its operands. -/
inductive CoordOp where
  | add32 (a b : Int32)
  | sub32 (a b : Int32)
  | add64 (a b : Int64)
  | sub64 (a b : Int64)

namespace CoordOp

/-- The exact value. -/
def value : CoordOp → ℤ
  | add32 a b => a.toInt + b.toInt
  | sub32 a b => a.toInt - b.toInt
  | add64 a b => a.toInt + b.toInt
  | sub64 a b => a.toInt - b.toInt

/-- The wrapped value, which the model computes with. -/
def result : CoordOp → ℤ
  | add32 a b => (a + b).toInt
  | sub32 a b => (a - b).toInt
  | add64 a b => (a + b).toInt
  | sub64 a b => (a - b).toInt

/-- The exact value does not fit in the type. -/
def Overflows : CoordOp → Prop
  | op@(add32 _ _) | op@(sub32 _ _) => ¬ (-2 ^ 31 ≤ op.value ∧ op.value < 2 ^ 31)
  | op@(add64 _ _) | op@(sub64 _ _) => ¬ (-2 ^ 63 ≤ op.value ∧ op.value < 2 ^ 63)

/-- Where nothing overflows, the model's arithmetic is the source's. -/
theorem result_of_not_overflows {op : CoordOp} (h : ¬ op.Overflows) : op.result = op.value := by
  cases op with
  | add32 a b =>
    have h := not_not.mp h
    simp only [value, result, Int32.toInt_add] at *
    exact Int.bmod_eq_of_le (by omega) (by omega)
  | sub32 a b =>
    have h := not_not.mp h
    simp only [value, result, Int32.toInt_sub] at *
    exact Int.bmod_eq_of_le (by omega) (by omega)
  | add64 a b =>
    have h := not_not.mp h
    simp only [value, result, Int64.toInt_add] at *
    exact Int.bmod_eq_of_le (by omega) (by omega)
  | sub64 a b =>
    have h := not_not.mp h
    simp only [value, result, Int64.toInt_sub] at *
    exact Int.bmod_eq_of_le (by omega) (by omega)

end CoordOp

namespace World

/-! ## `applyCommands` -/

/-- One axis of a command: `global - size + 1` for a negative coordinate, and
`global % size + size`. -/
def axisOps (global : Int64) (size : ℕ) : List CoordOp :=
  (if global ≥ 0 then []
    else [.sub64 global (Int64.ofNat size), .add64 (global - Int64.ofNat size) 1]) ++
  [.add64 (global % Int64.ofNat size) (Int64.ofNat size)]

def commandOps (cmd : PlayerCommand) : List CoordOp :=
  axisOps cmd.x ChunkWidth ++ axisOps cmd.y ChunkHeight

/-! ## `ensureSimulationMarginUnlocked` -/

/-- The sums `coord.x + dx` and `coord.y + dy` for a chunk, if it has live cells. -/
def marginOps (coord : ChunkCoord) (chunk : Chunk) : List CoordOp :=
  if hasLiveCells chunk then
    neighborOffsets.flatMap fun d =>
      [.add32 coord.x (Int32.ofInt d.1), .add32 coord.y (Int32.ofInt d.2)]
  else []

/-! ## `exchangeBorders` -/

/-- The coordinates of `north`, `south`, `west`, `east` and the four diagonals. -/
def borderOps (coord : ChunkCoord) : List CoordOp :=
  [.sub32 coord.y 1, .add32 coord.y 1, .sub32 coord.x 1, .add32 coord.x 1] ++
  [.sub32 coord.x 1, .sub32 coord.y 1, .add32 coord.x 1, .sub32 coord.y 1,
    .sub32 coord.x 1, .add32 coord.y 1, .add32 coord.x 1, .add32 coord.y 1]

/-- The margin, then the border of every chunk there is afterwards. -/
def exchangeBordersOps (marginOrder borderOrder : Traversal ChunkCoord) (w : World) :
    List CoordOp :=
  ((w.allChunksWithCoords marginOrder).flatMap fun e => marginOps e.1 e.2) ++
    (borderOrder.order (w.ensureSimulationMarginUnlocked marginOrder).chunks.keys).flatMap borderOps

end World

/-- The operations of one tick: the exchange, then the commands of the batch. -/
def GameServer.tickOps (sched : TickSchedule) (g : GameServer) : List CoordOp :=
  g.world.exchangeBordersOps sched.margin sched.borders ++
    g.commandQueue.flatMap World.commandOps

end Multilife

import Mathlib.Order.Basic
import Mathlib.Data.Int.Cast.Lemmas

/-!
# The server's data types

`Types.hpp` and `PlayerCommand.hpp`.  Fixed-width integers keep their width:
player ids are `std::uint64_t`, chunk coordinates are `int` (32 bits), command
coordinates are `std::int64_t`.  Sizes and loop counters are natural numbers.
Signed overflow is undefined in the source; here it wraps, so a statement about a
run in which some coordinate overflows says nothing about the code.
-/

namespace Multilife

/-- `Types.hpp`: `using PlayerId = std::uint64_t`. -/
abbrev PlayerId := UInt64

/-- Player ids are ordered as unsigned numbers, which is the key order of
`std::map` and of `std::sort`. -/
instance : LinearOrder PlayerId where
  le_refl := UInt64.le_refl
  le_trans _ _ _ := UInt64.le_trans
  le_antisymm _ _ := UInt64.le_antisymm
  le_total := UInt64.le_total
  lt_iff_le_not_ge a b := by
    rw [UInt64.lt_iff_toNat_lt, UInt64.le_iff_toNat_le, UInt64.le_iff_toNat_le]
    omega
  toDecidableLE := inferInstance
  toDecidableLT := inferInstance
  toDecidableEq := inferInstance

/-- `CellState`; owner `0` means "no owner". -/
structure CellState where
  alive : Bool := false
  owner : PlayerId := 0
  deriving DecidableEq, Repr

/-- `ChunkCoord`: two `int`s. -/
@[ext] structure ChunkCoord where
  x : Int32
  y : Int32
  deriving DecidableEq, Repr

def ChunkWidth : ℕ := 64
def ChunkHeight : ℕ := 64

def toIndex (x y width : ℕ) : ℕ := y * width + x

/-- `CommandType`. -/
inductive CommandType where
  | PlaceCell
  | RemoveCell
  | ToggleCell
  deriving DecidableEq, Repr

/-- `PlayerCommand`. -/
structure PlayerCommand where
  playerId : PlayerId
  type : CommandType
  x : Int64
  y : Int64
  deriving DecidableEq, Repr

end Multilife

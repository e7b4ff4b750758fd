import Multilife.Server.World

/-!
# The infinite plane

What the chunks are for.  A `Plane` gives every point of `ℤ × ℤ` its cell, and
`Plane.step` is one generation of the game with owners, with no chunks, borders
or buffers in sight.  `World.cellAt` reads a world as a plane: the point
`(64 * cx + lx, 64 * cy + ly)` is the inner cell `(lx, ly)` of chunk `(cx, cy)`,
and a point whose chunk does not exist is dead.

Points and chunk coordinates are translated by `pointOf`, `blockOf`, `localX` and `localY`.
A block of the plane whose coordinates do not fit in an `int` has no chunk.
-/

namespace Multilife

open Chunk

/-! ## The game -/

/-- The state of every point. -/
abbrev Plane := ℤ × ℤ → CellState

namespace Plane

/-- The eight neighbours of a point. -/
def neighbors (p : ℤ × ℤ) : List (ℤ × ℤ) :=
  neighborOffsets.map fun d => (p.1 + d.1, p.2 + d.2)

/-- The owners of the live neighbours of a point. -/
def liveOwners (g : Plane) (p : ℤ × ℤ) : List PlayerId :=
  ((neighbors p).filter fun q => (g q).alive).map fun q => (g q).owner

/-- The next state of a cell, from the owners of its live neighbours.  A live cell
with two or three live neighbours survives with its owner, any other live cell
dies.  A dead cell with exactly three live neighbours is born, owned by the one who
owns most of them, the greatest id on ties; any other dead cell stays as it is. -/
def rule (cell : CellState) (owners : List PlayerId) : CellState :=
  if cell.alive then
    if owners.length = 2 ∨ owners.length = 3 then cell else {}
  else
    if owners.length = 3 then
      { alive := true, owner := (Plurality.plurality owners).getD 0 }
    else cell

/-- **The reference step**: the rule at every point. -/
def step (g : Plane) : Plane := fun p => rule (g p) (liveOwners g p)

/-! ## Owners -/

/-- Every live cell has an owner. -/
def Owned (g : Plane) : Prop := ∀ p, (g p).alive = true → (g p).owner ≠ 0

/-- A cell is alive exactly when it has an owner. -/
def Paired (g : Plane) : Prop := ∀ p, (g p).alive = true ↔ (g p).owner ≠ 0

theorem Paired.eq_empty {g : Plane} (hg : g.Paired) {p : ℤ × ℤ}
    (h : (g p).owner = 0 ∨ (g p).alive = false) : g p = {} := by
  have hp := hg p
  rcases hcell : g p with ⟨alive, owner⟩
  rw [hcell] at h hp
  cases alive with
  | true => rcases h with h | h <;> simp_all
  | false => simp_all

theorem Paired.eq_owned {g : Plane} (hg : g.Paired) {p : ℤ × ℤ} {id : PlayerId}
    (hid : id ≠ 0) (h : (g p).owner = id) : g p = { alive := true, owner := id } := by
  have hp := hg p
  rcases hcell : g p with ⟨alive, owner⟩
  rw [hcell] at h hp
  subst h
  rw [show alive = true from hp.mpr hid]

/-- Writing a paired cell keeps the pairing. -/
theorem Paired.update {g : Plane} (hg : g.Paired) (p : ℤ × ℤ) {cell : CellState}
    (hcell : cell.alive = true ↔ cell.owner ≠ 0) : Paired (Function.update g p cell) := by
  intro q
  by_cases hq : q = p
  · rw [hq, Function.update_self]
    exact hcell
  · rw [Function.update_of_ne hq]
    exact hg q

theorem Paired.owned {g : Plane} (hg : g.Paired) : g.Owned := fun p => (hg p).mp

/-- The rule keeps a cell paired, when every vote is a player's. -/
theorem paired_rule {cell : CellState} (hcell : cell.alive = true ↔ cell.owner ≠ 0)
    {votes : List PlayerId} (hvotes : ∀ v ∈ votes, v ≠ 0) :
    (rule cell votes).alive = true ↔ (rule cell votes).owner ≠ 0 := by
  unfold rule
  split_ifs with halive h h
  · exact hcell
  · simp
  · have hplurality : (Plurality.plurality votes).getD 0 ≠ 0 := by
      cases hp : Plurality.plurality votes with
      | none =>
        have hnil : votes = [] := List.argmax_eq_none.mp hp
        rw [hnil] at h
        simp at h
      | some v => exact hvotes v (Plurality.plurality_mem hp)
    simp [hplurality]
  · exact hcell

end Plane

/-! ## Blocks and points -/

/-- The block of the plane a chunk covers. -/
def ChunkCoord.toBlock (c : ChunkCoord) : ℤ × ℤ := (c.x.toInt, c.y.toInt)

/-- The chunk coordinate of a block, when its coordinates fit in an `int`. -/
def ChunkCoord.ofBlock (b : ℤ × ℤ) : ChunkCoord := ⟨Int32.ofInt b.1, Int32.ofInt b.2⟩

@[simp] theorem ChunkCoord.ofBlock_toBlock (c : ChunkCoord) : ofBlock c.toBlock = c := by
  ext1
  · exact Int32.ofInt_toInt c.x
  · exact Int32.ofInt_toInt c.y

theorem ChunkCoord.toBlock_injective : Function.Injective ChunkCoord.toBlock :=
  Function.LeftInverse.injective ChunkCoord.ofBlock_toBlock

/-- The point of a cell of a block. -/
def pointOf (b : ℤ × ℤ) (x y : ℕ) : ℤ × ℤ :=
  (ChunkWidth * b.1 + x, ChunkHeight * b.2 + y)

/-- The block a point lies in. -/
def blockOf (p : ℤ × ℤ) : ℤ × ℤ := (p.1 / ChunkWidth, p.2 / ChunkHeight)

/-- The local coordinates of a point in its block. -/
def localX (p : ℤ × ℤ) : ℕ := (p.1 % ChunkWidth).toNat

def localY (p : ℤ × ℤ) : ℕ := (p.2 % ChunkHeight).toNat

theorem localX_lt (p : ℤ × ℤ) : localX p < ChunkWidth := by
  simp only [localX, ChunkWidth]
  omega

theorem localY_lt (p : ℤ × ℤ) : localY p < ChunkHeight := by
  simp only [localY, ChunkHeight]
  omega

/-- Every point is a cell of its block. -/
theorem pointOf_blockOf (p : ℤ × ℤ) : pointOf (blockOf p) (localX p) (localY p) = p := by
  ext
  · simp only [pointOf, blockOf, localX, ChunkWidth]
    omega
  · simp only [pointOf, blockOf, localY, ChunkHeight]
    omega

theorem blockOf_pointOf (b : ℤ × ℤ) {x y : ℕ} (hx : x < ChunkWidth) (hy : y < ChunkHeight) :
    blockOf (pointOf b x y) = b := by
  simp only [ChunkWidth, ChunkHeight] at hx hy
  ext
  · simp only [pointOf, blockOf, ChunkWidth]
    omega
  · simp only [pointOf, blockOf, ChunkHeight]
    omega

theorem localX_pointOf (b : ℤ × ℤ) {x : ℕ} (y : ℕ) (hx : x < ChunkWidth) :
    localX (pointOf b x y) = x := by
  simp only [pointOf, localX, ChunkWidth] at *
  omega

theorem localY_pointOf (b : ℤ × ℤ) (x : ℕ) {y : ℕ} (hy : y < ChunkHeight) :
    localY (pointOf b x y) = y := by
  simp only [pointOf, localY, ChunkHeight] at *
  omega

/-- Cells at different places are different points. -/
theorem pointOf_inj {b b' : ℤ × ℤ} {x y x' y' : ℕ} (hx : x < ChunkWidth)
    (hy : y < ChunkHeight) (hx' : x' < ChunkWidth) (hy' : y' < ChunkHeight) :
    pointOf b x y = pointOf b' x' y' ↔ b = b' ∧ x = x' ∧ y = y' := by
  constructor
  · intro h
    refine ⟨?_, ?_, ?_⟩
    · rw [← blockOf_pointOf b hx hy, h, blockOf_pointOf b' hx' hy']
    · rw [← localX_pointOf b y hx, h, localX_pointOf b' y' hx']
    · rw [← localY_pointOf b x hy, h, localY_pointOf b' x' hy']
  · rintro ⟨rfl, rfl, rfl⟩
    rfl

/-! ## Neighbouring blocks -/

/-- The coordinates of a chunk are at least `n` away from the ends of `int`. -/
def ChunkCoord.Inside (n : ℤ) (c : ChunkCoord) : Prop :=
  (-2 ^ 31 + n ≤ c.x.toInt ∧ c.x.toInt ≤ 2 ^ 31 - 1 - n) ∧
    -2 ^ 31 + n ≤ c.y.toInt ∧ c.y.toInt ≤ 2 ^ 31 - 1 - n

/-- A step of the loops over `-1, 0, 1`. -/
def UnitStep (d : ℤ × ℤ) : Prop := (-1 ≤ d.1 ∧ d.1 ≤ 1) ∧ -1 ≤ d.2 ∧ d.2 ≤ 1

theorem unitStep_of_mem_neighborOffsets {d : ℤ × ℤ} (h : d ∈ neighborOffsets) : UnitStep d := by
  have hall : ∀ d ∈ neighborOffsets, (-1 ≤ d.1 ∧ d.1 ≤ 1) ∧ -1 ≤ d.2 ∧ d.2 ≤ 1 := by decide
  exact hall d h

/-- A unit step that goes nowhere is not in the list, and no other is missing. -/
theorem mem_neighborOffsets_of_unitStep {d : ℤ × ℤ} (h : UnitStep d) (hne : d ≠ (0, 0)) :
    d ∈ neighborOffsets := by
  obtain ⟨dx, dy⟩ := d
  obtain ⟨⟨h1, h2⟩, h3, h4⟩ := h
  have hx : dx = -1 ∨ dx = 0 ∨ dx = 1 := by omega
  have hy : dy = -1 ∨ dy = 0 ∨ dy = 1 := by omega
  rcases hx with rfl | rfl | rfl <;> rcases hy with rfl | rfl | rfl <;>
    first | decide | exact absurd rfl hne

/-- A sum of two `int`s that does not overflow. -/
theorem toInt_add_ofInt {a : Int32} {d : ℤ} (hd : -1 ≤ d ∧ d ≤ 1)
    (ha : -2 ^ 31 + 1 ≤ a.toInt ∧ a.toInt ≤ 2 ^ 31 - 1 - 1) :
    (a + Int32.ofInt d).toInt = a.toInt + d := by
  have hofInt : (Int32.ofInt d).toInt = d := Int32.toInt_ofInt_of_le (by omega) (by omega)
  rw [Int32.toInt_add, hofInt]
  exact Int.bmod_eq_of_le (by omega) (by omega)

/-- Away from the ends of `int`, a neighbouring chunk covers the neighbouring block. -/
theorem toBlock_offsetCoord {c : ChunkCoord} {d : ℤ × ℤ} (hc : c.Inside 1) (hd : UnitStep d) :
    (World.offsetCoord c d).toBlock = (c.toBlock.1 + d.1, c.toBlock.2 + d.2) := by
  unfold World.offsetCoord ChunkCoord.toBlock
  rw [toInt_add_ofInt hd.1 hc.1, toInt_add_ofInt hd.2 hc.2]

theorem ChunkCoord.Inside.mono {m n : ℤ} (h : m ≤ n) {c : ChunkCoord} (hc : c.Inside n) :
    c.Inside m := by
  unfold ChunkCoord.Inside at *
  omega

/-- A neighbour is at most one step closer to the ends of `int`. -/
theorem ChunkCoord.Inside.offsetCoord {n : ℤ} (hn : 0 ≤ n) {c : ChunkCoord}
    (hc : c.Inside (n + 1)) {d : ℤ × ℤ} (hd : UnitStep d) : (World.offsetCoord c d).Inside n := by
  have hblock := toBlock_offsetCoord (hc.mono (by omega)) hd
  have hx := congrArg Prod.fst hblock
  have hy := congrArg Prod.snd hblock
  simp only [toBlock, Inside, UnitStep] at *
  omega

/-- Points one step apart lie in blocks at most one step apart. -/
theorem unitStep_blockOf {p q : ℤ × ℤ} (h : UnitStep (q.1 - p.1, q.2 - p.2)) :
    UnitStep ((blockOf p).1 - (blockOf q).1, (blockOf p).2 - (blockOf q).2) := by
  simp only [UnitStep, blockOf, ChunkWidth, ChunkHeight] at *
  omega

/-! ## A world read as a plane -/

namespace World

/-- The chunk that covers a block, if there is one. -/
def chunkAt (w : World) (b : ℤ × ℤ) : Option Chunk :=
  if (ChunkCoord.ofBlock b).toBlock = b then w.tryGetChunk (ChunkCoord.ofBlock b) else none

/-- **The global cell map** of a world. -/
def cellAt (w : World) : Plane := fun p =>
  readOrDead (w.chunkAt (blockOf p)) (localX p) (localY p)

@[simp] theorem chunkAt_toBlock (w : World) (c : ChunkCoord) :
    w.chunkAt c.toBlock = w.tryGetChunk c := by
  unfold chunkAt
  rw [ChunkCoord.ofBlock_toBlock, if_pos rfl]

/-- A block without a chunk coordinate has no chunk. -/
theorem chunkAt_eq_none (w : World) {b : ℤ × ℤ} (h : ∀ c : ChunkCoord, c.toBlock ≠ b) :
    w.chunkAt b = none := if_neg (h _)

theorem cellAt_pointOf_block (w : World) (b : ℤ × ℤ) {x y : ℕ} (hx : x < ChunkWidth)
    (hy : y < ChunkHeight) : w.cellAt (pointOf b x y) = readOrDead (w.chunkAt b) x y := by
  unfold cellAt
  rw [blockOf_pointOf b hx hy, localX_pointOf b y hx, localY_pointOf b x hy]

/-- The cells of a chunk are the points of its block. -/
theorem cellAt_pointOf (w : World) (c : ChunkCoord) {x y : ℕ} (hx : x < ChunkWidth)
    (hy : y < ChunkHeight) :
    w.cellAt (pointOf c.toBlock x y) = readOrDead (w.tryGetChunk c) x y := by
  rw [cellAt_pointOf_block w _ hx hy, chunkAt_toBlock]

/-- A point is a cell of a chunk coordinate, or no chunk can cover it. -/
theorem point_cases (p : ℤ × ℤ) :
    (∃ (c : ChunkCoord) (x y : ℕ), x < ChunkWidth ∧ y < ChunkHeight ∧
        p = pointOf c.toBlock x y) ∨
      ∀ c : ChunkCoord, c.toBlock ≠ blockOf p := by
  by_cases h : ∃ c : ChunkCoord, c.toBlock = blockOf p
  · obtain ⟨c, hc⟩ := h
    refine Or.inl ⟨c, localX p, localY p, localX_lt p, localY_lt p, ?_⟩
    rw [hc, pointOf_blockOf]
  · exact Or.inr fun c hc => h ⟨c, hc⟩

/-- A point no chunk can cover is dead. -/
theorem cellAt_of_not_block (w : World) {p : ℤ × ℤ}
    (h : ∀ c : ChunkCoord, c.toBlock ≠ blockOf p) : w.cellAt p = {} := by
  unfold cellAt
  rw [w.chunkAt_eq_none h]
  rfl

@[simp] theorem cellAt_empty (p : ℤ × ℤ) : ({} : World).cellAt p = {} := by
  rcases point_cases p with ⟨c, x, y, hx, hy, rfl⟩ | hp
  · exact cellAt_pointOf {} c hx hy
  · exact cellAt_of_not_block {} hp

/-- A world of one chunk. -/
theorem cellAt_storeChunk (c : ChunkCoord) (chunk : Chunk) {x y : ℕ} (hx : x < ChunkWidth)
    (hy : y < ChunkHeight) (c' : ChunkCoord) :
    (storeChunk {} c chunk).cellAt (pointOf c'.toBlock x y) =
      if c' = c then chunk.getCell x y else {} := by
  rw [cellAt_pointOf _ c' hx hy, tryGetChunk_storeChunk]
  split_ifs <;> rfl

/-- Worlds whose chunks read alike have the same plane. -/
theorem cellAt_congr {w w' : World}
    (h : ∀ c x y, x < ChunkWidth → y < ChunkHeight →
      readOrDead (w.tryGetChunk c) x y = readOrDead (w'.tryGetChunk c) x y) :
    w.cellAt = w'.cellAt := by
  funext p
  rcases point_cases p with ⟨c, x, y, hx, hy, rfl⟩ | hp
  · rw [cellAt_pointOf w c hx hy, cellAt_pointOf w' c hx hy, h c x y hx hy]
  · rw [cellAt_of_not_block w hp, cellAt_of_not_block w' hp]

end World
end Multilife

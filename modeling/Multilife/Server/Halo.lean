import Multilife.Abstract.Plane

/-!
# The ghost border

`exchangeBorders` copies cells of up to eight neighbouring chunks into the ghost
border of a chunk: two rows, two columns, four corners.  Storage position
`(sx, sy)` of the border stands for the cell that would be there if the chunk
went on, and `haloCell` says which chunk and which of its cells that is.

* `of_mem_borderWrites`, `exists_mem_borderWrites`: the writes of one chunk's
  exchange are exactly the border positions, each with its `haloCell`.
* `getGhostCell_exchangeChunk`: after the exchange every storage position, inner
  or border, reads its `haloCell`.
* `tryGetChunk_exchangeBorders`: the loop over all chunks exchanges each chunk
  against the world as the margin left it.  Reading half-exchanged neighbours does
  no harm, since only inner cells are read and only border cells are written.
* `haloCell_eq_cellAt`: in the coordinates of the plane, a chunk and its border
  show the plane around the chunk.
-/

namespace Multilife

open FiniteMap Chunk

namespace World

/-- Which neighbour a storage coordinate belongs to: `-1`, `0` or `1`. -/
def haloShift (s size : ℕ) : ℤ := if s = 0 then -1 else if s = size + 1 then 1 else 0

/-- The local coordinate a storage coordinate has in that neighbour. -/
def haloLocal (s size : ℕ) : ℕ := if s = 0 then size - 1 else if s = size + 1 then 0 else s - 1

/-- The cell that storage position `(sx, sy)` of a chunk stands for. -/
def haloCell (w : World) (coord : ChunkCoord) (sx sy : ℕ) : CellState :=
  readOrDead
    (w.tryGetChunk (offsetCoord coord (haloShift sx ChunkWidth, haloShift sy ChunkHeight)))
    (haloLocal sx ChunkWidth) (haloLocal sy ChunkHeight)

/-- The positions of the border. -/
def OnBorder (sx sy : ℕ) : Prop :=
  sx = 0 ∨ sx = ChunkWidth + 1 ∨ sy = 0 ∨ sy = ChunkHeight + 1

theorem haloLocal_lt {s size : ℕ} (hsize : 0 < size) (h : s ≤ size + 1) :
    haloLocal s size < size := by
  unfold haloLocal
  split_ifs <;> omega

/-- A storage coordinate and its position on the axis of the plane. -/
theorem haloShift_add_haloLocal {s size : ℕ} (hsize : 0 < size) :
    (size : ℤ) * haloShift s size + haloLocal s size = s - 1 := by
  unfold haloShift haloLocal
  split_ifs with h0 h1
  · omega
  · rw [h1]
    push_cast
    omega
  · omega

/-! ## The writes of one chunk -/

/-- What the two loops and the four assignments of `exchangeChunk` write. -/
def borderWrites (w : World) (coord : ChunkCoord) : List (ℕ × ℕ × CellState) :=
  ((List.range ChunkWidth).flatMap fun x =>
    [(x + 1, 0, readOrDead (w.tryGetChunk ⟨coord.x, coord.y - 1⟩) x (ChunkHeight - 1)),
      (x + 1, ChunkHeight + 1, readOrDead (w.tryGetChunk ⟨coord.x, coord.y + 1⟩) x 0)]) ++
  ((List.range ChunkHeight).flatMap fun y =>
    [(0, y + 1, readOrDead (w.tryGetChunk ⟨coord.x - 1, coord.y⟩) (ChunkWidth - 1) y),
      (ChunkWidth + 1, y + 1, readOrDead (w.tryGetChunk ⟨coord.x + 1, coord.y⟩) 0 y)]) ++
  [(0, 0,
      readOrDead (w.tryGetChunk ⟨coord.x - 1, coord.y - 1⟩) (ChunkWidth - 1) (ChunkHeight - 1)),
    (ChunkWidth + 1, 0,
      readOrDead (w.tryGetChunk ⟨coord.x + 1, coord.y - 1⟩) 0 (ChunkHeight - 1)),
    (0, ChunkHeight + 1,
      readOrDead (w.tryGetChunk ⟨coord.x - 1, coord.y + 1⟩) (ChunkWidth - 1) 0),
    (ChunkWidth + 1, ChunkHeight + 1,
      readOrDead (w.tryGetChunk ⟨coord.x + 1, coord.y + 1⟩) 0 0)]

/-- One write of the exchange. -/
def writeBorder (chunk : Chunk) (e : ℕ × ℕ × CellState) : Chunk :=
  chunk.setGhostCell e.1 e.2.1 e.2.2

theorem exchangeChunk_eq (w : World) (coord : ChunkCoord) (chunk : Chunk) :
    exchangeChunk w coord chunk = (borderWrites w coord).foldl writeBorder chunk := by
  unfold borderWrites
  rw [List.foldl_append, List.foldl_append, List.foldl_flatMap, List.foldl_flatMap]
  rfl

/-! ## Which cell a border position stands for -/

@[simp] theorem haloShift_zero (n : ℕ) : haloShift 0 n = -1 := rfl

@[simp] theorem haloLocal_zero (n : ℕ) : haloLocal 0 n = n - 1 := rfl

@[simp] theorem haloShift_top (n : ℕ) : haloShift (n + 1) n = 1 := by
  rw [haloShift, if_neg (Nat.succ_ne_zero n), if_pos rfl]

@[simp] theorem haloLocal_top (n : ℕ) : haloLocal (n + 1) n = 0 := by
  rw [haloLocal, if_neg (Nat.succ_ne_zero n), if_pos rfl]

theorem haloShift_inner {x n : ℕ} (h : x < n) : haloShift (x + 1) n = 0 := by
  rw [haloShift, if_neg (Nat.succ_ne_zero x), if_neg (by omega)]

theorem haloLocal_inner {x n : ℕ} (h : x < n) : haloLocal (x + 1) n = x := by
  rw [haloLocal, if_neg (Nat.succ_ne_zero x), if_neg (by omega), Nat.add_sub_cancel]

theorem add_ofInt_zero (a : Int32) : a + Int32.ofInt 0 = a := Int32.add_zero a

theorem add_ofInt_neg_one (a : Int32) : a + Int32.ofInt (-1) = a - 1 :=
  (Int32.sub_eq_add_neg a 1).symm

theorem add_ofInt_one (a : Int32) : a + Int32.ofInt 1 = a + 1 := rfl

/-- The neighbour `(dx, dy)`, with the sums the source writes. -/
theorem offsetCoord_eq {coord : ChunkCoord} {dx dy : ℤ} {x y : Int32}
    (hx : coord.x + Int32.ofInt dx = x) (hy : coord.y + Int32.ofInt dy = y) :
    offsetCoord coord (dx, dy) = ⟨x, y⟩ := by
  unfold offsetCoord
  rw [hx, hy]

/-- An inner position stands for the chunk's own cell. -/
theorem haloCell_inner (w : World) (coord : ChunkCoord) {x y : ℕ} (hx : x < ChunkWidth)
    (hy : y < ChunkHeight) :
    haloCell w coord (x + 1) (y + 1) = readOrDead (w.tryGetChunk coord) x y := by
  unfold haloCell
  rw [haloShift_inner hx, haloShift_inner hy, haloLocal_inner hx, haloLocal_inner hy,
    offsetCoord_eq (add_ofInt_zero _) (add_ofInt_zero _)]

/-- **The border shows the plane.**  Away from the ends of `int`, storage position
`(sx, sy)` of a chunk stands for the point `(sx - 1, sy - 1)` of its block. -/
theorem haloCell_eq_cellAt (w : World) {c : ChunkCoord} (hc : c.Inside 1) {sx sy : ℕ}
    (hx : sx < TotalWidth) (hy : sy < TotalHeight) :
    haloCell w c sx sy =
      w.cellAt (ChunkWidth * c.toBlock.1 + (sx - 1), ChunkHeight * c.toBlock.2 + (sy - 1)) := by
  have hwidth : 0 < ChunkWidth ∧ 0 < ChunkHeight := by decide
  have hsx : sx ≤ ChunkWidth + 1 := Nat.lt_succ_iff.mp hx
  have hsy : sy ≤ ChunkHeight + 1 := Nat.lt_succ_iff.mp hy
  have hstep : UnitStep (haloShift sx ChunkWidth, haloShift sy ChunkHeight) := by
    unfold UnitStep haloShift
    constructor <;> dsimp only <;> split_ifs <;> omega
  unfold haloCell
  rw [← cellAt_pointOf w _ (haloLocal_lt hwidth.1 hsx) (haloLocal_lt hwidth.2 hsy),
    toBlock_offsetCoord hc hstep]
  have hpx := haloShift_add_haloLocal (s := sx) hwidth.1
  have hpy := haloShift_add_haloLocal (s := sy) hwidth.2
  congr 1
  ext
  · show (ChunkWidth : ℤ) * (c.toBlock.1 + haloShift sx ChunkWidth) + _ = _
    rw [mul_add, add_assoc, hpx]
  · show (ChunkHeight : ℤ) * (c.toBlock.2 + haloShift sy ChunkHeight) + _ = _
    rw [mul_add, add_assoc, hpy]

/-- Every write goes to a border position, and writes the cell it stands for. -/
theorem of_mem_borderWrites {w : World} {coord : ChunkCoord} {sx sy : ℕ} {s : CellState}
    (h : (sx, sy, s) ∈ borderWrites w coord) :
    sx < TotalWidth ∧ sy < TotalHeight ∧ OnBorder sx sy ∧ s = haloCell w coord sx sy := by
  have hzero : 0 < TotalWidth ∧ 0 < TotalHeight := by decide
  have htop : ChunkWidth + 1 < TotalWidth ∧ ChunkHeight + 1 < TotalHeight := by decide
  simp only [borderWrites, List.mem_append, List.mem_flatMap, List.mem_range, List.mem_cons,
    List.not_mem_nil, or_false, Prod.mk.injEq] at h
  unfold haloCell OnBorder
  rcases h with (⟨x, hx, ⟨rfl, rfl, rfl⟩ | ⟨rfl, rfl, rfl⟩⟩ |
      ⟨y, hy, ⟨rfl, rfl, rfl⟩ | ⟨rfl, rfl, rfl⟩⟩) |
    ⟨rfl, rfl, rfl⟩ | ⟨rfl, rfl, rfl⟩ | ⟨rfl, rfl, rfl⟩ | ⟨rfl, rfl, rfl⟩
  · refine ⟨inner_lt hx, hzero.2, by omega, ?_⟩
    rw [haloShift_inner hx, haloLocal_inner hx, haloShift_zero, haloLocal_zero,
      offsetCoord_eq (add_ofInt_zero _) (add_ofInt_neg_one _)]
  · refine ⟨inner_lt hx, htop.2, by omega, ?_⟩
    rw [haloShift_inner hx, haloLocal_inner hx, haloShift_top, haloLocal_top,
      offsetCoord_eq (add_ofInt_zero _) (add_ofInt_one _)]
  · refine ⟨hzero.1, inner_lt' hy, by omega, ?_⟩
    rw [haloShift_inner hy, haloLocal_inner hy, haloShift_zero, haloLocal_zero,
      offsetCoord_eq (add_ofInt_neg_one _) (add_ofInt_zero _)]
  · refine ⟨htop.1, inner_lt' hy, by omega, ?_⟩
    rw [haloShift_inner hy, haloLocal_inner hy, haloShift_top, haloLocal_top,
      offsetCoord_eq (add_ofInt_one _) (add_ofInt_zero _)]
  · refine ⟨hzero.1, hzero.2, by omega, ?_⟩
    rw [haloShift_zero, haloShift_zero, haloLocal_zero, haloLocal_zero,
      offsetCoord_eq (add_ofInt_neg_one _) (add_ofInt_neg_one _)]
  · refine ⟨htop.1, hzero.2, by omega, ?_⟩
    rw [haloShift_top, haloShift_zero, haloLocal_top, haloLocal_zero,
      offsetCoord_eq (add_ofInt_one _) (add_ofInt_neg_one _)]
  · refine ⟨hzero.1, htop.2, by omega, ?_⟩
    rw [haloShift_zero, haloShift_top, haloLocal_zero, haloLocal_top,
      offsetCoord_eq (add_ofInt_neg_one _) (add_ofInt_one _)]
  · refine ⟨htop.1, htop.2, by omega, ?_⟩
    rw [haloShift_top, haloShift_top, haloLocal_top, haloLocal_top,
      offsetCoord_eq (add_ofInt_one _) (add_ofInt_one _)]

/-- Every border position is written. -/
theorem exists_mem_borderWrites (w : World) (coord : ChunkCoord) {sx sy : ℕ}
    (hx : sx < TotalWidth) (hy : sy < TotalHeight) (hborder : OnBorder sx sy) :
    ∃ s, (sx, sy, s) ∈ borderWrites w coord := by
  have hwidth : sx = 0 ∨ sx = ChunkWidth + 1 ∨ ∃ x < ChunkWidth, sx = x + 1 := by
    simp only [TotalWidth, InnerWidth, GhostBorder] at hx
    rcases Nat.eq_zero_or_pos sx with h | h
    · exact Or.inl h
    · rcases (by omega : sx ≤ ChunkWidth + 1).eq_or_lt with h' | h'
      · exact Or.inr (Or.inl h')
      · exact Or.inr (Or.inr ⟨sx - 1, by omega, by omega⟩)
  have hheight : sy = 0 ∨ sy = ChunkHeight + 1 ∨ ∃ y < ChunkHeight, sy = y + 1 := by
    simp only [TotalHeight, InnerHeight, GhostBorder] at hy
    rcases Nat.eq_zero_or_pos sy with h | h
    · exact Or.inl h
    · rcases (by omega : sy ≤ ChunkHeight + 1).eq_or_lt with h' | h'
      · exact Or.inr (Or.inl h')
      · exact Or.inr (Or.inr ⟨sy - 1, by omega, by omega⟩)
  simp only [borderWrites, List.mem_append, List.mem_flatMap, List.mem_range, List.mem_cons,
    List.not_mem_nil, or_false, Prod.mk.injEq]
  rcases hwidth with rfl | rfl | ⟨x, hxlt, rfl⟩
  · rcases hheight with rfl | rfl | ⟨y, hylt, rfl⟩
    · exact ⟨_, Or.inr (Or.inl ⟨rfl, rfl, rfl⟩)⟩
    · exact ⟨_, Or.inr (Or.inr (Or.inr (Or.inl ⟨rfl, rfl, rfl⟩)))⟩
    · exact ⟨_, Or.inl (Or.inr ⟨y, hylt, Or.inl ⟨rfl, rfl, rfl⟩⟩)⟩
  · rcases hheight with rfl | rfl | ⟨y, hylt, rfl⟩
    · exact ⟨_, Or.inr (Or.inr (Or.inl ⟨rfl, rfl, rfl⟩))⟩
    · exact ⟨_, Or.inr (Or.inr (Or.inr (Or.inr ⟨rfl, rfl, rfl⟩)))⟩
    · exact ⟨_, Or.inl (Or.inr ⟨y, hylt, Or.inr ⟨rfl, rfl, rfl⟩⟩)⟩
  · rcases hheight with rfl | rfl | ⟨y, hylt, rfl⟩
    · exact ⟨_, Or.inl (Or.inl ⟨x, hxlt, Or.inl ⟨rfl, rfl, rfl⟩⟩)⟩
    · exact ⟨_, Or.inl (Or.inl ⟨x, hxlt, Or.inr ⟨rfl, rfl, rfl⟩⟩)⟩
    · -- an inner position is not on the border
      rcases hborder with h | h | h | h <;> omega

/-! ## One chunk after the exchange -/

/-- A write to the border, seen from a storage position. -/
theorem getGhostCell_writeBorder {w : World} {coord : ChunkCoord} {e : ℕ × ℕ × CellState}
    (he : e ∈ borderWrites w coord) (chunk : Chunk) {tx : ℕ} (ty : ℕ) (htx : tx < TotalWidth) :
    (writeBorder chunk e).getGhostCell tx ty =
      if e.1 = tx ∧ e.2.1 = ty then haloCell w coord tx ty else chunk.getGhostCell tx ty := by
  obtain ⟨sx, sy, s⟩ := e
  obtain ⟨hsx, hsy, -, rfl⟩ := of_mem_borderWrites he
  unfold writeBorder
  rw [getGhostCell_setGhostCell _ _ hsx hsy htx]
  split_ifs with h
  · obtain ⟨rfl, rfl⟩ := h
    rfl
  · rfl

/-- A border position reads the cell it stands for. -/
theorem getGhostCell_exchangeChunk_border (w : World) (coord : ChunkCoord) (chunk : Chunk)
    {sx sy : ℕ} (hx : sx < TotalWidth) (hy : sy < TotalHeight) (hborder : OnBorder sx sy) :
    (exchangeChunk w coord chunk).getGhostCell sx sy = haloCell w coord sx sy := by
  rw [exchangeChunk_eq]
  obtain ⟨s, hs⟩ := exists_mem_borderWrites w coord hx hy hborder
  refine Overwrite.read_foldl_of_agree (f := writeBorder)
    (r := fun chunk : Chunk => chunk.getGhostCell sx sy) (fun e he => ?_)
    ⟨(sx, sy, s), hs,
      fun chunk => (getGhostCell_writeBorder hs chunk sy hx).trans (if_pos ⟨rfl, rfl⟩)⟩ chunk
  by_cases h : e.1 = sx ∧ e.2.1 = sy
  · exact Or.inr fun chunk => (getGhostCell_writeBorder he chunk sy hx).trans (if_pos h)
  · exact Or.inl fun chunk => (getGhostCell_writeBorder he chunk sy hx).trans (if_neg h)

/-- The exchange leaves the inner cells alone. -/
theorem getCell_exchangeChunk (w : World) (coord : ChunkCoord) (chunk : Chunk) {x y : ℕ}
    (hx : x < ChunkWidth) (hy : y < ChunkHeight) :
    (exchangeChunk w coord chunk).getCell x y = chunk.getCell x y := by
  rw [exchangeChunk_eq]
  refine Overwrite.read_foldl_of_keeps (f := writeBorder)
    (r := fun chunk : Chunk => chunk.getCell x y) (fun e he chunk => ?_) chunk
  have hwrite := getGhostCell_writeBorder he chunk (y + GhostBorder) (inner_lt hx)
  refine hwrite.trans (if_neg ?_)
  obtain ⟨-, -, hborder, -⟩ := of_mem_borderWrites (show (e.1, e.2.1, e.2.2) ∈ _ from he)
  simp only [OnBorder, GhostBorder] at *
  omega

theorem dirtyCells_exchangeChunk (w : World) (coord : ChunkCoord) (chunk : Chunk) :
    (exchangeChunk w coord chunk).dirtyCells = chunk.dirtyCells := by
  rw [exchangeChunk_eq]
  exact Overwrite.read_foldl_of_keeps (f := writeBorder)
    (r := fun chunk : Chunk => chunk.dirtyCells) (fun _ _ _ => rfl) chunk

/-- **One chunk after the exchange.**  Inner or border, a storage position of a
chunk of the world reads the cell it stands for. -/
theorem getGhostCell_exchangeChunk {w : World} {coord : ChunkCoord} {chunk : Chunk}
    (hchunk : w.tryGetChunk coord = some chunk) {sx sy : ℕ} (hx : sx < TotalWidth)
    (hy : sy < TotalHeight) :
    (exchangeChunk w coord chunk).getGhostCell sx sy = haloCell w coord sx sy := by
  by_cases hborder : OnBorder sx sy
  · exact getGhostCell_exchangeChunk_border w coord chunk hx hy hborder
  · obtain ⟨x, rfl⟩ : ∃ x, sx = x + 1 := ⟨sx - 1, by simp only [OnBorder] at hborder; omega⟩
    obtain ⟨y, rfl⟩ : ∃ y, sy = y + 1 := ⟨sy - 1, by simp only [OnBorder] at hborder; omega⟩
    simp only [OnBorder, TotalWidth, TotalHeight, InnerWidth, InnerHeight, GhostBorder] at *
    have hx' : x < ChunkWidth := by omega
    have hy' : y < ChunkHeight := by omega
    rw [haloCell_inner w coord hx' hy', hchunk]
    exact getCell_exchangeChunk w coord chunk hx' hy'

/-! ## All chunks after the exchange -/

/-- Chunks with the same inner cells. -/
def SameCells (chunk chunk' : Chunk) : Prop :=
  ∀ x y, x < ChunkWidth → y < ChunkHeight → chunk'.getCell x y = chunk.getCell x y

theorem readOrDead_of_related {m m' : Finmap fun _ : ChunkCoord => Chunk}
    (h : Related SameCells m m') (c : ChunkCoord) {x y : ℕ} (hx : x < ChunkWidth)
    (hy : y < ChunkHeight) : readOrDead (m'.lookup c) x y = readOrDead (m.lookup c) x y := by
  have hc := h c
  revert hc
  cases m.lookup c <;> cases m'.lookup c <;> intro hc <;> cases hc
  · rfl
  · rename_i hsame
    exact hsame x y hx hy

/-- The exchange of a chunk only reads inner cells. -/
theorem exchangeChunk_congr {w w' : World} (h : Related SameCells w.chunks w'.chunks)
    (coord : ChunkCoord) (chunk : Chunk) :
    exchangeChunk w' coord chunk = exchangeChunk w coord chunk := by
  have hlast : ChunkWidth - 1 < ChunkWidth ∧ ChunkHeight - 1 < ChunkHeight := by decide
  have hfirst : 0 < ChunkWidth ∧ 0 < ChunkHeight := by decide
  rw [exchangeChunk_eq, exchangeChunk_eq]
  congr 1
  unfold borderWrites tryGetChunk
  congr 1
  · congr 1
    · refine List.flatMap_congr fun x hx => ?_
      have hx' := List.mem_range.mp hx
      rw [readOrDead_of_related h _ hx' hlast.2, readOrDead_of_related h _ hx' hfirst.2]
    · refine List.flatMap_congr fun y hy => ?_
      have hy' := List.mem_range.mp hy
      rw [readOrDead_of_related h _ hlast.1 hy', readOrDead_of_related h _ hfirst.1 hy']
  · rw [readOrDead_of_related h _ hlast.1 hlast.2, readOrDead_of_related h _ hfirst.1 hlast.2,
      readOrDead_of_related h _ hlast.1 hfirst.2, readOrDead_of_related h _ hfirst.1 hfirst.2]

theorem chunks_foldl_exchange (l : List ChunkCoord) (w : World) :
    (l.foldl (fun w coord =>
        ({ chunks := modify coord (exchangeChunk w coord) w.chunks } : World)) w).chunks =
      l.foldl (fun m coord => modify coord (exchangeChunk ⟨m⟩ coord) m) w.chunks := by
  induction l generalizing w with
  | nil => rfl
  | cons coord l ih => rw [List.foldl_cons, List.foldl_cons, ih]

/-- **All chunks after the exchange.**  Each chunk is exchanged against the world
as the margin left it, in whatever order the chunks are visited. -/
theorem tryGetChunk_exchangeBorders (marginOrder borderOrder : Traversal ChunkCoord)
    (w : World) (c : ChunkCoord) :
    (w.exchangeBorders marginOrder borderOrder).tryGetChunk c =
      ((w.ensureSimulationMarginUnlocked marginOrder).tryGetChunk c).map
        (exchangeChunk (w.ensureSimulationMarginUnlocked marginOrder) c) := by
  unfold exchangeBorders tryGetChunk
  generalize w.ensureSimulationMarginUnlocked marginOrder = wm
  simp only [chunks_foldl_exchange]
  rw [lookup_foldl_modifyWith (R := SameCells) (fun _ _ _ _ _ => rfl)
    (fun u v t huv hvt x y hx hy => (hvt x y hx hy).trans (huv x y hx hy))
    (fun m coord => exchangeChunk ⟨m⟩ coord)
    (fun m m' h coord chunk => @exchangeChunk_congr ⟨m⟩ ⟨m'⟩ h coord chunk)
    (fun m coord chunk x y hx hy => getCell_exchangeChunk ⟨m⟩ coord chunk hx hy)
    (borderOrder.nodup _)]
  split_ifs with h
  · rfl
  · -- a chunk that is not visited does not exist
    have hnone : wm.chunks.lookup c = none := by
      rw [Finmap.lookup_eq_none, ← Finmap.mem_keys]
      exact fun hmem => h ((borderOrder.mem_order _ _).mpr hmem)
    rw [hnone]
    rfl

end World
end Multilife

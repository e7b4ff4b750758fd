import Multilife.Server.GameServer
import Multilife.Server.Halo

/-!
# The chunked simulation computes the game on the plane

`World.simulate` cuts the plane into chunks, copies borders, writes a second
buffer and swaps.  Read as a plane it is one `Plane.step`.  The proof has three
parts.

* Inside a chunk (`cellAt_simulate_of_chunk`): after the exchange, the storage of
  a chunk shows the nine points around each of its cells, so `calculateCell` is
  `Plane.rule`.
* Outside all chunks (`liveOwners_eq_nil`): a point without a chunk has no live
  neighbour, because the margin holds every neighbour of a chunk with live cells.
* `cellAt_simulate` puts the two together.
-/

namespace Multilife

open Chunk

/-! ## One cell -/

/-- The loop body computes the rule from the votes of the neighbours. -/
theorem calculateCell_fst (buffer : Buffer) (x y : ℕ) :
    (calculateCell buffer x y).1 =
      Plane.rule (readCell buffer (index (x + GhostBorder) (y + GhostBorder)))
        (neighborVotes buffer (x + GhostBorder) (y + GhostBorder)) := by
  rw [calculateCell, neighborAliveCount_eq, Plane.rule]
  generalize readCell buffer _ = cell
  generalize neighborVotes buffer _ _ = votes
  dsimp only
  cases halive : cell.alive with
  | true =>
    rw [if_pos rfl, if_pos rfl]
    by_cases h : votes.length = 2 ∨ votes.length = 3
    · rw [if_pos h, if_neg (by omega)]
    · rw [if_neg h, if_pos ⟨by omega, rfl⟩]
  | false =>
    rw [if_neg Bool.false_ne_true, if_neg Bool.false_ne_true]
    by_cases h : votes.length = 3
    · rw [if_pos h, if_pos ⟨h, rfl⟩]
    · rw [if_neg h, if_neg fun h' => h h'.1]

namespace Plane

/-- Where every live cell is owned, the votes are the live neighbours. -/
theorem votesOf_eq_liveOwners {g : Plane} (hg : g.Owned) (p : ℤ × ℤ) :
    votesOf (neighborOffsets.map fun d => g (p.1 + d.1, p.2 + d.2)) = liveOwners g p := by
  have htest : ∀ q, isOwnedAlive (g q) = (g q).alive := by
    intro q
    cases halive : (g q).alive with
    | true => simp [isOwnedAlive, halive, hg q halive]
    | false => simp [isOwnedAlive, halive]
  rw [votesOf, liveOwners, neighbors, List.filter_map, List.filter_map, List.map_map,
    List.map_map]
  congr 1
  refine List.filter_congr fun d _ => ?_
  exact htest _

end Plane

namespace World

variable (sched : TickSchedule) {w : World}

/-! ## Inside a chunk -/

/-- Chunks with live cells one step further inside keep the whole margin inside. -/
theorem inside_of_mem_margin_of_live (order : FiniteMap.Traversal ChunkCoord) {n : ℤ} (hn : 0 ≤ n)
    (hw : ∀ c ∈ w.chunks, c.Inside n)
    (hlive : ∀ c chunk, w.tryGetChunk c = some chunk → hasLiveCells chunk = true →
      c.Inside (n + 1)) {c : ChunkCoord}
    (hc : c ∈ (w.ensureSimulationMarginUnlocked order).chunks) : c.Inside n := by
  obtain ⟨chunk, hchunk⟩ := mem_chunks_iff.mp hc
  rcases tryGetChunk_ensureSimulationMargin order w c with h | ⟨-, hmargin, -⟩
  · exact hw c (mem_chunks_iff.mpr ⟨chunk, by rw [← h, hchunk]⟩)
  · obtain ⟨coord, found, hfound, halive, d, hd, rfl⟩ := hmargin
    exact (hlive coord found hfound halive).offsetCoord hn (unitStep_of_mem_neighborOffsets hd)

/-- The margin does not reach the ends of `int`. -/
theorem inside_of_mem_margin (order : FiniteMap.Traversal ChunkCoord)
    (hw : ∀ c ∈ w.chunks, c.Inside 2) {c : ChunkCoord}
    (hc : c ∈ (w.ensureSimulationMarginUnlocked order).chunks) : c.Inside 1 :=
  inside_of_mem_margin_of_live order (by decide) (fun c hc => (hw c hc).mono (by decide))
    (fun c chunk hchunk _ => hw c (mem_chunks_iff.mpr ⟨chunk, hchunk⟩)) hc

/-- The margin leaves the plane as it was. -/
theorem cellAt_ensureSimulationMargin (order : FiniteMap.Traversal ChunkCoord) (w : World) :
    (w.ensureSimulationMarginUnlocked order).cellAt = w.cellAt :=
  cellAt_congr fun c x y _ _ => readOrDead_ensureSimulationMargin order w c x y

/-- After the exchange the storage of a chunk shows the plane. -/
theorem readCell_exchangeChunk {wm : World} {c : ChunkCoord} {chunk : Chunk}
    (hchunk : wm.tryGetChunk c = some chunk) (hc : c.Inside 1) {sx sy : ℕ}
    (hx : sx < TotalWidth) (hy : sy < TotalHeight) :
    readCell (exchangeChunk wm c chunk).current (index sx sy) =
      wm.cellAt (ChunkWidth * c.toBlock.1 + (sx - 1), ChunkHeight * c.toBlock.2 + (sy - 1)) := by
  rw [← haloCell_eq_cellAt wm hc hx hy]
  exact getGhostCell_exchangeChunk hchunk hx hy

/-- The neighbour in the storage is the neighbour on the plane. -/
theorem neighborCell_exchangeChunk {wm : World} {c : ChunkCoord} {chunk : Chunk}
    (hchunk : wm.tryGetChunk c = some chunk) (hc : c.Inside 1) {x y : ℕ}
    (hx : x < ChunkWidth) (hy : y < ChunkHeight) {d : ℤ × ℤ} (hd : UnitStep d) :
    neighborCell (exchangeChunk wm c chunk).current (x + GhostBorder) (y + GhostBorder) d =
      wm.cellAt ((pointOf c.toBlock x y).1 + d.1, (pointOf c.toBlock x y).2 + d.2) := by
  obtain ⟨⟨h1, h2⟩, h3, h4⟩ := hd
  have hsx : (((x + GhostBorder : ℕ) : ℤ) + d.1).toNat < TotalWidth := by
    simp only [GhostBorder, TotalWidth, InnerWidth] at *
    omega
  have hsy : (((y + GhostBorder : ℕ) : ℤ) + d.2).toNat < TotalHeight := by
    simp only [GhostBorder, TotalHeight, InnerHeight] at *
    omega
  rw [neighborCell, readCell_exchangeChunk hchunk hc hsx hsy]
  congr 1
  simp only [pointOf, GhostBorder, Prod.mk.injEq]
  omega

/-- **Inside a chunk** the simulation step is the reference step. -/
theorem cellAt_simulate_of_chunk (hw : ∀ c ∈ w.chunks, c.Inside 2) (howned : w.cellAt.Owned)
    {c : ChunkCoord} {chunk : Chunk}
    (hchunk : (w.ensureSimulationMarginUnlocked sched.margin).tryGetChunk c = some chunk)
    {x y : ℕ} (hx : x < ChunkWidth) (hy : y < ChunkHeight) :
    (w.simulate sched).cellAt (pointOf c.toBlock x y) =
      Plane.step w.cellAt (pointOf c.toBlock x y) := by
  have hc : c.Inside 1 :=
    inside_of_mem_margin sched.margin hw (mem_chunks_iff.mpr ⟨chunk, hchunk⟩)
  have hplane := cellAt_ensureSimulationMargin sched.margin w
  generalize hwm : w.ensureSimulationMarginUnlocked sched.margin = wm at hchunk hplane
  -- the cell that the tasks leave at this place
  have hresult : (w.simulate sched).cellAt (pointOf c.toBlock x y) =
      (calculateCell (exchangeChunk wm c chunk).current x y).1 := by
    rw [cellAt_pointOf _ c hx hy, tryGetChunk_simulate, tryGetChunk_exchangeBorders, hwm, hchunk]
    exact (calculateNext_spec (exchangeChunk wm c chunk)).2.1 x y hx hy
  have hcenter : readCell (exchangeChunk wm c chunk).current
      (index (x + GhostBorder) (y + GhostBorder)) = wm.cellAt (pointOf c.toBlock x y) := by
    rw [readCell_exchangeChunk hchunk hc (inner_lt hx) (inner_lt' hy)]
    congr 1
    simp only [pointOf, GhostBorder, Prod.mk.injEq]
    omega
  have hvotes : neighborVotes (exchangeChunk wm c chunk).current (x + GhostBorder)
      (y + GhostBorder) = wm.cellAt.liveOwners (pointOf c.toBlock x y) := by
    rw [← Plane.votesOf_eq_liveOwners (by rw [hplane]; exact howned), neighborVotes]
    congr 1
    refine List.map_congr_left fun d hd => ?_
    exact neighborCell_exchangeChunk hchunk hc hx hy (unitStep_of_mem_neighborOffsets hd)
  rw [hresult, calculateCell_fst, hcenter, hvotes, hplane]
  rfl

/-! ## Outside all chunks -/

/-- A live point has a chunk, and that chunk has live cells. -/
theorem exists_chunk_of_alive {q : ℤ × ℤ} (hq : (w.cellAt q).alive = true) :
    ∃ c chunk, c.toBlock = blockOf q ∧ w.tryGetChunk c = some chunk ∧
      hasLiveCells chunk = true := by
  rcases point_cases q with ⟨c, x, y, hx, hy, rfl⟩ | hnone
  · rw [cellAt_pointOf w c hx hy] at hq
    cases hchunk : w.tryGetChunk c with
    | none =>
      rw [hchunk] at hq
      exact absurd hq Bool.false_ne_true
    | some chunk =>
      rw [hchunk] at hq
      exact ⟨c, chunk, (blockOf_pointOf _ hx hy).symm, hchunk,
        hasLiveCells_iff.mpr ⟨x, y, hx, hy, hq⟩⟩
  · rw [cellAt_of_not_block w hnone] at hq
    exact absurd hq Bool.false_ne_true

/-- The block of a point next to a live cell has a chunk in the margin. -/
theorem exists_margin_of_live_neighbor (order : FiniteMap.Traversal ChunkCoord)
    (hw : ∀ c ∈ w.chunks, c.Inside 2) {p q : ℤ × ℤ}
    (hpq : UnitStep (q.1 - p.1, q.2 - p.2)) (hq : (w.cellAt q).alive = true) :
    ∃ c ∈ (w.ensureSimulationMarginUnlocked order).chunks, c.toBlock = blockOf p := by
  obtain ⟨c, chunk, hblock, hchunk, hlive⟩ := exists_chunk_of_alive hq
  have hinside : c.Inside 1 := by
    have h2 := hw c (mem_chunks_iff.mpr ⟨chunk, hchunk⟩)
    simp only [ChunkCoord.Inside] at h2 ⊢
    omega
  have hstep := unitStep_blockOf hpq
  by_cases hsame : blockOf p = blockOf q
  · -- the point lies in the chunk of its live neighbour
    refine ⟨c, ?_, hblock.trans hsame.symm⟩
    rw [mem_chunks_iff]
    rcases tryGetChunk_ensureSimulationMargin order w c with h | ⟨hnone, -, -⟩
    · exact ⟨chunk, h.trans hchunk⟩
    · rw [hchunk] at hnone
      cases hnone
  · -- it lies in a neighbouring chunk, which the margin creates
    set d : ℤ × ℤ := ((blockOf p).1 - (blockOf q).1, (blockOf p).2 - (blockOf q).2) with hd
    have hne : d ≠ (0, 0) := by
      intro h0
      apply hsame
      have hx := congrArg Prod.fst h0
      have hy := congrArg Prod.snd h0
      ext
      · simp only [hd] at hx
        omega
      · simp only [hd] at hy
        omega
    refine ⟨offsetCoord c d, mem_margin_of_onMargin order
      ⟨c, chunk, hchunk, hlive, d, mem_neighborOffsets_of_unitStep hstep hne, rfl⟩, ?_⟩
    rw [toBlock_offsetCoord hinside hstep, hblock]
    ext
    · simp only [hd]
      omega
    · simp only [hd]
      omega

/-- **Outside all chunks** there are no live neighbours. -/
theorem liveOwners_eq_nil (order : FiniteMap.Traversal ChunkCoord)
    (hw : ∀ c ∈ w.chunks, c.Inside 2) {p : ℤ × ℤ}
    (hp : ∀ c ∈ (w.ensureSimulationMarginUnlocked order).chunks, c.toBlock ≠ blockOf p) :
    Plane.liveOwners w.cellAt p = [] := by
  rw [Plane.liveOwners, List.map_eq_nil_iff, List.filter_eq_nil_iff]
  intro q hq hlive
  obtain ⟨d, hd, rfl⟩ := List.mem_map.mp hq
  have hstep := unitStep_of_mem_neighborOffsets hd
  have hpq : UnitStep (p.1 + d.1 - p.1, p.2 + d.2 - p.2) := by
    simp only [UnitStep] at hstep ⊢
    omega
  obtain ⟨c, hc, hblock⟩ := exists_margin_of_live_neighbor order hw hpq hlive
  exact hp c hc hblock

/-- A dead point without an owner and without live neighbours stays so. -/
theorem step_of_no_neighbors {g : Plane} {p : ℤ × ℤ} (hp : g p = {})
    (hnone : Plane.liveOwners g p = []) : Plane.step g p = {} := by
  rw [Plane.step, hp, hnone]
  rfl

/-! ## The whole plane -/

/-- **The simulation step computes the game on the plane.**  Away from the ends of
`int` and with every live cell owned, for every order of the loops and of the
tasks, and whatever the ghost cells and the other buffers held. -/
theorem cellAt_simulate (hw : ∀ c ∈ w.chunks, c.Inside 2) (howned : w.cellAt.Owned) :
    (w.simulate sched).cellAt = Plane.step w.cellAt := by
  funext p
  by_cases hp : ∃ c ∈ (w.ensureSimulationMarginUnlocked sched.margin).chunks,
      c.toBlock = blockOf p
  · obtain ⟨c, hc, hblock⟩ := hp
    obtain ⟨chunk, hchunk⟩ := mem_chunks_iff.mp hc
    rw [← pointOf_blockOf p, ← hblock]
    exact cellAt_simulate_of_chunk sched hw howned hchunk (localX_lt p) (localY_lt p)
  · have hnone : ∀ c ∈ (w.ensureSimulationMarginUnlocked sched.margin).chunks,
        c.toBlock ≠ blockOf p := fun c hc h => hp ⟨c, hc, h⟩
    -- neither the old world nor the new one has a chunk here
    have hdead : ∀ w' : World,
        (∀ c, c.toBlock = blockOf p → w'.tryGetChunk c = none) → w'.cellAt p = {} := by
      intro w' hw'
      rcases point_cases p with ⟨c, x, y, hx, hy, rfl⟩ | hnot
      · rw [cellAt_pointOf w' c hx hy, hw' c (blockOf_pointOf _ hx hy).symm]
        rfl
      · exact cellAt_of_not_block w' hnot
    have hmargin : ∀ c, c.toBlock = blockOf p →
        (w.ensureSimulationMarginUnlocked sched.margin).tryGetChunk c = none := by
      intro c hc
      cases hchunk : (w.ensureSimulationMarginUnlocked sched.margin).tryGetChunk c with
      | none => rfl
      | some chunk => exact absurd hc (hnone c (mem_chunks_iff.mpr ⟨chunk, hchunk⟩))
    have hold : w.cellAt p = {} := by
      rw [← cellAt_ensureSimulationMargin sched.margin w]
      exact hdead _ hmargin
    have hnew : (w.simulate sched).cellAt p = {} := by
      refine hdead _ fun c hc => ?_
      rw [tryGetChunk_simulate, tryGetChunk_exchangeBorders, hmargin c hc]
      rfl
    rw [hnew, step_of_no_neighbors hold (liveOwners_eq_nil sched.margin hw hnone)]

/-- Three live cells in a column. -/
def blinker : World :=
  storeChunk {} ⟨0, 0⟩ (((({} : Chunk).setCell 1 0 ⟨true, 7⟩).setCell 1 1 ⟨true, 7⟩).setCell
    1 2 ⟨true, 7⟩)

theorem owned_blinker : blinker.cellAt.Owned := by
  intro p hp
  rcases point_cases p with ⟨c, x, y, hx, hy, rfl⟩ | hnone
  · have h0 : 0 < ChunkHeight ∧ 1 < ChunkHeight ∧ 2 < ChunkHeight := by decide
    have h1 : 1 < ChunkWidth := by decide
    rw [blinker, cellAt_storeChunk _ _ hx hy, getCell_setCell _ _ h1 h0.2.2 hx,
      getCell_setCell _ _ h1 h0.2.1 hx, getCell_setCell _ _ h1 h0.1 hx, getCell_empty] at hp ⊢
    split_ifs at hp ⊢ with hc h2 h3 h4
    · decide
    · decide
    · decide
  · rw [cellAt_of_not_block _ hnone] at hp
    exact absurd hp Bool.false_ne_true

theorem eq_of_mem_blinker {c : ChunkCoord} (hc : c ∈ blinker.chunks) : c = ⟨0, 0⟩ :=
  (Finmap.mem_insert.mp hc).resolve_right Finmap.notMem_empty

theorem inside_blinker : ∀ c ∈ blinker.chunks, c.Inside 2 := by
  intro c hc
  rw [eq_of_mem_blinker hc, ChunkCoord.Inside]
  decide

theorem cellAt_simulate_blinker :
    (blinker.simulate .sorted).cellAt = Plane.step blinker.cellAt :=
  cellAt_simulate .sorted inside_blinker owned_blinker

end World
end Multilife

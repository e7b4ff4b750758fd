import Mathlib.Algebra.Order.Ring.Int
import Multilife.Abstract.Game
import Multilife.System.Overflow

/-!
# The light cone

Nothing on the plane moves by more than one point in a generation.  So what `n`
generations of the chunked simulation leave at a point depends on the cells at most `n`
rows and columns away, however the two worlds are cut into chunks, whatever their ghost
cells and second buffers hold, and in whatever order the tasks have run.

* `cellAt_foldl_simulate`: `n` simulation steps are `n` steps on the plane.
* `simulate_lightCone`: two worlds that correspond around a point, one of them possibly
  moved, turned or mirrored, correspond at the point.
-/

namespace Multilife

open Chunk CellularAutomaton

namespace Plane

/-! ## The plane as an automaton -/

/-- The rule of the plane, from the cells of the neighbours. -/
def ruleAround (cell : CellState) (around : List CellState) : CellState :=
  rule cell ((around.filter CellState.alive).map CellState.owner)

theorem step_eq : step = CellularAutomaton.step neighbors ruleAround := by
  funext g p
  rw [step, CellularAutomaton.step, ruleAround, liveOwners, List.filter_map, List.map_map]
  rfl

theorem orderFree_ruleAround : OrderFree ruleAround := by
  intro cell around around' h
  have howners := (h.filter CellState.alive).map CellState.owner
  rw [ruleAround, ruleAround, rule, rule, howners.length_eq, Plurality.plurality_perm howners]

/-- What the neighbour lists lead to in `n` steps is at most `n` rows and columns away. -/
theorem near_of_mem_reach {n : ℕ} {p q : ℤ × ℤ} (h : q ∈ reach neighbors n p) :
    |q.1 - p.1| ≤ n ∧ |q.2 - p.2| ≤ n := by
  induction n generalizing p with
  | zero =>
    cases (h : q = p)
    simp
  | succ n ih =>
    rcases h with h | ⟨r, hr, h⟩
    · have hnear := ih h
      omega
    · have hnear := ih h
      obtain ⟨⟨⟨h1, h2⟩, h3, h4⟩, -⟩ := mem_neighbors.mp hr
      dsimp only at h1 h2 h3 h4
      rw [abs_le, abs_le] at hnear ⊢
      omega

/-- Births are owned where the living are. -/
theorem Owned.step {g : Plane} (hg : g.Owned) : (Plane.step g).Owned := by
  intro p
  rw [Plane.step, rule]
  split_ifs with halive h h
  · exact hg p
  · intro hdead
    cases hdead
  · intro _
    cases hvote : Plurality.plurality (liveOwners g p) with
    | none =>
      have hnil : liveOwners g p = [] := List.argmax_eq_none.mp hvote
      rw [hnil] at h
      cases h
    | some owner =>
      obtain ⟨q, hq, rfl⟩ := List.mem_map.mp (Plurality.plurality_mem hvote)
      exact hg q (List.mem_filter.mp hq).2
  · exact fun h => absurd h halive

end Plane

namespace World

/-! ## Many generations -/

theorem inside_simulate (sched : TickSchedule) {w : World} {n : ℤ} (hn : 0 ≤ n)
    (hw : ∀ c ∈ w.chunks, c.Inside (n + 1)) : ∀ c ∈ (w.simulate sched).chunks, c.Inside n :=
  fun c hc => inside_of_mem_margin_of_live sched.margin hn
    (fun c hc => (hw c hc).mono (by omega))
    (fun c chunk hchunk _ => hw c (mem_chunks_iff.mpr ⟨chunk, hchunk⟩))
    ((mem_chunks_simulate sched w c).mp hc)

/-- **A number of simulation steps** is that number of steps on the plane. -/
theorem cellAt_foldl_simulate {scheds : List TickSchedule} {w : World}
    (hw : ∀ c ∈ w.chunks, c.Inside (scheds.length + 1)) (howned : w.cellAt.Owned) :
    (scheds.foldl (fun w sched => w.simulate sched) w).cellAt =
      Plane.step^[scheds.length] w.cellAt := by
  induction scheds generalizing w with
  | nil => rfl
  | cons sched scheds ih =>
    rw [List.length_cons, Nat.cast_add, Nat.cast_one] at hw
    have hstep := cellAt_simulate sched (fun c hc => (hw c hc).mono (by omega)) howned
    rw [List.foldl_cons, ih (inside_simulate sched (by omega) hw) (hstep ▸ howned.step), hstep,
      List.length_cons, Function.iterate_succ_apply]

/-- **The light cone.**  Let two worlds correspond under an isometry of the plane on all
points at most `n` rows and columns away from `p`, with every live cell owned and every chunk
`n + 1` chunks inside the ends of the world.  Then after `n` generations they correspond at `p`,
whatever their chunks are otherwise and in whatever orders the loops and the tasks ran: the
chunk borders cannot be seen. -/
theorem simulate_lightCone {σ : Equiv.Perm (ℤ × ℤ)} (hσ : Plane.Isometry σ) {w w' : World}
    {scheds scheds' : List TickSchedule} (hlength : scheds'.length = scheds.length)
    (hw : ∀ c ∈ w.chunks, c.Inside (scheds.length + 1))
    (hw' : ∀ c ∈ w'.chunks, c.Inside (scheds.length + 1))
    (howned : w.cellAt.Owned) (howned' : w'.cellAt.Owned) {p : ℤ × ℤ}
    (hnear : ∀ q : ℤ × ℤ, |q.1 - p.1| ≤ scheds.length → |q.2 - p.2| ≤ scheds.length →
      w'.cellAt (σ q) = w.cellAt q) :
    (scheds'.foldl (fun w sched => w.simulate sched) w').cellAt (σ p) =
      (scheds.foldl (fun w sched => w.simulate sched) w).cellAt p := by
  rw [cellAt_foldl_simulate hw howned, cellAt_foldl_simulate (hlength.symm ▸ hw') howned', hlength,
    Plane.step_eq]
  refine iterate_step_congr Plane.orderFree_ruleAround hσ.carries fun q hq => ?_
  obtain ⟨hx, hy⟩ := Plane.near_of_mem_reach hq
  exact hnear q hx hy

/-! ### A chunk far away -/

/-- A chunk is seen in its block only. -/
theorem cellAt_storeChunk_of_ne (w : World) (c : ChunkCoord) (chunk : Chunk) {p : ℤ × ℤ}
    (hp : blockOf p ≠ c.toBlock) : (w.storeChunk c chunk).cellAt p = w.cellAt p := by
  rcases point_cases p with ⟨c', x, y, hx, hy, rfl⟩ | hnone
  · rw [blockOf_pointOf _ hx hy] at hp
    rw [cellAt_pointOf _ c' hx hy, cellAt_pointOf _ c' hx hy, tryGetChunk_storeChunk,
      if_neg fun h => hp (congrArg _ h)]
  · rw [cellAt_of_not_block _ hnone, cellAt_of_not_block _ hnone]

/-- The column of three with another cell, three chunks away. -/
def blinkerAndCell : World := blinker.storeChunk ⟨3, 0⟩ (({} : Chunk).setCell 5 5 ⟨true, 8⟩)

theorem owned_blinkerAndCell : blinkerAndCell.cellAt.Owned := by
  intro p hp
  by_cases hblock : blockOf p = (⟨3, 0⟩ : ChunkCoord).toBlock
  · have h5 : 5 < ChunkWidth ∧ 5 < ChunkHeight := by decide
    have hpoint : p = pointOf (⟨3, 0⟩ : ChunkCoord).toBlock (localX p) (localY p) := by
      rw [← hblock, pointOf_blockOf]
    rw [hpoint, blinkerAndCell, cellAt_pointOf _ _ (localX_lt p) (localY_lt p),
      tryGetChunk_storeChunk, if_pos rfl, readOrDead, getCell_setCell _ _ h5.1 h5.2 (localX_lt p),
      getCell_empty] at hp ⊢
    split_ifs at hp ⊢
    decide
  · rw [blinkerAndCell, cellAt_storeChunk_of_ne _ _ _ hblock] at hp ⊢
    exact owned_blinker p hp

/-- In two generations the centre of the column does not notice. -/
theorem simulate_lightCone_blinker :
    ((blinkerAndCell.simulate .sorted).simulate .sorted).cellAt (1, 1) =
      ((blinker.simulate .sorted).simulate .sorted).cellAt (1, 1) := by
  have hinside : ∀ c ∈ blinkerAndCell.chunks, c.Inside 3 := by
    intro c hc
    rcases Finmap.mem_insert.mp hc with rfl | hc
    · exact ⟨⟨by decide, by decide⟩, by decide, by decide⟩
    · rw [eq_of_mem_blinker hc]
      exact ⟨⟨by decide, by decide⟩, by decide, by decide⟩
  refine @simulate_lightCone (Equiv.refl _) (fun p q => Iff.rfl) blinker blinkerAndCell
    [.sorted, .sorted] [.sorted, .sorted] rfl (fun c hc => ?_) hinside owned_blinker
    owned_blinkerAndCell (1, 1) fun q hx hy => ?_
  · rw [eq_of_mem_blinker hc]
    exact ⟨⟨by decide, by decide⟩, by decide, by decide⟩
  · refine cellAt_storeChunk_of_ne _ _ _ fun hblock => ?_
    have hblockX : q.1 / 64 = 3 := congrArg Prod.fst hblock
    rw [abs_le] at hx
    simp only [List.length_cons, List.length_nil] at hx
    omega

end World
end Multilife

import Multilife.Refinement.Dirty
import Multilife.Refinement.Permissions

/-!
# Where owners come from

Owners spread in two ways.  A birth takes the owner of a neighbour, which may lie in
another chunk and is then read from the ghost border; a placement writes the id of a
player that the ledger knows.  So a set of ids that contains every owner, and every
account, still does after the simulation step and after any batch.

The ghost border needs no bound on coordinates here: whatever chunk a border position
is filled from, its cell is a cell of the plane.
-/

namespace Multilife

open Chunk Transition

namespace Plane

/-- Every cell belongs to nobody or to a player of the set. -/
def OwnersIn (g : Plane) (S : Set PlayerId) : Prop := ∀ p, (g p).owner = 0 ∨ (g p).owner ∈ S

/-- The rule leaves a cell to its owner, to nobody, or to one of the voters. -/
theorem owner_rule (cell : CellState) (votes : List PlayerId) :
    (rule cell votes).owner = 0 ∨ (rule cell votes).owner = cell.owner ∨
      (rule cell votes).owner ∈ votes := by
  unfold rule
  split_ifs
  · exact Or.inr (Or.inl rfl)
  · exact Or.inl rfl
  · cases h : Plurality.plurality votes with
    | none => exact Or.inl rfl
    | some v => exact Or.inr (Or.inr (Plurality.plurality_mem h))
  · exact Or.inr (Or.inl rfl)

end Plane

namespace World

variable {w : World} {S : Set PlayerId}

/-! ## The simulation step -/

/-- What a storage position of a chunk is filled from is a cell of the plane. -/
theorem exists_cellAt_of_haloCell (w : World) (c : ChunkCoord) {sx sy : ℕ}
    (hx : sx < TotalWidth) (hy : sy < TotalHeight) : ∃ p, haloCell w c sx sy = w.cellAt p := by
  have hwidth : 0 < ChunkWidth ∧ 0 < ChunkHeight := by decide
  have hlx := haloLocal_lt hwidth.1 (Nat.lt_succ_iff.mp hx)
  have hly := haloLocal_lt hwidth.2 (Nat.lt_succ_iff.mp hy)
  exact ⟨_, (cellAt_pointOf w _ hlx hly).symm⟩

/-- After the exchange, every vote is the owner of a cell of the plane. -/
theorem owner_of_mem_neighborVotes {c : ChunkCoord} {chunk : Chunk}
    (hchunk : w.tryGetChunk c = some chunk) {x y : ℕ} (hx : x < ChunkWidth)
    (hy : y < ChunkHeight) {v : PlayerId}
    (hv : v ∈ neighborVotes (exchangeChunk w c chunk).current (x + GhostBorder)
      (y + GhostBorder)) : ∃ p, (w.cellAt p).owner = v := by
  simp only [neighborVotes, votesOf, List.mem_map, List.mem_filter] at hv
  obtain ⟨cell, ⟨⟨d, hd, rfl⟩, -⟩, rfl⟩ := hv
  obtain ⟨⟨h1, h2⟩, h3, h4⟩ := unitStep_of_mem_neighborOffsets hd
  have hsx : (((x + GhostBorder : ℕ) : ℤ) + d.1).toNat < TotalWidth := by
    simp only [GhostBorder, TotalWidth, InnerWidth]
    omega
  have hsy : (((y + GhostBorder : ℕ) : ℤ) + d.2).toNat < TotalHeight := by
    simp only [GhostBorder, TotalHeight, InnerHeight]
    omega
  obtain ⟨p, hp⟩ := exists_cellAt_of_haloCell w c hsx hsy
  exact ⟨p, by rw [← hp, ← getGhostCell_exchangeChunk hchunk hsx hsy]; rfl⟩

/-- **Births keep to the owners there are.** -/
theorem ownersIn_simulate (sched : TickSchedule) (h : w.cellAt.OwnersIn S) :
    (w.simulate sched).cellAt.OwnersIn S := by
  intro p
  rcases point_cases p with ⟨c, x, y, hx, hy, rfl⟩ | hnone
  · rw [cellAt_pointOf _ c hx hy, tryGetChunk_simulate, tryGetChunk_exchangeBorders]
    have hplane := cellAt_ensureSimulationMargin sched.margin w
    generalize w.ensureSimulationMarginUnlocked sched.margin = wm at hplane ⊢
    cases hchunk : wm.tryGetChunk c with
    | none => exact Or.inl rfl
    | some chunk =>
      show ((exchangeChunk wm c chunk).calculateNext.swapBuffers.getCell x y).owner = 0 ∨
        ((exchangeChunk wm c chunk).calculateNext.swapBuffers.getCell x y).owner ∈ S
      have hcenter : readCell (exchangeChunk wm c chunk).current
          (index (x + GhostBorder) (y + GhostBorder)) = wm.cellAt (pointOf c.toBlock x y) := by
        rw [cellAt_pointOf _ c hx hy, hchunk]
        exact getCell_exchangeChunk wm c chunk hx hy
      rw [(calculateNext_spec (exchangeChunk wm c chunk)).2.1 x y hx hy, calculateCell_fst]
      rcases Plane.owner_rule (readCell (exchangeChunk wm c chunk).current
          (index (x + GhostBorder) (y + GhostBorder)))
          (neighborVotes (exchangeChunk wm c chunk).current (x + GhostBorder) (y + GhostBorder))
        with hzero | hsame | hvote
      · exact Or.inl hzero
      · rw [hsame, hcenter, hplane]
        exact h _
      · obtain ⟨q, hq⟩ := owner_of_mem_neighborVotes hchunk hx hy hvote
        rw [← hq, hplane]
        exact h q
  · rw [cellAt_of_not_block _ hnone]
    exact Or.inl rfl

/-! ## Commands -/

variable {s : World × ResourceManager}

/-- A command opens no account and closes none. -/
theorem mem_balances_applyCommand (cmd : PlayerCommand) (id : PlayerId) :
    id ∈ (applyCommand s cmd).2.balances ↔ id ∈ s.2.balances := by
  rcases applyCommand_outcome s cmd with ⟨-, hledger⟩ | ⟨cell, b, b', -, -, hb, -, hledger⟩
  · rw [hledger]
  · rw [hledger, Finmap.mem_insert]
    exact or_iff_right_of_imp fun h => by rw [h]; exact Finmap.mem_of_lookup_eq_some hb

theorem mem_balances_applyCommands (batch : List PlayerCommand) (id : PlayerId) :
    id ∈ (applyCommands s batch).2.balances ↔ id ∈ s.2.balances :=
  foldl_relates (f := applyCommand) (P := fun _ _ => True)
    (R := fun s s' => id ∈ s'.2.balances ↔ id ∈ s.2.balances) (fun _ => Iff.rfl)
    (fun hst htu => htu.trans hst) (fun _ cmd _ => mem_balances_applyCommand cmd id)
    (along_of_forall_mem fun _ _ _ => trivial)

/-- **A command writes the id of an account, or none.** -/
theorem ownersIn_applyCommand (cmd : PlayerCommand) (haccounts : ∀ id ∈ s.2.balances, id ∈ S)
    (h : s.1.cellAt.OwnersIn S) : (applyCommand s cmd).1.cellAt.OwnersIn S := by
  rcases applyCommand_outcome s cmd with ⟨hcells, -⟩ | ⟨cell, b, b', -, hcell, hb, hcells, -⟩
  · rwa [hcells]
  · intro p
    rw [hcells]
    by_cases hp : p = targetOf cmd
    · rw [hp, Function.update_self]
      rcases hcell with howner | rfl
      · rw [howner]
        exact Or.inr (haccounts _ (Finmap.mem_of_lookup_eq_some hb))
      · exact Or.inl rfl
    · rw [Function.update_of_ne hp]
      exact h p

theorem ownersIn_applyCommands (batch : List PlayerCommand)
    (haccounts : ∀ id ∈ s.2.balances, id ∈ S) (h : s.1.cellAt.OwnersIn S) :
    (applyCommands s batch).1.cellAt.OwnersIn S := by
  have hstep : ∀ (s : World × ResourceManager) (cmd : PlayerCommand),
      (∀ id ∈ s.2.balances, id ∈ S) ∧ s.1.cellAt.OwnersIn S →
      (∀ id ∈ (applyCommand s cmd).2.balances, id ∈ S) ∧
        (applyCommand s cmd).1.cellAt.OwnersIn S := fun s cmd hs =>
    ⟨fun id hid => hs.1 id ((mem_balances_applyCommand cmd id).mp hid),
      ownersIn_applyCommand cmd hs.1 hs.2⟩
  exact (foldl_invariant' hstep ⟨haccounts, h⟩).2

end World
end Multilife

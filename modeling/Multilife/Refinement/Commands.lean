import Multilife.Abstract.Plane

/-!
# What a command does

`applyCommand` works on one cell of one chunk, found by a chunk coordinate and two
local coordinates.  `targetOf` is the point of the plane where that cell lies, and
`CommandEffect` lists what the `switch` can do to the cell and to the ledger, with
everything it has checked.

* `localIndex_eq`: the local coordinate is the remainder modulo the chunk size,
  for negative coordinates too.
* `switchCommand_effect`: the three things a command can do.
* `cellAt_applyCommand`: on the plane, a command writes its target and nothing
  else.
-/

namespace Multilife

open Chunk

/-! ## Local coordinates -/

/-- **Local coordinates are remainders.** -/
theorem localIndex_eq (g : Int64) : (World.localIndex g 64 : ℤ) = g.toInt % 64 := by
  have h64 : (Int64.ofNat 64).toInt = 64 := Int64.toInt_ofNat_of_lt (by decide)
  have hfirst : (g % Int64.ofNat 64).toInt = g.toInt.tmod 64 := by rw [Int64.toInt_mod, h64]
  have hlow : -64 < g.toInt.tmod 64 := Int.lt_tmod_of_pos _ (by decide)
  have hhigh : g.toInt.tmod 64 < 64 := Int.tmod_lt_of_pos _ (by decide)
  have hsum : (g % Int64.ofNat 64 + Int64.ofNat 64).toInt = g.toInt.tmod 64 + 64 := by
    rw [Int64.toInt_add, hfirst, h64]
    exact Int.bmod_eq_of_le (by omega) (by omega)
  have hlast : ((g % Int64.ofNat 64 + Int64.ofNat 64) % Int64.ofNat 64).toInt =
      g.toInt % 64 := by
    rw [Int64.toInt_mod, hsum, h64, Int.tmod_eq_emod_of_nonneg (by omega)]
    have hdvd := Int.mul_tdiv_add_tmod g.toInt 64
    omega
  have hpos : 0 ≤ g.toInt % 64 := Int.emod_nonneg _ (by decide)
  have hnonneg : (0 : Int64) ≤ (g % Int64.ofNat 64 + Int64.ofNat 64) % Int64.ofNat 64 := by
    rw [Int64.le_iff_toInt_le, hlast]
    exact hpos
  rw [World.localIndex, Int64.toNat_toUInt64_of_le hnonneg, Int64.toNatClampNeg, hlast]
  exact Int.toNat_of_nonneg hpos

theorem localIndex_lt (g : Int64) : World.localIndex g 64 < 64 := by
  have h := localIndex_eq g
  have hlt : g.toInt % 64 < 64 := Int.emod_lt_of_pos _ (by decide)
  omega

theorem localIndex_lt_width (g : Int64) : World.localIndex g ChunkWidth < ChunkWidth :=
  localIndex_lt g

theorem localIndex_lt_height (g : Int64) : World.localIndex g ChunkHeight < ChunkHeight :=
  localIndex_lt g

/-- The point whose cell a command works on. -/
def targetOf (cmd : PlayerCommand) : ℤ × ℤ :=
  pointOf (World.coordOf cmd).toBlock (World.localIndex cmd.x ChunkWidth)
    (World.localIndex cmd.y ChunkHeight)

/-! ## The switch -/

/-- What a command does to its cell and to the ledger. -/
inductive CommandEffect (cmd : PlayerCommand) (cell : CellState) (r : ResourceManager) :
    CellState × ResourceManager → Prop
  /-- Nothing. -/
  | refused : CommandEffect cmd cell r (cell, r)
  /-- The cell is set for a player who could pay. -/
  | placed (b : UInt64) (htype : cmd.type ≠ .RemoveCell)
      (hfree : cell.owner = 0 ∨ cell.alive = false) (hlookup : r.balances.lookup cmd.playerId = some b)
      (hcost : kPlaceCost ≤ b) :
      CommandEffect cmd cell r ({ alive := true, owner := cmd.playerId },
        { balances := r.balances.insert cmd.playerId (b - kPlaceCost) })
  /-- The cell is cleared for a player with an account. -/
  | removed (b : UInt64) (htype : cmd.type ≠ .PlaceCell)
      (hown : cell.owner = cmd.playerId ∨ cell.owner = 0 ∧ cell.alive = true)
      (hlookup : r.balances.lookup cmd.playerId = some b) :
      CommandEffect cmd cell r ({},
        { balances := r.balances.insert cmd.playerId (b + kRemoveAward) })

/-- **The three outcomes of a command.** -/
theorem switchCommand_effect (cmd : PlayerCommand) (cell : CellState) (r : ResourceManager) :
    CommandEffect cmd cell r (World.switchCommand cmd cell r) := by
  unfold World.switchCommand
  cases htype : cmd.type with
  | PlaceCell =>
    dsimp only
    by_cases howner : cell.owner = 0
    · rw [if_pos howner]
      rcases r.trySpend_cases cmd.playerId kPlaceCost with ⟨h, -⟩ | ⟨b, hb, hcost, h⟩
      · rw [h]
        exact CommandEffect.refused
      · rw [h]
        exact CommandEffect.placed b (by rw [htype]; decide) (Or.inl howner) hb hcost
    · rw [if_neg howner]
      exact CommandEffect.refused
  | RemoveCell =>
    dsimp only
    by_cases howner : cell.owner = cmd.playerId
    · rw [if_pos howner]
      rcases r.award_cases cmd.playerId kRemoveAward with ⟨h, -⟩ | ⟨b, hb, h⟩
      · rw [h]
        exact CommandEffect.refused
      · rw [h]
        exact CommandEffect.removed b (by rw [htype]; decide) (Or.inl howner) hb
    · rw [if_neg howner]
      exact CommandEffect.refused
  | ToggleCell =>
    dsimp only
    by_cases howner : cell.owner = 0 ∨ cell.owner = cmd.playerId
    · rw [if_pos howner]
      cases halive : cell.alive with
      | true =>
        rcases r.award_cases cmd.playerId kRemoveAward with ⟨h, -⟩ | ⟨b, hb, h⟩
        · rw [if_pos rfl, h]
          exact CommandEffect.refused
        · rw [if_pos rfl, h]
          exact CommandEffect.removed b (by rw [htype]; decide)
            (howner.symm.imp_right fun h0 => ⟨h0, halive⟩) hb
      | false =>
        rcases r.trySpend_cases cmd.playerId kPlaceCost with ⟨h, -⟩ | ⟨b, hb, hcost, h⟩
        · rw [if_neg Bool.false_ne_true]
          simp only [Bool.false_eq_true, if_false, Bool.not_false, if_true, h]
          exact CommandEffect.refused
        · rw [if_neg Bool.false_ne_true]
          simp only [Bool.false_eq_true, if_false, Bool.not_false, if_true, h]
          exact CommandEffect.placed b (by rw [htype]; decide) (Or.inr halive) hb hcost
    · rw [if_neg howner]
      exact CommandEffect.refused

/-! ## Commands on the plane -/

namespace World

variable (s : World × ResourceManager) (cmd : PlayerCommand)

/-- The cell the command finds. -/
theorem getCell_target (w : World) :
    (((w.getOrCreateChunkUnlocked (coordOf cmd)).tryGetChunk (coordOf cmd)).getD {}).getCell
        (localIndex cmd.x ChunkWidth) (localIndex cmd.y ChunkHeight) =
      w.cellAt (targetOf cmd) := by
  rw [targetOf, cellAt_pointOf w _ (localIndex_lt_width cmd.x) (localIndex_lt_height cmd.y),
    tryGetChunk_getOrCreate, if_pos rfl, Option.getD_some]
  exact readOrDead_getD _ _ _

/-- The state the `switch` is applied to, and its result. -/
theorem applyCommand_snd :
    (applyCommand s cmd).2 = (switchCommand cmd (s.1.cellAt (targetOf cmd)) s.2).2 := by
  rw [applyCommand, getCell_target]

/-- The chunks after a command: the target's chunk is created if it was missing,
its cell is set, and the other chunks are as before. -/
theorem tryGetChunk_applyCommand (c : ChunkCoord) :
    (applyCommand s cmd).1.tryGetChunk c =
      if c = coordOf cmd then
        some (((s.1.tryGetChunk c).getD {}).setCell (localIndex cmd.x ChunkWidth)
          (localIndex cmd.y ChunkHeight)
          (switchCommand cmd (s.1.cellAt (targetOf cmd)) s.2).1)
      else s.1.tryGetChunk c := by
  rw [applyCommand, getCell_target, tryGetChunk_storeChunk]
  split_ifs with h
  · rw [h, tryGetChunk_getOrCreate, if_pos rfl, Option.getD_some]
  · rw [tryGetChunk_getOrCreate, if_neg h]

/-- **A command on the plane** writes its target and nothing else. -/
theorem cellAt_applyCommand :
    (applyCommand s cmd).1.cellAt =
      Function.update s.1.cellAt (targetOf cmd)
        (switchCommand cmd (s.1.cellAt (targetOf cmd)) s.2).1 := by
  funext p
  rcases point_cases p with ⟨c, x, y, hx, hy, rfl⟩ | hnone
  · rw [cellAt_pointOf _ c hx hy, tryGetChunk_applyCommand]
    by_cases hc : c = coordOf cmd
    · subst hc
      rw [if_pos rfl, readOrDead, getCell_setCell _ _ (localIndex_lt_width _) (localIndex_lt_height _) hx]
      by_cases hxy : localIndex cmd.x ChunkWidth = x ∧ localIndex cmd.y ChunkHeight = y
      · obtain ⟨rfl, rfl⟩ := hxy
        rw [if_pos ⟨rfl, rfl⟩]
        exact (Function.update_self (targetOf cmd) _ s.1.cellAt).symm
      · have hne : pointOf (coordOf cmd).toBlock x y ≠ targetOf cmd := by
          intro h
          obtain ⟨-, h1, h2⟩ := (pointOf_inj hx hy (localIndex_lt_width _) (localIndex_lt_height _)).mp h
          exact hxy ⟨h1.symm, h2.symm⟩
        rw [if_neg hxy, Function.update_of_ne hne, cellAt_pointOf _ _ hx hy]
        exact readOrDead_getD _ x y
    · have hne : pointOf c.toBlock x y ≠ targetOf cmd := by
        intro h
        obtain ⟨hblock, -, -⟩ := (pointOf_inj hx hy (localIndex_lt_width _) (localIndex_lt_height _)).mp h
        exact hc (ChunkCoord.toBlock_injective hblock)
      rw [if_neg hc, Function.update_of_ne hne, cellAt_pointOf _ _ hx hy]
  · have hne : p ≠ targetOf cmd := by
      rintro rfl
      refine hnone (coordOf cmd) ?_
      rw [targetOf, blockOf_pointOf _ (localIndex_lt_width _) (localIndex_lt_height _)]
    rw [cellAt_of_not_block _ hnone, Function.update_of_ne hne, cellAt_of_not_block _ hnone]

theorem cellAt_applyCommand_of_ne {p : ℤ × ℤ} (hp : p ≠ targetOf cmd) :
    (applyCommand s cmd).1.cellAt p = s.1.cellAt p := by
  rw [cellAt_applyCommand, Function.update_of_ne hp]

@[simp] theorem applyCommands_nil : applyCommands s [] = s := rfl

@[simp] theorem applyCommands_cons (cmds : List PlayerCommand) :
    applyCommands s (cmd :: cmds) = applyCommands (applyCommand s cmd) cmds := rfl

end World
end Multilife

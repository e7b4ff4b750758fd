import Multilife.Foundations.Census
import Multilife.Foundations.Transition
import Multilife.Refinement.Commands

/-!
# Commands and money

A batch of commands is accounted for player by player.  A command of a player
*places* a cell when its target was dead before and is alive after, and *removes*
one in the opposite case; `count` adds up such events along a batch.  With cells
alive exactly when they are owned, and players with nonzero ids:

* `applyCommand_cases`: a command changes one cell and the balance of its player,
  or nothing.
* `account_applyCommand`: the step lemma, the accounts of one player across one
  command.
* `applyCommands_accounts`: the run lemma, along a batch.

`liveCount` counts the points of the whole plane, so nothing depends on how the
cells are stored.
-/

namespace Multilife

open Census Transition

namespace Plane

/-- `N(p)`: the number of live cells of a player on the plane. -/
noncomputable def liveCount (g : Plane) (id : PlayerId) : ℕ :=
  census (fun cell : CellState => cell.alive = true ∧ cell.owner = id) g

end Plane

namespace World

/-- A world has finitely many live cells. -/
theorem finite_alive (w : World) (P : CellState → Prop) (hP : ∀ cell, P cell → cell.alive = true) :
    {q | P (w.cellAt q)}.Finite := by
  have hcells := Finset.finite_toSet
    ((w.chunks.keys ×ˢ Finset.range ChunkWidth ×ˢ Finset.range ChunkHeight).image
      fun e => pointOf e.1.toBlock e.2.1 e.2.2)
  refine hcells.subset fun q hq => ?_
  have halive := hP _ hq
  rcases point_cases q with ⟨c, x, y, hx, hy, rfl⟩ | hnone
  · have hmem : c ∈ w.chunks.keys := by
      rw [cellAt_pointOf w c hx hy] at halive
      rw [Finmap.mem_keys, mem_chunks_iff]
      cases hchunk : w.tryGetChunk c with
      | none =>
        rw [hchunk] at halive
        exact absurd halive Bool.false_ne_true
      | some chunk => exact ⟨chunk, rfl⟩
    rw [Finset.mem_coe, Finset.mem_image]
    refine ⟨(c, x, y), ?_, rfl⟩
    rw [Finset.mem_product, Finset.mem_product, Finset.mem_range, Finset.mem_range]
    exact ⟨hmem, hx, hy⟩
  · rw [cellAt_of_not_block w hnone] at halive
    exact absurd halive Bool.false_ne_true

/-! ## Events -/

/-- The target of the command is dead before it and alive after it. -/
def places (s : World × ResourceManager) (cmd : PlayerCommand) : Bool :=
  !(s.1.cellAt (targetOf cmd)).alive && ((applyCommand s cmd).1.cellAt (targetOf cmd)).alive

/-- The target of the command is alive before it and dead after it. -/
def removes (s : World × ResourceManager) (cmd : PlayerCommand) : Bool :=
  (s.1.cellAt (targetOf cmd)).alive && !((applyCommand s cmd).1.cellAt (targetOf cmd)).alive

/-- How many commands of player `id` are such events, along a batch. -/
def count (event : World × ResourceManager → PlayerCommand → Bool) (id : PlayerId) :
    World × ResourceManager → List PlayerCommand → ℕ
  | _, [] => 0
  | s, cmd :: cmds =>
    (if cmd.playerId = id ∧ event s cmd = true then 1 else 0) +
      count event id (applyCommand s cmd) cmds

/-- No removal award of the batch wraps around. -/
def AwardsFit : World × ResourceManager → List PlayerCommand → Prop :=
  Along applyCommand fun s cmd => removes s cmd = true →
    (s.2.getBalance cmd.playerId).toNat + kRemoveAward.toNat < 2 ^ 64

/-! ## One command -/

/-- The command changes its target and the account of its player, and nothing else. -/
def FullEffect (cmd : PlayerCommand) (s s' : World × ResourceManager) : Prop :=
  (∃ cell, cell ≠ s.1.cellAt (targetOf cmd) ∧
    s'.1.cellAt = Function.update s.1.cellAt (targetOf cmd) cell) ∧
  ∃ b b', s.2.balances.lookup cmd.playerId = some b ∧ b' ≠ b ∧
    s'.2 = { balances := s.2.balances.insert cmd.playerId b' }

/-- The command changes no cell and no balance. -/
def NoEffect (s s' : World × ResourceManager) : Prop :=
  s'.1.cellAt = s.1.cellAt ∧ s'.2 = s.2

variable {s : World × ResourceManager} {cmd : PlayerCommand}

/-- **A command of a player with a nonzero id**, where cells are paired: nothing,
or a dead cell becomes the player's for `kPlaceCost`, or a cell of the player dies
for `kRemoveAward`. -/
theorem applyCommand_cases (hpaired : s.1.cellAt.Paired) (hid : cmd.playerId ≠ 0) :
    NoEffect s (applyCommand s cmd) ∨
    (∃ b, s.1.cellAt (targetOf cmd) = {} ∧ s.2.balances.lookup cmd.playerId = some b ∧
      kPlaceCost ≤ b ∧
      (applyCommand s cmd).1.cellAt = Function.update s.1.cellAt (targetOf cmd)
        { alive := true, owner := cmd.playerId } ∧
      (applyCommand s cmd).2 =
        { balances := s.2.balances.insert cmd.playerId (b - kPlaceCost) }) ∨
    ∃ b, s.1.cellAt (targetOf cmd) = { alive := true, owner := cmd.playerId } ∧
      s.2.balances.lookup cmd.playerId = some b ∧
      (applyCommand s cmd).1.cellAt = Function.update s.1.cellAt (targetOf cmd) {} ∧
      (applyCommand s cmd).2 =
        { balances := s.2.balances.insert cmd.playerId (b + kRemoveAward) } := by
  have hcells := cellAt_applyCommand s cmd
  have hledger := applyCommand_snd s cmd
  have heffect := switchCommand_effect cmd (s.1.cellAt (targetOf cmd)) s.2
  generalize switchCommand cmd (s.1.cellAt (targetOf cmd)) s.2 = result at *
  cases heffect with
  | refused =>
    rw [Function.update_eq_self] at hcells
    exact Or.inl ⟨hcells, hledger⟩
  | placed b htype hfree hlookup hcost =>
    exact Or.inr (Or.inl ⟨b, hpaired.eq_empty hfree, hlookup, hcost, hcells, hledger⟩)
  | removed b htype hown hlookup =>
    have hmine : (s.1.cellAt (targetOf cmd)).owner = cmd.playerId := by
      rcases hown with h | ⟨h0, halive⟩
      · exact h
      · exact absurd h0 ((hpaired _).mp halive)
    exact Or.inr (Or.inr ⟨b, hpaired.eq_owned hid hmine, hlookup, hcells, hledger⟩)

theorem paired_applyCommand (hpaired : s.1.cellAt.Paired) (hid : cmd.playerId ≠ 0) :
    (applyCommand s cmd).1.cellAt.Paired := by
  rcases applyCommand_cases hpaired hid with ⟨hcells, -⟩ | ⟨b, -, -, -, hcells, -⟩ |
    ⟨b, -, -, hcells, -⟩
  · rw [hcells]
    exact hpaired
  · rw [hcells]
    exact hpaired.update _ (by simp [hid])
  · rw [hcells]
    exact hpaired.update _ (by simp)

theorem allOrNothing (hpaired : s.1.cellAt.Paired) (hid : cmd.playerId ≠ 0) :
    FullEffect cmd s (applyCommand s cmd) ∨ NoEffect s (applyCommand s cmd) := by
  rcases applyCommand_cases hpaired hid with h | ⟨b, hcell, hb, hcost, hcells, hledger⟩ |
    ⟨b, hcell, hb, hcells, hledger⟩
  · exact Or.inr h
  · refine Or.inl ⟨⟨_, ?_, hcells⟩, b, b - kPlaceCost, hb, ?_, hledger⟩
    · rw [hcell]
      simp
    · intro h
      have hnat := congrArg UInt64.toNat h
      have htwo : kPlaceCost.toNat = 2 := rfl
      rw [UInt64.toNat_sub_of_le _ _ hcost] at hnat
      have hle := UInt64.le_iff_toNat_le.mp hcost
      omega
  · refine Or.inl ⟨⟨_, ?_, hcells⟩, b, b + kRemoveAward, hb, ?_, hledger⟩
    · rw [hcell]
      simp
    · intro h
      exact absurd (UInt64.add_eq_left.mp h) (by decide)

/-! ## The accounts of one player -/

/-- The live count of a player after one cell is overwritten. -/
theorem liveCount_update (w : World) (t : ℤ × ℤ) (cell : CellState) (id : PlayerId) :
    Plane.liveCount (Function.update w.cellAt t cell) id +
        (if (w.cellAt t).alive = true ∧ (w.cellAt t).owner = id then 1 else 0) =
      w.cellAt.liveCount id + if cell.alive = true ∧ cell.owner = id then 1 else 0 :=
  census_update _ (w.finite_alive _ fun _ h => h.1) t cell

/-- **One command.**  The live cells and the balance of a player move by the
placements and removals of that player. -/
theorem account_applyCommand (hpaired : s.1.cellAt.Paired) (hid : cmd.playerId ≠ 0)
    (hfit : removes s cmd = true →
      (s.2.getBalance cmd.playerId).toNat + kRemoveAward.toNat < 2 ^ 64)
    (id : PlayerId) :
    ((applyCommand s cmd).1.cellAt.liveCount id +
        (if cmd.playerId = id ∧ removes s cmd = true then 1 else 0) =
      s.1.cellAt.liveCount id + if cmd.playerId = id ∧ places s cmd = true then 1 else 0) ∧
    ((applyCommand s cmd).2.getBalance id).toNat +
        kPlaceCost.toNat * (if cmd.playerId = id ∧ places s cmd = true then 1 else 0) =
      (s.2.getBalance id).toNat +
        kRemoveAward.toNat * if cmd.playerId = id ∧ removes s cmd = true then 1 else 0 := by
  rcases applyCommand_cases hpaired hid with ⟨hcells, hledger⟩ |
    ⟨b, hcell, hb, hcost, hcells, hledger⟩ | ⟨b, hcell, hb, hcells, hledger⟩
  · have hplaces : places s cmd = false := by
      rw [places, hcells]
      cases (s.1.cellAt (targetOf cmd)).alive <;> rfl
    have hremoves : removes s cmd = false := by
      rw [removes, hcells]
      cases (s.1.cellAt (targetOf cmd)).alive <;> rfl
    rw [hplaces, hremoves, hcells, hledger]
    simp
  · have hplaces : places s cmd = true := by
      rw [places, hcells, hcell, Function.update_self]
      rfl
    have hremoves : removes s cmd = false := by
      rw [removes, hcells, hcell, Function.update_self]
      rfl
    have hcount := liveCount_update s.1 (targetOf cmd)
      { alive := true, owner := cmd.playerId } id
    have hbalance := ResourceManager.toNat_getBalance_spent hb hcost id
    rw [hcell] at hcount
    rw [hplaces, hremoves, hcells, hledger]
    exact ⟨by simpa using hcount, by simpa using hbalance⟩
  · have hplaces : places s cmd = false := by
      rw [places, hcells, hcell, Function.update_self]
      rfl
    have hremoves : removes s cmd = true := by
      rw [removes, hcells, hcell, Function.update_self]
      rfl
    have hcount := liveCount_update s.1 (targetOf cmd) {} id
    have hbalance := ResourceManager.toNat_getBalance_awarded hb (hfit hremoves) id
    rw [hcell] at hcount
    rw [hplaces, hremoves, hcells, hledger]
    exact ⟨by simpa using hcount, by simpa using hbalance⟩

/-! ## A batch -/

theorem paired_applyCommands {batch : List PlayerCommand} (hpaired : s.1.cellAt.Paired)
    (hids : ∀ cmd ∈ batch, cmd.playerId ≠ 0) : (applyCommands s batch).1.cellAt.Paired :=
  foldl_invariant (I := fun s : World × ResourceManager => s.1.cellAt.Paired)
    (P := fun _ cmd => cmd.playerId ≠ 0) (fun _ _ hs hid => paired_applyCommand hs hid) hpaired
    (along_of_forall_mem fun cmd hcmd _ => hids cmd hcmd)

/-- **A batch.**  The accounts of a player move by what the player's commands did. -/
theorem applyCommands_accounts {batch : List PlayerCommand} (hpaired : s.1.cellAt.Paired)
    (hids : ∀ cmd ∈ batch, cmd.playerId ≠ 0) (hfit : AwardsFit s batch) (id : PlayerId) :
    ((applyCommands s batch).1.cellAt.liveCount id + count removes id s batch =
      s.1.cellAt.liveCount id + count places id s batch) ∧
    ((applyCommands s batch).2.getBalance id).toNat +
        kPlaceCost.toNat * count places id s batch =
      (s.2.getBalance id).toNat + kRemoveAward.toNat * count removes id s batch := by
  induction batch generalizing s with
  | nil =>
    rw [applyCommands_nil, count, count]
    exact ⟨rfl, rfl⟩
  | cons cmd batch ih =>
    have hid := hids cmd List.mem_cons_self
    obtain ⟨hcount, hbalance⟩ := account_applyCommand hpaired hid hfit.1 id
    obtain ⟨ihcount, ihbalance⟩ := ih (paired_applyCommand hpaired hid)
      (fun c hc => hids c (List.mem_cons_of_mem _ hc)) hfit.2
    rw [applyCommands_cons, count, count]
    refine ⟨by omega, ?_⟩
    rw [Nat.mul_add, Nat.mul_add]
    omega

/-- **Commands cannot create money.**  Where cells are paired and no award wraps,
for every batch of players with nonzero ids: each command takes full effect or
none; the live cells and the balance of every player move by the player's
placements and removals; a balance pays for what is placed at every point of the
batch; balance plus live cells never increase; cells stay paired. -/
theorem applyCommands_economy {batch : List PlayerCommand} (hpaired : s.1.cellAt.Paired)
    (hids : ∀ cmd ∈ batch, cmd.playerId ≠ 0) (hfit : AwardsFit s batch) :
    (∀ before cmd after, batch = before ++ cmd :: after →
      FullEffect cmd (applyCommands s before) (applyCommand (applyCommands s before) cmd) ∨
        NoEffect (applyCommands s before) (applyCommand (applyCommands s before) cmd)) ∧
    (∀ id, ((applyCommands s batch).1.cellAt.liveCount id : ℤ) =
      s.1.cellAt.liveCount id + count places id s batch - count removes id s batch) ∧
    (∀ id, (((applyCommands s batch).2.getBalance id).toNat : ℤ) =
      (s.2.getBalance id).toNat + count removes id s batch * kRemoveAward.toNat -
        count places id s batch * kPlaceCost.toNat) ∧
    (∀ id before after, batch = before ++ after →
      0 ≤ ((s.2.getBalance id).toNat : ℤ) + count removes id s before * kRemoveAward.toNat -
        count places id s before * kPlaceCost.toNat) ∧
    (∀ id, ((applyCommands s batch).2.getBalance id).toNat +
        (applyCommands s batch).1.cellAt.liveCount id ≤
      (s.2.getBalance id).toNat + s.1.cellAt.liveCount id) ∧
    (applyCommands s batch).1.cellAt.Paired := by
  have hcost : kPlaceCost.toNat = 2 := rfl
  have haward : kRemoveAward.toNat = 1 := rfl
  refine ⟨fun before cmd after hsplit => ?_, fun id => ?_, fun id => ?_,
    fun id before after hsplit => ?_, fun id => ?_, paired_applyCommands hpaired hids⟩
  · subst hsplit
    refine allOrNothing (paired_applyCommands hpaired fun c hc => ?_) (hids cmd (by simp))
    exact hids c (List.mem_append_left _ hc)
  · have h := (applyCommands_accounts hpaired hids hfit id).1
    omega
  · have h := (applyCommands_accounts hpaired hids hfit id).2
    rw [hcost, haward] at h ⊢
    omega
  · subst hsplit
    have h := (applyCommands_accounts hpaired
      (fun c hc => hids c (List.mem_append_left _ hc)) (Along.left hfit) id).2
    rw [hcost, haward] at h ⊢
    omega
  · obtain ⟨hcount, hbalance⟩ := applyCommands_accounts hpaired hids hfit id
    rw [hcost, haward] at hbalance
    omega

/-- A player with the starting balance places one cell in the empty world. -/
theorem applyCommands_economy_place :
    ((applyCommands ({}, ({} : ResourceManager).addPlayer 7)
        [⟨7, .PlaceCell, 0, 0⟩]).2.getBalance 7).toNat +
      (applyCommands ({}, ({} : ResourceManager).addPlayer 7)
        [⟨7, .PlaceCell, 0, 0⟩]).1.cellAt.liveCount 7 ≤
    ((({} : ResourceManager).addPlayer 7).getBalance 7).toNat +
      ({} : World).cellAt.liveCount 7 := by
  have hpaired : ({} : World).cellAt.Paired := fun p => by rw [cellAt_empty]; decide
  have hfit : AwardsFit ({}, ({} : ResourceManager).addPlayer 7) [⟨7, .PlaceCell, 0, 0⟩] :=
    ⟨fun _ => by decide, trivial⟩
  exact (applyCommands_economy hpaired (by decide) hfit).2.2.2.2.1 7

end World
end Multilife

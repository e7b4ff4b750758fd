import Multilife.Foundations.Transition
import Multilife.Refinement.Commands

/-!
# Who may change what

The permission test of a command is written three times in the `switch`, once for
each type.  `mayPlace` and `mayRemove` are the tests on the cell alone; a command is
`placed` or `removed` when the ledger lets it through as well, and is refused
otherwise.

* `switchCommand_cases`: the result of the `switch`, by these two tests.
* `applyCommand_outcome`: one command on the plane and on the ledger.
* `untouched_applyCommand`, `untouched_applyCommands`: a command, and a batch, of other
  players leaves a player's cells and account as they were.  Nothing is assumed of the
  world: cells may be alive without an owner or owned while dead.
-/

namespace Multilife

open Chunk Transition

/-! ## The two tests -/

/-- The command may set this cell. -/
def mayPlace (cmd : PlayerCommand) (cell : CellState) : Bool :=
  match cmd.type with
  | .PlaceCell => decide (cell.owner = 0)
  | .RemoveCell => false
  | .ToggleCell => decide (cell.owner = 0 ∨ cell.owner = cmd.playerId) && !cell.alive

/-- The command may clear this cell. -/
def mayRemove (cmd : PlayerCommand) (cell : CellState) : Bool :=
  match cmd.type with
  | .PlaceCell => false
  | .RemoveCell => decide (cell.owner = cmd.playerId)
  | .ToggleCell => decide (cell.owner = 0 ∨ cell.owner = cmd.playerId) && cell.alive

variable {cmd : PlayerCommand} {cell : CellState}

/-- Only a cell without owner, or one's own, can be set. -/
theorem owner_of_mayPlace (h : mayPlace cmd cell = true) :
    cell.owner = 0 ∨ cell.owner = cmd.playerId := by
  unfold mayPlace at h
  cases htype : cmd.type with
  | PlaceCell =>
    rw [htype] at h
    exact Or.inl (of_decide_eq_true h)
  | RemoveCell =>
    rw [htype] at h
    cases h
  | ToggleCell =>
    simp only [htype, Bool.and_eq_true, decide_eq_true_eq] at h
    exact h.1

/-- Only a cell without owner, or one's own, can be cleared. -/
theorem owner_of_mayRemove (h : mayRemove cmd cell = true) :
    cell.owner = 0 ∨ cell.owner = cmd.playerId := by
  unfold mayRemove at h
  cases htype : cmd.type with
  | PlaceCell =>
    rw [htype] at h
    cases h
  | RemoveCell =>
    rw [htype] at h
    exact Or.inr (of_decide_eq_true h)
  | ToggleCell =>
    simp only [htype, Bool.and_eq_true, decide_eq_true_eq] at h
    exact h.1

/-- No cell can be both set and cleared by one command. -/
theorem mayRemove_of_mayPlace (h : mayPlace cmd cell = true) : mayRemove cmd cell = false := by
  unfold mayPlace at h
  unfold mayRemove
  cases htype : cmd.type with
  | PlaceCell => rfl
  | RemoveCell =>
    rw [htype] at h
    cases h
  | ToggleCell =>
    simp only [htype, Bool.and_eq_true, Bool.not_eq_true'] at h
    simp [h.2]

/-- **The switch by its tests.**  It asks the ledger for the price of a cell that may
be set, for the award of a cell that may be cleared, and otherwise for nothing. -/
theorem switchCommand_cases (cmd : PlayerCommand) (cell : CellState) (r : ResourceManager) :
    World.switchCommand cmd cell r =
      if mayPlace cmd cell && (r.trySpend cmd.playerId kPlaceCost).1 then
        ({ alive := true, owner := cmd.playerId }, (r.trySpend cmd.playerId kPlaceCost).2)
      else if mayRemove cmd cell && (r.award cmd.playerId kRemoveAward).1 then
        ({}, (r.award cmd.playerId kRemoveAward).2)
      else (cell, r) := by
  have hspend := @ResourceManager.trySpend_snd r cmd.playerId kPlaceCost
  have haward := @ResourceManager.award_snd r cmd.playerId kRemoveAward
  unfold World.switchCommand mayPlace mayRemove
  cases cmd.type with
  | PlaceCell =>
    by_cases hfree : cell.owner = 0
    · cases hs : (r.trySpend cmd.playerId kPlaceCost).1 <;> simp_all
    · simp [hfree]
  | RemoveCell =>
    by_cases hown : cell.owner = cmd.playerId
    · cases ha : (r.award cmd.playerId kRemoveAward).1 <;> simp_all
    · simp [hown]
  | ToggleCell =>
    by_cases howner : cell.owner = 0 ∨ cell.owner = cmd.playerId
    · cases halive : cell.alive with
      | true => cases ha : (r.award cmd.playerId kRemoveAward).1 <;> simp_all
      | false => cases hs : (r.trySpend cmd.playerId kPlaceCost).1 <;> simp_all
    · simp [howner]

/-! ## The outcome of a command -/

namespace World

/-- The command sets its target and is charged for it. -/
def placed (s : World × ResourceManager) (cmd : PlayerCommand) : Bool :=
  mayPlace cmd (s.1.cellAt (targetOf cmd)) && (s.2.trySpend cmd.playerId kPlaceCost).1

/-- The command clears its target and is paid for it. -/
def removed (s : World × ResourceManager) (cmd : PlayerCommand) : Bool :=
  mayRemove cmd (s.1.cellAt (targetOf cmd)) && (s.2.award cmd.playerId kRemoveAward).1

/-- The command is let through. -/
def accepted (s : World × ResourceManager) (cmd : PlayerCommand) : Bool :=
  placed s cmd || removed s cmd

variable {s : World × ResourceManager} {cmd : PlayerCommand}

theorem removed_of_placed (h : placed s cmd = true) : removed s cmd = false := by
  rw [placed, Bool.and_eq_true] at h
  rw [removed, mayRemove_of_mayPlace h.1, Bool.false_and]

/-- **A placement**: the target is the player's, who has paid for it. -/
theorem applyCommand_placed (h : placed s cmd = true) :
    (applyCommand s cmd).1.cellAt = Function.update s.1.cellAt (targetOf cmd)
        { alive := true, owner := cmd.playerId } ∧
      ∃ b, s.2.balances.lookup cmd.playerId = some b ∧ kPlaceCost ≤ b ∧
        (applyCommand s cmd).2 =
          { balances := s.2.balances.insert cmd.playerId (b - kPlaceCost) } := by
  have hswitch := switchCommand_cases cmd (s.1.cellAt (targetOf cmd)) s.2
  rw [← placed, if_pos h] at hswitch
  rw [cellAt_applyCommand, applyCommand_snd, hswitch]
  refine ⟨rfl, ?_⟩
  rw [placed, Bool.and_eq_true] at h
  rcases s.2.trySpend_cases cmd.playerId kPlaceCost with ⟨heq, -⟩ | ⟨b, hb, hcost, heq⟩
  · rw [heq] at h
    exact absurd h.2 Bool.false_ne_true
  · exact ⟨b, hb, hcost, by rw [heq]⟩

/-- **A removal**: the target is dead and has no owner, the player is paid for it. -/
theorem applyCommand_removed (h : removed s cmd = true) :
    (applyCommand s cmd).1.cellAt = Function.update s.1.cellAt (targetOf cmd) {} ∧
      ∃ b, s.2.balances.lookup cmd.playerId = some b ∧
        (applyCommand s cmd).2 =
          { balances := s.2.balances.insert cmd.playerId (b + kRemoveAward) } := by
  have hswitch := switchCommand_cases cmd (s.1.cellAt (targetOf cmd)) s.2
  have hplaced : placed s cmd = false := by
    by_contra hplaced
    rw [removed_of_placed (by simpa using hplaced)] at h
    cases h
  rw [← placed, hplaced, if_neg Bool.false_ne_true, ← removed, if_pos h] at hswitch
  rw [cellAt_applyCommand, applyCommand_snd, hswitch]
  refine ⟨rfl, ?_⟩
  rw [removed, Bool.and_eq_true] at h
  rcases s.2.award_cases cmd.playerId kRemoveAward with ⟨heq, -⟩ | ⟨b, hb, heq⟩
  · rw [heq] at h
    exact absurd h.2 Bool.false_ne_true
  · exact ⟨b, hb, by rw [heq]⟩

/-- **A refused command** changes no cell and no balance. -/
theorem applyCommand_refused (h : accepted s cmd = false) :
    (applyCommand s cmd).1.cellAt = s.1.cellAt ∧ (applyCommand s cmd).2 = s.2 := by
  have hswitch := switchCommand_cases cmd (s.1.cellAt (targetOf cmd)) s.2
  rw [accepted, Bool.or_eq_false_iff] at h
  rw [← placed, h.1, if_neg Bool.false_ne_true, ← removed, h.2, if_neg Bool.false_ne_true]
    at hswitch
  rw [cellAt_applyCommand, applyCommand_snd, hswitch]
  exact ⟨Function.update_eq_self _ _, rfl⟩

/-- An accepted command found a cell without owner, or one of its player. -/
theorem owner_of_accepted (h : accepted s cmd = true) :
    (s.1.cellAt (targetOf cmd)).owner = 0 ∨ (s.1.cellAt (targetOf cmd)).owner = cmd.playerId := by
  rw [accepted, Bool.or_eq_true] at h
  rcases h with h | h
  · rw [placed, Bool.and_eq_true] at h
    exact owner_of_mayPlace h.1
  · rw [removed, Bool.and_eq_true] at h
    exact owner_of_mayRemove h.1

/-- **One command**: it is refused, or it leaves its target to its player or to
nobody, and moves the balance of its player. -/
theorem applyCommand_outcome (s : World × ResourceManager) (cmd : PlayerCommand) :
    ((applyCommand s cmd).1.cellAt = s.1.cellAt ∧ (applyCommand s cmd).2 = s.2) ∨
      ∃ cell b b', accepted s cmd = true ∧ (cell.owner = cmd.playerId ∨ cell = {}) ∧
        s.2.balances.lookup cmd.playerId = some b ∧
        (applyCommand s cmd).1.cellAt = Function.update s.1.cellAt (targetOf cmd) cell ∧
        (applyCommand s cmd).2 = { balances := s.2.balances.insert cmd.playerId b' } := by
  cases hplaced : placed s cmd with
  | true =>
    obtain ⟨hcells, b, hb, -, hledger⟩ := applyCommand_placed hplaced
    exact Or.inr ⟨_, b, _, by rw [accepted, hplaced, Bool.true_or], Or.inl rfl, hb, hcells, hledger⟩
  | false =>
    cases hremoved : removed s cmd with
    | true =>
      obtain ⟨hcells, b, hb, hledger⟩ := applyCommand_removed hremoved
      exact Or.inr ⟨_, b, _, by rw [accepted, hremoved, Bool.or_true], Or.inr rfl, hb, hcells,
        hledger⟩
    | false =>
      exact Or.inl (applyCommand_refused (by rw [accepted, hplaced, hremoved, Bool.or_false]))

/-! ## Other players -/

/-- What player `q` owns is the same in both states, cell by cell, and so is the
account. -/
structure Untouched (q : PlayerId) (s s' : World × ResourceManager) : Prop where
  kept : ∀ p, (s.1.cellAt p).owner = q → s'.1.cellAt p = s.1.cellAt p
  gained : ∀ p, (s'.1.cellAt p).owner = q → (s.1.cellAt p).owner = q
  account : s'.2.balances.lookup q = s.2.balances.lookup q

theorem Untouched.refl (q : PlayerId) (s : World × ResourceManager) : Untouched q s s :=
  ⟨fun _ _ => rfl, fun _ h => h, rfl⟩

theorem Untouched.trans {q : PlayerId} {s t u : World × ResourceManager}
    (hst : Untouched q s t) (htu : Untouched q t u) : Untouched q s u where
  kept p h := (htu.kept p (by rw [hst.kept p h, h])).trans (hst.kept p h)
  gained p h := hst.gained p (htu.gained p h)
  account := htu.account.trans hst.account

variable {q : PlayerId}

/-- **A command of another player.** -/
theorem untouched_applyCommand (hq : q ≠ 0) (hother : cmd.playerId ≠ q) :
    Untouched q s (applyCommand s cmd) := by
  rcases applyCommand_outcome s cmd with ⟨hcells, hledger⟩ |
    ⟨cell, b, b', haccepted, hcell, -, hcells, hledger⟩
  · exact ⟨fun p _ => by rw [hcells], fun p h => by rwa [hcells] at h, by rw [hledger]⟩
  · have htarget : (s.1.cellAt (targetOf cmd)).owner ≠ q := by
      rcases owner_of_accepted haccepted with h | h
      · rw [h]
        exact hq.symm
      · rwa [h]
    have hnew : cell.owner ≠ q := by
      rcases hcell with h | rfl
      · rwa [h]
      · exact hq.symm
    refine ⟨fun p h => ?_, fun p h => ?_, ?_⟩
    · rw [hcells, Function.update_of_ne fun heq : p = targetOf cmd => htarget (heq ▸ h)]
    · rw [hcells] at h
      by_cases heq : p = targetOf cmd
      · rw [heq, Function.update_self] at h
        exact absurd h hnew
      · rwa [Function.update_of_ne heq] at h
    · rw [hledger, Finmap.lookup_insert_of_ne _ hother.symm]

/-- **Commands cannot touch other players**: a batch in which player `q` issues no
command leaves every cell of `q` as it was, gives `q` no cell, and leaves the account
of `q` as it was. -/
theorem untouched_applyCommands {batch : List PlayerCommand} (hq : q ≠ 0)
    (hother : ∀ cmd ∈ batch, cmd.playerId ≠ q) :
    (∀ p, (s.1.cellAt p).owner = q → (applyCommands s batch).1.cellAt p = s.1.cellAt p) ∧
      (∀ p, ((applyCommands s batch).1.cellAt p).owner = q → (s.1.cellAt p).owner = q) ∧
      (applyCommands s batch).2.balances.lookup q = s.2.balances.lookup q := by
  have h : Untouched q s (applyCommands s batch) :=
    foldl_relates (P := fun _ cmd => cmd.playerId ≠ q) (Untouched.refl q) Untouched.trans
      (fun _ _ hother => untouched_applyCommand hq hother)
      (along_of_forall_mem fun cmd hcmd _ => hother cmd hcmd)
  exact ⟨h.kept, h.gained, h.account⟩

/-- Player 8 tries to clear and to toggle the cell of player 7. -/
theorem untouched_applyCommands_seven :
    (applyCommands (applyCommands ({}, (({} : ResourceManager).addPlayer 7).addPlayer 8)
        [⟨7, .PlaceCell, -1, 0⟩]) [⟨8, .RemoveCell, -1, 0⟩, ⟨8, .ToggleCell, -1, 0⟩]).2.balances.lookup
      7 = some 8 := by
  rw [(untouched_applyCommands (q := 7) (by decide) (by decide)).2.2]
  decide

end World
end Multilife

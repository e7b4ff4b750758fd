import Multilife.Refinement.Economy
import Multilife.Refinement.Permissions

/-!
# A player's batch on distinct cells

A batch of one player, in which no two commands work on the same cell and each may set or
clear the cell it finds.  What a command finds is what the world held before the batch, so
only the balance can stop one: it falls by `kPlaceCost` for each cell that is set and rises
by `kRemoveAward` for each that is cleared.

* `along_accepted`: all commands are let through, in whatever order they stand, where no
  cell is set, or where the balance pays for all cells that are set without the awards and
  the awards do not wrap it.
* `lookup_applyCommands_clears`: the balance after commands that only clear cells.
-/

namespace Multilife

open Chunk Transition World

/-! ## Full effect -/

section FullEffect

variable {s : World × ResourceManager}

/-- **A command that is let through takes full effect**, where cells are paired. -/
theorem fullEffect_iff_accepted {cmd : PlayerCommand} (hpaired : s.1.cellAt.Paired)
    (hid : cmd.playerId ≠ 0) :
    FullEffect cmd s (applyCommand s cmd) ↔ accepted s cmd = true := by
  constructor
  · rintro ⟨⟨cell, hne, hcells⟩, -⟩
    by_contra hrefused
    have hsame := (applyCommand_refused (by simpa using hrefused)).1
    rw [hsame] at hcells
    have hpoint := congrFun hcells (targetOf cmd)
    rw [Function.update_self] at hpoint
    exact hne hpoint.symm
  · intro haccepted
    refine (allOrNothing hpaired hid).resolve_right fun hnone => ?_
    -- the balance has changed
    rw [accepted, Bool.or_eq_true] at haccepted
    rcases haccepted with h | h
    · obtain ⟨-, b, hb, hcost, hledger⟩ := applyCommand_placed h
      have hsame := congrArg (fun r => r.balances.lookup cmd.playerId) (hledger.symm.trans hnone.2)
      dsimp only at hsame
      rw [Finmap.lookup_insert, hb, Option.some.injEq] at hsame
      have hnat := congrArg UInt64.toNat hsame
      rw [UInt64.toNat_sub_of_le _ _ hcost] at hnat
      have hle := UInt64.le_iff_toNat_le.mp hcost
      have htwo : kPlaceCost.toNat = 2 := rfl
      omega
    · obtain ⟨-, b, hb, hledger⟩ := applyCommand_removed h
      have hsame := congrArg (fun r => r.balances.lookup cmd.playerId) (hledger.symm.trans hnone.2)
      dsimp only at hsame
      rw [Finmap.lookup_insert, hb, Option.some.injEq] at hsame
      exact absurd (UInt64.add_eq_left.mp hsame) (by decide)

/-- Along a batch. -/
theorem along_fullEffect_iff {batch : List PlayerCommand} (hpaired : s.1.cellAt.Paired)
    (hids : ∀ cmd ∈ batch, cmd.playerId ≠ 0) :
    Along applyCommand (fun s cmd => FullEffect cmd s (applyCommand s cmd)) s batch ↔
      Along applyCommand (fun s cmd => accepted s cmd = true) s batch := by
  induction batch generalizing s with
  | nil => exact Iff.rfl
  | cons cmd batch ih =>
    have hid := hids cmd List.mem_cons_self
    exact and_congr (fullEffect_iff_accepted hpaired hid)
      (ih (paired_applyCommand hpaired hid) fun c hc => hids c (List.mem_cons_of_mem _ hc))

end FullEffect

/-! ## The cells of a batch -/

/-- The command may set the cell the plane holds for it. -/
def setsCell (g : Plane) (cmd : PlayerCommand) : Bool := mayPlace cmd (g (targetOf cmd))

/-- The command may clear the cell the plane holds for it. -/
def clearsCell (g : Plane) (cmd : PlayerCommand) : Bool := mayRemove cmd (g (targetOf cmd))

variable {s : World × ResourceManager} {cmd : PlayerCommand} {batch : List PlayerCommand}
  {p : PlayerId} {b : UInt64}

/-- Commands on other cells find what was there before. -/
theorem found_after (hdistinct : targetOf cmd ∉ batch.map targetOf) :
    ∀ c ∈ batch, setsCell (applyCommand s cmd).1.cellAt c = setsCell s.1.cellAt c ∧
      clearsCell (applyCommand s cmd).1.cellAt c = clearsCell s.1.cellAt c := by
  intro c hc
  have hne : targetOf c ≠ targetOf cmd := fun h => hdistinct (h ▸ List.mem_map_of_mem hc)
  rw [setsCell, setsCell, clearsCell, clearsCell, cellAt_applyCommand_of_ne s cmd hne]
  exact ⟨rfl, rfl⟩

/-- The player pays for a cell it may set. -/
theorem placed_of_setsCell (hplayer : cmd.playerId = p) (hb : s.2.balances.lookup p = some b)
    (hsets : setsCell s.1.cellAt cmd = true) (hcost : kPlaceCost ≤ b) :
    placed s cmd = true ∧
      (applyCommand s cmd).2.balances.lookup p = some (b - kPlaceCost) := by
  subst hplayer
  have hplaced : placed s cmd = true := by
    rw [placed, ResourceManager.trySpend_fst hb, decide_eq_true hcost, Bool.and_true]
    exact hsets
  obtain ⟨-, b', hb', -, hledger⟩ := applyCommand_placed hplaced
  rw [hb, Option.some.injEq] at hb'
  rw [hledger, Finmap.lookup_insert, hb']
  exact ⟨hplaced, rfl⟩

/-- The player is paid for a cell it may clear. -/
theorem removed_of_clearsCell (hplayer : cmd.playerId = p) (hb : s.2.balances.lookup p = some b)
    (hclears : clearsCell s.1.cellAt cmd = true) :
    removed s cmd = true ∧
      (applyCommand s cmd).2.balances.lookup p = some (b + kRemoveAward) := by
  subst hplayer
  have hremoved : removed s cmd = true := by
    rw [removed, ResourceManager.award_fst hb, Bool.and_true]
    exact hclears
  obtain ⟨-, b', hb', hledger⟩ := applyCommand_removed hremoved
  rw [hb, Option.some.injEq] at hb'
  rw [hledger, Finmap.lookup_insert, hb']
  exact ⟨hremoved, rfl⟩

/-- **A player's batch on distinct cells.**  Every command may set or clear the cell the
world holds for it.  All are let through if no cell is set, or if the balance pays for all
that are set and the awards do not wrap it. -/
theorem along_accepted (hplayer : ∀ cmd ∈ batch, cmd.playerId = p)
    (hdistinct : (batch.map targetOf).Nodup)
    (hmay : ∀ cmd ∈ batch, setsCell s.1.cellAt cmd = true ∨ clearsCell s.1.cellAt cmd = true)
    (hb : s.2.balances.lookup p = some b)
    (hmoney : batch.countP (setsCell s.1.cellAt) = 0 ∨
      2 * batch.countP (setsCell s.1.cellAt) ≤ b.toNat ∧
        b.toNat + batch.countP (clearsCell s.1.cellAt) < 2 ^ 64) :
    Along applyCommand (fun s cmd => accepted s cmd = true) s batch := by
  induction batch generalizing s b with
  | nil => exact trivial
  | cons cmd batch ih =>
    obtain ⟨hnew, hdistinct⟩ := List.nodup_cons.mp hdistinct
    have hfound := found_after (s := s) hnew
    have hsets := List.countP_congr fun c hc => Bool.eq_iff_iff.mp (hfound c hc).1
    have hclears := List.countP_congr fun c hc => Bool.eq_iff_iff.mp (hfound c hc).2
    have hplayer' : ∀ c ∈ batch, c.playerId = p := fun c hc => hplayer c (List.mem_cons_of_mem _ hc)
    have hmay' : ∀ c ∈ batch, setsCell (applyCommand s cmd).1.cellAt c = true ∨
        clearsCell (applyCommand s cmd).1.cellAt c = true := by
      intro c hc
      rw [(hfound c hc).1, (hfound c hc).2]
      exact hmay c (List.mem_cons_of_mem _ hc)
    rcases hmay cmd List.mem_cons_self with hset | hclear
    · -- the queue of purchases is paid for by what is left
      rw [List.countP_cons_of_pos hset] at hmoney
      obtain ⟨hpays, hfits⟩ := hmoney.resolve_left (Nat.succ_ne_zero _)
      have htwo : kPlaceCost.toNat = 2 := rfl
      have hcost : kPlaceCost ≤ b := UInt64.le_iff_toNat_le.mpr (by omega)
      have hle : batch.countP (clearsCell s.1.cellAt) ≤ (cmd :: batch).countP (clearsCell s.1.cellAt) :=
        (List.sublist_cons_self cmd batch).countP_le
      obtain ⟨hplaced, hafter⟩ := placed_of_setsCell (hplayer cmd List.mem_cons_self) hb hset hcost
      have haccepted : accepted s cmd = true := by rw [accepted, hplaced, Bool.true_or]
      refine ⟨haccepted, ih hplayer' hdistinct hmay' hafter ?_⟩
      rw [hsets, hclears, UInt64.toNat_sub_of_le _ _ hcost]
      omega
    · have hnot : ¬ setsCell s.1.cellAt cmd = true := by
        intro hset
        rw [clearsCell, mayRemove_of_mayPlace hset] at hclear
        cases hclear
      rw [List.countP_cons_of_neg hnot, List.countP_cons_of_pos hclear] at hmoney
      obtain ⟨hremoved, hafter⟩ := removed_of_clearsCell (hplayer cmd List.mem_cons_self) hb hclear
      have haccepted : accepted s cmd = true := by rw [accepted, hremoved, Bool.or_true]
      refine ⟨haccepted, ih hplayer' hdistinct hmay' hafter ?_⟩
      rw [hsets, hclears]
      refine hmoney.imp_right fun hpaid => ?_
      have hone : kRemoveAward.toNat = 1 := rfl
      rw [UInt64.toNat_add, hone, Nat.mod_eq_of_lt (by omega)]
      omega

/-! ## Clearing cells -/

/-- **A batch that only clears cells** pays an award for each, and the sum wraps. -/
theorem lookup_applyCommands_clears (hplayer : ∀ cmd ∈ batch, cmd.playerId = p)
    (hdistinct : (batch.map targetOf).Nodup)
    (hclears : ∀ cmd ∈ batch, clearsCell s.1.cellAt cmd = true)
    (hb : s.2.balances.lookup p = some b) :
    (applyCommands s batch).2.balances.lookup p = some (b + UInt64.ofNat batch.length) := by
  induction batch generalizing s b with
  | nil => simpa using hb
  | cons cmd batch ih =>
    obtain ⟨hnew, hdistinct⟩ := List.nodup_cons.mp hdistinct
    have hfound := found_after (s := s) hnew
    obtain ⟨-, hafter⟩ := removed_of_clearsCell (hplayer cmd List.mem_cons_self) hb
      (hclears cmd List.mem_cons_self)
    rw [applyCommands_cons, ih (fun c hc => hplayer c (List.mem_cons_of_mem _ hc)) hdistinct
      (fun c hc => (hfound c hc).2.trans (hclears c (List.mem_cons_of_mem _ hc))) hafter,
      List.length_cons, Nat.add_comm, UInt64.ofNat_add, ← UInt64.add_assoc]
    rfl

/-- A player without the price sets no cell. -/
theorem not_accepted_of_poor (htype : cmd.type = .PlaceCell)
    (hb : s.2.balances.lookup cmd.playerId = some b) (hpoor : b < kPlaceCost) :
    accepted s cmd = false := by
  rw [accepted, placed, removed, ResourceManager.trySpend_fst hb,
    decide_eq_false (not_le.mpr hpoor), Bool.and_false, mayRemove, htype]
  rfl

/-- **Awards that wrap the balance to zero** before a cell is set: the command is refused. -/
theorem not_along_accepted_of_wrap (hplayer : ∀ cmd ∈ batch, cmd.playerId = p)
    (hdistinct : (batch.map targetOf).Nodup)
    (hclears : ∀ cmd ∈ batch, clearsCell s.1.cellAt cmd = true)
    (hb : s.2.balances.lookup p = some b) (hwrap : b.toNat + batch.length = 2 ^ 64)
    (htype : cmd.type = .PlaceCell) (hcmd : cmd.playerId = p) :
    ¬ Along applyCommand (fun s cmd => accepted s cmd = true) s (batch ++ [cmd]) := by
  intro halong
  have hzero : b + UInt64.ofNat batch.length = 0 := by
    rw [← UInt64.toNat_inj, UInt64.toNat_add, UInt64.toNat_ofNat', Nat.add_mod_mod, hwrap]
    rfl
  have hlookup := lookup_applyCommands_clears hplayer hdistinct hclears hb
  rw [hzero, ← hcmd] at hlookup
  have haccepted := halong.right.1
  have hrefused := not_accepted_of_poor htype hlookup (by decide)
  exact Bool.false_ne_true (hrefused.symm.trans haccepted)

end Multilife

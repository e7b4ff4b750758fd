import Multilife.Refinement.Commands
import Multilife.Refinement.Generation

/-!
# What a tick marks as dirty

The dirty lists are the only thing a delta is made from, so every change of a cell
has to be in them.  `Tracks g w` says that: where the world `w` differs from the
plane `g`, a dirty cell of `w` names the point, and the dirty cells are cells of
their chunks.  It holds of a world with empty dirty lists and its own plane
(`Clean.tracks`), and a simulation step (`tracks_simulate`) and a command
(`tracks_applyCommand`) preserve it; `tracks_stepWorld` is the whole tick.

The same reading of the simulation step, one cell at a time, shows that it keeps
cells paired with owners, whatever the ghost cells hold: `paired_simulate`.
-/

namespace Multilife

open Chunk

/-! ## Inside a chunk -/

/-- A cell that is not reported has not changed. -/
theorem calculateCell_of_not_dirty {buffer : Buffer} {x y : ℕ}
    (h : (calculateCell buffer x y).2 = false) :
    (calculateCell buffer x y).1 =
      readCell buffer (index (x + GhostBorder) (y + GhostBorder)) := by
  revert h
  rw [calculateCell, neighborAliveCount_eq]
  dsimp only
  split_ifs <;> simp

/-- A cell that is reported has changed. -/
theorem calculateCell_of_dirty {buffer : Buffer} {x y : ℕ}
    (h : (calculateCell buffer x y).2 = true) :
    (calculateCell buffer x y).1 ≠
      readCell buffer (index (x + GhostBorder) (y + GhostBorder)) := by
  revert h
  rw [calculateCell]
  dsimp only
  -- a reported cell has the other `alive`
  split_ifs with halive hdies hborn
  · intro _ heq
    rw [← heq] at halive
    cases halive
  · simp
  · intro _ heq
    rw [← heq] at halive
    exact halive rfl
  · simp

/-- A cell that is reported is in the list. -/
theorem mem_changedCells {buffer : Buffer} {x y : ℕ} (hx : x < ChunkWidth) (hy : y < ChunkHeight)
    (h : (calculateCell buffer x y).2 = true) :
    (⟨UInt8.ofNat x, UInt8.ofNat y⟩ : DirtyCell) ∈ changedCells buffer := by
  rw [changedCells, List.mem_map]
  exact ⟨(x, y), List.mem_filter.mpr ⟨mem_innerCells.mpr ⟨hx, hy⟩, h⟩, rfl⟩

theorem toNat_ofNat_width {x : ℕ} (hx : x < ChunkWidth) : (UInt8.ofNat x).toNat = x :=
  UInt8.toNat_ofNat_of_lt' (lt_trans hx (by decide))

theorem toNat_ofNat_height {y : ℕ} (hy : y < ChunkHeight) : (UInt8.ofNat y).toNat = y :=
  UInt8.toNat_ofNat_of_lt' (lt_trans hy (by decide))

/-- A dirty cell that is a cell of its chunk. -/
def InChunk (dc : DirtyCell) : Prop := dc.x.toNat < ChunkWidth ∧ dc.y.toNat < ChunkHeight

theorem inChunk_of_mem_changedCells {buffer : Buffer} {dc : DirtyCell}
    (h : dc ∈ changedCells buffer) : InChunk dc := by
  obtain ⟨p, hp, rfl⟩ := List.mem_map.mp h
  obtain ⟨hx, hy⟩ := mem_innerCells.mp (List.mem_of_mem_filter hp)
  exact ⟨by rw [toNat_ofNat_width hx]; exact hx, by rw [toNat_ofNat_height hy]; exact hy⟩

/-- Votes are ids of players. -/
theorem ne_zero_of_mem_votesOf {cells : List CellState} {v : PlayerId} (h : v ∈ votesOf cells) :
    v ≠ 0 := by
  obtain ⟨cell, hcell, rfl⟩ := List.mem_map.mp h
  have htest := List.of_mem_filter hcell
  simp only [isOwnedAlive, Bool.and_eq_true, bne_iff_ne] at htest
  exact htest.2

namespace World

/-! ## The simulation step, one cell at a time -/

/-- A dirty cell of the world names the point. -/
def Marked (w : World) (p : ℤ × ℤ) : Prop :=
  ∃ c chunk dc, w.tryGetChunk c = some chunk ∧ dc ∈ chunk.dirtyCells ∧
    p = pointOf c.toBlock dc.x.toNat dc.y.toNat

/-- **A chunk after the simulation step.**  It comes from a chunk of the margin that
reads as the world did; each cell follows the rule for some votes, the dirty list
grows by the cells that changed. -/
theorem simulate_chunk (sched : TickSchedule) (w : World) {c : ChunkCoord} {chunk : Chunk}
    (h : (w.simulate sched).tryGetChunk c = some chunk) :
    ∃ old buffer : _,
      chunk.dirtyCells = old ++ changedCells buffer ∧
      (old = [] ∨ ∃ chunk₀, w.tryGetChunk c = some chunk₀ ∧ chunk₀.dirtyCells = old) ∧
      ∀ x y, x < ChunkWidth → y < ChunkHeight →
        chunk.getCell x y = (calculateCell buffer x y).1 ∧
        readCell buffer (index (x + GhostBorder) (y + GhostBorder)) =
          readOrDead (w.tryGetChunk c) x y := by
  rw [tryGetChunk_simulate, tryGetChunk_exchangeBorders] at h
  obtain ⟨exchanged, hexchanged, rfl⟩ := Option.map_eq_some_iff.mp h
  obtain ⟨margin, hmargin, rfl⟩ := Option.map_eq_some_iff.mp hexchanged
  generalize hwm : w.ensureSimulationMarginUnlocked sched.margin = wm at *
  obtain ⟨-, hcells, hdirty⟩ := calculateNext_spec (exchangeChunk wm c margin)
  refine ⟨_, _, hdirty, ?_, fun x y hx hy => ⟨hcells x y hx hy, ?_⟩⟩
  · rw [dirtyCells_exchangeChunk]
    rcases tryGetChunk_ensureSimulationMargin sched.margin w c with heq | ⟨-, -, heq⟩
    · rw [hwm, hmargin] at heq
      exact Or.inr ⟨margin, heq.symm, rfl⟩
    · rw [hwm, hmargin] at heq
      cases heq
      exact Or.inl rfl
  · have hread : (exchangeChunk wm c margin).getCell x y = margin.getCell x y :=
      getCell_exchangeChunk wm c margin hx hy
    have hsame := readOrDead_ensureSimulationMargin sched.margin w c x y
    rw [hwm, hmargin] at hsame
    exact hread.trans hsame

/-- A chunk is not lost in the simulation step. -/
theorem exists_chunk_simulate (sched : TickSchedule) {w : World} {c : ChunkCoord} {chunk₀ : Chunk}
    (h : w.tryGetChunk c = some chunk₀) :
    ∃ chunk, (w.simulate sched).tryGetChunk c = some chunk ∧
      ∀ dc ∈ chunk₀.dirtyCells, dc ∈ chunk.dirtyCells := by
  rw [tryGetChunk_simulate, tryGetChunk_exchangeBorders]
  rcases tryGetChunk_ensureSimulationMargin sched.margin w c with heq | ⟨hnone, -, -⟩
  · rw [heq, h]
    refine ⟨_, rfl, fun dc hdc => ?_⟩
    rw [(calculateNext_spec _).2.2, dirtyCells_exchangeChunk]
    exact List.mem_append_left _ hdc
  · rw [h] at hnone
    cases hnone

/-- The empty world stays empty. -/
theorem simulate_empty (sched : TickSchedule) : ({} : World).simulate sched = {} := by
  have hkeys : ({} : World).chunks.keys = ∅ := Finmap.keys_empty
  have hmargin : ({} : World).ensureSimulationMarginUnlocked sched.margin = {} := by
    rw [ensureSimulationMarginUnlocked, hkeys, FiniteMap.Traversal.order_empty]
    rfl
  have hborders : ({} : World).exchangeBorders sched.margin sched.borders = {} := by
    rw [exchangeBorders, hmargin, hkeys, FiniteMap.Traversal.order_empty]
    rfl
  have htasks : ∀ order task, ({} : World).runTasks order task = {} := by
    intro order task
    rw [runTasks, hkeys, FiniteMap.Traversal.order_empty]
    rfl
  rw [simulate, hborders, htasks, htasks]

/-- **A point across the simulation step**: it follows the rule for some votes, and
if it changes it is marked. -/
theorem cellAt_simulate_cases (sched : TickSchedule) (w : World) (p : ℤ × ℤ) :
    ((w.simulate sched).cellAt p = w.cellAt p ∨
      ∃ votes : List PlayerId, (∀ v ∈ votes, v ≠ 0) ∧
        (w.simulate sched).cellAt p = Plane.rule (w.cellAt p) votes) ∧
    ((w.simulate sched).cellAt p ≠ w.cellAt p → (w.simulate sched).Marked p) := by
  rcases point_cases p with ⟨c, x, y, hx, hy, rfl⟩ | hnone
  · rw [cellAt_pointOf _ c hx hy, cellAt_pointOf _ c hx hy]
    cases hchunk : (w.simulate sched).tryGetChunk c with
    | none =>
      -- no chunk afterwards, hence none before
      have hbefore : w.tryGetChunk c = none := by
        cases hw : w.tryGetChunk c with
        | none => rfl
        | some chunk₀ =>
          obtain ⟨chunk, hsome, -⟩ := exists_chunk_simulate sched hw
          rw [hchunk] at hsome
          cases hsome
      rw [hbefore]
      exact ⟨Or.inl rfl, fun h => absurd rfl h⟩
    | some chunk =>
      obtain ⟨old, buffer, hdirty, -, hcells⟩ := simulate_chunk sched w hchunk
      obtain ⟨hnew, hread⟩ := hcells x y hx hy
      show (chunk.getCell x y = _ ∨ ∃ votes : List PlayerId, _ ∧ chunk.getCell x y = _) ∧
        (chunk.getCell x y ≠ _ → _)
      refine ⟨Or.inr ⟨neighborVotes buffer (x + GhostBorder) (y + GhostBorder),
        fun v hv => ne_zero_of_mem_votesOf hv, ?_⟩, fun hne => ?_⟩
      · rw [hnew, calculateCell_fst, hread]
      · have hreported : (calculateCell buffer x y).2 = true := by
          by_contra hnot
          apply hne
          rw [hnew, calculateCell_of_not_dirty (Bool.not_eq_true _ ▸ hnot), hread]
        have hmem := mem_changedCells hx hy hreported
        refine ⟨c, chunk, _, hchunk, hdirty ▸ List.mem_append_right old hmem, ?_⟩
        · rw [toNat_ofNat_width hx, toNat_ofNat_height hy]
  · rw [cellAt_of_not_block _ hnone, cellAt_of_not_block _ hnone]
    exact ⟨Or.inl rfl, fun h => absurd rfl h⟩

/-- **The simulation step keeps cells paired**, whatever the ghost cells hold. -/
theorem paired_simulate (sched : TickSchedule) {w : World} (h : w.cellAt.Paired) :
    (w.simulate sched).cellAt.Paired := by
  intro p
  rcases (cellAt_simulate_cases sched w p).1 with hsame | ⟨votes, hvotes, hrule⟩
  · rw [hsame]
    exact h p
  · rw [hrule]
    exact Plane.paired_rule (h p) hvotes

/-! ## Tracking changes -/

/-- Every difference from the plane `g` is marked, and marks are cells of their
chunks. -/
structure Tracks (g : Plane) (w : World) : Prop where
  marked : ∀ p, w.cellAt p ≠ g p → w.Marked p
  inChunk : ∀ c chunk dc, w.tryGetChunk c = some chunk → dc ∈ chunk.dirtyCells → InChunk dc

/-- All dirty lists are empty. -/
def Clean (w : World) : Prop := ∀ c chunk, w.tryGetChunk c = some chunk → chunk.dirtyCells = []

theorem Clean.not_marked {w : World} (h : w.Clean) (p : ℤ × ℤ) : ¬ w.Marked p := by
  rintro ⟨c, chunk, dc, hchunk, hdc, -⟩
  rw [h c chunk hchunk] at hdc
  exact absurd hdc List.not_mem_nil

theorem Clean.tracks {w : World} (h : w.Clean) : Tracks w.cellAt w where
  marked _ hne := absurd rfl hne
  inChunk c chunk dc hchunk hdc := by
    rw [h c chunk hchunk] at hdc
    exact absurd hdc List.not_mem_nil

/-- The cells on the dirty lists are cells of their chunks. -/
def MarksInChunk (w : World) : Prop :=
  ∀ c chunk dc, w.tryGetChunk c = some chunk → dc ∈ chunk.dirtyCells → InChunk dc

/-- A world has not changed since now. -/
theorem MarksInChunk.tracks {w : World} (h : w.MarksInChunk) : Tracks w.cellAt w where
  marked _ hne := absurd rfl hne
  inChunk := h

/-- **Where nothing was dirty, the simulation step marks exactly what it changes.** -/
theorem clean_simulate_iff (sched : TickSchedule) {w : World} (h : w.Clean) :
    (w.simulate sched).Clean ↔ (w.simulate sched).cellAt = w.cellAt := by
  constructor
  · intro hclean
    funext p
    by_contra hne
    exact hclean.not_marked p ((cellAt_simulate_cases sched w p).2 hne)
  · intro hsame c chunk hchunk
    obtain ⟨old, buffer, hdirty, hold, hcells⟩ := simulate_chunk sched w hchunk
    have hnil : old = [] := by
      rcases hold with hold | ⟨chunk₀, hbefore, rfl⟩
      · exact hold
      · exact h c chunk₀ hbefore
    rw [hdirty, hnil, List.nil_append, changedCells, List.map_eq_nil_iff,
      List.filter_eq_nil_iff]
    intro p hp hreported
    obtain ⟨hx, hy⟩ := mem_innerCells.mp hp
    obtain ⟨hnew, hread⟩ := hcells p.1 p.2 hx hy
    have hpoint := congrFun hsame (pointOf c.toBlock p.1 p.2)
    rw [cellAt_pointOf _ c hx hy, cellAt_pointOf _ c hx hy, hchunk] at hpoint
    refine calculateCell_of_dirty hreported ?_
    rw [hread, ← hpoint, ← hnew]
    rfl

theorem tracks_simulate (sched : TickSchedule) {g : Plane} {w : World} (h : Tracks g w) :
    Tracks g (w.simulate sched) where
  marked p hne := by
    by_cases hsame : (w.simulate sched).cellAt p = w.cellAt p
    · rw [hsame] at hne
      obtain ⟨c, chunk₀, dc, hchunk, hdc, rfl⟩ := h.marked p hne
      obtain ⟨chunk, hafter, hkept⟩ := exists_chunk_simulate sched hchunk
      exact ⟨c, chunk, dc, hafter, hkept dc hdc, rfl⟩
    · exact (cellAt_simulate_cases sched w p).2 hsame
  inChunk c chunk dc hchunk hdc := by
    obtain ⟨old, buffer, hdirty, hold, -⟩ := simulate_chunk sched w hchunk
    rw [hdirty, List.mem_append] at hdc
    rcases hdc with hdc | hdc
    · rcases hold with rfl | ⟨chunk₀, hbefore, rfl⟩
      · exact absurd hdc List.not_mem_nil
      · exact h.inChunk c chunk₀ dc hbefore hdc
    · exact inChunk_of_mem_changedCells hdc

theorem tracks_applyCommand {g : Plane} {s : World × ResourceManager} (h : Tracks g s.1)
    (cmd : PlayerCommand) : Tracks g (applyCommand s cmd).1 where
  marked p hne := by
    have hchunks := tryGetChunk_applyCommand s cmd
    by_cases hp : p = targetOf cmd
    · -- the target is marked by `setCell`
      refine ⟨coordOf cmd, _, _, (hchunks _).trans (if_pos rfl),
        List.mem_append_right _ (List.mem_singleton_self _), ?_⟩
      rw [hp, toNat_ofNat_width (localIndex_lt_width cmd.x),
        toNat_ofNat_height (localIndex_lt_height cmd.y)]
      rfl
    · rw [cellAt_applyCommand, Function.update_of_ne hp] at hne
      obtain ⟨c, chunk, dc, hchunk, hdc, rfl⟩ := h.marked p hne
      by_cases hc : c = coordOf cmd
      · refine ⟨c, _, dc, (hchunks c).trans (if_pos hc), ?_, rfl⟩
        rw [dirtyCells_setCell, hchunk]
        exact List.mem_append_left _ hdc
      · exact ⟨c, chunk, dc, (hchunks c).trans ((if_neg hc).trans hchunk), hdc, rfl⟩
  inChunk c chunk dc hchunk hdc := by
    rw [tryGetChunk_applyCommand] at hchunk
    split_ifs at hchunk with hc
    · cases hchunk
      rw [dirtyCells_setCell, List.mem_append, List.mem_singleton] at hdc
      rcases hdc with hdc | rfl
      · cases hbefore : s.1.tryGetChunk c with
        | none =>
          rw [hbefore] at hdc
          exact absurd hdc List.not_mem_nil
        | some chunk₀ =>
          rw [hbefore] at hdc
          exact h.inChunk c chunk₀ dc hbefore hdc
      · refine ⟨?_, ?_⟩
        · rw [toNat_ofNat_width (localIndex_lt_width cmd.x)]
          exact localIndex_lt_width cmd.x
        · rw [toNat_ofNat_height (localIndex_lt_height cmd.y)]
          exact localIndex_lt_height cmd.y
    · exact h.inChunk c chunk dc hchunk hdc

/-- The chunk has something to report. -/
def Dirty (w : World) (c : ChunkCoord) : Prop :=
  ∃ chunk, w.tryGetChunk c = some chunk ∧ chunk.dirtyCells ≠ []

theorem dirty_applyCommand {s : World × ResourceManager} {cmd : PlayerCommand} {c : ChunkCoord}
    (h : Dirty s.1 c ∨ c = coordOf cmd) : Dirty (applyCommand s cmd).1 c := by
  by_cases hc : c = coordOf cmd
  · refine ⟨_, (tryGetChunk_applyCommand s cmd c).trans (if_pos hc), ?_⟩
    rw [dirtyCells_setCell]
    exact List.append_ne_nil_of_right_ne_nil _ (List.cons_ne_nil _ _)
  · obtain ⟨chunk, hchunk, hdirty⟩ := h.resolve_right hc
    exact ⟨chunk, ((tryGetChunk_applyCommand s cmd c).trans (if_neg hc)).trans hchunk, hdirty⟩

/-- **Every command of a batch makes its chunk dirty**, whether it takes effect or
not. -/
theorem dirty_applyCommands {s : World × ResourceManager} {batch : List PlayerCommand}
    {c : ChunkCoord} (h : Dirty s.1 c ∨ ∃ cmd ∈ batch, c = coordOf cmd) :
    Dirty (applyCommands s batch).1 c := by
  induction batch generalizing s with
  | nil =>
    rcases h with h | ⟨cmd, hcmd, -⟩
    · exact h
    · exact absurd hcmd List.not_mem_nil
  | cons cmd batch ih =>
    rw [applyCommands_cons]
    rcases h with h | ⟨cmd', hcmd', hc⟩
    · exact ih (Or.inl (dirty_applyCommand (Or.inl h)))
    · rcases List.mem_cons.mp hcmd' with rfl | hcmd'
      · exact ih (Or.inl (dirty_applyCommand (Or.inr hc)))
      · exact ih (Or.inr ⟨cmd', hcmd', hc⟩)

theorem tracks_applyCommands {g : Plane} {s : World × ResourceManager} (h : Tracks g s.1)
    (batch : List PlayerCommand) : Tracks g (applyCommands s batch).1 := by
  induction batch generalizing s with
  | nil => exact h
  | cons cmd batch ih =>
    rw [applyCommands_cons]
    exact ih (tracks_applyCommand h cmd)

end World

namespace GameServer

/-- The world after the first part of a tick. -/
theorem world_stepWorld (sched : TickSchedule) (g : GameServer) :
    (g.stepWorld sched).1.world =
      (World.applyCommands (g.world.simulate sched, g.resourceManager) g.commandQueue).1 := by
  unfold stepWorld
  cases g.commandQueue <;> rfl

/-- Serializing a delta does not change a cell. -/
theorem cellAt_serializeDelta (order : FiniteMap.Traversal ChunkCoord) (g : GameServer) :
    (g.serializeDelta order).2.world.cellAt = g.world.cellAt := by
  refine World.cellAt_congr fun c x y _ _ => ?_
  rw [tryGetChunk_serializeDelta]
  cases g.world.tryGetChunk c <;> rfl

/-- A delta empties the dirty lists. -/
theorem clean_serializeDelta (order : FiniteMap.Traversal ChunkCoord) (g : GameServer) :
    (g.serializeDelta order).2.world.Clean := by
  intro c chunk hchunk
  rw [tryGetChunk_serializeDelta] at hchunk
  obtain ⟨before, -, rfl⟩ := Option.map_eq_some_iff.mp hchunk
  rfl

/-- **When a tick has nothing to report**: no command was queued, and no cell changes. -/
theorem clean_stepWorld_iff (sched : TickSchedule) {g : GameServer} (h : g.world.Clean) :
    (g.stepWorld sched).1.world.Clean ↔
      g.commandQueue = [] ∧ (g.world.simulate sched).cellAt = g.world.cellAt := by
  rw [world_stepWorld]
  cases hqueue : g.commandQueue with
  | nil =>
    rw [World.applyCommands_nil, World.clean_simulate_iff sched h]
    simp
  | cons cmd batch =>
    refine iff_of_false (fun hclean => ?_) fun hnil => absurd hnil.1 (List.cons_ne_nil _ _)
    obtain ⟨chunk, hchunk, hdirty⟩ := World.dirty_applyCommands
      (s := (g.world.simulate sched, g.resourceManager)) (c := World.coordOf cmd)
      (Or.inr ⟨cmd, List.mem_cons_self (a := cmd) (l := batch), rfl⟩)
    exact hdirty (hclean _ chunk hchunk)

/-- **A tick marks everything it changes.** -/
theorem tracks_stepWorld (sched : TickSchedule) {g : GameServer} (h : g.world.Clean) :
    World.Tracks g.world.cellAt (g.stepWorld sched).1.world := by
  rw [world_stepWorld]
  exact World.tracks_applyCommands (World.tracks_simulate sched h.tracks) _

/-- In an empty world, a player with a new account gets the cell it places. -/
theorem cellAt_stepWorld_place (sched : TickSchedule) {g : GameServer} {cmd : PlayerCommand}
    (hworld : g.world = {}) (hqueue : g.commandQueue = [cmd]) (htype : cmd.type = .PlaceCell)
    (haccount : g.resourceManager.balances.lookup cmd.playerId = some kStartBalance) :
    (g.stepWorld sched).1.world.cellAt =
      Function.update ({} : World).cellAt (targetOf cmd)
        { alive := true, owner := cmd.playerId } := by
  have hspend : ∃ r, g.resourceManager.trySpend cmd.playerId kPlaceCost = (true, r) := by
    rw [ResourceManager.trySpend, haccount]
    exact ⟨_, rfl⟩
  obtain ⟨r, hr⟩ := hspend
  rw [world_stepWorld, hqueue, World.applyCommands_cons, World.applyCommands_nil,
    World.cellAt_applyCommand, hworld, World.simulate_empty, World.cellAt_empty,
    World.switchCommand, htype]
  dsimp only
  rw [if_pos rfl, hr]
  rfl

end GameServer
end Multilife

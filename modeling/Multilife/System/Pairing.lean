import Multilife.Refinement.Dirty
import Multilife.System.Sessions

/-!
# Cells and owners along a run

Owner `0` means that a cell has no owner, so a cell should be alive exactly when
its owner is not `0`.  A generation keeps that, and so does every command but one
kind: player `0`, whom `Session::start` admits like any other, pays for a cell and
gets a live cell without owner.

* `paired_applyCommand_iff`: a command keeps cells paired exactly when it is not of
  that kind (`PlacesForNobody`).
* `run_paired`: along every run in which no such command is applied, cells stay
  paired.
* `run_placesForNobody`: a run in which player `0` connects and places a cell.
-/

namespace Multilife

open Chunk Transition

namespace World

/-- The command makes player `0` pay for a cell without owner. -/
def PlacesForNobody (s : World × ResourceManager) (cmd : PlayerCommand) : Prop :=
  cmd.playerId = 0 ∧ cmd.type ≠ .RemoveCell ∧ (s.1.cellAt (targetOf cmd)).owner = 0 ∧
    kPlaceCost ≤ s.2.getBalance 0

variable {s : World × ResourceManager} {cmd : PlayerCommand}

/-- Such a command succeeds, and leaves a live cell without owner. -/
theorem switchCommand_of_placesForNobody (hpaired : s.1.cellAt.Paired)
    (h : PlacesForNobody s cmd) :
    (switchCommand cmd (s.1.cellAt (targetOf cmd)) s.2).1 = { alive := true, owner := 0 } := by
  obtain ⟨hid, htype, howner, hcost⟩ := h
  have hcell : s.1.cellAt (targetOf cmd) = {} := hpaired.eq_empty (Or.inl howner)
  have hspend : ∃ r, s.2.trySpend cmd.playerId kPlaceCost = (true, r) := by
    rcases s.2.trySpend_cases cmd.playerId kPlaceCost with ⟨-, hlow⟩ | ⟨b, -, -, h⟩
    · rw [ResourceManager.getBalance] at hcost
      rw [hid] at hlow
      cases hb : s.2.balances.lookup 0 with
      | none =>
        rw [hb] at hcost
        exact absurd hcost (by decide)
      | some b =>
        rw [hb] at hcost
        exact absurd (hlow b hb) (not_lt.mpr hcost)
    · exact ⟨_, h⟩
  obtain ⟨r, hr⟩ := hspend
  rw [hid] at hr
  rw [hcell]
  unfold switchCommand
  cases hcmd : cmd.type with
  | PlaceCell => simp [hr, hid]
  | RemoveCell => exact absurd hcmd htype
  | ToggleCell => simp [hr, hid]

/-- **When a command keeps cells paired.** -/
theorem paired_applyCommand_iff (hpaired : s.1.cellAt.Paired) :
    (applyCommand s cmd).1.cellAt.Paired ↔ ¬ PlacesForNobody s cmd := by
  constructor
  · intro hafter h
    have htarget := hafter (targetOf cmd)
    rw [cellAt_applyCommand, Function.update_self,
      switchCommand_of_placesForNobody hpaired h] at htarget
    exact htarget.mp rfl rfl
  · intro h
    rw [cellAt_applyCommand]
    have heffect := switchCommand_effect cmd (s.1.cellAt (targetOf cmd)) s.2
    generalize switchCommand cmd (s.1.cellAt (targetOf cmd)) s.2 = result at heffect ⊢
    cases heffect with
    | refused => exact hpaired.update _ (hpaired _)
    | placed b htype hfree hlookup hcost =>
      refine hpaired.update _ ⟨fun _ hid => h ?_, fun _ => rfl⟩
      have hid' : cmd.playerId = 0 := hid
      refine ⟨hid', htype, ?_, ?_⟩
      · rw [hpaired.eq_empty hfree]
      · rw [hid'] at hlookup
        rw [ResourceManager.getBalance, hlookup]
        exact hcost
    | removed b htype hown hlookup => exact hpaired.update _ (by simp)

theorem paired_applyCommands_of_along {batch : List PlayerCommand} (hpaired : s.1.cellAt.Paired)
    (h : Along applyCommand (fun s cmd => ¬ PlacesForNobody s cmd) s batch) :
    (applyCommands s batch).1.cellAt.Paired :=
  foldl_invariant (I := fun s : World × ResourceManager => s.1.cellAt.Paired)
    (fun _ _ hs hcmd => (paired_applyCommand_iff hs).mpr hcmd) hpaired h

end World

namespace State

/-- No command of the batch that a tick takes lets player `0` pay for a cell
without owner, when its turn comes. -/
def NothingForNobody (s : State) : Label → Prop
  | .startTick sched =>
    Along World.applyCommand (fun s cmd => ¬ World.PlacesForNobody s cmd)
      (s.server.world.simulate sched, s.server.resourceManager) s.server.commandQueue
  | _ => True

/-- **One turn.** -/
theorem step_paired {s s' : State} {l : Label} (hpaired : s.server.world.cellAt.Paired)
    (hl : s.NothingForNobody l) (h : s.step l = some s') : s'.server.world.cellAt.Paired := by
  cases turn_of_step h with
  | startTick sched hphase =>
    show (s.server.stepWorld sched).1.world.cellAt.Paired
    rw [GameServer.world_stepWorld]
    exact World.paired_applyCommands_of_along (World.paired_simulate sched hpaired) hl
  | refreshFullSnapshotCache order counts hphase => exact hpaired
  | serializeDelta order counts hphase =>
    show (s.server.serializeDelta order).2.world.cellAt.Paired
    rw [GameServer.cellAt_serializeDelta]
    exact hpaired
  | skipBroadcast counts hphase => exact hpaired
  | postBroadcast counts update hphase hne => exact hpaired
  | broadcastServerStats order counts jobs hphase hjobs => exact hpaired
  | handleStats order payload jobs hjobs => exact hpaired
  | handleBroadcast order payload seq tick quiet jobs hjobs => exact hpaired
  | onConnection l s' hl hsame hstep =>
    rw [hsame.world]
    exact hpaired

/-- **Cells stay paired along every run** from the empty world in which no applied
command makes player `0` pay for a cell without owner: a cell of a chunk is alive
exactly when it has an owner. -/
theorem run_paired {ls : List Label} {s : State} (h : run step {} ls = some s)
    (hgood : Always step NothingForNobody {} ls) :
    ∀ c chunk x y, s.server.world.tryGetChunk c = some chunk → x < ChunkWidth →
      y < ChunkHeight → ((chunk.getCell x y).alive = true ↔ (chunk.getCell x y).owner ≠ 0) := by
  have hpaired : s.server.world.cellAt.Paired := by
    refine run_invariant (I := fun s : State => s.server.world.cellAt.Paired)
      (fun s l s' hs hl hstep => step_paired hs hl hstep) (fun p => ?_) hgood h
    rw [World.cellAt_empty]
    decide
  intro c chunk x y hchunk hx hy
  have hp := hpaired (pointOf c.toBlock x y)
  rw [World.cellAt_pointOf _ c hx hy, hchunk] at hp
  exact hp

/-! ## Runs of one player -/

/-- A player connects and sends one command. -/
def connectAndSend (playerId : PlayerId) (type : CommandType) (x y : Int64) : List Label :=
  connect 1 ⟨0, 0⟩ playerId ++ [.message 1 (.command type playerId x y)]

/-- After connecting, the player has an account and the command is queued. -/
theorem run_connectAndSend (playerId : PlayerId) (type : CommandType) (x y : Int64) :
    run step {} (connectAndSend playerId type x y) =
      some
        { server :=
            { resourceManager := ({} : ResourceManager).addPlayer playerId
              commandQueue := [⟨playerId, type, x, y⟩] }
          network := connected 1 ⟨0, 0⟩ playerId {} } := by
  have hself : 1 ∉ ({} : State).network.objects := Finmap.notMem_empty
  have hconnect := run_connect 1 hself ⟨0, 0⟩ playerId
  have hsend := run_send (s :=
    { server := { resourceManager := ({} : ResourceManager).addPlayer playerId }
      network := connected 1 ⟨0, 0⟩ playerId {} }) (reading_connected 1 ⟨0, 0⟩ playerId {}) type x y
  exact run_append.mpr ⟨_, hconnect, hsend⟩

/-- The next tick gives the player the cell. -/
theorem run_place (sched : TickSchedule) (playerId : PlayerId) (x y : Int64) :
    ∃ s, run step {} (connectAndSend playerId .PlaceCell x y ++ [.startTick sched]) = some s ∧
      s.server.world.cellAt (targetOf ⟨playerId, .PlaceCell, x, y⟩) =
        { alive := true, owner := playerId } := by
  let g : GameServer :=
    { resourceManager := ({} : ResourceManager).addPlayer playerId
      commandQueue := [⟨playerId, .PlaceCell, x, y⟩] }
  have haccount : g.resourceManager.balances.lookup playerId = some kStartBalance :=
    Finmap.lookup_insert _
  have hplace := congrFun (GameServer.cellAt_stepWorld_place sched (g := g) rfl rfl rfl haccount)
    (targetOf ⟨playerId, .PlaceCell, x, y⟩)
  rw [Function.update_self] at hplace
  refine ⟨{ server := (g.stepWorld sched).1
            network := connected 1 ⟨0, 0⟩ playerId {}
            phase := .simulated (g.stepWorld sched).2
            ticks := 1 }, ?_, hplace⟩
  exact run_append.mpr ⟨_, run_connectAndSend playerId .PlaceCell x y, rfl⟩

theorem run_paired_place :
    ∃ s, run step {} (connectAndSend 7 .PlaceCell 0 0 ++ [.startTick .sorted]) = some s ∧
      ∀ c chunk x y, s.server.world.tryGetChunk c = some chunk → x < ChunkWidth →
        y < ChunkHeight →
          ((chunk.getCell x y).alive = true ↔ (chunk.getCell x y).owner ≠ 0) := by
  have hconnect := run_connectAndSend 7 .PlaceCell 0 0
  obtain ⟨s, hrun, -⟩ := run_place .sorted 7 0 0
  refine ⟨s, hrun, run_paired hrun (always_append.mpr ⟨?_, fun m hm => ?_⟩)⟩
  · exact ⟨trivial, fun _ _ => ⟨trivial, fun _ _ => ⟨trivial, fun _ _ => trivial⟩⟩⟩
  · rw [hconnect] at hm
    cases hm
    refine ⟨⟨fun h => ?_, trivial⟩, fun _ _ => trivial⟩
    exact absurd h.1 (by decide)

/-- **Player `0` breaks the pairing.**  The run: connect with id `0`, place a cell at
`(0, 0)`, tick. -/
theorem run_placesForNobody :
    ¬ ∀ ls s, run step {} ls = some s →
      ∀ c chunk x y, s.server.world.tryGetChunk c = some chunk → x < ChunkWidth →
        y < ChunkHeight →
          ((chunk.getCell x y).alive = true ↔ (chunk.getCell x y).owner ≠ 0) := by
  intro hclaim
  obtain ⟨s, hrun, hcell⟩ := run_place .sorted 0 0 0
  rw [targetOf, World.cellAt_pointOf _ _ (localIndex_lt_width 0) (localIndex_lt_height 0)] at hcell
  cases hchunk : s.server.world.tryGetChunk (World.coordOf ⟨0, .PlaceCell, 0, 0⟩) with
  | none =>
    rw [hchunk] at hcell
    cases hcell
  | some chunk =>
    rw [hchunk] at hcell
    have hiff := hclaim _ s hrun _ chunk _ _ hchunk (localIndex_lt_width 0)
      (localIndex_lt_height 0)
    rw [World.readOrDead] at hcell
    rw [hcell] at hiff
    exact hiff.mp rfl rfl

end State
end Multilife

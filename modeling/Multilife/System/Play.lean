import Mathlib.Data.List.ReduceOption
import Multilife.Abstract.Game
import Multilife.System.Ledger
import Multilife.System.Overflow

/-!
# The server plays the game

Reading the server as a `Game` forgets the chunks, the ghost borders, the buffers, the
threads and the widths of numbers.  `game_stepWorld` says that a tick of the server is
the tick of the game, and `run_game` that every interleaving of the running server plays
the moves its connections make and nothing else.

The conditions are those under which the arithmetic of the source is arithmetic: commands
stay away from the ends of the world, one chunk for every tick to come, no 64-bit sum
wraps, and nobody connects as player `0`, which the server takes for no owner.
-/

namespace Multilife

open Chunk FiniteMap Transition

/-! ## Reading the server -/

/-- The prices of the source. -/
def prices : Prices where
  place := kPlaceCost.toNat
  remove := kRemoveAward.toNat
  cell := kAliveCellAward.toNat
  start := kStartBalance.toNat

/-- The board of a plane: the owners of its live cells. -/
def Plane.board (g : Plane) : Board PlayerId := fun p => if (g p).alive then some (g p).owner else none

/-- The purses of a ledger: the accounts, as numbers. -/
def ResourceManager.purse (r : ResourceManager) : PlayerId → Option ℕ :=
  fun id => (r.balances.lookup id).map UInt64.toNat

/-- The order of a command. -/
def PlayerCommand.order (cmd : PlayerCommand) : Order PlayerId :=
  ⟨cmd.playerId, cmd.type, (cmd.x.toInt, cmd.y.toInt)⟩

/-- The game a world and a ledger are in, with no orders to come. -/
def World.game (s : World × ResourceManager) : Game PlayerId where
  board := s.1.cellAt.board
  purse := s.2.purse

/-- The game the server is in. -/
def GameServer.game (g : GameServer) : Game PlayerId where
  board := g.world.cellAt.board
  purse := g.resourceManager.purse
  orders := g.commandQueue.map PlayerCommand.order

/-- The moves a call makes. -/
def Call.moves : Call → List (Move PlayerId)
  | .addPlayer playerId => [.join playerId]
  | .onCommandsFromNetwork commands => commands.map fun cmd => .order cmd.order
  | .stepWorld _ => [.tick]
  | .refreshFullSnapshotCache _ => []
  | .serializeDelta _ => []

/-! ## The board -/

namespace Plane

variable (g : Plane)

/-- The neighbours of a point on the board are the owners of its live neighbours. -/
theorem reduceOption_board (p : ℤ × ℤ) :
    ((neighbors p).map g.board).reduceOption = g.liveOwners p := by
  rw [liveOwners]
  generalize neighbors p = l
  induction l with
  | nil => rfl
  | cons q l ih =>
    by_cases hq : (g q).alive = true
    · rw [List.map_cons, show g.board q = some (g q).owner from if_pos hq,
        List.reduceOption_cons_of_some, ih, List.filter_cons, if_pos hq, List.map_cons]
    · rw [List.map_cons, show g.board q = none from if_neg hq, List.reduceOption_cons_of_none, ih,
        List.filter_cons, if_neg hq]

/-- **A generation of the plane is a generation of the board.** -/
theorem board_step : (step g).board = g.board.step := by
  funext p
  have hrule : g.board.step p = Board.rule (g.board p) ((neighbors p).map g.board) := rfl
  by_cases halive : (g p).alive = true
  · rw [hrule, show g.board p = some (g p).owner from if_pos halive]
    simp only [Board.rule, reduceOption_board, board, step, Plane.rule, halive, if_true]
    by_cases h : (g.liveOwners p).length = 2 ∨ (g.liveOwners p).length = 3
    · simp [h, halive]
    · simp [h]
  · rw [hrule, show g.board p = none from if_neg halive]
    simp only [Board.rule, reduceOption_board, board, step, Plane.rule, halive]
    by_cases h : (g.liveOwners p).length = 3
    · -- three parents have a plurality
      have hsome : Plurality.plurality (g.liveOwners p) ≠ none := by
        intro hnone
        have hnil : g.liveOwners p = [] := List.argmax_eq_none.mp hnone
        rw [hnil] at h
        cases h
      obtain ⟨owner, howner⟩ := Option.ne_none_iff_exists'.mp hsome
      simp [h, howner]
    · simp [h, halive]

theorem board_update (p : ℤ × ℤ) (cell : CellState) :
    board (Function.update g p cell) =
      Function.update g.board p (if cell.alive then some cell.owner else none) := by
  funext q
  by_cases hq : q = p
  · rw [hq, Function.update_self, board, Function.update_self]
  · rw [Function.update_of_ne hq, board, Function.update_of_ne hq, board]

theorem count_board (id : PlayerId) : g.board.count id = g.liveCount id := by
  have hset : {p | g.board p = some id} = {p | (g p).alive = true ∧ (g p).owner = id} := by
    ext p
    rw [Set.mem_ofPred_eq, Set.mem_ofPred_eq, board]
    split_ifs with h
    · simp [h]
    · simp [h]
  rw [Board.count, hset, liveCount, Census.census]

end Plane

/-! ## The purses -/

namespace ResourceManager

variable {r : ResourceManager} {id : PlayerId}

theorem purse_insert (r : ResourceManager) (id : PlayerId) (b : UInt64) :
    purse { balances := r.balances.insert id b } = Function.update r.purse id (some b.toNat) := by
  funext other
  by_cases h : other = id
  · rw [h, purse, Finmap.lookup_insert, Function.update_self]
    rfl
  · rw [purse, Finmap.lookup_insert_of_ne _ h, Function.update_of_ne h]
    rfl

theorem purse_of_mem (h : id ∈ r.balances) : r.purse id = some (r.getBalance id).toNat := by
  obtain ⟨b, hb⟩ := Finmap.mem_iff.mp h
  rw [purse, hb, getBalance_of_lookup hb]
  rfl

theorem purse_of_notMem (h : id ∉ r.balances) : r.purse id = none := by
  rw [purse, Finmap.lookup_eq_none.mpr h]
  rfl

end ResourceManager

/-! ## One command -/

namespace World

variable {s : World × ResourceManager} {cmd : PlayerCommand} {b : UInt64}

/-- Where cells are paired, a command is charged exactly for an empty point and a player
who can pay. -/
theorem placed_iff (hpaired : s.1.cellAt.Paired) (hb : s.2.balances.lookup cmd.playerId = some b) :
    placed s cmd = true ↔ s.1.cellAt.board (targetOf cmd) = none ∧ cmd.type ≠ .RemoveCell ∧
      kPlaceCost ≤ b := by
  have hcell := hpaired (targetOf cmd)
  rw [placed, ResourceManager.trySpend_fst hb, Bool.and_eq_true, decide_eq_true_eq, Plane.board,
    mayPlace, ← and_assoc]
  refine and_congr_left fun _ => ?_
  cases halive : (s.1.cellAt (targetOf cmd)).alive with
  | true =>
    have howner := hcell.mp halive
    cases cmd.type <;> simp [howner]
  | false =>
    have howner : (s.1.cellAt (targetOf cmd)).owner = 0 := by
      by_contra h
      rw [hcell.mpr h] at halive
      cases halive
    cases cmd.type <;> simp [howner]

/-- And paid exactly for a cell of the player. -/
theorem removed_iff (hpaired : s.1.cellAt.Paired) (hid : cmd.playerId ≠ 0)
    (hb : s.2.balances.lookup cmd.playerId = some b) :
    removed s cmd = true ↔ s.1.cellAt.board (targetOf cmd) = some cmd.playerId ∧
      cmd.type ≠ .PlaceCell := by
  have hcell := hpaired (targetOf cmd)
  rw [removed, ResourceManager.award_fst hb, Bool.and_true, Plane.board, mayRemove]
  cases halive : (s.1.cellAt (targetOf cmd)).alive with
  | true =>
    have howner := hcell.mp halive
    cases cmd.type <;> simp [howner]
  | false =>
    have howner : (s.1.cellAt (targetOf cmd)).owner = 0 := by
      by_contra h
      rw [hcell.mpr h] at halive
      cases halive
    cases cmd.type <;> simp [howner, hid.symm]

/-- **One command is one order.** -/
theorem game_applyCommand (hpaired : s.1.cellAt.Paired) (hnobody : 0 ∉ s.2.balances)
    (hreach : InReach cmd)
    (hfit : removed s cmd = true →
      (s.2.getBalance cmd.playerId).toNat + kRemoveAward.toNat < 2 ^ 64) :
    game (applyCommand s cmd) = (game s).obey prices cmd.order := by
  have htarget : cmd.order.point = targetOf cmd := ((targetOf_eq_iff cmd).mpr hreach).symm
  rw [Game.obey, htarget, show (game s).purse = s.2.purse from rfl,
    show (game s).board = s.1.cellAt.board from rfl, show cmd.order.player = cmd.playerId from rfl,
    show cmd.order.type = cmd.type from rfl]
  cases hb : s.2.balances.lookup cmd.playerId with
  | none =>
    -- no account, no effect
    rw [ResourceManager.purse_of_notMem (Finmap.lookup_eq_none.mp hb)]
    rcases applyCommand_outcome s cmd with ⟨hcells, hledger⟩ | ⟨_, b, _, -, -, hlookup, -, -⟩
    · rw [game, hcells, hledger]
      rfl
    · rw [hb] at hlookup
      cases hlookup
  | some b =>
    have hid : cmd.playerId ≠ 0 := fun h => hnobody (h ▸ Finmap.mem_of_lookup_eq_some hb)
    have hpurse : s.2.purse cmd.playerId = some b.toNat := by rw [ResourceManager.purse, hb]; rfl
    have hplaced := placed_iff hpaired hb
    have hremoved := removed_iff hpaired hid hb
    rw [hpurse]
    cases hp : placed s cmd with
    | true =>
      obtain ⟨hempty, htype, hcost⟩ := hplaced.mp hp
      obtain ⟨hcells, b', hb', -, hledger⟩ := applyCommand_placed hp
      cases hb.symm.trans hb'
      have hle : prices.place ≤ b.toNat := UInt64.le_iff_toNat_le.mp hcost
      rw [hempty, game, hcells, hledger, ResourceManager.purse_insert, Plane.board_update,
        UInt64.toNat_sub_of_le _ _ hcost]
      exact (if_pos ⟨htype, hle⟩).symm
    | false =>
      cases hr : removed s cmd with
      | true =>
        obtain ⟨hown, htype⟩ := hremoved.mp hr
        obtain ⟨hcells, b', hb', hledger⟩ := applyCommand_removed hr
        cases hb.symm.trans hb'
        have hsum := hfit hr
        rw [ResourceManager.getBalance_of_lookup hb] at hsum
        rw [hown, game, hcells, hledger, ResourceManager.purse_insert, Plane.board_update,
          UInt64.toNat_add, Nat.mod_eq_of_lt hsum]
        exact (if_pos ⟨htype, rfl⟩).symm
      | false =>
        have hrefused : accepted s cmd = false := by rw [accepted, hp, hr, Bool.or_false]
        obtain ⟨hcells, hledger⟩ := applyCommand_refused hrefused
        rw [game, hcells, hledger]
        cases hcell : s.1.cellAt.board (targetOf cmd) with
        | none =>
          refine (if_neg fun h => ?_).symm
          rw [hplaced.mpr ⟨hcell, h.1, UInt64.le_iff_toNat_le.mpr h.2⟩] at hp
          cases hp
        | some owner =>
          refine (if_neg fun h => ?_).symm
          rw [hremoved.mpr ⟨hcell.trans (congrArg some h.2), h.1⟩] at hr
          cases hr

/-- Player `0` without an account places nothing. -/
theorem not_placesForNobody (hnobody : 0 ∉ s.2.balances) (cmd : PlayerCommand) :
    ¬ PlacesForNobody s cmd := by
  rintro ⟨-, -, -, hcost⟩
  rw [ResourceManager.getBalance, Finmap.lookup_eq_none.mpr hnobody] at hcost
  exact absurd hcost (by decide)

/-- A batch by players with accounts keeps cells paired. -/
theorem paired_applyCommands_of_notMem {batch : List PlayerCommand} (hpaired : s.1.cellAt.Paired)
    (hnobody : 0 ∉ s.2.balances) : (applyCommands s batch).1.cellAt.Paired := by
  refine (foldl_invariant' (f := applyCommand)
    (I := fun s : World × ResourceManager => s.1.cellAt.Paired ∧ 0 ∉ s.2.balances)
    (fun s cmd hs => ⟨?_, ?_⟩) ⟨hpaired, hnobody⟩).1
  · exact (paired_applyCommand_iff hs.1).mpr (not_placesForNobody hs.2 cmd)
  · exact fun h => hs.2 ((mem_balances_applyCommand cmd 0).mp h)

/-- **A batch is its orders.** -/
theorem game_applyCommands {batch : List PlayerCommand} (hpaired : s.1.cellAt.Paired)
    (hnobody : 0 ∉ s.2.balances) (hreach : ∀ cmd ∈ batch, InReach cmd)
    (hfit : RemovalsFit s batch) :
    game (applyCommands s batch) =
      (batch.map PlayerCommand.order).foldl (Game.obey prices) (game s) := by
  induction batch generalizing s with
  | nil => rfl
  | cons cmd batch ih =>
    rw [applyCommands_cons, List.map_cons, List.foldl_cons,
      ← game_applyCommand hpaired hnobody (hreach cmd List.mem_cons_self) hfit.1]
    refine ih ?_ (fun h => hnobody ((mem_balances_applyCommand cmd 0).mp h))
      (fun c hc => hreach c (List.mem_cons_of_mem _ hc)) hfit.2
    exact (paired_applyCommand_iff hpaired).mpr (not_placesForNobody hnobody cmd)

end World

/-! ## One call -/

namespace GameServer

variable {g : GameServer} {S : Set PlayerId}

/-- Cells are paired, the accounts are those of the players of `S`, every owner is one of
them, and nobody is not. -/
structure Playable (S : Set PlayerId) (g : GameServer) : Prop where
  paired : g.world.cellAt.Paired
  accounted : Accounted S g
  nobody : 0 ∉ S

theorem Playable.notMem (h : g.Playable S) : 0 ∉ g.resourceManager.balances :=
  fun hmem => h.nobody ((h.accounted.accounts 0).mp hmem)

theorem Playable.paired_afterCommands (h : g.Playable S) (sched : TickSchedule) :
    (g.afterCommands sched).1.cellAt.Paired :=
  World.paired_applyCommands_of_notMem (World.paired_simulate sched h.paired) h.notMem

/-- The pay of a tick. -/
theorem purse_award {sched : TickSchedule} (h : g.Playable S) (hfit : g.AwardsFit sched)
    (id : PlayerId) :
    (g.stepWorld sched).1.resourceManager.purse id =
      ((g.afterCommands sched).2.purse id).map
        (· + (g.afterCommands sched).1.cellAt.board.count id * prices.cell) := by
  have haccounts : id ∈ (g.afterCommands sched).2.balances ↔ id ∈ g.resourceManager.balances :=
    World.mem_balances_applyCommands _ _
  by_cases hid : id ∈ g.resourceManager.balances
  · have hne : id ≠ 0 := fun h0 => h.notMem (h0 ▸ hid)
    have hpaid : (g.afterCommands sched).1.cellAt.paidCount id =
        (g.afterCommands sched).1.cellAt.board.count id := by
      rw [Plane.paidCount, if_neg hne, Plane.count_board]
    rw [ResourceManager.purse_of_mem ((mem_balances_stepWorld sched h.accounted id).mpr hid),
      toNat_getBalance_award sched (hfit.income id hid), hpaid,
      ResourceManager.purse_of_mem (haccounts.mpr hid)]
    rfl
  · rw [ResourceManager.purse_of_notMem fun hmem =>
        hid ((mem_balances_stepWorld sched h.accounted id).mp hmem),
      ResourceManager.purse_of_notMem fun hmem => hid (haccounts.mp hmem)]
    rfl

/-- **A tick of the server is a tick of the game.** -/
theorem game_stepWorld {sched : TickSchedule} (h : g.Playable S)
    (hinside : ∀ c ∈ g.world.chunks, c.Inside 2) (hreach : ∀ cmd ∈ g.commandQueue, InReach cmd)
    (hfit : g.AwardsFit sched) : (g.stepWorld sched).1.game = g.game.tick prices := by
  have hlive : World.game (g.world.simulate sched, g.resourceManager) =
      { g.game with board := g.game.board.step, orders := [] } := by
    rw [World.game, World.cellAt_simulate sched hinside h.paired.owned, Plane.board_step]
    rfl
  have horders := World.game_applyCommands (World.paired_simulate sched h.paired) h.notMem hreach
    hfit.removals
  have hworld : (g.stepWorld sched).1.world = (g.afterCommands sched).1 := by rw [stepWorld_eq]
  rw [← afterCommands, hlive] at horders
  rw [Game.tick, show g.game.orders = g.commandQueue.map PlayerCommand.order from rfl, ← horders,
    Game.pay, game, hworld, funext (purse_award h hfit)]
  rw [stepWorld_eq]
  rfl

end GameServer

/-! ## Runs -/

namespace State

variable {s t : State} {n : ℤ} {S : Set PlayerId}

theorem inReach_of_coordWithin {cmd : PlayerCommand} (hn : 0 ≤ n)
    (h : CoordWithin n cmd.x ∧ CoordWithin n cmd.y) : InReach cmd := by
  obtain ⟨⟨hxlow, hxhigh⟩, hylow, hyhigh⟩ := h
  exact ⟨⟨by omega, by omega⟩, by omega, by omega⟩

/-- The server is playable after a turn that lets nobody in. -/
theorem playable_step {l : Label} (hs : s.server.Playable S) (h : s.step l = some t)
    (hnobody : 0 ∉ handshaken (s.calls l)) :
    t.server.Playable (S ∪ {id | id ∈ handshaken (s.calls l)}) where
  paired := by
    refine step_paired hs.paired ?_ h
    cases l with
    | startTick sched =>
      exact along_of_invariant (I := fun s' : World × ResourceManager => 0 ∉ s'.2.balances)
        (fun s' cmd hs' hmem => hs' ((World.mem_balances_applyCommand cmd 0).mp hmem))
        (fun s' cmd hs' => World.not_placesForNobody hs' cmd) hs.notMem
    | _ => exact trivial
  accounted := by
    rw [server_of_step h]
    exact GameServer.accounted_calls hs.accounted _
  nobody := fun hmem => hmem.elim hs.nobody hnobody

/-- The moves a turn makes in the game. -/
def moves (s : State) (l : Label) : List (Move PlayerId) := (s.calls l).flatMap Call.moves

theorem foldl_play_orders (g : Game PlayerId) (commands : List PlayerCommand) :
    (commands.map fun cmd => Move.order cmd.order).foldl (Game.play prices) g =
      { g with orders := g.orders ++ commands.map PlayerCommand.order } := by
  induction commands generalizing g with
  | nil => simp
  | cons cmd commands ih =>
    rw [List.map_cons, List.foldl_cons, ih, Game.play, List.map_cons, List.append_assoc]
    rfl

/-- **One turn** of one thread makes its moves. -/
theorem game_step {l : Label} (hn : 1 ≤ n) (hs : s.server.Playable S)
    (hspace : s.server.Spacious (n + if l.startsTick then 1 else 0)) (hfit : s.Fits l)
    (h : s.step l = some t) :
    t.server.game = (s.moves l).foldl (Game.play prices) s.server.game := by
  rw [server_of_step h]
  cases l with
  | startTick sched =>
    have hspace : s.server.Spacious (n + 1) := hspace
    exact GameServer.game_stepWorld hs (fun c hc => (hspace.chunks c hc).mono (by omega))
      (fun cmd hcmd => inReach_of_coordWithin (by omega) (hspace.commands cmd hcmd)) hfit
  | serializeDelta order =>
    show GameServer.game (s.server.serializeDelta order).2 = s.server.game
    rw [GameServer.game, GameServer.cellAt_serializeDelta]
    rfl
  | handshake self buf =>
    rw [moves, calls]
    cases s.handshakeId self buf with
    | none => rfl
    | some id =>
      show GameServer.game { s.server with
        resourceManager := s.server.resourceManager.addPlayer id } = _
      rw [GameServer.game, ResourceManager.addPlayer, ResourceManager.purse_insert]
      rfl
  | message self msg =>
    rw [moves, calls, List.flatMap_singleton]
    show GameServer.game (s.server.onCommandsFromNetwork (s.delivered self msg)) =
      List.foldl _ _ (List.map _ (s.delivered self msg))
    rw [foldl_play_orders, GameServer.game, GameServer.onCommandsFromNetwork, List.map_append]
    rfl
  | _ => rfl

/-- **Runs**, from any playable server with room for its ticks. -/
theorem game_of_run {ls : List Label} (hs : s.server.Playable S)
    (hspace : s.server.Spacious (ls.countP Label.startsTick + 1))
    (hls : ∀ l ∈ ls, l.Within (ls.countP Label.startsTick + 1)) (hfit : Always step Fits s ls)
    (hnobody : 0 ∉ handshakes s ls) (h : run step s ls = some t) :
    t.server.world.cellAt.Paired ∧
      t.server.game = (collect step moves s ls).foldl (Game.play prices) s.server.game := by
  induction ls generalizing s S with
  | nil =>
    cases h
    exact ⟨hs.paired, rfl⟩
  | cons l ls ih =>
    obtain ⟨m, hm, h⟩ := run_cons_eq_some.mp h
    have hcount : ((l :: ls).countP Label.startsTick : ℤ) =
        ls.countP Label.startsTick + if l.startsTick then 1 else 0 := by
      rw [List.countP_cons]
      push_cast
      rfl
    have hle : (0 : ℤ) ≤ if l.startsTick then 1 else 0 := by split_ifs <;> decide
    rw [hcount, add_right_comm] at hspace hls
    rw [handshakes, collect_cons hm, handshaken, List.filterMap_append, List.mem_append,
      not_or] at hnobody
    have hturn := game_step (by omega) hs hspace hfit.1 hm
    have hspaceAfter := spacious_step (by omega) hm
      ((hls l List.mem_cons_self).mono (by omega)) hspace
    obtain ⟨hpaired, hgame⟩ := ih (playable_step hs hm hnobody.1) hspaceAfter
      (fun l' hl' => (hls l' (List.mem_cons_of_mem l hl')).mono (by omega)) (hfit.2 m hm)
      hnobody.2 h
    exact ⟨hpaired, by rw [hgame, hturn, collect_cons hm, List.foldl_append]⟩

theorem playable_empty : ({} : GameServer).Playable ∅ where
  paired p := by
    rw [World.cellAt_empty]
    decide
  accounted := GameServer.accounted_empty
  nobody := Set.notMem_empty 0

theorem game_empty : ({} : GameServer).game = {} := by
  have hboard : ({} : World).cellAt.board = fun _ => none := by
    funext p
    rw [Plane.board, World.cellAt_empty]
    rfl
  rw [GameServer.game, hboard]
  rfl

theorem spacious_empty (n : ℤ) : ({} : GameServer).Spacious n :=
  ⟨fun _ hc => absurd hc Finmap.notMem_empty, fun _ hcmd => absurd hcmd List.not_mem_nil⟩

/-- Nobody connects as player `0`, commands keep a distance of one chunk for each tick, and
one more, from the ends of the world, and no 64-bit sum wraps. -/
structure Fair (ls : List Label) : Prop where
  nobody : 0 ∉ handshakes {} ls
  within : ∀ l ∈ ls, l.Within (ls.countP Label.startsTick + 1)
  fits : Always step Fits {} ls

theorem Fair.game_of_run {ls : List Label} (hfair : Fair ls) (h : run step {} ls = some t) :
    t.server.world.cellAt.Paired ∧ t.server.game =
      (collect step moves {} ls).foldl (Game.play prices) ({} : GameServer).game :=
  State.game_of_run playable_empty (spacious_empty _) hfair.within hfair.fits hfair.nobody h

/-- **The server plays the game.**  In every fair interleaving of the running server, from
the empty world, a cell is alive exactly when it has an owner, and board, purses and
waiting orders are those of the game after the moves the connections and the ticks have
made.  A handshake is a move of its own, never inside the turn that begins a tick. -/
theorem run_game {ls : List Label} (h : run step {} ls = some t) (hfair : Fair ls) :
    t.server.world.cellAt.Paired ∧
      t.server.game = (collect step moves {} ls).foldl (Game.play prices) {} := by
  rw [← game_empty]
  exact hfair.game_of_run h

theorem fair_firstTick : Fair firstTick where
  nobody := by decide
  within l hl := by
    have hticks : firstTick.countP Label.startsTick = 1 := rfl
    rw [hticks]
    simp only [firstTick, connectAndSend, connect, List.mem_append, List.mem_cons,
      List.not_mem_nil, or_false] at hl
    rcases hl with (((rfl | rfl) | rfl) | rfl)
    · exact trivial
    · exact trivial
    · exact ⟨⟨by decide, by decide⟩, by decide, by decide⟩
    · exact trivial
  fits := fits_firstTick

theorem run_game_firstTick :
    ∃ t, run step {} firstTick = some t ∧ t.server.game =
      [Move.join 7, .order ⟨7, .PlaceCell, (-1, 0)⟩, .tick].foldl (Game.play prices) {} := by
  obtain ⟨t, ht, -⟩ := run_firstTick
  exact ⟨t, ht, (run_game ht fair_firstTick).2⟩

/-! ## Other interleavings, other boards -/

/-- Where cells are paired, the board says what the cells are. -/
theorem cellAt_of_board {g g' : Plane} (hg : g.Paired) (hg' : g'.Paired) {p q : ℤ × ℤ}
    (h : g'.board q = g.board p) : g' q = g p := by
  have hp := hg p
  have hq := hg' q
  rw [Plane.board, Plane.board] at h
  rcases hcell : g p with ⟨_ | _, owner⟩
  · rcases hcell' : g' q with ⟨_ | _, owner'⟩
    · simp_all
    · simp_all
  · rcases hcell' : g' q with ⟨_ | _, owner'⟩
    · simp_all
    · simp_all

theorem resourceManager_of_purse {r r' : ResourceManager} (h : r'.purse = r.purse) : r' = r := by
  have hlookup : r'.balances = r.balances := Finmap.ext_lookup fun id =>
    Option.map_injective (fun _ _ => UInt64.toNat_inj.mp) (congrFun h id)
  rcases r with ⟨balances⟩
  rw [show r' = ⟨r'.balances⟩ from rfl, hlookup]

/-- **The world has no grid.**  When the moves of one fair run are those of another at the
images of their points under an isometry of the plane, then so are the cells, and the
ledgers are the same.  Neither the borders of the chunks nor the interleaving, the order of
the hash containers or the tasks of the pool can be told from the outcome. -/
theorem run_isometry {ls ls' : List Label} {t' : State} {σ : Equiv.Perm (ℤ × ℤ)}
    (hσ : Plane.Isometry σ) (h : run step {} ls = some t) (h' : run step {} ls' = some t')
    (hfair : Fair ls) (hfair' : Fair ls')
    (hmoves : collect step moves {} ls' = (collect step moves {} ls).map (Move.onPoint σ)) :
    (∀ p, t'.server.world.cellAt (σ p) = t.server.world.cellAt p) ∧
      t'.server.resourceManager = t.server.resourceManager := by
  obtain ⟨hpaired, hgame⟩ := hfair.game_of_run h
  obtain ⟨hpaired', hgame'⟩ := hfair'.game_of_run h'
  have hstart : ({} : GameServer).game = ({} : GameServer).game.onPoint σ := by
    rw [game_empty]
    rfl
  have himage : t'.server.game = t.server.game.onPoint σ := by
    rw [hgame', hmoves, hstart, Game.foldl_play_onPoint prices hσ, ← hgame]
  have hboard : t'.server.world.cellAt.board = t.server.world.cellAt.board ∘ σ.symm :=
    congrArg Game.board himage
  refine ⟨fun p => cellAt_of_board hpaired hpaired' ?_,
    resourceManager_of_purse (congrArg Game.purse himage)⟩
  rw [hboard, Function.comp_apply, σ.symm_apply_apply]

/-- The quarter turn about the point `(-1, 0)`. -/
def quarterTurn : Equiv.Perm (ℤ × ℤ) where
  toFun p := (-1 - p.2, p.1 + 1)
  invFun p := (p.2 - 1, -1 - p.1)
  left_inv p := by ext <;> simp
  right_inv p := by ext <;> simp

theorem isometry_quarterTurn : Plane.Isometry quarterTurn := by
  intro p q
  simp only [quarterTurn, Equiv.coe_fn_mk, UnitStep]
  omega

/-- The first cell is at the centre of the turn. -/
theorem run_isometry_firstTick :
    ∃ t, run step {} firstTick = some t ∧
      ∀ p, t.server.world.cellAt (quarterTurn p) = t.server.world.cellAt p := by
  obtain ⟨t, ht, -⟩ := run_firstTick
  exact ⟨t, ht, (run_isometry isometry_quarterTurn ht ht fair_firstTick fair_firstTick rfl).1⟩

end State
end Multilife

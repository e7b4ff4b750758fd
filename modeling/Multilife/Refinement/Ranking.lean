import Multilife.Client.SidePanel
import Multilife.Refinement.PendingEdits
import Multilife.Refinement.Stats

/-!
# Two lists of players

`refreshStatsPanel` lists the players in one of two ways: from the model, as long as there are no
statistics, and from the statistics.  Where the model shows the world the statistics are about,
the two lists agree.

* `lookup_players`: what `onServerStatsUpdated` remembers of a message.
* `isOwner_iff`: who has a cell in the model.
* `playerIds_of_statistics`: without the players who have no cells, the second list is the
  first.
-/

namespace Multilife

open Census Client FiniteMap Tally proto

namespace Client

open GameNetworkClient

/-! ## What the window remembers of a message -/

variable {snapshots : List PlayerSnapshot} {m : Finmap fun _ : UInt64 => PlayerSnapshot} {id : UInt64}

theorem lookup_players_of_not_mem (h : id ∉ snapshots.map PlayerSnapshot.playerId) :
    (snapshots.foldl (fun m p => m.insert p.playerId p) m).lookup id = m.lookup id := by
  induction snapshots generalizing m with
  | nil => rfl
  | cons p snapshots ih =>
    rw [List.map_cons, List.mem_cons, not_or] at h
    rw [List.foldl_cons, ih h.2, Finmap.lookup_insert_of_ne _ h.1]

/-- A message that names no player twice is remembered as it is. -/
theorem lookup_players (hnodup : (snapshots.map PlayerSnapshot.playerId).Nodup) {p : PlayerSnapshot}
    (hp : p ∈ snapshots) :
    (snapshots.foldl (fun m p => m.insert p.playerId p) m).lookup p.playerId = some p := by
  induction snapshots generalizing m with
  | nil => cases hp
  | cons q snapshots ih =>
    rw [List.map_cons, List.nodup_cons] at hnodup
    rw [List.foldl_cons]
    rcases List.mem_cons.mp hp with rfl | hp
    · rw [lookup_players_of_not_mem hnodup.1, Finmap.lookup_insert]
    · exact ih hnodup.2 hp

/-! ## The owners in the model -/

variable {model : WorldModel} {w : World}

/-- What a model that shows the world has at a key. -/
theorem lookup_shown (h : model.Shows w.cellAt) (k : CellKey) (id : PlayerId) :
    model.aliveCells.lookup k = some id ↔
      (w.cellAt k.point).alive = true ∧ (w.cellAt k.point).owner = id := by
  rw [h k, liveOwner]
  split_ifs with halive <;> simp [halive]

/-- Who has a cell in it. -/
theorem isOwner_iff (h : model.Shows w.cellAt) (id : PlayerId) :
    (∃ key, model.aliveCells.lookup key = some id) ↔ w.cellAt.liveCount id ≠ 0 := by
  have hfinite : {p | (w.cellAt p).alive = true ∧ (w.cellAt p).owner = id}.Finite := by
    refine (model.aliveCells.keys.finite_toSet.image CellKey.point).subset ?_
    intro p hp
    obtain ⟨k, rfl⟩ := exists_key_of_alive hp.1
    refine Set.mem_image_of_mem _ (Finset.mem_coe.mpr (Finmap.mem_keys.mpr ?_))
    exact Finmap.mem_of_lookup_eq_some ((lookup_shown h k id).mpr hp)
  rw [Plane.liveCount, census, ← Nat.pos_iff_ne_zero, Set.ncard_pos hfinite]
  constructor
  · rintro ⟨k, hk⟩
    exact ⟨k.point, (lookup_shown h k id).mp hk⟩
  · rintro ⟨p, hp⟩
    obtain ⟨k, rfl⟩ := exists_key_of_alive hp.1
    exact ⟨k, (lookup_shown h k id).mpr hp⟩

end Client

namespace GameServer

variable {g : GameServer} (sched : TickSchedule)

/-- The statistics of the tick, as they come into the window. -/
def snapshots (order : Traversal PlayerId) : List GameNetworkClient.PlayerSnapshot :=
  (listedPlayers order (g.stepWorld sched).1.resourceManager).map fun id =>
    ⟨id, (g.stepWorld sched).1.resourceManager.getBalance id, total (g.stepWorld sched).2 id⟩

/-- The statistics are one message, and nothing is left of it. -/
theorem onTcpReadyRead_statistics (order : Traversal PlayerId) (generation : UInt32) :
    GameNetworkClient.onTcpReadyRead [] (serializeServerStats order generation
      (g.stepWorld sched).1.resourceManager (g.stepWorld sched).2) =
      ([], [⟨generation, snapshots (g := g) sched order⟩]) := by
  have hparse : GameNetworkClient.statsParser.parse (serializeServerStats order generation
      (g.stepWorld sched).1.resourceManager (g.stepWorld sched).2) = (some (statsMessage order
        generation (g.stepWorld sched).1.resourceManager (g.stepWorld sched).2), []) :=
    tryParseServerStatsMessage_serializeServerStats _ _ _ _
  have hrest : GameNetworkClient.statsParser.parse [] = (none, []) := rfl
  rw [GameNetworkClient.onTcpReadyRead, List.nil_append,
    BufferParser.drain_of_some hparse, BufferParser.drain_of_none hrest, List.map_singleton,
    GameNetworkClient.toStatsUpdate, statsMessage, List.map_map]
  rfl

/-- **The two lists of players agree.**  A window shows the world after a tick, and the statistics of
this tick come in.  Then every registered player is listed, with the balance of the server; the
players that have cells are listed in the order and with the numbers of the list that the window
made from its model before; and these numbers are those of the world. -/
theorem playerIds_of_statistics (hpaired : g.world.cellAt.Paired)
    (howners : g.world.cellAt.OwnersIn {id | id ∈ g.resourceManager.balances})
    (hcard : g.resourceManager.balances.keys.card ≤ 65535)
    (hids : ∀ cmd ∈ g.commandQueue, cmd.playerId ≠ 0)
    (hfit : ∀ id, (g.afterCommands sched).1.cellAt.liveCount id < 2 ^ 64)
    {win : GameWindow} (hshows : win.worldModel.Shows (g.afterCommands sched).1.cellAt)
    (order : Traversal PlayerId) (generation : UInt32) (keys : Traversal CellKey)
    (owners players : Traversal UInt64) :
    ∃ u, GameNetworkClient.onTcpReadyRead [] (serializeServerStats order generation
        (g.stepWorld sched).1.resourceManager (g.stepWorld sched).2) = ([], [u]) ∧
      let shown := win.onServerStatsUpdated u.players
      (∀ id, id ∈ shown.playerIds players ↔ id ∈ g.resourceManager.balances) ∧
      (∀ id ∈ g.resourceManager.balances, (g.stepWorld sched).1.resourceManager.balances.lookup id =
        some (shown.snapshotOf id).balance) ∧
      ((shown.playerIds players).map fun id => (id, (shown.snapshotOf id).liveCells)).filter
        (fun stats => stats.2 ≠ 0) = win.worldModel.ownerStats keys owners ∧
      ∀ stats ∈ win.worldModel.ownerStats keys owners,
        stats.2.toNat = (g.afterCommands sched).1.cellAt.liveCount stats.1 := by
  refine ⟨_, onTcpReadyRead_statistics sched order generation, ?_⟩
  intro shown
  have hafter : ∀ id, id ∈ (g.stepWorld sched).1.resourceManager.balances ↔
      id ∈ g.resourceManager.balances := mem_balances_stepWorld sched ⟨fun _ => Iff.rfl, howners⟩
  have hlisted : ∀ id, id ∈ listedPlayers order (g.stepWorld sched).1.resourceManager ↔
      id ∈ g.resourceManager.balances := by
    intro id
    rw [mem_listedPlayers order _ (by rw [keys_eq_of_mem_iff hafter]; exact hcard)]
    exact hafter id
  have hcells : (g.afterCommands sched).1.cellAt.OwnersIn {id | id ∈ g.resourceManager.balances} :=
    World.ownersIn_applyCommands _ (fun _ hid => hid) (World.ownersIn_simulate sched howners)
  have hnodup : ((snapshots (g := g) sched order).map
      GameNetworkClient.PlayerSnapshot.playerId).Nodup := by
    have hids : (snapshots (g := g) sched order).map GameNetworkClient.PlayerSnapshot.playerId =
        listedPlayers order (g.stepWorld sched).1.resourceManager := by
      rw [snapshots, List.map_map]
      exact List.map_id _
    rw [hids]
    exact (pairwise_listedPlayers order _).imp fun hlt => ne_of_lt hlt
  have hlookup : ∀ id ∈ g.resourceManager.balances, shown.serverPlayers.lookup id =
      some ⟨id, (g.stepWorld sched).1.resourceManager.getBalance id,
        total (g.stepWorld sched).2 id⟩ := fun id hid =>
    lookup_players hnodup (List.mem_map.mpr ⟨id, (hlisted id).mpr hid, rfl⟩)
  have hsorted : ∀ id, id ∈ shown.playerIds players ↔ id ∈ g.resourceManager.balances := by
    intro id
    rw [GameWindow.mem_playerIds]
    refine ⟨fun hid => ?_, fun hid => Finmap.mem_of_lookup_eq_some (hlookup id hid)⟩
    by_contra hnot
    have hnone : id ∉ (snapshots (g := g) sched order).map
        GameNetworkClient.PlayerSnapshot.playerId := by
      rw [snapshots, List.map_map]
      intro hmem
      obtain ⟨id', hid', rfl⟩ := List.mem_map.mp hmem
      exact hnot ((hlisted id').mp hid')
    have hlost : shown.serverPlayers.lookup id = none := lookup_players_of_not_mem hnone
    exact Finmap.lookup_eq_none.mp hlost hid
  have hsnapshot : ∀ id ∈ g.resourceManager.balances, shown.snapshotOf id =
      ⟨id, (g.stepWorld sched).1.resourceManager.getBalance id, total (g.stepWorld sched).2 id⟩ := by
    intro id hid
    rw [GameWindow.snapshotOf, hlookup id hid, Option.getD_some]
  have hcount : ∀ id, win.worldModel.liveCellsOwnedBy keys id = total (g.stepWorld sched).2 id := by
    intro id
    rw [liveCellsOwnedBy_of_shows keys hshows, ← UInt64.toNat_inj,
      toNat_counts sched hpaired hids (hfit id), UInt64.toNat_ofNat_of_lt' (hfit id)]
  have htotal : ∀ id, total (g.stepWorld sched).2 id ≠ 0 ↔
      (g.afterCommands sched).1.cellAt.liveCount id ≠ 0 := by
    intro id
    rw [← toNat_counts sched hpaired hids (hfit id), ne_eq, ne_eq, ← UInt64.toNat_inj]
    rfl
  refine ⟨hsorted, fun id hid => ?_, ?_, ?_⟩
  · rw [hsnapshot id hid]
    exact lookup_eq_some_total ((hafter id).mpr hid)
  · refine strictTotal_ranksBefore.eq_of_pairwise ((shown.pairwise_playerIds players).filter _)
      (win.worldModel.pairwise_ownerStats keys owners) fun stats => ?_
    rw [← Prod.mk.eta (p := stats), WorldModel.mem_ownerStats, isOwner_iff hshows, ← htotal, hcount,
      List.mem_filter, List.mem_map]
    constructor
    · rintro ⟨⟨id, hid, hstats⟩, hpositive⟩
      rw [hsnapshot id ((hsorted id).mp hid)] at hstats
      obtain ⟨rfl, hnumber⟩ := Prod.mk.inj hstats
      rw [← hnumber] at hpositive ⊢
      exact ⟨of_decide_eq_true hpositive, rfl⟩
    · rintro ⟨hpositive, hnumber⟩
      have hid : stats.1 ∈ g.resourceManager.balances := by
        obtain ⟨key, hkey⟩ := (isOwner_iff hshows stats.1).mpr ((htotal stats.1).mp hpositive)
        obtain ⟨halive, howner⟩ := (lookup_shown hshows key stats.1).mp hkey
        have hpaired' := paired_afterCommands sched hpaired hids
        exact howner ▸ (hcells key.point).resolve_left ((hpaired' key.point).mp halive)
      refine ⟨⟨stats.1, (hsorted stats.1).mpr hid, ?_⟩, ?_⟩
      · rw [hsnapshot stats.1 hid, hnumber]
      · rw [hnumber]
        exact decide_eq_true hpositive
  · intro stats hstats
    rw [← Prod.mk.eta (p := stats), WorldModel.mem_ownerStats, hcount] at hstats
    rw [hstats.2, toNat_counts sched hpaired hids (hfit stats.1)]

/-- The plane with the first cell. -/
theorem cellAt_firstCell : (firstCell.afterCommands sched).1.cellAt =
    Function.update ({} : World).cellAt (-1, 0) { alive := true, owner := 7 } := by
  have hplaced : World.placed ({}, ({} : ResourceManager).addPlayer 7) ⟨7, .PlaceCell, -1, 0⟩ = true := by
    rw [World.placed, World.cellAt_empty]
    decide
  rw [afterCommands_firstCell, World.applyCommands_cons, World.applyCommands_nil,
    (World.applyCommand_placed hplaced).1]
  rfl

/-- A window that shows it. -/
def firstWindow : GameWindow where
  worldModel := { aliveCells := (∅ : Finmap fun _ : CellKey => UInt64).insert ⟨-1, 0⟩ 7 }
  playerId := 7

theorem shows_firstWindow : firstWindow.worldModel.Shows (firstCell.afterCommands sched).1.cellAt := by
  intro k
  rw [cellAt_firstCell]
  by_cases hk : k = ⟨-1, 0⟩
  · subst hk
    decide
  · have hpoint : k.point ≠ (-1, 0) := fun h => hk (CellKey.point_injective h)
    rw [Function.update_of_ne hpoint, World.cellAt_empty]
    exact Finmap.lookup_insert_of_ne _ hk

theorem liveCount_firstCell_lt (id : PlayerId) :
    (firstCell.afterCommands sched).1.cellAt.liveCount id < 2 ^ 64 := by
  have hsubset : {p | ((firstCell.afterCommands sched).1.cellAt p).alive = true ∧
      ((firstCell.afterCommands sched).1.cellAt p).owner = id} ⊆ {(-1, 0)} := by
    intro p hp
    by_contra hne
    have halive := hp.1
    rw [cellAt_firstCell, Function.update_of_ne hne, World.cellAt_empty] at halive
    cases halive
  have hle := Set.ncard_le_ncard hsubset
  rw [Set.ncard_singleton] at hle
  exact lt_of_le_of_lt hle (by decide)

/-- The statistics of the first cell list player 7 as the window did. -/
theorem playerIds_of_statistics_firstCell : ∃ u,
    GameNetworkClient.onTcpReadyRead [] (serializeServerStats sortedPlayers 1
      (firstCell.stepWorld .sorted).1.resourceManager (firstCell.stepWorld .sorted).2) = ([], [u]) ∧
    let shown := firstWindow.onServerStatsUpdated u.players
    7 ∈ shown.playerIds sortedPlayers ∧
    ((shown.playerIds sortedPlayers).map fun id => (id, (shown.snapshotOf id).liveCells)).filter
      (fun stats => stats.2 ≠ 0) = firstWindow.worldModel.ownerStats sortedKeys sortedPlayers := by
  have hpaired : firstCell.world.cellAt.Paired := fun p => by
    rw [show firstCell.world = {} from rfl, World.cellAt_empty]
    decide
  have howners : firstCell.world.cellAt.OwnersIn
      {id | id ∈ firstCell.resourceManager.balances} := fun p => by
    rw [show firstCell.world = {} from rfl, World.cellAt_empty]
    exact Or.inl rfl
  obtain ⟨u, hread, hlisted, -, hagree, -⟩ := playerIds_of_statistics .sorted hpaired howners
    (by decide) (by decide) (liveCount_firstCell_lt .sorted) (shows_firstWindow .sorted)
    sortedPlayers 1 sortedKeys sortedPlayers sortedPlayers
  exact ⟨u, hread, (hlisted 7).mpr (Finmap.mem_insert.mpr (Or.inl rfl)), hagree⟩

end GameServer
end Multilife

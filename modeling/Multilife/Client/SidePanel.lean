import Mathlib.Data.UInt
import Multilife.Client.ClientRuntime
import Multilife.Foundations.Sorting
import Multilife.Foundations.Tally

/-!
# The side panel

`ownerStats` of `WorldModel.cpp`, and `refreshStatsPanel` and `refreshPendingList` of
`GameWindow.cpp`: the texts of the labels and the lines of the two lists.  The loops over the
hash containers take their orders as arguments; `std::sort` puts the lines in an order of their own.

* `ownerStats_congr`, `refreshStatsPanel_congr`, `refreshPendingList_congr`: the orders of the
  containers cannot be seen.
* `mem_ownerStats`: who is listed, and with how many cells.
-/

namespace Multilife.Client

open FiniteMap Sorting

/-! ## The players -/

/-- The comparison of both lists of players: more cells first, then the smaller id. -/
def ranksBefore (lhs rhs : UInt64 × UInt64) : Bool :=
  if lhs.2 = rhs.2 then decide (lhs.1 < rhs.1) else decide (lhs.2 > rhs.2)

namespace WorldModel

/-- The first loop of `ownerStats`. -/
def ownerCounts (order : Traversal CellKey) (m : WorldModel) : Finmap fun _ : UInt64 => UInt64 :=
  (order.order m.aliveCells.keys).foldl
    (fun counts key =>
      match m.aliveCells.lookup key with
      | none => counts
      | some owner => Tally.bump counts owner 1) ∅

/-- `ownerStats`. -/
def ownerStats (order : Traversal CellKey) (owners : Traversal UInt64) (m : WorldModel) :
    List (UInt64 × UInt64) :=
  let counts := m.ownerCounts order
  sorted ranksBefore ((owners.order counts.keys).map fun owner => (owner, Tally.total counts owner))

end WorldModel

/-- The labels and the list of players. -/
structure StatsPanel where
  playerIdLabel : String
  balanceLabel : String
  myCellsLabel : String
  incomeLabel : String
  playersList : List String
  deriving DecidableEq, Repr

namespace GameWindow

/-- The entry of a player in `m_serverPlayers`, or the one `value` returns for a key that is not
there. -/
def snapshotOf (g : GameWindow) (playerId : UInt64) : GameNetworkClient.PlayerSnapshot :=
  (g.serverPlayers.lookup playerId).getD ⟨0, 0, 0⟩

/-- The ids in the order of the list. -/
def playerIds (players : Traversal UInt64) (g : GameWindow) : List UInt64 :=
  sorted (fun lhs rhs => ranksBefore (lhs, (g.snapshotOf lhs).liveCells)
    (rhs, (g.snapshotOf rhs).liveCells)) (players.order g.serverPlayers.keys)

def refreshStatsPanel (order : Traversal CellKey) (players : Traversal UInt64) (g : GameWindow) :
    StatsPanel :=
  let playerIdLabel := arg "Player ID: %1" (toString g.playerId)
  if g.serverPlayers.keys = ∅ then
    let myCells := g.worldModel.liveCellsOwnedBy order g.playerId
    { playerIdLabel := playerIdLabel
      balanceLabel := "Balance: -"
      myCellsLabel := arg "My cells: %1" (toString myCells)
      incomeLabel := arg "Income/tick: %1" (toString myCells)
      playersList := (g.worldModel.ownerStats order players).map fun stats =>
        [toString stats.1, toString stats.2].foldl arg "Player %1 | cells: %2 | balance: ?" }
  else
    let playersList := (g.playerIds players).map fun playerId =>
      let stats := g.snapshotOf playerId
      [toString playerId, toString stats.liveCells, toString stats.balance].foldl arg
        "Player %1 | cells: %2 | balance: %3"
    match g.me with
    | none =>
      { playerIdLabel := playerIdLabel
        balanceLabel := "Balance: 0"
        myCellsLabel := "My cells: 0"
        incomeLabel := "Income/tick: 0"
        playersList := playersList }
    | some me =>
      { playerIdLabel := playerIdLabel
        balanceLabel := arg "Balance: %1" (toString me.balance)
        myCellsLabel := arg "My cells: %1" (toString me.liveCells)
        incomeLabel := arg "Income/tick: %1" (toString me.liveCells)
        playersList := playersList }

/-! ## The pending edits -/

/-- `actionName`. -/
def actionName : EditAction → String
  | .Place => "place"
  | .Remove => "remove"
  | .Toggle => "toggle"

/-- The comparison of the keys: row by row. -/
def keyBefore (lhs rhs : CellKey) : Bool :=
  if lhs.y = rhs.y then decide (lhs.x < rhs.x) else decide (lhs.y < rhs.y)

/-- `refreshPendingList`: the lines of `m_pendingList` and the text of `m_pendingLabel`. -/
def refreshPendingList (order : Traversal CellKey) (g : GameWindow) : List String × String :=
  ((sorted keyBefore (order.order g.pendingEdits.keys)).map fun key =>
      [actionName ((g.pendingEdits.lookup key).getD .Toggle), toString key.x, toString key.y].foldl
        arg "%1 (%2, %3)",
    arg "Pending edits: %1" (toString g.pendingEdits.keys.card))

end GameWindow

/-! ## What is listed -/

theorem strictTotal_ranksBefore : StrictTotal ranksBefore where
  irrefl a := by simp [ranksBefore]
  trans {a b c} hab hbc := by
    simp only [ranksBefore] at *
    split_ifs at * <;> simp only [decide_eq_true_eq, gt_iff_lt, UInt64.lt_iff_toNat_lt,
      ← UInt64.toNat_inj] at * <;> omega
  total {a b} hab := by
    have hne : a.1 ≠ b.1 ∨ a.2 ≠ b.2 := by
      by_contra hsame
      push Not at hsame
      exact hab (Prod.ext hsame.1 hsame.2)
    simp only [ranksBefore]
    split_ifs <;> simp only [decide_eq_true_eq, gt_iff_lt, UInt64.lt_iff_toNat_lt,
      ne_eq, ← UInt64.toNat_inj] at * <;> omega

theorem strictTotal_keyBefore : StrictTotal GameWindow.keyBefore where
  irrefl a := by simp [GameWindow.keyBefore]
  trans {a b c} hab hbc := by
    simp only [GameWindow.keyBefore] at *
    split_ifs at * <;> simp only [decide_eq_true_eq, Int64.lt_iff_toInt_lt,
      ← Int64.toInt_inj] at * <;> omega
  total {a b} hab := by
    have hne : a.x ≠ b.x ∨ a.y ≠ b.y := by
      by_contra hsame
      push Not at hsame
      exact hab (CellKey.ext hsame.1 hsame.2)
    simp only [GameWindow.keyBefore]
    split_ifs <;> simp only [decide_eq_true_eq, Int64.lt_iff_toInt_lt,
      ne_eq, ← Int64.toInt_inj] at * <;> omega

namespace WorldModel

variable (order order' : Traversal CellKey) (owners owners' : Traversal UInt64) (m : WorldModel)

theorem mem_ownerCounts {id : UInt64} :
    id ∈ m.ownerCounts order ↔ ∃ key, m.aliveCells.lookup key = some id := by
  have hbody : ∀ (counts : Finmap fun _ : UInt64 => UInt64) (key : CellKey),
      id ∈ (match m.aliveCells.lookup key with
        | none => counts
        | some owner => Tally.bump counts owner 1) ↔
          id ∈ counts ∨ m.aliveCells.lookup key = some id := by
    intro counts key
    cases m.aliveCells.lookup key with
    | none => simp
    | some owner => simp [or_comm, eq_comm]
  rw [ownerCounts, Tally.mem_foldl hbody]
  simp only [Finmap.notMem_empty, false_or, Traversal.mem_order, Finmap.mem_keys]
  constructor
  · rintro ⟨key, -, hkey⟩
    exact ⟨key, hkey⟩
  · rintro ⟨key, hkey⟩
    exact ⟨key, Finmap.mem_of_lookup_eq_some hkey, hkey⟩

/-- The loop of `liveCellsOwnedBy` adds one for each cell of the owner. -/
theorem liveCellsOwnedBy_eq_sum (id : UInt64) : m.liveCellsOwnedBy order id =
    ((order.order m.aliveCells.keys).map fun key =>
      if m.aliveCells.lookup key = some id then (1 : UInt64) else 0).sum := by
  have hloop : ∀ (l : List CellKey) (count : UInt64),
      l.foldl (fun count key => if m.aliveCells.lookup key = some id then count + 1 else count)
        count = count + (l.map fun key => if m.aliveCells.lookup key = some id then 1 else 0).sum := by
    intro l
    induction l with
    | nil => simp
    | cons key l ih =>
      intro count
      rw [List.foldl_cons, ih, List.map_cons, List.sum_cons]
      split_ifs
      · rw [add_assoc]
      · rw [zero_add]
  rw [liveCellsOwnedBy, hloop, zero_add]

theorem liveCellsOwnedBy_congr (id : UInt64) :
    m.liveCellsOwnedBy order id = m.liveCellsOwnedBy order' id := by
  rw [liveCellsOwnedBy_eq_sum, liveCellsOwnedBy_eq_sum]
  exact ((order.perm order' _).map _).sum_eq

/-- Both loops over the cells count alike. -/
theorem total_ownerCounts (id : UInt64) :
    Tally.total (m.ownerCounts order) id = m.liveCellsOwnedBy order id := by
  have hbody : ∀ (counts : Finmap fun _ : UInt64 => UInt64) (key : CellKey),
      Tally.total (match m.aliveCells.lookup key with
        | none => counts
        | some owner => Tally.bump counts owner 1) id =
          Tally.total counts id + if m.aliveCells.lookup key = some id then 1 else 0 := by
    intro counts key
    cases m.aliveCells.lookup key with
    | none => simp
    | some owner => simp [Tally.total_bump, eq_comm]
  rw [ownerCounts, Tally.total_foldl hbody, liveCellsOwnedBy_eq_sum, Tally.total_empty, zero_add]

/-- **Who is listed**: every owner of a cell, with the number of the owner's cells. -/
theorem mem_ownerStats {id n : UInt64} : (id, n) ∈ m.ownerStats order owners ↔
    (∃ key, m.aliveCells.lookup key = some id) ∧ n = m.liveCellsOwnedBy order id := by
  rw [ownerStats, mem_sorted, List.mem_map]
  simp only [Traversal.mem_order, Finmap.mem_keys, mem_ownerCounts, total_ownerCounts, Prod.mk.injEq]
  constructor
  · rintro ⟨owner, howner, rfl, rfl⟩
    exact ⟨howner, rfl⟩
  · rintro ⟨howner, rfl⟩
    exact ⟨id, howner, rfl, rfl⟩

theorem pairwise_ownerStats :
    (m.ownerStats order owners).Pairwise fun a b => ranksBefore a b = true :=
  strictTotal_ranksBefore.pairwise_sorted ((owners.nodup _).map fun _ _ h => congrArg Prod.fst h)

/-- The orders of the containers cannot be seen. -/
theorem ownerStats_congr : m.ownerStats order owners = m.ownerStats order' owners' := by
  refine strictTotal_ranksBefore.eq_of_pairwise (m.pairwise_ownerStats order owners)
    (m.pairwise_ownerStats order' owners') fun stats => ?_
  rw [← Prod.mk.eta (p := stats), mem_ownerStats, mem_ownerStats, m.liveCellsOwnedBy_congr order order']

end WorldModel

namespace GameWindow

variable (order order' : Traversal CellKey) (players players' : Traversal UInt64) (g : GameWindow)

/-- The comparison of two ids goes by what is listed for them. -/
theorem strictTotal_players : StrictTotal fun lhs rhs : UInt64 =>
    ranksBefore (lhs, (g.snapshotOf lhs).liveCells) (rhs, (g.snapshotOf rhs).liveCells) :=
  strictTotal_ranksBefore.comap fun _ _ h => congrArg Prod.fst h

theorem playerIds_congr : g.playerIds players = g.playerIds players' :=
  g.strictTotal_players.sorted_congr (players.nodup _) (players'.nodup _) fun id => by
    rw [Traversal.mem_order, Traversal.mem_order]

theorem refreshStatsPanel_congr :
    g.refreshStatsPanel order players = g.refreshStatsPanel order' players' := by
  unfold refreshStatsPanel
  rw [g.worldModel.liveCellsOwnedBy_congr order order',
    g.worldModel.ownerStats_congr order order' players players', g.playerIds_congr players players']

theorem refreshPendingList_congr : g.refreshPendingList order = g.refreshPendingList order' := by
  unfold refreshPendingList
  rw [strictTotal_keyBefore.sorted_congr (order.nodup _) (order'.nodup _) fun key => by
    rw [Traversal.mem_order, Traversal.mem_order]]

/-- The list of players with their cells, as it is sorted. -/
theorem pairwise_playerIds :
    ((g.playerIds players).map fun id => (id, (g.snapshotOf id).liveCells)).Pairwise
      fun a b => ranksBefore a b = true :=
  List.pairwise_map.mpr (g.strictTotal_players.pairwise_sorted (players.nodup _))

theorem mem_playerIds {id : UInt64} : id ∈ g.playerIds players ↔ id ∈ g.serverPlayers := by
  rw [playerIds, mem_sorted, Traversal.mem_order, Finmap.mem_keys]

end GameWindow
end Multilife.Client

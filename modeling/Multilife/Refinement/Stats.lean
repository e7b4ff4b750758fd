import Multilife.Refinement.ClientModel
import Multilife.Refinement.Income
import Multilife.Client.ClientParsers

/-!
# Statistics

The statistics of a tick are a message that the server packs field by field and the
client's stream parser reads back (`tryParseServerStatsMessage_encode`).  It lists the
accounts by increasing id with the balance and the live count the tick has just used
(`serializeServerStats_eq`).

The client counts live cells on its own, in its map of the world.  Where the map shows
a plane, both counts are the number of the player's live cells on it
(`liveCellsOwnedBy_of_shows`), so income, statistics and the client agree.
-/

namespace Multilife

open Chunk FiniteMap LittleEndian proto Client Tally Census

/-! ## The message -/

namespace Client

/-- The bytes of an entry. -/
def ServerStatsEntry.encode (e : ServerStatsEntry) : List UInt8 :=
  writeLE e.playerId ++ writeLE e.balance ++ writeLE e.liveCells

/-- The bytes of a message. -/
def ParsedServerStatsMessage.encode (m : ParsedServerStatsMessage) : List UInt8 :=
  [kMsgServerStats] ++ writeLE m.generation ++ writeLE (UInt16.ofNat m.players.length) ++
    m.players.flatMap ServerStatsEntry.encode

@[simp] theorem ServerStatsEntry.length_encode (e : ServerStatsEntry) :
    e.encode.length = kServerStatsEntry := by
  simp only [ServerStatsEntry.encode, List.length_append, length_writeLE]
  rfl

theorem length_flatMap_encode (entries : List ServerStatsEntry) :
    (entries.flatMap ServerStatsEntry.encode).length = entries.length * kServerStatsEntry := by
  induction entries with
  | nil => rfl
  | cons e entries ih => simp [ih, Nat.succ_mul, Nat.add_comm]

@[simp] theorem ParsedServerStatsMessage.length_encode (m : ParsedServerStatsMessage) :
    m.encode.length = kServerStatsHeader + m.players.length * kServerStatsEntry := by
  simp only [ParsedServerStatsMessage.encode, List.length_append, length_writeLE,
    length_flatMap_encode]
  rfl

/-- **The entries read back**, whatever follows them. -/
theorem readStatsEntries_append (entries : List ServerStatsEntry) (rest : List UInt8) :
    readStatsEntries entries.length (entries.flatMap ServerStatsEntry.encode ++ rest) =
      entries := by
  induction entries with
  | nil => rfl
  | cons e entries ih =>
    generalize htail : entries.flatMap ServerStatsEntry.encode ++ rest = tail at ih
    have hcursor : (e :: entries).flatMap ServerStatsEntry.encode ++ rest =
        writeLE e.playerId ++ (writeLE e.balance ++ (writeLE e.liveCells ++ tail)) := by
      rw [← htail]
      simp only [List.flatMap_cons, ServerStatsEntry.encode, List.append_assoc]
    have hdrop : ((e :: entries).flatMap ServerStatsEntry.encode ++ rest).drop kServerStatsEntry =
        tail := by
      rw [← htail, List.flatMap_cons, List.append_assoc, ← e.length_encode, List.drop_left]
    have hid : readLE UInt64 ((e :: entries).flatMap ServerStatsEntry.encode ++ rest) 0 =
        e.playerId := readLE_of_eq [] _ hcursor rfl
    have hbalance : readLE UInt64 ((e :: entries).flatMap ServerStatsEntry.encode ++ rest) 8 =
        e.balance := readLE_of_eq _ _ hcursor (length_writeLE e.playerId)
    have hlive : readLE UInt64 ((e :: entries).flatMap ServerStatsEntry.encode ++ rest) 16 =
        e.liveCells := by
      refine readLE_of_eq (writeLE e.playerId ++ writeLE e.balance) tail ?_ ?_
      · rw [hcursor, List.append_assoc]
      · rw [List.length_append, length_writeLE, length_writeLE]
        rfl
    rw [List.length_cons, readStatsEntries, hdrop, ih, hid, hbalance, hlive]

/-- **A message at the front of the stream is read back**, and what follows it stays in
the buffer. -/
theorem tryParseServerStatsMessage_encode (m : ParsedServerStatsMessage)
    (hm : m.players.length < 65536) (rest : List UInt8) :
    tryParseServerStatsMessage (m.encode ++ rest) = (some m, rest) := by
  have hlen := m.length_encode
  obtain ⟨buffer, hbuffer⟩ : ∃ buffer, m.encode ++ rest = kMsgServerStats :: buffer := ⟨_, rfl⟩
  have hsplit : m.encode ++ rest =
      [kMsgServerStats] ++ (writeLE m.generation ++ (writeLE (UInt16.ofNat m.players.length) ++
        (m.players.flatMap ServerStatsEntry.encode ++ rest))) := by
    simp only [ParsedServerStatsMessage.encode, List.append_assoc]
  have hgeneration : readLE UInt32 (m.encode ++ rest) 1 = m.generation :=
    readLE_of_eq _ _ hsplit rfl
  have hcount : readLE UInt16 (m.encode ++ rest) 5 = UInt16.ofNat m.players.length := by
    refine readLE_of_eq ([kMsgServerStats] ++ writeLE m.generation)
      (m.players.flatMap ServerStatsEntry.encode ++ rest) ?_ ?_
    · rw [hsplit, List.append_assoc]
    · rw [List.length_append, length_writeLE]
      rfl
  have hbody : (m.encode ++ rest).drop kServerStatsHeader =
      m.players.flatMap ServerStatsEntry.encode ++ rest := by
    rw [hsplit, ← List.append_assoc, ← List.append_assoc]
    refine List.drop_left' ?_
    simp only [List.length_append, length_writeLE]
    rfl
  have hplayers : (UInt16.ofNat m.players.length).toNat = m.players.length :=
    UInt16.toNat_ofNat_of_lt' hm
  have hlong := congrArg List.length hbuffer
  rw [List.length_append] at hlong
  have hheader : 0 < kServerStatsHeader := by decide
  rw [hbuffer] at hgeneration hcount hbody ⊢
  rw [tryParseServerStatsMessage]
  dsimp only
  rw [if_neg (by omega), if_neg (fun h => h rfl), hgeneration, hcount, hplayers, hbody,
    readStatsEntries_append, if_neg (by omega), ← hbuffer, ← hlen, List.drop_left]

end Client
/-! ## What the server sends -/

/-- The registered players, as the statistics list them. -/
def listedPlayers (order : Traversal PlayerId) (r : ResourceManager) : List PlayerId :=
  ((r.getPlayerIds order).mergeSort (· ≤ ·)).take 65535

/-- The message the statistics are. -/
def statsMessage (order : Traversal PlayerId) (generation : UInt32) (r : ResourceManager)
    (liveCounts : Finmap fun _ : PlayerId => UInt64) : ParsedServerStatsMessage where
  generation := generation
  players := (listedPlayers order r).map fun id => ⟨id, r.getBalance id, total liveCounts id⟩

variable (order : Traversal PlayerId) (generation : UInt32) (r : ResourceManager)
  (liveCounts : Finmap fun _ : PlayerId => UInt64)

/-- **The server packs this message.** -/
theorem serializeServerStats_eq :
    serializeServerStats order generation r liveCounts =
      (statsMessage order generation r liveCounts).encode := by
  unfold serializeServerStats ParsedServerStatsMessage.encode statsMessage listedPlayers
  rw [List.flatMap_map, List.length_map]
  rfl

/-- **The client reads it back**, with nothing left over. -/
theorem tryParseServerStatsMessage_serializeServerStats :
    tryParseServerStatsMessage (serializeServerStats order generation r liveCounts) =
      (some (statsMessage order generation r liveCounts), []) := by
  have hlen : (statsMessage order generation r liveCounts).players.length < 65536 := by
    simp only [statsMessage, listedPlayers, List.length_map, List.length_take]
    omega
  have h := tryParseServerStatsMessage_encode _ hlen []
  rwa [List.append_nil, ← serializeServerStats_eq] at h

/-- Sorted, the registered ids increase strictly. -/
theorem pairwise_sortedIds : ((r.getPlayerIds order).mergeSort (· ≤ ·)).Pairwise (· < ·) := by
  have hnodup : ((r.getPlayerIds order).mergeSort (· ≤ ·)).Nodup :=
    (List.mergeSort_perm _ _).nodup_iff.mpr (order.nodup _)
  have hsorted : ((r.getPlayerIds order).mergeSort (· ≤ ·)).Pairwise (· ≤ ·) := by
    have h : ((r.getPlayerIds order).mergeSort (· ≤ ·)).Pairwise
        fun a b => decide (a ≤ b) = true :=
      List.pairwise_mergeSort
        (fun a b c hab hbc => decide_eq_true
          ((of_decide_eq_true hab).trans (of_decide_eq_true hbc)))
        (fun a b => by simpa using le_total a b) _
    exact h.imp of_decide_eq_true
  exact (hsorted.and hnodup).imp fun h => lt_of_le_of_ne h.1 h.2

/-- The players are listed by increasing id, none twice. -/
theorem pairwise_listedPlayers : (listedPlayers order r).Pairwise (· < ·) :=
  (pairwise_sortedIds order r).sublist (List.take_sublist _ _)

/-- Up to 65535 players, everybody is listed. -/
theorem mem_listedPlayers (hcard : r.balances.keys.card ≤ 65535) (id : PlayerId) :
    id ∈ listedPlayers order r ↔ id ∈ r.balances := by
  have hlen : (r.getPlayerIds order).length = r.balances.keys.card := by
    rw [ResourceManager.getPlayerIds,
      ← List.toFinset_card_of_nodup (order.nodup r.balances.keys)]
    congr 1
    ext a
    rw [List.mem_toFinset]
    exact order.mem_order _ _
  rw [listedPlayers, List.take_of_length_le (by rw [List.length_mergeSort, hlen]; exact hcard),
    List.mem_mergeSort, ResourceManager.getPlayerIds, order.mem_order, Finmap.mem_keys]

/-! ## The client's own count -/

variable {m : WorldModel} {w : World}

/-- The loop counts the keys of an owner. -/
theorem liveCellsOwnedBy_eq (keys : Traversal CellKey) (m : WorldModel) (id : PlayerId) :
    m.liveCellsOwnedBy keys id = UInt64.ofNat ((keys.order m.aliveCells.keys).countP
      fun k => decide (m.aliveCells.lookup k = some id)) := by
  have hloop : ∀ (l : List CellKey) (n : ℕ),
      l.foldl (fun count key =>
          if m.aliveCells.lookup key = some id then count + 1 else count) (UInt64.ofNat n) =
        UInt64.ofNat (n + l.countP fun k => decide (m.aliveCells.lookup k = some id)) := by
    intro l
    induction l with
    | nil => exact fun n => rfl
    | cons k l ih =>
      intro n
      rw [List.foldl_cons, List.countP_cons]
      by_cases h : m.aliveCells.lookup k = some id
      · simp only [h, if_true, decide_true]
        rw [show UInt64.ofNat n + 1 = UInt64.ofNat (n + 1) from (UInt64.ofNat_add n 1).symm, ih]
        congr 1
        omega
      · simp only [h, if_false, decide_false, Bool.false_eq_true]
        rw [ih, Nat.add_zero]
  have h := hloop (keys.order m.aliveCells.keys) 0
  rwa [Nat.zero_add] at h

/-- **Two counts of one world.**  A client that shows the world counts for a player the
number of the player's live cells on the plane. -/
theorem liveCellsOwnedBy_of_shows (keys : Traversal CellKey) (h : m.Shows w.cellAt)
    (id : PlayerId) : m.liveCellsOwnedBy keys id = UInt64.ofNat (w.cellAt.liveCount id) := by
  have hnodup : ((keys.order m.aliveCells.keys).map CellKey.point).Nodup :=
    (keys.nodup _).map CellKey.point_injective
  have hshown : ∀ k : CellKey, m.aliveCells.lookup k = some id ↔
      (w.cellAt k.point).alive = true ∧ (w.cellAt k.point).owner = id := by
    intro k
    rw [h k, liveOwner]
    split_ifs with halive <;> simp [halive]
  rw [liveCellsOwnedBy_eq, Plane.liveCount, census_eq_countP _ hnodup, List.countP_map]
  · congr 1
    exact List.countP_congr fun k _ => by simp [hshown k]
  · intro p hp
    obtain ⟨k, rfl⟩ := exists_key_of_alive hp.1
    refine List.mem_map_of_mem ((keys.mem_order _ _).mpr (Finmap.mem_keys.mpr ?_))
    exact Finmap.mem_of_lookup_eq_some ((hshown k).mpr hp)

/-! ## Income, statistics and the client agree -/

namespace Plane

/-- Where cells are paired, nobody owns no live cell. -/
theorem Paired.paidCount_eq {g : Plane} (hg : g.Paired) (id : PlayerId) :
    g.paidCount id = g.liveCount id := by
  rw [paidCount]
  split_ifs with hid
  · have hnone : {p | (g p).alive = true ∧ (g p).owner = id} = ∅ :=
      Set.eq_empty_of_forall_notMem fun p hp => (hg p).mp hp.1 (hp.2.trans hid)
    rw [liveCount, census, hnone, Set.ncard_empty]
  · rfl

end Plane

namespace GameServer

variable {g : GameServer} (sched : TickSchedule)

theorem paired_afterCommands (hpaired : g.world.cellAt.Paired)
    (hids : ∀ cmd ∈ g.commandQueue, cmd.playerId ≠ 0) :
    (g.afterCommands sched).1.cellAt.Paired :=
  World.paired_applyCommands (World.paired_simulate sched hpaired) hids

/-- What the tick counts for a player, as a number. -/
theorem toNat_counts (hpaired : g.world.cellAt.Paired)
    (hids : ∀ cmd ∈ g.commandQueue, cmd.playerId ≠ 0) {id : PlayerId}
    (hfit : (g.afterCommands sched).1.cellAt.liveCount id < 2 ^ 64) :
    (total (g.stepWorld sched).2 id).toNat = (g.afterCommands sched).1.cellAt.liveCount id := by
  rw [stepWorld_eq, World.total_totalCounts, (paired_afterCommands sched hpaired hids).paidCount_eq,
    UInt64.toNat_ofNat_of_lt' hfit]

/-- **The award**, to a player whose balance does not wrap. -/
theorem toNat_getBalance_stepWorld (hpaired : g.world.cellAt.Paired)
    (hids : ∀ cmd ∈ g.commandQueue, cmd.playerId ≠ 0) {id : PlayerId}
    (hfit : ((g.afterCommands sched).2.getBalance id).toNat +
      (g.afterCommands sched).1.cellAt.liveCount id * kAliveCellAward.toNat < 2 ^ 64) :
    ((g.stepWorld sched).1.resourceManager.getBalance id).toNat =
      ((g.afterCommands sched).2.getBalance id).toNat +
        (g.afterCommands sched).1.cellAt.liveCount id * kAliveCellAward.toNat := by
  rw [← (paired_afterCommands sched hpaired hids).paidCount_eq id] at hfit ⊢
  exact toNat_getBalance_award sched hfit

/-- **Income and statistics agree with the world the clients see.**  `N id` is the
number of live cells of a player on the plane after the commands of the tick.  The
award raises the balance of every registered player by `N` and touches no other; the
client reads from the statistics every registered player once, by increasing id, with
the new balance and `N`; and `N` is what a client that shows this world counts. -/
theorem income_and_stats (hpaired : g.world.cellAt.Paired)
    (howners : g.world.cellAt.OwnersIn {id | id ∈ g.resourceManager.balances})
    (hcard : g.resourceManager.balances.keys.card ≤ 65535)
    (hids : ∀ cmd ∈ g.commandQueue, cmd.playerId ≠ 0)
    (hfit : ∀ id ∈ g.resourceManager.balances, ((g.afterCommands sched).2.getBalance id).toNat +
      (g.afterCommands sched).1.cellAt.liveCount id * kAliveCellAward.toNat < 2 ^ 64) :
    let N := (g.afterCommands sched).1.cellAt.liveCount
    let before := (g.afterCommands sched).2.balances
    let after := (g.stepWorld sched).1.resourceManager.balances
    (∀ id ∈ g.resourceManager.balances, ∃ b b', before.lookup id = some b ∧
      after.lookup id = some b' ∧ b'.toNat = b.toNat + N id * kAliveCellAward.toNat) ∧
    (∀ id, id ∉ g.resourceManager.balances →
      before.lookup id = none ∧ after.lookup id = none) ∧
    (∀ order, ∃ msg,
      tryParseServerStatsMessage (serializeServerStats order (g.stepWorld sched).1.broadcastSeq
        (g.stepWorld sched).1.resourceManager (g.stepWorld sched).2) = (some msg, []) ∧
      (msg.players.map ServerStatsEntry.playerId).Pairwise (· < ·) ∧
      (∀ id, id ∈ msg.players.map ServerStatsEntry.playerId ↔ id ∈ g.resourceManager.balances) ∧
      ∀ e ∈ msg.players, after.lookup e.playerId = some e.balance ∧
        e.liveCells.toNat = N e.playerId) ∧
    ∀ (keys : Traversal CellKey) (m : WorldModel), m.Shows (g.afterCommands sched).1.cellAt →
      ∀ id ∈ g.resourceManager.balances, (m.liveCellsOwnedBy keys id).toNat = N id := by
  intro N before after
  have hbefore : ∀ id, id ∈ before ↔ id ∈ g.resourceManager.balances :=
    World.mem_balances_applyCommands _
  have hafter : ∀ id, id ∈ after ↔ id ∈ g.resourceManager.balances :=
    mem_balances_stepWorld sched ⟨fun _ => Iff.rfl, howners⟩
  have hsmall : ∀ id ∈ g.resourceManager.balances, N id < 2 ^ 64 := fun id hid => by
    have h := hfit id hid
    rw [show kAliveCellAward.toNat = 1 from rfl, Nat.mul_one] at h
    exact (Nat.le_add_left _ _).trans_lt h
  refine ⟨fun id hid => ?_, fun id hid => ?_, fun order => ?_, fun keys m hm id hid => ?_⟩
  · exact ⟨_, _, lookup_eq_some_total ((hbefore id).mpr hid),
      lookup_eq_some_total ((hafter id).mpr hid),
      toNat_getBalance_stepWorld sched hpaired hids (hfit id hid)⟩
  · exact ⟨Finmap.lookup_eq_none.mpr fun h => hid ((hbefore id).mp h),
      Finmap.lookup_eq_none.mpr fun h => hid ((hafter id).mp h)⟩
  · have hlisted : ∀ id, id ∈ listedPlayers order (g.stepWorld sched).1.resourceManager ↔
        id ∈ g.resourceManager.balances := by
      intro id
      have hkeys : after.keys = g.resourceManager.balances.keys := keys_eq_of_mem_iff hafter
      rw [mem_listedPlayers order _ (by rw [hkeys]; exact hcard)]
      exact hafter id
    have hmap : (statsMessage order (g.stepWorld sched).1.broadcastSeq
        (g.stepWorld sched).1.resourceManager (g.stepWorld sched).2).players.map
          ServerStatsEntry.playerId =
        listedPlayers order (g.stepWorld sched).1.resourceManager := by
      rw [statsMessage, List.map_map]
      exact List.map_id _
    refine ⟨_, tryParseServerStatsMessage_serializeServerStats _ _ _ _, ?_, ?_, ?_⟩
    · rw [hmap]
      exact pairwise_listedPlayers order _
    · rw [hmap]
      exact hlisted
    · intro e he
      obtain ⟨id, hid, rfl⟩ := List.mem_map.mp he
      rw [hlisted] at hid
      exact ⟨lookup_eq_some_total ((hafter id).mpr hid),
        toNat_counts sched hpaired hids (hsmall id hid)⟩
  · rw [liveCellsOwnedBy_of_shows keys hm, UInt64.toNat_ofNat_of_lt' (hsmall id hid)]

/-- Player 7 has an account and has asked for the cell at `(-1, 0)` of the empty
world. -/
def firstCell : GameServer where
  resourceManager := ({} : ResourceManager).addPlayer 7
  commandQueue := [⟨7, .PlaceCell, -1, 0⟩]

theorem mem_firstCell {id : PlayerId} (h : id ∈ firstCell.resourceManager.balances) : id = 7 :=
  (Finmap.mem_insert.mp h).resolve_right Finmap.notMem_empty

theorem afterCommands_firstCell :
    firstCell.afterCommands sched = World.applyCommands ({}, ({} : ResourceManager).addPlayer 7)
      [⟨7, .PlaceCell, -1, 0⟩] := by
  rw [afterCommands, show firstCell.world = {} from rfl, World.simulate_empty]
  rfl

theorem liveCount_firstCell : (firstCell.afterCommands sched).1.cellAt.liveCount 7 = 1 := by
  have h := World.liveCount_update {} (targetOf ⟨7, .PlaceCell, -1, 0⟩)
    { alive := true, owner := 7 } 7
  have hempty : ({} : World).cellAt.liveCount 7 = 0 := by
    have hnone : {p | (({} : World).cellAt p).alive = true ∧ (({} : World).cellAt p).owner = 7} = ∅ :=
      Set.eq_empty_of_forall_notMem fun p hp => by simp at hp
    rw [Plane.liveCount, census, hnone, Set.ncard_empty]
  rw [hempty, World.cellAt_empty] at h
  have hplaced : World.placed ({}, ({} : ResourceManager).addPlayer 7) ⟨7, .PlaceCell, -1, 0⟩ = true := by
    rw [World.placed, World.cellAt_empty]
    decide
  rw [afterCommands_firstCell, World.applyCommands_cons, World.applyCommands_nil,
    (World.applyCommand_placed hplaced).1]
  simpa using h

/-- The award of the first cell: the balance is 10 - 2 + 1. -/
theorem income_and_stats_firstCell :
    (firstCell.stepWorld .sorted).1.resourceManager.balances.lookup 7 = some 9 := by
  have hbalance : (firstCell.afterCommands .sorted).2.balances.lookup 7 = some 8 := by
    rw [afterCommands_firstCell]
    decide
  have hpaired : firstCell.world.cellAt.Paired := fun p => by
    rw [show firstCell.world = {} from rfl, World.cellAt_empty]
    decide
  have howners : firstCell.world.cellAt.OwnersIn
      {id | id ∈ firstCell.resourceManager.balances} := fun p => by
    rw [show firstCell.world = {} from rfl, World.cellAt_empty]
    exact Or.inl rfl
  obtain ⟨b, b', hb, hb', hsum⟩ := (income_and_stats .sorted hpaired howners (by decide) (by decide)
    fun id hid => by
      rw [mem_firstCell hid, liveCount_firstCell, ResourceManager.getBalance, hbalance]
      decide).1 7 (Finmap.mem_insert.mpr (Or.inl rfl))
  rw [hbalance] at hb
  cases hb
  rw [liveCount_firstCell] at hsum
  rw [hb', Option.some.injEq]
  exact UInt64.toNat_inj.mp hsum

end GameServer
end Multilife

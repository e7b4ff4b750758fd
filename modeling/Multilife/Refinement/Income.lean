import Mathlib.Data.UInt
import Multilife.Foundations.Tally
import Multilife.Refinement.Economy
import Multilife.Refinement.Owners

/-!
# Income

After the commands of a tick the server counts live cells chunk by chunk and pays for
them.  Both loops are loops of bumps (`Foundations/Tally`), so their result is said by
totals and keys:

* `total_totalCounts`: the total of a player is the number of points of the plane that
  are alive and the player's, modulo the width of the counters.  The chunks list every
  point once (`World.points`), so a point of a border is counted by its own chunk only.
* `mem_totalCounts`: exactly the owners of live cells are counted.
* `getBalance_awardFromLiveCounts`, `mem_awardFromLiveCounts`: what the payment adds,
  and to whom.

`Accounted S g` ties the world to the ledger: the accounts are those of the ids of `S`,
and every cell belongs to nobody or to one of them.  Then the payment meets no id
without an account (`mem_balances_award`).
-/

namespace Multilife

open Chunk FiniteMap Tally Census
open scoped UInt64.CommRing

namespace Plane

/-- The live cells a player is paid for; nobody is paid for cells without owner. -/
noncomputable def paidCount (g : Plane) (id : PlayerId) : ℕ := if id = 0 then 0 else g.liveCount id

end Plane

/-! ## One chunk -/

namespace Chunk

/-- The cell at this place is counted for the player. -/
def countedFor (c : Chunk) (id : PlayerId) (p : ℕ × ℕ) : Bool :=
  isOwnedAlive (c.getCell p.1 p.2) && decide (id = (c.getCell p.1 p.2).owner)

/-- The loop body of `getLiveCountByPlayer` is a bump of the owner's counter. -/
theorem getLiveCountByPlayer_eq (c : Chunk) :
    c.getLiveCountByPlayer =
      innerCells.foldl
        (fun counts p =>
          if isOwnedAlive (c.getCell p.1 p.2) then bump counts (c.getCell p.1 p.2).owner 1
          else counts)
        ∅ := rfl

theorem sum_ite_one (f : ℕ × ℕ → Bool) (l : List (ℕ × ℕ)) :
    (l.map fun p => if f p then (1 : UInt64) else 0).sum = UInt64.ofNat (l.countP f) := by
  induction l with
  | nil => rfl
  | cons p l ih =>
    rw [List.map_cons, List.sum_cons, ih, List.countP_cons]
    split_ifs
    · rw [add_comm, UInt64.ofNat_add]
      rfl
    · rw [zero_add, Nat.add_zero]

/-- **The counter of a player in one chunk.** -/
theorem total_getLiveCountByPlayer (c : Chunk) (id : PlayerId) :
    total c.getLiveCountByPlayer id = UInt64.ofNat (innerCells.countP (c.countedFor id)) := by
  rw [getLiveCountByPlayer_eq, total_foldl (g := fun p => if c.countedFor id p then 1 else 0),
    total_empty, zero_add, sum_ite_one]
  intro m p
  unfold countedFor
  by_cases h : isOwnedAlive (c.getCell p.1 p.2) = true
  · rw [if_pos h, total_bump]
    simp [h]
  · simp [h]

/-- Exactly the owners of live cells have a counter. -/
theorem mem_getLiveCountByPlayer (c : Chunk) (id : PlayerId) :
    id ∈ c.getLiveCountByPlayer ↔ ∃ p ∈ innerCells, c.countedFor id p = true := by
  rw [getLiveCountByPlayer_eq, mem_foldl (P := fun p => c.countedFor id p = true)]
  · exact or_iff_right Finmap.notMem_empty
  · intro m p
    unfold countedFor
    by_cases h : isOwnedAlive (c.getCell p.1 p.2) = true
    · rw [if_pos h, mem_bump, or_comm]
      simp [h]
    · simp [h]

end Chunk

/-! ## The whole world -/

namespace World

/-- The points of all chunks, chunk by chunk and row by row. -/
def points (order : Traversal ChunkCoord) (w : World) : List (ℤ × ℤ) :=
  (w.allChunksWithCoords order).flatMap fun e =>
    innerCells.map fun p => pointOf e.1.toBlock p.1 p.2

variable (order : Traversal ChunkCoord) (w : World)

/-- **No point is listed twice**: the ghost border is not listed, and different chunks
have different points. -/
theorem nodup_points : (w.points order).Nodup := by
  rw [points, List.nodup_flatMap]
  constructor
  · intro e _
    refine nodup_innerCells.map_on fun p hp q hq h => ?_
    obtain ⟨hpx, hpy⟩ := mem_innerCells.mp hp
    obtain ⟨hqx, hqy⟩ := mem_innerCells.mp hq
    obtain ⟨-, hx, hy⟩ := (pointOf_inj hpx hpy hqx hqy).mp h
    exact Prod.ext hx hy
  · refine (List.pairwise_map.mp (w.nodup_allChunksWithCoords order)).imp fun hne q hq hq' => ?_
    obtain ⟨p, hp, rfl⟩ := List.mem_map.mp hq
    obtain ⟨p', hp', h⟩ := List.mem_map.mp hq'
    obtain ⟨hpx, hpy⟩ := mem_innerCells.mp hp
    obtain ⟨hpx', hpy'⟩ := mem_innerCells.mp hp'
    obtain ⟨hblock, -⟩ := (pointOf_inj hpx' hpy' hpx hpy).mp h
    exact hne (ChunkCoord.toBlock_injective hblock).symm

/-- Every point with a live cell is listed. -/
theorem mem_points_of_alive {p : ℤ × ℤ} (h : (w.cellAt p).alive = true) : p ∈ w.points order := by
  obtain ⟨c, chunk, hblock, hchunk, -⟩ := exists_chunk_of_alive h
  rw [points, List.mem_flatMap]
  refine ⟨(c, chunk), mem_allChunksWithCoords.mpr hchunk, List.mem_map.mpr
    ⟨(localX p, localY p), mem_innerCells.mpr ⟨localX_lt p, localY_lt p⟩, ?_⟩⟩
  rw [hblock, pointOf_blockOf]

/-- The plane at a listed point. -/
theorem cellAt_of_mem_allChunks {order : Traversal ChunkCoord} {w : World}
    {e : ChunkCoord × Chunk} (he : e ∈ w.allChunksWithCoords order) {p : ℕ × ℕ}
    (hp : p ∈ innerCells) :
    w.cellAt (pointOf e.1.toBlock p.1 p.2) = e.2.getCell p.1 p.2 := by
  obtain ⟨hx, hy⟩ := mem_innerCells.mp hp
  rw [cellAt_pointOf w e.1 hx hy,
    mem_allChunksWithCoords.mp (show (e.1, e.2) ∈ w.allChunksWithCoords order from he)]
  rfl

/-- **The live cells of a player, chunk by chunk.** -/
theorem paidCount_eq_sum (id : PlayerId) :
    w.cellAt.paidCount id =
      ((w.allChunksWithCoords order).map fun e => innerCells.countP (e.2.countedFor id)).sum := by
  have hcount : ∀ e ∈ w.allChunksWithCoords order, innerCells.countP (e.2.countedFor id) =
      if id = 0 then 0 else (innerCells.map fun p => pointOf e.1.toBlock p.1 p.2).countP
        fun p => decide ((w.cellAt p).alive = true ∧ (w.cellAt p).owner = id) := by
    intro e he
    split_ifs with hid
    · rw [List.countP_eq_zero]
      intro p _ h
      simp only [countedFor, isOwnedAlive, hid, Bool.and_eq_true, bne_iff_ne,
        decide_eq_true_eq] at h
      exact h.1.2 h.2.symm
    · rw [List.countP_map]
      refine List.countP_congr fun p hp => ?_
      simp only [countedFor, isOwnedAlive, Function.comp, cellAt_of_mem_allChunks he hp]
      by_cases howner : (e.2.getCell p.1 p.2).owner = id
      · simp [howner, hid]
      · simp [howner, Ne.symm howner]
  rw [List.map_congr_left hcount, Plane.paidCount]
  split_ifs with hid
  · simp
  · rw [Plane.liveCount, census_eq_countP _ (w.nodup_points order)
      fun p h => w.mem_points_of_alive order h.1, points, List.countP_flatMap]
    rfl

/-! ## The counters -/

variable (sched : TickSchedule)

theorem totalCounts_eq :
    w.totalCounts sched = (w.allChunksWithCoords sched.countChunks).foldl
      (fun totals e => merge sched.countPlayers id totals e.2.getLiveCountByPlayer) ∅ := rfl

/-- **What the tick counts** for a player is the number of the player's live cells on
the plane. -/
theorem total_totalCounts (id : PlayerId) :
    total (w.totalCounts sched) id = UInt64.ofNat (w.cellAt.paidCount id) := by
  rw [totalCounts_eq, total_foldl fun m e => total_merge sched.countPlayers m _ rfl id,
    total_empty, zero_add, paidCount_eq_sum sched.countChunks]
  induction w.allChunksWithCoords sched.countChunks with
  | nil => rfl
  | cons e l ih =>
    rw [List.map_cons, List.sum_cons, ih, List.map_cons, List.sum_cons, UInt64.ofNat_add]
    exact congrArg (· + _) (e.2.total_getLiveCountByPlayer id)

/-- **Exactly the owners of live cells are counted.** -/
theorem mem_totalCounts (id : PlayerId) :
    id ∈ w.totalCounts sched ↔ id ≠ 0 ∧ ∃ p, (w.cellAt p).alive = true ∧ (w.cellAt p).owner = id := by
  rw [totalCounts_eq, mem_foldl fun m e => mem_merge sched.countPlayers m e.2.getLiveCountByPlayer,
    or_iff_right Finmap.notMem_empty]
  simp only [mem_getLiveCountByPlayer, countedFor, isOwnedAlive, Bool.and_eq_true, bne_iff_ne,
    decide_eq_true_eq]
  constructor
  · rintro ⟨e, he, p, hp, ⟨halive, hne⟩, rfl⟩
    exact ⟨hne, _, by rw [cellAt_of_mem_allChunks he hp]; exact ⟨halive, rfl⟩⟩
  · rintro ⟨hne, p, halive, rfl⟩
    obtain ⟨e, he, hp⟩ := List.mem_flatMap.mp (w.mem_points_of_alive sched.countChunks halive)
    obtain ⟨q, hq, rfl⟩ := List.mem_map.mp hp
    rw [cellAt_of_mem_allChunks he hq] at halive hne ⊢
    exact ⟨e, he, q, hq, ⟨halive, hne⟩, rfl⟩

end World

/-! ## The payment -/

namespace ResourceManager

variable (order : Traversal PlayerId) (r : ResourceManager)
  (counts : Finmap fun _ : PlayerId => UInt64) (id : PlayerId)

theorem balances_awardFromLiveCounts :
    (r.awardFromLiveCounts order counts).balances =
      merge order (· * kAliveCellAward) r.balances counts := by
  unfold awardFromLiveCounts merge
  exact (List.foldl_hom ResourceManager.balances fun _ _ => rfl).symm

theorem getBalance_awardFromLiveCounts :
    (r.awardFromLiveCounts order counts).getBalance id =
      r.getBalance id + total counts id * kAliveCellAward := by
  show total _ _ = total _ _ + _
  rw [balances_awardFromLiveCounts, total_merge (f := (· * kAliveCellAward)) order _ _ UInt64.zero_mul]

theorem mem_awardFromLiveCounts :
    id ∈ (r.awardFromLiveCounts order counts).balances ↔ id ∈ r.balances ∨ id ∈ counts := by
  rw [balances_awardFromLiveCounts, mem_merge]

end ResourceManager

/-! ## The award of a tick -/

namespace GameServer

variable (sched : TickSchedule) (g : GameServer)

/-- The world and the ledger after the commands of the tick, before the award. -/
def afterCommands : World × ResourceManager :=
  World.applyCommands (g.world.simulate sched, g.resourceManager) g.commandQueue

/-- A tick counts and pays for the world after its commands. -/
theorem stepWorld_eq :
    g.stepWorld sched =
      ({ world := (g.afterCommands sched).1
         resourceManager := (g.afterCommands sched).2.awardFromLiveCounts sched.award
           ((g.afterCommands sched).1.totalCounts sched)
         commandQueue := []
         cachedFullSnapshot := g.cachedFullSnapshot
         broadcastSeq := g.broadcastSeq + 1 }, (g.afterCommands sched).1.totalCounts sched) := by
  unfold stepWorld afterCommands
  cases g.commandQueue <;> rfl

variable {g : GameServer}

/-- **The award** of a player, where it does not wrap: a unit for every live cell. -/
theorem toNat_getBalance_award {id : PlayerId}
    (hfit : ((g.afterCommands sched).2.getBalance id).toNat +
      (g.afterCommands sched).1.cellAt.paidCount id * kAliveCellAward.toNat < 2 ^ 64) :
    ((g.stepWorld sched).1.resourceManager.getBalance id).toNat =
      ((g.afterCommands sched).2.getBalance id).toNat +
        (g.afterCommands sched).1.cellAt.paidCount id * kAliveCellAward.toNat := by
  have hone : kAliveCellAward.toNat = 1 := rfl
  rw [hone, Nat.mul_one] at hfit ⊢
  have hcount : (total ((g.afterCommands sched).1.totalCounts sched) id).toNat =
      (g.afterCommands sched).1.cellAt.paidCount id := by
    have hsmall : (g.afterCommands sched).1.cellAt.paidCount id < 2 ^ 64 := by omega
    rw [World.total_totalCounts, UInt64.toNat_ofNat_of_lt' hsmall]
  rw [stepWorld_eq, ResourceManager.getBalance_awardFromLiveCounts,
    show kAliveCellAward = 1 from rfl, UInt64.mul_one, UInt64.toNat_add, hcount,
    Nat.mod_eq_of_lt hfit]

variable {S : Set PlayerId}

/-- The accounts are those of `S`, and every owner has one. -/
structure Accounted (S : Set PlayerId) (g : GameServer) : Prop where
  accounts : ∀ id, id ∈ g.resourceManager.balances ↔ id ∈ S
  owners : g.world.cellAt.OwnersIn S

theorem accounted_empty : Accounted ∅ ({} : GameServer) where
  accounts _ := iff_of_false Finmap.notMem_empty (Set.notMem_empty _)
  owners p := Or.inl (by rw [World.cellAt_empty])

/-- After the commands of a tick every owner has an account. -/
theorem ownersIn_afterCommands (sched : TickSchedule) (h : Accounted S g) :
    (g.afterCommands sched).1.cellAt.OwnersIn S :=
  World.ownersIn_applyCommands _ (fun id hid => (h.accounts id).mp hid)
    (World.ownersIn_simulate sched h.owners)

/-- **The award opens no account**, and closes none. -/
theorem mem_balances_award (sched : TickSchedule) (h : Accounted S g) (id : PlayerId) :
    id ∈ ((g.afterCommands sched).2.awardFromLiveCounts sched.award
        ((g.afterCommands sched).1.totalCounts sched)).balances ↔
      id ∈ (g.afterCommands sched).2.balances := by
  rw [ResourceManager.mem_awardFromLiveCounts, World.mem_totalCounts]
  refine or_iff_left_of_imp ?_
  rintro ⟨hne, p, -, rfl⟩
  have hmem := (ownersIn_afterCommands sched h p).resolve_left hne
  exact (World.mem_balances_applyCommands _ _).mpr ((h.accounts _).mpr hmem)

theorem mem_balances_stepWorld (sched : TickSchedule) (h : Accounted S g) (id : PlayerId) :
    id ∈ (g.stepWorld sched).1.resourceManager.balances ↔ id ∈ g.resourceManager.balances := by
  rw [stepWorld_eq]
  exact (mem_balances_award sched h id).trans (World.mem_balances_applyCommands _ _)

end GameServer
end Multilife

import Multilife.Refinement.Stats
import Multilife.System.Accounts
import Multilife.System.Pairing

/-!
# The ledger across reconnects

`addPlayer` writes the starting balance on every handshake, also when the id has an
account already.  So a balance accounts for what its player earned and spent exactly
as long as nobody comes back with a balance other than that one.

* `balance_stepWorld`: a tick moves a balance by the placements, the removals and the
  income of its player.  Cells need not be paired and ids may be `0`.
* `balance_of_run`: so does a run after a handshake, if later handshakes find the
  starting balance.
* `ledgerSurvives_iff`: that is the exact condition.
-/

namespace Multilife

open Chunk FiniteMap Tally Transition

/-! ## One tick -/

namespace World

/-- No removal award of the batch wraps around. -/
def RemovalsFit : World × ResourceManager → List PlayerCommand → Prop :=
  Along applyCommand fun s cmd => removed s cmd = true →
    (s.2.getBalance cmd.playerId).toNat + kRemoveAward.toNat < 2 ^ 64

variable {s : World × ResourceManager} {cmd : PlayerCommand}

/-- **One command** moves the balance of a player by what the player places and removes
with it. -/
theorem balance_applyCommand
    (hfit : removed s cmd = true →
      (s.2.getBalance cmd.playerId).toNat + kRemoveAward.toNat < 2 ^ 64) (id : PlayerId) :
    ((applyCommand s cmd).2.getBalance id).toNat +
        kPlaceCost.toNat * (if cmd.playerId = id ∧ placed s cmd = true then 1 else 0) =
      (s.2.getBalance id).toNat +
        kRemoveAward.toNat * if cmd.playerId = id ∧ removed s cmd = true then 1 else 0 := by
  cases hplaced : placed s cmd with
  | true =>
    obtain ⟨-, b, hb, hcost, hledger⟩ := applyCommand_placed hplaced
    rw [removed_of_placed hplaced, hledger]
    simpa using ResourceManager.toNat_getBalance_spent hb hcost id
  | false =>
    cases hremoved : removed s cmd with
    | true =>
      obtain ⟨-, b, hb, hledger⟩ := applyCommand_removed hremoved
      rw [hledger]
      simpa using ResourceManager.toNat_getBalance_awarded hb (hfit hremoved) id
    | false =>
      have hrefused : accepted s cmd = false := by rw [accepted, hplaced, hremoved, Bool.or_false]
      rw [(applyCommand_refused hrefused).2]
      simp

/-- **A batch.** -/
theorem balance_applyCommands {batch : List PlayerCommand} (hfit : RemovalsFit s batch)
    (id : PlayerId) :
    ((applyCommands s batch).2.getBalance id).toNat +
        kPlaceCost.toNat * count placed id s batch =
      (s.2.getBalance id).toNat + kRemoveAward.toNat * count removed id s batch := by
  induction batch generalizing s with
  | nil => rw [applyCommands_nil, count, count, Nat.mul_zero, Nat.mul_zero]
  | cons cmd batch ih =>
    have hcmd := balance_applyCommand hfit.1 id
    have hbatch := ih hfit.2
    rw [applyCommands_cons, count, count, Nat.mul_add, Nat.mul_add]
    omega

end World

namespace GameServer

variable {g : GameServer}

/-- No award of the tick wraps around. -/
structure AwardsFit (sched : TickSchedule) (g : GameServer) : Prop where
  removals : World.RemovalsFit (g.world.simulate sched, g.resourceManager) g.commandQueue
  income : ∀ id ∈ g.resourceManager.balances, ((g.afterCommands sched).2.getBalance id).toNat +
    (g.afterCommands sched).1.cellAt.paidCount id * kAliveCellAward.toNat < 2 ^ 64

/-- **One tick.** -/
theorem balance_stepWorld {sched : TickSchedule} (hfit : g.AwardsFit sched) {id : PlayerId}
    (hid : id ∈ g.resourceManager.balances) :
    ((g.stepWorld sched).1.resourceManager.getBalance id).toNat + kPlaceCost.toNat *
        World.count World.placed id (g.world.simulate sched, g.resourceManager) g.commandQueue =
      (g.resourceManager.getBalance id).toNat + kRemoveAward.toNat *
        World.count World.removed id (g.world.simulate sched, g.resourceManager) g.commandQueue +
      kAliveCellAward.toNat * (g.afterCommands sched).1.cellAt.paidCount id := by
  have hcommands := World.balance_applyCommands hfit.removals id
  have hincome := toNat_getBalance_award sched (hfit.income id hid)
  rw [← afterCommands] at hcommands
  rw [hincome, mul_comm kAliveCellAward.toNat]
  dsimp only at hcommands
  omega

end GameServer

/-! ## Runs -/

namespace State

variable {s t : State} {id : PlayerId}

/-- How many cells the player pays for in a turn. -/
def placements (id : PlayerId) (s : State) : Label → ℕ
  | .startTick sched => World.count World.placed id
      (s.server.world.simulate sched, s.server.resourceManager) s.server.commandQueue
  | _ => 0

/-- For how many removals the player is paid in a turn. -/
def removals (id : PlayerId) (s : State) : Label → ℕ
  | .startTick sched => World.count World.removed id
      (s.server.world.simulate sched, s.server.resourceManager) s.server.commandQueue
  | _ => 0

/-- For how many live cells the player is paid in a turn. -/
noncomputable def income (id : PlayerId) (s : State) : Label → ℕ
  | .startTick sched => (s.server.afterCommands sched).1.cellAt.paidCount id
  | _ => 0

/-- What a run adds up, turn by turn. -/
def sumOver (amount : State → Label → ℕ) (s : State) (ls : List Label) : ℕ :=
  (collect step (fun s l => [amount s l]) s ls).sum

theorem sumOver_cons {amount : State → Label → ℕ} {l : Label} (h : s.step l = some t)
    (ls : List Label) : sumOver amount s (l :: ls) = amount s l + sumOver amount t ls := by
  rw [sumOver, collect_cons h, List.sum_append, List.sum_singleton]
  rfl

/-- No 64-bit sum of the turn wraps around. -/
def Fits (s : State) : Label → Prop
  | .startTick sched => s.server.AwardsFit sched
  | _ => True

/-- The ids that complete a handshake in a run. -/
def handshakes (s : State) (ls : List Label) : List PlayerId := handshaken (collect step calls s ls)

/-- A handshake under an id with an account finds the starting balance there. -/
def ReturnsUnspent (s : State) (l : Label) : Prop :=
  ∀ id ∈ handshaken (s.calls l), ∀ b,
    s.server.resourceManager.balances.lookup id = some b → b = kStartBalance

/-- **The ledger survives** the run: a later handshake under an id changes no balance,
and from the first one on the balance is what the player started with and was awarded,
less what was spent. -/
structure LedgerSurvives (ls : List Label) : Prop where
  later : ∀ before l after m t, ls = before ++ l :: after → run step {} before = some m →
    m.step l = some t → ∀ id ∈ handshaken (m.calls l), id ∈ handshakes {} before →
      ∀ q, t.server.resourceManager.getBalance q = m.server.resourceManager.getBalance q
  balance : ∀ before l since after m t u, ls = before ++ l :: (since ++ after) →
    run step {} before = some m → m.step l = some t → run step t since = some u →
      ∀ id ∈ handshaken (m.calls l), id ∉ handshakes {} before →
        (u.server.resourceManager.getBalance id).toNat +
            kPlaceCost.toNat * sumOver (placements id) t since =
          kStartBalance.toNat + kRemoveAward.toNat * sumOver (removals id) t since +
            kAliveCellAward.toNat * sumOver (income id) t since

/-! ### One turn -/

/-- **What a turn does to the ledger.** -/
theorem ledger_of_step {l : Label} (h : s.step l = some t) :
    (∃ sched, l = .startTick sched ∧
      t.server.resourceManager = (s.server.stepWorld sched).1.resourceManager) ∨
    ((∀ sched, l ≠ .startTick sched) ∧
      ((∃ id, handshaken (s.calls l) = [id] ∧
          t.server.resourceManager = s.server.resourceManager.addPlayer id) ∨
        handshaken (s.calls l) = [] ∧ t.server.resourceManager = s.server.resourceManager)) := by
  have hserver := server_of_step h
  cases l with
  | startTick sched => exact Or.inl ⟨sched, rfl, congrArg GameServer.resourceManager hserver⟩
  | handshake self buf =>
    refine Or.inr ⟨fun sched => Label.noConfusion, ?_⟩
    rw [hserver, calls]
    cases s.handshakeId self buf with
    | none => exact Or.inr ⟨rfl, rfl⟩
    | some id => exact Or.inl ⟨id, rfl, rfl⟩
  | _ =>
    refine Or.inr ⟨fun sched => Label.noConfusion, Or.inr ⟨rfl, ?_⟩⟩
    rw [hserver]
    rfl

/-- Nothing is paid outside of ticks. -/
theorem amounts_of_not_tick {l : Label} (h : ∀ sched, l ≠ .startTick sched) (id : PlayerId)
    (s : State) :
    placements id s l = 0 ∧ removals id s l = 0 ∧ income id s l = 0 := by
  cases l with
  | startTick sched => exact absurd rfl (h sched)
  | _ => exact ⟨rfl, rfl, rfl⟩

/-- **One turn** moves the balance of a player with an account by what the player earns
and spends in it, unless the player comes back with another balance. -/
theorem balance_step {l : Label} (h : s.step l = some t) (hfit : s.Fits l)
    (hreturn : s.ReturnsUnspent l) (hid : id ∈ s.server.resourceManager.balances) :
    id ∈ t.server.resourceManager.balances ∧
      (t.server.resourceManager.getBalance id).toNat + kPlaceCost.toNat * placements id s l =
        (s.server.resourceManager.getBalance id).toNat + kRemoveAward.toNat * removals id s l +
          kAliveCellAward.toNat * income id s l := by
  rcases ledger_of_step h with ⟨sched, rfl, hledger⟩ | ⟨htick, ⟨q, hq, hledger⟩ | ⟨-, hledger⟩⟩
  · rw [hledger]
    refine ⟨?_, GameServer.balance_stepWorld hfit hid⟩
    rw [GameServer.stepWorld_eq]
    exact (ResourceManager.mem_awardFromLiveCounts _ _ _ id).mpr
      (Or.inl ((World.mem_balances_applyCommands _ _).mpr hid))
  · obtain ⟨hplaced, hremoved, hpaid⟩ := amounts_of_not_tick htick id s
    rw [hledger, hplaced, hremoved, hpaid]
    refine ⟨Finmap.mem_insert.mpr (Or.inr hid), ?_⟩
    have hbalance : (s.server.resourceManager.addPlayer q).getBalance id =
        s.server.resourceManager.getBalance id := by
      rw [ResourceManager.getBalance_addPlayer]
      split_ifs with heq
      · obtain ⟨b, hb⟩ := Finmap.mem_iff.mp hid
        have hstart := hreturn q (by rw [hq]; exact List.mem_singleton_self q) b (heq ▸ hb)
        rw [ResourceManager.getBalance_of_lookup hb, hstart]
      · rfl
    rw [hbalance]
    rfl
  · obtain ⟨hplaced, hremoved, hpaid⟩ := amounts_of_not_tick htick id s
    rw [hledger, hplaced, hremoved, hpaid]
    exact ⟨hid, rfl⟩

/-- **A run.** -/
theorem balance_of_run {ls : List Label} (h : run step s ls = some t)
    (hfit : Always step Fits s ls) (hreturn : Always step ReturnsUnspent s ls)
    (hid : id ∈ s.server.resourceManager.balances) :
    (t.server.resourceManager.getBalance id).toNat +
        kPlaceCost.toNat * sumOver (placements id) s ls =
      (s.server.resourceManager.getBalance id).toNat +
        kRemoveAward.toNat * sumOver (removals id) s ls +
        kAliveCellAward.toNat * sumOver (income id) s ls := by
  induction ls generalizing s with
  | nil =>
    cases h
    rfl
  | cons l ls ih =>
    obtain ⟨m, hm, h⟩ := run_cons_eq_some.mp h
    obtain ⟨hidm, hturn⟩ := balance_step hm hfit.1 hreturn.1 hid
    have hrest := ih h (hfit.2 m hm) (hreturn.2 m hm) hidm
    rw [sumOver_cons hm, sumOver_cons hm, sumOver_cons hm, Nat.mul_add, Nat.mul_add, Nat.mul_add]
    omega

/-! ### The exact condition -/

/-- A handshake sets the balance of its id, and no other. -/
theorem ledger_of_handshaken {l : Label} (h : s.step l = some t)
    (hid : id ∈ handshaken (s.calls l)) :
    t.server.resourceManager = s.server.resourceManager.addPlayer id := by
  rcases ledger_of_step h with ⟨sched, rfl, -⟩ | ⟨-, ⟨q, hq, hledger⟩ | ⟨hnone, -⟩⟩
  · exact absurd hid List.not_mem_nil
  · rw [hq] at hid
    rw [List.mem_singleton.mp hid]
    exact hledger
  · rw [hnone] at hid
    exact absurd hid List.not_mem_nil

/-- A handshake that completes is enabled. -/
theorem exists_step_of_handshaken {l : Label} (hid : id ∈ handshaken (s.calls l)) :
    ∃ t, s.step l = some t := by
  cases l with
  | handshake self buf =>
    rw [calls, handshakeId] at hid
    cases hsession : s.sessionReading .handshake self with
    | none =>
      rw [hsession] at hid
      exact absurd hid List.not_mem_nil
    | some session => exact ⟨_, by rw [step, handshake, hsession, Option.map_some]⟩
  | _ => exact absurd hid List.not_mem_nil

theorem LedgerSurvives.returnsUnspent {ls : List Label} (h : LedgerSurvives ls) :
    Always step ReturnsUnspent {} ls := by
  refine always_iff.mpr fun before l after m hls hm id hid b hb => ?_
  have hbefore := (mem_balances_of_run hm id).mp (Finmap.mem_iff.mpr ⟨b, hb⟩)
  obtain ⟨t, ht⟩ := exists_step_of_handshaken hid
  have hkept := h.later before l after m t hls hm ht id hid hbefore id
  rw [ledger_of_handshaken ht hid, ResourceManager.getBalance_addPlayer, if_pos rfl,
    ResourceManager.getBalance_of_lookup hb] at hkept
  exact hkept.symm

/-- **The ledger survives exactly if players come back unspent.** -/
theorem ledgerSurvives_iff {ls : List Label} (hfit : Always step Fits {} ls) :
    LedgerSurvives ls ↔ Always step ReturnsUnspent {} ls := by
  constructor
  · exact LedgerSurvives.returnsUnspent
  · intro hreturn
    constructor
    · rintro before l after m t rfl hm hstep id hid hbefore q
      have hturn := ((always_append.mp hreturn).2 m hm).1
      rw [ledger_of_handshaken hstep hid, ResourceManager.getBalance_addPlayer]
      split_ifs with heq
      · obtain ⟨b, hb⟩ := Finmap.mem_iff.mp ((mem_balances_of_run hm id).mpr hbefore)
        rw [heq, ResourceManager.getBalance_of_lookup hb, hturn id hid b hb]
      · rfl
    · rintro before l since after m t u rfl hm hstep hu id hid -
      have hledger := ledger_of_handshaken hstep hid
      have hsince : ∀ {P : State → Label → Prop},
          Always step P {} (before ++ l :: (since ++ after)) → Always step P t since :=
        fun h => (always_append.mp (((always_append.mp h).2 m hm).2 t hstep)).1
      have hstart : t.server.resourceManager.getBalance id = kStartBalance := by
        rw [hledger, ResourceManager.getBalance_addPlayer, if_pos rfl]
      rw [← hstart]
      refine balance_of_run hu (hsince hfit) (hsince hreturn) ?_
      rw [hledger]
      exact Finmap.mem_insert.mpr (Or.inl rfl)

/-! ### A player comes back -/

/-- Player 7 connects, places a cell at `(-1, 0)`, and a tick begins. -/
def firstTick : List Label := connectAndSend 7 .PlaceCell (-1) 0 ++ [.startTick .sorted]

theorem run_firstTick :
    ∃ t, run step {} firstTick = some t ∧
      t.server = (GameServer.firstCell.stepWorld .sorted).1 ∧
      t.network = connected 1 ⟨0, 0⟩ 7 {} :=
  ⟨_, run_append.mpr ⟨_, run_connectAndSend 7 .PlaceCell (-1) 0, rfl⟩, rfl, rfl⟩

theorem getBalance_afterCommands_firstCell :
    (GameServer.firstCell.afterCommands .sorted).2.getBalance 7 = 8 := by
  rw [GameServer.afterCommands_firstCell]
  decide

theorem paidCount_firstCell :
    (GameServer.firstCell.afterCommands .sorted).1.cellAt.paidCount 7 = 1 := by
  rw [Plane.paidCount, if_neg (by decide), GameServer.liveCount_firstCell]

theorem awardsFit_firstCell : GameServer.firstCell.AwardsFit .sorted where
  removals := ⟨fun _ => by decide, trivial⟩
  income id hid := by
    rw [GameServer.mem_firstCell hid, getBalance_afterCommands_firstCell, paidCount_firstCell]
    decide

theorem fits_firstTick : Always step Fits {} firstTick := by
  refine always_append.mpr ⟨?_, fun m hm => ?_⟩
  · exact ⟨trivial, fun _ _ => ⟨trivial, fun _ _ => ⟨trivial, fun _ _ => trivial⟩⟩⟩
  · rw [run_connectAndSend] at hm
    cases hm
    exact ⟨awardsFit_firstCell, fun _ _ => trivial⟩

/-- A first handshake finds no account. -/
theorem ledgerSurvives_firstTick : LedgerSurvives firstTick := by
  refine (ledgerSurvives_iff fits_firstTick).mpr ⟨?_, fun s hs => ⟨?_, fun s _ => ⟨?_, fun s _ =>
    ⟨?_, fun s _ => trivial⟩⟩⟩⟩
  · exact fun id hid => absurd hid List.not_mem_nil
  · cases hs
    intro id _ b hb
    cases hb
  · exact fun id hid => absurd hid List.not_mem_nil
  · exact fun id hid => absurd hid List.not_mem_nil

/-- **Coming back refills the account.**  After the first tick the balance is 9; player 7
connects again, and it is 10. -/
theorem not_ledgerSurvives_reconnect :
    ¬ ∀ ls, Always step Fits {} ls → LedgerSurvives ls := by
  intro hclaim
  obtain ⟨t, ht, hserver, hnetwork⟩ := run_firstTick
  have hself : 2 ∉ t.network.objects := by
    rw [hnetwork]
    decide
  have hfits : Always step Fits {} (firstTick ++ connect 2 ⟨0, 1⟩ 7) :=
    always_append.mpr ⟨fits_firstTick, fun m _ => ⟨trivial, fun _ _ => ⟨trivial, fun _ _ => trivial⟩⟩⟩
  have hback := ((always_append.mp (hclaim _ hfits).returnsUnspent).2 t ht).2 _
    (step_accept hself ⟨0, 1⟩)
  have hid : (7 : PlayerId) ∈ handshaken
      (calls { t with network := t.network.accept 2 ⟨0, 1⟩ } (.handshake 2 (handshakeOf 7))) := by
    rw [calls, handshakeId, sessionReading_accepted, Option.bind_some, start_handshakeOf]
    exact List.mem_singleton_self _
  have hbalance : t.server.resourceManager.getBalance 7 = 9 := by
    have hfit := awardsFit_firstCell.income 7 (by decide)
    rw [hserver, ← UInt64.toNat_inj, GameServer.toNat_getBalance_award .sorted hfit,
      getBalance_afterCommands_firstCell, paidCount_firstCell]
    rfl
  rw [ResourceManager.getBalance] at hbalance
  cases hb : t.server.resourceManager.balances.lookup 7 with
  | none =>
    rw [hb] at hbalance
    exact absurd hbalance (by decide)
  | some b =>
    rw [hb, Option.getD_some, hback.1 7 hid b hb] at hbalance
    exact absurd hbalance (by decide)

end State
end Multilife

import Multilife.Refinement.Income
import Multilife.System.Execution

/-!
# Every owner has an account

The server object is entered by calls: the add-player callback of a handshake, the
command callback, and the parts of `onTick`.  A `Call` is one of them with its
arguments, in particular with any player ids; a list of calls is a run.

A handshake adds its id to the set of accounted ids and every other call keeps it
(`accounted_call`), because a placement is paid from an account, a birth copies an
owner, and so the award meets no id without an account.

Every turn of the running server makes at most one call (`server_of_step`), so every
interleaving is a run of calls (`server_of_run`, `accounted_of_run`).
-/

namespace Multilife

open Chunk FiniteMap Transition

/-- A call into the server object. -/
inductive Call where
  | addPlayer (playerId : PlayerId)
  | onCommandsFromNetwork (commands : List PlayerCommand)
  | stepWorld (sched : TickSchedule)
  | refreshFullSnapshotCache (order : Traversal ChunkCoord)
  | serializeDelta (order : Traversal ChunkCoord)

/-- The ids that have completed a handshake. -/
def handshaken (calls : List Call) : List PlayerId :=
  calls.filterMap fun
    | .addPlayer playerId => some playerId
    | _ => none

namespace GameServer

/-- The server after a call. -/
def call (g : GameServer) : Call → GameServer
  | .addPlayer playerId => { g with resourceManager := g.resourceManager.addPlayer playerId }
  | .onCommandsFromNetwork commands => g.onCommandsFromNetwork commands
  | .stepWorld sched => (g.stepWorld sched).1
  | .refreshFullSnapshotCache order => g.refreshFullSnapshotCache order
  | .serializeDelta order => (g.serializeDelta order).2

variable {g : GameServer} {S : Set PlayerId}

/-- **One call.** -/
theorem accounted_call (h : Accounted S g) (c : Call) :
    Accounted (S ∪ {id | id ∈ handshaken [c]}) (g.call c) := by
  have hsame : ∀ c' : Call, handshaken [c'] = [] → S ∪ {id | id ∈ handshaken [c']} = S := by
    intro c' hc'
    rw [hc']
    simp
  cases c with
  | addPlayer playerId =>
    constructor
    · intro id
      simp only [call, ResourceManager.addPlayer, Finmap.mem_insert, h.accounts]
      exact or_comm.trans (or_congr Iff.rfl List.mem_singleton.symm)
    · exact fun p => (h.owners p).imp_right (Set.mem_union_left _)
  | onCommandsFromNetwork commands =>
    rw [hsame _ rfl]
    exact ⟨h.accounts, h.owners⟩
  | stepWorld sched =>
    rw [hsame _ rfl]
    refine ⟨fun id => (mem_balances_stepWorld sched h id).trans (h.accounts id), ?_⟩
    rw [call, stepWorld_eq]
    exact ownersIn_afterCommands sched h
  | refreshFullSnapshotCache order =>
    rw [hsame _ rfl]
    exact ⟨h.accounts, h.owners⟩
  | serializeDelta order =>
    rw [hsame _ rfl]
    refine ⟨h.accounts, ?_⟩
    rw [call, cellAt_serializeDelta]
    exact h.owners

/-- **A run of calls**, from any accounted server. -/
theorem accounted_calls (h : Accounted S g) (calls : List Call) :
    Accounted (S ∪ {id | id ∈ handshaken calls}) (calls.foldl call g) := by
  induction calls generalizing g S with
  | nil => simpa [handshaken] using h
  | cons c calls ih =>
    have hunion : S ∪ {id | id ∈ handshaken (c :: calls)} =
        S ∪ {id | id ∈ handshaken [c]} ∪ {id | id ∈ handshaken calls} := by
      rw [Set.union_assoc]
      congr 1
      ext id
      rw [show c :: calls = [c] ++ calls from rfl, handshaken, List.filterMap_append]
      exact List.mem_append
    rw [hunion, List.foldl_cons]
    exact ih (accounted_call h c)

/-- **Marks stay in their chunks** over every run of calls. -/
theorem marksInChunk_calls (h : g.world.MarksInChunk) (calls : List Call) :
    (calls.foldl call g).world.MarksInChunk := by
  induction calls generalizing g with
  | nil => exact h
  | cons c calls ih =>
    refine ih ?_
    cases c with
    | addPlayer playerId => exact h
    | onCommandsFromNetwork commands => exact h
    | stepWorld sched =>
      rw [call, world_stepWorld]
      exact (World.tracks_applyCommands (World.tracks_simulate sched h.tracks) _).inChunk
    | refreshFullSnapshotCache order => exact h
    | serializeDelta order => exact (clean_serializeDelta order g).tracks.inChunk

/-- **Every owner has an account.**  In every run from the empty world and ledger, the
owner of a cell is 0 or an id that has completed a handshake and has an account; the
award of a tick opens no account; and the ids the ledger lists are exactly those that
have completed a handshake. -/
theorem owners_of_calls (calls : List Call) :
    (∀ c chunk, (calls.foldl call {}).world.tryGetChunk c = some chunk →
      ∀ x y, x < ChunkWidth → y < ChunkHeight →
        (chunk.getCell x y).owner = 0 ∨
          ((chunk.getCell x y).owner ∈ handshaken calls ∧
            (chunk.getCell x y).owner ∈ (calls.foldl call {}).resourceManager.balances)) ∧
    (∀ sched id,
      id ∈ (((calls.foldl call {}).afterCommands sched).2.awardFromLiveCounts sched.award
          (((calls.foldl call {}).afterCommands sched).1.totalCounts sched)).balances ↔
        id ∈ ((calls.foldl call {}).afterCommands sched).2.balances) ∧
    ∀ order id, id ∈ (calls.foldl call {}).resourceManager.getPlayerIds order ↔
      id ∈ handshaken calls := by
  have h := accounted_calls accounted_empty calls
  rw [Set.empty_union] at h
  refine ⟨fun c chunk hchunk x y hx hy => ?_, fun sched => mem_balances_award sched h,
    fun order id => ?_⟩
  · have howner := h.owners (pointOf c.toBlock x y)
    rw [World.cellAt_pointOf _ c hx hy, hchunk] at howner
    exact howner.imp_right fun hmem => ⟨hmem, (h.accounts _).mpr hmem⟩
  · rw [ResourceManager.getPlayerIds, order.mem_order, Finmap.mem_keys]
    exact h.accounts id

end GameServer

/-! ## The running server -/

namespace State

variable {s t : State}

/-- The id a handshake completes with, if the session waits for one. -/
def handshakeId (s : State) (self : SessionPtr) (handshakeBuf : List UInt8) : Option PlayerId :=
  (s.sessionReading .handshake self).bind fun session =>
    (s.network.start self session handshakeBuf).2

/-- The commands the command callback is called with. -/
def delivered (s : State) (self : SessionPtr) (msg : ClientMessage) : List PlayerCommand :=
  ((s.sessionReading .message self).map fun session =>
    (s.network.readNextMessage session msg).2).getD []

/-- The calls a turn makes into the server object: at most one. -/
def calls (s : State) : Label → List Call
  | .startTick sched => [.stepWorld sched]
  | .refreshFullSnapshotCache order => [.refreshFullSnapshotCache order]
  | .serializeDelta order => [.serializeDelta order]
  | .handshake self handshakeBuf => ((s.handshakeId self handshakeBuf).map Call.addPlayer).toList
  | .message self msg => [.onCommandsFromNetwork (s.delivered self msg)]
  | _ => []

/-- **A turn enters the server object by its calls** and in no other way. -/
theorem server_of_step {l : Label} (h : s.step l = some t) :
    t.server = (s.calls l).foldl GameServer.call s.server := by
  cases turn_of_step h with
  | onConnection l t hl =>
    cases l with
    | accept self socket =>
      obtain ⟨-, rfl⟩ := accept_of_step h
      rfl
    | handshake self buf =>
      obtain ⟨session, hsession, rfl⟩ := Option.map_eq_some_iff.mp h
      rw [calls, handshakeId, hsession, Option.bind_some]
      rcases s.network.start self session buf with ⟨network, _ | id⟩
      · rfl
      · rfl
    | message self msg =>
      obtain ⟨session, hsession, rfl⟩ := Option.map_eq_some_iff.mp h
      rw [calls, delivered, hsession]
      rfl
    | readError self =>
      obtain ⟨session, -, -, rfl⟩ := readError_of_step h
      rfl
    | _ => exact absurd hl not_false
  | _ => rfl

/-- A run enters the server object by the calls of its turns. -/
theorem server_of_run {ls : List Label} (h : run step s ls = some t) :
    t.server = (collect step calls s ls).foldl GameServer.call s.server :=
  run_foldl (m := server) (fun _ _ _ hstep => server_of_step hstep) h

/-- **In every interleaving** the accounts are those of the completed handshakes, and
every owner has one. -/
theorem accounted_of_run {ls : List Label} (h : run step {} ls = some t) :
    t.server.Accounted {id | id ∈ handshaken (collect step calls {} ls)} := by
  have haccounted := GameServer.accounted_calls GameServer.accounted_empty (collect step calls {} ls)
  rw [Set.empty_union, ← show t.server = _ from server_of_run h] at haccounted
  exact haccounted

theorem mem_balances_of_run {ls : List Label} (h : run step {} ls = some t) (id : PlayerId) :
    id ∈ t.server.resourceManager.balances ↔ id ∈ handshaken (collect step calls {} ls) :=
  (accounted_of_run h).accounts id

end State
end Multilife

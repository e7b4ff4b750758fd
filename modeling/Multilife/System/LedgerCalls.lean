import Multilife.System.Accounts

/-!
# The ledger, one call at a time

`State.startTick` goes from the drained queue to the award in one turn, and
`State.broadcastServerStats` from the ids of the players to their last balance.  In the program
each of these calls takes the lock of the ledger for itself, and the I/O thread may run between
any two of them.  `LedgerThreads.step` interleaves them: a command makes one call at most, and so
do the award, the list of the ids and each balance.

* `step_change`: a turn of the I/O thread has nothing to do with the world, the phase and what is
  posted behind its handler, and with the ledger only where a handshake completes.
* `whole_step`: so a part of a tick can be taken in one turn where it begins.
* `calls_of_step`: and one turn can be taken call by call.
* `whole_of_run`: the interleavings of single calls in which no handshake completes between the
  first and the last call of a part are those of `State.step`, which the rest of the development
  is about.
-/

namespace Multilife

open FiniteMap LittleEndian proto Transition

/-! ## The calls -/

namespace State

/-- `onTick` up to the first command. -/
def takeCommands (sched : TickSchedule) (s : State) : State :=
  { s with
    server :=
      { s.server with
        broadcastSeq := s.server.broadcastSeq + 1
        commandQueue := []
        world := s.server.world.simulate sched }
    ticks := s.ticks + 1 }

def applyCommand (s : State) (cmd : PlayerCommand) : State :=
  let applied := World.applyCommand (s.server.world, s.server.resourceManager) cmd
  { s with server := { s.server with world := applied.1, resourceManager := applied.2 } }

/-- The live cells are counted and awarded. -/
def awardFromLiveCounts (sched : TickSchedule) (s : State) : State :=
  let totalCounts := s.server.world.totalCounts sched
  { s with
    server :=
      { s.server with
        resourceManager := s.server.resourceManager.awardFromLiveCounts sched.award totalCounts }
    phase := .simulated totalCounts }

/-- The ids whose entries are written. -/
def statsPlayerIds (order : Traversal PlayerId) (s : State) : List PlayerId :=
  ((s.server.resourceManager.getPlayerIds order).mergeSort (· ≤ ·)).take 65535

/-- What is written before the entries. -/
def statsHeader (order : Traversal PlayerId) (s : State) : List UInt8 :=
  [kMsgServerStats] ++ writeLE s.server.broadcastSeq ++
    writeLE (UInt16.ofNat (s.statsPlayerIds order).length)

/-- The entry of a player. -/
def statsEntry (liveCounts : Finmap fun _ : PlayerId => UInt64) (s : State) (playerId : PlayerId) :
    List UInt8 :=
  writeLE playerId ++ writeLE (s.server.resourceManager.getBalance playerId) ++
    writeLE ((liveCounts.lookup playerId).getD 0)

/-- The tick is over, and its statistics are posted. -/
def postServerStats (payload : List UInt8) (s : State) : State :=
  { s with
    phase := .idle
    jobs := if payload.isEmpty then s.jobs else s.jobs ++ [.serverStats payload] }

end State

/-- Where the tick thread is, if it has made some of the calls of a part but not all. -/
inductive TickPart where
  | none
  /-- Between the drained queue and the award, with the commands still to apply. -/
  | applying (sched : TickSchedule) (commands : List PlayerCommand)
  /-- In the loop of `serializeServerStats`, with the ids still to come and what is written. -/
  | serializing (liveCounts : Finmap fun _ : PlayerId => UInt64) (playerIds : List PlayerId)
      (payload : List UInt8)

/-- The server process, with its tick thread between two calls.  Within a part the phase is the
one before it. -/
structure LedgerThreads where
  state : State := {}
  part : TickPart := .none

/-- One turn of one thread. -/
inductive LedgerLabel where
  /-- A turn that is not divided: one of the I/O thread, or another part of the tick. -/
  | turn (l : Label)
  | takeCommands (sched : TickSchedule)
  | applyCommand
  | awardFromLiveCounts
  | getPlayerIds (order : Traversal PlayerId)
  | getBalance
  | broadcastServerStats

namespace LedgerThreads

/-- One turn of one thread, if it is enabled. -/
def step (s : LedgerThreads) : LedgerLabel → Option LedgerThreads
  | .turn (.startTick _) => none
  | .turn (.broadcastServerStats _) => none
  -- the phase keeps the other parts of the tick out of these two
  | .turn l => (s.state.step l).map fun state => { s with state := state }
  | .takeCommands sched =>
    match s.part, s.state.phase with
    | .none, .idle =>
      some ⟨s.state.takeCommands sched, .applying sched s.state.server.commandQueue⟩
    | _, _ => none
  | .applyCommand =>
    match s.part with
    | .applying sched (cmd :: commands) =>
      some ⟨s.state.applyCommand cmd, .applying sched commands⟩
    | _ => none
  | .awardFromLiveCounts =>
    match s.part with
    | .applying sched [] => some ⟨s.state.awardFromLiveCounts sched, .none⟩
    | _ => none
  | .getPlayerIds order =>
    match s.part, s.state.phase with
    | .none, .announced liveCounts => some
      { s with
        part := .serializing liveCounts (s.state.statsPlayerIds order) (s.state.statsHeader order) }
    | _, _ => none
  | .getBalance =>
    match s.part with
    | .serializing liveCounts (playerId :: playerIds) payload => some
      { s with
        part := .serializing liveCounts playerIds
          (payload ++ s.state.statsEntry liveCounts playerId) }
    | _ => none
  | .broadcastServerStats =>
    match s.part with
    | .serializing _ [] payload => some ⟨s.state.postServerStats payload, .none⟩
    | _ => none

/-- What a step does, one constructor for each branch that lets it happen. -/
inductive Turn (s : LedgerThreads) : LedgerLabel → LedgerThreads → Prop where
  | turn (l : Label) (state : State) (hstart : ∀ sched, l ≠ .startTick sched)
      (hstats : ∀ order, l ≠ .broadcastServerStats order) (hstep : s.state.step l = some state) :
    Turn s (.turn l) { s with state := state }
  | takeCommands (sched : TickSchedule) (hpart : s.part = .none) (hphase : s.state.phase = .idle) :
    Turn s (.takeCommands sched)
      ⟨s.state.takeCommands sched, .applying sched s.state.server.commandQueue⟩
  | applyCommand (sched : TickSchedule) (cmd : PlayerCommand) (commands : List PlayerCommand)
      (hpart : s.part = .applying sched (cmd :: commands)) :
    Turn s .applyCommand ⟨s.state.applyCommand cmd, .applying sched commands⟩
  | awardFromLiveCounts (sched : TickSchedule) (hpart : s.part = .applying sched []) :
    Turn s .awardFromLiveCounts ⟨s.state.awardFromLiveCounts sched, .none⟩
  | getPlayerIds (order : Traversal PlayerId) (liveCounts : Finmap fun _ : PlayerId => UInt64)
      (hpart : s.part = .none) (hphase : s.state.phase = .announced liveCounts) :
    Turn s (.getPlayerIds order)
      { s with
        part := .serializing liveCounts (s.state.statsPlayerIds order) (s.state.statsHeader order) }
  | getBalance (liveCounts : Finmap fun _ : PlayerId => UInt64) (playerId : PlayerId)
      (playerIds : List PlayerId) (payload : List UInt8)
      (hpart : s.part = .serializing liveCounts (playerId :: playerIds) payload) :
    Turn s .getBalance
      { s with
        part := .serializing liveCounts playerIds
          (payload ++ s.state.statsEntry liveCounts playerId) }
  | broadcastServerStats (liveCounts : Finmap fun _ : PlayerId => UInt64) (payload : List UInt8)
      (hpart : s.part = .serializing liveCounts [] payload) :
    Turn s .broadcastServerStats ⟨s.state.postServerStats payload, .none⟩

theorem turn_of_step {s t : LedgerThreads} {l : LedgerLabel} (h : s.step l = some t) :
    s.Turn l t := by
  cases l with
  | turn l =>
    cases l with
    | startTick sched => cases h
    | broadcastServerStats order => cases h
    | _ =>
      obtain ⟨state, hstate, rfl⟩ := Option.map_eq_some_iff.mp h
      exact .turn _ state (fun _ => Label.noConfusion) (fun _ => Label.noConfusion) hstate
  | takeCommands sched =>
    simp only [step] at h
    split at h
    · next hpart hphase =>
      cases h
      exact .takeCommands sched hpart hphase
    · cases h
  | applyCommand =>
    simp only [step] at h
    split at h
    · next sched cmd commands hpart =>
      cases h
      exact .applyCommand sched cmd commands hpart
    · cases h
  | awardFromLiveCounts =>
    simp only [step] at h
    split at h
    · next sched hpart =>
      cases h
      exact .awardFromLiveCounts sched hpart
    · cases h
  | getPlayerIds order =>
    simp only [step] at h
    split at h
    · next liveCounts hpart hphase =>
      cases h
      exact .getPlayerIds order liveCounts hpart hphase
    · cases h
  | getBalance =>
    simp only [step] at h
    split at h
    · next liveCounts playerId playerIds payload hpart =>
      cases h
      exact .getBalance liveCounts playerId playerIds payload hpart
    · cases h
  | broadcastServerStats =>
    simp only [step] at h
    split at h
    · next liveCounts payload hpart =>
      cases h
      exact .broadcastServerStats liveCounts payload hpart
    · cases h

end LedgerThreads

/-! ## Beside a tick -/

namespace State

/-- The labels of the I/O thread. -/
def OnIoThread : Label → Prop
  | .runHandler _ => True
  | l => OnConnection l

/-- The turn is no handshake that completes. -/
def Joinless (s : State) : Label → Prop
  | .handshake self handshakeBuf => s.handshakeId self handshakeBuf = none
  | _ => True

/-- What the two parts change: the world, the ledger, the phase and the posted handlers. -/
def change (world : World → World) (resourceManager : ResourceManager → ResourceManager)
    (phase : TickPhase) (jobs : List Job) (s : State) : State :=
  { s with
    server :=
      { s.server with
        world := world s.server.world
        resourceManager := resourceManager s.server.resourceManager }
    phase := phase
    jobs := s.jobs ++ jobs }

/-- What is left of a part: the commands, the live counts and the award. -/
def finishTick (sched : TickSchedule) (commands : List PlayerCommand) (s : State) : State :=
  (commands.foldl applyCommand s).awardFromLiveCounts sched

/-- What is left of a part: the entries and the posting. -/
def finishServerStats (liveCounts : Finmap fun _ : PlayerId => UInt64) (playerIds : List PlayerId)
    (payload : List UInt8) (s : State) : State :=
  s.postServerStats (payload ++ playerIds.flatMap (s.statsEntry liveCounts))

variable {s t : State} {l : Label}

/-! ### Turns of the I/O thread -/

/-- **What a turn of the I/O thread leaves to the tick.** -/
theorem world_of_step (hl : OnIoThread l) (h : s.step l = some t) :
    t.server.world = s.server.world ∧ t.phase = s.phase := by
  have hconnection (hl : OnConnection l) : t.server.world = s.server.world ∧ t.phase = s.phase :=
    have hsame := sameBroadcasts_of_onConnection hl h
    ⟨hsame.world, hsame.phase⟩
  cases l with
  | runHandler order =>
    cases turn_of_step h with
    | handleStats => exact ⟨rfl, rfl⟩
    | handleBroadcast => exact ⟨rfl, rfl⟩
    | onConnection _ _ hl => exact absurd hl not_false
  | _ => exact hconnection hl

/-- The ledger too, if no handshake completes. -/
theorem resourceManager_of_step (hl : OnIoThread l) (hjoin : s.Joinless l) (h : s.step l = some t) :
    t.server.resourceManager = s.server.resourceManager := by
  rw [server_of_step h]
  cases l with
  | handshake self buf =>
    rw [calls, show s.handshakeId self buf = none from hjoin]
    rfl
  | startTick sched => exact absurd hl not_false
  | refreshFullSnapshotCache order => exact absurd hl not_false
  | serializeDelta order => exact absurd hl not_false
  | _ => rfl

/-- **What a turn of the I/O thread does not depend on**: it reads the registries, the first of
the posted handlers and the cached snapshot, and what it adds to the command queue waits for the
next tick.  Only a handshake that completes has to do with the ledger. -/
theorem step_change {world : World → World} {resourceManager : ResourceManager → ResourceManager}
    {phase : TickPhase} {jobs : List Job} (hl : OnIoThread l)
    (hjoin : s.Joinless l ∨ resourceManager = id) (h : s.step l = some t) :
    (s.change world resourceManager phase jobs).step l =
      some (t.change world resourceManager phase jobs) := by
  cases l with
  | runHandler order =>
    cases turn_of_step h with
    | handleStats _ payload rest hjobs =>
      rw [step, runHandler, change, hjobs]
      rfl
    | handleBroadcast _ payload seq tick quiet rest hjobs =>
      rw [step, runHandler, change, hjobs]
      rfl
    | onConnection _ _ hl => exact absurd hl not_false
  | accept self socket =>
    obtain ⟨hself, rfl⟩ := accept_of_step h
    exact if_neg hself
  | handshake self buf =>
    obtain ⟨session, hsession, rfl⟩ := Option.map_eq_some_iff.mp h
    have hchange : (s.change world resourceManager phase jobs).sessionReading .handshake self =
      some session := hsession
    have hnetwork : (s.change world resourceManager phase jobs).network = s.network := rfl
    have hid : s.handshakeId self buf = (s.network.start self session buf).2 := by
      rw [handshakeId, hsession, Option.bind_some]
    rw [Joinless, hid] at hjoin
    rw [step, handshake, hchange, Option.map_some, hnetwork]
    revert hjoin
    rcases s.network.start self session buf with ⟨network, _ | playerId⟩
    · intro _
      rfl
    · intro hjoin
      cases hjoin.resolve_left (Option.some_ne_none playerId)
      rfl
  | message self msg =>
    obtain ⟨session, hsession, rfl⟩ := Option.map_eq_some_iff.mp h
    have hchange : (s.change world resourceManager phase jobs).sessionReading .message self =
      some session := hsession
    rw [step, message, hchange]
    rfl
  | readError self =>
    obtain ⟨session, hself, hpending, rfl⟩ := readError_of_step h
    have hchange : (s.change world resourceManager phase jobs).network.objects.lookup self =
      some session := hself
    rw [step, readError, hchange]
    exact if_neg hpending
  | _ => exact absurd hl not_false

/-- Within a part, the tick thread takes no other turn. -/
theorem onIoThread_of_step
    (hphase : s.phase = .idle ∨ ∃ liveCounts, s.phase = .announced liveCounts)
    (hstart : ∀ sched, l ≠ .startTick sched) (hstats : ∀ order, l ≠ .broadcastServerStats order)
    (h : s.step l = some t) : OnIoThread l := by
  cases turn_of_step h with
  | startTick sched => exact absurd rfl (hstart sched)
  | broadcastServerStats order => exact absurd rfl (hstats order)
  | handleStats => exact trivial
  | handleBroadcast => exact trivial
  | onConnection _ _ hl =>
    cases l with
    | runHandler order => exact trivial
    | _ => exact hl
  | _ => simp_all

/-! ### The two parts -/

theorem foldl_applyCommand (commands : List PlayerCommand) (s : State) :
    commands.foldl applyCommand s =
      { s with
        server :=
          { s.server with
            world := (World.applyCommands (s.server.world, s.server.resourceManager) commands).1
            resourceManager :=
              (World.applyCommands (s.server.world, s.server.resourceManager) commands).2 } } := by
  induction commands generalizing s with
  | nil => rfl
  | cons cmd commands ih =>
    rw [List.foldl_cons, ih]
    rfl

/-- Finishing a tick changes the world, the ledger and the phase. -/
theorem finishTick_eq (sched : TickSchedule) {commands : List PlayerCommand}
    {applied : World × ResourceManager}
    (happlied : World.applyCommands (s.server.world, s.server.resourceManager) commands = applied) :
    s.finishTick sched commands =
      s.change (fun _ => applied.1)
        (fun _ => applied.2.awardFromLiveCounts sched.award (applied.1.totalCounts sched))
        (.simulated (applied.1.totalCounts sched)) [] := by
  rw [finishTick, foldl_applyCommand, happlied, change, List.append_nil]
  rfl

/-- The commands and the award do not meet a turn of the I/O thread. -/
theorem step_finishTick (sched : TickSchedule) (commands : List PlayerCommand)
    (hl : OnIoThread l) (hjoin : s.Joinless l) (h : s.step l = some t) :
    (s.finishTick sched commands).step l = some (t.finishTick sched commands) := by
  have happlied : World.applyCommands (t.server.world, t.server.resourceManager) commands =
      World.applyCommands (s.server.world, s.server.resourceManager) commands := by
    rw [(world_of_step hl h).1, resourceManager_of_step hl hjoin h]
  rw [finishTick_eq sched rfl, finishTick_eq sched happlied]
  exact step_change hl (Or.inl hjoin) h

theorem postServerStats_eq (payload : List UInt8) (s : State) :
    s.postServerStats payload =
      s.change id id .idle (if payload.isEmpty then [] else [.serverStats payload]) := by
  rw [postServerStats, change]
  split_ifs with hempty
  · rw [List.append_nil]
    rfl
  · rfl

/-- The entries and the posting meet a turn of the I/O thread only where a handshake completes
before the last entry. -/
theorem step_finishServerStats (liveCounts : Finmap fun _ : PlayerId => UInt64)
    (playerIds : List PlayerId) (payload : List UInt8) (hl : OnIoThread l)
    (hjoin : playerIds ≠ [] → s.Joinless l) (h : s.step l = some t) :
    (s.finishServerStats liveCounts playerIds payload).step l =
      some (t.finishServerStats liveCounts playerIds payload) := by
  have hentries : playerIds.flatMap (t.statsEntry liveCounts) =
      playerIds.flatMap (s.statsEntry liveCounts) := by
    cases playerIds with
    | nil => rfl
    | cons playerId playerIds =>
      have hledger := resourceManager_of_step hl (hjoin (List.cons_ne_nil _ _)) h
      have hentry : t.statsEntry liveCounts = s.statsEntry liveCounts := by
        funext playerId
        rw [statsEntry, hledger]
        rfl
      rw [hentry]
  rw [finishServerStats, finishServerStats, hentries, postServerStats_eq, postServerStats_eq]
  exact step_change hl (Or.inr rfl) h

/-- A whole tick takes the queue and finishes. -/
theorem startTick_eq (sched : TickSchedule) (hphase : s.phase = .idle) :
    s.step (.startTick sched) =
      some ((s.takeCommands sched).finishTick sched s.server.commandQueue) := by
  rw [step, startTick, hphase, finishTick, foldl_applyCommand]
  dsimp only [GameServer.stepWorld]
  cases s.server.commandQueue with
  | nil => rfl
  | cons cmd commands => rfl

/-- Whole statistics have a header and all entries. -/
theorem broadcastServerStats_eq (order : Traversal PlayerId)
    {liveCounts : Finmap fun _ : PlayerId => UInt64} (hphase : s.phase = .announced liveCounts) :
    s.step (.broadcastServerStats order) =
      some (s.finishServerStats liveCounts (s.statsPlayerIds order) (s.statsHeader order)) := by
  rw [step, broadcastServerStats, hphase]
  rfl

/-- All of a state but the world, the ledger, the phase and handlers posted last. -/
structure AheadOf (s t : State) : Prop where
  network : s.network = t.network
  commandQueue : s.server.commandQueue = t.server.commandQueue
  cachedFullSnapshot : s.server.cachedFullSnapshot = t.server.cachedFullSnapshot
  broadcastSeq : s.server.broadcastSeq = t.server.broadcastSeq
  ticks : s.ticks = t.ticks
  quiet : s.quiet = t.quiet
  sent : s.sent = t.sent
  jobs : t.jobs <+: s.jobs

theorem aheadOf_change (world : World → World) (resourceManager : ResourceManager → ResourceManager)
    (phase : TickPhase) (jobs : List Job) (s : State) :
    (s.change world resourceManager phase jobs).AheadOf s :=
  ⟨rfl, rfl, rfl, rfl, rfl, rfl, rfl, List.prefix_append s.jobs jobs⟩

end State

/-! ## A part in one turn -/

/-- The part has still to do with the ledger. -/
def TickPart.Open : TickPart → Prop
  | .none => False
  | .applying _ _ => True
  | .serializing _ playerIds _ => playerIds ≠ []

namespace LedgerThreads

/-- No handshake completes between the first and the last call of a part. -/
def Undivided (s : LedgerThreads) : LedgerLabel → Prop
  | .turn l => s.part.Open → s.state.Joinless l
  | _ => True

/-- The phase is the one before the part. -/
def Coherent (s : LedgerThreads) : Prop :=
  match s.part with
  | .none => True
  | .applying _ _ => s.state.phase = .idle
  | .serializing liveCounts _ _ => s.state.phase = .announced liveCounts

/-- The server whose tick thread goes through a part in one turn. -/
def whole (s : LedgerThreads) : State :=
  match s.part with
  | .none => s.state
  | .applying sched commands => s.state.finishTick sched commands
  | .serializing liveCounts playerIds payload =>
    s.state.finishServerStats liveCounts playerIds payload

/-- The turns of that server. -/
def wholeTurns (_ : LedgerThreads) : LedgerLabel → List Label
  | .turn l => [l]
  | .takeCommands sched => [.startTick sched]
  | .getPlayerIds order => [.broadcastServerStats order]
  | _ => []

variable {s t : LedgerThreads} {l : LedgerLabel}

theorem onIoThread_of_part {l : Label} {state : State} (hs : s.Coherent) (hpart : s.part ≠ .none)
    (hstart : ∀ sched, l ≠ .startTick sched) (hstats : ∀ order, l ≠ .broadcastServerStats order)
    (hstep : s.state.step l = some state) : State.OnIoThread l := by
  refine State.onIoThread_of_step ?_ hstart hstats hstep
  unfold Coherent at hs
  cases hcase : s.part with
  | none => exact absurd hcase hpart
  | applying sched commands =>
    rw [hcase] at hs
    exact Or.inl hs
  | serializing liveCounts playerIds payload =>
    rw [hcase] at hs
    exact Or.inr ⟨liveCounts, hs⟩

theorem coherent_step (hs : s.Coherent) (h : s.step l = some t) : t.Coherent := by
  cases turn_of_step h with
  | turn l state hstart hstats hstep =>
    have hphase (hpart : s.part ≠ .none) : state.phase = s.state.phase :=
      (State.world_of_step (onIoThread_of_part hs hpart hstart hstats hstep) hstep).2
    unfold Coherent at hs ⊢
    dsimp only
    cases hpart : s.part with
    | none => exact trivial
    | applying sched commands =>
      rw [hpart] at hs hphase
      exact (hphase TickPart.noConfusion).trans hs
    | serializing liveCounts playerIds payload =>
      rw [hpart] at hs hphase
      exact (hphase TickPart.noConfusion).trans hs
  | takeCommands sched hpart hphase => exact hphase
  | applyCommand sched cmd commands hpart =>
    rw [Coherent, hpart] at hs
    exact hs
  | awardFromLiveCounts sched hpart => exact trivial
  | getPlayerIds order liveCounts hpart hphase => exact hphase
  | getBalance liveCounts playerId playerIds payload hpart =>
    rw [Coherent, hpart] at hs
    exact hs
  | broadcastServerStats liveCounts payload hpart => exact trivial

/-- **A step of the calls is a step of whole parts**, or none. -/
theorem whole_step (hs : s.Coherent) (hl : s.Undivided l) (h : s.step l = some t) :
    run State.step s.whole (s.wholeTurns l) = some t.whole := by
  cases turn_of_step h with
  | turn l state hstart hstats hstep =>
    have hthread (hpart : s.part ≠ .none) := onIoThread_of_part hs hpart hstart hstats hstep
    have hjoin : s.part.Open → s.state.Joinless l := hl
    refine run_singleton ?_
    unfold whole
    dsimp only
    cases hpart : s.part with
    | none => exact hstep
    | applying sched commands =>
      rw [hpart] at hthread hjoin
      exact State.step_finishTick sched commands (hthread TickPart.noConfusion) (hjoin trivial) hstep
    | serializing liveCounts playerIds payload =>
      rw [hpart] at hthread hjoin
      exact State.step_finishServerStats liveCounts playerIds payload
        (hthread TickPart.noConfusion) hjoin hstep
  | takeCommands sched hpart hphase =>
    refine run_singleton ?_
    rw [whole, hpart]
    exact State.startTick_eq sched hphase
  | applyCommand sched cmd commands hpart =>
    rw [whole, hpart]
    rfl
  | awardFromLiveCounts sched hpart =>
    rw [whole, hpart]
    rfl
  | getPlayerIds order liveCounts hpart hphase =>
    refine run_singleton ?_
    rw [whole, hpart]
    exact State.broadcastServerStats_eq order hphase
  | getBalance liveCounts playerId playerIds payload hpart =>
    rw [whole, whole, hpart]
    dsimp only [State.finishServerStats]
    rw [List.flatMap_cons, ← List.append_assoc]
    rfl
  | broadcastServerStats liveCounts payload hpart =>
    rw [whole, hpart]
    dsimp only [State.finishServerStats]
    rw [List.flatMap_nil, List.append_nil]
    rfl

theorem aheadOf_whole (s : LedgerThreads) : s.whole.AheadOf s.state := by
  unfold whole
  cases s.part with
  | none => exact ⟨rfl, rfl, rfl, rfl, rfl, rfl, rfl, List.prefix_refl _⟩
  | applying sched commands =>
    dsimp only
    rw [State.finishTick_eq sched rfl]
    exact State.aheadOf_change _ _ _ _ _
  | serializing liveCounts playerIds payload =>
    dsimp only [State.finishServerStats]
    rw [State.postServerStats_eq]
    exact State.aheadOf_change _ _ _ _ _

theorem part_of_turn {l : Label} (h : s.step (.turn l) = some t) : t.part = s.part := by
  cases turn_of_step h with
  | turn => rfl

/-! ## A turn call by call -/

theorem run_applyCommand (sched : TickSchedule) (commands : List PlayerCommand) (s : State) :
    run step ⟨s, .applying sched commands⟩ (List.replicate commands.length .applyCommand) =
      some ⟨commands.foldl State.applyCommand s, .applying sched []⟩ := by
  induction commands generalizing s with
  | nil => rfl
  | cons cmd commands ih => exact ih (s.applyCommand cmd)

theorem run_getBalance (liveCounts : Finmap fun _ : PlayerId => UInt64) (playerIds : List PlayerId)
    (payload : List UInt8) (s : State) :
    run step ⟨s, .serializing liveCounts playerIds payload⟩
        (List.replicate playerIds.length .getBalance) =
      some ⟨s, .serializing liveCounts []
        (payload ++ playerIds.flatMap (s.statsEntry liveCounts))⟩ := by
  induction playerIds generalizing payload with
  | nil =>
    rw [List.flatMap_nil, List.append_nil]
    rfl
  | cons playerId playerIds ih =>
    rw [List.flatMap_cons, ← List.append_assoc]
    exact ih (payload ++ s.statsEntry liveCounts playerId)

/-- The calls of a turn, one after the other. -/
def callsOf (s : State) : Label → List LedgerLabel
  | .startTick sched =>
    .takeCommands sched ::
      (List.replicate s.server.commandQueue.length .applyCommand ++ [.awardFromLiveCounts])
  | .broadcastServerStats order =>
    .getPlayerIds order ::
      (List.replicate (s.statsPlayerIds order).length .getBalance ++ [.broadcastServerStats])
  | l => [.turn l]

theorem step_turn {s : LedgerThreads} {l : Label} {state : State}
    (hstart : ∀ sched, l ≠ .startTick sched) (hstats : ∀ order, l ≠ .broadcastServerStats order)
    (h : s.state.step l = some state) : s.step (.turn l) = some { s with state := state } := by
  cases l with
  | startTick sched => exact absurd rfl (hstart sched)
  | broadcastServerStats order => exact absurd rfl (hstats order)
  | _ => exact Option.map_eq_some_iff.mpr ⟨state, h, rfl⟩

/-- Calls are no turns of the I/O thread. -/
theorem undivided_of_not_turn {l : LedgerLabel} (hl : ∀ l', l ≠ .turn l') (s : LedgerThreads) :
    s.Undivided l := by
  cases l with
  | turn l => exact absurd rfl (hl l)
  | _ => exact trivial

/-- **A turn can be taken call by call.** -/
theorem calls_of_step {s t : State} {l : Label} (h : s.step l = some t) :
    Always step Undivided ⟨s, .none⟩ (callsOf s l) ∧
      run step ⟨s, .none⟩ (callsOf s l) = some ⟨t, .none⟩ ∧
      collect step wholeTurns ⟨s, .none⟩ (callsOf s l) = [l] := by
  cases l with
  | startTick sched =>
    obtain ⟨hphase, rfl⟩ : s.phase = .idle ∧
        (s.takeCommands sched).finishTick sched s.server.commandQueue = t := by
      cases State.turn_of_step h with
      | startTick _ hphase =>
        exact ⟨hphase, Option.some.inj ((State.startTick_eq sched hphase).symm.trans h)⟩
      | onConnection _ _ hl => exact absurd hl not_false
    have htake : step ⟨s, .none⟩ (.takeCommands sched) =
        some ⟨s.takeCommands sched, .applying sched s.server.commandQueue⟩ := by
      simp only [step, hphase]
    have happly := run_applyCommand sched s.server.commandQueue (s.takeCommands sched)
    refine ⟨always_of_forall_mem (fun l hl => undivided_of_not_turn ?_) _,
      run_cons_eq_some.mpr ⟨_, htake, run_concat happly rfl⟩, ?_⟩
    · rintro l rfl
      simp [callsOf] at hl
    · rw [callsOf, collect_cons htake, collect_concat happly .awardFromLiveCounts rfl,
        collect_eq_nil]
      · rfl
      · intro l hl s
        rw [List.eq_of_mem_replicate hl]
        rfl
  | broadcastServerStats order =>
    obtain ⟨liveCounts, hphase⟩ : ∃ liveCounts, s.phase = .announced liveCounts := by
      cases State.turn_of_step h with
      | broadcastServerStats _ liveCounts _ hphase => exact ⟨liveCounts, hphase⟩
      | onConnection _ _ hl => exact absurd hl not_false
    rw [State.broadcastServerStats_eq order hphase] at h
    cases h
    have hids : step ⟨s, .none⟩ (.getPlayerIds order) =
        some ⟨s, .serializing liveCounts (s.statsPlayerIds order) (s.statsHeader order)⟩ := by
      simp only [step, hphase]
    have hbalances := run_getBalance liveCounts (s.statsPlayerIds order) (s.statsHeader order) s
    refine ⟨always_of_forall_mem (fun l hl => undivided_of_not_turn ?_) _,
      run_cons_eq_some.mpr ⟨_, hids, run_concat hbalances rfl⟩, ?_⟩
    · rintro l rfl
      simp [callsOf] at hl
    · rw [callsOf, collect_cons hids, collect_concat hbalances .broadcastServerStats rfl,
        collect_eq_nil]
      · rfl
      · intro l hl s
        rw [List.eq_of_mem_replicate hl]
        rfl
  | _ =>
    have hturn := step_turn (s := ⟨s, .none⟩) (fun _ => Label.noConfusion)
      (fun _ => Label.noConfusion) h
    exact ⟨⟨fun hopen => absurd hopen id, fun _ _ => trivial⟩, run_singleton hturn,
      collect_cons hturn []⟩

theorem calls_of_run {s t : State} {ls : List Label} (h : run State.step s ls = some t) :
    ∃ calls, Always step Undivided ⟨s, .none⟩ calls ∧ run step ⟨s, .none⟩ calls = some ⟨t, .none⟩ ∧
      collect step wholeTurns ⟨s, .none⟩ calls = ls := by
  induction ls generalizing s with
  | nil =>
    cases h
    exact ⟨[], trivial, rfl, rfl⟩
  | cons l ls ih =>
    obtain ⟨s', hs', ht⟩ := run_cons_eq_some.mp h
    obtain ⟨hfirst, hrun, hcollect⟩ := calls_of_step hs'
    obtain ⟨calls, hrest, hruns, hcollects⟩ := ih ht
    refine ⟨callsOf s l ++ calls, always_append.mpr ⟨hfirst, fun m hm => ?_⟩,
      run_append.mpr ⟨_, hrun, hruns⟩, ?_⟩
    · cases Option.some.inj (hrun.symm.trans hm)
      exact hrest
    · rw [collect_append hrun, hcollect, hcollects]
      rfl

/-- **Taking a part of a tick in one turn.**  In every interleaving of the single calls in which
no handshake completes between the first and the last call of a part, the server stands where a
run of whole parts leaves it: between two parts in the same state, and within one in a state that
is ahead by no more than the world, the ledger, the phase and the posted statistics.  And every
run of whole parts is one of single calls. -/
theorem whole_of_run :
    (∀ ls t, Always step Undivided {} ls → run step {} ls = some t →
      run State.step {} (collect step wholeTurns {} ls) = some t.whole ∧
        (t.part = .none → t.whole = t.state) ∧ t.whole.AheadOf t.state) ∧
    ∀ ls s, run State.step {} ls = some s → ∃ calls,
      Always step Undivided {} calls ∧ run step {} calls = some ⟨s, .none⟩ ∧
        collect step wholeTurns {} calls = ls := by
  refine ⟨fun ls t hls h => ⟨?_, fun hpart => ?_, aheadOf_whole t⟩, fun ls s h => calls_of_run h⟩
  · have hcoherent : Coherent {} := trivial
    exact run_collect_of_invariant (fun _ _ _ hs _ => coherent_step hs) (fun _ _ _ => whole_step)
      hcoherent hls h
  · rw [whole, hpart]

/-- A connection is accepted, and a second command read, while a tick applies the first. -/
def acceptedWithin : List LedgerLabel :=
  [.turn (.accept 0 ⟨0, 0⟩), .turn (.handshake 0 (writeLE kMagic ++ writeLE (7 : PlayerId))),
    .turn (.message 0 (.command .PlaceCell 7 3 4)), .takeCommands .sorted,
    .turn (.accept 1 ⟨1, 0⟩), .turn (.message 0 (.command .PlaceCell 7 5 4)), .applyCommand,
    .awardFromLiveCounts]

/-- The whole tick takes place before both. -/
theorem whole_of_run_acceptedWithin : ∃ t : LedgerThreads,
    run State.step {} [.accept 0 ⟨0, 0⟩, .handshake 0 (writeLE kMagic ++ writeLE (7 : PlayerId)),
      .message 0 (.command .PlaceCell 7 3 4), .startTick .sorted, .accept 1 ⟨1, 0⟩,
      .message 0 (.command .PlaceCell 7 5 4)] = some t.whole ∧ t.whole = t.state := by
  obtain ⟨t, ht, hpart⟩ : ∃ t, run step ({} : LedgerThreads) acceptedWithin = some t ∧
      t.part = .none := ⟨_, rfl, rfl⟩
  have hundivided : Always step Undivided {} acceptedWithin :=
    ⟨fun _ => trivial, fun _ hs => ⟨fun hopen => absurd hopen (part_of_turn hs ▸ id),
      fun _ _ => always_of_forall_mem (by simp [Undivided, State.Joinless]) _⟩⟩
  obtain ⟨hrun, hnone, -⟩ := whole_of_run.1 acceptedWithin t hundivided ht
  exact ⟨t, hrun, hnone hpart⟩

end LedgerThreads
end Multilife

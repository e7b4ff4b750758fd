import Multilife.Foundations.Transition
import Multilife.Server.BoostNetworkManager
import Multilife.Server.GameServer

/-!
# The running server

Two threads share the server.  The tick thread goes through the parts of `onTick`
in order; the I/O thread runs the handlers of `m_ioc`, one at a time and in the
order they were posted, and reacts to connections.  A `Label` is one turn of one
thread, so a sequence of labels is an interleaving, and `step` says what the turn
does, if it is enabled.

What happens inside one turn is not interleaved.  The parts of a tick touch state
the I/O thread only reaches through the command queue, the ledger and the cached
snapshot, each behind its own lock.  That splits a tick more finely than here, at
its ledger calls: `startTick` goes from the drained queue over every `trySpend` to
`awardFromLiveCounts` in one turn, and `broadcastServerStats` from `getPlayerIds`
to the last `getBalance`.  Only a handshake changes the ledger from the other
side, so the runs are those in which none adds its player within one of these two
turns; between the turns of a tick it may.  `System/LedgerCalls` takes the two turns
apart.

Three fields are not state of the program but a record of the run: how many ticks
have begun, how many of them had nothing to report, and what has been sent.  A
posted broadcast remembers the tick it belongs to.
-/

namespace Multilife

open FiniteMap Transition

/-- What `m_ioc` holds: the posted handlers. -/
inductive Job where
  /-- `doUdpBroadcast(payload, seq)`, posted by tick number `tick`, when `quiet` of
  the ticks so far had an empty delta. -/
  | worldUpdate (payload : List UInt8) (seq : UInt32) (tick quiet : ℕ)
  /-- The loop of `broadcastServerStats`. -/
  | serverStats (payload : List UInt8)

/-- Where the tick thread is in `onTick`. -/
inductive TickPhase where
  | idle
  | simulated (totalCounts : Finmap fun _ : PlayerId => UInt64)
  | cached (totalCounts : Finmap fun _ : PlayerId => UInt64)
  | serialized (totalCounts : Finmap fun _ : PlayerId => UInt64) (update : List UInt8)
  | announced (totalCounts : Finmap fun _ : PlayerId => UInt64)

/-- A transmission of a broadcast, with the tick and the delta it was posted for. -/
structure Sent where
  tick : ℕ
  quiet : ℕ
  delta : List UInt8
  transmission : BoostNetworkManager.Transmission

/-- The state of the server process. -/
structure State where
  server : GameServer := {}
  network : BoostNetworkManager := {}
  phase : TickPhase := .idle
  jobs : List Job := []
  ticks : ℕ := 0
  quiet : ℕ := 0
  sent : List Sent := []

/-- One turn of one thread. -/
inductive Label where
  /-- `onTick` up to the award. -/
  | startTick (sched : TickSchedule)
  | refreshFullSnapshotCache (order : Traversal ChunkCoord)
  | serializeDelta (order : Traversal ChunkCoord)
  | broadcastWorldUpdate
  | broadcastServerStats (order : Traversal PlayerId)
  /-- The I/O thread runs the first posted handler. -/
  | runHandler (order : Traversal PlayerId)
  /-- A connection is accepted. -/
  | accept (self : SessionPtr) (socket : Endpoint)
  /-- A handshake has been read. -/
  | handshake (self : SessionPtr) (handshakeBuf : List UInt8)
  /-- A message has been read. -/
  | message (self : SessionPtr) (msg : ClientMessage)
  /-- A read fails. -/
  | readError (self : SessionPtr)

namespace State

/-! ## The tick thread -/

def startTick (sched : TickSchedule) (s : State) : Option State :=
  match s.phase with
  | .idle =>
    let tick := s.server.stepWorld sched
    some { s with server := tick.1, phase := .simulated tick.2, ticks := s.ticks + 1 }
  | _ => none

def refreshFullSnapshotCache (order : Traversal ChunkCoord) (s : State) : Option State :=
  match s.phase with
  | .simulated totalCounts =>
    some { s with server := s.server.refreshFullSnapshotCache order, phase := .cached totalCounts }
  | _ => none

def serializeDelta (order : Traversal ChunkCoord) (s : State) : Option State :=
  match s.phase with
  | .cached totalCounts =>
    let update := s.server.serializeDelta order
    some { s with server := update.2, phase := .serialized totalCounts update.1 }
  | _ => none

/-- `if (!update.data.empty()) m_networkManager->broadcastWorldUpdate(update)`. -/
def broadcastWorldUpdate (s : State) : Option State :=
  match s.phase with
  | .serialized totalCounts update =>
    if update.isEmpty then
      some { s with phase := .announced totalCounts, quiet := s.quiet + 1 }
    else
      match s.network.broadcastWorldUpdate update with
      | (network, none) => some { s with network := network, phase := .announced totalCounts }
      | (network, some (payload, seq)) =>
        some
          { s with
            network := network
            phase := .announced totalCounts
            jobs := s.jobs ++ [.worldUpdate payload seq s.ticks s.quiet] }
  | _ => none

def broadcastServerStats (order : Traversal PlayerId) (s : State) : Option State :=
  match s.phase with
  | .announced totalCounts =>
    let payload := serializeServerStats order s.server.broadcastSeq s.server.resourceManager totalCounts
    some
      { s with
        phase := .idle
        jobs := if payload.isEmpty then s.jobs else s.jobs ++ [.serverStats payload] }
  | _ => none

/-! ## The I/O thread -/

def runHandler (order : Traversal PlayerId) (s : State) : Option State :=
  match s.jobs with
  | [] => none
  | .serverStats _ :: jobs => some { s with jobs := jobs }
  | .worldUpdate payload seq tick quiet :: jobs =>
    let broadcast :=
      s.network.doUdpBroadcast order (some s.server.getFullSnapshotForSeq) payload seq
    some
      { s with
        network := broadcast.1
        jobs := jobs
        sent := s.sent ++ broadcast.2.map fun t => ⟨tick, quiet, payload, t⟩ }

/-- A session that waits for the given read. -/
def sessionReading (pending : PendingRead) (self : SessionPtr) (s : State) : Option Session :=
  match s.network.objects.lookup self with
  | none => none
  | some session => if session.pending = pending then some session else none

def accept (self : SessionPtr) (socket : Endpoint) (s : State) : Option State :=
  if self ∈ s.network.objects then none
  else some { s with network := s.network.accept self socket }

/-- The add-player callback is `ResourceManager::addPlayer`. -/
def handshake (self : SessionPtr) (handshakeBuf : List UInt8) (s : State) : Option State :=
  (s.sessionReading .handshake self).map fun session =>
    match s.network.start self session handshakeBuf with
    | (network, none) => { s with network := network }
    | (network, some playerId) =>
      { s with
        network := network
        server := { s.server with resourceManager := s.server.resourceManager.addPlayer playerId } }

def message (self : SessionPtr) (msg : ClientMessage) (s : State) : Option State :=
  (s.sessionReading .message self).map fun session =>
    let received := s.network.readNextMessage session msg
    { s with
      network := received.1
      server := s.server.onCommandsFromNetwork received.2 }

def readError (self : SessionPtr) (s : State) : Option State :=
  match s.network.objects.lookup self with
  | none => none
  | some session =>
    if session.pending = .none then none
    else some { s with network := s.network.readError self session }

/-! ## The system -/

/-- One turn of one thread, if it is enabled. -/
def step (s : State) : Label → Option State
  | .startTick sched => s.startTick sched
  | .refreshFullSnapshotCache order => s.refreshFullSnapshotCache order
  | .serializeDelta order => s.serializeDelta order
  | .broadcastWorldUpdate => s.broadcastWorldUpdate
  | .broadcastServerStats order => s.broadcastServerStats order
  | .runHandler order => s.runHandler order
  | .accept self socket => s.accept self socket
  | .handshake self handshakeBuf => s.handshake self handshakeBuf
  | .message self msg => s.message self msg
  | .readError self => s.readError self

/-! ## What a turn does -/

/-- What reacting to a connection leaves alone: everything that ticks and broadcasts
read, but for the ledger, the command queue and the registries. -/
structure SameBroadcasts (s s' : State) : Prop where
  world : s'.server.world = s.server.world
  cachedFullSnapshot : s'.server.cachedFullSnapshot = s.server.cachedFullSnapshot
  broadcastSeq : s'.server.broadcastSeq = s.server.broadcastSeq
  seqNum : s'.network.seqNum = s.network.seqNum
  phase : s'.phase = s.phase
  jobs : s'.jobs = s.jobs
  ticks : s'.ticks = s.ticks
  quiet : s'.quiet = s.quiet
  sent : s'.sent = s.sent

/-- The labels of connections. -/
def OnConnection : Label → Prop
  | .accept _ _ | .handshake _ _ | .message _ _ | .readError _ => True
  | _ => False

/-- Everything a turn can do, with what it has checked. -/
inductive Turn (s : State) : Label → State → Prop
  | startTick (sched : TickSchedule) (hphase : s.phase = .idle) :
      Turn s (.startTick sched)
        { s with
          server := (s.server.stepWorld sched).1
          phase := .simulated (s.server.stepWorld sched).2
          ticks := s.ticks + 1 }
  | refreshFullSnapshotCache (order : Traversal ChunkCoord)
      (counts : Finmap fun _ : PlayerId => UInt64) (hphase : s.phase = .simulated counts) :
      Turn s (.refreshFullSnapshotCache order)
        { s with
          server := s.server.refreshFullSnapshotCache order
          phase := .cached counts }
  | serializeDelta (order : Traversal ChunkCoord) (counts : Finmap fun _ : PlayerId => UInt64)
      (hphase : s.phase = .cached counts) :
      Turn s (.serializeDelta order)
        { s with
          server := (s.server.serializeDelta order).2
          phase := .serialized counts (s.server.serializeDelta order).1 }
  /-- The broadcast is skipped on an empty delta. -/
  | skipBroadcast (counts : Finmap fun _ : PlayerId => UInt64)
      (hphase : s.phase = .serialized counts []) :
      Turn s .broadcastWorldUpdate { s with phase := .announced counts, quiet := s.quiet + 1 }
  /-- The broadcast is counted and posted. -/
  | postBroadcast (counts : Finmap fun _ : PlayerId => UInt64) (update : List UInt8)
      (hphase : s.phase = .serialized counts update) (hne : update ≠ []) :
      Turn s .broadcastWorldUpdate
        { s with
          network := { s.network with seqNum := s.network.seqNum + 1 }
          phase := .announced counts
          jobs := s.jobs ++ [.worldUpdate update (s.network.seqNum + 1) s.ticks s.quiet] }
  | broadcastServerStats (order : Traversal PlayerId)
      (counts : Finmap fun _ : PlayerId => UInt64) (jobs : List Job)
      (hphase : s.phase = .announced counts)
      (hjobs : jobs = [] ∨ ∃ payload, jobs = [.serverStats payload]) :
      Turn s (.broadcastServerStats order) { s with phase := .idle, jobs := s.jobs ++ jobs }
  | handleStats (order : Traversal PlayerId) (payload : List UInt8) (jobs : List Job)
      (hjobs : s.jobs = .serverStats payload :: jobs) :
      Turn s (.runHandler order) { s with jobs := jobs }
  | handleBroadcast (order : Traversal PlayerId) (payload : List UInt8) (seq : UInt32)
      (tick quiet : ℕ) (jobs : List Job)
      (hjobs : s.jobs = .worldUpdate payload seq tick quiet :: jobs) :
      Turn s (.runHandler order)
        { s with
          network := (s.network.doUdpBroadcast order (some s.server.getFullSnapshotForSeq)
            payload seq).1
          jobs := jobs
          sent := s.sent ++ (s.network.doUdpBroadcast order (some s.server.getFullSnapshotForSeq)
            payload seq).2.map fun t => ⟨tick, quiet, payload, t⟩ }
  | onConnection (l : Label) (s' : State) (hl : OnConnection l) (hsame : SameBroadcasts s s')
      (hstep : s.step l = some s') : Turn s l s'

variable {s s' : State}

/-! ### Connections -/

theorem lookup_of_sessionReading {pending : PendingRead} {self : SessionPtr} {session : Session}
    (h : s.sessionReading pending self = some session) :
    s.network.objects.lookup self = some session ∧ session.pending = pending := by
  rw [sessionReading] at h
  cases hlookup : s.network.objects.lookup self with
  | none =>
    rw [hlookup] at h
    cases h
  | some found =>
    rw [hlookup] at h
    dsimp only at h
    split_ifs at h with hpending
    cases h
    exact ⟨rfl, hpending⟩

theorem accept_of_step {self : SessionPtr} {socket : Endpoint}
    (h : s.step (.accept self socket) = some s') :
    self ∉ s.network.objects ∧ s' = { s with network := s.network.accept self socket } := by
  rw [step, accept] at h
  split_ifs at h with hself
  exact ⟨hself, (Option.some.inj h).symm⟩

theorem readError_of_step {self : SessionPtr} (h : s.step (.readError self) = some s') :
    ∃ session, s.network.objects.lookup self = some session ∧ session.pending ≠ .none ∧
      s' = { s with network := s.network.readError self session } := by
  rw [step, readError] at h
  split at h
  · cases h
  · rename_i session hself
    split_ifs at h with hpending
    exact ⟨session, hself, hpending, (Option.some.inj h).symm⟩

/-- What a turn of a connection does to the network manager, with what it has checked. -/
inductive NetworkTurn (m : BoostNetworkManager) : Label → BoostNetworkManager → Prop
  | accept (self : SessionPtr) (socket : Endpoint) (hself : self ∉ m.objects) :
      NetworkTurn m (.accept self socket) (m.accept self socket)
  | handshake (self : SessionPtr) (buf : List UInt8) (session : Session)
      (hself : m.objects.lookup self = some session) (hpending : session.pending = .handshake) :
      NetworkTurn m (.handshake self buf) (m.start self session buf).1
  | resync (self : SessionPtr) (session : Session)
      (hself : m.objects.lookup self = some session) (hpending : session.pending = .message) :
      NetworkTurn m (.message self .resync) (m.setNeedsFullSnapshot session.playerId true)
  /-- A command goes to the callback, and an unknown message nowhere. -/
  | otherMessage (self : SessionPtr) (msg : ClientMessage) (hmsg : msg ≠ .resync) :
      NetworkTurn m (.message self msg) m
  | readError (self : SessionPtr) (session : Session)
      (hself : m.objects.lookup self = some session) (hpending : session.pending ≠ .none) :
      NetworkTurn m (.readError self) (m.readError self session)

/-- **What a connection does to the network manager.** -/
theorem networkTurn_of_step {l : Label} (hl : OnConnection l) (h : s.step l = some s') :
    NetworkTurn s.network l s'.network := by
  cases l with
  | accept self socket =>
    obtain ⟨hself, rfl⟩ := accept_of_step h
    exact NetworkTurn.accept self socket hself
  | handshake self buf =>
    obtain ⟨session, hsession, rfl⟩ := Option.map_eq_some_iff.mp h
    obtain ⟨hself, hpending⟩ := lookup_of_sessionReading hsession
    have hturn := NetworkTurn.handshake self buf session hself hpending
    revert hturn
    rcases s.network.start self session buf with ⟨network, _ | playerId⟩
    · exact id
    · exact id
  | message self msg =>
    obtain ⟨session, hsession, rfl⟩ := Option.map_eq_some_iff.mp h
    obtain ⟨hself, hpending⟩ := lookup_of_sessionReading hsession
    cases msg with
    | resync => exact NetworkTurn.resync self session hself hpending
    | command type cmdPlayer x y =>
      show NetworkTurn _ _ (if _ then _ else _ : BoostNetworkManager × List PlayerCommand).1
      split_ifs <;> exact NetworkTurn.otherMessage self _ ClientMessage.noConfusion
    | unknown msgType => exact NetworkTurn.otherMessage self _ ClientMessage.noConfusion
  | readError self =>
    obtain ⟨session, hself, hpending, rfl⟩ := readError_of_step h
    exact NetworkTurn.readError self session hself hpending
  | _ => exact absurd hl not_false

theorem NetworkTurn.seqNum_eq {m m' : BoostNetworkManager} {l : Label}
    (h : NetworkTurn m l m') : m'.seqNum = m.seqNum := by
  cases h with
  | accept self socket hself => rfl
  | handshake self buf session hself hpending =>
    unfold BoostNetworkManager.start
    dsimp only
    split_ifs <;> rfl
  | resync self session hself hpending =>
    unfold BoostNetworkManager.setNeedsFullSnapshot
    split <;> rfl
  | otherMessage self msg hmsg => rfl
  | readError self session hself hpending =>
    unfold BoostNetworkManager.readError
    split_ifs <;> rfl

/-- **Connections** do not touch the world, the cache, or what is posted. -/
theorem sameBroadcasts_of_onConnection {l : Label} (hl : OnConnection l)
    (h : s.step l = some s') : SameBroadcasts s s' := by
  have hseqNum := (networkTurn_of_step hl h).seqNum_eq
  cases l with
  | accept self socket =>
    obtain ⟨-, rfl⟩ := accept_of_step h
    exact ⟨rfl, rfl, rfl, rfl, rfl, rfl, rfl, rfl, rfl⟩
  | handshake self buf =>
    obtain ⟨session, -, rfl⟩ := Option.map_eq_some_iff.mp h
    revert hseqNum
    rcases s.network.start self session buf with ⟨network, _ | playerId⟩
    · exact fun hseqNum => ⟨rfl, rfl, rfl, hseqNum, rfl, rfl, rfl, rfl, rfl⟩
    · exact fun hseqNum => ⟨rfl, rfl, rfl, hseqNum, rfl, rfl, rfl, rfl, rfl⟩
  | message self msg =>
    obtain ⟨session, -, rfl⟩ := Option.map_eq_some_iff.mp h
    exact ⟨rfl, rfl, rfl, hseqNum, rfl, rfl, rfl, rfl, rfl⟩
  | readError self =>
    obtain ⟨session, -, -, rfl⟩ := readError_of_step h
    exact ⟨rfl, rfl, rfl, hseqNum, rfl, rfl, rfl, rfl, rfl⟩
  | _ => exact absurd hl not_false

theorem turn_of_onConnection {l : Label} (hl : OnConnection l) (h : s.step l = some s') :
    Turn s l s' :=
  Turn.onConnection l s' hl (sameBroadcasts_of_onConnection hl h) h

/-- **What a turn does.** -/
theorem turn_of_step {l : Label} (h : s.step l = some s') : Turn s l s' := by
  cases l with
  | startTick sched =>
    simp only [step, startTick] at h
    split at h
    · rename_i hphase
      rw [← Option.some.inj h]
      exact Turn.startTick sched hphase
    · cases h
  | refreshFullSnapshotCache order =>
    simp only [step, refreshFullSnapshotCache] at h
    split at h
    · rename_i counts hphase
      rw [← Option.some.inj h]
      exact Turn.refreshFullSnapshotCache order counts hphase
    · cases h
  | serializeDelta order =>
    simp only [step, serializeDelta] at h
    split at h
    · rename_i counts hphase
      rw [← Option.some.inj h]
      exact Turn.serializeDelta order counts hphase
    · cases h
  | broadcastWorldUpdate =>
    simp only [step, broadcastWorldUpdate] at h
    split at h
    · rename_i counts update hphase
      cases update with
      | nil =>
        rw [← Option.some.inj h]
        exact Turn.skipBroadcast counts hphase
      | cons b update =>
        rw [← Option.some.inj h]
        exact Turn.postBroadcast counts (b :: update) hphase (List.cons_ne_nil b update)
    · cases h
  | broadcastServerStats order =>
    simp only [step, broadcastServerStats] at h
    split at h
    · rename_i counts hphase
      rw [← Option.some.inj h]
      split_ifs
      · have hturn := Turn.broadcastServerStats order counts [] hphase (Or.inl rfl)
        rw [List.append_nil] at hturn
        exact hturn
      · exact Turn.broadcastServerStats order counts _ hphase (Or.inr ⟨_, rfl⟩)
    · cases h
  | runHandler order =>
    simp only [step, runHandler] at h
    split at h
    · cases h
    · rename_i payload jobs hjobs
      rw [← Option.some.inj h]
      exact Turn.handleStats order payload jobs hjobs
    · rename_i payload seq tick quiet jobs hjobs
      rw [← Option.some.inj h]
      exact Turn.handleBroadcast order payload seq tick quiet jobs hjobs
  | accept self socket => exact turn_of_onConnection (l := .accept self socket) trivial h
  | handshake self buf => exact turn_of_onConnection (l := .handshake self buf) trivial h
  | message self msg => exact turn_of_onConnection (l := .message self msg) trivial h
  | readError self => exact turn_of_onConnection (l := .readError self) trivial h

end State
end Multilife

import Multilife.System.Registry

/-!
# The I/O thread under a call of `stop`

`BoostNetworkManager::stop` on top of the running server: it clears `m_running`, gives up the
work guard, closes the acceptor, closes the socket of every registered session and clears the
registries, and joins the I/O thread.  `m_ioc.run()` returns when no read, no accept and no
posted handler is left.  A read on a socket that `stop` has closed completes with an error; one
on any other socket waits for its peer.

Two things can keep the I/O thread from coming back to `run`.  `remote_endpoint()` throws when
the peer has reset the connection, in the accept handler and at two places of the handshake
handler, and an exception ends the thread.  The handler of `broadcastServerStats` writes to one
session after the other, and a write blocks while its peer does not read; a write that blocks is
not woken by another thread that closes the socket, one that begins after that fails at once.

* `openSockets`: the connections with a read pending.
* `IoThread`: where the I/O thread is, which takes the accept handler and the stats handler apart.
* `Shutdown.step`, `Shutdown.turn_of_step`: the steps, and what a step does.
-/

namespace Multilife

open BoostNetworkManager FiniteMap Transition

namespace BoostNetworkManager

/-- The connections with a pending read. -/
def openSockets (m : BoostNetworkManager) : Finset SessionPtr :=
  m.objects.keys.filter fun c => (m.objects.lookup c).map Session.pending ≠ some .none

/-- The second part of `stop`, under the lock. -/
def closeSessions (m : BoostNetworkManager) : BoostNetworkManager :=
  { m with sessions := ∅, udpEndpoints := ∅ }

/-- The sockets it closes. -/
def registeredSockets (m : BoostNetworkManager) : Finset SessionPtr :=
  m.sessions.keys.biUnion fun id => (m.sessions.lookup id).toFinset

variable {m : BoostNetworkManager} {c : SessionPtr}

theorem mem_openSockets : c ∈ m.openSockets ↔
    ∃ session, m.objects.lookup c = some session ∧ session.pending ≠ .none := by
  rw [openSockets, Finset.mem_filter, Finmap.mem_keys, Finmap.mem_iff]
  constructor
  · rintro ⟨⟨session, hsession⟩, hpending⟩
    exact ⟨session, hsession, fun hnone => hpending (by rw [hsession, Option.map_some, hnone])⟩
  · rintro ⟨session, hsession, hpending⟩
    refine ⟨⟨session, hsession⟩, fun hnone => hpending ?_⟩
    rw [hsession] at hnone
    exact Option.some.inj hnone

theorem mem_registeredSockets : c ∈ m.registeredSockets ↔ ∃ id, m.sessions.lookup id = some c := by
  rw [registeredSockets, Finset.mem_biUnion]
  constructor
  · rintro ⟨id, -, hid⟩
    exact ⟨id, Option.mem_toFinset.mp hid⟩
  · rintro ⟨id, hid⟩
    exact ⟨id, Finmap.mem_keys.mpr (Finmap.mem_iff.mpr ⟨c, hid⟩), Option.mem_toFinset.mpr hid⟩

end BoostNetworkManager

/-- The acceptor: with an `async_accept` pending, closed with its abort still to be handled, or
without one. -/
inductive Acceptor where
  | listening
  | closed
  | done
  deriving DecidableEq

/-- How far `stop` has come: not called, past its `exchange`, past the work guard, past the
acceptor, past the sessions, or returned. -/
inductive StopCall where
  | none
  | exchanged
  | workReset
  | acceptorClosed
  | sessionsClosed
  | returned
  deriving DecidableEq

/-- The call has not closed the acceptor yet. -/
def StopCall.acceptorOpen : StopCall → Bool
  | .none | .exchanged | .workReset => true
  | .acceptorClosed | .sessionsClosed | .returned => false

/-- The call has not closed the sessions yet. -/
def StopCall.sessionsOpen : StopCall → Bool
  | .none | .exchanged | .workReset | .acceptorClosed => true
  | .sessionsClosed | .returned => false

/-- Where the I/O thread is: in `m_ioc.run()` between two handlers; in the accept handler, with a
connection and past the first look at `m_running`, before the second look, or before `doAccept`;
in the loop of a stats handler, before a write or blocked in it; or past `run`, which has returned
or has been left by an exception. -/
inductive IoThread where
  | polling
  | accepting (self : SessionPtr) (socket : Endpoint)
  | rearming
  | armed
  | writing (session : SessionPtr) (rest : List SessionPtr)
  | blocked (session : SessionPtr) (rest : List SessionPtr)
  | returned
  | thrown
  deriving DecidableEq

namespace IoThread

/-- The loop of a stats handler when these sessions are left. -/
def write : List SessionPtr → IoThread
  | [] => .polling
  | session :: rest => .writing session rest

/-- The sessions it has still to begin a write to. -/
def unwritten : IoThread → List SessionPtr
  | .writing session rest => session :: rest
  | .blocked _ rest => rest
  | _ => []

/-- It holds a connection that has no session yet, or is blocked in a write. -/
def occupied : IoThread → Bool
  | .accepting _ _ | .blocked _ _ => true
  | _ => false

/-- How many steps it takes by itself, at most, once the server is not running. -/
def weight : IoThread → ℕ
  | .blocked _ _ | .returned | .thrown => 0
  | .polling => 1
  | .rearming => 2
  | .armed => 3
  | .accepting _ _ => 4
  | .writing _ rest => rest.length + 2

theorem unwritten_write (sessions : List SessionPtr) : (write sessions).unwritten = sessions := by
  cases sessions <;> rfl

theorem weight_write (sessions : List SessionPtr) :
    (write sessions).weight = sessions.length + 1 := by
  cases sessions <;> rfl

theorem occupied_write (sessions : List SessionPtr) : (write sessions).occupied = false := by
  cases sessions <;> rfl

theorem write_ne_returned (sessions : List SessionPtr) : write sessions ≠ .returned := by
  cases sessions <;> simp [write]

end IoThread

namespace State

/-- The sessions that the first posted handler writes to. -/
def statsSessions (order : Traversal PlayerId) (s : State) : List SessionPtr :=
  match s.jobs with
  | .serverStats payload :: _ => (s.network.broadcastServerStats order payload).map Prod.fst
  | _ => []

/-- A handshake handler that `remote_endpoint()` ends, when the player has been added: before the
session is registered, or after that and before its address is. -/
def handshakeThrows (registered : Bool) (self : SessionPtr) (handshakeBuf : List UInt8) (s : State) :
    Option State :=
  (s.sessionReading .handshake self).bind fun session =>
    (s.network.start self session handshakeBuf).2.map fun playerId =>
      { s with
        network :=
          { s.network with
            objects := s.network.objects.insert self
              { socket := session.socket
                playerId := playerId
                handshakeDone := true
                needsFullSnapshot := true
                pending := .none }
            sessions :=
              if registered then s.network.sessions.insert playerId self else s.network.sessions }
        server := { s.server with resourceManager := s.server.resourceManager.addPlayer playerId } }

end State

/-- The server under a call of `stop`, with the sockets it has closed. -/
structure Shutdown where
  state : State := {}
  running : Bool := true
  acceptor : Acceptor := .listening
  ioThread : IoThread := .polling
  aborted : Finset SessionPtr := ∅
  call : StopCall := .none

/-- One turn of one thread. -/
inductive ShutdownLabel where
  /-- A turn of the running server, but for an accept. -/
  | turn (l : Label)
  /-- A read on a closed socket completes. -/
  | aborted (self : SessionPtr)
  /-- The accept completes with a connection while the manager runs. -/
  | accept (self : SessionPtr) (socket : Endpoint)
  /-- The session of this connection is made and waits for its handshake. -/
  | accepted
  /-- `remote_endpoint()` throws in the accept handler. -/
  | acceptThrows
  /-- The accept completes with an error while the manager runs. -/
  | acceptError
  /-- The accept completes with a connection after `m_running` has been cleared. -/
  | acceptRefused
  /-- The accept on the closed acceptor completes. -/
  | acceptAborted
  /-- The last `if (m_running)` of the accept handler. -/
  | checkRunning
  | doAccept
  /-- `remote_endpoint()` throws in the handshake handler. -/
  | handshakeThrows (registered : Bool) (self : SessionPtr) (handshakeBuf : List UInt8)
  /-- A write of the stats handler returns, with an error or not. -/
  | wrote
  | blocks
  /-- The peer of the blocked write has read on, or has gone. -/
  | unblocked
  /-- `m_running.exchange(false)`. -/
  | stop
  | resetWork
  | closeAcceptor
  | closeSessions
  /-- `m_ioc.run()` returns. -/
  | exit
  | join

namespace Shutdown

/-- A turn of the running server.  `GameServer::stop` has joined the tick thread before it calls
`stop` here.  What a broadcast sends after the UDP socket has been closed is lost. -/
def turn (s : Shutdown) (l : Label) : Option Shutdown :=
  match l with
  | .accept _ _ => none
  | .runHandler order =>
    if s.ioThread = .polling then
      (s.state.step (.runHandler order)).map fun state =>
        { s with state := state, ioThread := .write (s.state.statsSessions order) }
    else none
  | .handshake _ _ | .message _ _ | .readError _ =>
    if s.ioThread = .polling then (s.state.step l).map fun state => { s with state := state }
    else none
  | _ =>
    if s.call = .none then (s.state.step l).map fun state => { s with state := state } else none

/-- The turns of the accept handler. -/
def acceptTurn (s : Shutdown) : ShutdownLabel → Option Shutdown
  | .accept self socket =>
    if s.ioThread = .polling ∧ s.acceptor = .listening ∧ s.running = true ∧
        self ∉ s.state.network.objects then
      some { s with acceptor := .done, ioThread := .accepting self socket }
    else none
  | .accepted =>
    match s.ioThread with
    | .accepting self socket =>
      (s.state.step (.accept self socket)).map fun state =>
        { s with state := state, ioThread := .rearming }
    | _ => none
  | .acceptThrows =>
    match s.ioThread with
    | .accepting _ _ => some { s with ioThread := .thrown }
    | _ => none
  | .acceptError =>
    if s.ioThread = .polling ∧ s.acceptor = .listening ∧ s.running = true then
      some { s with acceptor := .done, ioThread := .rearming }
    else none
  | .acceptRefused =>
    if s.ioThread = .polling ∧ s.acceptor = .listening ∧ s.running = false then
      some { s with acceptor := .done }
    else none
  | .acceptAborted =>
    -- with `operation_aborted`, or with a connection that came before
    if s.ioThread = .polling ∧ s.acceptor = .closed ∧ s.running = false then
      some { s with acceptor := .done }
    else none
  | .checkRunning =>
    if s.ioThread = .rearming then
      some { s with ioThread := if s.running then .armed else .polling }
    else none
  | .doAccept =>
    -- on a closed acceptor it completes with an error
    if s.ioThread = .armed then
      some
        { s with
          acceptor := if s.call.acceptorOpen then .listening else .closed
          ioThread := .polling }
    else none
  | _ => none

def step (s : Shutdown) : ShutdownLabel → Option Shutdown
  | .turn l => s.turn l
  | .aborted self =>
    if s.ioThread = .polling ∧ self ∈ s.aborted then
      (s.state.step (.readError self)).map fun state => { s with state := state }
    else none
  | .handshakeThrows registered self handshakeBuf =>
    if s.ioThread = .polling then
      (s.state.handshakeThrows registered self handshakeBuf).map fun state =>
        { s with state := state, ioThread := .thrown }
    else none
  | .wrote =>
    match s.ioThread with
    | .writing _ rest => some { s with ioThread := .write rest }
    | _ => none
  | .blocks =>
    match s.ioThread with
    | .writing session rest =>
      if session ∈ s.aborted then none else some { s with ioThread := .blocked session rest }
    | _ => none
  | .unblocked =>
    match s.ioThread with
    | .blocked _ rest => some { s with ioThread := .write rest }
    | _ => none
  | .stop => if s.call = .none then some { s with running := false, call := .exchanged } else none
  | .resetWork => if s.call = .exchanged then some { s with call := .workReset } else none
  | .closeAcceptor =>
    if s.call = .workReset then
      some
        { s with
          acceptor := if s.acceptor = .listening then .closed else s.acceptor
          call := .acceptorClosed }
    else none
  | .closeSessions =>
    if s.call = .acceptorClosed then
      some
        { s with
          state := { s.state with network := s.state.network.closeSessions }
          aborted := s.state.network.registeredSockets
          call := .sessionsClosed }
    else none
  | .exit =>
    if s.ioThread = .polling ∧ s.call ≠ .none ∧ s.call ≠ .exchanged ∧ s.acceptor = .done ∧
        s.state.jobs.isEmpty = true ∧ s.state.network.openSockets = ∅ then
      some { s with ioThread := .returned }
    else none
  | .join =>
    if s.call = .sessionsClosed ∧ (s.ioThread = .returned ∨ s.ioThread = .thrown) then
      some { s with call := .returned }
    else none
  | l => s.acceptTurn l

/-- The turns of the tick thread. -/
def OnTickThread : Label → Prop
  | .startTick _ | .refreshFullSnapshotCache _ | .serializeDelta _ | .broadcastWorldUpdate
  | .broadcastServerStats _ => True
  | _ => False

/-- What a step does, one constructor for each branch that lets it happen. -/
inductive Turn (s : Shutdown) : ShutdownLabel → Shutdown → Prop where
  | tick (l : Label) (state : State) (hl : OnTickThread l) (hcall : s.call = .none)
      (hstep : s.state.step l = some state) : Turn s (.turn l) { s with state := state }
  | handler (order : Traversal PlayerId) (state : State) (hthread : s.ioThread = .polling)
      (hstep : s.state.step (.runHandler order) = some state) :
    Turn s (.turn (.runHandler order))
      { s with state := state, ioThread := .write (s.state.statsSessions order) }
  | read (l : Label) (state : State) (hl : State.OnConnection l) (hthread : s.ioThread = .polling)
      (hstep : s.state.step l = some state) : Turn s (.turn l) { s with state := state }
  | aborted (self : SessionPtr) (state : State) (hthread : s.ioThread = .polling)
      (hself : self ∈ s.aborted) (hstep : s.state.step (.readError self) = some state) :
    Turn s (.aborted self) { s with state := state }
  | accept (self : SessionPtr) (socket : Endpoint) (hthread : s.ioThread = .polling)
      (hacceptor : s.acceptor = .listening) (hrunning : s.running = true)
      (hself : self ∉ s.state.network.objects) :
    Turn s (.accept self socket) { s with acceptor := .done, ioThread := .accepting self socket }
  | accepted (self : SessionPtr) (socket : Endpoint) (state : State)
      (hthread : s.ioThread = .accepting self socket)
      (hstep : s.state.step (.accept self socket) = some state) :
    Turn s .accepted { s with state := state, ioThread := .rearming }
  | acceptThrows (self : SessionPtr) (socket : Endpoint)
      (hthread : s.ioThread = .accepting self socket) :
    Turn s .acceptThrows { s with ioThread := .thrown }
  | acceptError (hthread : s.ioThread = .polling) (hacceptor : s.acceptor = .listening)
      (hrunning : s.running = true) :
    Turn s .acceptError { s with acceptor := .done, ioThread := .rearming }
  | acceptRefused (hthread : s.ioThread = .polling) (hacceptor : s.acceptor = .listening)
      (hrunning : s.running = false) :
    Turn s .acceptRefused { s with acceptor := .done }
  | acceptAborted (hthread : s.ioThread = .polling) (hacceptor : s.acceptor = .closed)
      (hrunning : s.running = false) :
    Turn s .acceptAborted { s with acceptor := .done }
  | checkRunning (hthread : s.ioThread = .rearming) :
    Turn s .checkRunning { s with ioThread := if s.running then .armed else .polling }
  | doAccept (hthread : s.ioThread = .armed) :
    Turn s .doAccept
      { s with
        acceptor := if s.call.acceptorOpen then .listening else .closed
        ioThread := .polling }
  | handshakeThrows (registered : Bool) (self : SessionPtr) (handshakeBuf : List UInt8)
      (state : State) (hthread : s.ioThread = .polling)
      (hstep : s.state.handshakeThrows registered self handshakeBuf = some state) :
    Turn s (.handshakeThrows registered self handshakeBuf)
      { s with state := state, ioThread := .thrown }
  | wrote (session : SessionPtr) (rest : List SessionPtr) (hthread : s.ioThread = .writing session rest) :
    Turn s .wrote { s with ioThread := .write rest }
  | blocks (session : SessionPtr) (rest : List SessionPtr)
      (hthread : s.ioThread = .writing session rest) (hsession : session ∉ s.aborted) :
    Turn s .blocks { s with ioThread := .blocked session rest }
  | unblocked (session : SessionPtr) (rest : List SessionPtr)
      (hthread : s.ioThread = .blocked session rest) :
    Turn s .unblocked { s with ioThread := .write rest }
  | stop (hcall : s.call = .none) : Turn s .stop { s with running := false, call := .exchanged }
  | resetWork (hcall : s.call = .exchanged) : Turn s .resetWork { s with call := .workReset }
  | closeAcceptor (hcall : s.call = .workReset) :
    Turn s .closeAcceptor
      { s with
        acceptor := if s.acceptor = .listening then .closed else s.acceptor
        call := .acceptorClosed }
  | closeSessions (hcall : s.call = .acceptorClosed) :
    Turn s .closeSessions
      { s with
        state := { s.state with network := s.state.network.closeSessions }
        aborted := s.state.network.registeredSockets
        call := .sessionsClosed }
  | exit (hthread : s.ioThread = .polling) (hcall : s.call ≠ .none ∧ s.call ≠ .exchanged)
      (hacceptor : s.acceptor = .done) (hjobs : s.state.jobs = [])
      (hsockets : s.state.network.openSockets = ∅) :
    Turn s .exit { s with ioThread := .returned }
  | join (hcall : s.call = .sessionsClosed) (hthread : s.ioThread = .returned ∨ s.ioThread = .thrown) :
    Turn s .join { s with call := .returned }

variable {s t : Shutdown} {l : ShutdownLabel}

theorem turn_of_turn {l : Label} (h : s.turn l = some t) : s.Turn (.turn l) t := by
  cases l with
  | accept self socket => cases h
  | runHandler order =>
    simp only [turn] at h
    split_ifs at h with hthread
    obtain ⟨state, hstep, rfl⟩ := Option.map_eq_some_iff.mp h
    exact .handler order state hthread hstep
  | handshake _ _ | message _ _ | readError _ =>
    simp only [turn] at h
    split_ifs at h with hthread
    obtain ⟨state, hstep, rfl⟩ := Option.map_eq_some_iff.mp h
    exact .read _ state trivial hthread hstep
  | _ =>
    simp only [turn] at h
    split_ifs at h with hcall
    obtain ⟨state, hstep, rfl⟩ := Option.map_eq_some_iff.mp h
    exact .tick _ state trivial hcall hstep

theorem turn_of_acceptTurn (h : s.acceptTurn l = some t) : s.Turn l t := by
  cases l with
  | accept self socket =>
    simp only [acceptTurn] at h
    split_ifs at h with henabled
    cases h
    obtain ⟨hthread, hacceptor, hrunning, hself⟩ := henabled
    exact .accept self socket hthread hacceptor hrunning hself
  | accepted =>
    simp only [acceptTurn] at h
    split at h
    · next self socket hthread =>
      obtain ⟨state, hstep, rfl⟩ := Option.map_eq_some_iff.mp h
      exact .accepted self socket state hthread hstep
    · cases h
  | acceptThrows =>
    simp only [acceptTurn] at h
    split at h
    · next self socket hthread =>
      cases h
      exact .acceptThrows self socket hthread
    · cases h
  | acceptError =>
    simp only [acceptTurn] at h
    split_ifs at h with henabled
    cases h
    exact .acceptError henabled.1 henabled.2.1 henabled.2.2
  | acceptRefused =>
    simp only [acceptTurn] at h
    split_ifs at h with henabled
    cases h
    exact .acceptRefused henabled.1 henabled.2.1 henabled.2.2
  | acceptAborted =>
    simp only [acceptTurn] at h
    split_ifs at h with henabled
    cases h
    exact .acceptAborted henabled.1 henabled.2.1 henabled.2.2
  | checkRunning =>
    rw [acceptTurn] at h
    split at h
    · next hthread =>
      cases h
      exact .checkRunning hthread
    · cases h
  | doAccept =>
    rw [acceptTurn] at h
    split at h
    · next hthread =>
      cases h
      exact .doAccept hthread
    · cases h
  | _ => cases h

theorem turn_of_step (h : s.step l = some t) : s.Turn l t := by
  cases l with
  | turn l => exact turn_of_turn h
  | aborted self =>
    simp only [step] at h
    split_ifs at h with henabled
    obtain ⟨state, hstep, rfl⟩ := Option.map_eq_some_iff.mp h
    exact .aborted self state henabled.1 henabled.2 hstep
  | handshakeThrows registered self handshakeBuf =>
    simp only [step] at h
    split_ifs at h with hthread
    obtain ⟨state, hstep, rfl⟩ := Option.map_eq_some_iff.mp h
    exact .handshakeThrows registered self handshakeBuf state hthread hstep
  | wrote =>
    simp only [step] at h
    split at h
    · next session rest hthread =>
      cases h
      exact .wrote session rest hthread
    · cases h
  | blocks =>
    simp only [step] at h
    split at h
    · next session rest hthread =>
      split_ifs at h with hsession
      cases h
      exact .blocks session rest hthread hsession
    · cases h
  | unblocked =>
    simp only [step] at h
    split at h
    · next session rest hthread =>
      cases h
      exact .unblocked session rest hthread
    · cases h
  | stop =>
    simp only [step] at h
    split_ifs at h with hcall
    cases h
    exact .stop hcall
  | resetWork =>
    simp only [step] at h
    split_ifs at h with hcall
    cases h
    exact .resetWork hcall
  | closeAcceptor =>
    rw [step] at h
    split at h
    · next hcall =>
      cases h
      exact .closeAcceptor hcall
    · cases h
  | closeSessions =>
    simp only [step] at h
    split_ifs at h with hcall
    cases h
    exact .closeSessions hcall
  | exit =>
    simp only [step] at h
    split_ifs at h with henabled
    cases h
    obtain ⟨hthread, hnone, hexchanged, hacceptor, hjobs, hsockets⟩ := henabled
    exact .exit hthread ⟨hnone, hexchanged⟩ hacceptor (List.isEmpty_iff.mp hjobs) hsockets
  | join =>
    simp only [step] at h
    split_ifs at h with henabled
    cases h
    exact .join henabled.1 henabled.2
  | _ => exact turn_of_acceptTurn h

end Shutdown
end Multilife

import Multilife.Client.GameNetworkClient

/-!
# Connecting and reconnecting

The slots of `GameNetworkClient.cpp` that the two sockets, the reconnect timer and the user
call, and what they do to the sockets and the timer.  A slot returns what it writes to the
TCP socket and the signals it emits, in order.

Qt's part is as documented.  `connectToHost` begins an attempt, and its outcome is an event
of its own.  `abort` closes a socket at once; where it was connected, `disconnected` is
emitted before the call returns.  Nothing is left to write when a connection ends, so
`ClosingState` is passed through within one call and is not a state here.
-/

namespace Multilife.Client

/-- `QAbstractSocket::SocketState`; the host lookup is part of the attempt. -/
inductive SocketState where
  | UnconnectedState
  | ConnectingState
  | ConnectedState
  | BoundState
  deriving DecidableEq, Repr

/-- `QAbstractSocket::SocketError`, as far as it is looked at. -/
inductive SocketError where
  | RemoteHostClosedError
  | other (code : ℤ)
  deriving DecidableEq, Repr

/-- What a slot writes and emits.  The text of `connectionStateChanged` is its format with
the arguments of the `arg` calls. -/
inductive Output where
  | write (bytes : List UInt8)
  | connectionStateChanged (format : String) (args : List String) (connected : Bool)
  | worldUpdateReceived (u : WorldUpdate)
  | serverStatsUpdated (u : GameNetworkClient.StatsUpdate)
  deriving DecidableEq

/-- `GameNetworkClient`: the states of `m_tcpSocket` and `m_udpSocket`, whether
`m_reconnectTimer` is active, and the other members. -/
structure Connection where
  tcpSocket : SocketState := .UnconnectedState
  udpSocket : SocketState := .UnconnectedState
  reconnectTimer : Bool := false
  host : String := ""
  tcpPort : UInt16 := 0
  udpPort : UInt16 := 0
  playerId : PlayerId := 0
  manualDisconnect : Bool := false
  lastSeqNum : Option UInt32 := none
  tcpReadBuffer : List UInt8 := []
  deriving DecidableEq

namespace Connection

def isConnected (c : Connection) : Bool := c.tcpSocket = .ConnectedState

/-- What `applyDatagram` sees of the client. -/
def client (c : Connection) : GameNetworkClient := ⟨c.isConnected, c.lastSeqNum⟩

/-! ## The timer -/

def scheduleReconnect (c : Connection) : Connection :=
  if c.manualDisconnect = true ∨ c.reconnectTimer = true then c else { c with reconnectTimer := true }

def cancelReconnect (c : Connection) : Connection :=
  if c.reconnectTimer = true then { c with reconnectTimer := false } else c

/-! ## The slots of the sockets -/

/-- `localPort` is the port of the TCP socket; `bindError` is the text of the UDP socket if
`bind` fails. -/
def onTcpConnected (localPort : UInt16) (bindError : Option String) (c : Connection) :
    Connection × List Output :=
  let c := c.cancelReconnect
  let handshake := Output.write (GameNetworkClient.onTcpConnected c.playerId)
  match bindError with
  | some errorString =>
    (c.scheduleReconnect,
      [handshake, .connectionStateChanged "TCP connected, UDP bind failed (%1)" [errorString] false])
  | none =>
    ({ c with udpSocket := .BoundState },
      [handshake, .connectionStateChanged "Connected as player %1 (UDP %2)"
        [toString c.playerId, toString localPort] true])

def onTcpDisconnected (c : Connection) : Connection × List Output :=
  let closed := { c with udpSocket := .UnconnectedState, tcpReadBuffer := [] }
  if c.manualDisconnect = true then (closed, [])
  else
    (closed.scheduleReconnect,
      [.connectionStateChanged "Connection lost, trying to reconnect ..." [] false])

/-- `errorString` is the text of the TCP socket. -/
def onTcpError (socketError : SocketError) (errorString : String) (c : Connection) :
    Connection × List Output :=
  if socketError = .RemoteHostClosedError then (c, [])
  else
    (if c.manualDisconnect = true then c else c.scheduleReconnect,
      [.connectionStateChanged "Network error: %1" [errorString] false])

def onTcpReadyRead (data : List UInt8) (c : Connection) : Connection × List Output :=
  let drained := GameNetworkClient.onTcpReadyRead c.tcpReadBuffer data
  ({ c with tcpReadBuffer := drained.1 }, drained.2.map .serverStatsUpdated)

/-- One round of the loop of `onUdpReadyRead`. -/
def onUdpReadyRead (datagram : List UInt8) (c : Connection) : Connection × List Output :=
  let applied := c.client.applyDatagram datagram
  ({ c with lastSeqNum := applied.1.lastSeqNum },
    (if applied.2.1 then [.write c.client.sendResync] else []) ++
      applied.2.2.toList.map .worldUpdateReceived)

/-! ## Connecting -/

/-- `m_tcpSocket->abort()`. -/
def abort (c : Connection) : Connection × List Output :=
  let closed := { c with tcpSocket := .UnconnectedState }
  if c.tcpSocket = .ConnectedState then closed.onTcpDisconnected else (closed, [])

/-- `m_tcpSocket->connectToHost(m_host, m_tcpPort)`. -/
def connectToHost (c : Connection) : Connection := { c with tcpSocket := .ConnectingState }

def connectToServer (host : String) (tcpPort udpPort : UInt16) (playerId : PlayerId)
    (c : Connection) : Connection × List Output :=
  let c :=
    { c with
      host := host
      tcpPort := tcpPort
      udpPort := udpPort
      playerId := playerId
      manualDisconnect := false
      lastSeqNum := none
      tcpReadBuffer := [] }
  let c := if c.udpSocket ≠ .UnconnectedState then { c with udpSocket := .UnconnectedState } else c
  let aborted := if c.tcpSocket ≠ .UnconnectedState then c.abort else (c, [])
  (aborted.1.connectToHost,
    aborted.2 ++ [.connectionStateChanged "Connecting to %1:%2 ..." [host, toString tcpPort] false])

/-- What `disconnectFromHost` leaves to do, `abort` does: the socket is closed at once, and
`disconnected` is emitted by one of the two. -/
def disconnectFromServer (c : Connection) : Connection × List Output :=
  let c := { c with manualDisconnect := true }.cancelReconnect
  let c := { c with lastSeqNum := none, tcpReadBuffer := [], udpSocket := .UnconnectedState }
  let aborted := c.abort
  (aborted.1, aborted.2 ++ [.connectionStateChanged "Disconnected" [] false])

def reconnectTick (c : Connection) : Connection × List Output :=
  if c.isConnected then (c.cancelReconnect, [])
  else
    let aborted := if c.tcpSocket ≠ .UnconnectedState then c.abort else (c, [])
    (aborted.1.connectToHost, aborted.2)

/-! ## What the slots do -/

theorem isConnected_iff {c : Connection} : c.isConnected = true ↔ c.tcpSocket = .ConnectedState :=
  decide_eq_true_iff

@[simp] theorem scheduleReconnect_eq (c : Connection) :
    c.scheduleReconnect =
      { c with reconnectTimer := !c.manualDisconnect || c.reconnectTimer } := by
  obtain ⟨tcp, udp, timer, host, tcpPort, udpPort, playerId, manual, seq, buffer⟩ := c
  cases manual <;> cases timer <;> rfl

@[simp] theorem cancelReconnect_eq (c : Connection) :
    c.cancelReconnect = { c with reconnectTimer := false } := by
  obtain ⟨tcp, udp, timer, host, tcpPort, udpPort, playerId, manual, seq, buffer⟩ := c
  cases timer <;> rfl

/-- The timer runs exactly when `bind` fails. -/
theorem onTcpConnected_eq (localPort : UInt16) (bindError : Option String) (c : Connection) :
    c.onTcpConnected localPort bindError =
      match bindError with
      | some errorString =>
        ({ c with reconnectTimer := !c.manualDisconnect },
          [.write (GameNetworkClient.onTcpConnected c.playerId),
            .connectionStateChanged "TCP connected, UDP bind failed (%1)" [errorString] false])
      | none =>
        ({ c with reconnectTimer := false, udpSocket := .BoundState },
          [.write (GameNetworkClient.onTcpConnected c.playerId),
            .connectionStateChanged "Connected as player %1 (UDP %2)"
              [toString c.playerId, toString localPort] true]) := by
  cases bindError <;> simp [onTcpConnected]

theorem onTcpDisconnected_eq (c : Connection) :
    c.onTcpDisconnected =
      ({ c with
          udpSocket := .UnconnectedState
          tcpReadBuffer := []
          reconnectTimer := !c.manualDisconnect || c.reconnectTimer },
        if c.manualDisconnect = true then []
        else [.connectionStateChanged "Connection lost, trying to reconnect ..." [] false]) := by
  unfold onTcpDisconnected
  dsimp only
  split_ifs with h <;> simp [h]

theorem onTcpError_eq {socketError : SocketError} (h : socketError ≠ .RemoteHostClosedError)
    (errorString : String) (c : Connection) :
    c.onTcpError socketError errorString =
      ({ c with reconnectTimer := !c.manualDisconnect || c.reconnectTimer },
        [.connectionStateChanged "Network error: %1" [errorString] false]) := by
  obtain ⟨tcp, udp, timer, host, tcpPort, udpPort, playerId, manual, seq, buffer⟩ := c
  rw [onTcpError, if_neg h]
  cases manual <;> simp

/-- An attempt is given up in silence. -/
theorem abort_of_ne (c : Connection) (h : c.tcpSocket ≠ .ConnectedState) :
    c.abort = ({ c with tcpSocket := .UnconnectedState }, []) := by
  rw [abort, if_neg h]

/-- **After `connectToServer`** an attempt is under way.  The timer runs if it did, or if a
connection was given up for the attempt. -/
theorem connectToServer_fst (host : String) (tcpPort udpPort : UInt16) (playerId : PlayerId)
    (c : Connection) :
    (c.connectToServer host tcpPort udpPort playerId).1 =
      { tcpSocket := .ConnectingState
        udpSocket := .UnconnectedState
        reconnectTimer := c.isConnected || c.reconnectTimer
        host := host
        tcpPort := tcpPort
        udpPort := udpPort
        playerId := playerId
        manualDisconnect := false
        lastSeqNum := none
        tcpReadBuffer := [] } := by
  obtain ⟨tcp, udp, timer, _, _, _, _, manual, seq, buffer⟩ := c
  cases tcp <;> cases udp <;>
    simp [connectToServer, abort, connectToHost, onTcpDisconnected, isConnected]

/-- **After `disconnectFromServer`** nothing is under way. -/
theorem disconnectFromServer_fst (c : Connection) :
    c.disconnectFromServer.1 =
      { c with
        tcpSocket := .UnconnectedState
        udpSocket := .UnconnectedState
        reconnectTimer := false
        manualDisconnect := true
        lastSeqNum := none
        tcpReadBuffer := [] } := by
  unfold disconnectFromServer abort
  dsimp only
  split_ifs <;> simp [onTcpDisconnected]

/-- **A firing of the timer** begins an attempt, or finds TCP connected and is the last. -/
theorem reconnectTick_eq (c : Connection) :
    c.reconnectTick =
      if c.tcpSocket = .ConnectedState then ({ c with reconnectTimer := false }, [])
      else ({ c with tcpSocket := .ConnectingState }, []) := by
  unfold reconnectTick
  by_cases h : c.tcpSocket = .ConnectedState
  · rw [if_pos (isConnected_iff.mpr h), if_pos h, cancelReconnect_eq]
  · rw [if_neg (fun hc => h (isConnected_iff.mp hc)), if_neg h, abort_of_ne c h]
    dsimp only
    split_ifs <;> rfl

/-- A connection that was given up is reported as lost, before the attempt is. -/
theorem connectToServer_snd (host : String) (tcpPort udpPort : UInt16) (playerId : PlayerId)
    (c : Connection) :
    (c.connectToServer host tcpPort udpPort playerId).2 =
      (if c.tcpSocket = .ConnectedState then
        [.connectionStateChanged "Connection lost, trying to reconnect ..." [] false] else []) ++
        [.connectionStateChanged "Connecting to %1:%2 ..." [host, toString tcpPort] false] := by
  obtain ⟨tcp, udp, timer, _, _, _, _, manual, seq, buffer⟩ := c
  cases tcp <;> cases udp <;> simp [connectToServer, abort, onTcpDisconnected]

/-- The loss of a connection the user gives up is not reported. -/
theorem disconnectFromServer_snd (c : Connection) :
    c.disconnectFromServer.2 = [.connectionStateChanged "Disconnected" [] false] := by
  by_cases h : c.tcpSocket = .ConnectedState <;>
    simp [disconnectFromServer, abort, onTcpDisconnected, h]

end Connection
end Multilife.Client

import Multilife.Client.Connection
import Multilife.Foundations.Transition

/-!
# The connection of a client

The events of the two sockets, the timer and the user, in any order Qt allows.  `react` is
what an event does, if it can occur: an attempt is connected or fails, a connection has an
error or is disconnected, the timer fires while it is active.

* `tidy_of_run`: what holds of every client, whatever happens.
* `neverStuck_iff`: a client that was told to connect is connected on both sockets, or in an
  attempt, or waiting for the timer, as long as the timer never finds TCP connected without
  UDP.
* `tcpOnly_of_run`: TCP without UDP lasts until TCP ends or the user acts, and no update of the
  world comes in.
* `connected_of_shown`: what is shown as connected is connected on both sockets.
-/

namespace Multilife.Client

open Transition

/-- What happens to a client. -/
inductive ConnectionEvent where
  | connectToServer (host : String) (tcpPort udpPort : UInt16) (playerId : PlayerId)
  | disconnectFromServer
  /-- `connected`; `bind` then fails with this text or does not fail. -/
  | tcpConnected (localPort : UInt16) (bindError : Option String)
  /-- `disconnected`. -/
  | tcpDisconnected
  /-- `errorOccurred`, and the text of the socket. -/
  | tcpError (socketError : SocketError) (errorString : String)
  /-- `readyRead` of the TCP socket. -/
  | tcpReadyRead (data : List UInt8)
  /-- `readyRead` of the UDP socket, for one datagram. -/
  | udpReadyRead (datagram : List UInt8)
  /-- `timeout` of the reconnect timer. -/
  | timeout
  deriving DecidableEq

namespace Connection

/-- What an event does.  An attempt that fails is over when its error is reported, and the
remote host has no part in that; a connection with an error lasts until `disconnected`. -/
def react (c : Connection) : ConnectionEvent → Option (Connection × List Output)
  | .connectToServer host tcpPort udpPort playerId =>
    some (c.connectToServer host tcpPort udpPort playerId)
  | .disconnectFromServer => some c.disconnectFromServer
  | .tcpConnected localPort bindError =>
    if c.tcpSocket = .ConnectingState then
      some ({ c with tcpSocket := .ConnectedState }.onTcpConnected localPort bindError)
    else none
  | .tcpDisconnected =>
    if c.tcpSocket = .ConnectedState then
      some { c with tcpSocket := .UnconnectedState }.onTcpDisconnected
    else none
  | .tcpError socketError errorString =>
    if c.tcpSocket = .ConnectedState then some (c.onTcpError socketError errorString)
    else if c.tcpSocket = .ConnectingState ∧ socketError ≠ .RemoteHostClosedError then
      some ({ c with tcpSocket := .UnconnectedState }.onTcpError socketError errorString)
    else none
  | .tcpReadyRead data =>
    if c.tcpSocket = .ConnectedState then some (c.onTcpReadyRead data) else none
  | .udpReadyRead datagram =>
    if c.udpSocket = .BoundState then some (c.onUdpReadyRead datagram) else none
  | .timeout => if c.reconnectTimer = true then some c.reconnectTick else none

def step (c : Connection) (e : ConnectionEvent) : Option Connection := (c.react e).map Prod.fst

/-- What an event makes the client write and emit. -/
def outputs (c : Connection) (e : ConnectionEvent) : List Output :=
  ((c.react e).map Prod.snd).getD []

/-- What an event does and what it makes the client write and emit, one constructor for each
branch that lets it happen. -/
inductive Turn (c : Connection) : ConnectionEvent → Connection → List Output → Prop where
  | connectToServer (host : String) (tcpPort udpPort : UInt16) (playerId : PlayerId) :
    Turn c (.connectToServer host tcpPort udpPort playerId)
      (c.connectToServer host tcpPort udpPort playerId).1
      (c.connectToServer host tcpPort udpPort playerId).2
  | disconnectFromServer :
    Turn c .disconnectFromServer c.disconnectFromServer.1 c.disconnectFromServer.2
  | bound (localPort : UInt16) (htcp : c.tcpSocket = .ConnectingState) :
    Turn c (.tcpConnected localPort none)
      { c with tcpSocket := .ConnectedState, udpSocket := .BoundState, reconnectTimer := false }
      [.write (GameNetworkClient.onTcpConnected c.playerId),
        .connectionStateChanged "Connected as player %1 (UDP %2)"
          [toString c.playerId, toString localPort] true]
  | bindFailed (localPort : UInt16) (errorString : String)
      (htcp : c.tcpSocket = .ConnectingState) :
    Turn c (.tcpConnected localPort (some errorString))
      { c with tcpSocket := .ConnectedState, reconnectTimer := !c.manualDisconnect }
      [.write (GameNetworkClient.onTcpConnected c.playerId),
        .connectionStateChanged "TCP connected, UDP bind failed (%1)" [errorString] false]
  | disconnected (htcp : c.tcpSocket = .ConnectedState) :
    Turn c .tcpDisconnected
      { c with
        tcpSocket := .UnconnectedState
        udpSocket := .UnconnectedState
        tcpReadBuffer := []
        reconnectTimer := !c.manualDisconnect || c.reconnectTimer }
      (if c.manualDisconnect = true then []
        else [.connectionStateChanged "Connection lost, trying to reconnect ..." [] false])
  | attemptFailed (socketError : SocketError) (errorString : String)
      (htcp : c.tcpSocket = .ConnectingState) :
    Turn c (.tcpError socketError errorString)
      { c with
        tcpSocket := .UnconnectedState
        reconnectTimer := !c.manualDisconnect || c.reconnectTimer }
      [.connectionStateChanged "Network error: %1" [errorString] false]
  | closedByServer (errorString : String) (htcp : c.tcpSocket = .ConnectedState) :
    Turn c (.tcpError .RemoteHostClosedError errorString) c []
  | connectionError (socketError : SocketError) (errorString : String)
      (htcp : c.tcpSocket = .ConnectedState) (herror : socketError ≠ .RemoteHostClosedError) :
    Turn c (.tcpError socketError errorString)
      { c with reconnectTimer := !c.manualDisconnect || c.reconnectTimer }
      [.connectionStateChanged "Network error: %1" [errorString] false]
  | tcpReadyRead (data : List UInt8) (htcp : c.tcpSocket = .ConnectedState) :
    Turn c (.tcpReadyRead data)
      { c with tcpReadBuffer := (GameNetworkClient.onTcpReadyRead c.tcpReadBuffer data).1 }
      ((GameNetworkClient.onTcpReadyRead c.tcpReadBuffer data).2.map .serverStatsUpdated)
  | udpReadyRead (datagram : List UInt8) (hudp : c.udpSocket = .BoundState) :
    Turn c (.udpReadyRead datagram)
      { c with lastSeqNum := (c.client.applyDatagram datagram).1.lastSeqNum }
      (c.onUdpReadyRead datagram).2
  | lastTick (htimer : c.reconnectTimer = true) (htcp : c.tcpSocket = .ConnectedState) :
    Turn c .timeout { c with reconnectTimer := false } []
  | tick (htimer : c.reconnectTimer = true) (htcp : c.tcpSocket ≠ .ConnectedState) :
    Turn c .timeout { c with tcpSocket := .ConnectingState } []

variable {c d : Connection} {e : ConnectionEvent} {es : List ConnectionEvent}

theorem turn_of_react {out : List Output} (h : c.react e = some (d, out)) : c.Turn e d out := by
  cases e with
  | connectToServer host tcpPort udpPort playerId =>
    cases h
    exact .connectToServer host tcpPort udpPort playerId
  | disconnectFromServer =>
    cases h
    exact .disconnectFromServer
  | tcpConnected localPort bindError =>
    simp only [react, onTcpConnected_eq] at h
    split_ifs at h with htcp
    cases bindError with
    | none =>
      cases h
      exact .bound localPort htcp
    | some errorString =>
      cases h
      exact .bindFailed localPort errorString htcp
  | tcpDisconnected =>
    rw [react, onTcpDisconnected_eq] at h
    by_cases htcp : c.tcpSocket = .ConnectedState
    · rw [if_pos htcp] at h
      cases h
      exact .disconnected htcp
    · rw [if_neg htcp] at h
      cases h
  | tcpError socketError errorString =>
    simp only [react] at h
    split_ifs at h with htcp hfailed
    · by_cases hclosed : socketError = .RemoteHostClosedError
      · rw [onTcpError, if_pos hclosed] at h
        cases h
        rw [hclosed]
        exact .closedByServer errorString htcp
      · rw [onTcpError_eq hclosed] at h
        cases h
        exact .connectionError socketError errorString htcp hclosed
    · rw [onTcpError_eq hfailed.2] at h
      cases h
      exact .attemptFailed socketError errorString hfailed.1
  | tcpReadyRead data =>
    simp only [react] at h
    split_ifs at h with htcp
    cases h
    exact .tcpReadyRead data htcp
  | udpReadyRead datagram =>
    simp only [react] at h
    split_ifs at h with hudp
    cases h
    exact .udpReadyRead datagram hudp
  | timeout =>
    simp only [react, reconnectTick_eq] at h
    split_ifs at h with htimer htcp
    · cases h
      exact .lastTick htimer htcp
    · cases h
      exact .tick htimer htcp

theorem turn_of_step (h : c.step e = some d) : ∃ out, c.Turn e d out ∧ c.outputs e = out := by
  rw [step, Option.map_eq_some_iff] at h
  obtain ⟨reaction, hreact, rfl⟩ := h
  exact ⟨reaction.2, turn_of_react hreact, by rw [outputs, hreact]; rfl⟩

/-! ## What holds whatever happens -/

/-- The sockets, the timer and the buffer agree with each other. -/
structure Tidy (c : Connection) : Prop where
  /-- UDP is bound only while TCP is connected. -/
  udp : c.udpSocket = .BoundState → c.tcpSocket = .ConnectedState
  /-- After a manual disconnect nothing is under way. -/
  manual : c.manualDisconnect = true → c.tcpSocket = .UnconnectedState ∧ c.reconnectTimer = false
  /-- What a connection has left unread is not read with the next one. -/
  buffer : c.tcpSocket ≠ .ConnectedState → c.tcpReadBuffer = []

/-- However the client was, `connectToServer` tidies up. -/
theorem tidy_connectToServer (host : String) (tcpPort udpPort : UInt16) (playerId : PlayerId)
    (c : Connection) : Tidy (c.connectToServer host tcpPort udpPort playerId).1 := by
  rw [connectToServer_fst]
  exact ⟨fun h => (by cases h), fun h => (by cases h), fun _ => rfl⟩

/-- A client that is not unconnected was not disconnected by the user. -/
theorem Tidy.manual_eq_false (hc : Tidy c) (htcp : c.tcpSocket ≠ .UnconnectedState) :
    c.manualDisconnect = false :=
  Bool.eq_false_of_not_eq_true fun hmanual => htcp (hc.manual hmanual).1

theorem tidy_step (hc : Tidy c) (h : c.step e = some d) : Tidy d := by
  obtain ⟨out, hturn, -⟩ := turn_of_step h
  cases hturn with
  | connectToServer host tcpPort udpPort playerId =>
    exact tidy_connectToServer host tcpPort udpPort playerId c
  | disconnectFromServer =>
    rw [disconnectFromServer_fst]
    exact ⟨fun h => (by cases h), fun _ => ⟨rfl, rfl⟩, fun _ => rfl⟩
  | bound localPort htcp =>
    have hmanual := hc.manual_eq_false (by simp [htcp])
    exact ⟨fun _ => rfl, fun h => absurd (hmanual.symm.trans h) (by decide), fun h => absurd rfl h⟩
  | bindFailed localPort errorString htcp =>
    have hmanual := hc.manual_eq_false (by simp [htcp])
    exact ⟨fun _ => rfl, fun h => absurd (hmanual.symm.trans h) (by decide), fun h => absurd rfl h⟩
  | disconnected htcp =>
    have hmanual := hc.manual_eq_false (by simp [htcp])
    exact ⟨fun h => (by cases h), fun h => absurd (hmanual.symm.trans h) (by decide), fun _ => rfl⟩
  | attemptFailed socketError errorString htcp =>
    have hmanual := hc.manual_eq_false (by simp [htcp])
    refine ⟨fun hudp => ?_, fun h => absurd (hmanual.symm.trans h) (by decide),
      fun _ => hc.buffer (by simp [htcp])⟩
    cases htcp.symm.trans (hc.udp hudp)
  | closedByServer errorString htcp => exact hc
  | connectionError socketError errorString htcp herror =>
    have hmanual := hc.manual_eq_false (by simp [htcp])
    exact ⟨hc.udp, fun h => absurd (hmanual.symm.trans h) (by decide), hc.buffer⟩
  | tcpReadyRead data htcp => exact ⟨hc.udp, hc.manual, fun h => absurd htcp h⟩
  | udpReadyRead datagram hudp => exact ⟨hc.udp, hc.manual, hc.buffer⟩
  | lastTick htimer htcp =>
    exact ⟨hc.udp, fun hmanual => ⟨(hc.manual hmanual).1, rfl⟩, hc.buffer⟩
  | tick htimer htcp =>
    refine ⟨fun hudp => absurd (hc.udp hudp) htcp, fun hmanual => ?_, fun _ => hc.buffer htcp⟩
    cases htimer.symm.trans (hc.manual hmanual).2

theorem tidy_of_run (hc : Tidy c) (h : run step c es = some d) : Tidy d :=
  run_invariant' (fun _ _ _ hc h => tidy_step hc h) hc h

/-! ## Half a connection -/

/-- TCP is connected and UDP is bound, or an attempt is under way, or the timer is active. -/
def Healthy (c : Connection) : Prop :=
  c.tcpSocket = .ConnectedState ∧ c.udpSocket = .BoundState ∨ c.tcpSocket = .ConnectingState ∨
    c.reconnectTimer = true

/-- TCP is connected and UDP is not bound. -/
def TcpOnly (c : Connection) : Prop :=
  c.tcpSocket = .ConnectedState ∧ c.udpSocket ≠ .BoundState

/-- The timer fires and finds TCP connected without UDP. -/
def FindsTcpOnly (c : Connection) (e : ConnectionEvent) : Prop := e = .timeout ∧ c.TcpOnly

instance (c : Connection) : Decidable c.Healthy := inferInstanceAs (Decidable (_ ∨ _))

instance (c : Connection) : Decidable c.TcpOnly := inferInstanceAs (Decidable (_ ∧ _))

instance (c : Connection) (e : ConnectionEvent) : Decidable (c.FindsTcpOnly e) :=
  inferInstanceAs (Decidable (_ ∧ _))

/-- One step, unless the timer finds half a connection. -/
theorem healthy_step (hc : c.manualDisconnect = false → Healthy c) (he : ¬ c.FindsTcpOnly e)
    (h : c.step e = some d) : d.manualDisconnect = false → Healthy d := by
  intro hmanual
  obtain ⟨out, hturn, -⟩ := turn_of_step h
  cases hturn with
  | connectToServer host tcpPort udpPort playerId =>
    rw [connectToServer_fst]
    exact Or.inr (Or.inl rfl)
  | disconnectFromServer =>
    rw [disconnectFromServer_fst] at hmanual
    cases hmanual
  | bound localPort htcp => exact Or.inl ⟨rfl, rfl⟩
  | bindFailed localPort errorString htcp => exact Or.inr (Or.inr (by simpa using hmanual))
  | disconnected htcp =>
    have hcalled : c.manualDisconnect = false := hmanual
    exact Or.inr (Or.inr (by simp [hcalled]))
  | attemptFailed socketError errorString htcp =>
    have hcalled : c.manualDisconnect = false := hmanual
    exact Or.inr (Or.inr (by simp [hcalled]))
  | closedByServer errorString htcp => exact hc hmanual
  | connectionError socketError errorString htcp herror =>
    have hcalled : c.manualDisconnect = false := hmanual
    exact Or.inr (Or.inr (by simp [hcalled]))
  | tcpReadyRead data htcp => exact hc hmanual
  | udpReadyRead datagram hudp => exact hc hmanual
  | lastTick htimer htcp =>
    exact Or.inl ⟨htcp, not_not.mp fun hudp => he ⟨rfl, htcp, hudp⟩⟩
  | tick htimer htcp => exact Or.inr (Or.inl rfl)

/-- A timer that finds half a connection stops, and leaves it so. -/
theorem not_healthy_of_findsTcpOnly (he : c.FindsTcpOnly e) (h : c.step e = some d) :
    d = { c with reconnectTimer := false } ∧ ¬ Healthy d := by
  obtain ⟨rfl, htcp, hudp⟩ := he
  obtain ⟨out, hturn, -⟩ := turn_of_step h
  cases hturn with
  | lastTick htimer _ =>
    refine ⟨rfl, ?_⟩
    rintro (⟨-, hbound⟩ | hconnecting | htimer)
    · exact hudp hbound
    · cases htcp.symm.trans hconnecting
    · cases htimer
  | tick htimer hnot => exact absurd htcp hnot

/-- In every state of the run in which the user has not disconnected, the client is connected
on both sockets, in an attempt, or waiting for the timer. -/
def NeverStuck (c : Connection) (es : List ConnectionEvent) : Prop :=
  ∀ before after m, es = before ++ after → run step c before = some m →
    m.manualDisconnect = false → Healthy m

/-- **Stuck with half a connection.**  After `connectToServer` the client is never stuck
exactly as long as no firing of the timer finds TCP connected and UDP not bound. -/
theorem neverStuck_iff (host : String) (tcpPort udpPort : UInt16) (playerId : PlayerId)
    (c₀ : Connection)
    (h : run step (c₀.connectToServer host tcpPort udpPort playerId).1 es = some d) :
    NeverStuck (c₀.connectToServer host tcpPort udpPort playerId).1 es ↔
      Always step (fun c e => ¬ c.FindsTcpOnly e)
        (c₀.connectToServer host tcpPort udpPort playerId).1 es := by
  have htidy := tidy_connectToServer host tcpPort udpPort playerId c₀
  constructor
  · intro hnever
    rw [always_iff]
    rintro before e after m rfl hm he
    obtain ⟨m', hm', hrest⟩ := run_append.mp h
    cases hm.symm.trans hm'
    obtain ⟨n, hn, -⟩ := run_cons_eq_some.mp hrest
    obtain ⟨hstopped, hstuck⟩ := not_healthy_of_findsTcpOnly he hn
    refine hstuck (hnever (before ++ [e]) after n (by simp) (run_concat hm hn) ?_)
    rw [hstopped]
    exact (tidy_of_run htidy hm).manual_eq_false (by simp [he.2.1])
  · rintro hgood before after m rfl hm
    refine run_invariant (I := fun c => c.manualDisconnect = false → Healthy c)
      (fun _ _ _ hc he h => healthy_step hc he h) (fun _ => ?_) (always_append.mp hgood).1 hm
    rw [connectToServer_fst]
    exact Or.inr (Or.inl rfl)

/-- A server that is down, comes up and goes down again, and a port that is in use once. -/
def downAndUp : List ConnectionEvent :=
  [.tcpError (.other 0) "Connection refused", .timeout, .tcpConnected 50000 none, .tcpDisconnected,
    .timeout, .timeout, .tcpConnected 50001 (some "The bound address is already in use"),
    .tcpDisconnected, .timeout, .tcpConnected 50002 none]

/-- The client is never stuck. -/
theorem neverStuck_downAndUp : ∃ d,
    run step (({} : Connection).connectToServer "localhost" 4000 4001 7).1 downAndUp = some d ∧
      NeverStuck (({} : Connection).connectToServer "localhost" 4000 4001 7).1 downAndUp := by
  obtain ⟨d, hd⟩ : ∃ d,
      run step (({} : Connection).connectToServer "localhost" 4000 4001 7).1 downAndUp = some d :=
    ⟨_, rfl⟩
  exact ⟨d, hd, (neverStuck_iff "localhost" 4000 4001 7 {} hd).mpr (by decide)⟩

/-- `bind` fails and the timer fires: TCP is connected, UDP is not bound, and the timer is
off. -/
theorem stuck_of_bindFailed : ∃ d,
    run step (({} : Connection).connectToServer "localhost" 4000 4001 7).1
        [.tcpConnected 50000 (some "The bound address is already in use"), .timeout] = some d ∧
      d.manualDisconnect = false ∧ ¬ Healthy d :=
  ⟨_, rfl, rfl, by decide⟩

/-! ## What the timer does not repair -/

/-- Neither the user nor TCP ends the connection. -/
def KeepsTcp : ConnectionEvent → Prop
  | .connectToServer .. | .disconnectFromServer | .tcpDisconnected => False
  | _ => True

theorem tcpOnly_step (hc : TcpOnly c) (he : KeepsTcp e) (h : c.step e = some d) :
    TcpOnly d ∧ ∀ u, .worldUpdateReceived u ∉ c.outputs e := by
  obtain ⟨out, hturn, hout⟩ := turn_of_step h
  rw [hout]
  cases hturn with
  | connectToServer host tcpPort udpPort playerId => exact he.elim
  | disconnectFromServer => exact he.elim
  | bound localPort htcp => cases hc.1.symm.trans htcp
  | bindFailed localPort errorString htcp => cases hc.1.symm.trans htcp
  | disconnected htcp => exact he.elim
  | attemptFailed socketError errorString htcp => cases hc.1.symm.trans htcp
  | closedByServer errorString htcp => exact ⟨hc, by simp⟩
  | connectionError socketError errorString htcp herror => exact ⟨hc, by simp⟩
  | tcpReadyRead data htcp => exact ⟨hc, by simp⟩
  | udpReadyRead datagram hudp => exact absurd hudp hc.2
  | lastTick htimer htcp => exact ⟨hc, by simp⟩
  | tick htimer htcp => exact absurd hc.1 htcp

/-- **Half a connection lasts** as long as TCP and the user's patience: the timer does not
bind the UDP socket, and no update of the world comes in. -/
theorem tcpOnly_of_run (hc : TcpOnly c) (hes : ∀ e ∈ es, KeepsTcp e)
    (h : run step c es = some d) :
    TcpOnly d ∧ ∀ u, .worldUpdateReceived u ∉ collect step outputs c es := by
  induction es generalizing c with
  | nil =>
    cases h
    exact ⟨hc, fun u => List.not_mem_nil⟩
  | cons e es ih =>
    obtain ⟨c', hc', hd⟩ := run_cons_eq_some.mp h
    obtain ⟨honly, hnone⟩ := tcpOnly_step hc (hes e List.mem_cons_self) hc'
    obtain ⟨honly', hnone'⟩ := ih honly (fun e' he' => hes e' (List.mem_cons_of_mem e he')) hd
    refine ⟨honly', fun u hu => ?_⟩
    rw [collect_cons hc', List.mem_append] at hu
    exact hu.elim (hnone u) (hnone' u)

/-- After a `bind` that failed: the timer fires and statistics come in. -/
def statsOnly : List ConnectionEvent := [.timeout, .tcpReadyRead [0x20, 1, 0, 0, 0, 0, 0]]

theorem tcpOnly_of_run_statsOnly : ∃ c d,
    run step (({} : Connection).connectToServer "localhost" 4000 4001 7).1
      [.tcpConnected 50000 (some "The bound address is already in use")] = some c ∧
    run step c statsOnly = some d ∧ TcpOnly d ∧
      ∀ u, .worldUpdateReceived u ∉ collect step outputs c statsOnly := by
  obtain ⟨c, hc, honly⟩ : ∃ c, run step (({} : Connection).connectToServer "localhost" 4000 4001 7).1
      [.tcpConnected 50000 (some "The bound address is already in use")] = some c ∧ TcpOnly c :=
    ⟨_, rfl, by decide⟩
  obtain ⟨d, hd⟩ : ∃ d, run step c statsOnly = some d := by
    cases hc
    exact ⟨_, rfl⟩
  exact ⟨c, d, hc, hd, tcpOnly_of_run honly (by simp [statsOnly, KeepsTcp]) hd⟩

/-! ## What the user is shown -/

/-- The flag of `connectionStateChanged`. -/
def shown : Output → Option Bool
  | .connectionStateChanged _ _ connected => some connected
  | _ => none

/-- A step shows a state that is true, or shows none and keeps a connection as it is. -/
theorem shown_step (hc : Tidy c) (h : c.step e = some d) :
    ((c.outputs e).filterMap shown = [] ∧ (c.tcpSocket = .ConnectedState →
        d.tcpSocket = c.tcpSocket ∧ d.udpSocket = c.udpSocket)) ∨
      ∃ connected, ((c.outputs e).filterMap shown).getLast? = some connected ∧
        (connected = true → d.tcpSocket = .ConnectedState ∧ d.udpSocket = .BoundState) := by
  obtain ⟨out, hturn, hout⟩ := turn_of_step h
  rw [hout]
  cases hturn with
  | connectToServer host tcpPort udpPort playerId =>
    refine Or.inr ⟨false, ?_, by simp⟩
    rw [connectToServer_snd, List.filterMap_append]
    simp [shown]
  | disconnectFromServer =>
    refine Or.inr ⟨false, ?_, by simp⟩
    rw [disconnectFromServer_snd]
    simp [shown]
  | bound localPort htcp => exact Or.inr ⟨true, rfl, fun _ => ⟨rfl, rfl⟩⟩
  | bindFailed localPort errorString htcp => exact Or.inr ⟨false, rfl, by simp⟩
  | disconnected htcp =>
    have hmanual := hc.manual_eq_false (by simp [htcp])
    exact Or.inr ⟨false, by simp [shown, hmanual], by simp⟩
  | attemptFailed socketError errorString htcp =>
    exact Or.inr ⟨false, rfl, by simp⟩
  | closedByServer errorString htcp => exact Or.inl ⟨rfl, fun _ => ⟨rfl, rfl⟩⟩
  | connectionError socketError errorString htcp herror =>
    exact Or.inr ⟨false, rfl, by simp⟩
  | tcpReadyRead data htcp =>
    refine Or.inl ⟨?_, fun _ => ⟨rfl, rfl⟩⟩
    rw [List.filterMap_map]
    exact List.filterMap_eq_nil_iff.mpr fun u _ => rfl
  | udpReadyRead datagram hudp =>
    refine Or.inl ⟨?_, fun _ => ⟨rfl, rfl⟩⟩
    rw [onUdpReadyRead, List.filterMap_append, List.filterMap_map]
    split_ifs <;> simp [shown, Function.comp_def]
  | lastTick htimer htcp => exact Or.inl ⟨rfl, fun _ => ⟨rfl, rfl⟩⟩
  | tick htimer htcp => exact Or.inl ⟨rfl, fun h => absurd h htcp⟩

/-- **What is shown as connected is connected**, on both sockets. -/
theorem connected_of_shown (host : String) (tcpPort udpPort : UInt16) (playerId : PlayerId)
    (c₀ : Connection)
    (h : run step (c₀.connectToServer host tcpPort udpPort playerId).1 es = some d)
    (hshown : ((collect step outputs (c₀.connectToServer host tcpPort udpPort playerId).1
      es).filterMap shown).getLast? = some true) :
    d.tcpSocket = .ConnectedState ∧ d.udpSocket = .BoundState := by
  have htidy := tidy_connectToServer host tcpPort udpPort playerId c₀
  revert hshown
  refine run_history (P := fun _ _ => True)
    (Q := fun es m => ((collect step outputs (c₀.connectToServer host tcpPort udpPort playerId).1
      es).filterMap shown).getLast? = some true →
        m.tcpSocket = .ConnectedState ∧ m.udpSocket = .BoundState)
    (fun hnone => by cases hnone) ?_ (always_of_forall_mem (fun _ _ _ => trivial) _) h
  intro es m e m' hm ih _ hm' hlast
  rw [collect_concat hm e hm', List.filterMap_append, List.getLast?_append] at hlast
  rcases shown_step (tidy_of_run htidy hm) hm' with ⟨hnone, hkeeps⟩ | ⟨connected, hconnected, htrue⟩
  · rw [hnone] at hlast
    obtain ⟨htcp, hudp⟩ := ih hlast
    obtain ⟨htcp', hudp'⟩ := hkeeps htcp
    exact ⟨htcp'.trans htcp, hudp'.trans hudp⟩
  · rw [hconnected] at hlast
    exact htrue (Option.some.inj hlast)

/-- The server goes down and comes up again. -/
def twoAttempts : List ConnectionEvent :=
  [.tcpConnected 50000 none, .tcpDisconnected, .timeout, .tcpConnected 50001 none]

theorem connected_of_shown_twoAttempts : ∃ d,
    run step (({} : Connection).connectToServer "localhost" 4000 4001 7).1 twoAttempts = some d ∧
      d.tcpSocket = .ConnectedState ∧ d.udpSocket = .BoundState := by
  obtain ⟨d, hd⟩ : ∃ d,
      run step (({} : Connection).connectToServer "localhost" 4000 4001 7).1 twoAttempts = some d :=
    ⟨_, rfl⟩
  exact ⟨d, hd, connected_of_shown "localhost" 4000 4001 7 {} hd rfl⟩

end Connection
end Multilife.Client

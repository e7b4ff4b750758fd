import Multilife.Client.ClientRuntime
import Multilife.System.Reconnecting

/-!
# The client as a process

The window, the connection and the two queues between them: a step is an action of the user,
the next posted event of the UI thread, the next posted call of the network thread, or an event
of the sockets or of the timer.

* `connection_of_run`: the network thread is a `Connection`, to which the posted calls are what
  the user does.
* `shown_of_run`: the window is shown the signals in the order in which they are emitted.
* `serverPlayers_of_run`: when no signal is under way, the balances the window goes by are those
  of the present connection, or none.
* `worldModel_of_run`: after a client at rest is connected, the model is built from the datagrams
  read since, and it was read after the call had come through.
-/

namespace Multilife.Client

open Transition

/-! ## What a connection emits -/

namespace Connection

variable {c d : Connection} {e : ConnectionEvent} {es : List ConnectionEvent}
  {players : Finmap fun _ : UInt64 => GameNetworkClient.PlayerSnapshot}

/-- A connection that ends is reported after the last statistics it has brought. -/
theorem balances_step (hc : c.Tidy) (hplayers : c.tcpSocket ≠ .ConnectedState → players = ∅)
    (h : c.step e = some d) (hd : d.tcpSocket ≠ .ConnectedState) :
    (signals (c.outputs e)).foldl balances players = ∅ := by
  obtain ⟨out, hturn, hout⟩ := turn_of_step h
  rw [hout]
  cases hturn with
  | connectToServer host tcpPort udpPort playerId =>
    rw [connectToServer_snd, signals_append, List.foldl_append]
    rfl
  | disconnectFromServer =>
    rw [disconnectFromServer_snd]
    rfl
  | bound localPort htcp => exact absurd rfl hd
  | bindFailed localPort errorString htcp => rfl
  | disconnected htcp =>
    rw [hc.manual_eq_false (by simp [htcp])]
    rfl
  | attemptFailed socketError errorString htcp => rfl
  | closedByServer errorString htcp => exact absurd htcp hd
  | connectionError socketError errorString htcp herror => rfl
  | tcpReadyRead data htcp => exact absurd htcp hd
  | udpReadyRead datagram hudp => exact absurd (hc.udp hudp) hd
  | lastTick htimer htcp => exact absurd htcp hd
  | tick htimer htcp => exact hplayers htcp

theorem balances_of_run (hc : c.Tidy) (hplayers : c.tcpSocket ≠ .ConnectedState → players = ∅)
    (h : run step c es = some d) (hd : d.tcpSocket ≠ .ConnectedState) :
    (signals (collect step outputs c es)).foldl balances players = ∅ := by
  induction es generalizing c players with
  | nil =>
    cases h
    exact hplayers hd
  | cons e es ih =>
    obtain ⟨c', hc', hd'⟩ := run_cons_eq_some.mp h
    rw [collect_cons hc', signals_append, List.foldl_append]
    exact ih (tidy_step hc hc') (balances_step hc hplayers hc') hd'

end Connection

/-- The update a datagram brings. -/
def updateOf (datagram : List UInt8) : Option WorldUpdate :=
  (({} : GameNetworkClient).applyDatagram datagram).2.2

theorem applyDatagram_update (c : GameNetworkClient) (datagram : List UInt8) :
    (c.applyDatagram datagram).2.2 = updateOf datagram := by
  unfold updateOf GameNetworkClient.applyDatagram
  cases parseUdpWorldPacket datagram <;> rfl

/-- The updates among some outputs. -/
def updatesOf (out : List Output) : List WorldUpdate :=
  out.filterMap fun o =>
    match o with
    | .worldUpdateReceived u => some u
    | _ => none

theorem updatesOf_append (out out' : List Output) :
    updatesOf (out ++ out') = updatesOf out ++ updatesOf out' := List.filterMap_append ..

theorem updatesOf_signals (out : List Output) : updatesOf (signals out) = updatesOf out := by
  rw [updatesOf, updatesOf, signals, List.filterMap_filter]
  congr 1
  funext o
  cases o <;> rfl

@[simp] theorem updatesOf_written (bytes : List UInt8) : updatesOf (written bytes) = [] := by
  rw [← updatesOf_signals, signals_written]
  rfl

theorem foldl_modelAfter (out : List Output) (m : WorldModel) :
    out.foldl modelAfter m = (updatesOf out).foldl
      (fun m u => m.applyUpdate u.seqNum u.fullSnapshot u.chunkX u.chunkY u.updates) m := by
  induction out generalizing m with
  | nil => rfl
  | cons o out ih => cases o <;> exact ih _

theorem model_foldl_receive (ds : List (List UInt8)) (c : ClientState) :
    (ds.foldl ClientState.receive c).model = (ds.filterMap updateOf).foldl
      (fun m u => m.applyUpdate u.seqNum u.fullSnapshot u.chunkX u.chunkY u.updates) c.model := by
  induction ds generalizing c with
  | nil => rfl
  | cons d ds ih =>
    rw [List.foldl_cons, ih, ClientState.receive, applyDatagram_update]
    cases hupdate : updateOf d with
    | none => rw [List.filterMap_cons_none hupdate]
    | some u => rw [List.filterMap_cons_some hupdate, List.foldl_cons]

/-- The datagram an event reads. -/
def ConnectionEvent.datagram : ConnectionEvent → Option (List UInt8)
  | .udpReadyRead datagram => some datagram
  | _ => none

/-- Updates come from datagrams only, one from each that can be parsed. -/
theorem Connection.updatesOf_outputs {c d : Connection} {e : ConnectionEvent}
    (h : c.step e = some d) :
    updatesOf (c.outputs e) = e.datagram.toList.filterMap updateOf := by
  obtain ⟨out, hturn, hout⟩ := turn_of_step h
  rw [hout]
  cases hturn with
  | connectToServer host tcpPort udpPort playerId =>
    rw [connectToServer_snd]
    split_ifs <;> rfl
  | disconnectFromServer =>
    rw [disconnectFromServer_snd]
    rfl
  | bound localPort htcp => rfl
  | bindFailed localPort errorString htcp => rfl
  | disconnected htcp => split_ifs <;> rfl
  | attemptFailed socketError errorString htcp => rfl
  | closedByServer errorString htcp => rfl
  | connectionError socketError errorString htcp herror => rfl
  | tcpReadyRead data htcp =>
    rw [updatesOf, List.filterMap_map]
    exact List.filterMap_eq_nil_iff.mpr fun u _ => rfl
  | udpReadyRead datagram hudp =>
    rw [onUdpReadyRead, updatesOf_append, applyDatagram_update, ConnectionEvent.datagram]
    cases hupdate : updateOf datagram with
    | none => split_ifs <;> simp [updatesOf, hupdate]
    | some u => split_ifs <;> simp [updatesOf, hupdate]
  | lastTick htimer htcp => rfl
  | tick htimer htcp => rfl

/-! ## The threads -/

/-- The window, the calls posted to the network thread, the connection, and the events posted to
the UI thread. -/
structure ClientProcess where
  window : GameWindow := {}
  calls : List NetworkCall := []
  connection : Connection := {}
  events : List UiEvent := []

/-- Who takes the next step. -/
inductive ClientLabel where
  | user (action : UserAction)
  /-- The event loop of the UI thread. -/
  | uiEvent
  /-- The event loop of the network thread. -/
  | invoke
  /-- A socket or the timer. -/
  | network (e : ConnectionEvent)

/-- An event of the user is a posted call, and no event of the network. -/
def ConnectionEvent.isCall : ConnectionEvent → Bool
  | .connectToServer .. | .disconnectFromServer => true
  | _ => false

namespace ClientProcess

def step (s : ClientProcess) : ClientLabel → Option ClientProcess
  | .user action =>
    let r := s.window.onAction action
    some { s with window := r.1, calls := s.calls ++ r.2 }
  | .uiEvent =>
    match s.events with
    | [] => none
    | .runtime signal :: events => some { s with events := events ++ [.window signal] }
    | .window signal :: events => some
      { s with window := s.window.onSignal signal, events := events }
  | .invoke =>
    match s.calls with
    | [] => none
    | call :: calls =>
      let r := s.connection.invoke call
      some
        { s with
          calls := calls
          connection := r.1
          events := s.events ++ (signals r.2).map .runtime }
  | .network e =>
    if e.isCall = true then none
    else
      (s.connection.react e).map fun r =>
        { s with connection := r.1, events := s.events ++ (signals r.2).map .runtime }

/-- What the network thread writes and emits. -/
def outputs (s : ClientProcess) : ClientLabel → List Output
  | .user _ => []
  | .uiEvent => []
  | .invoke =>
    match s.calls with
    | [] => []
    | call :: _ => (s.connection.invoke call).2
  | .network e => s.connection.outputs e

/-- The signal the window is shown. -/
def shown (s : ClientProcess) : ClientLabel → List Output
  | .user _ => []
  | .uiEvent =>
    match s.events with
    | .window signal :: _ => [signal]
    | _ => []
  | .invoke => []
  | .network _ => []

/-- What the network thread does, as an event of the connection. -/
def connectionEvents (s : ClientProcess) : ClientLabel → List ConnectionEvent
  | .user _ => []
  | .uiEvent => []
  | .invoke =>
    match s.calls with
    | .connectToServer params :: _ =>
      [.connectToServer params.host params.tcpPort params.udpPort params.playerId]
    | .disconnectFromServer :: _ => [.disconnectFromServer]
    | _ => []
  | .network e => [e]

/-- What a step does, one constructor for each branch that lets it happen. -/
inductive Turn (s : ClientProcess) : ClientLabel → ClientProcess → Prop where
  | user (action : UserAction) :
    Turn s (.user action)
      { s with
        window := (s.window.onAction action).1
        calls := s.calls ++ (s.window.onAction action).2 }
  | runtime (signal : Output) (events : List UiEvent)
      (hevents : s.events = .runtime signal :: events) :
    Turn s .uiEvent { s with events := events ++ [.window signal] }
  | window (signal : Output) (events : List UiEvent)
      (hevents : s.events = .window signal :: events) :
    Turn s .uiEvent { s with window := s.window.onSignal signal, events := events }
  | invoke (call : NetworkCall) (calls : List NetworkCall) (hcalls : s.calls = call :: calls) :
    Turn s .invoke
      { s with
        calls := calls
        connection := (s.connection.invoke call).1
        events := s.events ++ (signals (s.connection.invoke call).2).map .runtime }
  | network (e : ConnectionEvent) (c : Connection) (out : List Output) (he : e.isCall = false)
      (hreact : s.connection.react e = some (c, out)) :
    Turn s (.network e)
      { s with connection := c, events := s.events ++ (signals out).map .runtime }

variable {s s' t : ClientProcess} {l : ClientLabel} {ls : List ClientLabel}

theorem turn_of_step (h : s.step l = some s') : s.Turn l s' := by
  cases l with
  | user action =>
    cases h
    exact .user action
  | uiEvent =>
    cases hevents : s.events with
    | nil =>
      rw [step, hevents] at h
      cases h
    | cons event events =>
      cases event with
      | runtime signal =>
        rw [step, hevents] at h
        cases h
        exact .runtime signal events hevents
      | window signal =>
        rw [step, hevents] at h
        cases h
        exact .window signal events hevents
  | invoke =>
    cases hcalls : s.calls with
    | nil =>
      rw [step, hcalls] at h
      cases h
    | cons call calls =>
      rw [step, hcalls] at h
      cases h
      exact .invoke call calls hcalls
  | network e =>
    rw [step] at h
    split_ifs at h with he
    obtain ⟨⟨c, out⟩, hreact, rfl⟩ := Option.map_eq_some_iff.mp h
    exact .network e c out (Bool.eq_false_of_not_eq_true he) hreact

/-! ## The network thread -/

theorem connection_step (h : s.step l = some s') :
    run Connection.step s.connection (s.connectionEvents l) = some s'.connection := by
  cases turn_of_step h with
  | user action => rfl
  | runtime signal events hevents => rfl
  | window signal events hevents => rfl
  | invoke call calls hcalls =>
    rw [connectionEvents, hcalls]
    cases call <;> rfl
  | network e c out he hreact =>
    rw [connectionEvents, run_cons_eq_some]
    exact ⟨c, by rw [Connection.step, hreact]; rfl, rfl⟩

/-- **The network thread is a connection**, whose user is the queue of calls. -/
theorem connection_of_run (h : run step s ls = some t) :
    run Connection.step s.connection (collect step connectionEvents s ls) = some t.connection :=
  run_collect (fun _ _ _ h => connection_step h) h

theorem signals_outputs (h : s.step l = some s') : signals (s.outputs l) =
    signals (collect Connection.step Connection.outputs s.connection (s.connectionEvents l)) := by
  cases turn_of_step h with
  | user action => rfl
  | runtime signal events hevents => rfl
  | window signal events hevents => rfl
  | invoke call calls hcalls =>
    rw [outputs, connectionEvents, hcalls]
    cases call with
    | connectToServer params =>
      rw [collect_cons rfl, collect_nil, List.append_nil]
      rfl
    | disconnectFromServer =>
      rw [collect_cons rfl, collect_nil, List.append_nil]
      rfl
    | send call => exact signals_written _
    | sendResync => exact signals_written _
  | network e c out he hreact =>
    have hc : s.connection.step e = some c := by rw [Connection.step, hreact]; rfl
    rw [outputs, connectionEvents, collect_cons hc, collect_nil, List.append_nil]

/-- What the process emits, its connection emits. -/
theorem signals_collect_outputs (h : run step s ls = some t) :
    signals (collect step outputs s ls) = signals (collect Connection.step Connection.outputs
      s.connection (collect step connectionEvents s ls)) := by
  induction ls generalizing s with
  | nil => rfl
  | cons l ls ih =>
    obtain ⟨s', hs', ht⟩ := run_cons_eq_some.mp h
    rw [collect_cons hs', collect_cons hs', signals_append, ih ht,
      collect_append (connection_step hs'), signals_append, signals_outputs hs']

theorem tidy_start : ({} : Connection).Tidy :=
  ⟨fun h => (by cases h), fun h => (by cases h), fun _ => rfl⟩

theorem tidy_of_run (h : run step {} ls = some t) : t.connection.Tidy :=
  Connection.tidy_of_run tidy_start (connection_of_run h)

/-! ## The signals -/

/-- The signals under way, in the order in which the window will be shown them: those that have
been through `ClientRuntime` first. -/
def pending (s : ClientProcess) : List Output :=
  (s.events.filterMap fun event =>
    match event with
    | .window signal => some signal
    | .runtime _ => none) ++
  s.events.filterMap fun event =>
    match event with
    | .runtime signal => some signal
    | .window _ => none

theorem pending_append_runtime (window window' : GameWindow) (calls calls' : List NetworkCall)
    (connection connection' : Connection) (events : List UiEvent) (out : List Output) :
    pending ⟨window', calls', connection', events ++ out.map .runtime⟩ =
      pending ⟨window, calls, connection, events⟩ ++ out := by
  simp only [pending, List.filterMap_append, List.filterMap_map, List.append_assoc]
  have hnone : out.filterMap ((fun event : UiEvent =>
      match event with
      | .window signal => some signal
      | .runtime _ => none) ∘ UiEvent.runtime) = [] :=
    List.filterMap_eq_nil_iff.mpr fun _ _ => rfl
  have hall : out.filterMap ((fun event : UiEvent =>
      match event with
      | .runtime signal => some signal
      | .window _ => none) ∘ UiEvent.runtime) = out :=
    List.filterMap_some
  rw [hnone, hall, List.nil_append]

theorem pending_eq_nil (h : s.events = []) : s.pending = [] := by
  rw [pending, h]
  rfl

theorem shown_step (h : s.step l = some s') :
    s.shown l ++ s'.pending = s.pending ++ signals (s.outputs l) := by
  cases turn_of_step h with
  | user action => exact (List.append_nil _).symm
  | runtime signal events hevents =>
    rw [shown, outputs, hevents]
    simp [pending, hevents, signals]
  | window signal events hevents =>
    rw [shown, outputs, hevents]
    simp [pending, hevents, signals]
  | invoke call calls hcalls =>
    rw [shown, outputs, hcalls, List.nil_append]
    exact pending_append_runtime _ _ _ _ _ _ _ _
  | network e c out he hreact =>
    rw [shown, outputs, Connection.outputs, hreact, List.nil_append]
    exact pending_append_runtime _ _ _ _ _ _ _ _

/-- **Nothing is lost or overtaken** on the way to the window. -/
theorem shown_of_run (h : run step s ls = some t) :
    collect step shown s ls ++ t.pending = s.pending ++ signals (collect step outputs s ls) :=
  collect_queue (φ := id) (ψ := signals) (q := pending) (fun _ _ => rfl) signals_append
    (fun _ _ _ h => shown_step h) h

/-! ## What the window is -/

/-- **A part of the window that only signals change** is what the signals shown make of it. -/
theorem view_of_run {α : Type*} {v : GameWindow → α} {f : α → Output → α} {P : UserAction → Prop}
    (hsignal : ∀ g signal, v (g.onSignal signal) = f (v g) signal)
    (haction : ∀ g action, P action → v (g.onAction action).1 = v g)
    (hls : ∀ action, .user action ∈ ls → P action) (h : run step s ls = some t) :
    v t.window = (collect step shown s ls).foldl f (v s.window) := by
  induction ls generalizing s with
  | nil =>
    cases h
    rfl
  | cons l ls ih =>
    obtain ⟨s', hs', ht⟩ := run_cons_eq_some.mp h
    rw [collect_cons hs', List.foldl_append, ih (fun action ha => hls action (List.mem_cons_of_mem l ha)) ht]
    congr 1
    cases turn_of_step hs' with
    | user action => exact haction s.window action (hls action List.mem_cons_self)
    | runtime signal events hevents =>
      rw [shown, hevents]
      rfl
    | window signal events hevents =>
      rw [shown, hevents]
      exact hsignal s.window signal
    | invoke call calls hcalls => rfl
    | network e c out he hreact => rfl

/-! ## The balances -/

/-- The balances the window will go by when it has been shown what is under way. -/
def settledPlayers (s : ClientProcess) : Finmap fun _ : UInt64 => GameNetworkClient.PlayerSnapshot :=
  s.pending.foldl balances s.window.serverPlayers

theorem settledPlayers_of_run (h : run step s ls = some t) :
    t.settledPlayers = (signals (collect step outputs s ls)).foldl balances s.settledPlayers := by
  have hview := view_of_run (v := GameWindow.serverPlayers) (P := fun _ => True)
    GameWindow.serverPlayers_onSignal (fun g action _ => g.serverPlayers_onAction action)
    (fun _ _ => trivial) h
  rw [settledPlayers, settledPlayers, hview, ← List.foldl_append, ← List.foldl_append, shown_of_run h]

theorem settledPlayers_eq (h : s.events = []) : s.settledPlayers = s.window.serverPlayers := by
  rw [settledPlayers, pending_eq_nil h]
  rfl

/-- Without a connection there are no balances. -/
theorem settledPlayers_of_not_connected (h : run step {} ls = some t)
    (htcp : t.connection.tcpSocket ≠ .ConnectedState) : t.settledPlayers = ∅ := by
  rw [settledPlayers_of_run h, signals_collect_outputs h]
  exact Connection.balances_of_run tidy_start (fun _ => rfl) (connection_of_run h) htcp

/-- **The balances the window goes by**, when no signal is under way: there are none without a
connection, and those there are come from what this connection has brought. -/
theorem serverPlayers_of_run (h : run step {} ls = some t) (hquiet : t.events = []) :
    (t.connection.tcpSocket ≠ .ConnectedState → t.window.serverPlayers = ∅) ∧
    ∀ before localPort bindError after s,
      ls = before ++ .network (.tcpConnected localPort bindError) :: after →
      run step {} before = some s →
      t.window.serverPlayers = (signals (collect step outputs s
        (.network (.tcpConnected localPort bindError) :: after))).foldl balances ∅ := by
  rw [← settledPlayers_eq hquiet]
  refine ⟨settledPlayers_of_not_connected h, ?_⟩
  rintro before localPort bindError after s rfl hs
  obtain ⟨s', hs', hafter⟩ := run_append.mp h
  cases hs.symm.trans hs'
  have htcp : s.connection.tcpSocket ≠ .ConnectedState := by
    obtain ⟨s₁, hs₁, -⟩ := run_cons_eq_some.mp hafter
    cases turn_of_step hs₁ with
    | network e c out he hreact =>
      cases Connection.turn_of_react hreact with
      | bound _ htcp => simp [htcp]
      | bindFailed _ _ htcp => simp [htcp]
  rw [settledPlayers_of_run hafter, settledPlayers_of_not_connected hs htcp]

/-- Player 7, on this machine. -/
def localParams : ConnectionParams :=
  ⟨"localhost", 4000, 4001, 7, by decide, by decide, by decide, by decide⟩

/-- Player 7 has 5 to spend and 3 cells. -/
def statistics : List UInt8 :=
  [0x20, 1, 0, 0, 0, 1, 0, 7, 0, 0, 0, 0, 0, 0, 0, 5, 0, 0, 0, 0, 0, 0, 0, 3, 0, 0, 0, 0, 0, 0, 0]

theorem onTcpReadyRead_statistics :
    GameNetworkClient.onTcpReadyRead [] statistics = ([], [⟨1, [⟨7, 5, 3⟩]⟩]) := by
  have hparse : GameNetworkClient.statsParser.parse statistics = (some ⟨1, [⟨7, 5, 3⟩]⟩, []) := rfl
  have hrest : GameNetworkClient.statsParser.parse [] = (none, []) := rfl
  rw [GameNetworkClient.onTcpReadyRead, List.nil_append, BufferParser.drain_of_some hparse,
    BufferParser.drain_of_none hrest]
  rfl

/-- A client is connected. -/
def opened : List ClientLabel :=
  [.user (.openConnectionDialog localParams), .invoke, .network (.tcpConnected 50000 none)]

/-- Everything is shown, the connection is lost, and that is shown. -/
def lost : List ClientLabel :=
  [.uiEvent, .uiEvent, .uiEvent, .uiEvent, .uiEvent, .uiEvent, .network .tcpDisconnected, .uiEvent,
    .uiEvent]

/-- The balance is gone with the connection. -/
theorem serverPlayers_of_run_lost : ∃ t,
    run step {} (opened ++ .network (.tcpReadyRead statistics) :: lost) = some t ∧
      t.window.status = "Connection lost, trying to reconnect ..." ∧ t.window.serverPlayers = ∅ := by
  obtain ⟨s, hs, hcalls, hconnection, hevents⟩ : ∃ s, run step {} opened = some s ∧ s.calls = [] ∧
      s.connection = ⟨.ConnectedState, .BoundState, false, "localhost", 4000, 4001, 7, false, none,
        []⟩ ∧
      s.events = [.runtime (.connectionStateChanged "Connecting to %1:%2 ..." ["localhost", "4000"]
        false), .runtime (.connectionStateChanged "Connected as player %1 (UDP %2)" ["7", "50000"]
        true)] :=
    ⟨_, rfl, rfl, rfl, rfl⟩
  have hread : s.step (.network (.tcpReadyRead statistics)) = some
      { s with events := s.events ++ [.runtime (.serverStatsUpdated ⟨1, [⟨7, 5, 3⟩]⟩)] } := by
    rw [step, if_neg (by decide), Connection.react, hconnection, if_pos rfl, Connection.onTcpReadyRead,
      onTcpReadyRead_statistics, ← hconnection]
    rfl
  obtain ⟨t, ht, hquiet, htcp, hstatus⟩ : ∃ t,
      run step { s with events := s.events ++ [.runtime (.serverStatsUpdated ⟨1, [⟨7, 5, 3⟩]⟩)] }
        lost = some t ∧ t.events = [] ∧ t.connection.tcpSocket = .UnconnectedState ∧
        t.window.status = "Connection lost, trying to reconnect ..." := by
    rw [hevents, hconnection]
    exact ⟨_, rfl, rfl, rfl, rfl⟩
  have hrun := run_append.mpr ⟨s, hs, run_cons_eq_some.mpr ⟨_, hread, ht⟩⟩
  exact ⟨t, hrun, hstatus, (serverPlayers_of_run hrun hquiet).1 (by simp [htcp])⟩

/-! ## The model -/

/-- The datagrams read on the way. -/
def datagrams (ls : List ClientLabel) : List (List UInt8) :=
  ls.filterMap fun l =>
    match l with
    | .network e => e.datagram
    | _ => none

theorem updatesOf_outputs (h : s.step l = some s') :
    updatesOf (s.outputs l) = (datagrams [l]).filterMap updateOf := by
  cases turn_of_step h with
  | user action => rfl
  | runtime signal events hevents => rfl
  | window signal events hevents => rfl
  | invoke call calls hcalls =>
    rw [outputs, hcalls]
    cases call with
    | connectToServer params =>
      exact Connection.updatesOf_outputs (c := s.connection)
        (e := .connectToServer params.host params.tcpPort params.udpPort params.playerId) rfl
    | disconnectFromServer =>
      exact Connection.updatesOf_outputs (c := s.connection) (e := .disconnectFromServer) rfl
    | send call => exact updatesOf_written _
    | sendResync => exact updatesOf_written _
  | network e c out he hreact =>
    have hc : s.connection.step e = some c := by rw [Connection.step, hreact]; rfl
    have hdatagram : datagrams [.network e] = e.datagram.toList := by
      cases hread : e.datagram <;> simp [datagrams, hread]
    rw [outputs, Connection.updatesOf_outputs hc, hdatagram]

theorem updatesOf_collect_outputs (h : run step s ls = some t) :
    updatesOf (collect step outputs s ls) = (datagrams ls).filterMap updateOf := by
  induction ls generalizing s with
  | nil => rfl
  | cons l ls ih =>
    obtain ⟨s', hs', ht⟩ := run_cons_eq_some.mp h
    have hcons : datagrams (l :: ls) = datagrams [l] ++ datagrams ls :=
      List.filterMap_append (l := [l]) ..
    rw [collect_cons hs', updatesOf_append, ih ht, updatesOf_outputs hs', hcons, List.filterMap_append]

/-- The model is built from the first of the datagrams, and the others are on their way. -/
theorem worldModel_of_datagrams (hpending : updatesOf s.pending = [])
    (hls : ∀ action, .user action ∈ ls → GameWindow.KeepsSession action)
    (h : run step s ls = some t) :
    ∃ received unshown, received ++ unshown = datagrams ls ∧
      t.window.worldModel =
        (received.foldl ClientState.receive { model := s.window.worldModel }).model ∧
      unshown.filterMap updateOf = updatesOf t.pending := by
  have hview := view_of_run (v := GameWindow.worldModel) GameWindow.worldModel_onSignal
    (fun g action haction => (g.sameView_onAction haction).worldModel) hls h
  have hshown := congrArg updatesOf (shown_of_run h)
  rw [updatesOf_append, updatesOf_append, hpending, List.nil_append, updatesOf_signals,
    updatesOf_collect_outputs h] at hshown
  obtain ⟨received, unshown, hsplit, hreceived, hunshown⟩ :=
    List.filterMap_eq_append_iff.mp hshown.symm
  refine ⟨received, unshown, hsplit.symm, ?_, hunshown⟩
  rw [hview, foldl_modelAfter, model_foldl_receive, hreceived]

/-- Nothing is posted, and the connection does nothing by itself. -/
structure AtRest (s : ClientProcess) : Prop where
  calls : s.calls = []
  events : s.events = []
  tcpSocket : s.connection.tcpSocket = .UnconnectedState
  reconnectTimer : s.connection.reconnectTimer = false

/-- The connection does nothing by itself. -/
def Idle (c : Connection) : Prop :=
  c.tcpSocket = .UnconnectedState ∧ c.udpSocket ≠ .BoundState ∧ c.reconnectTimer = false

theorem react_of_idle {c : Connection} {e : ConnectionEvent} (hc : Idle c)
    (he : e.isCall = false) : c.react e = none := by
  obtain ⟨htcp, hudp, htimer⟩ := hc
  cases e with
  | connectToServer host tcpPort udpPort playerId => cases he
  | disconnectFromServer => cases he
  | tcpConnected localPort bindError => simp [Connection.react, htcp]
  | tcpDisconnected => simp [Connection.react, htcp]
  | tcpError socketError errorString => simp [Connection.react, htcp]
  | tcpReadyRead data => simp [Connection.react, htcp]
  | udpReadyRead datagram => simp [Connection.react, hudp]
  | timeout => simp [Connection.react, htimer]

/-- Until the first call comes through, an idle connection reads nothing. -/
theorem datagrams_of_idle (hs : Idle s.connection) (hls : ∀ l ∈ ls, l ≠ .invoke)
    (h : run step s ls = some t) : datagrams ls = [] := by
  induction ls generalizing s with
  | nil => rfl
  | cons l ls ih =>
    obtain ⟨s', hs', ht⟩ := run_cons_eq_some.mp h
    have hrest : ∀ l ∈ ls, l ≠ ClientLabel.invoke := fun l' hl' => hls l' (List.mem_cons_of_mem l hl')
    cases turn_of_step hs' with
    | user action => exact ih (by exact hs) hrest ht
    | runtime signal events hevents => exact ih (by exact hs) hrest ht
    | window signal events hevents => exact ih (by exact hs) hrest ht
    | invoke call calls hcalls => exact absurd rfl (hls .invoke List.mem_cons_self)
    | network e c out he hreact =>
      rw [react_of_idle hs he] at hreact
      cases hreact

/-- **The model after a client at rest is connected**, as long as it is not connected anew: it is
built from the first of the datagrams read since, in this order, and from all of them when no
signal is under way; and none of them was read before the call had come through. -/
theorem worldModel_of_run {ls₀ : List ClientLabel} (h₀ : run step {} ls₀ = some s)
    (hrest : s.AtRest) (params : ConnectionParams)
    (hls : ∀ action, .user action ∈ ls → GameWindow.KeepsSession action)
    (h : run step s (.user (.openConnectionDialog params) :: ls) = some t) :
    (∃ received, received <+: datagrams ls ∧
      t.window.worldModel = (received.foldl ClientState.receive {}).model) ∧
    (t.events = [] →
      t.window.worldModel = ((datagrams ls).foldl ClientState.receive {}).model) ∧
    ∀ before after, ls = before ++ after → .invoke ∉ before → datagrams before = [] := by
  obtain ⟨s', hs', ht⟩ := run_cons_eq_some.mp h
  cases hs'
  have hpending : updatesOf
      (pending ⟨{ s.window with playerId := params.playerId, worldModel := {} },
        s.calls ++ [.connectToServer params], s.connection, s.events⟩) = [] := by
    rw [pending_eq_nil (by exact hrest.events)]
    rfl
  obtain ⟨received, unshown, hsplit, hmodel, hunshown⟩ := worldModel_of_datagrams hpending hls ht
  refine ⟨⟨received, ⟨unshown, hsplit⟩, hmodel⟩, fun hquiet => ?_, ?_⟩
  · rw [pending_eq_nil hquiet] at hunshown
    rw [hmodel, ← hsplit, model_foldl_receive, model_foldl_receive, List.filterMap_append, hunshown]
    exact congrArg _ (List.append_nil _).symm
  · rintro before after rfl hbefore
    obtain ⟨m, hm, -⟩ := run_append.mp ht
    have htidy := tidy_of_run h₀
    have hudp : s.connection.udpSocket ≠ .BoundState := fun hbound => by
      cases hrest.tcpSocket.symm.trans (htidy.udp hbound)
    have hnone : ∀ l ∈ before, l ≠ ClientLabel.invoke := by
      rintro l hl rfl
      exact hbefore hl
    exact datagrams_of_idle (by exact ⟨hrest.tcpSocket, hudp, hrest.reconnectTimer⟩) hnone hm

/-- A snapshot of the chunk at the origin, whose first cell belongs to player 7. -/
def snapshot : List UInt8 :=
  [1, 0, 0, 0, 1, 0, 0, 0, 0, 0, 0, 0, 0, 1, 0, 0, 0, 1, 7, 0, 0, 0, 0, 0, 0, 0]

/-- The call comes through, a snapshot comes in, and everything is shown. -/
def fresh : List ClientLabel :=
  [.invoke, .network (.tcpConnected 50000 none), .network (.udpReadyRead snapshot), .uiEvent,
    .uiEvent, .uiEvent, .uiEvent, .uiEvent, .uiEvent]

theorem worldModel_of_run_fresh : ∃ t,
    run step {} (.user (.openConnectionDialog localParams) :: fresh) = some t ∧
      t.window.worldModel = ([snapshot].foldl ClientState.receive {}).model ∧
      t.window.worldModel.ownerAt 0 0 = 7 := by
  obtain ⟨t, ht, hquiet, howner⟩ : ∃ t,
      run step {} (.user (.openConnectionDialog localParams) :: fresh) = some t ∧ t.events = [] ∧
        t.window.worldModel.ownerAt 0 0 = 7 :=
    ⟨_, rfl, rfl, rfl⟩
  have hstart : run step ({} : ClientProcess) [] = some {} := rfl
  have hkeeps : ∀ action, ClientLabel.user action ∈ fresh → GameWindow.KeepsSession action := by
    simp [fresh]
  exact ⟨t, ht, (worldModel_of_run hstart ⟨rfl, rfl, rfl, rfl⟩ localParams hkeeps ht).2.1 hquiet,
    howner⟩

/-- **Connected anew too early**: an update of the old connection that is under way when the
dialog is accepted comes into the model that was just emptied, and is there before the new
connection is. -/
theorem ownerAt_of_reconnect : ∃ t, run step {}
    (.user (.openConnectionDialog localParams) :: (fresh.take 3 ++
      [.user (.openConnectionDialog localParams)] ++ fresh.drop 3 ++ [.invoke])) = some t ∧
      t.connection.tcpSocket = .ConnectingState ∧ t.window.worldModel.ownerAt 0 0 = 7 :=
  ⟨_, rfl, rfl, rfl⟩

end ClientProcess
end Multilife.Client

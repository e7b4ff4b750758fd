import Multilife.System.Announcements
import Multilife.System.Uplink

/-!
# From a tick to the side panel

What a connection of the client reads is what the server wrote to its session, as far as it has
arrived.  The network thread cuts it into messages, and the window is shown the last of them, unless
the connection has been reported lost since.

* `statsOf_of_run`: the signals of a connection are those of the bytes it has read.
* `serverPlayers_of_last`: the window goes by the last of them, or by nothing.
* `panel_of_run`: so what it shows are the accounts and the live cells of one tick.
-/

namespace Multilife

open Transition

namespace Client

open GameNetworkClient

/-! ## The last statistics -/

/-- The statistics among some outputs. -/
def statsOf (out : List Output) : List StatsUpdate :=
  out.filterMap fun o =>
    match o with
    | .serverStatsUpdated u => some u
    | _ => none

theorem statsOf_append (out out' : List Output) :
    statsOf (out ++ out') = statsOf out ++ statsOf out' := List.filterMap_append ..

theorem statsOf_signals (out : List Output) : statsOf (signals out) = statsOf out := by
  rw [statsOf, statsOf, signals, List.filterMap_filter]
  congr 1
  funext o
  cases o <;> rfl

@[simp] theorem statsOf_written (bytes : List UInt8) : statsOf (written bytes) = [] := by
  rw [← statsOf_signals, signals_written]
  rfl

/-- **The balances after some signals** are those of the last statistics, or there are none. -/
theorem foldl_balances {out : List Output} (hne : out.foldl balances ∅ ≠ ∅) :
    ∃ u, (statsOf out).getLast? = some u ∧
      out.foldl balances ∅ = balances ∅ (.serverStatsUpdated u) := by
  induction out using List.reverseRecOn with
  | nil => exact absurd rfl hne
  | append_singleton out o ih =>
    rw [List.foldl_append, List.foldl_cons, List.foldl_nil] at hne ⊢
    rw [statsOf_append]
    cases o with
    | write bytes =>
      obtain ⟨u, hlast, hbalances⟩ := ih hne
      exact ⟨u, by rw [← hlast]; exact congrArg _ (List.append_nil _), hbalances⟩
    | connectionStateChanged format args connected =>
      cases connected with
      | true =>
        obtain ⟨u, hlast, hbalances⟩ := ih hne
        exact ⟨u, by rw [← hlast]; exact congrArg _ (List.append_nil _), hbalances⟩
      | false => exact absurd rfl hne
    | worldUpdateReceived u =>
      obtain ⟨u, hlast, hbalances⟩ := ih hne
      exact ⟨u, by rw [← hlast]; exact congrArg _ (List.append_nil _), hbalances⟩
    | serverStatsUpdated u => exact ⟨u, List.getLast?_concat, rfl⟩

/-! ## The bytes of a connection -/

/-- The bytes an event reads from TCP. -/
def ConnectionEvent.data : ConnectionEvent → Option (List UInt8)
  | .tcpReadyRead data => some data
  | _ => none

namespace ClientProcess

variable {s s' t : ClientProcess} {l : ClientLabel} {ls : List ClientLabel}

/-- The fragments read from TCP on the way. -/
def fragments (ls : List ClientLabel) : List (List UInt8) :=
  ls.filterMap fun l =>
    match l with
    | .network e => e.data
    | _ => none

theorem fragments_cons (l : ClientLabel) (ls : List ClientLabel) :
    fragments (l :: ls) = fragments [l] ++ fragments ls :=
  List.filterMap_append (l := [l]) ..

/-- What a step does to the stream: it leaves it alone, closes it, or reads on. -/
theorem reads_step (hl : l.connects = false) (h : s.step l = some s') :
    (fragments [l] = [] ∧ statsOf (s.outputs l) = [] ∧
      (s'.connection.tcpSocket = .ConnectedState → s.connection.tcpSocket = .ConnectedState ∧
        s'.connection.tcpReadBuffer = s.connection.tcpReadBuffer)) ∨
    ∃ data, fragments [l] = [data] ∧ s.connection.tcpSocket = .ConnectedState ∧
      statsOf (s.outputs l) = (onTcpReadyRead s.connection.tcpReadBuffer data).2 ∧
      s'.connection.tcpReadBuffer = (onTcpReadyRead s.connection.tcpReadBuffer data).1 := by
  cases turn_of_step h with
  | user action => exact Or.inl ⟨rfl, rfl, fun htcp => ⟨htcp, rfl⟩⟩
  | runtime signal events hevents => exact Or.inl ⟨rfl, rfl, fun htcp => ⟨htcp, rfl⟩⟩
  | window signal events hevents => exact Or.inl ⟨rfl, rfl, fun htcp => ⟨htcp, rfl⟩⟩
  | invoke call calls hcalls =>
    refine Or.inl ⟨rfl, ?_, fun htcp => ?_⟩
    · rw [outputs, hcalls]
      cases call with
      | connectToServer params =>
        show statsOf (s.connection.connectToServer params.host params.tcpPort params.udpPort
          params.playerId).2 = []
        rw [Connection.connectToServer_snd]
        split_ifs <;> rfl
      | disconnectFromServer =>
        show statsOf s.connection.disconnectFromServer.2 = []
        rw [Connection.disconnectFromServer_snd]
        rfl
      | send call => exact statsOf_written _
      | sendResync => exact statsOf_written _
    · cases call with
      | connectToServer params =>
        rw [Connection.invoke, Connection.connectToServer_fst] at htcp
        cases htcp
      | disconnectFromServer =>
        rw [Connection.invoke, Connection.disconnectFromServer_fst] at htcp
        cases htcp
      | send call => exact ⟨htcp, rfl⟩
      | sendResync => exact ⟨htcp, rfl⟩
  | network e c out he hreact =>
    have hout : s.outputs (.network e) = out := by
      rw [outputs, Connection.outputs, hreact]
      rfl
    rw [hout]
    cases Connection.turn_of_react hreact with
    | connectToServer host tcpPort udpPort playerId => cases he
    | disconnectFromServer => cases he
    | bound localPort htcp => cases hl
    | bindFailed localPort errorString htcp => cases hl
    | disconnected htcp =>
      refine Or.inl ⟨rfl, ?_, fun htcp => by cases htcp⟩
      split_ifs <;> rfl
    | attemptFailed socketError errorString htcp =>
      exact Or.inl ⟨rfl, rfl, fun htcp => by cases htcp⟩
    | closedByServer errorString htcp => exact Or.inl ⟨rfl, rfl, fun _ => ⟨htcp, rfl⟩⟩
    | connectionError socketError errorString htcp herror =>
      exact Or.inl ⟨rfl, rfl, fun _ => ⟨htcp, rfl⟩⟩
    | tcpReadyRead data htcp =>
      refine Or.inr ⟨data, rfl, htcp, ?_, rfl⟩
      rw [statsOf, List.filterMap_map]
      exact List.filterMap_some
    | udpReadyRead datagram hudp =>
      refine Or.inl ⟨rfl, ?_, fun htcp => ⟨htcp, rfl⟩⟩
      rw [Connection.onUdpReadyRead, statsOf_append]
      have hnone : statsOf ((s.connection.client.applyDatagram datagram).2.2.toList.map
          .worldUpdateReceived) = [] := by
        rw [statsOf, List.filterMap_map]
        exact List.filterMap_eq_nil_iff.mpr fun u _ => rfl
      rw [hnone, List.append_nil]
      split_ifs <;> rfl
    | lastTick htimer htcp => exact Or.inl ⟨rfl, rfl, fun _ => ⟨htcp, rfl⟩⟩
    | tick htimer htcp => exact Or.inl ⟨rfl, rfl, fun htcp => by cases htcp⟩

/-- Once the connection is closed nothing more is read, unless TCP is connected anew. -/
theorem fragments_of_closed (hs : s.connection.tcpSocket ≠ .ConnectedState)
    (hls : ∀ l ∈ ls, l.connects = false) (h : run step s ls = some t) : fragments ls = [] := by
  induction ls generalizing s with
  | nil => rfl
  | cons l ls ih =>
    obtain ⟨s', hs', ht⟩ := run_cons_eq_some.mp h
    rw [fragments_cons]
    rcases reads_step (hls l List.mem_cons_self) hs' with ⟨hnone, -, hkeeps⟩ | ⟨data, -, htcp, -⟩
    · rw [hnone, ih (fun htcp => hs (hkeeps htcp).1)
        (fun l' hl' => hls l' (List.mem_cons_of_mem l hl')) ht]
      rfl
    · exact absurd htcp hs

/-- **The statistics of a connection** are those of what it has read. -/
theorem statsOf_of_run (hls : ∀ l ∈ ls, l.connects = false) (h : run step s ls = some t)
    (ms : List ParsedServerStatsMessage) :
    ms.map toStatsUpdate ++ statsOf (collect step outputs s ls) =
      ((fragments ls).foldl statsParser.feed (ms, s.connection.tcpReadBuffer)).1.map
        toStatsUpdate := by
  induction ls generalizing s ms with
  | nil => exact List.append_nil _
  | cons l ls ih =>
    obtain ⟨s', hs', ht⟩ := run_cons_eq_some.mp h
    have hls' : ∀ l' ∈ ls, l'.connects = false := fun l' hl' => hls l' (List.mem_cons_of_mem l hl')
    rw [collect_cons hs', statsOf_append, fragments_cons, List.foldl_append]
    rcases reads_step (hls l List.mem_cons_self) hs' with ⟨hnone, hstats, hkeeps⟩ |
      ⟨data, hdata, -, hstats, hbuffer⟩
    · rw [hnone, hstats, List.nil_append, List.foldl_nil, ih hls' ht]
      by_cases htcp : s'.connection.tcpSocket = .ConnectedState
      · rw [(hkeeps htcp).2]
      · rw [fragments_of_closed htcp hls' ht]
        rfl
    · have hfeed := ih hls' ht (ms ++ (statsParser.drain (s.connection.tcpReadBuffer ++ data)).1)
      rw [List.map_append, List.append_assoc] at hfeed
      rw [hdata, hstats, List.foldl_cons, List.foldl_nil, BufferParser.feed]
      rw [hbuffer] at hfeed
      exact hfeed

variable {before after : List ClientLabel} {localPort : UInt16} {bindError : Option String}

/-- **The window goes by the last statistics** of the present connection, or by none. -/
theorem serverPlayers_of_last (hbefore : run step {} before = some s)
    (h : run step s (.network (.tcpConnected localPort bindError) :: after) = some t)
    (hafter : ∀ l ∈ after, l.connects = false) (hquiet : t.events = [])
    (hne : t.window.serverPlayers ≠ ∅) :
    ∃ msg, (statsParser.drain (fragments after).flatten).1.getLast? = some msg ∧
      t.window.serverPlayers = balances ∅ (.serverStatsUpdated (toStatsUpdate msg)) := by
  obtain ⟨s', hs', ht⟩ := run_cons_eq_some.mp h
  have hconnected : s.connection.tcpSocket ≠ .ConnectedState ∧
      s'.connection.tcpReadBuffer = s.connection.tcpReadBuffer ∧
      statsOf (s.outputs (.network (.tcpConnected localPort bindError))) = [] := by
    cases turn_of_step hs' with
    | network e c out he hreact =>
      rw [outputs, Connection.outputs, hreact]
      cases Connection.turn_of_react hreact with
      | bound localPort htcp => exact ⟨by simp [htcp], rfl, rfl⟩
      | bindFailed localPort errorString htcp => exact ⟨by simp [htcp], rfl, rfl⟩
  obtain ⟨htcp, hbuffer, hnone⟩ := hconnected
  have hstats := statsOf_of_run hafter ht []
  rw [hbuffer, (tidy_of_run hbefore).buffer htcp] at hstats
  have hempty : statsParser.drain [] = ([], []) := BufferParser.drain_of_none rfl
  have hfeed := BufferParser.foldl_feed incremental_statsParser [] (fragments after)
  rw [hempty, List.nil_append] at hfeed
  rw [hfeed, List.map_nil, List.nil_append] at hstats
  have hplayers := settledPlayers_of_run h
  rw [settledPlayers_eq hquiet, settledPlayers_of_not_connected hbefore htcp] at hplayers
  rw [hplayers] at hne ⊢
  obtain ⟨u, hlast, hbalances⟩ := foldl_balances hne
  rw [statsOf_signals, collect_cons hs', statsOf_append, hnone, List.nil_append, hstats,
    List.getLast?_map, Option.map_eq_some_iff] at hlast
  obtain ⟨msg, hmsg, rfl⟩ := hlast
  exact ⟨msg, hmsg, hbalances⟩

/-! ## Both ends -/

/-- **The side panel shows one tick.**  The client has read some of what the server wrote to its
session, in whatever fragments.  If the window goes by any balances when no signal is under way,
they are the accounts of the ledger and the live cells of the world in the state in which one tick
announced its statistics.  It is the tick of the last message that has been read whole: every
further message is one tick further.  No handshake of these runs falls between the calls by which
a tick reads the ledger. -/
theorem panel_of_run {ls : List Label} {t : State} (hserver : run State.step {} ls = some t)
    (self : SessionPtr) :
    ∃ first, ∀ {before after : List ClientLabel} {s s' : ClientProcess} {localPort : UInt16}
        {bindError : Option String},
      run step {} before = some s →
      run step s (.network (.tcpConnected localPort bindError) :: after) = some s' →
      (∀ l ∈ after, l.connects = false) →
      (fragments after).flatten <+: (collect State.step (State.writesTo self) {} ls).flatten →
      s'.events = [] → s'.window.serverPlayers ≠ ∅ →
      ∃ m, State.AnnouncesIn ls (first + (onTcpReadyReads (fragments after)).2.length) m ∧
        ∀ id, s'.window.serverPlayers.lookup id = m.snapshotOf id := by
  obtain ⟨first, -, hmessages⟩ := State.messages_of_run hserver self
  refine ⟨first, fun hbefore hclient hafter harrived hquiet hne => ?_⟩
  obtain ⟨msg, hlast, hplayers⟩ := serverPlayers_of_last hbefore hclient hafter hquiet hne
  rw [List.getLast?_eq_getElem?] at hlast
  obtain ⟨-, m, hm, hlookup⟩ := State.tick_of_message (hmessages _ harrived).1 hlast
  obtain ⟨hlt, -⟩ := List.getElem?_eq_some_iff.mp hlast
  refine ⟨m, ?_, fun id => by rw [hplayers, hlookup]⟩
  rw [State.onTcpReadyReads_eq, List.length_map]
  convert hm using 1
  omega

/-- The bytes come in, and everything is shown. -/
def informed (bytes : List UInt8) : List ClientLabel :=
  [.network (.tcpReadyRead bytes), .uiEvent, .uiEvent, .uiEvent, .uiEvent, .uiEvent, .uiEvent]

/-- The window shows the tick of the empty world. -/
theorem panel_of_run_quietTick : ∃ n m s s', run step {} [.user (.openConnectionDialog localParams),
    .invoke] = some s ∧ run step s (.network (.tcpConnected 50000 none) ::
      informed (collect State.step (State.writesTo 1) {} State.quietTick).flatten) = some s' ∧
    s'.window.serverPlayers ≠ ∅ ∧ State.AnnouncesIn State.quietTick n m ∧
    ∀ id, s'.window.serverPlayers.lookup id = m.snapshotOf id := by
  obtain ⟨msg, hwritten, hshort, hne⟩ := State.announced_quietTick
  have hdrain : statsParser.drain ([msg].flatMap ParsedServerStatsMessage.encode) = ([msg], []) :=
    State.drain_announcements (by simpa using hshort)
  rw [List.flatMap_singleton] at hdrain
  obtain ⟨s, hs, s₁, hs₁, hconnection, hevents⟩ : ∃ s, run step {}
      [.user (.openConnectionDialog localParams), .invoke] = some s ∧
      ∃ s₁, s.step (.network (.tcpConnected 50000 none)) = some s₁ ∧
      s₁.connection = ⟨.ConnectedState, .BoundState, false, "localhost", 4000, 4001, 7, false, none,
        []⟩ ∧
      s₁.events = [.runtime (.connectionStateChanged "Connecting to %1:%2 ..." ["localhost", "4000"]
        false), .runtime (.connectionStateChanged "Connected as player %1 (UDP %2)" ["7", "50000"]
        true)] :=
    ⟨_, rfl, _, rfl, rfl, rfl⟩
  have hread : s₁.step (.network (.tcpReadyRead msg.encode)) = some
      { s₁ with events := s₁.events ++ [.runtime (.serverStatsUpdated (toStatsUpdate msg))] } := by
    rw [step, if_neg (by simp [ConnectionEvent.isCall]), Connection.react, hconnection, if_pos rfl,
      Connection.onTcpReadyRead, onTcpReadyRead, List.nil_append, hdrain, ← hconnection]
    rfl
  obtain ⟨s', hs', hquiet, hplayers⟩ : ∃ s', run step { s₁ with
      events := s₁.events ++ [.runtime (.serverStatsUpdated (toStatsUpdate msg))] }
        [.uiEvent, .uiEvent, .uiEvent, .uiEvent, .uiEvent, .uiEvent] = some s' ∧ s'.events = [] ∧
      s'.window.serverPlayers = balances ∅ (.serverStatsUpdated (toStatsUpdate msg)) := by
    rw [hevents]
    exact ⟨_, rfl, rfl, rfl⟩
  have hclient : run step s (.network (.tcpConnected 50000 none) :: informed msg.encode) = some s' :=
    run_cons_eq_some.mpr ⟨s₁, hs₁, run_cons_eq_some.mpr ⟨_, hread, hs'⟩⟩
  have hafter : ∀ l ∈ informed msg.encode, l.connects = false := by
    simp [informed, ClientLabel.connects]
  have harrived : (fragments (informed msg.encode)).flatten <+:
      (collect State.step (State.writesTo 1) {} State.quietTick).flatten := by
    have hflat : (fragments (informed msg.encode)).flatten = msg.encode := List.append_nil _
    rw [hwritten, hflat]
  obtain ⟨t, hserver, -⟩ := State.run_quietTick_connected
  obtain ⟨first, hpanel⟩ := panel_of_run hserver 1
  rw [← hplayers] at hne
  obtain ⟨m, hm, hlookup⟩ := hpanel hs hclient hafter harrived hquiet hne
  rw [hwritten]
  exact ⟨_, m, s, s', hs, hclient, hne, hm, hlookup⟩

end ClientProcess
end Client
end Multilife

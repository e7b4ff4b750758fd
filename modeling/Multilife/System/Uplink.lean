import Multilife.Refinement.PendingEdits
import Multilife.System.ClientProcess
import Multilife.System.Delivery

/-!
# From a click to the server's queue

A click becomes a call, the call waits for the network thread, what is written goes through TCP,
and the session reads it back.  The id a command claims is that of the connection when the call
comes through, not that of the window when the cell is clicked.

* `Agrees`: the calls that are still posted will bring the connection to the id of the window.
* `requests_of_run`: hence the commands that are written are clicks, each with the id the window
  had then, in order and once at most.
* `stream_of_run`: a connection carries one handshake and then requests of the same id, whatever
  the user does meanwhile.
* `clicks_of_run`: what the server takes from this connection.
-/

namespace Multilife

open BoostNetworkManager Client Transition

namespace Client

/-! ## Calls and requests -/

/-- What a call asks the server for, as the player of this id. -/
def NetworkCall.request (p : PlayerId) : NetworkCall → Option Request
  | .connectToServer _ => none
  | .disconnectFromServer => none
  | .send call => some (call.request p)
  | .sendResync => some .resync

def Request.isCommand : Request → Bool
  | .command .. => true
  | .resync => false

/-- A command claims to come from the player. -/
def Request.Claims (p : PlayerId) : Request → Prop
  | .command _ playerId _ _ => playerId = p
  | .resync => True

/-- TCP is connected. -/
def ClientLabel.connects : ClientLabel → Bool
  | .network (.tcpConnected ..) => true
  | _ => false

/-- The bytes among some outputs. -/
def bytesOf (out : List Output) : List UInt8 :=
  out.flatMap fun o =>
    match o with
    | .write bytes => bytes
    | _ => []

theorem bytesOf_append (out out' : List Output) :
    bytesOf (out ++ out') = bytesOf out ++ bytesOf out' := List.flatMap_append ..

@[simp] theorem bytesOf_written (bytes : List UInt8) : bytesOf (written bytes) = bytes := by
  unfold written
  split_ifs with hnil
  · exact hnil.symm
  · exact List.append_nil bytes

/-- A request is written in the same way on every connection. -/
theorem Request.bytes_of_isConnected {c : GameNetworkClient} (hc : c.isConnected = true)
    (r : Request) : r.bytes c = r.bytes {} := by
  have hcommand : ∀ playerId type x y,
      c.sendCommand playerId type x y = GameNetworkClient.sendCommand {} playerId type x y := by
    intro playerId type x y
    rw [GameNetworkClient.sendCommand, hc]
    rfl
  cases r with
  | command type playerId x y => cases type <;> exact hcommand ..
  | resync =>
    show c.sendResync = _
    rw [GameNetworkClient.sendResync, hc]
    rfl

/-- **What a call writes**: its request, if there is a connection. -/
theorem Connection.bytesOf_invoke (c : Connection) (call : RuntimeCall) :
    bytesOf (c.invoke (.send call)).2 =
      if c.isConnected = true then (call.request c.playerId).bytes {} else [] := by
  rw [invoke, bytesOf_written]
  split_ifs with hc
  · rw [← Request.bytes_of_isConnected (c := c.client) hc]
    cases call <;> rfl
  · have hclient : c.client.isConnected = false := Bool.eq_false_of_not_eq_true hc
    cases call <;>
      simp [RuntimeCall.bytes, GameNetworkClient.sendPlaceCell, GameNetworkClient.sendRemoveCell,
        GameNetworkClient.sendToggleCell, GameNetworkClient.sendCommand, hclient]

theorem Connection.bytesOf_invoke_sendResync (c : Connection) :
    bytesOf (c.invoke .sendResync).2 =
      if c.isConnected = true then Request.resync.bytes {} else [] := by
  rw [invoke, bytesOf_written]
  split_ifs with hc
  · exact Request.bytes_of_isConnected (c := c.client) hc .resync
  · have hclient : c.client.isConnected = false := Bool.eq_false_of_not_eq_true hc
    rw [GameNetworkClient.sendResync, hclient]
    rfl

/-- Only the user gives a connection another id. -/
theorem Connection.playerId_of_react {c d : Connection} {e : ConnectionEvent} {out : List Output}
    (he : e.isCall = false) (h : c.react e = some (d, out)) : d.playerId = c.playerId := by
  cases turn_of_react h with
  | connectToServer host tcpPort udpPort playerId => cases he
  | disconnectFromServer => cases he
  | _ => rfl

namespace ClientProcess

variable {s s' t : ClientProcess} {l : ClientLabel} {ls : List ClientLabel}

/-! ## The id -/

/-- The id of a connection, if it was ever told one. -/
def named (c : Connection) : Option PlayerId := if c.playerId = 0 then none else some c.playerId

/-- The id after some calls. -/
def idAfter (id : Option PlayerId) (calls : List NetworkCall) : Option PlayerId :=
  calls.foldl
    (fun id call =>
      match call with
      | .connectToServer params => some params.playerId
      | _ => id) id

/-- What some calls ask for, each with the id of its time. -/
def requestsOf : Option PlayerId → List NetworkCall → List Request
  | _, [] => []
  | _, .connectToServer params :: calls => requestsOf (some params.playerId) calls
  | id, .disconnectFromServer :: calls => requestsOf id calls
  | id, .send call :: calls => (id.map fun p => call.request p).toList ++ requestsOf id calls
  | id, .sendResync :: calls => (id.map fun _ => .resync).toList ++ requestsOf id calls

theorem requestsOf_append (id : Option PlayerId) (calls calls' : List NetworkCall) :
    requestsOf id (calls ++ calls') = requestsOf id calls ++ requestsOf (idAfter id calls) calls' := by
  induction calls generalizing id with
  | nil => rfl
  | cons call calls ih =>
    cases call with
    | connectToServer params => exact ih (some params.playerId)
    | disconnectFromServer => exact ih id
    | send call =>
      simp only [List.cons_append, requestsOf, ih id, List.append_assoc]
      rfl
    | sendResync =>
      simp only [List.cons_append, requestsOf, ih id, List.append_assoc]
      rfl

theorem idAfter_of_keeps {calls : List NetworkCall}
    (hcalls : ∀ params, .connectToServer params ∉ calls) (id : Option PlayerId) :
    idAfter id calls = id := by
  induction calls with
  | nil => rfl
  | cons call calls ih =>
    have hrest := ih fun params hparams => hcalls params (List.mem_cons_of_mem call hparams)
    cases call with
    | connectToServer params => exact absurd List.mem_cons_self (hcalls params)
    | disconnectFromServer => exact hrest
    | send call => exact hrest
    | sendResync => exact hrest

/-- With the right id, or without any, some calls ask for what they should or for nothing. -/
theorem requestsOf_sublist {calls : List NetworkCall} {id : Option PlayerId} {p : PlayerId}
    (hcalls : ∀ params, .connectToServer params ∉ calls) (hid : ∀ q, id = some q → q = p) :
    (requestsOf id calls).Sublist (calls.filterMap (NetworkCall.request p)) := by
  induction calls with
  | nil => exact List.Sublist.refl _
  | cons call calls ih =>
    have hrest := ih fun params hparams => hcalls params (List.mem_cons_of_mem call hparams)
    cases call with
    | connectToServer params => exact absurd List.mem_cons_self (hcalls params)
    | disconnectFromServer => exact hrest
    | send call =>
      cases id with
      | none => exact hrest.cons _
      | some q =>
        cases hid q rfl
        exact hrest.cons_cons _
    | sendResync =>
      cases id with
      | none => exact hrest.cons _
      | some q => exact hrest.cons_cons _

theorem connectToServer_not_mem {action : UserAction} (h : GameWindow.KeepsSession action)
    (g : GameWindow) (params : ConnectionParams) :
    .connectToServer params ∉ (g.onAction action).2 := by
  cases action with
  | openConnectionDialog params => exact h.elim
  | _ => simp [GameWindow.onAction]

/-- A call changes the id as it should. -/
theorem named_invoke (c : Connection) (call : NetworkCall) :
    named (c.invoke call).1 = idAfter (named c) [call] := by
  cases call with
  | connectToServer params =>
    show named (c.connectToServer params.host params.tcpPort params.udpPort params.playerId).1 = _
    rw [Connection.connectToServer_fst]
    exact if_neg params.playerId_ne
  | disconnectFromServer =>
    show named c.disconnectFromServer.1 = _
    rw [Connection.disconnectFromServer_fst]
    rfl
  | send call => rfl
  | sendResync => rfl

/-- The id of the window and that of the connection agree. -/
structure Agrees (s : ClientProcess) : Prop where
  /-- A connection that was never told an id does nothing. -/
  unnamed : s.connection.playerId = 0 → Idle s.connection
  /-- After the calls that are posted the connection has the id of the window. -/
  window : ∀ p, idAfter (named s.connection) s.calls = some p → p = s.window.playerId

theorem agrees_start : Agrees {} where
  unnamed _ := ⟨rfl, by decide, rfl⟩
  window p hp := by cases hp

theorem agrees_step (hs : s.Agrees) (h : s.step l = some s') : s'.Agrees := by
  cases turn_of_step h with
  | user action =>
    refine ⟨hs.unnamed, fun p hp => ?_⟩
    rw [idAfter, List.foldl_append] at hp
    by_cases hkeeps : GameWindow.KeepsSession action
    · have hsame := idAfter_of_keeps (connectToServer_not_mem hkeeps s.window)
        (idAfter (named s.connection) s.calls)
      exact (hs.window p (hsame.symm.trans hp)).trans
        (s.window.sameView_onAction hkeeps).playerId.symm
    · cases action with
      | openConnectionDialog params =>
        cases hp
        rfl
      | _ => exact absurd trivial hkeeps
  | runtime signal events hevents => exact ⟨hs.unnamed, hs.window⟩
  | window signal events hevents =>
    exact ⟨hs.unnamed, fun p hp => (hs.window p hp).trans (s.window.playerId_onSignal signal).symm⟩
  | invoke call calls hcalls =>
    constructor
    · intro hzero
      cases call with
      | connectToServer params =>
        have hnamed := named_invoke s.connection (.connectToServer params)
        rw [named, if_pos hzero] at hnamed
        cases hnamed
      | disconnectFromServer =>
        show Idle s.connection.disconnectFromServer.1
        rw [Connection.disconnectFromServer_fst]
        exact ⟨rfl, by simp, rfl⟩
      | send call => exact hs.unnamed hzero
      | sendResync => exact hs.unnamed hzero
    · intro p hp
      dsimp only at hp
      rw [named_invoke] at hp
      exact hs.window p (by rw [hcalls]; exact hp)
  | network e c out he hreact =>
    have hid := Connection.playerId_of_react he hreact
    refine ⟨fun hzero => ?_, fun p hp => hs.window p (by rw [← hp, named, named, hid])⟩
    rw [react_of_idle (hs.unnamed (hid.symm.trans hzero)) he] at hreact
    cases hreact

/-! ## What is asked for -/

/-- What the network thread writes, as requests. -/
def requests (s : ClientProcess) : ClientLabel → List Request
  | .user _ => []
  | .uiEvent => []
  | .invoke =>
    match s.calls with
    | [] => []
    | call :: _ =>
      if s.connection.isConnected = true then (call.request s.connection.playerId).toList else []
  | .network e =>
    match e.datagram with
    | none => []
    | some datagram =>
      if (s.connection.client.applyDatagram datagram).2.1 = true then [.resync] else []

/-- What the user asks for, as the player the window shows. -/
def wished (s : ClientProcess) : ClientLabel → List Request
  | .user action => (s.window.onAction action).2.filterMap (NetworkCall.request s.window.playerId)
  | .uiEvent => []
  | .invoke => []
  | .network _ => []

/-- What the posted calls will ask for. -/
def posted (s : ClientProcess) : List Request := requestsOf (named s.connection) s.calls

theorem requests_network (e : ConnectionEvent) :
    (s.requests (.network e)).filter Request.isCommand = [] := by
  show ((match e.datagram with
    | none => []
    | some datagram =>
      if (s.connection.client.applyDatagram datagram).2.1 = true then [Request.resync]
      else []).filter Request.isCommand) = []
  cases e.datagram with
  | none => rfl
  | some datagram =>
    dsimp only
    split_ifs <;> rfl

theorem isConnected_of_idle {c : Connection} (hc : Idle c) : c.isConnected = false := by
  refine Bool.eq_false_of_not_eq_true fun hconnected => ?_
  cases hc.1.symm.trans (Connection.isConnected_iff.mp hconnected)

theorem requests_step (hs : s.Agrees) (h : s.step l = some s') :
    ((s.requests l).filter Request.isCommand ++ s'.posted).Sublist (s.posted ++ s.wished l) := by
  cases turn_of_step h with
  | user action =>
    rw [requests, List.filter_nil, List.nil_append, posted, requestsOf_append, posted, wished]
    refine List.Sublist.append_left ?_ _
    by_cases hkeeps : GameWindow.KeepsSession action
    · exact requestsOf_sublist (connectToServer_not_mem hkeeps s.window) hs.window
    · cases action with
      | openConnectionDialog params => exact List.nil_sublist _
      | _ => exact absurd trivial hkeeps
  | runtime signal events hevents => exact List.sublist_append_left _ _
  | window signal events hevents => exact List.sublist_append_left _ _
  | invoke call calls hcalls =>
    have hposted : posted { s with
        calls := calls
        connection := (s.connection.invoke call).1
        events := s.events ++ (signals (s.connection.invoke call).2).map .runtime } =
        requestsOf (idAfter (named s.connection) [call]) calls :=
      congrArg (fun id => requestsOf id calls) (named_invoke s.connection call)
    rw [hposted, wished, List.append_nil, posted, requests, hcalls]
    cases call with
    | connectToServer params =>
      dsimp only
      split_ifs <;> exact List.Sublist.refl _
    | disconnectFromServer =>
      dsimp only
      split_ifs <;> exact List.Sublist.refl _
    | send call =>
      dsimp only
      split_ifs with hconnected
      · -- a connection has an id
        have hid : s.connection.playerId ≠ 0 := fun hzero => by
          cases hconnected.symm.trans (isConnected_of_idle (hs.unnamed hzero))
        rw [named, if_neg hid]
        cases call <;> exact List.Sublist.refl _
      · exact List.sublist_append_right _ _
    | sendResync =>
      dsimp only
      split_ifs <;> exact List.sublist_append_right _ _
  | network e c out he hreact =>
    have hid := Connection.playerId_of_react he hreact
    have hnamed : named c = named s.connection := by rw [named, hid, named]
    rw [requests_network, wished, List.append_nil, List.nil_append, posted, hnamed]
    exact List.Sublist.refl _

theorem agrees_of_run (h : run step {} ls = some t) : t.Agrees :=
  run_invariant' (fun _ _ _ hs h => agrees_step hs h) agrees_start h

/-- **The commands that are written are clicks**, each with the id the window had then, in the
order of the clicks and once at most. -/
theorem requests_of_run (h : run step {} ls = some t) :
    ((collect step requests {} ls).filter Request.isCommand ++ t.posted).Sublist
      (collect step wished {} ls) :=
  collect_sublist (φ := List.filter Request.isCommand) (q := posted)
    (fun _ _ => List.filter_append ..) (fun _ _ _ hs h => agrees_step hs h)
    (fun _ _ _ hs h => requests_step hs h) agrees_start h

/-! ## One connection -/

/-- The connection carries requests of this player only. -/
structure Carries (p : PlayerId) (s : ClientProcess) : Prop where
  tidy : s.connection.Tidy
  playerId : s.connection.tcpSocket = .ConnectedState → s.connection.playerId = p

variable {p : PlayerId}

/-- What is written is what is asked for, as long as TCP is not connected anew. -/
theorem bytesOf_outputs (hs : Carries p s) (hl : l.connects = false) (h : s.step l = some s') :
    bytesOf (s.outputs l) = (s.requests l).flatMap (Request.bytes {}) := by
  cases turn_of_step h with
  | user action => rfl
  | runtime signal events hevents => rfl
  | window signal events hevents => rfl
  | invoke call calls hcalls =>
    rw [outputs, requests, hcalls]
    dsimp only
    cases call with
    | connectToServer params =>
      rw [Connection.invoke, Connection.connectToServer_snd]
      split_ifs <;> rfl
    | disconnectFromServer =>
      rw [Connection.invoke, Connection.disconnectFromServer_snd]
      split_ifs <;> rfl
    | send call =>
      rw [Connection.bytesOf_invoke]
      split_ifs <;> simp [NetworkCall.request]
    | sendResync =>
      rw [Connection.bytesOf_invoke_sendResync]
      split_ifs <;> simp [NetworkCall.request]
  | network e c out he hreact =>
    have hout : s.outputs (.network e) = out := by
      rw [outputs, Connection.outputs, hreact]
      rfl
    rw [hout]
    cases Connection.turn_of_react hreact with
    | connectToServer host tcpPort udpPort playerId => cases he
    | disconnectFromServer => cases he
    | bound localPort htcp => cases hl
    | bindFailed localPort errorString htcp => cases hl
    | disconnected htcp => split_ifs <;> rfl
    | attemptFailed socketError errorString htcp => rfl
    | closedByServer errorString htcp => rfl
    | connectionError socketError errorString htcp herror => rfl
    | tcpReadyRead data htcp =>
      rw [bytesOf, List.flatMap_map]
      exact List.flatMap_eq_nil_iff.mpr fun u _ => rfl
    | udpReadyRead datagram hudp =>
      have hconnected : s.connection.client.isConnected = true :=
        Connection.isConnected_iff.mpr (hs.tidy.udp hudp)
      have hresync := Request.bytes_of_isConnected hconnected .resync
      rw [Connection.onUdpReadyRead, bytesOf_append, requests]
      have hnone : bytesOf ((s.connection.client.applyDatagram datagram).2.2.toList.map
          .worldUpdateReceived) = [] := by
        rw [bytesOf, List.flatMap_map]
        exact List.flatMap_eq_nil_iff.mpr fun u _ => rfl
      rw [hnone, List.append_nil]
      show _ = (if _ then _ else _ : List Request).flatMap _
      split_ifs
      · simpa [bytesOf, Request.bytes] using hresync
      · rfl
    | lastTick htimer htcp => rfl
    | tick htimer htcp => rfl

theorem carries_step (hs : Carries p s) (hl : l.connects = false) (h : s.step l = some s') :
    Carries p s' := by
  have htidy := Connection.tidy_of_run hs.tidy (connection_step h)
  cases turn_of_step h with
  | user action => exact ⟨htidy, hs.playerId⟩
  | runtime signal events hevents => exact ⟨htidy, hs.playerId⟩
  | window signal events hevents => exact ⟨htidy, hs.playerId⟩
  | invoke call calls hcalls =>
    refine ⟨htidy, fun htcp => ?_⟩
    cases call with
    | connectToServer params =>
      rw [Connection.invoke, Connection.connectToServer_fst] at htcp
      cases htcp
    | disconnectFromServer =>
      rw [Connection.invoke, Connection.disconnectFromServer_fst] at htcp
      cases htcp
    | send call => exact hs.playerId htcp
    | sendResync => exact hs.playerId htcp
  | network e c out he hreact =>
    refine ⟨htidy, fun htcp => ?_⟩
    rw [Connection.playerId_of_react he hreact]
    refine hs.playerId ?_
    cases Connection.turn_of_react hreact with
    | connectToServer host tcpPort udpPort playerId => cases he
    | disconnectFromServer => cases he
    | bound localPort htcp => cases hl
    | bindFailed localPort errorString htcp => cases hl
    | disconnected htcp' => exact htcp'
    | attemptFailed socketError errorString htcp' => cases htcp
    | closedByServer errorString htcp' => exact htcp'
    | connectionError socketError errorString htcp' herror => exact htcp'
    | tcpReadyRead data htcp' => exact htcp'
    | udpReadyRead datagram hudp => exact htcp
    | lastTick htimer htcp' => exact htcp'
    | tick htimer htcp' => cases htcp

/-- Every request is the player's own. -/
theorem claims_of_mem_requests (hs : Carries p s) {r : Request} (hr : r ∈ s.requests l) :
    r.Claims p := by
  cases l with
  | user action => cases hr
  | uiEvent => cases hr
  | invoke =>
    rw [requests] at hr
    cases hcalls : s.calls with
    | nil =>
      rw [hcalls] at hr
      cases hr
    | cons call calls =>
      rw [hcalls] at hr
      dsimp only at hr
      split_ifs at hr with hconnected
      · have hid := hs.playerId (Connection.isConnected_iff.mp hconnected)
        rw [hid, Option.mem_toList] at hr
        cases call with
        | connectToServer params => cases hr
        | disconnectFromServer => cases hr
        | send call =>
          cases hr
          cases call <;> rfl
        | sendResync =>
          cases hr
          trivial
      · cases hr
  | network e =>
    have hnone := List.filter_eq_nil_iff.mp (requests_network (s := s) e) r hr
    cases r with
    | command type playerId x y => exact absurd rfl hnone
    | resync => trivial

theorem stream_of_carries (hs : Carries p s) (hls : ∀ l ∈ ls, l.connects = false)
    (h : run step s ls = some t) :
    bytesOf (collect step outputs s ls) = (collect step requests s ls).flatMap (Request.bytes {}) ∧
      ∀ r ∈ collect step requests s ls, r.Claims p := by
  induction ls generalizing s with
  | nil => exact ⟨rfl, fun r hr => by cases hr⟩
  | cons l ls ih =>
    obtain ⟨s', hs', ht⟩ := run_cons_eq_some.mp h
    have hl := hls l List.mem_cons_self
    obtain ⟨hbytes, hclaims⟩ := ih (carries_step hs hl hs')
      (fun l' hl' => hls l' (List.mem_cons_of_mem l hl')) ht
    rw [collect_cons hs', collect_cons hs', bytesOf_append, List.flatMap_append,
      bytesOf_outputs hs hl hs', hbytes]
    refine ⟨rfl, fun r hr => ?_⟩
    rcases List.mem_append.mp hr with hr | hr
    · exact claims_of_mem_requests hs hr
    · exact hclaims r hr

/-- The connection that TCP has just established. -/
theorem carries_connected {localPort : UInt16} {bindError : Option String}
    (hs : s.connection.Tidy) (h : s.step (.network (.tcpConnected localPort bindError)) = some s') :
    Carries s.connection.playerId s' ∧ bytesOf (s.outputs (.network (.tcpConnected localPort
      bindError))) = GameNetworkClient.onTcpConnected s.connection.playerId := by
  have htidy := Connection.tidy_of_run hs (connection_step h)
  cases turn_of_step h with
  | network e c out he hreact =>
    have hid := Connection.playerId_of_react he hreact
    refine ⟨⟨htidy, fun _ => hid⟩, ?_⟩
    rw [outputs, Connection.outputs, hreact]
    cases Connection.turn_of_react hreact with
    | bound localPort htcp => exact List.append_nil _
    | bindFailed localPort errorString htcp => exact List.append_nil _

variable {before after : List ClientLabel} {localPort : UInt16} {bindError : Option String}

/-- **The stream of a connection**: the handshake, and requests of the same player, who has an id
that is not `0`. -/
theorem stream_of_run (hbefore : run step {} before = some s)
    (h : run step s (.network (.tcpConnected localPort bindError) :: after) = some t)
    (hafter : ∀ l ∈ after, l.connects = false) :
    bytesOf (collect step outputs s (.network (.tcpConnected localPort bindError) :: after)) =
        stream {} s.connection.playerId
          (collect step requests s (.network (.tcpConnected localPort bindError) :: after)) ∧
      (∀ r ∈ collect step requests s (.network (.tcpConnected localPort bindError) :: after),
        r.Claims s.connection.playerId) ∧
      s.connection.playerId ≠ 0 := by
  obtain ⟨s', hs', ht⟩ := run_cons_eq_some.mp h
  obtain ⟨hcarries, hhandshake⟩ := carries_connected (tidy_of_run hbefore) hs'
  obtain ⟨hbytes, hclaims⟩ := stream_of_carries hcarries hafter ht
  rw [collect_cons hs', collect_cons hs', bytesOf_append, hhandshake, hbytes]
  refine ⟨rfl, hclaims, fun hzero => ?_⟩
  cases turn_of_step hs' with
  | network e c out he hreact =>
    rw [react_of_idle ((agrees_of_run hbefore).unnamed hzero) he] at hreact
    cases hreact

/-! ## On the server -/

theorem filterMap_filter_isCommand (p : PlayerId) (rs : List Request) :
    (rs.filter Request.isCommand).filterMap (Request.commandFor p) =
      rs.filterMap (Request.commandFor p) := by
  rw [List.filterMap_filter]
  congr 1
  funext r
  cases r <;> rfl

/-- The commands of a connection are among the clicks. -/
theorem commands_sublist (hbefore : run step {} before = some s) (h : run step s after = some t)
    (p : PlayerId) :
    ((collect step requests s after).filterMap (Request.commandFor p)).Sublist
      ((collect step wished {} (before ++ after)).filterMap (Request.commandFor p)) := by
  have hrun : run step {} (before ++ after) = some t := run_append.mpr ⟨s, hbefore, h⟩
  have hclicks := List.Sublist.trans (List.sublist_append_left _ _) (requests_of_run hrun)
  rw [collect_append hbefore, List.filter_append] at hclicks
  have hlast := List.Sublist.trans (List.sublist_append_right _ _) hclicks
  rw [← filterMap_filter_isCommand]
  exact hlast.filterMap _

theorem playerId_of_commandFor {p : PlayerId} {r : Request} {cmd : PlayerCommand}
    (h : r.commandFor p = some cmd) : cmd.playerId = p := by
  cases r with
  | command type playerId x y =>
    rw [Request.commandFor] at h
    split_ifs at h
    cases h
    rfl
  | resync => cases h

/-- The reads of a part of a stream. -/
theorem reads_of_part {p : PlayerId} {rs : List Request} {fragments : List (List UInt8)}
    {whole : List UInt8} (hwhole : whole = stream {} p rs) (h : fragments.flatten <+: whole)
    (self : SessionPtr) :
    (readFragments fragments).events.map (SessionRead.label self) <+:
      handshakeTurn self p :: rs.map (Request.turn self) := by
  have hflat : [whole].flatten = stream {} p rs := by rw [List.flatten_singleton, hwhole]
  have hread := read_stream rfl p rs hflat
  rw [readFragments, StreamReader.foldl_feed_start, List.flatten_singleton] at hread
  have hevents := (StreamReader.events_of_part (r := sessionReader) .handshakeBuf h).map
    (SessionRead.label self)
  rw [hread, List.map_cons, List.map_map] at hevents
  rw [readFragments, StreamReader.foldl_feed_start]
  exact hevents

/-- What a session that reads a stream has delivered. -/
theorem deliveriesOf_of_reads {p : PlayerId} {rs : List Request} {self : SessionPtr}
    {ls : List Label} {t : State} (hserver : run State.step {} ls = some t)
    (hother : ∀ l ∈ ls, l.SparesId self p)
    (hreads : ls.filter (Label.readBy self) <+: handshakeTurn self p :: rs.map (Request.turn self)) :
    State.deliveriesOf self p ls =
      ((rs.take ((ls.filter (Label.readBy self)).length - 1)).filterMap
        (Request.commandFor p)).map (fun cmd => (self, cmd)) := by
  have hstanding := State.standing_of_run hserver hother
  obtain ⟨todo, htodo⟩ := hreads
  rcases State.reads_cases htodo with ⟨hnone, -⟩ | ⟨done, rest, rfl, hdone, -⟩
  · rw [(hstanding.waiting hnone).2, hnone]
    rfl
  · rw [(hstanding.inStep done hdone).deliveries, hdone]
    simp

/-- **From the clicks to the server's queue.**  The server has read some of what one connection of
the client carries, in whatever fragments, and nobody else uses the player's id.  Then the commands
taken from this session, or for this player, are those of the requests that have been read, in
order; each is one the user asked for while the window showed this player, and none is taken twice. -/
theorem clicks_of_run (hbefore : run step {} before = some s)
    (hclient : run step s (.network (.tcpConnected localPort bindError) :: after) = some s')
    (hafter : ∀ l ∈ after, l.connects = false) {fragments : List (List UInt8)}
    (harrived : fragments.flatten <+: bytesOf (collect step outputs s
      (.network (.tcpConnected localPort bindError) :: after)))
    {self : SessionPtr} {ls : List Label} {t : State} (hserver : run State.step {} ls = some t)
    (hother : ∀ l ∈ ls, l.SparesId self s.connection.playerId)
    (hreads : ls.filter (Label.readBy self) <+:
      (readFragments fragments).events.map (SessionRead.label self)) :
    State.deliveriesOf self s.connection.playerId ls =
        (((collect step requests s (.network (.tcpConnected localPort bindError) :: after)).take
          ((ls.filter (Label.readBy self)).length - 1)).filterMap
            (Request.commandFor s.connection.playerId)).map (fun cmd => (self, cmd)) ∧
      ((State.deliveriesOf self s.connection.playerId ls).map Prod.snd).Sublist
        ((collect step wished {} (before ++ .network (.tcpConnected localPort bindError) ::
          after)).filterMap (Request.commandFor s.connection.playerId)) ∧
      ∀ cmd ∈ (State.deliveriesOf self s.connection.playerId ls).map Prod.snd, cmd.playerId ≠ 0 := by
  obtain ⟨hbytes, -, hid⟩ := stream_of_run hbefore hclient hafter
  have hdeliveries := deliveriesOf_of_reads hserver hother
    (hreads.trans (reads_of_part hbytes harrived self))
  refine ⟨hdeliveries, ?_, fun cmd hcmd => ?_⟩
  · have hcommands := commands_sublist hbefore hclient s.connection.playerId
    rw [hdeliveries, List.map_map, Function.comp_def, List.map_id']
    exact ((List.take_sublist _ _).filterMap _).trans hcommands
  · rw [hdeliveries, List.map_map, Function.comp_def, List.map_id'] at hcmd
    obtain ⟨r, -, hr⟩ := List.mem_filterMap.mp hcmd
    rw [playerId_of_commandFor hr]
    exact hid

/-- Player 7 places a cell at the origin, and the call comes through. -/
def clicked : List ClientLabel :=
  [.user (.click sortedKeys .Immediate .Place 0 0), .invoke]

/-- The server takes that command. -/
theorem clicks_of_run_place :
    State.deliveriesOf 1 7 (State.connectAndSend 7 .PlaceCell 0 0) =
      [(1, ⟨7, .PlaceCell, 0, 0⟩)] := by
  obtain ⟨s, hs, hid⟩ : ∃ s, run step {} [.user (.openConnectionDialog localParams), .invoke] =
      some s ∧ s.connection.playerId = 7 :=
    ⟨_, rfl, rfl⟩
  obtain ⟨s', hs', hrequests⟩ : ∃ s',
      run step s (.network (.tcpConnected 50000 none) :: clicked) = some s' ∧
        collect step requests s (.network (.tcpConnected 50000 none) :: clicked) =
          [.command .PlaceCell 7 0 0] := by
    cases hs
    exact ⟨_, rfl, rfl⟩
  have hafter : ∀ l ∈ clicked, l.connects = false := by simp [clicked, ClientLabel.connects]
  have hstream := (stream_of_run hs hs' hafter).1
  rw [hrequests, hid] at hstream
  have hflat : [stream {} 7 [.command .PlaceCell 7 0 0]].flatten =
      stream {} 7 [.command .PlaceCell 7 0 0] := List.flatten_singleton
  have hread := read_stream rfl 7 [.command .PlaceCell 7 0 0] hflat
  have hother : ∀ l ∈ State.connectAndSend 7 .PlaceCell 0 0,
      l.SparesId 1 s.connection.playerId := by
    simp [State.connectAndSend, State.connect, Label.SparesId]
  have harrived : [stream {} 7 [.command .PlaceCell 7 0 0]].flatten <+: bytesOf
      (collect step outputs s (.network (.tcpConnected 50000 none) :: clicked)) := by
    rw [hstream, hflat]
  have hreads : (State.connectAndSend 7 .PlaceCell 0 0).filter (Label.readBy 1) <+:
      (readFragments [stream {} 7 [.command .PlaceCell 7 0 0]]).events.map
        (SessionRead.label 1) := by
    rw [hread, onTcpConnected_eq]
    exact List.prefix_refl _
  have hclicks := clicks_of_run hs hs' hafter harrived (State.run_connectAndSend 7 .PlaceCell 0 0)
    hother hreads
  rw [hid, hrequests] at hclicks
  exact hclicks.1

end ClientProcess
end Client
end Multilife

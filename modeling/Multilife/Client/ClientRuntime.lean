import Multilife.Client.Connection
import Multilife.Client.GameWindow

/-!
# The two threads of the client

`ClientRuntime.cpp` and the slots of `GameWindow.cpp`.  `GameNetworkClient` lives in a thread
of its own.  `ClientRuntime` posts its calls to that thread, and the signals come back through
two queued connections: the event loop of the UI thread first runs the slot of
`ClientRuntime`, which is the signal of the same name, and later the slot of the window.

An event loop takes the posted events in order.  The events of the sockets and of the timer
come in between as they like.

* `balances`: what a signal makes of the balances of the players.
* `modelAfter`: what it makes of the model.
* `sameView_onAction`: only a new connection changes them otherwise.
-/

namespace Multilife.Client

/-! ## What is posted -/

/-- `GameWindow::ConnectionParams`, as the dialog lets them through. -/
structure ConnectionParams where
  host : String
  tcpPort : UInt16
  udpPort : UInt16
  playerId : PlayerId
  host_ne : host ≠ ""
  tcpPort_ne : tcpPort ≠ 0
  udpPort_ne : udpPort ≠ 0
  playerId_ne : playerId ≠ 0
  deriving DecidableEq

/-- What `ClientRuntime` posts to the thread of the network. -/
inductive NetworkCall where
  | connectToServer (params : ConnectionParams)
  | disconnectFromServer
  | send (call : RuntimeCall)
  | sendResync
  deriving DecidableEq

/-- What is posted to the UI thread: the slot of `ClientRuntime` and the slot of the window. -/
inductive UiEvent where
  | runtime (signal : Output)
  | window (signal : Output)
  deriving DecidableEq

/-- A call that returns early writes nothing. -/
def written (bytes : List UInt8) : List Output := if bytes = [] then [] else [.write bytes]

/-- The bytes of a call. -/
def RuntimeCall.bytes (c : Connection) : RuntimeCall → List UInt8
  | .sendPlaceCell x y => c.client.sendPlaceCell c.playerId x y
  | .sendRemoveCell x y => c.client.sendRemoveCell c.playerId x y
  | .sendToggleCell x y => c.client.sendToggleCell c.playerId x y

/-- A posted call, when the network thread comes to it. -/
def Connection.invoke (c : Connection) : NetworkCall → Connection × List Output
  | .connectToServer params =>
    c.connectToServer params.host params.tcpPort params.udpPort params.playerId
  | .disconnectFromServer => c.disconnectFromServer
  | .send call => (c, written (call.bytes c))
  | .sendResync => (c, written c.client.sendResync)

/-- What is emitted, not written. -/
def signals (outputs : List Output) : List Output :=
  outputs.filter fun o =>
    match o with
    | .write _ => false
    | _ => true

theorem signals_append (out out' : List Output) :
    signals (out ++ out') = signals out ++ signals out' := List.filter_append ..

/-- A call that only writes emits nothing. -/
@[simp] theorem signals_written (bytes : List UInt8) : signals (written bytes) = [] := by
  unfold written
  split_ifs <;> rfl

/-! ## The slots of the window -/

namespace GameWindow

/-- The slot of `worldUpdateReceived`. -/
def worldUpdateReceived (g : GameWindow) (u : WorldUpdate) : GameWindow :=
  { g with
    worldModel := g.worldModel.applyUpdate u.seqNum u.fullSnapshot u.chunkX u.chunkY u.updates }

/-- The slot of `connectionStateChanged`. -/
def connectionStateChanged (g : GameWindow) (text : String) (connected : Bool) : GameWindow :=
  let g := { g with status := text }
  if connected = true then g else { g with serverPlayers := ∅ }

def onServerStatsUpdated (g : GameWindow) (players : List GameNetworkClient.PlayerSnapshot) :
    GameWindow :=
  { g with serverPlayers := players.foldl (fun m p => m.insert p.playerId p) ∅ }

/-- The slot of a signal. -/
def onSignal (g : GameWindow) : Output → GameWindow
  | .write _ => g
  | .connectionStateChanged format args connected =>
    g.connectionStateChanged (args.foldl arg format) connected
  | .worldUpdateReceived u => g.worldUpdateReceived u
  | .serverStatsUpdated u => g.onServerStatsUpdated u.players

/-- `openConnectionDialog`, when the dialog is accepted. -/
def openConnectionDialog (g : GameWindow) (params : ConnectionParams) :
    GameWindow × List NetworkCall :=
  ({ g with playerId := params.playerId, worldModel := {} }, [.connectToServer params])

end GameWindow

/-- What the user can do. -/
inductive UserAction where
  /-- The dialog is accepted. -/
  | openConnectionDialog (params : ConnectionParams)
  /-- The button `Disconnect`. -/
  | disconnect
  /-- The button `Resync`. -/
  | resync
  /-- A cell is clicked, with what the two combo boxes show. -/
  | click (order : FiniteMap.Traversal CellKey) (currentMode : EditMode) (action : EditAction)
      (x y : Int64)
  /-- The button `Apply`. -/
  | apply (order : FiniteMap.Traversal CellKey)
  /-- The button `Clear`. -/
  | clear

/-- The slot of an action: the window, and what is posted. -/
def GameWindow.onAction (g : GameWindow) : UserAction → GameWindow × List NetworkCall
  | .openConnectionDialog params => g.openConnectionDialog params
  | .disconnect => (g, [.disconnectFromServer])
  | .resync => (g, [.sendResync])
  | .click order currentMode action x y =>
    let clicked := g.onGridCellClicked order currentMode action x y
    (clicked.1, clicked.2.map .send)
  | .apply order =>
    let applied := g.applyPendingEdits order
    (applied.1, applied.2.map .send)
  | .clear => ({ g with pendingEdits := ∅ }, [])

/-! ## What signals and actions change -/

/-- What a signal makes of the balances. -/
def balances (players : Finmap fun _ : UInt64 => GameNetworkClient.PlayerSnapshot) :
    Output → Finmap fun _ : UInt64 => GameNetworkClient.PlayerSnapshot
  | .write _ => players
  | .connectionStateChanged _ _ connected => if connected = true then players else ∅
  | .worldUpdateReceived _ => players
  | .serverStatsUpdated u => u.players.foldl (fun m p => m.insert p.playerId p) ∅

/-- What a signal makes of the model. -/
def modelAfter (m : WorldModel) : Output → WorldModel
  | .worldUpdateReceived u => m.applyUpdate u.seqNum u.fullSnapshot u.chunkX u.chunkY u.updates
  | _ => m

namespace GameWindow

/-- **A signal** changes the model, the balances and the status. -/
theorem onSignal_eq (g : GameWindow) (signal : Output) : ∃ status, g.onSignal signal =
    { g with
      worldModel := modelAfter g.worldModel signal
      serverPlayers := balances g.serverPlayers signal
      status := status } := by
  cases signal with
  | write bytes => exact ⟨_, rfl⟩
  | connectionStateChanged format args connected => cases connected <;> exact ⟨_, rfl⟩
  | worldUpdateReceived u => exact ⟨_, rfl⟩
  | serverStatsUpdated u => exact ⟨_, rfl⟩

theorem serverPlayers_onSignal (g : GameWindow) (signal : Output) :
    (g.onSignal signal).serverPlayers = balances g.serverPlayers signal := by
  obtain ⟨status, h⟩ := g.onSignal_eq signal
  rw [h]

theorem worldModel_onSignal (g : GameWindow) (signal : Output) :
    (g.onSignal signal).worldModel = modelAfter g.worldModel signal := by
  obtain ⟨status, h⟩ := g.onSignal_eq signal
  rw [h]

theorem playerId_onSignal (g : GameWindow) (signal : Output) :
    (g.onSignal signal).playerId = g.playerId := by
  obtain ⟨status, h⟩ := g.onSignal_eq signal
  rw [h]

/-- The two windows have the same model, balances and id. -/
structure SameView (g g' : GameWindow) : Prop where
  worldModel : g'.worldModel = g.worldModel
  serverPlayers : g'.serverPlayers = g.serverPlayers
  playerId : g'.playerId = g.playerId

/-- No new connection is asked for. -/
def KeepsSession : UserAction → Prop
  | .openConnectionDialog _ => False
  | _ => True

theorem sameView_click (order : FiniteMap.Traversal CellKey) (g : GameWindow)
    (currentMode : EditMode) (action : EditAction) (x y : Int64) :
    SameView g (g.onGridCellClicked order currentMode action x y).1 := by
  cases currentMode with
  | Immediate =>
    obtain ⟨status, hstatus⟩ := g.sendAction_fst action x y
    rw [onGridCellClicked, if_pos rfl, hstatus]
    exact ⟨rfl, rfl, rfl⟩
  | Queued =>
    rcases g.click_cases ⟨order, action, ⟨x, y⟩⟩ with ⟨⟨status, hstatus⟩, -⟩ | ⟨-, hedits⟩
    · rw [show (g.onGridCellClicked order .Queued action x y).1 = _ from hstatus]
      exact ⟨rfl, rfl, rfl⟩
    · rw [show (g.onGridCellClicked order .Queued action x y).1 = _ from hedits]
      exact ⟨rfl, rfl, rfl⟩

theorem sameView_foldl_sendPending (edits : Finmap fun _ : CellKey => EditAction)
    (l : List CellKey) (g : GameWindow) (calls : List RuntimeCall) :
    SameView g (l.foldl (sendPending edits) (g, calls)).1 := by
  induction l generalizing g calls with
  | nil => exact ⟨rfl, rfl, rfl⟩
  | cons key l ih =>
    rw [List.foldl_cons, sendPending]
    cases edits.lookup key with
    | none => exact ih g calls
    | some a =>
      obtain ⟨status, hstatus⟩ := g.sendAction_fst a key.x key.y
      dsimp only
      rw [hstatus]
      obtain ⟨hworld, hplayers, hid⟩ := ih { g with status := status } (calls ++ _)
      exact ⟨hworld, hplayers, hid⟩

theorem sameView_apply (order : FiniteMap.Traversal CellKey) (g : GameWindow) :
    SameView g (g.applyPendingEdits order).1 := by
  unfold applyPendingEdits
  split_ifs with hnone
  · exact ⟨rfl, rfl, rfl⟩
  · obtain ⟨hworld, hplayers, hid⟩ :=
      sameView_foldl_sendPending g.pendingEdits (order.order g.pendingEdits.keys) g []
    exact ⟨hworld, hplayers, hid⟩

theorem serverPlayers_onAction (g : GameWindow) (action : UserAction) :
    (g.onAction action).1.serverPlayers = g.serverPlayers := by
  cases action with
  | openConnectionDialog params => rfl
  | disconnect => rfl
  | resync => rfl
  | click order currentMode action x y =>
    exact (g.sameView_click order currentMode action x y).serverPlayers
  | apply order => exact (g.sameView_apply order).serverPlayers
  | clear => rfl

/-- **What the user does** to edits leaves what comes from the server as it is. -/
theorem sameView_onAction (g : GameWindow) {action : UserAction} (h : KeepsSession action) :
    SameView g (g.onAction action).1 := by
  cases action with
  | openConnectionDialog params => exact h.elim
  | disconnect => exact ⟨rfl, rfl, rfl⟩
  | resync => exact ⟨rfl, rfl, rfl⟩
  | click order currentMode action x y => exact g.sameView_click order currentMode action x y
  | apply order => exact g.sameView_apply order
  | clear => exact ⟨rfl, rfl, rfl⟩

end GameWindow

end Multilife.Client

import Mathlib.Algebra.Order.BigOperators.Group.Finset
import Multilife.Client.GameNetworkClient
import Multilife.Client.QString

/-!
# Edits

`sendAction`, `onGridCellClicked` and `applyPendingEdits` of `GameWindow.cpp`, without the
widgets: the action and the mode are what the two combo boxes show when a cell is clicked,
and `m_statusLabel` is its text.  The pending edits are a hash container, so the loops over
it take their order as an argument.

A call of `ClientRuntime` is posted to the network thread, in order; the functions that
make such calls return them.

* `sendAction_eq`: an edit that is allowed and affordable is sent as it is.
* `click_cases`: a click in the queued mode leaves the edits alone or adds, replaces or
  cancels one, after the price of the queue has been compared with the balance.
* `applyPendingEdits_snd`: what is sent, where every edit passes.
-/

namespace Multilife.Client

open FiniteMap

/-- `kClientPlaceCost`. -/
def kClientPlaceCost : UInt64 := 2

/-- `GameWindow::EditAction`. -/
inductive EditAction where
  | Toggle
  | Place
  | Remove
  deriving DecidableEq, Repr

/-- `GameWindow::EditMode`. -/
inductive EditMode where
  | Immediate
  | Queued
  deriving DecidableEq, Repr

/-- The calls `ClientRuntime` forwards to `GameNetworkClient`. -/
inductive RuntimeCall where
  | sendPlaceCell (x y : Int64)
  | sendRemoveCell (x y : Int64)
  | sendToggleCell (x y : Int64)
  deriving DecidableEq, Repr

/-- `GameWindow`: `m_worldModel`, `m_pendingEdits`, `m_serverPlayers`,
`m_lastParams.playerId` and the text of `m_statusLabel`. -/
structure GameWindow where
  worldModel : WorldModel := {}
  pendingEdits : Finmap fun _ : CellKey => EditAction := ∅
  serverPlayers : Finmap fun _ : UInt64 => GameNetworkClient.PlayerSnapshot := ∅
  playerId : PlayerId := 1
  status : String := "Disconnected"

namespace GameWindow

/-- The entry of the player itself, with which `balanceKnown` and `balance` begin. -/
def me (g : GameWindow) : Option GameNetworkClient.PlayerSnapshot :=
  g.serverPlayers.lookup g.playerId

/-- The lambda `reject`, and the `return` after it. -/
def reject (g : GameWindow) (reason : String) : GameWindow × List RuntimeCall :=
  ({ g with status := reason }, [])

def sendAction (g : GameWindow) (action : EditAction) (x y : Int64) :
    GameWindow × List RuntimeCall :=
  let balanceKnown := g.me.isSome
  let balance := (g.me.map GameNetworkClient.PlayerSnapshot.balance).getD 0
  let owner := g.worldModel.ownerAt x y
  match action with
  | .Place =>
    if owner ≠ 0 then g.reject "Can't place: cell is already owned"
    else if balanceKnown ∧ balance < kClientPlaceCost then
      g.reject (arg "Not enough balance to place (need %1)" (toString kClientPlaceCost))
    else (g, [.sendPlaceCell x y])
  | .Remove =>
    if owner ≠ g.playerId then g.reject "Can't remove: not your cell"
    else (g, [.sendRemoveCell x y])
  | .Toggle =>
    if owner ≠ 0 ∧ owner ≠ g.playerId then g.reject "Can't toggle: not your cell"
    else if balanceKnown ∧ owner = 0 ∧ balance < kClientPlaceCost then
      g.reject (arg "Not enough balance to toggle on (need %1)" (toString kClientPlaceCost))
    else (g, [.sendToggleCell x y])

/-- The lambda `willSpend`. -/
def willSpend (a : EditAction) (cellOwner : UInt64) : UInt64 :=
  match a with
  | .Place => if cellOwner = 0 then kClientPlaceCost else 0
  | .Toggle => if cellOwner = 0 then kClientPlaceCost else 0
  | .Remove => 0

/-- The lambda `isAllowed`. -/
def isAllowed (g : GameWindow) (a : EditAction) (cellOwner : UInt64) : Bool :=
  match a with
  | .Place => cellOwner == 0
  | .Remove => cellOwner == g.playerId
  | .Toggle => cellOwner == 0 || cellOwner == g.playerId

/-- The loop that adds up `queuedSpend`. -/
def queuedSpend (order : Traversal CellKey) (g : GameWindow) : UInt64 :=
  (order.order g.pendingEdits.keys).foldl
    (fun queuedSpend key =>
      match g.pendingEdits.lookup key with
      | none => queuedSpend
      | some a => queuedSpend + willSpend a (g.worldModel.ownerAt key.x key.y))
    0

def onGridCellClicked (order : Traversal CellKey) (g : GameWindow) (currentMode : EditMode)
    (action : EditAction) (x y : Int64) : GameWindow × List RuntimeCall :=
  if currentMode = .Immediate then g.sendAction action x y
  else
    let balanceKnown := g.me.isSome
    let balance := (g.me.map GameNetworkClient.PlayerSnapshot.balance).getD 0
    let owner := g.worldModel.ownerAt x y
    if !g.isAllowed action owner then g.reject "Operation not permitted for this cell"
    else
      let queuedSpend := g.queuedSpend order
      let extra := willSpend action owner
      if balanceKnown ∧ queuedSpend + extra > balance then
        g.reject ([toString (queuedSpend + extra), toString balance].foldl arg
          "Not enough balance for queued ops (%1/%2)")
      else
        let key : CellKey := ⟨x, y⟩
        if g.pendingEdits.lookup key = some action then
          ({ g with pendingEdits := g.pendingEdits.erase key }, [])
        else ({ g with pendingEdits := g.pendingEdits.insert key action }, [])

/-- The body of the loop of `applyPendingEdits`. -/
def sendPending (edits : Finmap fun _ : CellKey => EditAction)
    (acc : GameWindow × List RuntimeCall) (key : CellKey) : GameWindow × List RuntimeCall :=
  match edits.lookup key with
  | none => acc
  | some a =>
    let sent := acc.1.sendAction a key.x key.y
    (sent.1, acc.2 ++ sent.2)

def applyPendingEdits (order : Traversal CellKey) (g : GameWindow) :
    GameWindow × List RuntimeCall :=
  if g.pendingEdits.keys = ∅ then (g, [])
  else
    let sent := (order.order g.pendingEdits.keys).foldl (sendPending g.pendingEdits) (g, [])
    ({ sent.1 with pendingEdits := ∅ }, sent.2)

/-! ## What is sent -/

/-- The call an edit is sent by. -/
def callOf (a : EditAction) (key : CellKey) : RuntimeCall :=
  match a with
  | .Toggle => .sendToggleCell key.x key.y
  | .Place => .sendPlaceCell key.x key.y
  | .Remove => .sendRemoveCell key.x key.y

/-- The owner the model shows at a key. -/
def ownerOf (g : GameWindow) (key : CellKey) : UInt64 := g.worldModel.ownerAt key.x key.y

/-- What remains of `sendAction` when the window is changed elsewhere. -/
theorem sendAction_snd_congr {g g' : GameWindow} (hworld : g'.worldModel = g.worldModel)
    (hplayers : g'.serverPlayers = g.serverPlayers) (hid : g'.playerId = g.playerId)
    (a : EditAction) (x y : Int64) : (g'.sendAction a x y).2 = (g.sendAction a x y).2 := by
  unfold sendAction me reject
  rw [hworld, hplayers, hid]
  cases a <;> dsimp only <;> split_ifs <;> rfl

/-- `sendAction` changes nothing but the status. -/
theorem sendAction_fst (g : GameWindow) (a : EditAction) (x y : Int64) :
    ∃ status, (g.sendAction a x y).1 = { g with status := status } := by
  unfold sendAction reject
  cases a <;> dsimp only <;> split_ifs <;> exact ⟨_, rfl⟩

/-- **An edit that is allowed and affordable is sent.** -/
theorem sendAction_eq {g : GameWindow} {a : EditAction} {key : CellKey}
    (hallowed : g.isAllowed a (g.ownerOf key) = true)
    (hcost : ∀ me, g.me = some me → willSpend a (g.ownerOf key) ≤ me.balance) :
    g.sendAction a key.x key.y = (g, [callOf a key]) := by
  have hrich : willSpend a (g.ownerOf key) = kClientPlaceCost → g.me.isSome = true →
      ¬ (g.me.map GameNetworkClient.PlayerSnapshot.balance).getD 0 < kClientPlaceCost := by
    intro hprice hknown
    obtain ⟨me, hme⟩ := Option.isSome_iff_exists.mp hknown
    have hle := hcost me hme
    rw [hprice] at hle
    rw [hme]
    exact not_lt.mpr hle
  unfold sendAction
  rw [show g.worldModel.ownerAt key.x key.y = g.ownerOf key from rfl]
  cases a with
  | Place =>
    have howner : g.ownerOf key = 0 := beq_iff_eq.mp hallowed
    dsimp only
    rw [if_neg (not_not.mpr howner), if_neg fun h => hrich (if_pos howner) h.1 h.2]
    rfl
  | Remove =>
    have howner : g.ownerOf key = g.playerId := beq_iff_eq.mp hallowed
    dsimp only
    rw [if_neg (not_not.mpr howner)]
    rfl
  | Toggle =>
    have howner : g.ownerOf key = 0 ∨ g.ownerOf key = g.playerId := by
      simpa [isAllowed] using hallowed
    dsimp only
    rw [if_neg fun h => howner.elim h.1 h.2, if_neg fun h => hrich (if_pos h.2.1) h.1 h.2.2]
    rfl

/-- The loop of `applyPendingEdits`: only the status changes on the way. -/
theorem foldl_sendPending (g : GameWindow) (l : List CellKey) (g' : GameWindow)
    (calls : List RuntimeCall) (hworld : g'.worldModel = g.worldModel)
    (hplayers : g'.serverPlayers = g.serverPlayers) (hid : g'.playerId = g.playerId) :
    (l.foldl (sendPending g.pendingEdits) (g', calls)).2 = calls ++ l.flatMap fun key =>
      match g.pendingEdits.lookup key with
      | none => []
      | some a => (g.sendAction a key.x key.y).2 := by
  induction l generalizing g' calls with
  | nil => simp
  | cons key l ih =>
    rw [List.foldl_cons, List.flatMap_cons, sendPending]
    cases hedit : g.pendingEdits.lookup key with
    | none => exact ih g' calls hworld hplayers hid
    | some a =>
      obtain ⟨status, hstatus⟩ := g'.sendAction_fst a key.x key.y
      dsimp only
      rw [hstatus, ih { g' with status := status } _ hworld hplayers hid,
        sendAction_snd_congr hworld hplayers hid, List.append_assoc]

/-- **What is sent** is what `sendAction` lets through, edit by edit. -/
theorem applyPendingEdits_snd (order : Traversal CellKey) (g : GameWindow) :
    (g.applyPendingEdits order).2 = (order.order g.pendingEdits.keys).flatMap fun key =>
      match g.pendingEdits.lookup key with
      | none => []
      | some a => (g.sendAction a key.x key.y).2 := by
  unfold applyPendingEdits
  by_cases hnone : g.pendingEdits.keys = ∅
  · rw [if_pos hnone, hnone, Traversal.order_empty]
    rfl
  · rw [if_neg hnone]
    exact foldl_sendPending g _ g [] rfl rfl rfl

theorem applyPendingEdits_fst (order : Traversal CellKey) (g : GameWindow) :
    (g.applyPendingEdits order).1.pendingEdits = ∅ := by
  unfold applyPendingEdits
  split_ifs with hnone
  · refine Finmap.ext_lookup fun key => ?_
    rw [Finmap.lookup_empty, Finmap.lookup_eq_none, ← Finmap.mem_keys, hnone]
    exact Finset.notMem_empty key
  · rfl

/-! ## The price of the queue -/

/-- What the pending edit of a key costs. -/
def costAt (g : GameWindow) (key : CellKey) : UInt64 :=
  match g.pendingEdits.lookup key with
  | none => 0
  | some a => willSpend a (g.ownerOf key)

/-- The total cost of the pending edits. -/
def pendingCost (g : GameWindow) : ℕ := ∑ key ∈ g.pendingEdits.keys, (g.costAt key).toNat

/-- The keys whose pending edit costs something. -/
def spending (g : GameWindow) : Finset CellKey :=
  g.pendingEdits.keys.filter fun key => g.costAt key ≠ 0

theorem willSpend_cases (a : EditAction) (cellOwner : UInt64) :
    willSpend a cellOwner = 0 ∨ willSpend a cellOwner = kClientPlaceCost ∧ cellOwner = 0 := by
  unfold willSpend
  cases a <;> by_cases h : cellOwner = 0 <;> simp [h]

theorem costAt_cases (g : GameWindow) (key : CellKey) :
    g.costAt key = 0 ∨ g.costAt key = kClientPlaceCost ∧ g.ownerOf key = 0 := by
  rw [costAt]
  cases g.pendingEdits.lookup key with
  | none => exact Or.inl rfl
  | some a => exact willSpend_cases a _

theorem mem_spending {g : GameWindow} {key : CellKey} :
    key ∈ g.spending ↔ g.costAt key ≠ 0 := by
  rw [spending, Finset.mem_filter, Finmap.mem_keys, and_iff_right_iff_imp]
  intro hcost
  by_contra hnone
  rw [costAt, Finmap.lookup_eq_none.mpr hnone] at hcost
  exact hcost rfl

/-- The queue costs `kClientPlaceCost` for each edit that costs something. -/
theorem pendingCost_eq (g : GameWindow) : g.pendingCost = 2 * g.spending.card := by
  have hcost : ∀ key, (g.costAt key).toNat = if g.costAt key ≠ 0 then 2 else 0 := by
    intro key
    rcases g.costAt_cases key with h | ⟨h, -⟩
    · rw [if_neg (not_not.mpr h), h]
      rfl
    · rw [if_pos (h ▸ by decide), h]
      rfl
  rw [pendingCost, spending, Finset.sum_congr rfl fun key _ => hcost key, ← Finset.sum_filter,
    Finset.sum_const_nat fun _ _ => rfl, Nat.mul_comm]

/-- The loop of `queuedSpend`, from a sum so far. -/
theorem foldl_willSpend (g : GameWindow) (l : List CellKey) (n : ℕ) :
    l.foldl (fun queuedSpend key =>
      match g.pendingEdits.lookup key with
      | none => queuedSpend
      | some a => queuedSpend + willSpend a (g.worldModel.ownerAt key.x key.y)) (UInt64.ofNat n) =
      UInt64.ofNat (n + (l.map fun key => (g.costAt key).toNat).sum) := by
  induction l generalizing n with
  | nil => rfl
  | cons key l ih =>
    rw [List.foldl_cons, List.map_cons, List.sum_cons, ← Nat.add_assoc, ← ih, costAt]
    congr 1
    cases g.pendingEdits.lookup key with
    | none => rfl
    | some a =>
      dsimp only
      rw [UInt64.ofNat_add, UInt64.ofNat_toNat]
      rfl

/-- **The sum of the loop**, in whatever order it adds. -/
theorem queuedSpend_eq (order : Traversal CellKey) (g : GameWindow) :
    g.queuedSpend order = UInt64.ofNat g.pendingCost := by
  have hkeys : (order.order g.pendingEdits.keys).toFinset = g.pendingEdits.keys := by
    ext key
    rw [List.mem_toFinset, Traversal.mem_order]
  rw [queuedSpend, show (0 : UInt64) = UInt64.ofNat 0 from rfl, foldl_willSpend, Nat.zero_add,
    ← List.sum_toFinset _ (order.nodup _), hkeys, pendingCost]

/-! ## Clicks -/

/-- A click in the queued mode, with the order of its loop. -/
structure Click where
  order : Traversal CellKey
  action : EditAction
  key : CellKey

def click (g : GameWindow) (c : Click) : GameWindow :=
  (g.onGridCellClicked c.order .Queued c.action c.key.x c.key.y).1

/-- The click is let through: the edit is allowed, and where the balance is known the queue
with the new edit does not cost more. -/
def Admits (g : GameWindow) (c : Click) : Prop :=
  g.isAllowed c.action (g.ownerOf c.key) = true ∧
    ∀ me, g.me = some me →
      UInt64.ofNat g.pendingCost + willSpend c.action (g.ownerOf c.key) ≤ me.balance

/-- The edits after a click that is let through: the same edit once more cancels it. -/
def editsAfter (g : GameWindow) (c : Click) : Finmap fun _ : CellKey => EditAction :=
  if g.pendingEdits.lookup c.key = some c.action then g.pendingEdits.erase c.key
  else g.pendingEdits.insert c.key c.action

/-- **One click** changes the status or the edits. -/
theorem click_cases (g : GameWindow) (c : Click) :
    (∃ status, g.click c = { g with status := status }) ∧ ¬ g.Admits c ∨
      g.Admits c ∧ g.click c = { g with pendingEdits := g.editsAfter c } := by
  have hmode : ¬ EditMode.Queued = EditMode.Immediate := by decide
  have hbalance : (∀ me, g.me = some me →
      UInt64.ofNat g.pendingCost + willSpend c.action (g.ownerOf c.key) ≤ me.balance) ↔
      ¬ (g.me.isSome = true ∧ UInt64.ofNat g.pendingCost + willSpend c.action (g.ownerOf c.key) >
        (g.me.map GameNetworkClient.PlayerSnapshot.balance).getD 0) := by
    cases g.me with
    | none => simp
    | some me => simp
  rw [Admits, hbalance, click, onGridCellClicked, if_neg hmode, queuedSpend_eq,
    show g.worldModel.ownerAt c.key.x c.key.y = g.ownerOf c.key from rfl]
  dsimp only
  by_cases hallowed : g.isAllowed c.action (g.ownerOf c.key) = true
  · rw [if_neg (by rw [hallowed]; decide)]
    split_ifs with hover hsame
    · exact Or.inl ⟨⟨_, rfl⟩, fun h => h.2 hover⟩
    · exact Or.inr ⟨⟨hallowed, hover⟩, by rw [editsAfter, if_pos hsame]⟩
    · exact Or.inr ⟨⟨hallowed, hover⟩, by rw [editsAfter, if_neg hsame]⟩
  · rw [if_pos (by simp [hallowed])]
    exact Or.inl ⟨⟨_, rfl⟩, fun h => hallowed h.1⟩

end GameWindow
end Multilife.Client

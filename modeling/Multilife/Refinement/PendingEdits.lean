import Multilife.Client.GameWindow
import Multilife.Refinement.Addressing
import Multilife.Refinement.CommandStream
import Multilife.Refinement.PlayerBatch
import Multilife.Server.BoostNetworkManager

/-!
# Queued edits

The client decides three times what the server will decide: when a cell is clicked, when
the price of the queue is compared with the balance, and when the edits are sent.  The
pending edits name distinct cells, and the client sees the owners the server sees, so each
edit sets a free cell for `kPlaceCost` or clears a cell of the player for `kRemoveAward`
(`edit_effect`).  What remains is arithmetic: two sums of 64 bits, of the client's prices
and of the server's awards, can wrap.

* `commands_of_calls`: the calls of the client arrive at the server as their commands.
* `queued_clicks`: what is known of the edits after any clicks.
* `pendingCost_le`: the queue is covered by the balance where the first sum does not wrap.
* `editsTakeEffect_iff`: exactly when every queue is covered and all its edits take effect.
-/

namespace Multilife.Client

open FiniteMap Transition World GameWindow

/-! ## From calls to commands -/

namespace RuntimeCall

/-- What `GameNetworkClient` is asked for by a call. -/
def request (playerId : PlayerId) : RuntimeCall → Request
  | .sendPlaceCell x y => .command .PlaceCell playerId x y
  | .sendRemoveCell x y => .command .RemoveCell playerId x y
  | .sendToggleCell x y => .command .ToggleCell playerId x y

/-- The command of a call. -/
def command (playerId : PlayerId) : RuntimeCall → PlayerCommand
  | .sendPlaceCell x y => ⟨playerId, .PlaceCell, x, y⟩
  | .sendRemoveCell x y => ⟨playerId, .RemoveCell, x, y⟩
  | .sendToggleCell x y => ⟨playerId, .ToggleCell, x, y⟩

end RuntimeCall

/-- **Calls arrive as commands**: in whatever fragments the stream of the calls is read, the
session hands exactly their commands to the server, in order. -/
theorem commands_of_calls {c : GameNetworkClient} (hc : c.isConnected = true)
    {playerId : PlayerId} (calls : List RuntimeCall) {fragments : List (List UInt8)}
    (h : fragments.flatten = stream c playerId (calls.map (RuntimeCall.request playerId)))
    (m : BoostNetworkManager) {session : Session}
    (hsession : session.playerId = playerId) :
    ∃ messages : List ClientMessage, readFragments fragments =
        ⟨.handshake (GameNetworkClient.onTcpConnected playerId) :: messages.map .message,
          .msgTypeBuf, []⟩ ∧
      messages.flatMap (fun msg => (m.readNextMessage session msg).2) =
        calls.map (RuntimeCall.command playerId) := by
  refine ⟨calls.map fun call => (call.request playerId).message, ?_, ?_⟩
  · rw [read_stream hc playerId _ h, List.map_map, List.map_map]
    rfl
  · rw [List.flatMap_map, List.map_eq_flatMap]
    refine List.flatMap_congr fun call _ => ?_
    cases call <;> simp [RuntimeCall.request, RuntimeCall.command, Request.message,
      BoostNetworkManager.readNextMessage, hsession]

/-! ## The queue -/

/-- The coordinates have 32 bits. -/
def CellKey.InRange (key : CellKey) : Prop :=
  (-2 ^ 31 ≤ key.x.toInt ∧ key.x.toInt < 2 ^ 31) ∧ -2 ^ 31 ≤ key.y.toInt ∧ key.y.toInt < 2 ^ 31

instance (key : CellKey) : Decidable key.InRange := inferInstanceAs (Decidable (_ ∧ _))

/-- There are finitely many keys. -/
instance : Finite CellKey :=
  Finite.of_injective (fun key => (key.x.toBitVec.toFin, key.y.toBitVec.toFin)) fun key key' h => by
    obtain ⟨hx, hy⟩ := Prod.mk.inj h
    ext1
    · exact Int64.toBitVec_inj.mp (BitVec.toFin_inj.mp hx)
    · exact Int64.toBitVec_inj.mp (BitVec.toFin_inj.mp hy)

namespace GameWindow

/-- The cells in range without an owner. -/
def freeKeys (g : GameWindow) : Set CellKey := {key | key.InRange ∧ g.ownerOf key = 0}

/-- The cells in range of the player. -/
def ownKeys (g : GameWindow) : Set CellKey := {key | key.InRange ∧ g.ownerOf key = g.playerId}

/-- What clicks make of a window: all but the status and the edits is as before, and every
pending edit is allowed and in range. -/
structure Queued (g₀ g : GameWindow) : Prop where
  same : ∃ status edits, g = { g₀ with status := status, pendingEdits := edits }
  allowed : ∀ key a, g.pendingEdits.lookup key = some a →
    g₀.isAllowed a (g₀.ownerOf key) = true ∧ key.InRange

variable {g₀ g : GameWindow} {c : Click}

/-- One click replaces one edit. -/
theorem lookup_editsAfter (g : GameWindow) (c : Click) (key : CellKey) :
    (g.editsAfter c).lookup key =
      if key = c.key then
        if g.pendingEdits.lookup c.key = some c.action then none else some c.action
      else g.pendingEdits.lookup key := by
  unfold editsAfter
  by_cases hkey : key = c.key
  · rw [if_pos hkey, hkey]
    split_ifs
    · exact Finmap.lookup_erase c.key _
    · exact Finmap.lookup_insert _
  · rw [if_neg hkey]
    split_ifs
    · exact Finmap.lookup_erase_ne hkey
    · exact Finmap.lookup_insert_of_ne _ hkey

theorem queued_click (h : Queued g₀ g) (hrange : c.key.InRange) : Queued g₀ (g.click c) := by
  obtain ⟨⟨status, edits, rfl⟩, hallowed⟩ := h
  rcases click_cases { g₀ with status := status, pendingEdits := edits } c with
    ⟨⟨status', hclick⟩, -⟩ | ⟨⟨hadmitted, -⟩, hclick⟩
  · rw [hclick]
    exact ⟨⟨status', edits, rfl⟩, hallowed⟩
  · rw [hclick]
    refine ⟨⟨status, _, rfl⟩, fun key a hlookup => ?_⟩
    dsimp only at hlookup
    rw [lookup_editsAfter] at hlookup
    split_ifs at hlookup with hkey
    · cases hlookup
      rw [hkey]
      exact ⟨hadmitted, hrange⟩
    · exact hallowed key a hlookup

/-- **The queue after any clicks.** -/
theorem queued_clicks (hempty : g₀.pendingEdits = ∅) (clicks : List Click)
    (hrange : ∀ c ∈ clicks, c.key.InRange) : Queued g₀ (clicks.foldl click g₀) := by
  refine foldl_invariant (P := fun _ c => c.key.InRange) (fun g c h hc => queued_click h hc) ?_
    (along_of_forall_mem fun c hc _ => hrange c hc)
  refine ⟨⟨_, _, rfl⟩, fun key a hlookup => ?_⟩
  rw [hempty, Finmap.lookup_empty] at hlookup
  cases hlookup

namespace Queued

theorem playerId_eq (h : Queued g₀ g) : g.playerId = g₀.playerId := by
  obtain ⟨status, edits, rfl⟩ := h.same
  rfl

theorem me_eq (h : Queued g₀ g) : g.me = g₀.me := by
  obtain ⟨status, edits, rfl⟩ := h.same
  rfl

theorem worldModel_eq (h : Queued g₀ g) : g.worldModel = g₀.worldModel := by
  obtain ⟨status, edits, rfl⟩ := h.same
  rfl

theorem ownerOf_eq (h : Queued g₀ g) (key : CellKey) : g.ownerOf key = g₀.ownerOf key := by
  obtain ⟨status, edits, rfl⟩ := h.same
  rfl

theorem isAllowed (h : Queued g₀ g) {key : CellKey} {a : EditAction}
    (hedit : g.pendingEdits.lookup key = some a) : g.isAllowed a (g.ownerOf key) = true := by
  have hallowed := (h.allowed key a hedit).1
  obtain ⟨status, edits, rfl⟩ := h.same
  exact hallowed

end Queued

/-- A pending edit with a price. -/
theorem mem_spending_of_price {key : CellKey} {a : EditAction}
    (hedit : g.pendingEdits.lookup key = some a)
    (hprice : willSpend a (g.ownerOf key) = kClientPlaceCost) : key ∈ g.spending := by
  rw [mem_spending, costAt, hedit]
  show willSpend a (g.ownerOf key) ≠ 0
  rw [hprice]
  decide

/-- What costs something is free. -/
theorem Queued.spending_subset (h : Queued g₀ g) : (g.spending : Set CellKey) ⊆ g₀.freeKeys := by
  intro key hkey
  rw [Finset.mem_coe, mem_spending] at hkey
  have hfree := (g.costAt_cases key).resolve_left hkey
  rw [costAt] at hkey
  cases hedit : g.pendingEdits.lookup key with
  | none =>
    rw [hedit] at hkey
    exact absurd rfl hkey
  | some a => exact ⟨(h.allowed key a hedit).2, (h.ownerOf_eq key).symm.trans hfree.2⟩

/-- A click that is let through adds at most its own key to those that cost something. -/
theorem spending_editsAfter (g : GameWindow) (c : Click) :
    ({ g with pendingEdits := g.editsAfter c } : GameWindow).spending ⊆
      if willSpend c.action (g.ownerOf c.key) = 0 then g.spending
      else insert c.key g.spending := by
  intro key hkey
  rw [mem_spending, costAt] at hkey
  dsimp only at hkey
  rw [lookup_editsAfter] at hkey
  by_cases hc : key = c.key
  · subst hc
    rw [if_pos rfl] at hkey
    by_cases hsame : g.pendingEdits.lookup c.key = some c.action
    · rw [if_pos hsame] at hkey
      exact absurd rfl hkey
    · rw [if_neg hsame] at hkey
      rw [if_neg (show willSpend c.action (g.ownerOf c.key) ≠ 0 from hkey)]
      exact Finset.mem_insert_self _ _
  · rw [if_neg hc] at hkey
    have hold : key ∈ g.spending := mem_spending.mpr hkey
    split_ifs
    · exact hold
    · exact Finset.mem_insert_of_mem hold

/-! ## The queue is covered -/

section Covered

variable {me : GameNetworkClient.PlayerSnapshot} (hknown : g₀.me = some me)
  (hroom : me.balance.toNat + 2 < 2 ^ 64 ∨ g₀.freeKeys.ncard < 2 ^ 63)
include hknown hroom

/-- A click does not make the queue cost more than the balance: where it adds a price, the
sum that was compared has not wrapped. -/
theorem pendingCost_click (h : Queued g₀ g) (hcost : g.pendingCost ≤ me.balance.toNat)
    (hrange : c.key.InRange) : (g.click c).pendingCost ≤ me.balance.toNat := by
  rcases g.click_cases c with ⟨⟨status, hclick⟩, -⟩ | ⟨⟨-, hadmitted⟩, hclick⟩
  · rw [hclick]
    exact hcost
  · rw [hclick, pendingCost_eq]
    rw [pendingCost_eq] at hcost hadmitted
    have hme : g.me = some me := h.me_eq.trans hknown
    have hspending := g.spending_editsAfter c
    rcases willSpend_cases c.action (g.ownerOf c.key) with hfree | ⟨hprice, hzero⟩
    · rw [if_pos hfree] at hspending
      have hcard := Finset.card_le_card hspending
      omega
    · rw [if_neg (by rw [hprice]; decide)] at hspending
      have hcard := Finset.card_le_card hspending
      by_cases hmem : c.key ∈ g.spending
      · rw [Finset.insert_eq_of_mem hmem] at hcard
        omega
      · rw [Finset.card_insert_of_notMem hmem] at hcard
        -- the new key is free as well
        have hfree : g.spending.card + 1 ≤ g₀.freeKeys.ncard := by
          rw [← Finset.card_insert_of_notMem hmem, ← Set.ncard_coe_finset]
          refine Set.ncard_le_ncard ?_ (Set.toFinite _)
          rw [Finset.coe_insert, Set.insert_subset_iff]
          exact ⟨⟨hrange, (h.ownerOf_eq c.key).symm.trans hzero⟩, h.spending_subset⟩
        have hle := UInt64.le_iff_toNat_le.mp (hadmitted me hme)
        have htwo : kClientPlaceCost.toNat = 2 := rfl
        rw [hprice, UInt64.toNat_add, UInt64.toNat_ofNat', htwo] at hle
        omega

/-- **The queue is covered** after any clicks. -/
theorem pendingCost_le (hempty : g₀.pendingEdits = ∅) (clicks : List Click)
    (hrange : ∀ c ∈ clicks, c.key.InRange) :
    (clicks.foldl click g₀).pendingCost ≤ me.balance.toNat := by
  have hstart : Queued g₀ g₀ ∧ g₀.pendingCost ≤ me.balance.toNat := by
    refine ⟨queued_clicks hempty [] fun c hc => absurd hc List.not_mem_nil, ?_⟩
    rw [pendingCost, hempty, Finmap.keys_empty, Finset.sum_empty]
    exact Nat.zero_le _
  refine (foldl_invariant (P := fun _ c => c.key.InRange)
    (I := fun g => Queued g₀ g ∧ g.pendingCost ≤ me.balance.toNat) (fun g c h hc => ?_) hstart
    (along_of_forall_mem fun c hc _ => hrange c hc)).2
  exact ⟨queued_click h.1 hc, pendingCost_click hknown hroom h.1 h.2 hc⟩

end Covered

end GameWindow

/-! ## What the server makes of an edit -/

/-- The command of an edit. -/
def commandOf (g : GameWindow) (a : EditAction) (key : CellKey) : PlayerCommand :=
  (callOf a key).command g.playerId

variable {w : World} {g₀ g : GameWindow} {a : EditAction} {key : CellKey}

@[simp] theorem playerId_commandOf : (commandOf g a key).playerId = g.playerId := by
  cases a <;> rfl

/-- A command in range works on the cell of its key. -/
theorem targetOf_commandOf (hrange : key.InRange) : targetOf (commandOf g a key) = key.point := by
  obtain ⟨⟨hxlow, hxhigh⟩, hylow, hyhigh⟩ := hrange
  have hx : CoordInReach key.x := ⟨by omega, by omega⟩
  have hy : CoordInReach key.y := ⟨by omega, by omega⟩
  have hreach : InReach (commandOf g a key) := by cases a <;> exact ⟨hx, hy⟩
  rw [(targetOf_eq_iff _).mpr hreach]
  cases a <;> rfl

section World

variable (hid : g.playerId ≠ 0) (hshows : g.worldModel.Shows w.cellAt) (hpaired : w.cellAt.Paired)
include hid hshows hpaired

omit hid in
/-- The client sees the owner the server sees. -/
theorem ownerOf_eq (key : CellKey) : g.ownerOf key = (w.cellAt key.point).owner := by
  rw [ownerOf, WorldModel.ownerAt, hshows, liveOwner]
  have hpair := hpaired (CellKey.point ⟨key.x, key.y⟩)
  by_cases halive : (w.cellAt (CellKey.point ⟨key.x, key.y⟩)).alive = true
  · rw [if_pos halive]
    rfl
  · rw [if_neg halive, (not_not.mp (mt hpair.mpr halive) :
      (w.cellAt (CellKey.point ⟨key.x, key.y⟩)).owner = 0)]
    rfl

/-- **What an allowed edit is for**: it costs something and sets a free cell, or it costs
nothing and clears a cell of the player. -/
theorem edit_effect (hallowed : g.isAllowed a (g.ownerOf key) = true) (hrange : key.InRange) :
    (g.ownerOf key = 0 ∧ willSpend a (g.ownerOf key) = kClientPlaceCost ∧
        setsCell w.cellAt (commandOf g a key) = true ∧
        clearsCell w.cellAt (commandOf g a key) = false) ∨
      (g.ownerOf key = g.playerId ∧ willSpend a (g.ownerOf key) = 0 ∧
        setsCell w.cellAt (commandOf g a key) = false ∧
        clearsCell w.cellAt (commandOf g a key) = true) := by
  have howner := ownerOf_eq hshows hpaired key
  have hpair := hpaired key.point
  rw [← howner] at hpair
  rw [setsCell, clearsCell, targetOf_commandOf hrange, mayPlace, mayRemove]
  have hcases : g.ownerOf key = 0 ∨ g.ownerOf key = g.playerId := by
    cases a with
    | Place => exact Or.inl (beq_iff_eq.mp hallowed)
    | Remove => exact Or.inr (beq_iff_eq.mp hallowed)
    | Toggle => simpa [isAllowed] using hallowed
  rcases hcases with hzero | hmine
  · have hdead : (w.cellAt key.point).alive = false := by
      rw [← Bool.not_eq_true, hpair, not_not, hzero]
    refine Or.inl ⟨hzero, ?_⟩
    cases a with
    | Place => simp [commandOf, callOf, RuntimeCall.command, willSpend, hzero, ← howner]
    | Remove => exact absurd ((beq_iff_eq.mp hallowed).symm.trans hzero) hid
    | Toggle => simp [commandOf, callOf, RuntimeCall.command, willSpend, hzero, ← howner, hdead]
  · have hnonzero : g.ownerOf key ≠ 0 := by rwa [hmine]
    have halive : (w.cellAt key.point).alive = true := hpair.mpr hnonzero
    refine Or.inr ⟨hmine, ?_⟩
    cases a with
    | Place => exact absurd (beq_iff_eq.mp hallowed) hnonzero
    | Remove => simp [commandOf, callOf, RuntimeCall.command, willSpend, hmine, ← howner]
    | Toggle =>
      simp [commandOf, callOf, RuntimeCall.command, willSpend, hmine, hid, ← howner, halive]

end World

/-! ## The commands of the queue -/

/-- The commands of the pending edits, in the order they are sent. -/
def commandsOf (order : Traversal CellKey) (g : GameWindow) : List PlayerCommand :=
  (order.order g.pendingEdits.keys).filterMap fun key =>
    (g.pendingEdits.lookup key).map fun a => commandOf g a key

/-- They are the commands of the calls. -/
theorem map_command_calls (order : Traversal CellKey) (g : GameWindow) :
    ((order.order g.pendingEdits.keys).filterMap fun key =>
      (g.pendingEdits.lookup key).map fun a => callOf a key).map
        (RuntimeCall.command g.playerId) = commandsOf order g := by
  rw [List.map_filterMap, commandsOf]
  simp only [Option.map_map]
  rfl

theorem mem_commandsOf {order : Traversal CellKey} {cmd : PlayerCommand} :
    cmd ∈ commandsOf order g ↔
      ∃ key a, g.pendingEdits.lookup key = some a ∧ cmd = commandOf g a key := by
  rw [commandsOf, List.mem_filterMap]
  constructor
  · rintro ⟨key, -, h⟩
    obtain ⟨a, ha, rfl⟩ := Option.map_eq_some_iff.mp h
    exact ⟨key, a, ha, rfl⟩
  · rintro ⟨key, a, ha, rfl⟩
    refine ⟨key, (order.mem_order _ _).mpr (Finmap.mem_keys.mpr (Finmap.mem_iff.mpr ⟨a, ha⟩)), ?_⟩
    rw [ha]
    rfl

/-- Pending edits in range work on distinct cells. -/
theorem nodup_targets (order : Traversal CellKey)
    (hrange : ∀ key a, g.pendingEdits.lookup key = some a → key.InRange) :
    ((commandsOf order g).map targetOf).Nodup := by
  rw [commandsOf, List.map_filterMap]
  refine List.Nodup.filterMap (fun key key' p hp hp' => ?_) (order.nodup _)
  have hpoint : ∀ key, p ∈ ((g.pendingEdits.lookup key).map fun a => commandOf g a key).map
      targetOf → key.point = p := by
    intro key hkey
    rw [Option.map_map, Option.mem_def, Option.map_eq_some_iff] at hkey
    obtain ⟨a, ha, rfl⟩ := hkey
    exact (targetOf_commandOf (hrange key a ha)).symm
  exact CellKey.point_injective ((hpoint key hp).trans (hpoint key' hp').symm)

/-- Commands of one kind are at most as many as the keys they can come from. -/
theorem countP_commandsOf_le (order : Traversal CellKey) {P : PlayerCommand → Bool}
    {S : Set CellKey}
    (hS : ∀ key a, g.pendingEdits.lookup key = some a → P (commandOf g a key) = true → key ∈ S) :
    (commandsOf order g).countP P ≤ S.ncard := by
  classical
  rw [commandsOf, List.countP_filterMap, List.countP_eq_length_filter,
    ← List.toFinset_card_of_nodup ((order.nodup _).filter _), ← Set.ncard_coe_finset]
  refine Set.ncard_le_ncard (fun key hkey => ?_) (Set.toFinite S)
  rw [List.coe_toFinset, Set.mem_ofPred_eq, List.mem_filter] at hkey
  cases hedit : g.pendingEdits.lookup key with
  | none => simp [hedit] at hkey
  | some a =>
    rw [hedit] at hkey
    exact hS key a hedit hkey.2

/-! ## The promise -/

/-- Whatever is clicked in the queued mode within 32 bits, the pending edits are covered by
the balance `b`; after Apply every one of them has passed `sendAction`, is sent once and
is pending no more; and when the server applies the sent commands to the world `w`, in any
order and with `b` on the account of the player, each takes full effect. -/
def EditsTakeEffect (w : World) (g : GameWindow) (b : UInt64) : Prop :=
  ∀ clicks : List Click, (∀ c ∈ clicks, c.key.InRange) →
    (clicks.foldl click g).pendingCost ≤ b.toNat ∧
    ∀ order : Traversal CellKey,
      let queue := clicks.foldl click g
      let sent := queue.applyPendingEdits order
      (∀ key a, queue.pendingEdits.lookup key = some a →
        queue.sendAction a key.x key.y = (queue, [callOf a key])) ∧
      sent.2 = (order.order queue.pendingEdits.keys).filterMap (fun key =>
        (queue.pendingEdits.lookup key).map fun a => callOf a key) ∧
      sent.1.pendingEdits = ∅ ∧
      ∀ (r : ResourceManager) (batch : List PlayerCommand),
        r.balances.lookup g.playerId = some b →
        batch.Perm (sent.2.map (RuntimeCall.command g.playerId)) →
        Along applyCommand (fun s cmd => FullEffect cmd s (applyCommand s cmd)) (w, r) batch

/-- Where every pending edit passes, each is sent, in the order of the container. -/
theorem applyPendingEdits_snd_of_pass (order : Traversal CellKey)
    (hpass : ∀ key a, g.pendingEdits.lookup key = some a →
      g.sendAction a key.x key.y = (g, [callOf a key])) :
    (g.applyPendingEdits order).2 = (order.order g.pendingEdits.keys).filterMap fun key =>
      (g.pendingEdits.lookup key).map fun a => callOf a key := by
  rw [applyPendingEdits_snd, List.filterMap_eq_flatMap_toList]
  refine List.flatMap_congr fun key _ => ?_
  cases hedit : g.pendingEdits.lookup key with
  | none => rfl
  | some a =>
    dsimp only
    rw [hpass key a hedit]
    rfl

/-- **A pending edit passes `sendAction`**, where the queue is covered. -/
theorem sendAction_of_queued {me : GameNetworkClient.PlayerSnapshot} (h : Queued g₀ g)
    (hknown : g₀.me = some me) (hcost : g.pendingCost ≤ me.balance.toNat)
    (hedit : g.pendingEdits.lookup key = some a) :
    g.sendAction a key.x key.y = (g, [callOf a key]) := by
  rw [pendingCost_eq] at hcost
  refine sendAction_eq (h.isAllowed hedit) fun me' hme' => ?_
  have hme : me' = me := Option.some.inj ((hme'.symm.trans h.me_eq).trans hknown)
  rw [hme]
  rcases willSpend_cases a (g.ownerOf key) with hfree | ⟨hprice, -⟩
  · rw [hfree]
    exact UInt64.zero_le
  · have hcard := Finset.card_pos.mpr ⟨key, mem_spending_of_price hedit hprice⟩
    have htwo : kClientPlaceCost.toNat = 2 := rfl
    rw [hprice]
    exact UInt64.le_iff_toNat_le.mpr (by omega)

section Promise

variable (hid : g₀.playerId ≠ 0) (hshows : g₀.worldModel.Shows w.cellAt) (hpaired : w.cellAt.Paired)
include hid hshows hpaired

/-- What a pending edit is for. -/
theorem queued_effect (h : Queued g₀ g) (hedit : g.pendingEdits.lookup key = some a) :
    (g.ownerOf key = 0 ∧ willSpend a (g.ownerOf key) = kClientPlaceCost ∧
        setsCell w.cellAt (commandOf g a key) = true ∧
        clearsCell w.cellAt (commandOf g a key) = false) ∨
      (g.ownerOf key = g.playerId ∧ willSpend a (g.ownerOf key) = 0 ∧
        setsCell w.cellAt (commandOf g a key) = false ∧
        clearsCell w.cellAt (commandOf g a key) = true) := by
  have hid' : g.playerId ≠ 0 := by rwa [h.playerId_eq]
  have hshows' : g.worldModel.Shows w.cellAt := by rwa [h.worldModel_eq]
  exact edit_effect hid' hshows' hpaired (h.isAllowed hedit) (h.allowed key a hedit).2

/-- The cells the queue sets are the keys it pays for. -/
theorem countP_setsCell_le (h : Queued g₀ g) (order : Traversal CellKey) :
    (commandsOf order g).countP (setsCell w.cellAt) ≤ g.spending.card := by
  rw [← Set.ncard_coe_finset]
  refine countP_commandsOf_le order fun key a hedit hset => ?_
  rcases queued_effect hid hshows hpaired h hedit with ⟨-, hprice, -⟩ | ⟨-, -, hnot, -⟩
  · exact Finset.mem_coe.mpr (mem_spending_of_price hedit hprice)
  · rw [hset] at hnot
    cases hnot

/-- The cells the queue clears are cells of the player. -/
theorem countP_clearsCell_le (h : Queued g₀ g) (order : Traversal CellKey) :
    (commandsOf order g).countP (clearsCell w.cellAt) ≤ g₀.ownKeys.ncard := by
  refine countP_commandsOf_le order fun key a hedit hclears => ?_
  rcases queued_effect hid hshows hpaired h hedit with ⟨-, -, -, hnot⟩ | ⟨hmine, -⟩
  · rw [hclears] at hnot
    cases hnot
  · refine ⟨(h.allowed key a hedit).2, ?_⟩
    rw [← h.ownerOf_eq, hmine, h.playerId_eq]

/-- **The queue takes full effect**, in any order, where it is covered and the awards of its
removals cannot wrap. -/
theorem along_commandsOf {b : UInt64} (h : Queued g₀ g) (hcost : g.pendingCost ≤ b.toNat)
    (haward : b.toNat < 2 ∨ g₀.freeKeys = ∅ ∨ b.toNat + g₀.ownKeys.ncard < 2 ^ 64)
    (order : Traversal CellKey) {r : ResourceManager} (hb : r.balances.lookup g₀.playerId = some b)
    {batch : List PlayerCommand} (hperm : batch.Perm (commandsOf order g)) :
    Along applyCommand (fun s cmd => FullEffect cmd s (applyCommand s cmd)) (w, r) batch := by
  have hplayers : ∀ cmd ∈ batch, cmd.playerId = g₀.playerId := by
    intro cmd hcmd
    obtain ⟨key, a, -, rfl⟩ := mem_commandsOf.mp (hperm.mem_iff.mp hcmd)
    rw [playerId_commandOf, h.playerId_eq]
  have hdistinct : (batch.map targetOf).Nodup :=
    (hperm.map targetOf).nodup_iff.mpr (nodup_targets order fun key a hedit =>
      (h.allowed key a hedit).2)
  have hmay : ∀ cmd ∈ batch, setsCell w.cellAt cmd = true ∨ clearsCell w.cellAt cmd = true := by
    intro cmd hcmd
    obtain ⟨key, a, hedit, rfl⟩ := mem_commandsOf.mp (hperm.mem_iff.mp hcmd)
    exact (queued_effect hid hshows hpaired h hedit).imp (fun h => h.2.2.1) fun h => h.2.2.2
  have hset := countP_setsCell_le hid hshows hpaired h order
  have hcleared := countP_clearsCell_le hid hshows hpaired h order
  rw [← hperm.countP_eq] at hset hcleared
  rw [pendingCost_eq] at hcost
  rw [along_fullEffect_iff hpaired fun cmd hcmd => by rwa [hplayers cmd hcmd]]
  refine along_accepted hplayers hdistinct hmay hb ?_
  rcases haward with hpoor | hnone | hfits
  · left
    dsimp only
    omega
  · left
    have hfree := h.spending_subset
    rw [hnone, Set.subset_empty_iff, Finset.coe_eq_empty] at hfree
    rw [hfree, Finset.card_empty] at hset
    exact Nat.le_zero.mp hset
  · right
    dsimp only
    omega

/-- **The promise is kept** where neither of the two sums can wrap. -/
theorem editsTakeEffect_of_room {me : GameNetworkClient.PlayerSnapshot}
    (hknown : g₀.me = some me) (hempty : g₀.pendingEdits = ∅)
    (hroom : me.balance.toNat + 2 < 2 ^ 64 ∨ g₀.freeKeys.ncard < 2 ^ 63)
    (haward : me.balance.toNat < 2 ∨ g₀.freeKeys = ∅ ∨
      me.balance.toNat + g₀.ownKeys.ncard < 2 ^ 64) : EditsTakeEffect w g₀ me.balance := by
  intro clicks hrange
  have hcost := pendingCost_le hknown hroom hempty clicks hrange
  have hqueued := queued_clicks hempty clicks hrange
  refine ⟨hcost, fun order => ?_⟩
  have hpass := fun key a (hedit : (clicks.foldl click g₀).pendingEdits.lookup key = some a) =>
    sendAction_of_queued hqueued hknown hcost hedit
  have hsent := applyPendingEdits_snd_of_pass order hpass
  refine ⟨hpass, hsent, applyPendingEdits_fst order _, fun r batch hbalance hperm => ?_⟩
  rw [hsent, ← hqueued.playerId_eq, map_command_calls] at hperm
  exact along_commandsOf hid hshows hpaired hqueued hcost haward order hbalance hperm

end Promise

/-! ## The promise broken -/

/-- Keys by increasing coordinates. -/
def sortedKeys : Traversal CellKey :=
  Traversal.byRank (fun key => toLex key.point) fun _ _ h =>
    CellKey.point_injective (toLex.injective h)

/-- One action on each of some cells. -/
def clicksOn (a : EditAction) (keys : List CellKey) : List Click :=
  keys.map fun key => ⟨sortedKeys, a, key⟩

/-- Every key of the list has the action pending, and no other key has an edit. -/
def AllPending (a : EditAction) (keys : List CellKey)
    (edits : Finmap fun _ : CellKey => EditAction) : Prop :=
  ∀ key, edits.lookup key = if key ∈ keys then some a else none

/-- **One action on distinct cells**: if every click is let through, the action is pending
for all of them. -/
theorem clicks_on {keys : List CellKey} (hempty : g.pendingEdits = ∅) (hkeys : keys.Nodup)
    (hadmits : ∀ edits before key, AllPending a before edits →
      (∀ k ∈ before, k ∈ keys) → key ∈ keys → key ∉ before →
        ({ g with pendingEdits := edits } : GameWindow).Admits ⟨sortedKeys, a, key⟩) :
    ∃ edits, (clicksOn a keys).foldl click g = { g with pendingEdits := edits } ∧
      AllPending a keys edits := by
  induction keys using List.reverseRecOn with
  | nil =>
    refine ⟨∅, ?_, fun key => Finmap.lookup_empty key⟩
    rw [← hempty]
    rfl
  | append_singleton before key ih =>
    have hnodup := List.nodup_append.mp hkeys
    have hnot : key ∉ before := fun h => hnodup.2.2 key h key (List.mem_singleton_self _) rfl
    obtain ⟨edits, hclicks, hpending⟩ := ih hnodup.1 fun edits before' key' h hsub hmem =>
      hadmits edits before' key' h (fun k hk => List.mem_append_left _ (hsub k hk))
        (List.mem_append_left _ hmem)
    have hadmitted := hadmits edits before key hpending (fun k hk => List.mem_append_left _ hk)
      (List.mem_append_right _ (List.mem_singleton_self _)) hnot
    have hclick := (click_cases { g with pendingEdits := edits } ⟨sortedKeys, a, key⟩).resolve_left
      fun h => h.2 hadmitted
    refine ⟨({ g with pendingEdits := edits } : GameWindow).editsAfter ⟨sortedKeys, a, key⟩, ?_,
      fun key' => ?_⟩
    · rw [clicksOn, List.map_append, List.foldl_append, ← clicksOn, hclicks]
      exact hclick.2
    · have hnone : edits.lookup key = none := (hpending key).trans (if_neg hnot)
      rw [lookup_editsAfter]
      dsimp only
      by_cases hkey : key' = key
      · rw [hkey, if_pos rfl, if_pos (List.mem_append_right _ (List.mem_singleton_self _)), hnone]
        rfl
      · rw [if_neg hkey, hpending key']
        simp [hkey]

/-- A set of at least `n` keys contains a list of `n` distinct ones. -/
theorem exists_keys {S : Set CellKey} {n : ℕ} (h : n ≤ S.ncard) :
    ∃ keys : List CellKey, keys.Nodup ∧ keys.length = n ∧ ∀ key ∈ keys, key ∈ S := by
  obtain ⟨t, ht, hcard⟩ := Set.exists_subset_card_eq h
  refine ⟨(Set.toFinite t).toFinset.toList, Finset.nodup_toList _, ?_, fun key hkey => ?_⟩
  · rw [Finset.length_toList, ← Set.ncard_eq_toFinset_card t, hcard]
  · exact ht ((Set.toFinite t).mem_toFinset.mp (Finset.mem_toList.mp hkey))

/-- A queue of removals costs nothing. -/
theorem pendingCost_of_removals {keys : List CellKey} {edits : Finmap fun _ : CellKey => EditAction}
    (h : AllPending .Remove keys edits) :
    ({ g with pendingEdits := edits } : GameWindow).pendingCost = 0 := by
  rw [pendingCost_eq, Finset.card_eq_zero.mpr, Nat.mul_zero]
  refine Finset.eq_empty_of_forall_notMem fun key hkey => mem_spending.mp hkey ?_
  rw [costAt]
  dsimp only
  rw [h key]
  split_ifs <;> rfl

section Broken

variable {me : GameNetworkClient.PlayerSnapshot} (hknown : g.me = some me)
  (hempty : g.pendingEdits = ∅)
include hknown hempty

/-- **The client's sum wraps.**  With a balance of `2 ^ 64 - 2` or more, every even sum is at
most the balance, so any number of placements is let through. -/
theorem not_covered (hwrap : 2 ^ 64 ≤ me.balance.toNat + 2) (hfree : 2 ^ 63 ≤ g.freeKeys.ncard) :
    ¬ EditsTakeEffect w g me.balance := by
  intro h
  obtain ⟨keys, hnodup, hlength, hkeys⟩ := exists_keys hfree
  obtain ⟨edits, hclicks, hpending⟩ := clicks_on (a := .Place) hempty hnodup
    fun edits before key hpending hsub hkey hnot => by
      have howner : g.ownerOf key = 0 := (hkeys key hkey).2
      refine ⟨beq_iff_eq.mpr howner, fun me' hme' => ?_⟩
      have hme : me' = me := Option.some.inj (hme'.symm.trans hknown)
      have htwo : kClientPlaceCost.toNat = 2 := rfl
      show UInt64.ofNat _ + willSpend .Place (g.ownerOf key) ≤ me'.balance
      rw [hme, willSpend, if_pos howner, UInt64.le_iff_toNat_le, UInt64.toNat_add,
        UInt64.toNat_ofNat', htwo, pendingCost_eq]
      omega
  have hrange : ∀ c ∈ clicksOn .Place keys, c.key.InRange := by
    intro c hc
    obtain ⟨key, hkey, rfl⟩ := List.mem_map.mp hc
    exact (hkeys key hkey).1
  have hcost := (h _ hrange).1
  rw [hclicks, pendingCost_eq] at hcost
  -- all the keys cost something
  have hsub : keys.toFinset ⊆ ({ g with pendingEdits := edits } : GameWindow).spending := by
    intro key hkey
    have hmem := List.mem_toFinset.mp hkey
    exact mem_spending_of_price ((hpending key).trans (if_pos hmem)) (if_pos (hkeys key hmem).2)
  have hcard := Finset.card_le_card hsub
  rw [List.toFinset_card_of_nodup hnodup, hlength] at hcard
  have hlt := me.balance.toNat_lt
  omega

/-- Removals of the player's own cells and one placement on a free cell are let through. -/
theorem clicks_removals_place (hid : g.playerId ≠ 0) (hprice : 2 ≤ me.balance.toNat)
    {keys : List CellKey} (hnodup : keys.Nodup) (hkeys : ∀ key ∈ keys, key ∈ g.ownKeys)
    {key : CellKey} (hzero : g.ownerOf key = 0) :
    ∃ edits, (clicksOn .Remove keys ++ clicksOn .Place [key]).foldl click g =
        { g with pendingEdits := edits } ∧
      ∀ k, edits.lookup k =
        if k = key then some .Place else if k ∈ keys then some .Remove else none := by
  have hnot : key ∉ keys := fun hmem => hid ((hkeys key hmem).2.symm.trans hzero)
  obtain ⟨edits, hclicks, hpending⟩ := clicks_on (a := .Remove) hempty hnodup
    fun edits before key hpending _ hkey _ => by
      refine ⟨beq_iff_eq.mpr (hkeys key hkey).2, fun me' _ => ?_⟩
      rw [pendingCost_of_removals hpending]
      exact UInt64.zero_le
  have hadmitted : ({ g with pendingEdits := edits } : GameWindow).Admits
      ⟨sortedKeys, .Place, key⟩ := by
    refine ⟨beq_iff_eq.mpr hzero, fun me' hme' => ?_⟩
    have hme : me' = me := Option.some.inj (hme'.symm.trans hknown)
    show UInt64.ofNat _ + willSpend .Place (g.ownerOf key) ≤ me'.balance
    rw [pendingCost_of_removals hpending, hme, willSpend, if_pos hzero]
    exact UInt64.le_iff_toNat_le.mpr hprice
  have hclick := ((click_cases _ _).resolve_left fun h => h.2 hadmitted).2
  refine ⟨({ g with pendingEdits := edits } : GameWindow).editsAfter ⟨sortedKeys, .Place, key⟩, ?_,
    fun k => ?_⟩
  · rw [List.foldl_append, hclicks]
    exact hclick
  · have hnone : edits.lookup key = none := (hpending key).trans (if_neg hnot)
    rw [lookup_editsAfter]
    dsimp only
    rw [hnone, hpending k]
    rfl

omit hknown hempty in
/-- The removals first is an order of the commands of such a queue. -/
theorem perm_removals_place (order : Traversal CellKey) {keys : List CellKey} {key : CellKey}
    (hnodup : keys.Nodup) (hnot : key ∉ keys) {edits : Finmap fun _ : CellKey => EditAction}
    (hlookup : ∀ k, edits.lookup k =
      if k = key then some .Place else if k ∈ keys then some .Remove else none) :
    (keys.map (commandOf g .Remove) ++ [commandOf g .Place key]).Perm
      (commandsOf order { g with pendingEdits := edits }) := by
  have hkeys : (keys ++ [key]).Perm (order.order edits.keys) := by
    refine (List.perm_ext_iff_of_nodup ?_ (order.nodup _)).mpr fun k => ?_
    · exact hnodup.append (List.nodup_singleton key) (by simpa using hnot)
    · rw [Traversal.mem_order, Finmap.mem_keys, ← Finmap.lookup_isSome, hlookup k]
      by_cases hk : k = key
      · simp [hk]
      · by_cases hmem : k ∈ keys <;> simp [hk, hmem]
  have hlisted : keys.map (commandOf g .Remove) ++ [commandOf g .Place key] =
      (keys ++ [key]).filterMap fun k => (edits.lookup k).map fun a => commandOf g a k := by
    rw [List.filterMap_append]
    congr 1
    · rw [← List.filterMap_eq_map]
      refine List.filterMap_congr fun k hk => ?_
      have hne : k ≠ key := fun heq => hnot (heq ▸ hk)
      rw [hlookup k, if_neg hne, if_pos hk]
      rfl
    · simp [hlookup key]
  rw [hlisted]
  exact hkeys.filterMap _

/-- **The server's sum wraps.**  Enough removals, applied first, bring the balance to zero,
and a placement the client has admitted is refused. -/
theorem not_paid (hid : g.playerId ≠ 0) (hshows : g.worldModel.Shows w.cellAt)
    (hpaired : w.cellAt.Paired) (hprice : 2 ≤ me.balance.toNat) (hfree : g.freeKeys.Nonempty)
    (hwrap : 2 ^ 64 ≤ me.balance.toNat + g.ownKeys.ncard) :
    ¬ EditsTakeEffect w g me.balance := by
  intro h
  have hlt := me.balance.toNat_lt
  obtain ⟨key, hrange, hzero⟩ := hfree
  obtain ⟨keys, hnodup, hlength, hkeys⟩ :=
    exists_keys (S := g.ownKeys) (n := 2 ^ 64 - me.balance.toNat) (by omega)
  have hnot : key ∉ keys := fun hmem => hid ((hkeys key hmem).2.symm.trans hzero)
  obtain ⟨edits, hclicks, hlookup⟩ := clicks_removals_place hknown hempty hid hprice hnodup hkeys hzero
  have hin : ∀ c ∈ clicksOn .Remove keys ++ clicksOn .Place [key], c.key.InRange := by
    intro c hc
    rcases List.mem_append.mp hc with hc | hc
    · obtain ⟨key', hkey', rfl⟩ := List.mem_map.mp hc
      exact (hkeys key' hkey').1
    · rw [List.mem_singleton.mp hc]
      exact hrange
  obtain ⟨-, hsent⟩ := h _ hin
  obtain ⟨-, hcalls, -, heffect⟩ := hsent sortedKeys
  rw [hclicks] at hcalls heffect
  rw [hcalls] at heffect
  have hperm := perm_removals_place (g := g) sortedKeys hnodup hnot hlookup
  rw [← map_command_calls] at hperm
  have halong := heffect ⟨(∅ : Finmap fun _ : PlayerId => UInt64).insert g.playerId me.balance⟩ _
    (Finmap.lookup_insert _) hperm
  have hplayers : ∀ cmd ∈ keys.map (commandOf g .Remove) ++ [commandOf g .Place key],
      cmd.playerId = g.playerId := by
    intro cmd hcmd
    rcases List.mem_append.mp hcmd with hcmd | hcmd
    · obtain ⟨k, -, rfl⟩ := List.mem_map.mp hcmd
      rfl
    · rw [List.mem_singleton.mp hcmd]
      rfl
  rw [along_fullEffect_iff hpaired fun cmd hcmd => by rwa [hplayers cmd hcmd]] at halong
  refine not_along_accepted_of_wrap (p := g.playerId)
    (fun cmd hcmd => hplayers cmd (List.mem_append_left _ hcmd)) ?_ ?_
    (Finmap.lookup_insert _) (by rw [List.length_map, hlength]; omega) rfl rfl halong
  · rw [List.map_map]
    refine hnodup.map_on fun k hk k' hk' heq => CellKey.point_injective ?_
    rw [Function.comp_apply, Function.comp_apply, targetOf_commandOf (hkeys k hk).1,
      targetOf_commandOf (hkeys k' hk').1] at heq
    exact heq
  · intro cmd hcmd
    obtain ⟨k, hk, rfl⟩ := List.mem_map.mp hcmd
    have hmine := (hkeys k hk).2
    rcases edit_effect (a := .Remove) hid hshows hpaired (beq_iff_eq.mpr hmine) (hkeys k hk).1 with
      ⟨hfree, -⟩ | ⟨-, -, -, hclears⟩
    · exact absurd (hmine.symm.trans hfree) hid
    · exact hclears

end Broken

/-- **Queued edits the client admits are edits the server performs**, exactly where neither
sum can wrap.  The client's prices wrap only with a balance of `2 ^ 64 - 2` or more and
`2 ^ 63` free cells to click on.  The server's awards wrap only if the balance and the
player's cells reach `2 ^ 64`, which matters when there is something to place and the
money for it. -/
theorem editsTakeEffect_iff {me : GameNetworkClient.PlayerSnapshot} (hid : g.playerId ≠ 0)
    (hknown : g.me = some me) (hempty : g.pendingEdits = ∅) (hshows : g.worldModel.Shows w.cellAt)
    (hpaired : w.cellAt.Paired) :
    EditsTakeEffect w g me.balance ↔
      (me.balance.toNat + 2 < 2 ^ 64 ∨ g.freeKeys.ncard < 2 ^ 63) ∧
      (me.balance.toNat < 2 ∨ g.freeKeys = ∅ ∨
        me.balance.toNat + g.ownKeys.ncard < 2 ^ 64) := by
  constructor
  · intro h
    constructor
    · by_contra hwrap
      obtain ⟨hbalance, hfree⟩ := not_or.mp hwrap
      exact not_covered hknown hempty (not_lt.mp hbalance) (not_lt.mp hfree) h
    · by_contra hwrap
      obtain ⟨hprice, hrest⟩ := not_or.mp hwrap
      obtain ⟨hfree, hown⟩ := not_or.mp hrest
      exact not_paid hknown hempty hid hshows hpaired (not_lt.mp hprice)
        (Set.nonempty_iff_ne_empty.mpr hfree) (not_lt.mp hown) h
  · rintro ⟨hroom, haward⟩
    exact editsTakeEffect_of_room hid hshows hpaired hknown hempty hroom haward

/-- Player 7 with the starting balance, before an empty world. -/
def freshWindow : GameWindow where
  serverPlayers := (∅ : Finmap fun _ : UInt64 => GameNetworkClient.PlayerSnapshot).insert 7 ⟨7, 10, 0⟩
  playerId := 7

theorem editsTakeEffect_iff_fresh : EditsTakeEffect {} freshWindow 10 := by
  have hknown : freshWindow.me = some ⟨7, 10, 0⟩ := Finmap.lookup_insert _
  have hpaired : ({} : World).cellAt.Paired := fun p => by rw [cellAt_empty]; decide
  have hshows : freshWindow.worldModel.Shows ({} : World).cellAt := fun k => by
    rw [cellAt_empty]
    rfl
  have hown : freshWindow.ownKeys = ∅ := Set.eq_empty_iff_forall_notMem.mpr fun key hkey =>
    absurd (show (0 : UInt64) = 7 from hkey.2) (by decide)
  refine (editsTakeEffect_iff (by decide) hknown rfl hshows hpaired).mpr ⟨Or.inl (by decide), ?_⟩
  rw [hown, Set.ncard_empty]
  exact Or.inr (Or.inr (by decide))

/-- Player 7 has placed the cell at the origin. -/
def ownedOrigin : World :=
  (applyCommand ({}, ({} : ResourceManager).addPlayer 7) ⟨7, .PlaceCell, 0, 0⟩).1

/-- What player 7 sees then, with a full account. -/
def richWindow : GameWindow where
  worldModel := { aliveCells := (∅ : Finmap fun _ : CellKey => UInt64).insert ⟨0, 0⟩ 7 }
  serverPlayers := (∅ : Finmap fun _ : UInt64 => GameNetworkClient.PlayerSnapshot).insert 7
    ⟨7, 18446744073709551615, 1⟩
  playerId := 7

theorem cellAt_ownedOrigin : ownedOrigin.cellAt =
    Function.update (fun _ => {}) (0, 0) { alive := true, owner := 7 } := by
  have htarget : targetOf ⟨7, .PlaceCell, 0, 0⟩ = (0, 0) := by decide
  have hswitch : (switchCommand ⟨7, .PlaceCell, 0, 0⟩ {} (({} : ResourceManager).addPlayer 7)).1 =
      { alive := true, owner := 7 } := by decide
  rw [ownedOrigin, cellAt_applyCommand, htarget]
  dsimp only
  rw [cellAt_empty, hswitch, show ({} : World).cellAt = fun _ => {} from funext cellAt_empty]

/-- Removing the cell at the origin first leaves nothing to pay the cell beside it with. -/
theorem not_editsTakeEffect_rich :
    richWindow.playerId ≠ 0 ∧ richWindow.me = some ⟨7, 18446744073709551615, 1⟩ ∧
      richWindow.pendingEdits = ∅ ∧ richWindow.worldModel.Shows ownedOrigin.cellAt ∧
      ownedOrigin.cellAt.Paired ∧ ¬ EditsTakeEffect ownedOrigin richWindow 18446744073709551615 := by
  have hid : richWindow.playerId ≠ 0 := by decide
  have hknown : richWindow.me = some ⟨7, 18446744073709551615, 1⟩ := Finmap.lookup_insert _
  have hpaired : ownedOrigin.cellAt.Paired := by
    intro p
    rw [cellAt_ownedOrigin]
    by_cases hp : p = (0, 0)
    · rw [hp, Function.update_self]
      decide
    · rw [Function.update_of_ne hp]
      decide
  have hshows : richWindow.worldModel.Shows ownedOrigin.cellAt := by
    intro k
    rw [cellAt_ownedOrigin]
    by_cases hk : k = ⟨0, 0⟩
    · rw [hk]
      exact Finmap.lookup_insert _
    · have hpoint : k.point ≠ (0, 0) := fun h => hk (CellKey.point_injective h)
      rw [Function.update_of_ne hpoint]
      exact Finmap.lookup_insert_of_ne _ hk
  refine ⟨hid, hknown, rfl, hshows, hpaired, ?_⟩
  have hown : (⟨0, 0⟩ : CellKey) ∈ richWindow.ownKeys := by
    refine ⟨by decide, ?_⟩
    have hlookup : richWindow.worldModel.aliveCells.lookup ⟨0, 0⟩ = some 7 := Finmap.lookup_insert _
    rw [ownerOf, WorldModel.ownerAt, hlookup]
    rfl
  have hfree : (⟨1, 0⟩ : CellKey) ∈ richWindow.freeKeys := by
    have hlookup : richWindow.worldModel.aliveCells.lookup ⟨1, 0⟩ = none :=
      (Finmap.lookup_insert_of_ne _ (by decide)).trans (Finmap.lookup_empty _)
    refine ⟨by decide, ?_⟩
    rw [ownerOf, WorldModel.ownerAt, hlookup]
    rfl
  have hone : 0 < richWindow.ownKeys.ncard := (Set.ncard_pos (Set.toFinite _)).mpr ⟨_, hown⟩
  have hfull : (18446744073709551615 : UInt64).toNat = 2 ^ 64 - 1 := by decide
  exact not_paid hknown rfl hid hshows hpaired (by decide) ⟨_, hfree⟩ (by dsimp only; omega)

end Multilife.Client

import Multilife.Refinement.PendingEdits

/-!
# Cancelling a queued edit

A second click with the same action takes a pending edit back.  `onGridCellClicked` comes to
that branch behind the comparison with the balance, and what is compared there has the
pending edit in it already and then its price once more.

* `click_pending`: a click on a pending edit cancels it or changes nothing but the status.
* `click_click_iff`: exactly when two clicks on a cell undo each other.
* `click_click_free`: an edit that costs nothing can always be taken back.
* `lookup_clicks_of_full`: once the rest of the balance is below the price, no clicks change
  an edit that costs something.
-/

namespace Multilife.Client.GameWindow

open FiniteMap Transition

variable {g : GameWindow} {c : Click} {me : GameNetworkClient.PlayerSnapshot}

/-! ## Two clicks on one cell -/

/-- A new edit adds its price to the queue. -/
theorem pendingCost_insert {key : CellKey} (hnone : g.pendingEdits.lookup key = none)
    (a : EditAction) :
    ({ g with pendingEdits := g.pendingEdits.insert key a } : GameWindow).pendingCost =
      g.pendingCost + (willSpend a (g.ownerOf key)).toNat := by
  have hnew : key ∉ g.pendingEdits.keys := by
    rwa [Finmap.mem_keys, ← Finmap.lookup_eq_none]
  have hkeys : (g.pendingEdits.insert key a).keys = insert key g.pendingEdits.keys := by
    ext j
    rw [Finmap.mem_keys, Finmap.mem_insert, Finset.mem_insert, Finmap.mem_keys]
  have hold : ∀ j ∈ g.pendingEdits.keys,
      ({ g with pendingEdits := g.pendingEdits.insert key a } : GameWindow).costAt j =
        g.costAt j := by
    intro j hj
    have hne : j ≠ key := fun h => hnew (h ▸ hj)
    simp only [costAt, ownerOf, Finmap.lookup_insert_of_ne _ hne]
  rw [pendingCost, hkeys, Finset.sum_insert hnew, Nat.add_comm,
    Finset.sum_congr rfl fun j hj => congrArg UInt64.toNat (hold j hj), pendingCost, costAt]
  dsimp only
  rw [Finmap.lookup_insert]
  rfl

/-- Taking back a new edit restores the edits. -/
theorem erase_insert {key : CellKey} (hnone : g.pendingEdits.lookup key = none) (a : EditAction) :
    (g.pendingEdits.insert key a).erase key = g.pendingEdits := by
  refine Finmap.ext_lookup fun j => ?_
  by_cases hj : j = key
  · rw [hj, Finmap.lookup_erase, hnone]
  · rw [Finmap.lookup_erase_ne hj, Finmap.lookup_insert_of_ne _ hj]

/-- A click that leaves its action on a cell without an edit was let through. -/
theorem admits_of_accepted (hnone : g.pendingEdits.lookup c.key = none)
    (haccepted : (g.click c).pendingEdits.lookup c.key = some c.action) :
    g.Admits c ∧
      g.click c = { g with pendingEdits := g.pendingEdits.insert c.key c.action } := by
  rcases click_cases g c with ⟨⟨status, hclick⟩, -⟩ | ⟨hadmits, hclick⟩
  · rw [hclick] at haccepted
    cases hnone.symm.trans haccepted
  · rw [editsAfter, if_neg (by simp [hnone])] at hclick
    exact ⟨hadmits, hclick⟩

/-- **A click on a pending edit** cancels it where it is let through, and leaves the edits
alone where it is not. -/
theorem click_pending (hedit : g.pendingEdits.lookup c.key = some c.action) :
    g.Admits c ∧ (g.click c).pendingEdits = g.pendingEdits.erase c.key ∨
      ¬ g.Admits c ∧ (g.click c).pendingEdits = g.pendingEdits := by
  rcases click_cases g c with ⟨⟨status, hclick⟩, hrefused⟩ | ⟨hadmits, hclick⟩
  · exact Or.inr ⟨hrefused, by rw [hclick]⟩
  · exact Or.inl ⟨hadmits, by rw [hclick, editsAfter, if_pos hedit]⟩

/-- What a click is told that is allowed and that the balance does not cover. -/
theorem click_unaffordable (hallowed : g.isAllowed c.action (g.ownerOf c.key) = true)
    (hknown : g.me = some me)
    (hover : me.balance < UInt64.ofNat g.pendingCost + willSpend c.action (g.ownerOf c.key)) :
    g.click c =
      { g with
        status :=
          [toString (UInt64.ofNat g.pendingCost + willSpend c.action (g.ownerOf c.key)),
            toString me.balance].foldl arg "Not enough balance for queued ops (%1/%2)" } := by
  rw [click, onGridCellClicked, if_neg (by decide), queuedSpend_eq,
    show g.worldModel.ownerAt c.key.x c.key.y = g.ownerOf c.key from rfl, hknown]
  dsimp only
  rw [if_neg (by rw [hallowed]; decide), if_pos ⟨rfl, hover⟩]
  rfl

/-- The click that follows is let through where the balance covers the queue with the price
of the new edit counted twice. -/
theorem admits_again_iff (order : Traversal CellKey)
    (hnone : g.pendingEdits.lookup c.key = none) (hadmits : g.Admits c) :
    ({ g with pendingEdits := g.pendingEdits.insert c.key c.action } : GameWindow).Admits
        { c with order := order } ↔
      ∀ me, g.me = some me →
        (g.pendingCost + 2 * (willSpend c.action (g.ownerOf c.key)).toNat) % 2 ^ 64 ≤
          me.balance.toNat := by
  rw [Admits, and_iff_right (by exact hadmits.1), pendingCost_insert hnone]
  refine forall₂_congr fun me _ => ?_
  rw [UInt64.le_iff_toNat_le, UInt64.toNat_add, UInt64.toNat_ofNat', Nat.mod_add_mod,
    Nat.add_assoc, Nat.two_mul]
  rfl

/-- Two clicks on a cell without an edit, the first accepted: either the second cancels what
the first has queued, or it is refused and changes no edit. -/
theorem click_click (order : Traversal CellKey) (hnone : g.pendingEdits.lookup c.key = none)
    (haccepted : (g.click c).pendingEdits.lookup c.key = some c.action) :
    (g.click c).Admits { c with order := order } ∧
        ((g.click c).click { c with order := order }).pendingEdits = g.pendingEdits ∨
      ¬ (g.click c).Admits { c with order := order } ∧
        ((g.click c).click { c with order := order }).pendingEdits =
          (g.click c).pendingEdits := by
  obtain ⟨-, hclick⟩ := admits_of_accepted hnone haccepted
  refine (click_pending (c := { c with order := order }) haccepted).imp_left fun h => ⟨h.1, ?_⟩
  rw [h.2, hclick]
  exact erase_insert hnone c.action

/-- **Cancelling an edit.**  Of two clicks with one action on a cell without an edit, the
first of them accepted, the second takes the edit back and restores the edits exactly when
the balance is unknown or covers the queue with the price of the new edit counted twice. -/
theorem click_click_iff (g : GameWindow) (c : Click) (order : Traversal CellKey)
    (hnone : g.pendingEdits.lookup c.key = none)
    (haccepted : (g.click c).pendingEdits.lookup c.key = some c.action) :
    (((g.click c).click { c with order := order }).pendingEdits.lookup c.key = none ∧
        ((g.click c).click { c with order := order }).pendingEdits = g.pendingEdits) ↔
      ∀ me, g.me = some me →
        (g.pendingCost + 2 * (willSpend c.action (g.ownerOf c.key)).toNat) % 2 ^ 64 ≤
          me.balance.toNat := by
  obtain ⟨hadmits, hclick⟩ := admits_of_accepted hnone haccepted
  rw [← admits_again_iff order hnone hadmits, ← hclick]
  rcases click_click order hnone haccepted with ⟨hagain, hedits⟩ | ⟨hrefused, hedits⟩
  · rw [hedits]
    exact iff_of_true ⟨hnone, rfl⟩ hagain
  · rw [hedits]
    refine iff_of_false (fun h => ?_) hrefused
    cases haccepted.symm.trans h.1

/-- A window without edits, where the player has this balance. -/
def withBalance (balance : UInt64) : GameWindow where
  serverPlayers := (∅ : Finmap fun _ : UInt64 => GameNetworkClient.PlayerSnapshot).insert 1
    ⟨1, balance, 0⟩

/-- A placement on the cell at the origin. -/
def placeOrigin : Click := ⟨sortedKeys, .Place, ⟨0, 0⟩⟩

theorem pendingCost_withBalance (balance : UInt64) : (withBalance balance).pendingCost = 0 := by
  rw [pendingCost, withBalance, Finmap.keys_empty, Finset.sum_empty]

/-- A balance of two pays for it. -/
theorem click_placeOrigin {balance : UInt64} (h : 2 ≤ balance) :
    (withBalance balance).click placeOrigin =
      { withBalance balance with
        pendingEdits := (withBalance balance).pendingEdits.insert ⟨0, 0⟩ .Place } := by
  refine ((click_cases _ _).resolve_left fun hrefused => hrefused.2 ⟨rfl, fun me hme => ?_⟩).2
  cases hme
  rw [pendingCost_withBalance]
  exact h

/-- With a balance of four the placement can be taken back. -/
theorem click_click_withBalance :
    (((withBalance 4).click placeOrigin).click placeOrigin).pendingEdits.lookup ⟨0, 0⟩ = none ∧
      (((withBalance 4).click placeOrigin).click placeOrigin).pendingEdits =
        (withBalance 4).pendingEdits := by
  refine (click_click_iff (withBalance 4) placeOrigin sortedKeys rfl ?_).mpr fun me hme => ?_
  · rw [click_placeOrigin (by decide)]
    rfl
  · cases hme
    rw [pendingCost_withBalance]
    decide

/-- With a balance of three it is accepted and cannot be taken back: the status speaks of a
price of four. -/
theorem click_click_stays :
    (withBalance 3).pendingEdits.lookup placeOrigin.key = none ∧
      ((withBalance 3).click placeOrigin).pendingEdits.lookup placeOrigin.key = some .Place ∧
      (((withBalance 3).click placeOrigin).click placeOrigin).pendingEdits.lookup placeOrigin.key =
        some .Place ∧
      (((withBalance 3).click placeOrigin).click placeOrigin).status =
        "Not enough balance for queued ops (4/3)" := by
  have hnone : (withBalance 3).pendingEdits.lookup ⟨0, 0⟩ = none := rfl
  have hcost := pendingCost_insert hnone .Place
  rw [pendingCost_withBalance] at hcost
  rw [click_placeOrigin (by decide), click_unaffordable rfl rfl (by rw [hcost]; decide), hcost]
  exact ⟨rfl, rfl, rfl, by decide⟩

/-- **An edit that costs nothing** can always be taken back. -/
theorem click_click_free (order : Traversal CellKey) (hnone : g.pendingEdits.lookup c.key = none)
    (haccepted : (g.click c).pendingEdits.lookup c.key = some c.action)
    (hfree : willSpend c.action (g.ownerOf c.key) = 0) :
    ((g.click c).click { c with order := order }).pendingEdits = g.pendingEdits := by
  obtain ⟨hadmits, hclick⟩ := admits_of_accepted hnone haccepted
  refine ((click_click order hnone haccepted).resolve_right fun h => h.1 ?_).2
  rw [hclick, admits_again_iff order hnone hadmits]
  intro me hme
  have hcovered := UInt64.le_iff_toNat_le.mp (hadmits.2 me hme)
  rw [hfree, UInt64.add_zero, UInt64.toNat_ofNat'] at hcovered
  rw [hfree]
  exact hcovered

/-! ## A full queue -/

/-- The rest of the balance is below the price of an edit. -/
def Full (me : GameNetworkClient.PlayerSnapshot) (g : GameWindow) : Prop :=
  g.pendingCost + kClientPlaceCost.toNat < 2 ^ 64 ∧
    me.balance.toNat < g.pendingCost + kClientPlaceCost.toNat

/-- What clicks make of a full window: all but the status and the edits is as before, and so
are the edits of the cells without an owner. -/
structure Locked (g₀ g : GameWindow) : Prop where
  same : ∃ status edits, g = { g₀ with status := status, pendingEdits := edits }
  paid : ∀ key, g₀.ownerOf key = 0 → g.pendingEdits.lookup key = g₀.pendingEdits.lookup key

variable {g₀ : GameWindow}

namespace Locked

theorem ownerOf_eq (h : Locked g₀ g) (key : CellKey) : g.ownerOf key = g₀.ownerOf key := by
  obtain ⟨status, edits, rfl⟩ := h.same
  rfl

/-- Only cells without an owner cost anything. -/
theorem pendingCost_eq (h : Locked g₀ g) : g.pendingCost = g₀.pendingCost := by
  have hcost : ∀ key, g.costAt key = g₀.costAt key := by
    intro key
    by_cases hfree : g₀.ownerOf key = 0
    · rw [costAt, costAt, h.paid key hfree, h.ownerOf_eq key]
    · rw [(g.costAt_cases key).resolve_right fun hprice => hfree (h.ownerOf_eq key ▸ hprice.2),
        (g₀.costAt_cases key).resolve_right fun hprice => hfree hprice.2]
  have hspending : g.spending = g₀.spending := by
    ext key
    rw [mem_spending, mem_spending, hcost]
  rw [GameWindow.pendingCost_eq, GameWindow.pendingCost_eq, hspending]

end Locked

section Full

variable (hid : g₀.playerId ≠ 0) (hknown : g₀.me = some me) (hfull : Full me g₀)
include hid hknown hfull

/-- A click on a cell without an owner is refused: an edit that is allowed there costs more
than is left. -/
theorem not_admits_of_full (h : Locked g₀ g) (hfree : g₀.ownerOf c.key = 0) : ¬ g.Admits c := by
  rintro ⟨hallowed, hcovered⟩
  have howner : g.ownerOf c.key = 0 := (h.ownerOf_eq c.key).trans hfree
  have hsame : g.playerId = g₀.playerId ∧ g.me = g₀.me := by
    obtain ⟨status, edits, rfl⟩ := h.same
    exact ⟨rfl, rfl⟩
  have hprice : willSpend c.action (g.ownerOf c.key) = kClientPlaceCost := by
    rw [howner] at hallowed ⊢
    cases haction : c.action with
    | Toggle => rfl
    | Place => rfl
    | Remove =>
      rw [haction] at hallowed
      exact absurd (hsame.1 ▸ (beq_iff_eq.mp hallowed).symm) hid
  have hle := UInt64.le_iff_toNat_le.mp (hcovered me (hsame.2.trans hknown))
  rw [hprice, UInt64.toNat_add, UInt64.toNat_ofNat', Nat.mod_add_mod, h.pendingCost_eq,
    Nat.mod_eq_of_lt hfull.1] at hle
  exact absurd hle (not_le.mpr hfull.2)

theorem locked_click (h : Locked g₀ g) (c : Click) : Locked g₀ (g.click c) := by
  rcases click_cases g c with ⟨⟨status, hclick⟩, -⟩ | ⟨hadmits, hclick⟩
  · obtain ⟨⟨status', edits, rfl⟩, hpaid⟩ := h
    rw [hclick]
    exact ⟨⟨status, edits, rfl⟩, hpaid⟩
  · have howned : g₀.ownerOf c.key ≠ 0 := fun hfree =>
      not_admits_of_full hid hknown hfull h hfree hadmits
    rw [hclick]
    refine ⟨?_, fun key hfree => ?_⟩
    · obtain ⟨status, edits, rfl⟩ := h.same
      exact ⟨status, _, rfl⟩
    · have hkey : key ≠ c.key := fun heq => howned (heq ▸ hfree)
      exact ((lookup_editsAfter g c key).trans (if_neg hkey)).trans (h.paid key hfree)

/-- **A full queue stays.**  Whatever is clicked, the edits that cost something are neither
cancelled nor replaced. -/
theorem lookup_clicks_of_full (clicks : List Click) {key : CellKey} (hfree : g₀.ownerOf key = 0) :
    (clicks.foldl click g₀).pendingEdits.lookup key = g₀.pendingEdits.lookup key := by
  have hlocked : Locked g₀ (clicks.foldl click g₀) :=
    foldl_invariant' (I := Locked g₀) (fun g c h => locked_click hid hknown hfull h c)
      ⟨⟨_, _, rfl⟩, fun _ _ => rfl⟩
  exact hlocked.paid key hfree

end Full

/-- Neither a second click nor another action takes back a placement that leaves one of three. -/
theorem lookup_clicks_of_full_placeOrigin :
    ([placeOrigin, ⟨sortedKeys, .Toggle, ⟨0, 0⟩⟩, ⟨sortedKeys, .Remove, ⟨5, 5⟩⟩].foldl click
      ((withBalance 3).click placeOrigin)).pendingEdits.lookup ⟨0, 0⟩ = some .Place := by
  have hcost := pendingCost_insert (show (withBalance 3).pendingEdits.lookup ⟨0, 0⟩ = none from rfl) .Place
  rw [pendingCost_withBalance] at hcost
  rw [click_placeOrigin (by decide)]
  have hfull : Full ⟨1, 3, 0⟩ { withBalance 3 with
      pendingEdits := (withBalance 3).pendingEdits.insert ⟨0, 0⟩ .Place } :=
    ⟨by rw [hcost]; decide, by rw [hcost]; decide⟩
  exact (lookup_clicks_of_full (by decide) rfl hfull _ rfl).trans rfl

end Multilife.Client.GameWindow

import Multilife.Foundations.FiniteMap
import Multilife.Server.Types

/-!
# The ledger

`ResourceManager.hpp` and `ResourceManager.cpp`, with the prices of `World.hpp`.
Balances are `std::uint64_t` and wrap.  `trySpend` and `award` return whether
they took effect together with the ledger they leave; neither opens an account.
-/

namespace Multilife

open FiniteMap

def kPlaceCost : UInt64 := 2
def kRemoveAward : UInt64 := 1
def kAliveCellAward : UInt64 := 1
def kStartBalance : UInt64 := 10

/-- `ResourceManager`: `m_balances`. -/
structure ResourceManager where
  balances : Finmap fun _ : PlayerId => UInt64 := ∅

namespace ResourceManager

def addPlayer (r : ResourceManager) (playerId : PlayerId) : ResourceManager where
  balances := r.balances.insert playerId kStartBalance

def getBalance (r : ResourceManager) (playerId : PlayerId) : UInt64 :=
  (r.balances.lookup playerId).getD 0

def trySpend (r : ResourceManager) (playerId : PlayerId) (amount : UInt64) :
    Bool × ResourceManager :=
  match r.balances.lookup playerId with
  | none => (false, r)
  | some balance =>
    if balance < amount then (false, r)
    else (true, { balances := r.balances.insert playerId (balance - amount) })

def award (r : ResourceManager) (playerId : PlayerId) (amount : UInt64) :
    Bool × ResourceManager :=
  match r.balances.lookup playerId with
  | none => (false, r)
  | some balance => (true, { balances := r.balances.insert playerId (balance + amount) })

/-- `m_balances[playerId] += live * kAliveCellAward` for every entry, which opens
an account where there is none. -/
def awardFromLiveCounts (order : Traversal PlayerId) (r : ResourceManager)
    (liveCounts : Finmap fun _ : PlayerId => UInt64) : ResourceManager :=
  (order.order liveCounts.keys).foldl
    (fun r playerId =>
      let live := (liveCounts.lookup playerId).getD 0
      { balances := r.balances.insert playerId
          ((r.balances.lookup playerId).getD 0 + live * kAliveCellAward) })
    r

def getPlayerIds (order : Traversal PlayerId) (r : ResourceManager) : List PlayerId :=
  order.order r.balances.keys

/-! ## Balances -/

variable {r : ResourceManager} {id : PlayerId} {b : UInt64}

theorem getBalance_of_lookup (h : r.balances.lookup id = some b) : r.getBalance id = b := by
  rw [getBalance, h, Option.getD_some]

theorem getBalance_insert (r : ResourceManager) (id other : PlayerId) (b : UInt64) :
    getBalance { balances := r.balances.insert id b } other =
      if other = id then b else r.getBalance other := by
  unfold getBalance
  split_ifs with h
  · rw [h, Finmap.lookup_insert, Option.getD_some]
  · rw [Finmap.lookup_insert_of_ne _ h]

theorem getBalance_addPlayer (r : ResourceManager) (id other : PlayerId) :
    (r.addPlayer id).getBalance other = if other = id then kStartBalance else r.getBalance other :=
  getBalance_insert r id other kStartBalance

/-- What is spent is missing from the account, and from no other. -/
theorem toNat_getBalance_spent (hb : r.balances.lookup id = some b) {amount : UInt64}
    (hcost : amount ≤ b) (other : PlayerId) :
    (getBalance { balances := r.balances.insert id (b - amount) } other).toNat +
        amount.toNat * (if id = other then 1 else 0) = (r.getBalance other).toNat := by
  have hle := UInt64.le_iff_toNat_le.mp hcost
  rw [getBalance_insert]
  by_cases h : id = other
  · subst h
    rw [if_pos rfl, if_pos rfl, getBalance_of_lookup hb, UInt64.toNat_sub_of_le _ _ hcost]
    omega
  · simp [h, Ne.symm h]

/-- An award that does not wrap is added to the account, and to no other. -/
theorem toNat_getBalance_awarded (hb : r.balances.lookup id = some b) {amount : UInt64}
    (hfit : (r.getBalance id).toNat + amount.toNat < 2 ^ 64) (other : PlayerId) :
    (getBalance { balances := r.balances.insert id (b + amount) } other).toNat =
      (r.getBalance other).toNat + amount.toNat * if id = other then 1 else 0 := by
  rw [getBalance_of_lookup hb] at hfit
  rw [getBalance_insert]
  by_cases h : id = other
  · subst h
    rw [if_pos rfl, if_pos rfl, getBalance_of_lookup hb, UInt64.toNat_add, Nat.mod_eq_of_lt hfit,
      Nat.mul_one]
  · simp [h, Ne.symm h]

/-! ## What the two guarded operations do -/

/-- `trySpend` refuses and changes nothing, or takes the amount from an account
that covers it. -/
theorem trySpend_cases (r : ResourceManager) (playerId : PlayerId) (amount : UInt64) :
    (r.trySpend playerId amount = (false, r) ∧
      ∀ b, r.balances.lookup playerId = some b → b < amount) ∨
    ∃ b, r.balances.lookup playerId = some b ∧ amount ≤ b ∧
      r.trySpend playerId amount =
        (true, { balances := r.balances.insert playerId (b - amount) }) := by
  unfold trySpend
  cases hb : r.balances.lookup playerId with
  | none => exact Or.inl ⟨rfl, by simp⟩
  | some b =>
    by_cases hlt : b < amount
    · refine Or.inl ⟨by simp only [hlt, if_true], fun b' hb' => ?_⟩
      cases hb'
      exact hlt
    · exact Or.inr ⟨b, rfl, not_lt.mp hlt, by simp only [hlt, if_false]⟩

/-- `award` fails on a missing account and changes nothing, or adds the amount. -/
theorem award_cases (r : ResourceManager) (playerId : PlayerId) (amount : UInt64) :
    (r.award playerId amount = (false, r) ∧ r.balances.lookup playerId = none) ∨
    ∃ b, r.balances.lookup playerId = some b ∧
      r.award playerId amount =
        (true, { balances := r.balances.insert playerId (b + amount) }) := by
  unfold award
  cases hb : r.balances.lookup playerId with
  | none => exact Or.inl ⟨rfl, rfl⟩
  | some b => exact Or.inr ⟨b, rfl, rfl⟩

/-- An account that covers the amount is charged. -/
theorem trySpend_fst (hb : r.balances.lookup id = some b) (amount : UInt64) :
    (r.trySpend id amount).1 = decide (amount ≤ b) := by
  rw [trySpend, hb]
  dsimp only
  split_ifs with hlt
  · rw [decide_eq_false (not_le.mpr hlt)]
  · rw [decide_eq_true (not_lt.mp hlt)]

theorem award_fst (hb : r.balances.lookup id = some b) (amount : UInt64) :
    (r.award id amount).1 = true := by
  rw [award, hb]

/-- A refused purchase leaves the ledger as it was. -/
theorem trySpend_snd {r : ResourceManager} {playerId : PlayerId} {amount : UInt64}
    (h : (r.trySpend playerId amount).1 = false) : (r.trySpend playerId amount).2 = r := by
  rcases r.trySpend_cases playerId amount with ⟨heq, -⟩ | ⟨b, -, -, heq⟩
  · rw [heq]
  · rw [heq] at h
    cases h

/-- A refused award leaves the ledger as it was. -/
theorem award_snd {r : ResourceManager} {playerId : PlayerId} {amount : UInt64}
    (h : (r.award playerId amount).1 = false) : (r.award playerId amount).2 = r := by
  rcases r.award_cases playerId amount with ⟨heq, -⟩ | ⟨b, -, heq⟩
  · rw [heq]
  · rw [heq] at h
    cases h

end ResourceManager
end Multilife

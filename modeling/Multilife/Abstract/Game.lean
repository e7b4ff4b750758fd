import Mathlib.Data.Set.Card
import Multilife.Abstract.Plane
import Multilife.Foundations.CellularAutomaton

/-!
# The game

What the server is for, with nothing of how it works: no chunks, no buffers, no queues of
messages, no fixed-width numbers.  On a `Board` every point is empty or holds the cell of
a player.  A `Game` adds the purses of the players who have joined and the orders that wait
for the next tick.  There are three moves: a player joins, a player gives an order, and
the tick, which lets the cells live one generation, obeys the orders in turn, and pays
every player for the cells that are left.

Only the order of the players matters, for ties among the parents of a cell.  The board
itself has no distinguished point or direction: `play_onPoint` says that a game played on
a moved, turned or mirrored board is the same game.
-/

namespace Multilife

open Chunk CellularAutomaton

/-! ## The shape of the plane -/

namespace Plane

theorem mem_neighbors {p q : ℤ × ℤ} :
    q ∈ neighbors p ↔ UnitStep (q.1 - p.1, q.2 - p.2) ∧ q ≠ p := by
  rw [neighbors, List.mem_map]
  constructor
  · rintro ⟨d, hd, rfl⟩
    have hstep := unitStep_of_mem_neighborOffsets hd
    have hne : d ≠ (0, 0) := fun h => absurd (h ▸ hd) (by decide)
    refine ⟨by simpa using hstep, fun h => hne ?_⟩
    ext
    · have hx := congrArg Prod.fst h
      dsimp only at hx
      omega
    · have hy := congrArg Prod.snd h
      dsimp only at hy
      omega
  · rintro ⟨hstep, hne⟩
    refine ⟨_, mem_neighborOffsets_of_unitStep hstep fun h => hne ?_, ?_⟩
    · obtain ⟨hx, hy⟩ := Prod.mk.inj h
      exact Prod.ext (sub_eq_zero.mp hx) (sub_eq_zero.mp hy)
    · exact Prod.ext (add_sub_cancel p.1 q.1) (add_sub_cancel p.2 q.2)

theorem nodup_neighbors (p : ℤ × ℤ) : (neighbors p).Nodup := by
  have hoffsets : neighborOffsets.Nodup := by decide
  refine hoffsets.map fun d e h => ?_
  obtain ⟨hx, hy⟩ := Prod.mk.inj h
  exact Prod.ext (add_left_cancel hx) (add_left_cancel hy)

/-- The permutation keeps points next to each other next to each other: the
translations, quarter turns and reflections of the grid do. -/
def Isometry (σ : Equiv.Perm (ℤ × ℤ)) : Prop :=
  ∀ p q, UnitStep (q.1 - p.1, q.2 - p.2) ↔
    UnitStep ((σ q).1 - (σ p).1, (σ q).2 - (σ p).2)

theorem Isometry.carries {σ : Equiv.Perm (ℤ × ℤ)} (hσ : Isometry σ) :
    Carries neighbors neighbors σ := by
  intro p
  rw [List.perm_ext_iff_of_nodup ((nodup_neighbors p).map σ.injective) (nodup_neighbors (σ p))]
  intro q
  rw [mem_neighbors, List.mem_map]
  constructor
  · rintro ⟨r, hr, rfl⟩
    obtain ⟨hstep, hne⟩ := mem_neighbors.mp hr
    exact ⟨(hσ p r).mp hstep, σ.injective.ne hne⟩
  · rintro ⟨hstep, hne⟩
    refine ⟨σ.symm q, mem_neighbors.mpr ⟨(hσ p _).mpr ?_, fun h => hne ?_⟩, σ.apply_symm_apply q⟩
    · rwa [σ.apply_symm_apply]
    · rw [← h, σ.apply_symm_apply]

end Plane

/-! ## The board -/

variable {P : Type*}

/-- Whose live cell is at each point, if there is one. -/
abbrev Board (P : Type*) := ℤ × ℤ → Option P

namespace Board

/-- A cell with two or three neighbours lives on.  At an empty point with three
neighbours a cell is born for the one who owns most of them, the greatest on ties. -/
def rule [LinearOrder P] (cell : Option P) (around : List (Option P)) : Option P :=
  match cell with
  | some owner =>
    if around.reduceOption.length = 2 ∨ around.reduceOption.length = 3 then some owner else none
  | none =>
    if around.reduceOption.length = 3 then Plurality.plurality around.reduceOption else none

/-- One generation. -/
def step [LinearOrder P] : Board P → Board P := CellularAutomaton.step Plane.neighbors rule

/-- How many cells a player has. -/
noncomputable def count (b : Board P) (player : P) : ℕ := {p | b p = some player}.ncard

theorem orderFree_rule [LinearOrder P] : OrderFree (rule (P := P)) := by
  intro cell around around' h
  have howners : around.reduceOption.Perm around'.reduceOption := h.filterMap id
  unfold rule
  rw [howners.length_eq, Plurality.plurality_perm howners]

end Board

/-! ## The game -/

/-- What things cost and pay. -/
structure Prices where
  place : ℕ
  remove : ℕ
  cell : ℕ
  start : ℕ

/-- What a player wants done at a point. -/
structure Order (P : Type*) where
  player : P
  type : CommandType
  point : ℤ × ℤ

/-- The cells, the purses of those who have joined, and the orders to come. -/
structure Game (P : Type*) where
  board : Board P := fun _ => none
  purse : P → Option ℕ := fun _ => none
  orders : List (Order P) := []

/-- What can happen. -/
inductive Move (P : Type*) where
  | join (player : P)
  | order (o : Order P)
  | tick

namespace Game

variable [DecidableEq P] (prices : Prices)

/-- Obey one order: a player who can pay gets a cell at an empty point, a player who has
a cell there is paid for giving it up, and any other order does nothing. -/
def obey (g : Game P) (o : Order P) : Game P :=
  match g.purse o.player, g.board o.point with
  | none, _ => g
  | some money, none =>
    if o.type ≠ .RemoveCell ∧ prices.place ≤ money then
      { g with
        board := Function.update g.board o.point (some o.player)
        purse := Function.update g.purse o.player (some (money - prices.place)) }
    else g
  | some money, some owner =>
    if o.type ≠ .PlaceCell ∧ owner = o.player then
      { g with
        board := Function.update g.board o.point none
        purse := Function.update g.purse o.player (some (money + prices.remove)) }
    else g

/-- Everyone who has joined is paid for the cells on the board. -/
noncomputable def pay (g : Game P) : Game P :=
  { g with purse := fun player => (g.purse player).map (· + g.board.count player * prices.cell) }

end Game

namespace Game

variable [LinearOrder P] (prices : Prices)

/-- A generation, the orders, the pay. -/
noncomputable def tick (g : Game P) : Game P :=
  (g.orders.foldl (obey prices) { g with board := g.board.step, orders := [] }).pay prices

/-- One move. -/
noncomputable def play (g : Game P) : Move P → Game P
  | .join player => { g with purse := Function.update g.purse player (some prices.start) }
  | .order o => { g with orders := g.orders ++ [o] }
  | .tick => g.tick prices

end Game

/-! ## Other boards -/

/-- The order at the image of its point. -/
def Order.onPoint (σ : Equiv.Perm (ℤ × ℤ)) (o : Order P) : Order P := { o with point := σ o.point }

/-- The move at the image of its point. -/
def Move.onPoint (σ : Equiv.Perm (ℤ × ℤ)) : Move P → Move P
  | .order o => .order (o.onPoint σ)
  | m => m

/-- The game on the image of its board. -/
def Game.onPoint (σ : Equiv.Perm (ℤ × ℤ)) (g : Game P) : Game P where
  board := g.board ∘ σ.symm
  purse := g.purse
  orders := g.orders.map (Order.onPoint σ)

namespace Game

variable {σ : Equiv.Perm (ℤ × ℤ)}

theorem update_comp_symm (b : Board P) (p : ℤ × ℤ) (cell : Option P) :
    Function.update b p cell ∘ σ.symm = Function.update (b ∘ σ.symm) (σ p) cell := by
  rw [Function.update_comp_equiv, Equiv.symm_symm]

theorem count_comp_symm (b : Board P) (player : P) :
    Board.count (b ∘ σ.symm) player = b.count player :=
  Set.ncard_preimage_of_injective_subset_range (f := σ.symm) (s := {p | b p = some player})
    σ.symm.injective fun _ _ => σ.symm.surjective _

theorem obey_onPoint [DecidableEq P] (prices : Prices) (g : Game P) (o : Order P) :
    (g.onPoint σ).obey prices (o.onPoint σ) = (g.obey prices o).onPoint σ := by
  have hcell : (g.onPoint σ).board (o.onPoint σ).point = g.board o.point :=
    congrArg g.board (σ.symm_apply_apply o.point)
  unfold obey
  rw [hcell, show (g.onPoint σ).purse = g.purse from rfl,
    show (o.onPoint σ).player = o.player from rfl, show (o.onPoint σ).type = o.type from rfl]
  cases g.purse o.player with
  | none => rfl
  | some money =>
    cases g.board o.point with
    | none =>
      dsimp only
      split_ifs
      · simp only [onPoint, Order.onPoint, update_comp_symm]
      · rfl
    | some owner =>
      dsimp only
      split_ifs
      · simp only [onPoint, Order.onPoint, update_comp_symm]
      · rfl

theorem foldl_obey_onPoint [DecidableEq P] (prices : Prices) (g : Game P) (l : List (Order P)) :
    (l.map (Order.onPoint σ)).foldl (obey prices) (g.onPoint σ) =
      (l.foldl (obey prices) g).onPoint σ := by
  induction l generalizing g with
  | nil => rfl
  | cons o l ih => rw [List.map_cons, List.foldl_cons, List.foldl_cons, obey_onPoint, ih]

variable [LinearOrder P] (prices : Prices)

theorem step_onPoint (hσ : Plane.Isometry σ) (b : Board P) :
    Board.step (b ∘ σ.symm) = b.step ∘ σ.symm := by
  have h := step_comp Board.orderFree_rule hσ.carries (b ∘ σ.symm)
  rw [Function.comp_assoc, Equiv.symm_comp_self, Function.comp_id] at h
  rw [Board.step, h, Function.comp_assoc, Equiv.self_comp_symm, Function.comp_id]

/-- **One move**, on another board. -/
theorem play_onPoint (hσ : Plane.Isometry σ) (g : Game P) (m : Move P) :
    (g.onPoint σ).play prices (m.onPoint σ) = (g.play prices m).onPoint σ := by
  cases m with
  | join player => rfl
  | order o => simp [play, onPoint, Move.onPoint]
  | tick =>
    have hlive : ({ g.onPoint σ with board := (g.onPoint σ).board.step, orders := [] } : Game P) =
        Game.onPoint σ { g with board := g.board.step, orders := [] } := by
      simp only [onPoint, step_onPoint hσ, List.map_nil]
    have hpay : ∀ g : Game P, (g.onPoint σ).pay prices = (g.pay prices).onPoint σ := by
      intro g
      simp only [pay, onPoint, count_comp_symm]
    show pay prices ((g.orders.map (Order.onPoint σ)).foldl _ _) = _
    rw [hlive, foldl_obey_onPoint, hpay]
    rfl

/-- **A whole game**, on another board. -/
theorem foldl_play_onPoint (hσ : Plane.Isometry σ) (g : Game P) (ms : List (Move P)) :
    (ms.map (Move.onPoint σ)).foldl (play prices) (g.onPoint σ) =
      (ms.foldl (play prices) g).onPoint σ := by
  induction ms generalizing g with
  | nil => rfl
  | cons m ms ih => rw [List.map_cons, List.foldl_cons, List.foldl_cons, play_onPoint _ hσ, ih]

end Game
end Multilife

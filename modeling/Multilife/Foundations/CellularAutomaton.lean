import Mathlib.Data.List.Perm.Basic
import Mathlib.Data.Set.Basic
import Mathlib.Logic.Function.Iterate

/-!
# Cellular automata

A configuration gives every place its cell.  Every place has a list of neighbours, and a
step applies one rule everywhere: it sees the cell of the place and the cells of its
neighbours, and it must not depend on the order they are listed in (`OrderFree`).

A map of places *carries* one neighbourhood to another when it maps the neighbours of a
place to the neighbours of its image.  Along such a map steps correspond, place by place,
and what `n` steps do at a place depends on the places in `reach n` of it alone:
`iterate_step_congr` says both at once.
-/

namespace CellularAutomaton

variable {X Y A : Type*}

/-- One step of the automaton. -/
def step (neighbors : X → List X) (rule : A → List A → A) (g : X → A) : X → A :=
  fun p => rule (g p) ((neighbors p).map g)

/-- The rule does not look at the order of the neighbours. -/
def OrderFree (rule : A → List A → A) : Prop :=
  ∀ a {l l' : List A}, l.Perm l' → rule a l = rule a l'

/-- The map takes the neighbours of a place to the neighbours of its image. -/
def Carries (neighbors : X → List X) (neighbors' : Y → List Y) (σ : X → Y) : Prop :=
  ∀ p, ((neighbors p).map σ).Perm (neighbors' (σ p))

/-- The places that the neighbour lists lead to in at most `n` steps. -/
def reach (neighbors : X → List X) : ℕ → X → Set X
  | 0, p => {p}
  | n + 1, p => {q | q ∈ reach neighbors n p ∨ ∃ r ∈ neighbors p, q ∈ reach neighbors n r}

variable {neighbors : X → List X} {neighbors' : Y → List Y} {σ : X → Y} {rule : A → List A → A}

/-- **One step**, along a map that carries neighbours to neighbours. -/
theorem step_congr (hrule : OrderFree rule) (hσ : Carries neighbors neighbors' σ) {g : X → A}
    {g' : Y → A} {p : X} (hp : g' (σ p) = g p) (hn : ∀ r ∈ neighbors p, g' (σ r) = g r) :
    step neighbors' rule g' (σ p) = step neighbors rule g p := by
  have hcells : (neighbors p).map g = ((neighbors p).map σ).map g' := by
    rw [List.map_map]
    exact List.map_congr_left fun r hr => (hn r hr).symm
  rw [step, step, hp, hcells]
  exact hrule _ ((hσ p).symm.map g')

/-- **The light cone.**  Configurations that correspond on the places in reach of `p`
correspond at `p` after `n` steps. -/
theorem iterate_step_congr (hrule : OrderFree rule) (hσ : Carries neighbors neighbors' σ)
    {g : X → A} {g' : Y → A} {n : ℕ} {p : X} (h : ∀ q ∈ reach neighbors n p, g' (σ q) = g q) :
    (step neighbors' rule)^[n] g' (σ p) = (step neighbors rule)^[n] g p := by
  induction n generalizing p with
  | zero => exact h p rfl
  | succ n ih =>
    rw [Function.iterate_succ_apply', Function.iterate_succ_apply']
    exact step_congr hrule hσ (ih fun q hq => h q (Or.inl hq))
      fun r hr => ih fun q hq => h q (Or.inr ⟨r, hr, hq⟩)

/-- A step commutes with a map that carries neighbours to neighbours. -/
theorem step_comp (hrule : OrderFree rule) (hσ : Carries neighbors neighbors' σ) (g : Y → A) :
    step neighbors rule (g ∘ σ) = step neighbors' rule g ∘ σ :=
  funext fun _ => (step_congr hrule hσ rfl fun _ _ => rfl).symm

end CellularAutomaton

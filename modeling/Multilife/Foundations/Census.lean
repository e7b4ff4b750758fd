import Mathlib.Algebra.BigOperators.Group.Finset.Basic
import Mathlib.Data.Fintype.Basic
import Mathlib.Data.Set.Card

/-!
# Counting the points of a map

`census P g` is the number of points whose value satisfies `P`.  Overwriting one
point changes it by what that point counted before and counts afterwards
(`census_update`), so the effect of a sequence of overwrites is the sum of local
effects, and no enumeration of the points is needed.  Where there is one, the census
is a count along it (`census_eq_countP`).  `sum_update` is the same for a sum of what
the values weigh, over finitely many points.
-/

namespace Census

variable {α β : Type*} (P : β → Prop)

/-- The number of points whose value satisfies `P`. -/
noncomputable def census (g : α → β) : ℕ := {a | P (g a)}.ncard

variable [DecidablePred P]

/-- One point is counted by its value, the others do not depend on it. -/
theorem census_eq_add {g : α → β} (hfin : {a | P (g a)}.Finite) (a : α) :
    census P g = {b | b ≠ a ∧ P (g b)}.ncard + if P (g a) then 1 else 0 := by
  have hrest : {b | b ≠ a ∧ P (g b)}.Finite := hfin.subset fun b hb => hb.2
  by_cases h : P (g a)
  · have hinsert : {b | P (g b)} = insert a {b | b ≠ a ∧ P (g b)} := by
      ext b
      by_cases hb : b = a
      · simp [hb, h]
      · simp [hb]
    have hnot : a ∉ {b | b ≠ a ∧ P (g b)} := fun ha => ha.1 rfl
    rw [if_pos h, census, hinsert, Set.ncard_insert_of_notMem hnot hrest]
  · have hsame : {b | P (g b)} = {b | b ≠ a ∧ P (g b)} := by
      ext b
      by_cases hb : b = a
      · simp [hb, h]
      · simp [hb]
    rw [if_neg h, Nat.add_zero, census, hsame]

omit [DecidablePred P] in
/-- An overwrite keeps the counted set finite. -/
theorem finite_update [DecidableEq α] {g : α → β} (hfin : {a | P (g a)}.Finite) (a : α) (b : β) :
    {x | P (Function.update g a b x)}.Finite := by
  refine (hfin.insert a).subset fun x hx => ?_
  by_cases h : x = a
  · exact Or.inl h
  · refine Or.inr ?_
    rwa [Set.mem_ofPred_eq, Function.update_of_ne h] at hx

/-- **One overwrite.** -/
theorem census_update [DecidableEq α] {g : α → β} (hfin : {a | P (g a)}.Finite) (a : α) (b : β) :
    census P (Function.update g a b) + (if P (g a) then 1 else 0) =
      census P g + if P b then 1 else 0 := by
  have hrest : {x | x ≠ a ∧ P (Function.update g a b x)} = {x | x ≠ a ∧ P (g x)} := by
    ext x
    by_cases h : x = a
    · simp [h]
    · simp [h]
  rw [census_eq_add P hfin a, census_eq_add P (finite_update P hfin a b) a, hrest,
    Function.update_self]
  omega

/-- **Counting along a list** that lists every counted point, and none twice. -/
theorem census_eq_countP {g : α → β} {l : List α} (hl : l.Nodup)
    (hmem : ∀ a, P (g a) → a ∈ l) : census P g = l.countP fun a => decide (P (g a)) := by
  classical
  have hset : {a | P (g a)} = ((l.filter fun a => decide (P (g a))).toFinset : Set α) := by
    ext a
    rw [List.coe_toFinset, Set.mem_ofPred_eq, Set.mem_ofPred_eq, List.mem_filter,
      decide_eq_true_eq]
    exact ⟨fun h => ⟨hmem a h, h⟩, And.right⟩
  rw [census, hset, Set.ncard_coe_finset, List.toFinset_card_of_nodup (hl.filter _),
    List.countP_eq_length_filter]

/-- **One overwrite in a sum.** -/
theorem sum_update [Fintype α] [DecidableEq α] {M : Type*} [AddCommMonoid M] (weight : β → M)
    (g : α → β) (a : α) (b : β) :
    (∑ x, weight (Function.update g a b x)) + weight (g a) = (∑ x, weight (g x)) + weight b := by
  have hothers : ∑ x ∈ Finset.univ.erase a, weight (Function.update g a b x) =
      ∑ x ∈ Finset.univ.erase a, weight (g x) := by
    refine Finset.sum_congr rfl fun x hx => ?_
    rw [Function.update_of_ne (Finset.ne_of_mem_erase hx)]
  rw [← Finset.add_sum_erase _ _ (Finset.mem_univ a),
    ← Finset.add_sum_erase _ (fun x => weight (g x)) (Finset.mem_univ a), hothers,
    Function.update_self, add_right_comm, add_comm (weight b), add_assoc, add_comm (weight b),
    ← add_assoc]

end Census

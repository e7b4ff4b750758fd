import Mathlib.Data.List.Sort
import Mathlib.Logic.Equiv.Defs

/-!
# Rearranging independent actions

A list of actions is applied in turn to a state.  Some actions depend on one another, and
`Reordering dep l l'` says that `l'` is `l` rearranged without changing the order of any
two that do.  Independent actions only have to commute up to a relation `R` on the states,
so the state may keep a record of the order in which it was built, as long as `R` does
not look at it.

* `Reordering.sameOrder`: every set of actions that all depend on one another stands in
  the same order in both lists.
* `foldl_of_reordering`: both lists lead to the same state, up to `R`.
-/

namespace Commutation

variable {A S : Type*}

/-- The second list is the first one rearranged, and any two elements that depend on one
another keep their relative order. -/
def Reordering (dep : A → A → Prop) (l l' : List A) : Prop :=
  ∃ position : Fin l.length ≃ Fin l'.length,
    (∀ i, l'.get (position i) = l.get i) ∧
    ∀ i j, i < j → dep (l.get i) (l.get j) → position i < position j

/-- Every set of elements that all depend on one another stands in the same order in both
lists. -/
def SameOrder (dep : A → A → Prop) (l l' : List A) : Prop :=
  ∀ p : A → Bool, (∀ a b, p a = true → p b = true → dep a b) → l.filter p = l'.filter p

variable {dep : A → A → Prop} {l l' : List A}

/-- A filter, by the positions it keeps. -/
theorem filter_eq_map_get (p : A → Bool) (l : List A) :
    l.filter p = ((List.finRange l.length).filter fun i => p (l.get i)).map l.get := by
  conv_lhs => rw [← List.map_get_finRange l]
  rw [List.filter_map]
  rfl

/-- **Elements that depend on one another keep their order.** -/
theorem Reordering.sameOrder (h : Reordering dep l l') : SameOrder dep l l' := by
  intro p hp
  obtain ⟨position, hget, hkeeps⟩ := h
  -- the kept positions of `l'` are those of `l`, in increasing order
  have hpositions : ((List.finRange l.length).filter fun i => p (l.get i)).map position =
      (List.finRange l'.length).filter fun j => p (l'.get j) := by
    refine List.Pairwise.eq_of_mem_iff (r := (· < ·)) (List.pairwise_map.mpr ?_)
      ((List.pairwise_lt_finRange _).filter _) fun j => ?_
    · refine ((List.pairwise_lt_finRange _).filter _).imp_of_mem fun {i j} hi hj hlt => ?_
      exact hkeeps i j hlt (hp _ _ (List.mem_filter.mp hi).2 (List.mem_filter.mp hj).2)
    · rw [List.mem_map, List.mem_filter]
      constructor
      · rintro ⟨i, hi, rfl⟩
        refine ⟨List.mem_finRange _, ?_⟩
        rw [hget]
        exact (List.mem_filter.mp hi).2
      · rintro ⟨-, hj⟩
        refine ⟨position.symm j, List.mem_filter.mpr ⟨List.mem_finRange _, ?_⟩,
          position.apply_symm_apply j⟩
        rw [← hget, position.apply_symm_apply]
        exact hj
  rw [filter_eq_map_get p l, filter_eq_map_get p l', ← hpositions, List.map_map]
  exact List.map_congr_left fun i _ => (hget i).symm

/-! ## The first element of one list in the other -/

section Erase

variable (hrefl : ∀ a, dep a a)
include hrefl

/-- Both lists have the same elements. -/
theorem SameOrder.mem (h : SameOrder dep l l') {a : A} (ha : a ∈ l) : a ∈ l' := by
  classical
  have hsame := h (fun b => b = a) fun b c hb hc => by
    rw [of_decide_eq_true hb, of_decide_eq_true hc]
    exact hrefl a
  have hmem : a ∈ l.filter fun b => b = a := List.mem_filter.mpr ⟨ha, decide_eq_true rfl⟩
  rw [hsame] at hmem
  exact List.mem_of_mem_filter hmem

variable {a : A} {before after : List A}
  (h : SameOrder dep (a :: l) (before ++ a :: after)) (hbefore : a ∉ before)
include h hbefore

/-- **What stands before the first element does not depend on it.** -/
theorem SameOrder.independent (hsymm : ∀ a b, dep a b → dep b a) :
    ∀ b ∈ before, ¬ dep b a := by
  classical
  intro b hb hdep
  -- the order of `a` and `b` alone
  have hsame := h (fun c => decide (c = a) || decide (c = b)) fun c d hc hd => by
    rw [Bool.or_eq_true, decide_eq_true_eq, decide_eq_true_eq] at hc hd
    rcases hc with rfl | rfl <;> rcases hd with rfl | rfl
    · exact hrefl _
    · exact hsymm _ _ hdep
    · exact hdep
    · exact hrefl _
  have hmem : b ∈ before.filter fun c => decide (c = a) || decide (c = b) :=
    List.mem_filter.mpr ⟨hb, by simp⟩
  rw [List.filter_cons_of_pos (by simp), List.filter_append] at hsame
  cases hkept : before.filter fun c => decide (c = a) || decide (c = b) with
  | nil =>
    rw [hkept] at hmem
    exact absurd hmem List.not_mem_nil
  | cons c kept =>
    rw [hkept, List.cons_append, List.cons.injEq] at hsame
    have hfirst : a ∈ before.filter fun c => decide (c = a) || decide (c = b) := by
      rw [hkept, hsame.1]
      exact List.mem_cons_self
    exact hbefore (List.mem_of_mem_filter hfirst)

/-- **The first element can be taken out of both lists.** -/
theorem SameOrder.erase (hsymm : ∀ a b, dep a b → dep b a) :
    SameOrder dep l (before ++ after) := by
  intro p hp
  have hindependent := SameOrder.independent hrefl h hbefore hsymm
  have hsame := h p hp
  rw [List.filter_append] at hsame ⊢
  by_cases hpa : p a = true
  · have hnone : before.filter p = [] :=
      List.filter_eq_nil_iff.mpr fun b hb hpb => hindependent b hb (hp b a hpb hpa)
    rw [List.filter_cons_of_pos hpa, List.filter_cons_of_pos hpa, hnone, List.nil_append,
      List.cons.injEq] at hsame
    rw [hnone, List.nil_append]
    exact hsame.2
  · rwa [List.filter_cons_of_neg hpa, List.filter_cons_of_neg hpa] at hsame

end Erase

/-! ## Actions on a state -/

variable {R : S → S → Prop} {f : S → A → S}

/-- Equal states stay equal under the same actions. -/
theorem foldl_congr (hcongr : ∀ s t a, R s t → R (f s a) (f t a)) {s t : S} (h : R s t)
    (l : List A) : R (l.foldl f s) (l.foldl f t) := by
  induction l generalizing s t with
  | nil => exact h
  | cons a l ih => exact ih (hcongr s t a h)

variable (hR : Equivalence R) (hcongr : ∀ s t a, R s t → R (f s a) (f t a))
  (hcomm : ∀ s a b, ¬ dep a b → R (f (f s a) b) (f (f s b) a))
include hR hcongr hcomm

/-- An action moves to the front past actions that do not depend on it. -/
theorem foldl_of_independent {a : A} {before : List A} (h : ∀ b ∈ before, ¬ dep b a)
    (after : List A) (s : S) :
    R ((before ++ a :: after).foldl f s) ((a :: (before ++ after)).foldl f s) := by
  induction before generalizing s with
  | nil => exact hR.refl _
  | cons b before ih =>
    have hmove := ih (fun b hb => h b (List.mem_cons_of_mem _ hb)) (f s b)
    exact hR.trans hmove (foldl_congr hcongr (hcomm s b a (h b List.mem_cons_self)) _)

variable (hrefl : ∀ a, dep a a) (hsymm : ∀ a b, dep a b → dep b a)
include hrefl hsymm

theorem foldl_of_sameOrder (h : SameOrder dep l l') (s : S) : R (l.foldl f s) (l'.foldl f s) := by
  induction l generalizing l' s with
  | nil =>
    have hnil : l' = [] := List.eq_nil_iff_forall_not_mem.mpr fun a ha =>
      absurd (SameOrder.mem hrefl (fun p hp => (h p hp).symm) ha) List.not_mem_nil
    rw [hnil]
    exact hR.refl _
  | cons a l ih =>
    have ha : a ∈ l' := SameOrder.mem hrefl h List.mem_cons_self
    obtain ⟨before, after, rfl, hbefore⟩ := List.eq_append_cons_of_mem ha
    have hindependent := SameOrder.independent hrefl h hbefore hsymm
    have hrest := SameOrder.erase hrefl h hbefore hsymm
    exact hR.trans (ih hrest (f s a))
      (hR.symm (foldl_of_independent hR hcongr hcomm hindependent after s))

/-- **Rearranging independent actions** leads to the same state, up to `R`. -/
theorem foldl_of_reordering (h : Reordering dep l l') (s : S) :
    R (l.foldl f s) (l'.foldl f s) :=
  foldl_of_sameOrder hR hcongr hcomm hrefl hsymm h.sameOrder s

end Commutation

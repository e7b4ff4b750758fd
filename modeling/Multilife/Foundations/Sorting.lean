import Mathlib.Data.List.Sort

/-!
# Sorting by a comparison

What `std::sort` makes of a container, given a comparison.  The algorithm is not stable, so the
result is determined only where the comparison decides between any two elements
(`StrictTotal`) and no element occurs twice.

* `pairwise_sorted`: in the result each element comes before those after it.
* `eq_of_pairwise`: there is one such list of the same elements.
* `sorted_congr`: hence the order in which the elements came does not matter.
-/

namespace Sorting

variable {α β : Type*}

/-- The elements in the order of a comparison. -/
def sorted (before : α → α → Bool) (l : List α) : List α := l.mergeSort fun a b => !before b a

/-- The comparison decides between any two elements. -/
structure StrictTotal (before : α → α → Bool) : Prop where
  irrefl : ∀ a, before a a = false
  trans : ∀ {a b c}, before a b = true → before b c = true → before a c = true
  total : ∀ {a b}, a ≠ b → before a b = true ∨ before b a = true

variable {before : α → α → Bool} {l l' : List α}

theorem perm_sorted (before : α → α → Bool) (l : List α) : (sorted before l).Perm l :=
  List.mergeSort_perm l _

@[simp] theorem mem_sorted {a : α} : a ∈ sorted before l ↔ a ∈ l := (perm_sorted before l).mem_iff

namespace StrictTotal

/-- A comparison of names is one of what they name. -/
theorem comap (h : StrictTotal before) {f : β → α} (hf : Function.Injective f) :
    StrictTotal fun a b => before (f a) (f b) where
  irrefl a := h.irrefl (f a)
  trans hab hbc := h.trans hab hbc
  total hab := h.total fun heq => hab (hf heq)

variable (h : StrictTotal before)
include h

theorem asymm {a b : α} (hab : before a b = true) : before b a = false := by
  refine Bool.eq_false_of_not_eq_true fun hba => ?_
  have haa := h.trans hab hba
  rw [h.irrefl] at haa
  cases haa

theorem not_before_iff {a b : α} : (!before b a) = true ↔ a = b ∨ before a b = true := by
  rw [Bool.not_eq_true']
  constructor
  · intro hba
    by_cases hab : a = b
    · exact Or.inl hab
    · refine Or.inr ((h.total hab).resolve_right fun hba' => ?_)
      rw [hba] at hba'
      cases hba'
  · rintro (rfl | hab)
    · exact h.irrefl a
    · exact h.asymm hab

/-- Each element comes before those after it. -/
theorem pairwise_sorted (hl : l.Nodup) : (sorted before l).Pairwise fun a b => before a b = true := by
  have hle : (sorted before l).Pairwise fun a b => (!before b a) = true := by
    refine List.pairwise_mergeSort (fun a b c hab hbc => ?_) (fun a b => ?_) l
    · rw [h.not_before_iff] at hab hbc ⊢
      rcases hab with rfl | hab
      · exact hbc
      · rcases hbc with rfl | hbc
        · exact Or.inr hab
        · exact Or.inr (h.trans hab hbc)
    · rw [Bool.or_eq_true, h.not_before_iff, h.not_before_iff]
      by_cases hab : a = b
      · exact Or.inl (Or.inl hab)
      · exact (h.total hab).imp Or.inr Or.inr
  have hnodup := (perm_sorted before l).nodup_iff.mpr hl
  refine (hle.and hnodup).imp fun hab => ?_
  exact (h.not_before_iff.mp hab.1).resolve_left hab.2

/-- A list is determined by its elements if each comes before the next. -/
theorem eq_of_pairwise (hl : l.Pairwise fun a b => before a b = true)
    (hl' : l'.Pairwise fun a b => before a b = true) (hmem : ∀ a, a ∈ l ↔ a ∈ l') : l = l' := by
  have hnodup : ∀ {k : List α}, k.Pairwise (fun a b => before a b = true) → k.Nodup := by
    refine fun hk => hk.imp ?_
    rintro a b hab rfl
    rw [h.irrefl] at hab
    cases hab
  refine List.Perm.eq_of_pairwise (fun a b _ _ hab hba => ?_) hl hl'
    ((List.perm_ext_iff_of_nodup (hnodup hl) (hnodup hl')).mpr hmem)
  rw [h.asymm hab] at hba
  cases hba

/-- The order in which the elements came does not matter. -/
theorem sorted_congr (hl : l.Nodup) (hl' : l'.Nodup) (hmem : ∀ a, a ∈ l ↔ a ∈ l') :
    sorted before l = sorted before l' :=
  h.eq_of_pairwise (h.pairwise_sorted hl) (h.pairwise_sorted hl') fun a => by
    rw [mem_sorted, mem_sorted, hmem]

end StrictTotal
end Sorting

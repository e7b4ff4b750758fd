import Mathlib.Algebra.BigOperators.Group.List.Basic
import Multilife.Foundations.FiniteMap

/-!
# Maps of running totals

A finite map used as a family of counters: a missing key reads as zero and is created
by the first `m[k] += v`.  `total` reads a counter and `bump` is the assignment.

A loop of bumps is described by two functions of its elements: what an element adds to
each counter, and which counters it touches.  `total_foldl` and `mem_foldl` lift both
from one pass of the body to the loop; `merge` is the loop that adds the counters of
one map to those of another.
-/

namespace Tally

open FiniteMap

variable {κ ι : Type*} {ν : Type*} [DecidableEq κ] [AddMonoid ν]

/-- The counter of a key. -/
def total (m : Finmap fun _ : κ => ν) (k : κ) : ν := (m.lookup k).getD 0

/-- `m[k] += v`. -/
def bump (m : Finmap fun _ : κ => ν) (k : κ) (v : ν) : Finmap fun _ : κ => ν :=
  m.insert k (total m k + v)

@[simp] theorem total_empty (k : κ) : total (∅ : Finmap fun _ : κ => ν) k = 0 := rfl

/-- A key that is not there reads as zero. -/
theorem total_of_not_mem {m : Finmap fun _ : κ => ν} {k : κ} (h : k ∉ m) : total m k = 0 := by
  rw [total, Finmap.lookup_eq_none.mpr h]
  rfl

theorem lookup_eq_some_total {m : Finmap fun _ : κ => ν} {k : κ} (h : k ∈ m) :
    m.lookup k = some (total m k) := by
  obtain ⟨v, hv⟩ := Finmap.mem_iff.mp h
  rw [total, hv, Option.getD_some]

/-- Maps with the same keys and the same totals are the same. -/
theorem ext_total {m m' : Finmap fun _ : κ => ν} (hkeys : ∀ k, k ∈ m ↔ k ∈ m')
    (htotals : ∀ k, total m k = total m' k) : m = m' := by
  refine Finmap.ext_lookup fun k => ?_
  by_cases hk : k ∈ m
  · rw [lookup_eq_some_total hk, lookup_eq_some_total ((hkeys k).mp hk), htotals]
  · rw [Finmap.lookup_eq_none.mpr hk, Finmap.lookup_eq_none.mpr fun h => hk ((hkeys k).mpr h)]

theorem total_bump (m : Finmap fun _ : κ => ν) (k j : κ) (v : ν) :
    total (bump m k v) j = total m j + if j = k then v else 0 := by
  unfold bump
  by_cases h : j = k
  · subst h
    rw [if_pos rfl, total, Finmap.lookup_insert, Option.getD_some]
  · rw [if_neg h, add_zero, total, Finmap.lookup_insert_of_ne _ h, ← total]

@[simp] theorem mem_bump {m : Finmap fun _ : κ => ν} {k j : κ} {v : ν} :
    j ∈ bump m k v ↔ j = k ∨ j ∈ m := Finmap.mem_insert

/-! ## Loops -/

variable {body : (Finmap fun _ : κ => ν) → ι → Finmap fun _ : κ => ν}

/-- **Totals of a loop.**  Each pass adds its own amount, the loop adds their sum. -/
theorem total_foldl {g : ι → ν} {k : κ}
    (hbody : ∀ m a, total (body m a) k = total m k + g a) (l : List ι)
    (m : Finmap fun _ : κ => ν) :
    total (l.foldl body m) k = total m k + (l.map g).sum := by
  induction l generalizing m with
  | nil => simp
  | cons a l ih => rw [List.foldl_cons, ih, hbody, List.map_cons, List.sum_cons, add_assoc]

omit [DecidableEq κ] [AddMonoid ν] in
/-- **Keys of a loop**: the keys that were there and those that some pass touches. -/
theorem mem_foldl {P : ι → Prop} {k : κ}
    (hbody : ∀ m a, k ∈ body m a ↔ k ∈ m ∨ P a) (l : List ι)
    (m : Finmap fun _ : κ => ν) :
    k ∈ l.foldl body m ↔ k ∈ m ∨ ∃ a ∈ l, P a := by
  induction l generalizing m with
  | nil => simp
  | cons a l ih => rw [List.foldl_cons, ih, hbody, List.exists_mem_cons_iff, or_assoc]

/-! ## Adding one map to another -/

/-- Every counter of `m'`, weighted by `f`, is added to the counter of `m`. -/
def merge (order : Traversal κ) (f : ν → ν) (m m' : Finmap fun _ : κ => ν) :
    Finmap fun _ : κ => ν :=
  (order.order m'.keys).foldl (fun m k => bump m k (f (total m' k))) m

variable (order : Traversal κ) {f : ν → ν} (m m' : Finmap fun _ : κ => ν)

theorem mem_merge {k : κ} : k ∈ merge order f m m' ↔ k ∈ m ∨ k ∈ m' := by
  unfold merge
  rw [mem_foldl (P := fun j => k = j) fun m j => by rw [mem_bump, or_comm]]
  simp [Finmap.mem_keys]

/-- Every key is visited once. -/
theorem total_merge (hf : f 0 = 0) (k : κ) :
    total (merge order f m m') k = total m k + f (total m' k) := by
  unfold merge
  rw [total_foldl (g := fun j => if k = j then f (total m' j) else 0)
    fun m j => total_bump m j k _,
    List.sum_map_eq_nsmul_single k _ fun j hj _ => if_neg hj.symm, if_pos rfl]
  by_cases hk : k ∈ m'
  · rw [List.count_eq_one_of_mem (order.nodup _)
      ((order.mem_order _ _).mpr (Finmap.mem_keys.mpr hk)), one_nsmul]
  · rw [total_of_not_mem hk, hf, nsmul_zero]

end Tally

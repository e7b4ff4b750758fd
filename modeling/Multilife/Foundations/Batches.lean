import Mathlib.Data.List.Basic

/-!
# Cutting a list into batches

A loop that walks over a list `n` elements at a time, taking what is left on its
last round, cuts it into `batches n l`.  Nothing is lost (`flatten_batches`), no
batch is longer than `n` (`length_le_of_mem_batches`) and none is empty
(`ne_nil_of_mem_batches`), so a list that fits into one batch is one batch.
-/

namespace Batches

variable {α : Type*}

/-- The batches `[0, n)`, `[n, 2n)`, ... of a list. -/
def batches (n : ℕ) (l : List α) : List (List α) :=
  (List.range ((l.length + n - 1) / n)).map fun i => (l.drop (i * n)).take n

@[simp] theorem batches_nil {n : ℕ} (hn : 0 < n) : batches n ([] : List α) = [] := by
  have h : (0 + n - 1) / n = 0 := Nat.div_eq_of_lt (by omega)
  rw [batches, List.length_nil, h, List.range_zero, List.map_nil]

/-- The first `k` batches are the first `k * n` elements. -/
theorem flatten_first (n k : ℕ) (l : List α) :
    ((List.range k).map fun i => (l.drop (i * n)).take n).flatten = l.take (k * n) := by
  induction k with
  | zero => rw [List.range_zero, List.map_nil, List.flatten_nil, Nat.zero_mul, List.take_zero]
  | succ k ih =>
    rw [List.range_succ, List.map_append, List.flatten_append, ih, Nat.succ_mul,
      List.take_add]
    simp

/-- **Nothing is lost.** -/
theorem flatten_batches {n : ℕ} (hn : 0 < n) (l : List α) : (batches n l).flatten = l := by
  have hall : l.length ≤ (l.length + n - 1) / n * n := by
    have hmod := Nat.mod_lt (l.length + n - 1) hn
    have hdiv := Nat.div_add_mod (l.length + n - 1) n
    rw [Nat.mul_comm] at hdiv
    omega
  rw [batches, flatten_first, List.take_of_length_le hall]

theorem length_le_of_mem_batches {n : ℕ} {l b : List α} (hb : b ∈ batches n l) :
    b.length ≤ n := by
  obtain ⟨i, -, rfl⟩ := List.mem_map.mp hb
  exact List.length_take_le _ _

theorem ne_nil_of_mem_batches {n : ℕ} {l b : List α} (hn : 0 < n) (hb : b ∈ batches n l) :
    b ≠ [] := by
  obtain ⟨i, hi, rfl⟩ := List.mem_map.mp hb
  have hi' := (Nat.lt_div_iff_mul_lt hn).mp (List.mem_range.mp hi)
  intro hnil
  have hlen := congrArg List.length hnil
  rw [List.length_take, List.length_drop, List.length_nil] at hlen
  omega

/-- A list that is not empty and fits is its only batch. -/
theorem batches_eq_singleton {n : ℕ} {l : List α} (hne : l ≠ []) (hle : l.length ≤ n) :
    batches n l = [l] := by
  have hpos : 0 < l.length := List.length_pos_of_ne_nil hne
  have hone : (l.length + n - 1) / n = 1 := by
    rw [Nat.div_eq_iff (by omega)]
    omega
  rw [batches, hone, List.range_one, List.map_singleton, Nat.zero_mul, List.drop_zero,
    List.take_of_length_le hle]

/-- A list that does not fit has more than one batch, and the first is full. -/
theorem batches_of_length_gt {n : ℕ} {l : List α} (hn : 0 < n) (hlt : n < l.length) :
    ∃ b rest, batches n l = l.take n :: b :: rest := by
  have htwo : 2 ≤ (l.length + n - 1) / n := by
    rw [Nat.le_div_iff_mul_le hn]
    omega
  obtain ⟨k, hk⟩ := Nat.exists_eq_add_of_le' htwo
  refine ⟨(l.drop n).take n,
    (List.range k).map fun i => (l.drop ((i + 2) * n)).take n, ?_⟩
  rw [batches, hk, List.range_succ_eq_map, List.range_succ_eq_map]
  simp [Function.comp_def, Nat.add_mul, Nat.add_assoc, Nat.two_mul]

end Batches

import Mathlib.Data.Finmap
import Mathlib.Data.Finset.Sort
import Mathlib.Data.List.Nodup

/-!
# Finite maps, and loops over them in an unknown order

A hash container is a finite map whose iteration order is nobody's promise.  The
map is Mathlib's `Finmap`; the order is a `Traversal`, an enumeration of every
finite key set that lists each key once.  A loop over the container takes the
traversal as an argument, so a theorem that quantifies over traversals holds for
every order the container could have used.

* `Traversal.byRank`: one order that can be run, by sorting on a rank.
* `modify`: rewrite the value at a key that is present, in place.
* `filter`: keep the entries that pass a test; this is also what "erase while
  iterating" leaves, since each entry is visited once.
* `lookup_foldl_modify`: a loop that rewrites every listed value once is a map.
* `lookup_foldl_modifyWith`: the same when the rewrite reads the container while
  it is being rewritten, as long as what it reads is not what it rewrites.
-/

namespace FiniteMap

variable {α : Type*} {V : Type*}

/-! ## Iteration orders -/

/-- An iteration order: every finite set of keys is enumerated, each key once. -/
structure Traversal (α : Type*) where
  /-- The keys in the order they are visited. -/
  order : Finset α → List α
  /-- No key is visited twice. -/
  nodup : ∀ s, (order s).Nodup
  /-- Exactly the keys of the set are visited. -/
  mem_order : ∀ s a, a ∈ order s ↔ a ∈ s

attribute [simp] Traversal.mem_order

@[simp] theorem Traversal.order_empty (t : Traversal α) : t.order ∅ = [] :=
  List.eq_nil_iff_forall_not_mem.mpr fun a ha => Finset.notMem_empty a ((t.mem_order ∅ a).mp ha)

/-- Two orders list the same keys. -/
theorem Traversal.perm (t t' : Traversal α) (s : Finset α) : (t.order s).Perm (t'.order s) :=
  (List.perm_ext_iff_of_nodup (t.nodup s) (t'.nodup s)).mpr fun a => by
    rw [t.mem_order, t'.mem_order]

/-- The order the other way round. -/
def Traversal.reverse (t : Traversal α) : Traversal α where
  order s := (t.order s).reverse
  nodup s := List.nodup_reverse.mpr (t.nodup s)
  mem_order s a := List.mem_reverse.trans (t.mem_order s a)

/-- The order by increasing rank. -/
def Traversal.byRank {β : Type*} [LinearOrder β] (rank : α → β)
    (hrank : Function.Injective rank) : Traversal α :=
  letI : LinearOrder α := LinearOrder.lift' rank hrank
  { order := fun s => s.sort (· ≤ ·)
    nodup := fun s => Finset.sort_nodup s _
    mem_order := fun _ _ => Finset.mem_sort _ }

variable [DecidableEq α]

/-! ## Rewriting a value in place -/

/-- Rewrite the value at `k`; nothing happens when `k` is absent. -/
def modify (k : α) (f : V → V) (m : Finmap fun _ : α => V) : Finmap fun _ : α => V :=
  match m.lookup k with
  | some v => m.insert k (f v)
  | none => m

theorem lookup_modify (k j : α) (f : V → V) (m : Finmap fun _ : α => V) :
    (modify k f m).lookup j = if j = k then (m.lookup j).map f else m.lookup j := by
  unfold modify
  cases hk : m.lookup k with
  | none =>
    by_cases hj : j = k
    · rw [if_pos hj, hj, hk]
      rfl
    · rw [if_neg hj]
  | some v =>
    by_cases hj : j = k
    · rw [if_pos hj, hj, Finmap.lookup_insert, hk]
      rfl
    · rw [if_neg hj, Finmap.lookup_insert_of_ne _ hj]

omit [DecidableEq α] in
theorem keys_eq_of_mem_iff {m m' : Finmap fun _ : α => V} (h : ∀ j, j ∈ m ↔ j ∈ m') :
    m.keys = m'.keys := by
  ext j
  rw [Finmap.mem_keys, Finmap.mem_keys]
  exact h j

/-! ## Loops that rewrite every value -/

/-- **A rewriting loop is a map.**  Each listed key is rewritten once, the other
keys keep their value. -/
theorem lookup_foldl_modify (f : V → V) {l : List α} (hl : l.Nodup)
    (m : Finmap fun _ : α => V) (j : α) :
    (l.foldl (fun m k => modify k f m) m).lookup j =
      if j ∈ l then (m.lookup j).map f else m.lookup j := by
  induction l generalizing m with
  | nil => simp
  | cons k l ih =>
    obtain ⟨hk, hl⟩ := List.nodup_cons.mp hl
    rw [List.foldl_cons, ih hl, lookup_modify]
    by_cases hj : j = k
    · rw [hj, if_neg hk, if_pos rfl, if_pos List.mem_cons_self]
    · rw [if_neg hj]
      simp only [List.mem_cons, hj, false_or]

/-- The relation that compares two maps value by value, key sets included. -/
def Related (R : V → V → Prop) (m m' : Finmap fun _ : α => V) : Prop :=
  ∀ k, Option.Rel R (m.lookup k) (m'.lookup k)

theorem Related.refl {R : V → V → Prop} (hR : ∀ v, R v v) (m : Finmap fun _ : α => V) :
    Related R m m := fun k => by
  cases m.lookup k with
  | none => exact Option.Rel.none
  | some v => exact Option.Rel.some (hR v)

theorem Related.mem_iff {R : V → V → Prop} {m m' : Finmap fun _ : α => V}
    (h : Related R m m') (k : α) : k ∈ m ↔ k ∈ m' := by
  rw [← Finmap.lookup_isSome, ← Finmap.lookup_isSome]
  have hk := h k
  revert hk
  cases m.lookup k <;> cases m'.lookup k <;> intro hk <;> cases hk <;> simp

/-- **A rewriting loop that reads while it writes.**  The rewrite `g m k` may
read the whole map, but only up to `R`, and it changes a value only within `R`:
then reading the map half way through the loop is reading it at the start. -/
theorem lookup_foldl_modifyWith {R : V → V → Prop} (hrefl : ∀ v, R v v)
    (htrans : ∀ u v w, R u v → R v w → R u w)
    (g : (Finmap fun _ : α => V) → α → V → V)
    (hcongr : ∀ m m', Related R m m' → ∀ k v, g m' k v = g m k v)
    (hkeep : ∀ m k v, R v (g m k v))
    {l : List α} (hl : l.Nodup) (m : Finmap fun _ : α => V) (j : α) :
    (l.foldl (fun m k => modify k (g m k) m) m).lookup j =
      if j ∈ l then (m.lookup j).map (g m j) else m.lookup j := by
  -- the state of the loop stays `R`-related to the map it started from
  have key : ∀ (l : List α) (hl : l.Nodup) (acc : Finmap fun _ : α => V),
      Related R m acc →
      (l.foldl (fun m k => modify k (g m k) m) acc).lookup j =
        if j ∈ l then (acc.lookup j).map (g m j) else acc.lookup j := by
    intro l
    induction l with
    | nil => intro _ acc _; simp
    | cons k l ih =>
      intro hl acc hacc
      obtain ⟨hk, hl⟩ := List.nodup_cons.mp hl
      have hstep : Related R m (modify k (g acc k) acc) := by
        intro i
        rw [lookup_modify]
        have hi := hacc i
        split_ifs with hik
        · revert hi
          cases m.lookup i <;> cases acc.lookup i <;> intro hi <;> cases hi
          · exact Option.Rel.none
          · rename_i u v huv
            exact Option.Rel.some (htrans _ _ _ huv (hkeep _ _ _))
        · exact hi
      have hg : g acc k = g m k := funext fun v => hcongr m acc hacc k v
      rw [List.foldl_cons, ih hl _ hstep, lookup_modify]
      by_cases hj : j = k
      · rw [hj, if_neg hk, if_pos rfl, if_pos List.mem_cons_self, hg]
      · rw [if_neg hj]
        simp only [List.mem_cons, hj, false_or]
  exact key l hl m (Related.refl hrefl m)

/-! ## Creating the missing entries -/

/-- Insert `v` at `k` unless `k` is already present. -/
def insertNew (k : α) (v : V) (m : Finmap fun _ : α => V) : Finmap fun _ : α => V :=
  if k ∈ m then m else m.insert k v

theorem lookup_insertNew (k j : α) (v : V) (m : Finmap fun _ : α => V) :
    (insertNew k v m).lookup j =
      if j = k then some ((m.lookup j).getD v) else m.lookup j := by
  unfold insertNew
  by_cases hj : j = k
  · rw [if_pos hj, hj]
    by_cases hk : k ∈ m
    · rw [if_pos hk]
      obtain ⟨u, hu⟩ := Finmap.mem_iff.mp hk
      rw [hu]
      rfl
    · rw [if_neg hk, Finmap.lookup_insert, Finmap.lookup_eq_none.mpr hk]
      rfl
  · rw [if_neg hj]
    split_ifs
    · rfl
    · rw [Finmap.lookup_insert_of_ne _ hj]

/-- A loop that creates the listed keys leaves the present ones alone. -/
theorem lookup_foldl_insertNew (v : V) (l : List α) (m : Finmap fun _ : α => V) (j : α) :
    (l.foldl (fun m k => insertNew k v m) m).lookup j =
      if j ∈ l then some ((m.lookup j).getD v) else m.lookup j := by
  induction l generalizing m with
  | nil => simp
  | cons k l ih =>
    rw [List.foldl_cons, ih, lookup_insertNew]
    by_cases hj : j = k
    · subst hj
      simp
    · simp only [List.mem_cons, hj, false_or, if_false]

/-! ## Listing -/

omit [DecidableEq α] in
/-- A loop that lists what it finds at each key lists the keys it finds, in order. -/
theorem sublist_map_filterMap {β : Type*} {f : α → Option β} {g : β → α}
    (hg : ∀ a b, f a = some b → g b = a) (l : List α) : ((l.filterMap f).map g).Sublist l := by
  induction l with
  | nil => exact List.Sublist.refl _
  | cons a l ih =>
    rw [List.filterMap_cons]
    cases hf : f a with
    | none => exact ih.cons a
    | some b =>
      dsimp only
      rw [List.map_cons, hg a b hf]
      exact ih.cons_cons a

/-- What such a loop lists for one key. -/
theorem filter_filterMap {β : Type*} {f : α → Option β} {g : β → α}
    (hg : ∀ a b, f a = some b → g b = a) {l : List α} (hl : l.Nodup) {a : α} (ha : a ∈ l) :
    (l.filterMap f).filter (fun b => g b = a) = (f a).toList := by
  induction l with
  | nil => exact absurd ha List.not_mem_nil
  | cons c l ih =>
    obtain ⟨hc, hl⟩ := List.nodup_cons.mp hl
    rw [List.filterMap_cons]
    by_cases hca : c = a
    · subst hca
      have hrest : (l.filterMap f).filter (fun b => g b = c) = [] := by
        rw [List.filter_eq_nil_iff]
        intro b hb
        have hmem := (sublist_map_filterMap hg l).subset (List.mem_map.mpr ⟨b, hb, rfl⟩)
        have hne : g b ≠ c := fun h => hc (h ▸ hmem)
        simpa using hne
      cases hf : f c with
      | none => exact hrest
      | some b =>
        dsimp only
        rw [List.filter_cons, if_pos (decide_eq_true (hg c b hf)), hrest]
        rfl
    · have htail := ih hl ((List.mem_cons.mp ha).resolve_left (Ne.symm hca))
      cases hf : f c with
      | none => exact htail
      | some b =>
        dsimp only
        rw [List.filter_cons, if_neg]
        · exact htail
        · rw [hg c b hf]
          simpa using hca

/-! ## Erasing while iterating -/

/-- The entries that pass the test `p`. -/
def filter (p : α → V → Bool) (m : Finmap fun _ : α => V) : Finmap fun _ : α => V where
  entries := m.entries.filter fun e => p e.1 e.2
  nodupKeys := Multiset.nodup_keys.mp <|
    Multiset.nodup_of_le (Multiset.map_le_map (Multiset.filter_le _ _))
      (Multiset.nodup_keys.mpr m.nodupKeys)

theorem lookup_filter (p : α → V → Bool) (m : Finmap fun _ : α => V) (k : α) :
    (filter p m).lookup k = (m.lookup k).filter (p k) := by
  ext v
  rw [Option.filter_eq_some_iff]
  constructor
  · intro h
    have hmem := Finmap.mem_lookup_iff.mp h
    have hpair := Multiset.mem_filter.mp hmem
    exact ⟨Finmap.mem_lookup_iff.mpr hpair.1, hpair.2⟩
  · rintro ⟨h, hp⟩
    exact Finmap.mem_lookup_iff.mpr
      (Multiset.mem_filter.mpr ⟨Finmap.mem_lookup_iff.mp h, hp⟩)

end FiniteMap

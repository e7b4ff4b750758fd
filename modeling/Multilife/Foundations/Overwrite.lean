import Mathlib.Data.List.Induction
import Mathlib.Logic.Function.Basic

/-!
# Logs of overwrites

A log is a list of actions applied in turn to a state, and one place of the
state is observed through the function `r`.  An action either leaves the place alone
(`Keeps`) or overwrites it with a fixed value (`Sets`).  Nothing else is asked
of the state or of the actions, so the same lemmas serve an array that is filled
cell by cell, a map that is patched by a datagram, and a queue of patches that
have not arrived yet.

* `read_foldl_of_keeps`, `read_foldl_of_agree`: what a log leaves at the place.
  When all actions that overwrite it agree on the value, the order of the log
  and its repetitions do not matter.
* `lastWrite`: for a log that writes places, the last value written to one; a log
  overrides a picture at the places it writes (`foldl_update`).
* `Settles`: a log that, started at a place already reading `v`, ends at `v`,
  and so does each of its tails.  This is what survives when the front of a queue
  of patches is skipped (`Settles.of_append`).
* `Appendable`: how a queue of patches grows, for settling logs
  (`appendable_settles`) and for the log of one state (`appendable_read`).
-/

namespace Overwrite

variable {S A V : Type*} (f : S → A → S) (r : S → V)

/-- The action leaves the observed place as it is. -/
def Keeps (a : A) : Prop := ∀ s, r (f s a) = r s

/-- The action leaves `v` at the observed place. -/
def Sets (a : A) (v : V) : Prop := ∀ s, r (f s a) = v

variable {f r}

theorem read_foldl_of_keeps {l : List A} (h : ∀ a ∈ l, Keeps f r a) (s : S) :
    r (l.foldl f s) = r s := by
  induction l generalizing s with
  | nil => rfl
  | cons a l ih =>
    rw [List.foldl_cons, ih (fun b hb => h b (List.mem_cons_of_mem _ hb)),
      h a List.mem_cons_self]

/-- A log whose overwrites agree on `v` ends at `v` when it starts there. -/
theorem read_foldl_of_start {l : List A} {v : V}
    (h : ∀ a ∈ l, Keeps f r a ∨ Sets f r a v) {s : S} (hs : r s = v) :
    r (l.foldl f s) = v := by
  induction l generalizing s with
  | nil => exact hs
  | cons a l ih =>
    refine ih (fun b hb => h b (List.mem_cons_of_mem _ hb)) ?_
    rcases h a List.mem_cons_self with hk | hv
    · rw [hk, hs]
    · exact hv s

/-- **Agreeing overwrites.**  If every overwrite in the log writes `v` and there
is at least one, the log leaves `v`, whatever its order and its repetitions. -/
theorem read_foldl_of_agree {l : List A} {v : V}
    (h : ∀ a ∈ l, Keeps f r a ∨ Sets f r a v)
    (hex : ∃ a ∈ l, Sets f r a v) (s : S) : r (l.foldl f s) = v := by
  induction l generalizing s with
  | nil =>
    obtain ⟨a, ha, -⟩ := hex
    exact absurd ha List.not_mem_nil
  | cons a l ih =>
    have hl : ∀ b ∈ l, Keeps f r b ∨ Sets f r b v :=
      fun b hb => h b (List.mem_cons_of_mem _ hb)
    obtain ⟨b, hb, hbv⟩ := hex
    rcases List.mem_cons.mp hb with rfl | hb
    · exact read_foldl_of_start hl (hbv s)
    · exact ih hl ⟨b, hb, hbv⟩ _

/-! ## Logs that write places -/

section Places

variable {K : Type*} [DecidableEq K] (place : A → K) (value : A → V)

/-- The last value the log writes to a place. -/
def lastWrite (l : List A) (k : K) : Option V := (l.filter fun a => place a = k).getLast?.map value

theorem lastWrite_concat (l : List A) (a : A) (k : K) :
    lastWrite place value (l ++ [a]) k =
      if place a = k then some (value a) else lastWrite place value l k := by
  rw [lastWrite, lastWrite, List.filter_append]
  split_ifs with h
  · simp [h]
  · simp [h]

/-- **A log overrides a picture**, from its first write to its last. -/
theorem foldl_update (l : List A) (g : K → V) (k : K) :
    l.foldl (fun g a => Function.update g (place a) (value a)) g k =
      (lastWrite place value l k).getD (g k) := by
  induction l using List.reverseRecOn with
  | nil => rfl
  | append_singleton l a ih =>
    rw [List.foldl_append, List.foldl_cons, List.foldl_nil, lastWrite_concat]
    split_ifs with h
    · rw [← h, Function.update_self, Option.getD_some]
    · rw [Function.update_of_ne (Ne.symm h), ih]

variable {place value}

theorem lastWrite_eq_none {l : List A} {k : K} :
    lastWrite place value l k = none ↔ ∀ a ∈ l, place a ≠ k := by
  rw [lastWrite, Option.map_eq_none_iff, List.getLast?_eq_none_iff, List.filter_eq_nil_iff]
  simp

end Places

/-! ## Logs that end where they should -/

variable (f r)

/-- Started anywhere, the log ends at `v`. -/
def Determines (l : List A) (v : V) : Prop := ∀ s, r (l.foldl f s) = v

/-- Every action of the log either keeps the place, or writes `v`, or is
followed by actions that end at `v` regardless. -/
def Settles : List A → V → Prop
  | [], _ => True
  | a :: l, v =>
    Settles l v ∧ (Keeps f r a ∨ Sets f r a v ∨ Determines f r l v)

variable {f r}

/-- A settling log that starts at `v` ends at `v`. -/
theorem Settles.read_foldl {l : List A} {v : V} (h : Settles f r l v) {s : S}
    (hs : r s = v) : r (l.foldl f s) = v := by
  induction l generalizing s with
  | nil => exact hs
  | cons a l ih =>
    obtain ⟨hl, hk | hv | hd⟩ := h
    · exact ih hl (by rw [hk, hs])
    · exact ih hl (hv s)
    · exact hd _

/-- Handling the front of the log leaves a settling log. -/
theorem Settles.of_append {l l' : List A} {v : V} (h : Settles f r (l ++ l') v) :
    Settles f r l' v := by
  induction l with
  | nil => exact h
  | cons a l ih => exact ih h.1

/-- Actions that do not touch the place may follow. -/
theorem Determines.append_of_keeps {l l' : List A} {v : V} (h : Determines f r l v)
    (hl' : ∀ a ∈ l', Keeps f r a) : Determines f r (l ++ l') v := fun s => by
  rw [List.foldl_append, read_foldl_of_keeps hl', h]

theorem determines_snoc_of_sets (l : List A) {a : A} {v : V} (ha : Sets f r a v) :
    Determines f r (l ++ [a]) v := fun s => by
  rw [List.foldl_append, List.foldl_cons, List.foldl_nil]
  exact ha _

theorem settles_of_agree {l : List A} {v : V} (h : ∀ a ∈ l, Keeps f r a ∨ Sets f r a v) :
    Settles f r l v := by
  induction l with
  | nil => exact trivial
  | cons a l ih =>
    exact ⟨ih fun b hb => h b (List.mem_cons_of_mem a hb),
      (h a List.mem_cons_self).imp_right Or.inl⟩

/-- New actions that do not touch the place keep the log settling. -/
theorem Settles.append_of_keeps {l l' : List A} {v : V} (h : Settles f r l v)
    (hl' : ∀ a ∈ l', Keeps f r a) : Settles f r (l ++ l') v := by
  induction l with
  | nil => exact settles_of_agree fun a ha => Or.inl (hl' a ha)
  | cons b l ih =>
    obtain ⟨hl, hb⟩ := h
    exact ⟨ih hl, hb.imp_right (Or.imp_right fun hd => hd.append_of_keeps hl')⟩

/-- New overwrites that agree settle the log at their value, whatever came before. -/
theorem settles_append_of_agree (l : List A) {l' : List A} {v : V}
    (h : ∀ a ∈ l', Keeps f r a ∨ Sets f r a v) (hex : ∃ a ∈ l', Sets f r a v) :
    Settles f r (l ++ l') v := by
  induction l with
  | nil => exact settles_of_agree h
  | cons b l ih =>
    refine ⟨ih, Or.inr (Or.inr fun s => ?_)⟩
    show r ((l ++ l').foldl f s) = v
    rw [List.foldl_append]
    exact read_foldl_of_agree h hex _

variable (f r)

/-- What can be said of a growing log: it stays true when actions follow that do
not touch the place, and becomes true when overwrites follow that agree. -/
structure Appendable (P : List A → V → Prop) : Prop where
  keeps : ∀ {l l' : List A} {v : V}, P l v → (∀ a ∈ l', Keeps f r a) → P (l ++ l') v
  agree : ∀ (l : List A) {l' : List A} {v : V}, (∀ a ∈ l', Keeps f r a ∨ Sets f r a v) →
    (∃ a ∈ l', Sets f r a v) → P (l ++ l') v

theorem appendable_settles : Appendable f r (Settles f r) :=
  ⟨Settles.append_of_keeps, settles_append_of_agree⟩

/-- Where the log takes one state. -/
theorem appendable_read (s : S) : Appendable f r fun l v => r (l.foldl f s) = v where
  keeps h hl' := by
    rw [List.foldl_append, read_foldl_of_keeps hl', h]
  agree l l' v h hex := by
    rw [List.foldl_append]
    exact read_foldl_of_agree h hex _

end Overwrite

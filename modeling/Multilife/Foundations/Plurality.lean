import Mathlib.Data.List.MinMax
import Mathlib.Data.Prod.Lex

/-!
# Plurality votes with ties to the greatest candidate

Votes are a list over a linear order.  `plurality` is the candidate with the most
votes, and the greatest one among those that share the lead: the maximum of the
pair (votes, candidate) in the lexicographic order.

A program that counts votes keeps an ordered map from candidates to counts and
scans it in increasing order for a leader.  `bump` is one counted vote,
`tally` the map after all votes, `leader` the scan; `leader_tally` says that the
scan finds the plurality.  The scan replaces its leader on equality, and that is
what sends ties to the greatest candidate.
-/

namespace Plurality

variable {α : Type*} [LinearOrder α]

/-- The candidate with the most votes, the greatest one on ties. -/
def plurality (votes : List α) : Option α :=
  votes.argmax fun a => toLex (votes.count a, a)

/-- A candidate wins when it got a vote and nobody outranks it. -/
theorem plurality_eq_some_iff {votes : List α} {a : α} :
    plurality votes = some a ↔
      a ∈ votes ∧ ∀ b ∈ votes, toLex (votes.count b, b) ≤ toLex (votes.count a, a) := by
  unfold plurality
  rw [List.argmax_eq_some_iff]
  constructor
  · rintro ⟨ha, hmax, -⟩
    exact ⟨ha, hmax⟩
  · rintro ⟨ha, hmax⟩
    refine ⟨ha, hmax, fun b hb hab => ?_⟩
    have hrank := le_antisymm (hmax b hb) hab
    have hba : b = a := congrArg Prod.snd (toLex.injective hrank)
    rw [hba]

@[simp] theorem plurality_nil : plurality ([] : List α) = none := rfl

theorem plurality_mem {votes : List α} {a : α} (h : plurality votes = some a) : a ∈ votes :=
  (plurality_eq_some_iff.mp h).1

/-- The order of the votes does not matter. -/
theorem plurality_perm {votes votes' : List α} (h : votes.Perm votes') :
    plurality votes = plurality votes' := by
  ext a
  rw [plurality_eq_some_iff, plurality_eq_some_iff]
  refine and_congr h.mem_iff ⟨fun hmax b hb => ?_, fun hmax b hb => ?_⟩
  · rw [← h.count_eq, ← h.count_eq]
    exact hmax b (h.mem_iff.mpr hb)
  · rw [h.count_eq, h.count_eq]
    exact hmax b (h.mem_iff.mp hb)

/-! ## Counting the votes -/

/-- Count one vote in a map kept in increasing order of candidates. -/
def bump (a : α) : List (α × ℕ) → List (α × ℕ)
  | [] => [(a, 1)]
  | (b, n) :: m =>
    if a < b then (a, 1) :: (b, n) :: m
    else if a = b then (b, n + 1) :: m
    else (b, n) :: bump a m

/-- The map after all votes. -/
def tally (votes : List α) : List (α × ℕ) := votes.foldl (fun m a => bump a m) []

/-- The candidates of a map are listed in strictly increasing order. -/
def Ascending (m : List (α × ℕ)) : Prop := m.Pairwise fun x y => x.1 < y.1

theorem fst_mem_bump {a : α} {m : List (α × ℕ)} {x : α × ℕ} (hx : x ∈ bump a m) :
    x.1 = a ∨ ∃ y ∈ m, y.1 = x.1 := by
  induction m with
  | nil =>
    rw [bump, List.mem_singleton] at hx
    exact Or.inl (by rw [hx])
  | cons y m ih =>
    obtain ⟨b, n⟩ := y
    rw [bump] at hx
    split_ifs at hx with hlt heq
    · rcases List.mem_cons.mp hx with rfl | hx
      · exact Or.inl rfl
      · exact Or.inr ⟨x, hx, rfl⟩
    · rcases List.mem_cons.mp hx with rfl | hx
      · exact Or.inl heq.symm
      · exact Or.inr ⟨x, List.mem_cons_of_mem _ hx, rfl⟩
    · rcases List.mem_cons.mp hx with rfl | hx
      · exact Or.inr ⟨_, List.mem_cons_self, rfl⟩
      · exact (ih hx).imp_right fun ⟨z, hz, hzx⟩ => ⟨z, List.mem_cons_of_mem _ hz, hzx⟩

theorem ascending_bump {a : α} {m : List (α × ℕ)} (h : Ascending m) :
    Ascending (bump a m) := by
  induction m with
  | nil => exact List.pairwise_singleton _ _
  | cons y m ih =>
    obtain ⟨b, n⟩ := y
    obtain ⟨hb, hm⟩ := List.pairwise_cons.mp h
    rw [bump]
    split_ifs with hlt heq
    · refine List.pairwise_cons.mpr ⟨fun z hz => ?_, h⟩
      rcases List.mem_cons.mp hz with rfl | hz
      · exact hlt
      · exact hlt.trans (hb z hz)
    · exact List.pairwise_cons.mpr ⟨hb, hm⟩
    · refine List.pairwise_cons.mpr ⟨fun z hz => ?_, ih hm⟩
      rcases fst_mem_bump hz with hza | ⟨w, hw, hwz⟩
      · rw [hza]
        exact lt_of_le_of_ne (not_lt.mp hlt) (Ne.symm heq)
      · rw [← hwz]
        exact hb w hw

/-- The count a map holds for a candidate. -/
def countOf (a : α) : List (α × ℕ) → ℕ
  | [] => 0
  | (b, n) :: m => if a = b then n else countOf a m

theorem countOf_eq_zero {a : α} {m : List (α × ℕ)} (h : ∀ x ∈ m, a < x.1) :
    countOf a m = 0 := by
  induction m with
  | nil => rfl
  | cons y m ih =>
    obtain ⟨b, n⟩ := y
    rw [countOf, if_neg (h _ List.mem_cons_self).ne]
    exact ih fun x hx => h x (List.mem_cons_of_mem _ hx)

theorem countOf_bump {a c : α} {m : List (α × ℕ)} (h : Ascending m) :
    countOf c (bump a m) = countOf c m + if c = a then 1 else 0 := by
  induction m with
  | nil => by_cases hc : c = a <;> simp [bump, countOf, hc]
  | cons y m ih =>
    obtain ⟨b, n⟩ := y
    obtain ⟨hb, hm⟩ := List.pairwise_cons.mp h
    rcases lt_trichotomy a b with hlt | rfl | hgt
    · -- a new candidate goes in front, and had no count yet
      rw [bump, if_pos hlt, countOf]
      by_cases hc : c = a
      · have hzero : countOf a ((b, n) :: m) = 0 :=
          countOf_eq_zero fun x hx => by
            rcases List.mem_cons.mp hx with rfl | hx
            · exact hlt
            · exact hlt.trans (hb x hx)
        rw [if_pos hc, if_pos hc, hc, hzero]
      · rw [if_neg hc, if_neg hc, Nat.add_zero]
    · rw [bump, if_neg (lt_irrefl a), if_pos rfl, countOf, countOf]
      by_cases hc : c = a
      · rw [if_pos hc, if_pos hc, if_pos hc]
      · rw [if_neg hc, if_neg hc, if_neg hc, Nat.add_zero]
    · rw [bump, if_neg hgt.not_gt, if_neg hgt.ne', countOf, countOf, ih hm]
      by_cases hc : c = b
      · have hca : ¬ c = a := by rw [hc]; exact hgt.ne
        rw [if_pos hc, if_pos hc, if_neg hca, Nat.add_zero]
      · rw [if_neg hc, if_neg hc]

theorem mem_iff_countOf {m : List (α × ℕ)} (h : Ascending m) (hpos : ∀ x ∈ m, 0 < x.2)
    {a : α} {n : ℕ} : (a, n) ∈ m ↔ countOf a m = n ∧ 0 < n := by
  induction m with
  | nil =>
    simp only [List.not_mem_nil, countOf, false_iff, not_and]
    intro hn
    omega
  | cons y m ih =>
    obtain ⟨b, k⟩ := y
    obtain ⟨hb, hm⟩ := List.pairwise_cons.mp h
    have ih' := ih hm fun x hx => hpos x (List.mem_cons_of_mem _ hx)
    rw [List.mem_cons, countOf]
    by_cases hab : a = b
    · subst hab
      rw [if_pos rfl]
      constructor
      · rintro (heq | hmem)
        · cases heq
          exact ⟨rfl, hpos (a, n) List.mem_cons_self⟩
        · exact absurd (hb _ hmem) (lt_irrefl a)
      · rintro ⟨rfl, -⟩
        exact Or.inl rfl
    · rw [if_neg hab, ← ih']
      constructor
      · rintro (heq | hmem)
        · cases heq
          exact absurd rfl hab
        · exact hmem
      · exact Or.inr

theorem pos_bump {a : α} {m : List (α × ℕ)} (hpos : ∀ x ∈ m, 0 < x.2) :
    ∀ x ∈ bump a m, 0 < x.2 := by
  induction m with
  | nil =>
    intro x hx
    rw [bump, List.mem_singleton] at hx
    rw [hx]
    exact Nat.one_pos
  | cons y m ih =>
    obtain ⟨b, n⟩ := y
    have hm : ∀ x ∈ m, 0 < x.2 := fun x hx => hpos x (List.mem_cons_of_mem _ hx)
    intro x hx
    rw [bump] at hx
    split_ifs at hx
    · rcases List.mem_cons.mp hx with rfl | hx
      · exact Nat.one_pos
      · exact hpos x hx
    · rcases List.mem_cons.mp hx with rfl | hx
      · exact Nat.succ_pos n
      · exact hm x hx
    · rcases List.mem_cons.mp hx with rfl | hx
      · exact hpos _ List.mem_cons_self
      · exact ih hm x hx

/-- What counting preserves, and what it counts. -/
theorem tally_spec (votes : List α) :
    Ascending (tally votes) ∧ (∀ x ∈ tally votes, 0 < x.2) ∧
      ∀ c, countOf c (tally votes) = votes.count c := by
  unfold tally
  have key : ∀ (l : List α) (m : List (α × ℕ)), Ascending m → (∀ x ∈ m, 0 < x.2) →
      Ascending (l.foldl (fun m a => bump a m) m) ∧
        (∀ x ∈ l.foldl (fun m a => bump a m) m, 0 < x.2) ∧
        ∀ c, countOf c (l.foldl (fun m a => bump a m) m) = countOf c m + l.count c := by
    intro l
    induction l with
    | nil => exact fun m hm hpos => ⟨hm, hpos, fun c => by simp⟩
    | cons a l ih =>
      intro m hm hpos
      obtain ⟨h1, h2, h3⟩ := ih (bump a m) (ascending_bump hm) (pos_bump hpos)
      refine ⟨h1, h2, fun c => ?_⟩
      rw [List.foldl_cons, h3, countOf_bump hm, List.count_cons]
      by_cases hc : c = a
      · subst hc
        simp only [if_true, beq_self_eq_true]
        omega
      · have hac : ¬ (a == c) = true := fun h => hc (beq_iff_eq.mp h).symm
        rw [if_neg hc, if_neg hac]
        omega
  obtain ⟨h1, h2, h3⟩ := key votes [] List.Pairwise.nil (by simp)
  exact ⟨h1, h2, fun c => by rw [h3]; simp [countOf]⟩

/-- The candidates of the tally are those that got a vote, with their counts. -/
theorem mem_tally {votes : List α} {a : α} {n : ℕ} :
    (a, n) ∈ tally votes ↔ a ∈ votes ∧ n = votes.count a := by
  obtain ⟨hasc, hpos, hcount⟩ := tally_spec votes
  rw [mem_iff_countOf hasc hpos, hcount]
  constructor
  · rintro ⟨rfl, hn⟩
    exact ⟨List.count_pos_iff.mp hn, rfl⟩
  · rintro ⟨ha, rfl⟩
    exact ⟨rfl, List.count_pos_iff.mpr ha⟩

/-! ## Scanning for a leader -/

/-- One step of the scan: an entry that does at least as well takes the lead. -/
def better (best x : α × ℕ) : α × ℕ := if best.2 ≤ x.2 then x else best

/-- The scan of a map, from an initial leader. -/
def leader (m : List (α × ℕ)) (init : α × ℕ) : α × ℕ := m.foldl better init

/-- The rank that the scan maximises. -/
def rank (x : α × ℕ) : ℕ ×ₗ α := toLex (x.2, x.1)

theorem rank_le_rank_of_lt {x y : α × ℕ} (h : x.2 < y.2) : rank x ≤ rank y :=
  Prod.Lex.toLex_le_toLex.mpr (Or.inl h)

/-- **The scan maximises the rank.**  Along increasing candidates, an entry that
ties with the leader is greater than it, so the last of the best entries is the
greatest of them. -/
theorem leader_spec {m : List (α × ℕ)} (hasc : Ascending m) {best : α × ℕ}
    (hbest : ∀ x ∈ m, best.2 = x.2 → best.1 ≤ x.1) :
    (leader m best = best ∨ leader m best ∈ m) ∧ rank best ≤ rank (leader m best) ∧
      ∀ x ∈ m, rank x ≤ rank (leader m best) := by
  induction m generalizing best with
  | nil => exact ⟨Or.inl rfl, le_rfl, by simp⟩
  | cons y m ih =>
    obtain ⟨hy, hm⟩ := List.pairwise_cons.mp hasc
    have hnext : leader (y :: m) best = leader m (better best y) := rfl
    rw [hnext]
    by_cases hle : best.2 ≤ y.2
    · have hb : better best y = y := if_pos hle
      rw [hb]
      obtain ⟨hmem, hself, hall⟩ := ih hm fun x hx _ => (hy x hx).le
      have hbesty : rank best ≤ rank y := by
        rcases hle.lt_or_eq with hlt | heq
        · exact rank_le_rank_of_lt hlt
        · exact Prod.Lex.toLex_le_toLex.mpr
            (Or.inr ⟨heq, hbest y List.mem_cons_self heq⟩)
      refine ⟨Or.inr ?_, hbesty.trans hself, fun x hx => ?_⟩
      · rcases hmem with h | h
        · rw [h]
          exact List.mem_cons_self
        · exact List.mem_cons_of_mem _ h
      · rcases List.mem_cons.mp hx with rfl | hx
        · exact hself
        · exact hall x hx
    · have hb : better best y = best := if_neg hle
      rw [hb]
      obtain ⟨hmem, hself, hall⟩ := ih hm fun x hx => hbest x (List.mem_cons_of_mem _ hx)
      refine ⟨hmem.imp_right (List.mem_cons_of_mem _), hself, fun x hx => ?_⟩
      rcases List.mem_cons.mp hx with rfl | hx
      · exact (rank_le_rank_of_lt (not_le.mp hle)).trans hself
      · exact hall x hx

/-- **Counting and scanning find the plurality.**  The initial leader has no
votes, so it survives only when nobody voted. -/
theorem leader_tally (votes : List α) (d : α) :
    (leader (tally votes) (d, 0)).1 = (plurality votes).getD d := by
  obtain ⟨hasc, hpos, -⟩ := tally_spec votes
  have hbest : ∀ x ∈ tally votes, (d, 0).2 = x.2 → (d, 0).1 ≤ x.1 := fun x hx h0 =>
    absurd (hpos x hx) (by rw [← h0]; exact lt_irrefl 0)
  obtain ⟨hmem, -, hall⟩ := leader_spec hasc hbest
  cases hp : plurality votes with
  | none =>
    have hnil : votes = [] := List.argmax_eq_none.mp hp
    rw [hnil]
    rfl
  | some a =>
    obtain ⟨ha, hmax⟩ := plurality_eq_some_iff.mp hp
    have hentry : (a, votes.count a) ∈ tally votes := mem_tally.mpr ⟨ha, rfl⟩
    generalize leader (tally votes) (d, 0) = best at hmem hall
    obtain ⟨b, n⟩ := best
    have hrank := hall _ hentry
    rcases hmem with h | h
    · -- the initial leader cannot outrank a candidate with a vote
      cases h
      have hcount : 0 < votes.count a := List.count_pos_iff.mpr ha
      rcases Prod.Lex.toLex_le_toLex.mp hrank with hlt | ⟨heq, -⟩
      · exact absurd hlt (Nat.not_lt_zero _)
      · omega
    · obtain ⟨hb, rfl⟩ := mem_tally.mp h
      have heq := le_antisymm hrank (hmax b hb)
      exact (congrArg Prod.snd (toLex.injective heq)).symm

end Plurality

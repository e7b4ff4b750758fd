import Mathlib.Data.List.Induction

/-!
# Runs and invariants

A system is a partial step function on states, one step for each label; a label
that is not enabled has no step.  `run` takes the labels of an interleaving in
turn.  `Always` says that every step of a run satisfies a condition on the state
before it, and `run_invariant` is the rule of induction: what every such step
preserves holds at the end.  What brings a measure down comes to an end:
`length_le_of_measure`, `exists_maximal`.  `collect` is the history of a run: what
its steps yield, one after the other.  `collect_queue` and `run_foldl` say of a run
what they say of a step, and `collect_while` that what is yielded between two moments
is in one piece.

`Along` and `foldl_invariant` are the same for a total step function, where the
run is a fold.
-/

namespace Transition

variable {σ ℓ : Type*}

/-! ## Partial steps -/

section Partial

variable (step : σ → ℓ → Option σ)

/-- The state after a sequence of steps, if all of them are enabled. -/
def run : σ → List ℓ → Option σ
  | s, [] => some s
  | s, l :: ls => (step s l).bind fun s' => run s' ls

/-- Every step of the run satisfies the condition. -/
def Always (P : σ → ℓ → Prop) : σ → List ℓ → Prop
  | _, [] => True
  | s, l :: ls => P s l ∧ ∀ s', step s l = some s' → Always P s' ls

variable {step}

theorem run_cons_eq_some {s t : σ} {l : ℓ} {ls : List ℓ} :
    run step s (l :: ls) = some t ↔ ∃ s', step s l = some s' ∧ run step s' ls = some t :=
  Option.bind_eq_some_iff

/-- A run can be cut anywhere. -/
theorem run_append {s t : σ} {ls ls' : List ℓ} :
    run step s (ls ++ ls') = some t ↔ ∃ m, run step s ls = some m ∧ run step m ls' = some t := by
  induction ls generalizing s with
  | nil => exact ⟨fun h => ⟨s, rfl, h⟩, fun ⟨m, hm, h⟩ => by cases hm; exact h⟩
  | cons l ls ih =>
    rw [List.cons_append, run_cons_eq_some]
    constructor
    · rintro ⟨s', hstep, h⟩
      obtain ⟨m, hm, h⟩ := ih.mp h
      exact ⟨m, run_cons_eq_some.mpr ⟨s', hstep, hm⟩, h⟩
    · rintro ⟨m, hm, h⟩
      obtain ⟨s', hstep, hm⟩ := run_cons_eq_some.mp hm
      exact ⟨s', hstep, ih.mpr ⟨m, hm, h⟩⟩

theorem run_singleton {s t : σ} {l : ℓ} (h : step s l = some t) : run step s [l] = some t :=
  run_cons_eq_some.mpr ⟨t, h, rfl⟩

theorem run_concat {s m m' : σ} {ls : List ℓ} {l : ℓ} (h : run step s ls = some m)
    (hl : step m l = some m') : run step s (ls ++ [l]) = some m' :=
  run_append.mpr ⟨m, h, by rw [run, hl]; rfl⟩

/-- The condition holds along a run exactly when it holds along both parts. -/
theorem always_append {P : σ → ℓ → Prop} {s : σ} {ls ls' : List ℓ} :
    Always step P s (ls ++ ls') ↔
      Always step P s ls ∧ ∀ m, run step s ls = some m → Always step P m ls' := by
  induction ls generalizing s with
  | nil => exact ⟨fun h => ⟨trivial, fun m hm => by cases hm; exact h⟩, fun h => h.2 s rfl⟩
  | cons l ls ih =>
    constructor
    · rintro ⟨hl, h⟩
      refine ⟨⟨hl, fun s' hs' => (ih.mp (h s' hs')).1⟩, fun m hm => ?_⟩
      obtain ⟨s', hs', hm⟩ := run_cons_eq_some.mp hm
      exact (ih.mp (h s' hs')).2 m hm
    · rintro ⟨⟨hl, h⟩, h'⟩
      exact ⟨hl, fun s' hs' => ih.mpr ⟨h s' hs', fun m hm =>
        h' m (run_cons_eq_some.mpr ⟨s', hs', hm⟩)⟩⟩

/-- **Invariants.**  What every step that meets the condition preserves holds at
the end of a run whose steps all meet it. -/
theorem run_invariant {I : σ → Prop} {P : σ → ℓ → Prop}
    (hstep : ∀ s l s', I s → P s l → step s l = some s' → I s') {s t : σ} {ls : List ℓ}
    (hs : I s) (hP : Always step P s ls) (h : run step s ls = some t) : I t := by
  induction ls generalizing s with
  | nil =>
    cases h
    exact hs
  | cons l ls ih =>
    obtain ⟨s', hl, h⟩ := run_cons_eq_some.mp h
    exact ih (hstep s l s' hs hP.1 hl) (hP.2 s' hl) h

/-- **Measures.**  A run is no longer than what all of its steps bring down. -/
theorem length_le_of_measure {μ : σ → ℕ} {P : σ → ℓ → Prop}
    (hstep : ∀ s l s', P s l → step s l = some s' → μ s' < μ s) {s t : σ} {ls : List ℓ}
    (hP : Always step P s ls) (h : run step s ls = some t) : ls.length + μ t ≤ μ s := by
  induction ls generalizing s with
  | nil =>
    cases h
    exact Nat.le_of_eq (Nat.zero_add _)
  | cons l ls ih =>
    obtain ⟨s', hl, h⟩ := run_cons_eq_some.mp h
    have hlt := hstep s l s' hP.1 hl
    have hle := ih (hP.2 s' hl) h
    rw [List.length_cons]
    omega

/-- What brings a measure down can be done until nothing more can be done. -/
theorem exists_maximal {μ : σ → ℕ} {P : ℓ → Prop}
    (hstep : ∀ s l s', P l → step s l = some s' → μ s' < μ s) (s : σ) :
    ∃ ls t, (∀ l ∈ ls, P l) ∧ run step s ls = some t ∧ ∀ l, P l → step t l = none := by
  induction hμ : μ s using Nat.strongRecOn generalizing s with
  | _ n ih =>
    by_cases hrest : ∀ l, P l → step s l = none
    · exact ⟨[], s, fun l hl => absurd hl List.not_mem_nil, rfl, hrest⟩
    · simp only [not_forall] at hrest
      obtain ⟨l, hl, hne⟩ := hrest
      obtain ⟨s', hs'⟩ := Option.ne_none_iff_exists'.mp hne
      obtain ⟨ls, t, hls, ht, hmax⟩ := ih (μ s') (hμ ▸ hstep s l s' hl hs') s' rfl
      refine ⟨l :: ls, t, fun l' hl' => ?_, run_cons_eq_some.mpr ⟨s', hs', ht⟩, hmax⟩
      rcases List.mem_cons.mp hl' with rfl | hl'
      · exact hl
      · exact hls l' hl'

/-- The condition can be checked along the run. -/
instance decidableAlways {P : σ → ℓ → Prop} [∀ s l, Decidable (P s l)] :
    ∀ (s : σ) (ls : List ℓ), Decidable (Always step P s ls)
  | _, [] => isTrue trivial
  | s, l :: ls =>
    match h : step s l with
    | none => decidable_of_iff (P s l)
        ⟨fun hP => ⟨hP, fun _ hs' => nomatch h.symm.trans hs'⟩, And.left⟩
    | some s' =>
      haveI : Decidable (Always step P s' ls) := decidableAlways s' ls
      decidable_of_iff (P s l ∧ Always step P s' ls)
        ⟨fun hP => ⟨hP.1, fun _ hs' => Option.some.inj (h.symm.trans hs') ▸ hP.2⟩,
          fun hP => ⟨hP.1, hP.2 s' h⟩⟩

/-- A condition that the labels of a run meet in every state. -/
theorem always_of_forall_mem {P : σ → ℓ → Prop} {ls : List ℓ} (h : ∀ l ∈ ls, ∀ s, P s l)
    (s : σ) : Always step P s ls := by
  induction ls generalizing s with
  | nil => exact trivial
  | cons l ls ih =>
    exact ⟨h l List.mem_cons_self s,
      fun s' _ => ih (fun l' hl' => h l' (List.mem_cons_of_mem l hl')) s'⟩

theorem Always.and {P Q : σ → ℓ → Prop} {s : σ} {ls : List ℓ} (hP : Always step P s ls)
    (hQ : Always step Q s ls) : Always step (fun s l => P s l ∧ Q s l) s ls := by
  induction ls generalizing s with
  | nil => exact trivial
  | cons l ls ih => exact ⟨⟨hP.1, hQ.1⟩, fun s' hs' => ih (hP.2 s' hs') (hQ.2 s' hs')⟩

/-- Conditions that agree in every state. -/
theorem always_congr {P Q : σ → ℓ → Prop} (h : ∀ s l, P s l ↔ Q s l) {s : σ} {ls : List ℓ} :
    Always step P s ls ↔ Always step Q s ls := by
  induction ls generalizing s with
  | nil => exact Iff.rfl
  | cons l ls ih => exact and_congr (h s l) (forall_congr' fun s' => imp_congr Iff.rfl ih)

/-- The condition holds along a run exactly when it holds at every point of it. -/
theorem always_iff {P : σ → ℓ → Prop} {s : σ} {ls : List ℓ} :
    Always step P s ls ↔
      ∀ before l after m, ls = before ++ l :: after → run step s before = some m → P m l := by
  constructor
  · rintro h before l after m rfl hm
    exact ((always_append.mp h).2 m hm).1
  · intro h
    induction ls generalizing s with
    | nil => exact trivial
    | cons l ls ih =>
      refine ⟨h [] l ls s rfl rfl, fun s' hs' => ih fun before l' after m hsplit hm => ?_⟩
      exact h (l :: before) l' after m (by rw [hsplit, List.cons_append])
        (run_cons_eq_some.mpr ⟨s', hs', hm⟩)

/-- The rule without a condition. -/
theorem run_invariant' {I : σ → Prop} (hstep : ∀ s l s', I s → step s l = some s' → I s')
    {s t : σ} {ls : List ℓ} (hs : I s) (h : run step s ls = some t) : I t :=
  run_invariant (P := fun _ _ => True) (fun s l s' hI _ => hstep s l s' hI) hs
    (always_of_forall_mem (fun _ _ _ => trivial) s) h

/-- **Induction over the history of a run**, for conditions on the labels so far and
the state they lead to. -/
theorem run_history {Q : List ℓ → σ → Prop} {P : σ → ℓ → Prop} {s t : σ} {ls : List ℓ}
    (hnil : Q [] s)
    (hstep : ∀ ls m l m', run step s ls = some m → Q ls m → P m l → step m l = some m' →
      Q (ls ++ [l]) m')
    (hP : Always step P s ls) (h : run step s ls = some t) : Q ls t := by
  induction ls using List.reverseRecOn generalizing t with
  | nil =>
    cases h
    exact hnil
  | append_singleton ls l ih =>
    obtain ⟨m, hm, hl⟩ := run_append.mp h
    obtain ⟨m', hm', heq⟩ := run_cons_eq_some.mp hl
    cases heq
    obtain ⟨hbefore, hafter⟩ := always_append.mp hP
    exact hstep ls m l t hm (ih hbefore hm) (hafter m hm).1 hm'

/-! ## What a run leaves behind -/

variable {β : Type*}

variable (step) in
/-- What the steps of a run yield, in order. -/
def collect (f : σ → ℓ → List β) : σ → List ℓ → List β
  | _, [] => []
  | s, l :: ls => f s l ++ ((step s l).map fun s' => collect f s' ls).getD []

variable {f : σ → ℓ → List β}

@[simp] theorem collect_nil (s : σ) : collect step f s [] = [] := rfl

theorem collect_cons {s s' : σ} {l : ℓ} (h : step s l = some s') (ls : List ℓ) :
    collect step f s (l :: ls) = f s l ++ collect step f s' ls := by
  rw [collect, h]
  rfl

theorem collect_append {s m : σ} {ls : List ℓ} (h : run step s ls = some m) (ls' : List ℓ) :
    collect step f s (ls ++ ls') = collect step f s ls ++ collect step f m ls' := by
  induction ls generalizing s with
  | nil =>
    cases h
    rfl
  | cons l ls ih =>
    obtain ⟨s', hs', hm⟩ := run_cons_eq_some.mp h
    rw [List.cons_append, collect_cons hs', collect_cons hs', ih hm, List.append_assoc]

theorem collect_concat {s m : σ} {ls : List ℓ} (h : run step s ls = some m) (l : ℓ)
    {m' : σ} (hl : step m l = some m') :
    collect step f s (ls ++ [l]) = collect step f s ls ++ f m l := by
  rw [collect_append h, collect_cons hl, collect_nil, List.append_nil]

/-- Labels that yield nothing. -/
theorem collect_eq_nil {ls : List ℓ} (h : ∀ l ∈ ls, ∀ s, f s l = []) (s : σ) :
    collect step f s ls = [] := by
  induction ls generalizing s with
  | nil => rfl
  | cons l ls ih =>
    rw [collect, h l List.mem_cons_self s, List.nil_append]
    cases step s l with
    | none => rfl
    | some s' => exact ih (fun l' hl' => h l' (List.mem_cons_of_mem l hl')) s'

/-- What is collected was yielded by one of the steps, after what was collected before it. -/
theorem getElem?_collect {b : β} {s : σ} {ls : List ℓ} {k : ℕ}
    (hb : (collect step f s ls)[k]? = some b) :
    ∃ before l after m, ls = before ++ l :: after ∧ run step s before = some m ∧
      (collect step f s before).length ≤ k ∧
      (f m l)[k - (collect step f s before).length]? = some b := by
  induction ls generalizing s k with
  | nil => cases hb
  | cons l ls ih =>
    rw [collect] at hb
    by_cases hk : k < (f s l).length
    · rw [List.getElem?_append_left hk] at hb
      exact ⟨[], l, ls, s, rfl, rfl, Nat.zero_le k, hb⟩
    · rw [List.getElem?_append_right (Nat.not_lt.mp hk)] at hb
      cases hs' : step s l with
      | none =>
        rw [hs'] at hb
        cases hb
      | some s' =>
        rw [hs'] at hb
        obtain ⟨before, l', after, m, rfl, hm, hle, hb⟩ := ih hb
        refine ⟨l :: before, l', after, m, rfl, run_cons_eq_some.mpr ⟨s', hs', hm⟩, ?_, ?_⟩
        · rw [collect_cons hs', List.length_append]
          omega
        · rw [collect_cons hs', List.length_append, Nat.sub_add_eq]
          exact hb

section While

variable {I P Q : σ → Prop} {g : σ → ℓ → List β}

/-- Where `P` has come to an end for good, nothing is yielded any more. -/
theorem collect_of_over (hI : ∀ s l s', I s → step s l = some s' → I s')
    (hQ : ∀ s l s', I s → Q s → step s l = some s' → Q s')
    (hout : ∀ s l, I s → ¬ P s → g s l = []) (hover : ∀ s, Q s → ¬ P s) {s t : σ} {ls : List ℓ}
    (hs : I s) (hQs : Q s) (h : run step s ls = some t) :
    collect step g s ls = [] ∧ ¬ P t := by
  induction ls generalizing s with
  | nil =>
    cases h
    exact ⟨rfl, hover t hQs⟩
  | cons l ls ih =>
    obtain ⟨s', hs', ht⟩ := run_cons_eq_some.mp h
    obtain ⟨hnone, hend⟩ := ih (hI s l s' hs hs') (hQ s l s' hs hQs hs') ht
    rw [collect_cons hs', hout s l hs (hover s hQs), hnone]
    exact ⟨rfl, hend⟩

/-- **In one piece.**  Where `P` comes to an end once and for all, what is yielded while it holds
is a contiguous part of what would be yielded by all steps, up to the end if it holds there. -/
theorem collect_while (hI : ∀ s l s', I s → step s l = some s' → I s')
    (hP : ∀ s l s', I s → P s → step s l = some s' → P s' ∨ Q s')
    (hQ : ∀ s l s', I s → Q s → step s l = some s' → Q s')
    (hin : ∀ s l, I s → P s → g s l = f s l) (hout : ∀ s l, I s → ¬ P s → g s l = [])
    (hover : ∀ s, Q s → ¬ P s) {s t : σ} {ls : List ℓ} (hs : I s) (h : run step s ls = some t) :
    ∃ before after, before ++ collect step g s ls ++ after = collect step f s ls ∧
      (P s → before = []) ∧ (P t → after = []) := by
  induction ls generalizing s with
  | nil => exact ⟨[], [], rfl, fun _ => rfl, fun _ => rfl⟩
  | cons l ls ih =>
    obtain ⟨s', hs', ht⟩ := run_cons_eq_some.mp h
    have hI' := hI s l s' hs hs'
    rw [collect_cons hs', collect_cons hs']
    by_cases hPs : P s
    · rw [hin s l hs hPs]
      rcases hP s l s' hs hPs hs' with hPs' | hQs'
      · obtain ⟨before, after, hall, hfirst, hlast⟩ := ih hI' ht
        cases hfirst hPs'
        refine ⟨[], after, ?_, fun _ => rfl, hlast⟩
        rw [← hall]
        simp only [List.nil_append, List.append_assoc]
      · obtain ⟨hnone, hend⟩ := collect_of_over hI hQ hout hover hI' hQs' ht
        refine ⟨[], collect step f s' ls, ?_, fun _ => rfl, fun hPt => absurd hPt hend⟩
        rw [hnone, List.nil_append, List.append_nil]
    · obtain ⟨before, after, hall, -, hlast⟩ := ih hI' ht
      refine ⟨f s l ++ before, after, ?_, fun hPs' => absurd hPs' hPs, hlast⟩
      rw [hout s l hs hPs, ← hall]
      simp only [List.nil_append, List.append_assoc]

end While

/-- **First in, first out.**  Where every step takes `f` from the front of the queue `q` and
puts `g` to its end, so does a run.  `φ` and `ψ` say what of `f` and `g` belongs to it. -/
theorem collect_queue {γ δ : Type*} {g : σ → ℓ → List γ} {φ : List β → List δ}
    {ψ : List γ → List δ} {q : σ → List δ} (hφ : ∀ a b, φ (a ++ b) = φ a ++ φ b)
    (hψ : ∀ a b, ψ (a ++ b) = ψ a ++ ψ b)
    (hstep : ∀ s l s', step s l = some s' → φ (f s l) ++ q s' = q s ++ ψ (g s l))
    {s t : σ} {ls : List ℓ} (h : run step s ls = some t) :
    φ (collect step f s ls) ++ q t = q s ++ ψ (collect step g s ls) := by
  induction ls generalizing s with
  | nil =>
    cases h
    have hφnil : φ [] = [] := List.self_eq_append_right.mp (hφ [] [])
    have hψnil : ψ [] = [] := List.self_eq_append_right.mp (hψ [] [])
    rw [collect_nil, collect_nil, hφnil, hψnil, List.nil_append, List.append_nil]
  | cons l ls ih =>
    obtain ⟨s', hs', ht⟩ := run_cons_eq_some.mp h
    rw [collect_cons hs', collect_cons hs', hφ, hψ, List.append_assoc, ih ht, ← List.append_assoc,
      hstep s l s' hs', List.append_assoc]

/-- **A queue with losses.**  Where every step takes `f`, or more, from the front of the queue `q`
and puts `g`, or less, to its end, so does a run.  `φ` says what of `f` belongs to it. -/
theorem collect_sublist {γ : Type*} {I : σ → Prop} {g : σ → ℓ → List γ} {φ : List β → List γ}
    {q : σ → List γ} (hφ : ∀ a b, φ (a ++ b) = φ a ++ φ b)
    (hI : ∀ s l s', I s → step s l = some s' → I s')
    (hstep : ∀ s l s', I s → step s l = some s' → (φ (f s l) ++ q s').Sublist (q s ++ g s l))
    {s t : σ} {ls : List ℓ} (hs : I s) (h : run step s ls = some t) :
    (φ (collect step f s ls) ++ q t).Sublist (q s ++ collect step g s ls) := by
  induction ls generalizing s with
  | nil =>
    cases h
    have hφnil : φ [] = [] := List.self_eq_append_right.mp (hφ [] [])
    have hsame : φ (collect step f t []) ++ q t = q t ++ collect step g t [] := by
      rw [collect_nil, collect_nil, hφnil, List.nil_append, List.append_nil]
    exact hsame ▸ List.Sublist.refl _
  | cons l ls ih =>
    obtain ⟨s', hs', ht⟩ := run_cons_eq_some.mp h
    rw [collect_cons hs', collect_cons hs', hφ, List.append_assoc]
    refine ((ih (hI s l s' hs hs') ht).append_left (φ (f s l))).trans ?_
    rw [← List.append_assoc, ← List.append_assoc]
    exact (hstep s l s' hs hs').append_right _

/-- **Projection.**  Where every step from the invariant that meets the condition makes the
machine `m` run through `c`, so does a run whose steps all meet it. -/
theorem run_collect_of_invariant {τ κ : Type*} {step' : τ → κ → Option τ} {m : σ → τ}
    {c : σ → ℓ → List κ} {I : σ → Prop} {P : σ → ℓ → Prop}
    (hI : ∀ s l s', I s → P s l → step s l = some s' → I s')
    (hstep : ∀ s l s', I s → P s l → step s l = some s' → run step' (m s) (c s l) = some (m s'))
    {s t : σ} {ls : List ℓ} (hs : I s) (hP : Always step P s ls) (h : run step s ls = some t) :
    run step' (m s) (collect step c s ls) = some (m t) := by
  induction ls generalizing s with
  | nil =>
    cases h
    rfl
  | cons l ls ih =>
    obtain ⟨s', hs', ht⟩ := run_cons_eq_some.mp h
    rw [collect_cons hs', run_append]
    exact ⟨m s', hstep s l s' hs hP.1 hs', ih (hI s l s' hs hP.1 hs') (hP.2 s' hs') ht⟩

/-- The rule without a condition. -/
theorem run_collect {τ κ : Type*} {step' : τ → κ → Option τ} {m : σ → τ} {c : σ → ℓ → List κ}
    (hstep : ∀ s l s', step s l = some s' → run step' (m s) (c s l) = some (m s'))
    {s t : σ} {ls : List ℓ} (h : run step s ls = some t) :
    run step' (m s) (collect step c s ls) = some (m t) :=
  run_collect_of_invariant (I := fun _ => True) (P := fun _ _ => True)
    (fun _ _ _ _ _ _ => trivial) (fun s l s' _ _ => hstep s l s') trivial
    (always_of_forall_mem (fun _ _ _ => trivial) s) h

/-- **Refinement.**  Where every step makes the calls `f` to the machine `m`, so does a run. -/
theorem run_foldl {τ : Type*} {m : σ → τ} {c : τ → β → τ}
    (hstep : ∀ s l s', step s l = some s' → m s' = (f s l).foldl c (m s))
    {s t : σ} {ls : List ℓ} (h : run step s ls = some t) :
    m t = (collect step f s ls).foldl c (m s) := by
  induction ls generalizing s with
  | nil =>
    cases h
    rfl
  | cons l ls ih =>
    obtain ⟨s', hs', ht⟩ := run_cons_eq_some.mp h
    rw [ih ht, hstep s l s' hs', collect_cons hs', List.foldl_append]

/-- **Simulation.**  Where every step of one system is matched by a step of another, under
a related label and to related states, so is a run. -/
theorem run_simulates {τ κ : Type*} {step' : τ → κ → Option τ} {R : σ → τ → Prop}
    {L : ℓ → κ → Prop}
    (hstep : ∀ s s' l l' t, R s s' → L l l' → step s l = some t →
      ∃ t', step' s' l' = some t' ∧ R t t')
    {s t : σ} {s' : τ} {ls : List ℓ} {ls' : List κ} (hs : R s s') (hls : List.Forall₂ L ls ls')
    (h : run step s ls = some t) : ∃ t', run step' s' ls' = some t' ∧ R t t' := by
  induction hls generalizing s s' with
  | nil =>
    cases h
    exact ⟨s', rfl, hs⟩
  | cons hl hls ih =>
    obtain ⟨m, hm, h⟩ := run_cons_eq_some.mp h
    obtain ⟨m', hm', hR⟩ := hstep _ _ _ _ _ hs hl hm
    obtain ⟨t', ht', ht⟩ := ih hR h
    exact ⟨t', run_cons_eq_some.mpr ⟨m', hm', ht'⟩, ht⟩

end Partial

/-! ## Total steps -/

section Total

variable (f : σ → ℓ → σ) (P : σ → ℓ → Prop)

/-- Every step of the fold satisfies the condition. -/
def Along : σ → List ℓ → Prop
  | _, [] => True
  | s, a :: l => P s a ∧ Along (f s a) l

variable {f P}

theorem foldl_invariant {I : σ → Prop} (hstep : ∀ s a, I s → P s a → I (f s a)) {s : σ}
    {l : List ℓ} (hs : I s) (hP : Along f P s l) : I (l.foldl f s) := by
  induction l generalizing s with
  | nil => exact hs
  | cons a l ih => exact ih (hstep s a hs hP.1) hP.2

/-- The rule without a condition. -/
theorem foldl_invariant' {I : σ → Prop} (hstep : ∀ s a, I s → I (f s a)) {s : σ} {l : List ℓ}
    (hs : I s) : I (l.foldl f s) := by
  induction l generalizing s with
  | nil => exact hs
  | cons a l ih => exact ih (hstep s a hs)

/-- **What a fold appends**, where every step appends to a list what it takes from its
element. -/
theorem foldl_appends {β : Type*} {r : σ → List β} {g : ℓ → List β}
    (hstep : ∀ s a, r (f s a) = r s ++ g a) (s : σ) (l : List ℓ) :
    r (l.foldl f s) = r s ++ l.flatMap g := by
  rw [List.flatMap_def, ← List.foldl_append_eq_append]
  exact (List.foldl_hom r fun s a => (hstep s a).symm).symm

/-- **Relations between the ends.**  A preorder that every step respects relates the
state before a fold to the state after it. -/
theorem foldl_relates {R : σ → σ → Prop} (hrefl : ∀ s, R s s)
    (htrans : ∀ {s t u}, R s t → R t u → R s u) (hstep : ∀ s a, P s a → R s (f s a)) {s : σ}
    {l : List ℓ} (hP : Along f P s l) : R s (l.foldl f s) := by
  induction l generalizing s with
  | nil => exact hrefl s
  | cons a l ih => exact htrans (hstep s a hP.1) (ih hP.2)

/-- A prefix of a fold that meets the condition meets it. -/
theorem Along.left {s : σ} {l l' : List ℓ} (h : Along f P s (l ++ l')) : Along f P s l := by
  induction l generalizing s with
  | nil => exact trivial
  | cons a l ih => exact ⟨h.1, ih h.2⟩

/-- And so does the rest, from where the prefix leads. -/
theorem Along.right {s : σ} {l l' : List ℓ} (h : Along f P s (l ++ l')) :
    Along f P (l.foldl f s) l' := by
  induction l generalizing s with
  | nil => exact h
  | cons a l ih => exact ih h.2

theorem along_of_forall_mem {s : σ} {l : List ℓ} (h : ∀ a ∈ l, ∀ s, P s a) : Along f P s l := by
  induction l generalizing s with
  | nil => exact trivial
  | cons a l ih =>
    exact ⟨h a List.mem_cons_self s, ih fun b hb => h b (List.mem_cons_of_mem _ hb)⟩

/-- A condition that follows from an invariant. -/
theorem along_of_invariant {I : σ → Prop} (hstep : ∀ s a, I s → I (f s a))
    (hP : ∀ s a, I s → P s a) {s : σ} {l : List ℓ} (hs : I s) : Along f P s l := by
  induction l generalizing s with
  | nil => exact trivial
  | cons a l ih => exact ⟨hP s a hs, ih (hstep s a hs)⟩

end Total

end Transition

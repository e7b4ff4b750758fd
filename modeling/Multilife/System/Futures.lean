import Mathlib.Algebra.Order.BigOperators.Group.Finset
import Multilife.System.ThreadPool

/-!
# Waiting for the thread pool

`onTick` blocks until every future of a loop is ready.  No notification is lost: where there
are tasks, a worker is about to look at the queue or a `notify_one` is on its way to one
(`Attended`), so a pool that can take no step by itself has nothing left to do.  And it cannot
take steps forever, since each of them brings `measure` down.

* `done_of_atRest`: a pool at rest has done its work.
* `rests_of_run`: left to itself the pool comes to rest, with every task executed.
-/

namespace Multilife

open Transition

/-- How far a worker is from leaving. -/
def Worker.weight {τ : Type*} : Worker τ → ℕ
  | .exited => 0
  | .waiting => 1
  | .awake => 2
  | .running _ => 3

namespace Worker

variable {τ : Type*} (w : Worker τ) (pt : PackagedTask τ)

@[simp] theorem weight_awake : (awake : Worker τ).weight = 2 := rfl

@[simp] theorem weight_waiting : (waiting : Worker τ).weight = 1 := rfl

@[simp] theorem weight_running : (running pt).weight = 3 := rfl

@[simp] theorem weight_exited : (exited : Worker τ).weight = 0 := rfl

theorem weight_wake_le : w.wake.weight ≤ w.weight + 1 := by cases w <;> simp [wake]

end Worker

namespace ThreadPool

variable {ι τ : Type*} [DecidableEq ι] [Fintype ι] {s t : ThreadPool ι τ} {l : PoolLabel ι τ}
  {ls : List (PoolLabel ι τ)}

/-! ## No notification is lost -/

/-- Where there are tasks, somebody is about to look at the queue. -/
def Attended (s : ThreadPool ι τ) : Prop :=
  s.tasks ≠ [] →
    0 < s.notifyOnes ∨ ∃ i, s.workers i = .awake ∨ ∃ pt, s.workers i = .running pt

theorem attended_step [Nonempty ι] (horderly : Orderly s) (hs : Attended s)
    (h : s.step l = some t) : Attended t := by
  intro htasks
  cases turn_of_step h with
  | enqueue task => exact Or.inl s.notifyOnes.succ_pos
  | notifyOne i n hn hi => exact Or.inr ⟨i, Or.inl (Function.update_self ..)⟩
  | notifyNobody n hn hnobody =>
    have i := Classical.arbitrary ι
    refine Or.inr ⟨i, ?_⟩
    cases hw : s.workers i with
    | awake => exact Or.inl rfl
    | waiting => exact absurd hw ((s.workers i).isWaiting_eq_false.mp (hnobody i))
    | running pt => exact Or.inr ⟨pt, rfl⟩
    | exited => exact absurd (horderly.exited i hw).2 htasks
  | spurious i hi => exact Or.inr ⟨i, Or.inl (Function.update_self ..)⟩
  | waits i hi hstopping hnone => exact absurd hnone htasks
  | exits i hi hstopping hnone => exact absurd hnone htasks
  | takes i hi pt tasks hfront => exact Or.inr ⟨i, Or.inr ⟨pt, Function.update_self ..⟩⟩
  | finish i pt hi => exact Or.inr ⟨i, Or.inl (Function.update_self ..)⟩
  | shutdown hstopping => exact hs htasks
  | shutdownAgain hstopping => exact hs htasks
  | notifyAll hcall =>
    rcases hs htasks with hpos | ⟨i, hi | ⟨pt, hi⟩⟩
    · exact Or.inl hpos
    · exact Or.inr ⟨i, Or.inl (by simp [hi, Worker.wake])⟩
    · exact Or.inr ⟨i, Or.inr ⟨pt, by simp [hi, Worker.wake]⟩⟩
  | join hcall hexited => exact hs htasks

theorem attended_of_run [Nonempty ι] (horderly : Orderly s) (hs : Attended s)
    (hin : Always step InTime s ls) (h : run step s ls = some t) : Orderly t ∧ Attended t :=
  run_invariant (I := fun s => Orderly s ∧ Attended s)
    (fun _ _ _ hs hl h => ⟨orderly_step hs.1 hl h, attended_step hs.1 hs.2 h⟩) ⟨horderly, hs⟩ hin h

/-- The steps the pool takes by itself. -/
def isInternal : PoolLabel ι τ → Bool
  | .notifyOne _ | .workerLoop _ | .finish _ | .notifyAll | .join => true
  | .enqueue _ | .spurious _ | .shutdown => false

/-- The pool takes none of them. -/
def AtRest (s : ThreadPool ι τ) : Prop := ∀ l, isInternal l = true → s.step l = none

/-- **A pool at rest has done its work.** -/
theorem done_of_atRest (horderly : Orderly s) (hattended : Attended s) (hrest : AtRest s) :
    s.tasks = [] ∧ s.running = 0 ∧ (s.stopping = true → s.shutdownCall = .returned) := by
  have hawake : ∀ i, s.workers i ≠ .awake := by
    intro i hi
    have h := hrest (.workerLoop i) rfl
    simp [step, hi] at h
  have hrunning : ∀ i pt, s.workers i ≠ .running pt := by
    intro i pt hi
    have h := hrest (.finish i) rfl
    simp [step, hi] at h
  have hnotified : s.notifyOnes = 0 := by
    cases hn : s.notifyOnes with
    | zero => rfl
    | succ n =>
      have hnobody : ∀ i, s.workers i ≠ .waiting := by
        intro i hi
        have h := hrest (.notifyOne (some i)) rfl
        simp [step, hn, hi] at h
      have h := hrest (.notifyOne none) rfl
      simp [step, hn, hnobody] at h
  refine ⟨?_, Finset.sum_eq_zero fun i _ => ?_, fun hstopping => ?_⟩
  · by_contra htasks
    rcases hattended htasks with hpos | ⟨i, hi | ⟨pt, hi⟩⟩
    · exact absurd hnotified hpos.ne'
    · exact hawake i hi
    · exact hrunning i pt hi
  · cases hw : s.workers i with
    | running pt => exact absurd hw (hrunning i pt)
    | _ => rfl
  · cases hcall : s.shutdownCall with
    | none => exact absurd hcall (horderly.stopping.mp hstopping)
    | stopped =>
      have h := hrest .notifyAll rfl
      simp [step, hcall] at h
    | notified =>
      have hnobody := (horderly.notified hstopping).resolve_left (by simp [hcall])
      have hexited : ∀ i, s.workers i = .exited := by
        intro i
        cases hw : s.workers i with
        | awake => exact absurd hw (hawake i)
        | waiting => exact absurd hw (hnobody i)
        | running pt => exact absurd hw (hrunning i pt)
        | exited => rfl
      have h := hrest .join rfl
      simp [step, hcall, hexited] at h
    | returned => rfl

/-! ## The pool comes to rest -/

/-- What the pool has still to do, at most. -/
def measure (s : ThreadPool ι τ) : ℕ :=
  (∑ i, (s.workers i).weight) + 2 * s.tasks.length + 2 * s.notifyOnes +
    match s.shutdownCall with
    | .stopped => Fintype.card ι + 2
    | .notified => 1
    | _ => 0

/-- A worker that moves on, by its weight. -/
theorem weight_update {i : ι} {v : Worker τ} (hi : s.workers i = v) (w : Worker τ) :
    (∑ j, (Function.update s.workers i w j).weight) + v.weight =
      (∑ j, (s.workers j).weight) + w.weight :=
  hi ▸ Census.sum_update Worker.weight s.workers i w

omit [DecidableEq ι] in
/-- When all are notified, each worker is at most one step further from leaving. -/
theorem weight_wake_le (s : ThreadPool ι τ) :
    ∑ i, (s.workers i).wake.weight ≤ (∑ i, (s.workers i).weight) + Fintype.card ι :=
  calc ∑ i, (s.workers i).wake.weight ≤ ∑ i, ((s.workers i).weight + 1) :=
        Finset.sum_le_sum fun i _ => (s.workers i).weight_wake_le
    _ = (∑ i, (s.workers i).weight) + Fintype.card ι := by
        rw [Finset.sum_add_distrib, Finset.sum_const, Finset.card_univ, smul_eq_mul, mul_one]

theorem measure_step (hl : isInternal l = true) (h : s.step l = some t) : t.measure < s.measure := by
  cases turn_of_step h with
  | notifyOne i n hn hi =>
    have hsum := weight_update hi .awake
    simp only [Worker.weight_waiting, Worker.weight_awake] at hsum
    simp only [measure, hn]
    omega
  | notifyNobody n hn hnobody =>
    simp only [measure, hn]
    omega
  | waits i hi hstopping htasks =>
    have hsum := weight_update hi .waiting
    simp only [Worker.weight_waiting, Worker.weight_awake] at hsum
    simp only [measure]
    omega
  | exits i hi hstopping htasks =>
    have hsum := weight_update hi .exited
    simp only [Worker.weight_exited, Worker.weight_awake] at hsum
    simp only [measure]
    omega
  | takes i hi pt tasks htasks =>
    have hsum := weight_update hi (.running pt)
    simp only [Worker.weight_running, Worker.weight_awake] at hsum
    simp only [measure, htasks, List.length_cons]
    omega
  | finish i pt hi =>
    have hsum := weight_update hi .awake
    simp only [Worker.weight_running, Worker.weight_awake] at hsum
    simp only [measure]
    omega
  | notifyAll hcall =>
    have hsum := weight_wake_le s
    simp only [measure, hcall]
    omega
  | join hcall hexited =>
    simp only [measure, hcall]
    omega
  | enqueue task => cases hl
  | spurious i hi => cases hl
  | shutdown hstopping => cases hl
  | shutdownAgain hstopping => cases hl

omit [DecidableEq ι] [Fintype ι] in
/-- Steps the pool takes by itself enqueue nothing. -/
theorem enqueued_eq_nil (hl : isInternal l = true) (s : ThreadPool ι τ) : s.enqueued l = [] := by
  cases l with
  | enqueue task => cases hl
  | _ => rfl

/-- **The pool comes to rest** if it has a worker, from wherever a run has brought it: left to
itself it takes no more steps than `measure` says, and when it can take none, every task has been
executed and a call of `shutdown` has returned. -/
theorem rests_of_run [Nonempty ι] {ls₀ : List (PoolLabel ι τ)}
    (h₀ : run step ({} : ThreadPool ι τ) ls₀ = some s) (hin : Always step InTime {} ls₀)
    (hinternal : ∀ l ∈ ls, isInternal l = true) (h : run step s ls = some t) :
    ls.length ≤ s.measure ∧
      (AtRest t → (collect step executed {} (ls₀ ++ ls)).Perm (collect step enqueued {} ls₀) ∧
        (t.stopping = true → t.shutdownCall = .returned)) := by
  have hstart : Attended ({} : ThreadPool ι τ) := fun htasks => absurd rfl htasks
  obtain ⟨hs, hsattended⟩ := attended_of_run orderly_start hstart hin h₀
  have hintime : Always step InTime s ls :=
    always_of_forall_mem (P := InTime) (fun l hl s _ => enqueued_eq_nil (hinternal l hl) s) s
  obtain ⟨ht, htattended⟩ := attended_of_run hs hsattended hintime h
  have hbound := length_le_of_measure (P := fun _ l => isInternal l = true)
    (fun s l s' hl h => measure_step hl h) (always_of_forall_mem (fun l hl _ => hinternal l hl) s) h
  refine ⟨le_trans (Nat.le_add_right _ _) hbound, fun hrest => ?_⟩
  obtain ⟨htasks, hrunning, hreturned⟩ := done_of_atRest ht htattended hrest
  refine ⟨Multiset.coe_eq_coe.mp ?_, hreturned⟩
  have hconserved := conserved_of_run (run_append.mpr ⟨s, h₀, h⟩)
  rw [htasks, hrunning, collect_append h₀ (f := enqueued),
    collect_eq_nil (fun l hl s => enqueued_eq_nil (hinternal l hl) s) s, List.append_nil] at hconserved
  simpa [running] using hconserved

/-- With two workers and two tasks, from `shutdown` on. -/
theorem rests_of_run_twoWorkers : ∃ s t : ThreadPool Bool ℕ,
    run step {} (twoWorkers.take 6) = some s ∧ run step s (twoWorkers.drop 6) = some t ∧
      s.shutdownCall = .stopped ∧ t.shutdownCall = .returned ∧
        (collect step executed ({} : ThreadPool Bool ℕ) twoWorkers).Perm [⟨0, 5⟩, ⟨1, 7⟩] := by
  obtain ⟨s, hs, hstopped⟩ : ∃ s, run step ({} : ThreadPool Bool ℕ) (twoWorkers.take 6) = some s ∧
      s.shutdownCall = .stopped := ⟨_, rfl, rfl⟩
  obtain ⟨t, ht, hrest, hstopping⟩ : ∃ t, run step s (twoWorkers.drop 6) = some t ∧ t.AtRest ∧
      t.stopping = true := by
    cases hs
    refine ⟨_, rfl, fun l hl => ?_, rfl⟩
    cases l with
    | workerLoop i => cases i <;> rfl
    | finish i => cases i <;> rfl
    | notifyOne woken => cases woken <;> rfl
    | notifyAll => rfl
    | join => rfl
    | enqueue task => cases hl
    | spurious i => cases hl
    | shutdown => cases hl
  obtain ⟨-, hdone⟩ := rests_of_run hs (by decide) (by decide) ht
  obtain ⟨hperm, hreturned⟩ := hdone hrest
  exact ⟨s, t, hs, ht, hstopped, hreturned hstopping, hperm⟩

end ThreadPool
end Multilife

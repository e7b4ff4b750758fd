import Mathlib.Algebra.BigOperators.Fin
import Multilife.Foundations.Census
import Multilife.Foundations.Transition

/-!
# The thread pool

`ThreadPool.cpp`, one atomic step at a time: any number of workers, any threads that call
`enqueue`, and the one call of `shutdown` that finds `m_stopping` unset.  What a thread does
under the lock is one step; `notify_one`, `notify_all`, the joins and the task itself come
after the lock is released and are steps of their own.  A worker waits until it is notified
or wakes up for nothing, and then looks again.

A `packaged_task` is known by the future it belongs to, the number of the call of `enqueue`.

* `conserved_of_run`: what has been executed, what is queued and what is running is what was
  enqueued.
* `taken_of_run`: the workers take the tasks in the order of the calls.
* `Orderly`: how the flag, the workers and `shutdown` hang together.
* `run_threadPool`: no task is lost or executed twice, and when the workers have exited every
  task has been executed.
-/

namespace Multilife

open Transition

/-- `std::packaged_task<void()>`, with its future. -/
structure PackagedTask (τ : Type*) where
  future : ℕ
  task : τ
  deriving DecidableEq

/-- Where a worker is in `workerLoop`: before the lock, in `m_cv.wait`, behind the lock with
the task it took, or past its `return`. -/
inductive Worker (τ : Type*) where
  | awake
  | waiting
  | running (pt : PackagedTask τ)
  | exited
  deriving DecidableEq

/-- Where the call of `shutdown` is that sets `m_stopping`. -/
inductive ShutdownCall where
  | none
  | stopped
  | notified
  | returned
  deriving DecidableEq

/-- `ThreadPool`: `m_tasks`, `m_stopping` and the workers, with the number of futures handed
out, the calls of `enqueue` that have still to notify, and the call of `shutdown`. -/
structure ThreadPool (ι τ : Type*) where
  tasks : List (PackagedTask τ) := []
  stopping : Bool := false
  workers : ι → Worker τ := fun _ => .awake
  futures : ℕ := 0
  notifyOnes : ℕ := 0
  shutdownCall : ShutdownCall := .none

/-- The atomic steps. -/
inductive PoolLabel (ι τ : Type*) where
  /-- `enqueue` under the lock. -/
  | enqueue (task : τ)
  /-- Its `m_cv.notify_one()`, which unblocks one waiting worker, if there is one. -/
  | notifyOne (woken : Option ι)
  /-- A worker wakes up without a notification. -/
  | spurious (i : ι)
  /-- `workerLoop` under the lock. -/
  | workerLoop (i : ι)
  /-- A worker finishes `task()`. -/
  | finish (i : ι)
  /-- `shutdown` under the lock. -/
  | shutdown
  /-- Its `m_cv.notify_all()`. -/
  | notifyAll
  /-- Its loop of joins is through. -/
  | join

/-- A notification. -/
def Worker.wake {τ : Type*} : Worker τ → Worker τ
  | .waiting => .awake
  | w => w

def Worker.isWaiting {τ : Type*} : Worker τ → Bool
  | .waiting => true
  | _ => false

def Worker.isExited {τ : Type*} : Worker τ → Bool
  | .exited => true
  | _ => false

/-- The task a worker holds. -/
def Worker.held {τ : Type*} : Worker τ → Multiset (PackagedTask τ)
  | .running pt => {pt}
  | _ => 0

namespace Worker

variable {τ : Type*} (w : Worker τ) (pt : PackagedTask τ)

@[simp] theorem held_awake : (awake : Worker τ).held = 0 := rfl

@[simp] theorem held_waiting : (waiting : Worker τ).held = 0 := rfl

@[simp] theorem held_running : (running pt).held = {pt} := rfl

@[simp] theorem held_exited : (exited : Worker τ).held = 0 := rfl

@[simp] theorem held_wake : w.wake.held = w.held := by cases w <;> rfl

@[simp] theorem wake_eq_exited : w.wake = exited ↔ w = exited := by cases w <;> simp [wake]

@[simp] theorem wake_ne_waiting : w.wake ≠ waiting := by cases w <;> simp [wake]

@[simp] theorem isExited_iff : w.isExited = true ↔ w = exited := by cases w <;> simp [isExited]

@[simp] theorem isWaiting_eq_false : w.isWaiting = false ↔ w ≠ waiting := by
  cases w <;> simp [isWaiting]

end Worker

namespace ThreadPool

variable {ι τ : Type*} [DecidableEq ι]

/-! ## The steps -/

def enqueue (task : τ) (s : ThreadPool ι τ) : ThreadPool ι τ :=
  { s with
    tasks := s.tasks ++ [⟨s.futures, task⟩]
    futures := s.futures + 1
    notifyOnes := s.notifyOnes + 1 }

def shutdown (s : ThreadPool ι τ) : ThreadPool ι τ :=
  if s.stopping then s else { s with stopping := true, shutdownCall := .stopped }

/-- `workerLoop`, from the lock to its release. -/
def workerLoop (i : ι) (s : ThreadPool ι τ) : ThreadPool ι τ :=
  if ¬ (s.stopping = true ∨ s.tasks ≠ []) then
    { s with workers := Function.update s.workers i .waiting }
  else
    match s.tasks with
    -- the wait is over and there is no task, so `m_stopping` is set
    | [] => { s with workers := Function.update s.workers i .exited }
    | pt :: tasks => { s with tasks := tasks, workers := Function.update s.workers i (.running pt) }

theorem worker_cases {s : ThreadPool ι τ} {i j : ι} {w v : Worker τ}
    (h : Function.update s.workers i w j = v) : w = v ∨ s.workers j = v := by
  rw [Function.update_apply] at h
  split_ifs at h
  · exact Or.inl h
  · exact Or.inr h

variable [Fintype ι]

def step (s : ThreadPool ι τ) : PoolLabel ι τ → Option (ThreadPool ι τ)
  | .enqueue task => some (s.enqueue task)
  | .notifyOne (some i) =>
    match s.notifyOnes, s.workers i with
    | n + 1, .waiting =>
      some { s with notifyOnes := n, workers := Function.update s.workers i .awake }
    | _, _ => none
  | .notifyOne none =>
    match s.notifyOnes with
    | n + 1 => if ∀ i, (s.workers i).isWaiting = false then some { s with notifyOnes := n } else none
    | 0 => none
  | .spurious i =>
    match s.workers i with
    | .waiting => some { s with workers := Function.update s.workers i .awake }
    | _ => none
  | .workerLoop i =>
    match s.workers i with
    | .awake => some (s.workerLoop i)
    | _ => none
  | .finish i =>
    match s.workers i with
    | .running _ => some { s with workers := Function.update s.workers i .awake }
    | _ => none
  | .shutdown => some s.shutdown
  | .notifyAll =>
    if s.shutdownCall = .stopped then
      some { s with workers := fun i => (s.workers i).wake, shutdownCall := .notified }
    else none
  | .join =>
    if s.shutdownCall = .notified ∧ ∀ i, (s.workers i).isExited = true then
      some { s with shutdownCall := .returned }
    else none

/-- What a step does, one constructor for each branch that lets it happen. -/
inductive Turn (s : ThreadPool ι τ) : PoolLabel ι τ → ThreadPool ι τ → Prop where
  | enqueue (task : τ) : Turn s (.enqueue task) (s.enqueue task)
  | notifyOne (i : ι) (n : ℕ) (hn : s.notifyOnes = n + 1) (hi : s.workers i = .waiting) :
    Turn s (.notifyOne (some i))
      { s with notifyOnes := n, workers := Function.update s.workers i .awake }
  | notifyNobody (n : ℕ) (hn : s.notifyOnes = n + 1)
      (hnobody : ∀ i, (s.workers i).isWaiting = false) :
    Turn s (.notifyOne none) { s with notifyOnes := n }
  | spurious (i : ι) (hi : s.workers i = .waiting) :
    Turn s (.spurious i) { s with workers := Function.update s.workers i .awake }
  | waits (i : ι) (hi : s.workers i = .awake) (hstopping : s.stopping = false)
      (htasks : s.tasks = []) :
    Turn s (.workerLoop i) { s with workers := Function.update s.workers i .waiting }
  | exits (i : ι) (hi : s.workers i = .awake) (hstopping : s.stopping = true)
      (htasks : s.tasks = []) :
    Turn s (.workerLoop i) { s with workers := Function.update s.workers i .exited }
  | takes (i : ι) (hi : s.workers i = .awake) (pt : PackagedTask τ) (tasks : List (PackagedTask τ))
      (htasks : s.tasks = pt :: tasks) :
    Turn s (.workerLoop i)
      { s with tasks := tasks, workers := Function.update s.workers i (.running pt) }
  | finish (i : ι) (pt : PackagedTask τ) (hi : s.workers i = .running pt) :
    Turn s (.finish i) { s with workers := Function.update s.workers i .awake }
  | shutdown (hstopping : s.stopping = false) :
    Turn s .shutdown { s with stopping := true, shutdownCall := .stopped }
  | shutdownAgain (hstopping : s.stopping = true) : Turn s .shutdown s
  | notifyAll (hcall : s.shutdownCall = .stopped) :
    Turn s .notifyAll
      { s with workers := fun i => (s.workers i).wake, shutdownCall := .notified }
  | join (hcall : s.shutdownCall = .notified) (hexited : ∀ i, (s.workers i).isExited = true) :
    Turn s .join { s with shutdownCall := .returned }

theorem turn_of_step {s t : ThreadPool ι τ} {l : PoolLabel ι τ} (h : s.step l = some t) :
    s.Turn l t := by
  cases l with
  | enqueue task =>
    cases h
    exact .enqueue task
  | notifyOne woken =>
    cases woken with
    | none =>
      simp only [step] at h
      split at h
      · next n hn =>
        split_ifs at h with hnobody
        cases h
        exact .notifyNobody n hn hnobody
      · cases h
    | some i =>
      simp only [step] at h
      split at h
      · next n hn hi =>
        cases h
        exact .notifyOne i n hn hi
      · cases h
  | spurious i =>
    simp only [step] at h
    split at h
    · next hi =>
      cases h
      exact .spurious i hi
    · cases h
  | workerLoop i =>
    simp only [step] at h
    split at h
    · next hi =>
      cases h
      unfold workerLoop
      split_ifs with hready
      · split
        · next htasks => exact .exits i hi (by simpa [htasks] using hready) htasks
        · next pt tasks htasks => exact .takes i hi pt tasks htasks
      · exact .waits i hi (by simpa using fun h => hready (Or.inl h))
          (by simpa using fun h => hready (Or.inr h))
    · cases h
  | finish i =>
    simp only [step] at h
    split at h
    · next pt hi =>
      cases h
      exact .finish i pt hi
    · cases h
  | shutdown =>
    cases h
    unfold shutdown
    split_ifs with hstopping
    · exact .shutdownAgain hstopping
    · exact .shutdown (by simpa using hstopping)
  | notifyAll =>
    simp only [step] at h
    split_ifs at h with hcall
    cases h
    exact .notifyAll hcall
  | join =>
    simp only [step] at h
    split_ifs at h with hcall
    cases h
    exact .join hcall.1 hcall.2

/-! ## What a run has done -/

/-- The task a step enqueues. -/
def enqueued (s : ThreadPool ι τ) : PoolLabel ι τ → List (PackagedTask τ)
  | .enqueue task => [⟨s.futures, task⟩]
  | _ => []

/-- The task a step finishes. -/
def executed (s : ThreadPool ι τ) : PoolLabel ι τ → List (PackagedTask τ)
  | .finish i =>
    match s.workers i with
    | .running pt => [pt]
    | _ => []
  | _ => []

/-- The tasks the workers hold. -/
def running (s : ThreadPool ι τ) : Multiset (PackagedTask τ) := ∑ i, (s.workers i).held

/-- One worker moves on. -/
theorem running_update (s : ThreadPool ι τ) (i : ι) (w : Worker τ) :
    (∑ j, (Function.update s.workers i w j).held) + (s.workers i).held = s.running + w.held :=
  Census.sum_update Worker.held s.workers i w

variable {s t : ThreadPool ι τ} {l : PoolLabel ι τ} {ls : List (PoolLabel ι τ)}

/-- A worker that holds nothing before and after. -/
theorem running_update_of_idle {i : ι} {w : Worker τ} (hi : (s.workers i).held = 0)
    (hw : w.held = 0) : (∑ j, (Function.update s.workers i w j).held) = s.running := by
  have h := s.running_update i w
  rwa [hi, hw, add_zero, add_zero] at h

/-- **One step**, by what it finishes and enqueues. -/
theorem conserved_step (h : s.step l = some t) :
    (s.executed l : Multiset (PackagedTask τ)) + (t.tasks + t.running) =
      s.tasks + s.running + s.enqueued l := by
  cases turn_of_step h with
  | enqueue task =>
    have hrunning : (s.enqueue task).running = s.running := rfl
    rw [hrunning, enqueue, ← Multiset.coe_add, add_right_comm]
    exact zero_add _
  | notifyOne i n hn hi =>
    rw [running, running_update_of_idle (by simp [hi]) (by simp)]
    simp [executed, enqueued]
  | notifyNobody n hn hnobody => simp [executed, enqueued, running]
  | spurious i hi =>
    rw [running, running_update_of_idle (by simp [hi]) (by simp)]
    simp [executed, enqueued]
  | waits i hi hstopping htasks =>
    rw [running, running_update_of_idle (by simp [hi]) (by simp)]
    simp [executed, enqueued]
  | exits i hi hstopping htasks =>
    rw [running, running_update_of_idle (by simp [hi]) (by simp)]
    simp [executed, enqueued]
  | takes i hi pt tasks htasks =>
    have hrunning := s.running_update i (.running pt)
    simp only [hi, Worker.held_awake, Worker.held_running, add_zero] at hrunning
    rw [running, hrunning, htasks]
    simp [executed, enqueued, add_comm, ← Multiset.cons_coe]
  | finish i pt hi =>
    have hrunning := s.running_update i .awake
    simp only [hi, Worker.held_awake, Worker.held_running, add_zero] at hrunning
    rw [executed, hi, ← hrunning]
    simp [running, enqueued, add_comm, add_left_comm]
  | shutdown hstopping => simp [executed, enqueued, running]
  | shutdownAgain hstopping => simp [executed, enqueued]
  | notifyAll hcall => simp [executed, enqueued, running]
  | join hcall hexited => simp [executed, enqueued, running]

/-- **No task is lost or duplicated**, over every interleaving: what is executed, what is
queued and what is running is what was there and what was enqueued. -/
theorem conserved_of_run (h : run step s ls = some t) :
    (collect step executed s ls : Multiset (PackagedTask τ)) + (t.tasks + t.running) =
      s.tasks + s.running + collect step enqueued s ls := by
  induction ls generalizing s with
  | nil =>
    cases h
    simp
  | cons l ls ih =>
    obtain ⟨s', hs', ht⟩ := run_cons_eq_some.mp h
    rw [collect_cons hs', collect_cons hs', ← Multiset.coe_add, ← Multiset.coe_add, add_assoc, ih ht,
      ← add_assoc, conserved_step hs', add_assoc]

/-- The task a step takes from the queue. -/
def taken (s : ThreadPool ι τ) : PoolLabel ι τ → List (PackagedTask τ)
  | .workerLoop i =>
    match s.workers i with
    | .awake => s.tasks.head?.toList
    | _ => []
  | _ => []

theorem taken_step (h : s.step l = some t) : s.taken l ++ t.tasks = s.tasks ++ s.enqueued l := by
  cases turn_of_step h with
  | waits i hi hstopping htasks => simp [taken, enqueued, hi, htasks]
  | exits i hi hstopping htasks => simp [taken, enqueued, hi, htasks]
  | takes i hi pt tasks htasks => simp [taken, enqueued, hi, htasks]
  | _ => simp [taken, enqueued, enqueue]

/-- **Tasks are taken in the order in which they were enqueued**, by whatever workers. -/
theorem taken_of_run (h : run step s ls = some t) :
    collect step taken s ls ++ t.tasks = s.tasks ++ collect step enqueued s ls :=
  collect_queue (φ := id) (ψ := id) (fun _ _ => rfl) (fun _ _ => rfl)
    (fun _ _ _ hstep => taken_step hstep) h

/-- Each call of `enqueue` makes a new future. -/
theorem futures_step (h : s.step l = some t) :
    (s.enqueued l).map PackagedTask.future = List.range' s.futures (s.enqueued l).length ∧
      t.futures = s.futures + (s.enqueued l).length := by
  cases turn_of_step h <;> exact ⟨rfl, rfl⟩

theorem futures_of_run (h : run step s ls = some t) :
    (collect step enqueued s ls).map PackagedTask.future =
      List.range' s.futures (collect step enqueued s ls).length := by
  induction ls generalizing s with
  | nil => rfl
  | cons l ls ih =>
    obtain ⟨s', hs', ht⟩ := run_cons_eq_some.mp h
    obtain ⟨hnew, hnext⟩ := futures_step hs'
    rw [collect_cons hs', List.map_append, ih ht, hnew, hnext, List.length_append,
      List.range'_append_1]

/-- No task is enqueued twice. -/
theorem nodup_enqueued (h : run step s ls = some t) : (collect step enqueued s ls).Nodup := by
  refine List.Nodup.of_map PackagedTask.future ?_
  rw [futures_of_run h]
  exact List.nodup_range'

/-! ## How the workers leave -/

/-- What the flag, the workers and the call of `shutdown` have to do with each other. -/
structure Orderly (s : ThreadPool ι τ) : Prop where
  /-- The flag is set by the call. -/
  stopping : s.stopping = true ↔ s.shutdownCall ≠ .none
  /-- A worker leaves when the flag is set and the queue is empty. -/
  exited : ∀ i, s.workers i = .exited → s.stopping = true ∧ s.tasks = []
  /-- The call returns when all have left. -/
  returned : s.shutdownCall = .returned → ∀ i, s.workers i = .exited
  /-- Once it has notified them, nobody waits. -/
  notified : s.stopping = true → s.shutdownCall = .stopped ∨ ∀ i, s.workers i ≠ .waiting

/-- The step does not enqueue to a pool that is stopping. -/
def InTime (s : ThreadPool ι τ) (l : PoolLabel ι τ) : Prop := s.stopping = true → s.enqueued l = []

instance (s : ThreadPool ι τ) (l : PoolLabel ι τ) : Decidable (s.InTime l) :=
  inferInstanceAs (Decidable (_ → _))

omit [DecidableEq ι] [Fintype ι] in
theorem orderly_start : Orderly ({} : ThreadPool ι τ) where
  stopping := ⟨fun h => Bool.noConfusion h, fun h => absurd rfl h⟩
  exited _ h := nomatch h
  returned h := nomatch h
  notified h := Bool.noConfusion h

omit [Fintype ι] in
/-- A worker that has not left goes on, without waiting. -/
theorem Orderly.go_on (hs : Orderly s) {i : ι} {w : Worker τ} {tasks : List (PackagedTask τ)}
    {n : ℕ} (hi : s.workers i ≠ .exited) (hexited : w ≠ .exited) (hwaiting : w ≠ .waiting)
    (htasks : s.tasks = [] → tasks = []) :
    Orderly
      { s with tasks := tasks, notifyOnes := n, workers := Function.update s.workers i w } where
  stopping := hs.stopping
  exited j hj := by
    obtain ⟨hstopping, hnone⟩ := hs.exited j ((worker_cases hj).resolve_left hexited)
    exact ⟨hstopping, htasks hnone⟩
  returned hcall := absurd (hs.returned hcall i) hi
  notified hstopping := (hs.notified hstopping).imp_right fun hnobody j hj =>
    hnobody j ((worker_cases hj).resolve_left hwaiting)

theorem orderly_step (hs : Orderly s) (hl : s.InTime l) (h : s.step l = some t) : Orderly t := by
  cases turn_of_step h with
  | enqueue task =>
    have hrunning : ¬ s.stopping = true := fun hstopping => List.cons_ne_nil _ _ (hl hstopping)
    exact
      { stopping := hs.stopping
        exited := fun i hi => absurd (hs.exited i hi).1 hrunning
        returned := hs.returned
        notified := hs.notified }
  | notifyOne i n hn hi => exact hs.go_on (by simp [hi]) (by simp) (by simp) id
  | notifyNobody n hn hnobody => exact ⟨hs.stopping, hs.exited, hs.returned, hs.notified⟩
  | spurious i hi => exact hs.go_on (by simp [hi]) (by simp) (by simp) id
  | waits i hi hstopping htasks =>
    refine ⟨hs.stopping, fun j hj => hs.exited j ((worker_cases hj).resolve_left (by simp)),
      fun hcall => ?_, fun h => ?_⟩
    · cases hi.symm.trans (hs.returned hcall i)
    · cases hstopping.symm.trans h
  | exits i hi hstopping htasks =>
    refine ⟨hs.stopping, fun j _ => ⟨hstopping, htasks⟩, fun hcall => ?_, fun _ => ?_⟩
    · cases hi.symm.trans (hs.returned hcall i)
    · exact (hs.notified hstopping).imp_right fun hnobody j hj =>
        hnobody j ((worker_cases hj).resolve_left (by simp))
  | takes i hi pt tasks htasks =>
    exact hs.go_on (by simp [hi]) (by simp) (by simp) (by simp [htasks])
  | finish i pt hi => exact hs.go_on (by simp [hi]) (by simp) (by simp) id
  | shutdown hstopping =>
    refine ⟨by simp, fun i hi => ⟨rfl, (hs.exited i hi).2⟩, fun hcall => ?_, fun _ => Or.inl rfl⟩
    cases hcall
  | shutdownAgain hstopping => exact hs
  | notifyAll hcall =>
    refine ⟨by simp [hs.stopping, hcall],
      fun i hi => hs.exited i ((s.workers i).wake_eq_exited.mp hi), fun h => ?_,
      fun _ => Or.inr fun i => (s.workers i).wake_ne_waiting⟩
    cases h
  | join hcall hexited =>
    have hall : ∀ i, s.workers i = .exited := fun i => (s.workers i).isExited_iff.mp (hexited i)
    exact ⟨by simp [hs.stopping, hcall], hs.exited, fun _ => hall, fun _ => Or.inr fun i => by simp [hall]⟩

theorem orderly_of_run (hs : Orderly s) (hin : Always step InTime s ls) (h : run step s ls = some t) :
    Orderly t :=
  run_invariant (fun _ _ _ hs hl h => orderly_step hs hl h) hs hin h

omit [DecidableEq ι] in
/-- Nobody runs a task when all have left. -/
theorem running_eq_zero (h : ∀ i, s.workers i = .exited) : s.running = 0 :=
  Finset.sum_eq_zero fun i _ => by simp [h i]

omit [DecidableEq ι] in
/-- The workers that run a task. -/
theorem count_running [DecidableEq τ] (pt : PackagedTask τ) :
    s.running.count pt = (Finset.univ.filter fun i => s.workers i = .running pt).card := by
  have hheld : ∀ w : Worker τ, w.held.count pt = if w = .running pt then 1 else 0 := by
    intro w
    cases w <;> simp [Multiset.count_singleton, eq_comm]
  rw [running, Multiset.count_sum', Finset.card_filter]
  exact Finset.sum_congr rfl fun i _ => hheld (s.workers i)

/-- **The thread pool**, over every number of workers and every interleaving.  Each enqueued
task is in one place: in the queue, with one worker, or executed, once; nothing else is.
Where nothing is enqueued after the flag is set, the workers have exited only when the queue
is empty and every task has been executed, and `shutdown` returns only when they have. -/
theorem run_threadPool [Nonempty ι] [DecidableEq τ]
    (h : run step ({} : ThreadPool ι τ) ls = some t) (hin : Always step InTime {} ls) :
    (∀ pt ∈ collect step enqueued {} ls,
      t.tasks.count pt + (Finset.univ.filter fun i => t.workers i = .running pt).card +
        (collect step executed {} ls).count pt = 1) ∧
    (∀ pt, pt ∈ t.tasks ∨ (∃ i, t.workers i = .running pt) ∨ pt ∈ collect step executed {} ls →
      pt ∈ collect step enqueued {} ls) ∧
    (collect step executed {} ls).Nodup ∧
    ((∀ i, t.workers i = .exited) → t.tasks = [] ∧
      (collect step executed {} ls).Perm (collect step enqueued {} ls)) ∧
    (t.shutdownCall = .returned → ∀ i, t.workers i = .exited) := by
  have hconserved := conserved_of_run h
  have horderly := orderly_of_run orderly_start hin h
  have hstart : (({} : ThreadPool ι τ).tasks : Multiset (PackagedTask τ)) +
      ({} : ThreadPool ι τ).running = 0 := by
    simp [running]
  rw [hstart, zero_add] at hconserved
  have hnodup := nodup_enqueued h
  have hcount : ∀ pt, t.tasks.count pt +
      (Finset.univ.filter fun i => t.workers i = .running pt).card +
        (collect step executed {} ls).count pt = (collect step enqueued {} ls).count pt := by
    intro pt
    rw [← count_running, ← Multiset.coe_count, ← Multiset.coe_count, ← Multiset.coe_count,
      ← hconserved, Multiset.count_add, Multiset.count_add]
    omega
  refine ⟨fun pt hpt => ?_, fun pt hpt => ?_, ?_, fun hexited => ?_, horderly.returned⟩
  · rw [hcount, List.count_eq_one_of_mem hnodup hpt]
  · refine List.count_pos_iff.mp ?_
    rw [← hcount]
    rcases hpt with hqueued | ⟨i, hi⟩ | hexecuted
    · have := List.count_pos_iff.mpr hqueued
      omega
    · have : 0 < (Finset.univ.filter fun i => t.workers i = .running pt).card :=
        Finset.card_pos.mpr ⟨i, by simpa using hi⟩
      omega
    · have := List.count_pos_iff.mpr hexecuted
      omega
  · refine List.nodup_iff_count_le_one.mpr fun pt => ?_
    have hle := List.nodup_iff_count_le_one.mp hnodup pt
    rw [← hcount] at hle
    omega
  · have htasks := (horderly.exited (Classical.arbitrary ι) (hexited _)).2
    refine ⟨htasks, Multiset.coe_eq_coe.mp ?_⟩
    rw [← hconserved, htasks, running_eq_zero hexited, Multiset.coe_nil, add_zero, add_zero]

/-- Two workers and two tasks: the second notification finds nobody waiting, and `shutdown`
sets the flag with both tasks on their way. -/
def twoWorkers : List (PoolLabel Bool ℕ) :=
  [.workerLoop false, .enqueue 5, .enqueue 7, .notifyOne (some false), .workerLoop false, .shutdown,
    .workerLoop true, .notifyOne none, .notifyAll, .finish true, .workerLoop true, .finish false,
    .workerLoop false, .join]

/-- Both have been executed when `shutdown` returns, the second one first. -/
theorem run_threadPool_twoWorkers : ∃ t : ThreadPool Bool ℕ,
    run step {} twoWorkers = some t ∧ t.tasks = [] ∧
      collect step executed ({} : ThreadPool Bool ℕ) twoWorkers = [⟨1, 7⟩, ⟨0, 5⟩] ∧
      (collect step executed ({} : ThreadPool Bool ℕ) twoWorkers).Perm [⟨0, 5⟩, ⟨1, 7⟩] := by
  obtain ⟨t, ht, hreturned⟩ : ∃ t, run step ({} : ThreadPool Bool ℕ) twoWorkers = some t ∧
      t.shutdownCall = .returned := ⟨_, rfl, rfl⟩
  obtain ⟨-, -, -, hexited, hall⟩ := run_threadPool ht (by decide)
  obtain ⟨htasks, hperm⟩ := hexited (hall hreturned)
  exact ⟨t, ht, htasks, rfl, hperm⟩

end ThreadPool
end Multilife

import Multilife.Refinement.Generation
import Multilife.System.Futures

/-!
# The loops of a tick

`onTick` enqueues one task for each chunk and then calls `get` on every future, once for
`calculateNext` and once more for `swapBuffers`, while the workers take the tasks in between.
`TickLoops` is the tick thread with its workers: what is enqueued, the futures that are ready,
and what the finished tasks have done.

* `Sound`: where the loops are, the tasks of the loops behind are done and those of this loop are
  queued, running or done.
* `run_tickLoops`: however the workers go about it, the loops never get stuck, and each of them
  does its tasks in some order, after those of the loop before.
* `simulate_of_run`: so what they have done to the chunks is the simulation step of the model.
-/

namespace Multilife

open Transition FiniteMap

/-- Where the tick thread is: in `futures.push_back(m_threadPool.enqueue(..))`, with the tasks to
come and the futures so far, or in `for (auto& f : futures) f.get()`. -/
inductive LoopPosition (τ : Type*) where
  | enqueuing (tasks : List τ) (futures : List ℕ)
  | getting (futures : List ℕ)

namespace LoopPosition

variable {τ : Type*}

/-- The tasks still to enqueue. -/
def tasks : LoopPosition τ → List τ
  | enqueuing tasks _ => tasks
  | getting _ => []

/-- The futures that have not been waited for. -/
def futures : LoopPosition τ → List ℕ
  | enqueuing _ futures => futures
  | getting futures => futures

/-- How many steps the loop has still to take, and the pool on its behalf. -/
def weight : LoopPosition τ → ℕ
  | enqueuing tasks futures => 6 * tasks.length + futures.length + 1
  | getting futures => futures.length

end LoopPosition

/-- The tick thread, the pool, what the tasks act on, the futures that are ready, and the tasks of
the loops to come. -/
structure TickLoops (ι τ α : Type*) where
  pool : ThreadPool ι τ
  chunks : α
  ready : List ℕ
  position : LoopPosition τ
  loops : List (List τ)

/-- The atomic steps. -/
inductive LoopLabel (ι τ : Type*) where
  /-- The next `enqueue`, or the end of their loop. -/
  | enqueue
  /-- The next `get`, which blocks until the future is ready, or the next loop. -/
  | get
  /-- A step of the workers. -/
  | pool (l : PoolLabel ι τ)

namespace ThreadPool

variable {ι τ : Type*} [DecidableEq ι]

/-- What happens without the tick thread: a `notify_one`, or a step of a worker. -/
def byWorkers : PoolLabel ι τ → Bool
  | .notifyOne _ | .spurious _ | .workerLoop _ | .finish _ => true
  | _ => false

variable [Fintype ι] {s t : ThreadPool ι τ} {l : PoolLabel ι τ}

/-- A pool in use: no notification is lost and nobody stops it. -/
structure Alive (s : ThreadPool ι τ) : Prop where
  orderly : s.Orderly
  attended : s.Attended
  running : s.stopping = false

theorem Alive.step [Nonempty ι] (hs : s.Alive) (hstopping : t.stopping = s.stopping)
    (h : s.step l = some t) : t.Alive where
  orderly := orderly_step hs.orderly (fun hstop => Bool.noConfusion (hs.running.symm.trans hstop)) h
  attended := attended_step hs.orderly hs.attended h
  running := hstopping.trans hs.running

/-- What the workers do not touch. -/
theorem stopping_of_byWorkers (hl : byWorkers l = true) (h : s.step l = some t) :
    t.stopping = s.stopping ∧ t.futures = s.futures ∧ s.enqueued l = [] := by
  cases turn_of_step h with
  | enqueue task => cases hl
  | shutdown hstopping => cases hl
  | shutdownAgain hstopping => cases hl
  | notifyAll hcall => cases hl
  | join hcall hexited => cases hl
  | _ => exact ⟨rfl, rfl, rfl⟩

/-- A pool between two ticks. -/
structure Idle (s : ThreadPool ι τ) : Prop where
  alive : s.Alive
  tasks : s.tasks = []
  running : s.running = 0

omit [DecidableEq ι] in
theorem idle_start : Idle ({} : ThreadPool ι τ) where
  alive := ⟨orderly_start, fun htasks => absurd rfl htasks, rfl⟩
  tasks := rfl
  running := Finset.sum_eq_zero fun _ _ => rfl

/-- **One step**, by what has been executed and enqueued so far. -/
theorem conserved_concat {enqueued₀ executed₀ : List (PackagedTask τ)}
    (hs : (executed₀ : Multiset (PackagedTask τ)) + (s.tasks + s.running) = enqueued₀)
    (h : s.step l = some t) :
    ((executed₀ ++ s.executed l : List (PackagedTask τ)) : Multiset (PackagedTask τ)) +
      (t.tasks + t.running) = (enqueued₀ ++ s.enqueued l : List (PackagedTask τ)) := by
  rw [← Multiset.coe_add, ← Multiset.coe_add, add_assoc, conserved_step h, ← add_assoc, hs]

end ThreadPool

namespace TickLoops

variable {ι τ α : Type*} [DecidableEq ι] [Fintype ι] (act : τ → α → α)

/-- The first of the loops begins. -/
def start (pool : ThreadPool ι τ) (chunks : α) (tasks : List τ) (loops : List (List τ)) :
    TickLoops ι τ α where
  pool := pool
  chunks := chunks
  ready := []
  position := .enqueuing tasks []
  loops := loops

/-- The last of them is over. -/
def Finished (s : TickLoops ι τ α) : Prop := s.position = .getting [] ∧ s.loops = []

/-- A task acts on the chunks when it is finished. -/
def step (s : TickLoops ι τ α) : LoopLabel ι τ → Option (TickLoops ι τ α)
  | .enqueue =>
    match s.position with
    | .enqueuing (task :: tasks) futures => some
      { s with
        pool := s.pool.enqueue task
        position := .enqueuing tasks (futures ++ [s.pool.futures]) }
    | .enqueuing [] futures => some { s with position := .getting futures }
    | .getting _ => none
  | .get =>
    match s.position, s.loops with
    | .getting (future :: futures), _ =>
      if future ∈ s.ready then some { s with position := .getting futures } else none
    | .getting [], tasks :: loops => some { s with position := .enqueuing tasks [], loops := loops }
    | .getting [], [] => none
    | .enqueuing _ _, _ => none
  | .pool l =>
    if ThreadPool.byWorkers l = true then
      (s.pool.step l).map fun pool =>
        { s with
          pool := pool
          chunks := ((s.pool.executed l).map PackagedTask.task).foldl (fun a task => act task a) s.chunks
          ready := s.ready ++ (s.pool.executed l).map PackagedTask.future }
    else none

/-- What a step does, one constructor for each branch that lets it happen. -/
inductive Turn (s : TickLoops ι τ α) : LoopLabel ι τ → TickLoops ι τ α → Prop where
  | enqueues (task : τ) (tasks : List τ) (futures : List ℕ)
      (hposition : s.position = .enqueuing (task :: tasks) futures) :
    Turn s .enqueue
      { s with
        pool := s.pool.enqueue task
        position := .enqueuing tasks (futures ++ [s.pool.futures]) }
  | enqueued (futures : List ℕ) (hposition : s.position = .enqueuing [] futures) :
    Turn s .enqueue { s with position := .getting futures }
  | gets (future : ℕ) (futures : List ℕ) (hposition : s.position = .getting (future :: futures))
      (hready : future ∈ s.ready) : Turn s .get { s with position := .getting futures }
  | begins (tasks : List τ) (loops : List (List τ)) (hposition : s.position = .getting [])
      (hloops : s.loops = tasks :: loops) :
    Turn s .get { s with position := .enqueuing tasks [], loops := loops }
  | works (l : PoolLabel ι τ) (pool : ThreadPool ι τ) (hl : ThreadPool.byWorkers l = true)
      (hpool : s.pool.step l = some pool) :
    Turn s (.pool l)
      { s with
        pool := pool
        chunks := ((s.pool.executed l).map PackagedTask.task).foldl (fun a task => act task a) s.chunks
        ready := s.ready ++ (s.pool.executed l).map PackagedTask.future }

variable {act} {s t : TickLoops ι τ α} {l : LoopLabel ι τ} {ls : List (LoopLabel ι τ)}

theorem turn_of_step (h : s.step act l = some t) : s.Turn act l t := by
  cases l with
  | enqueue =>
    simp only [step] at h
    split at h
    · next task tasks futures hposition =>
      cases h
      exact .enqueues task tasks futures hposition
    · next futures hposition =>
      cases h
      exact .enqueued futures hposition
    · cases h
  | get =>
    simp only [step] at h
    split at h
    · next future futures hposition =>
      split_ifs at h with hready
      cases h
      exact .gets future futures hposition hready
    · next tasks loops hposition hloops =>
      cases h
      exact .begins tasks loops hposition hloops
    · cases h
    · cases h
  | pool l =>
    simp only [step] at h
    split_ifs at h with hl
    obtain ⟨pool, hpool, rfl⟩ := Option.map_eq_some_iff.mp h
    exact .works l pool hl hpool

/-! ## Where the loops are -/

/-- The loops from `a` on, when those of `past` are over and the tasks `enqueued` of the current
one have been `executed`. -/
structure Sound (act : τ → α → α) (a : α) (loops : List (List τ)) (s : TickLoops ι τ α)
    (past : List (List τ)) (enqueued executed : List (PackagedTask τ)) : Prop where
  /-- Each loop does the tasks it is given, in some order. -/
  perm : (past ++ (enqueued.map PackagedTask.task ++ s.position.tasks) :: s.loops).map
    Multiset.ofList = loops.map Multiset.ofList
  /-- What has not been waited for belongs to this loop. -/
  futures : ∀ future ∈ s.position.futures, future ∈ enqueued.map PackagedTask.future
  /-- A task that may not be done has its future to be waited for. -/
  awaited : ∀ pt ∈ enqueued, pt.future ∈ s.ready ∨ pt.future ∈ s.position.futures
  /-- A task of this loop is done when its future is ready. -/
  done : ∀ pt ∈ enqueued, pt.future ∈ s.ready ↔ pt ∈ executed
  conserved : (executed : Multiset (PackagedTask τ)) + (s.pool.tasks + s.pool.running) = enqueued
  chunks : s.chunks =
    (past.flatten ++ executed.map PackagedTask.task).foldl (fun a task => act task a) a
  nodup : (enqueued.map PackagedTask.future).Nodup
  fresh : ∀ pt ∈ enqueued, pt.future < s.pool.futures
  past : ∀ future ∈ s.ready, future < s.pool.futures

variable {a : α} {loops : List (List τ)} {past : List (List τ)}
  {enqueued executed : List (PackagedTask τ)}

omit [DecidableEq ι] in
/-- Executed tasks are enqueued before. -/
theorem Sound.mem_enqueued (hs : Sound act a loops s past enqueued executed) {pt : PackagedTask τ}
    (hpt : pt ∈ executed) : pt ∈ enqueued := by
  rw [← Multiset.mem_coe, ← hs.conserved]
  exact Multiset.mem_add.mpr (Or.inl hpt)

omit [DecidableEq ι] in
/-- When all futures are ready, the tasks of this loop are done and the pool is empty. -/
theorem Sound.perm_of_ready (hs : Sound act a loops s past enqueued executed)
    (hready : ∀ future ∈ s.position.futures, future ∈ s.ready) :
    executed.Perm enqueued ∧ s.pool.tasks = [] ∧ s.pool.running = 0 := by
  have hall : ∀ pt ∈ enqueued, pt ∈ executed := fun pt hpt =>
    (hs.done pt hpt).mp ((hs.awaited pt hpt).elim id (hready _))
  have hle : (enqueued : Multiset (PackagedTask τ)) ≤ executed :=
    Multiset.coe_le.mpr ((List.Nodup.of_map _ hs.nodup).subperm hall)
  have hrest : (s.pool.tasks : Multiset (PackagedTask τ)) + s.pool.running = 0 := by
    rw [← hs.conserved] at hle
    exact Multiset.le_zero.mp (le_of_add_le_add_left (hle.trans (add_zero _).ge))
  obtain ⟨htasks, hrunning⟩ := add_eq_zero.mp hrest
  refine ⟨Multiset.coe_eq_coe.mp ?_, (Multiset.coe_eq_zero _).mp htasks, hrunning⟩
  rw [← hs.conserved, hrest, add_zero]

/-- The next task is enqueued. -/
theorem Sound.enqueues (hs : Sound act a loops s past enqueued executed) {task : τ} {tasks : List τ}
    {futures : List ℕ} (hposition : s.position = .enqueuing (task :: tasks) futures) :
    Sound act a loops
      { s with
        pool := s.pool.enqueue task
        position := .enqueuing tasks (futures ++ [s.pool.futures]) }
      past (enqueued ++ [⟨s.pool.futures, task⟩]) executed where
  perm := by
    have hperm := hs.perm
    rw [hposition] at hperm
    simpa [LoopPosition.tasks] using hperm
  futures future hfuture := by
    have hfutures := hs.futures
    rw [hposition] at hfutures
    rw [List.map_append]
    rcases List.mem_append.mp hfuture with hfuture | hfuture
    · exact List.mem_append_left _ (hfutures future hfuture)
    · exact List.mem_append_right _ hfuture
  awaited pt hpt := by
    have hawaited := hs.awaited
    rw [hposition] at hawaited
    rcases List.mem_append.mp hpt with hpt | hpt
    · exact (hawaited pt hpt).imp_right (List.mem_append_left _)
    · cases List.mem_singleton.mp hpt
      exact Or.inr (List.mem_append_right _ List.mem_cons_self)
  done pt hpt := by
    rcases List.mem_append.mp hpt with hpt | hpt
    · exact hs.done pt hpt
    · cases List.mem_singleton.mp hpt
      exact ⟨fun hready => absurd (hs.past _ hready) (lt_irrefl _),
        fun hexecuted => absurd (hs.fresh _ (hs.mem_enqueued hexecuted)) (lt_irrefl _)⟩
  conserved := by
    have hstep := ThreadPool.conserved_concat (l := .enqueue task) hs.conserved rfl
    rwa [show s.pool.executed (.enqueue task) = [] from rfl, List.append_nil] at hstep
  chunks := hs.chunks
  nodup := by
    rw [List.map_append, List.nodup_append]
    refine ⟨hs.nodup, List.nodup_singleton _, fun future hfuture future' hfuture' heq => ?_⟩
    obtain ⟨pt, hpt, rfl⟩ := List.mem_map.mp hfuture
    cases List.mem_singleton.mp hfuture'
    exact absurd (heq ▸ hs.fresh pt hpt) (lt_irrefl _)
  fresh pt hpt := by
    rcases List.mem_append.mp hpt with hpt | hpt
    · exact (hs.fresh pt hpt).trans (Nat.lt_succ_self _)
    · cases List.mem_singleton.mp hpt
      exact Nat.lt_succ_self _
  past future hfuture := (hs.past future hfuture).trans (Nat.lt_succ_self _)

/-- The workers take a step. -/
theorem Sound.works (hs : Sound act a loops s past enqueued executed) {l : PoolLabel ι τ}
    {pool : ThreadPool ι τ} (hl : ThreadPool.byWorkers l = true) (h : s.pool.step l = some pool) :
    Sound act a loops
      { s with
        pool := pool
        chunks := ((s.pool.executed l).map PackagedTask.task).foldl (fun a task => act task a) s.chunks
        ready := s.ready ++ (s.pool.executed l).map PackagedTask.future }
      past enqueued (executed ++ s.pool.executed l) := by
  obtain ⟨-, hfutures, henqueued⟩ := ThreadPool.stopping_of_byWorkers hl h
  have hconserved := ThreadPool.conserved_concat hs.conserved h
  rw [henqueued, List.append_nil] at hconserved
  have hmem : ∀ pt ∈ executed ++ s.pool.executed l, pt ∈ enqueued := by
    intro pt hpt
    rw [← Multiset.mem_coe, ← hconserved]
    exact Multiset.mem_add.mpr (Or.inl hpt)
  exact
    { perm := hs.perm
      futures := hs.futures
      awaited := fun pt hpt => (hs.awaited pt hpt).imp_left (List.mem_append_left _)
      done := by
        intro pt hpt
        rw [List.mem_append, List.mem_append, hs.done pt hpt]
        refine or_congr Iff.rfl ⟨fun hready => ?_, fun hpt => List.mem_map_of_mem hpt⟩
        obtain ⟨pt', hpt', heq⟩ := List.mem_map.mp hready
        -- the future tells which task it is
        have hsame := List.inj_on_of_nodup_map hs.nodup (hmem pt' (List.mem_append_right _ hpt')) hpt heq
        exact hsame ▸ hpt'
      conserved := hconserved
      chunks := by
        rw [List.map_append, ← List.append_assoc, List.foldl_append, ← hs.chunks]
      nodup := hs.nodup
      fresh := fun pt hpt => hfutures ▸ hs.fresh pt hpt
      past := by
        intro future hfuture
        rw [hfutures]
        rcases List.mem_append.mp hfuture with hfuture | hfuture
        · exact hs.past future hfuture
        · obtain ⟨pt, hpt, rfl⟩ := List.mem_map.mp hfuture
          exact hs.fresh pt (hmem pt (List.mem_append_right _ hpt)) }

omit [DecidableEq ι] in
/-- The next loop begins. -/
theorem Sound.begins (hs : Sound act a loops s past enqueued executed) {tasks : List τ}
    {rest : List (List τ)} (hposition : s.position = .getting []) (hloops : s.loops = tasks :: rest) :
    Sound act a loops { s with position := .enqueuing tasks [], loops := rest }
      (past ++ [executed.map PackagedTask.task]) [] [] := by
  obtain ⟨hperm, htasks, hrunning⟩ := hs.perm_of_ready (by simp [hposition, LoopPosition.futures])
  exact
    { perm := by
        have hall := hs.perm
        rw [hposition, hloops, LoopPosition.tasks, List.append_nil] at hall
        rw [← hall]
        simp [LoopPosition.tasks, hperm.map PackagedTask.task]
      futures := fun future hfuture => absurd hfuture List.not_mem_nil
      awaited := fun pt hpt => absurd hpt List.not_mem_nil
      done := fun pt hpt => absurd hpt List.not_mem_nil
      conserved := by simp [htasks, hrunning]
      chunks := by
        rw [hs.chunks]
        simp
      nodup := List.nodup_nil
      fresh := fun pt hpt => absurd hpt List.not_mem_nil
      past := hs.past }

omit [DecidableEq ι] in
theorem sound_start {pool : ThreadPool ι τ} (hpool : pool.Idle) (tasks : List τ) :
    Sound act a (tasks :: loops) (start pool a tasks loops) [] [] [] where
  perm := rfl
  futures future hfuture := absurd hfuture List.not_mem_nil
  awaited pt hpt := absurd hpt List.not_mem_nil
  done pt hpt := absurd hpt List.not_mem_nil
  conserved := by simp [start, hpool.tasks, hpool.running]
  chunks := rfl
  nodup := List.nodup_nil
  fresh pt hpt := absurd hpt List.not_mem_nil
  past future hfuture := absurd hfuture List.not_mem_nil

/-- The loops are on their way, with a pool that works. -/
structure Running (act : τ → α → α) (a : α) (loops : List (List τ)) (s : TickLoops ι τ α) : Prop where
  alive : s.pool.Alive
  sound : ∃ past enqueued executed, Sound act a loops s past enqueued executed

theorem running_step [Nonempty ι] (hs : Running act a loops s) (h : s.step act l = some t) :
    Running act a loops t := by
  obtain ⟨past, enqueued, executed, hsound⟩ := hs.sound
  cases turn_of_step h with
  | enqueues task tasks futures hposition =>
    exact ⟨hs.alive.step (l := .enqueue task) rfl rfl, past, _, executed, hsound.enqueues hposition⟩
  | enqueued futures hposition =>
    refine ⟨hs.alive, past, enqueued, executed, ?_⟩
    have hperm := hsound.perm
    have hfutures := hsound.futures
    have hawaited := hsound.awaited
    rw [hposition] at hperm hfutures hawaited
    exact ⟨hperm, hfutures, hawaited, hsound.done, hsound.conserved, hsound.chunks, hsound.nodup,
      hsound.fresh, hsound.past⟩
  | gets future futures hposition hready =>
    refine ⟨hs.alive, past, enqueued, executed, ?_⟩
    have hperm := hsound.perm
    have hfutures := hsound.futures
    have hawaited := hsound.awaited
    rw [hposition] at hperm hfutures hawaited
    refine ⟨hperm, fun future' hfuture => hfutures future' (List.mem_cons_of_mem _ hfuture),
      fun pt hpt => ?_, hsound.done, hsound.conserved, hsound.chunks, hsound.nodup, hsound.fresh,
      hsound.past⟩
    rcases hawaited pt hpt with hdone | hwaiting
    · exact Or.inl hdone
    · rcases List.mem_cons.mp hwaiting with heq | hwaiting
      · exact Or.inl (heq ▸ hready)
      · exact Or.inr hwaiting
  | begins tasks rest hposition hloops =>
    exact ⟨hs.alive, _, [], [], hsound.begins hposition hloops⟩
  | works l pool hl hpool =>
    exact ⟨hs.alive.step (ThreadPool.stopping_of_byWorkers hl hpool).1 hpool, past, enqueued, _,
      hsound.works hl hpool⟩

theorem running_of_run [Nonempty ι] (hs : Running act a loops s) (h : run (step act) s ls = some t) :
    Running act a loops t :=
  run_invariant' (fun _ _ _ hs h => running_step hs h) hs h

/-! ## The loops come to an end -/

/-- The steps that nobody has to ask for: a worker that wakes up for nothing helps nobody. -/
def isInternal : LoopLabel ι τ → Bool
  | .enqueue | .get => true
  | .pool l => ThreadPool.isInternal l

/-- None of them can be taken. -/
def AtRest (act : τ → α → α) (s : TickLoops ι τ α) : Prop :=
  ∀ l, isInternal l = true → s.step act l = none

/-- How many of them are left, at most. -/
def measure (s : TickLoops ι τ α) : ℕ :=
  s.pool.measure + s.position.weight + (s.loops.map fun tasks => 6 * tasks.length + 2).sum

omit [DecidableEq ι] in
theorem measure_enqueue (s : ThreadPool ι τ) (task : τ) :
    (s.enqueue task).measure = s.measure + 4 := by
  simp only [ThreadPool.measure, ThreadPool.enqueue, List.length_append, List.length_singleton]
  omega

theorem measure_step (hl : isInternal l = true) (h : s.step act l = some t) :
    t.measure < s.measure := by
  cases turn_of_step h with
  | enqueues task tasks futures hposition =>
    simp only [measure, measure_enqueue, hposition, LoopPosition.weight, List.length_append,
      List.length_cons, List.length_nil]
    omega
  | enqueued futures hposition =>
    simp only [measure, hposition, LoopPosition.weight, List.length_nil]
    omega
  | gets future futures hposition hready =>
    simp only [measure, hposition, LoopPosition.weight, List.length_cons]
    omega
  | begins tasks rest hposition hloops =>
    simp only [measure, hposition, hloops, LoopPosition.weight, List.length_nil, List.map_cons,
      List.sum_cons]
    omega
  | works l pool hbyWorkers hpool =>
    have hlt := ThreadPool.measure_step hl hpool
    simp only [measure]
    omega

/-- A pool in use is at rest when its workers are. -/
theorem atRest_pool (halive : s.pool.Alive) (hrest : s.AtRest act) : s.pool.AtRest := by
  have hcall : s.pool.shutdownCall = .none := by
    by_contra hne
    exact Bool.noConfusion (halive.running.symm.trans (halive.orderly.stopping.mpr hne))
  intro l hl
  by_cases hbyWorkers : ThreadPool.byWorkers l = true
  · have h := hrest (.pool l) hl
    simpa [step, hbyWorkers] using h
  · cases l with
    | notifyAll => simp [ThreadPool.step, hcall]
    | join => simp [ThreadPool.step, hcall]
    | enqueue task => cases hl
    | spurious i => cases hl
    | shutdown => cases hl
    | notifyOne woken => exact absurd rfl hbyWorkers
    | workerLoop i => exact absurd rfl hbyWorkers
    | finish i => exact absurd rfl hbyWorkers

/-- **Loops at rest are over**: a future that is waited for has its task done. -/
theorem finished_of_atRest (hs : Running act a loops s) (hrest : s.AtRest act) : s.Finished := by
  obtain ⟨past, enqueued, executed, hsound⟩ := hs.sound
  obtain ⟨htasks, hrunning, -⟩ := ThreadPool.done_of_atRest hs.alive.orderly hs.alive.attended
    (atRest_pool hs.alive hrest)
  cases hposition : s.position with
  | enqueuing tasks futures =>
    have h := hrest .enqueue rfl
    cases tasks with
    | nil => simp [step, hposition] at h
    | cons task tasks => simp [step, hposition] at h
  | getting futures =>
    have h := hrest .get rfl
    cases futures with
    | nil =>
      cases hloops : s.loops with
      | nil => exact ⟨hposition, hloops⟩
      | cons tasks rest => simp [step, hposition, hloops] at h
    | cons future futures =>
      have hmem : future ∈ s.position.futures := by
        rw [hposition]
        exact List.mem_cons_self
      obtain ⟨pt, hpt, rfl⟩ := List.mem_map.mp (hsound.futures future hmem)
      have hconserved := hsound.conserved
      rw [htasks, hrunning, Multiset.coe_nil, add_zero, add_zero] at hconserved
      have hready := (hsound.done pt hpt).mpr ((Multiset.coe_eq_coe.mp hconserved).mem_iff.mpr hpt)
      simp [step, hposition, hready] at h

/-- **The loops of a tick**, over every number of workers and every interleaving.  When they are
over, the tasks of each loop have been done once, in some order, those of one loop before those
of the next, and the pool is as idle as before.  And they do come to an end: the threads take
no more steps than `measure` says, and stop only when the last loop is over. -/
theorem run_tickLoops [Nonempty ι] {pool : ThreadPool ι τ} {tasks : List τ} (hpool : pool.Idle)
    (h : run (step act) (start pool a tasks loops) ls = some t) :
    (t.Finished → (∃ orders, List.Forall₂ List.Perm orders (tasks :: loops) ∧
      t.chunks = orders.flatten.foldl (fun a task => act task a) a) ∧ t.pool.Idle) ∧
    ∀ ls' u, (∀ l ∈ ls', isInternal l = true) → run (step act) t ls' = some u →
      ls'.length ≤ t.measure ∧ (u.AtRest act → u.Finished) := by
  have ht : Running act a (tasks :: loops) t :=
    running_of_run ⟨hpool.alive, [], [], [], sound_start hpool tasks⟩ h
  refine ⟨fun hfinished => ?_, fun ls' u hls' hu => ⟨?_, finished_of_atRest (running_of_run ht hu)⟩⟩
  · obtain ⟨past, enqueued, executed, hsound⟩ := ht.sound
    obtain ⟨hperm, hnone, hidle⟩ := hsound.perm_of_ready (by simp [hfinished.1, LoopPosition.futures])
    have horders := hsound.perm
    rw [hfinished.1, hfinished.2, LoopPosition.tasks, List.append_nil] at horders
    refine ⟨⟨past ++ [executed.map PackagedTask.task], ?_, ?_⟩, ht.alive, hnone, hidle⟩
    · have hsame : (past ++ [executed.map PackagedTask.task]).map Multiset.ofList =
          (tasks :: loops).map Multiset.ofList := by
        rw [← horders]
        simp [hperm.map PackagedTask.task]
      rw [← List.forall₂_eq_eq_eq, List.forall₂_map_left_iff, List.forall₂_map_right_iff] at hsame
      exact hsame.imp fun _ _ => Multiset.coe_eq_coe.mp
    · rw [hsound.chunks]
      simp
  · exact le_trans (Nat.le_add_right _ _) (length_le_of_measure (P := fun _ l => isInternal l = true)
      (fun s l s' hl h => measure_step hl h) (always_of_forall_mem (fun l hl _ => hls' l hl) t) hu)

end TickLoops

/-! ## The tick -/

/-- The two lambdas that `onTick` enqueues. -/
inductive ChunkTask where
  | calculateNext (chunk : ChunkCoord)
  | swapBuffers (chunk : ChunkCoord)
  deriving DecidableEq

def ChunkTask.run : ChunkTask → World → World
  | .calculateNext chunk, w => ⟨modify chunk Chunk.calculateNext w.chunks⟩
  | .swapBuffers chunk, w => ⟨modify chunk Chunk.swapBuffers w.chunks⟩

namespace World

variable {ι : Type*} [DecidableEq ι] [Fintype ι]

/-- The loops of a tick, behind `exchangeBorders`. -/
def tickLoops (sched : TickSchedule) (w : World) (pool : ThreadPool ι ChunkTask) :
    TickLoops ι ChunkTask World :=
  let w := w.exchangeBorders sched.margin sched.borders
  TickLoops.start pool w ((sched.calculate.order w.chunks.keys).map .calculateNext)
    [(sched.swap.order w.chunks.keys).map .swapBuffers]

/-- The tasks of a loop in any order. -/
theorem foldl_eq_runTasks {w : World} (order : Traversal ChunkCoord) (task : Chunk → Chunk)
    {coords : List ChunkCoord} (hnodup : coords.Nodup) (hmem : ∀ c, c ∈ coords ↔ c ∈ w.chunks.keys) :
    coords.foldl (fun w c => (⟨modify c task w.chunks⟩ : World)) w = w.runTasks order task := by
  have hchunks : ∀ w : World, (coords.foldl (fun w c => (⟨modify c task w.chunks⟩ : World)) w).chunks =
      coords.foldl (fun m c => modify c task m) w.chunks := fun w =>
    (List.foldl_hom World.chunks fun _ _ => rfl).symm
  rw [← show (⟨_⟩ : World) = w.runTasks order task from rfl,
    ← show (⟨_⟩ : World) = coords.foldl _ w from rfl, mk.injEq, hchunks]
  refine Finmap.ext_lookup fun coord => ?_
  rw [lookup_foldl_modify task hnodup, lookup_foldl_modify task (order.nodup _)]
  simp only [hmem, order.mem_order]

/-- The same, done by the workers. -/
theorem foldl_run_eq_runTasks {w : World} (order : Traversal ChunkCoord)
    {make : ChunkCoord → ChunkTask} {task : Chunk → Chunk}
    (hmake : ∀ c w, (make c).run w = ⟨modify c task w.chunks⟩) {done : List ChunkTask}
    {coords : List ChunkCoord} (hperm : done.Perm (coords.map make)) (hnodup : coords.Nodup)
    (hmem : ∀ c, c ∈ coords ↔ c ∈ w.chunks.keys) :
    done.foldl (fun w task => task.run w) w = w.runTasks order task := by
  have hcomp : Relation.Comp (fun l l' => l = List.map make l') List.Perm done coords := by
    rw [List.eq_map_comp_perm]
    exact hperm
  obtain ⟨coords', rfl, hcoords⟩ := hcomp
  rw [List.foldl_map, ← foldl_eq_runTasks order task (hcoords.nodup_iff.mpr hnodup)
    fun c => hcoords.mem_iff.trans (hmem c)]
  simp only [hmake]

theorem keys_runTasks (order : Traversal ChunkCoord) (task : Chunk → Chunk) (w : World) :
    (w.runTasks order task).chunks.keys = w.chunks.keys := by
  refine keys_eq_of_mem_iff fun c => ?_
  have h := tryGetChunk_runTasks order task w c
  unfold tryGetChunk at h
  rw [← Finmap.lookup_isSome, ← Finmap.lookup_isSome, h, Option.isSome_map]

/-- **The simulation step by a thread pool**, with any number of workers, at least one, and
over every interleaving of theirs with the tick thread.  When the loops of the tick are over, the
chunks are those of `simulate`, and the pool is idle again.  Until then the threads can go on, and
they need no more steps than `measure` says. -/
theorem simulate_of_run [Nonempty ι] {sched : TickSchedule} {w : World}
    {pool : ThreadPool ι ChunkTask} {ls : List (LoopLabel ι ChunkTask)}
    {t : TickLoops ι ChunkTask World} (hpool : pool.Idle)
    (h : run (TickLoops.step ChunkTask.run) (w.tickLoops sched pool) ls = some t) :
    (t.Finished → t.chunks = w.simulate sched ∧ t.pool.Idle) ∧
    ∀ ls' u, (∀ l ∈ ls', TickLoops.isInternal l = true) →
      run (TickLoops.step ChunkTask.run) t ls' = some u →
        ls'.length ≤ t.measure ∧ (u.AtRest ChunkTask.run → u.Finished) := by
  obtain ⟨hover, hends⟩ := TickLoops.run_tickLoops hpool h
  refine ⟨fun hfinished => ?_, hends⟩
  obtain ⟨⟨orders, hperm, hchunks⟩, hidle⟩ := hover hfinished
  refine ⟨?_, hidle⟩
  cases hperm with
  | cons hcalculate hrest =>
    cases hrest with
    | cons hswap hnil =>
      cases hnil
      rw [hchunks, List.flatten_cons, List.flatten_cons, List.flatten_nil, List.append_nil,
        List.foldl_append]
      rw [foldl_run_eq_runTasks sched.calculate (fun _ _ => rfl) hcalculate (sched.calculate.nodup _)
        fun c => sched.calculate.mem_order _ _]
      rw [foldl_run_eq_runTasks sched.swap (fun _ _ => rfl) hswap (sched.swap.nodup _)
        fun c => (sched.swap.mem_order _ _).trans (by rw [keys_runTasks])]
      rfl

/-- Two workers do the tick of a blinker. -/
theorem simulate_of_run_blinker : ∃ (ls : List (LoopLabel Bool ChunkTask))
    (t : TickLoops Bool ChunkTask World),
    run (TickLoops.step ChunkTask.run) (blinker.tickLoops .sorted {}) ls = some t ∧ t.Finished ∧
      t.chunks = blinker.simulate .sorted := by
  obtain ⟨ls, t, -, h, hrest⟩ :=
    exists_maximal (P := fun l : LoopLabel Bool ChunkTask => TickLoops.isInternal l = true)
      (fun s l t hl (h : s.step ChunkTask.run l = some t) => TickLoops.measure_step hl h)
      (blinker.tickLoops .sorted {})
  obtain ⟨hover, hends⟩ := simulate_of_run ThreadPool.idle_start h
  have hfinished := (hends [] t (fun l hl => absurd hl List.not_mem_nil) rfl).2 hrest
  exact ⟨ls, t, h, hfinished, (hover hfinished).1⟩

end World
end Multilife

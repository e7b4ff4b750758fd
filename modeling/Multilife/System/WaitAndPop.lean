import Multilife.Foundations.Census
import Multilife.System.CommandQueue

/-!
# Waiting for the queue

`ThreadSafeQueue`, one atomic step at a time, under any number of threads that push, pop and
wait in any order.  What a thread does under `m_mutex` is one step.  `notify_one` comes after
the lock of `push` is released, so other threads act in between; a thread in `m_cv.wait` leaves
it on a notification or for no reason, takes the lock again and looks at the predicate.  Each
thread brings its own `shouldStop`, whose answer others may change at any moment.

* `conserved_of_run`: the values come out in the order in which they went in, each of them once.
* `covered_of_run`: while somebody waits there are no more values than threads about to act on
  them, so no notification is lost.
* `run_threadSafeQueue`: both, and what they say of a queue whose threads have come to rest.
* `waits_of_run`: a stop predicate that becomes true wakes nobody.
-/

namespace Multilife

open Transition

/-- Where a thread is: outside of the calls that can block, behind the lock of `push` with the
notification still to send, about to take the lock of `waitAndPop`, or in its `m_cv.wait`. -/
inductive QueueThread where
  | outside
  | notifying
  | awake
  | waiting
  deriving DecidableEq

/-- `ThreadSafeQueue` with the threads that use it. -/
structure QueueMonitor (ι T : Type*) where
  queue : List T := []
  threads : ι → QueueThread := fun _ => .outside
  shouldStop : ι → Bool := fun _ => false

/-- The atomic steps. -/
inductive MonitorLabel (ι T : Type*) where
  /-- `push` under the lock. -/
  | push (i : ι) (value : T)
  /-- Its `m_cv.notify_one()`, which unblocks one waiting thread, if there is one. -/
  | notifyOne (i : ι) (woken : Option ι)
  | tryPop (i : ι)
  /-- `waitAndPop` is called. -/
  | call (i : ι)
  /-- `waitAndPop` under the lock, until it returns or waits. -/
  | waitAndPop (i : ι)
  /-- A thread wakes up without a notification. -/
  | spurious (i : ι)
  /-- What `shouldStop` answers to a thread changes. -/
  | setStop (i : ι) (stop : Bool)

/-- How many steps a thread has still to take by itself, at most. -/
def QueueThread.weight : QueueThread → ℕ
  | .outside => 0
  | .waiting => 0
  | .awake => 1
  | .notifying => 2

/-- The threads that will act on a value: they look at the queue, or wake one that does. -/
def QueueThread.attending : QueueThread → ℕ
  | .outside => 0
  | .waiting => 0
  | .awake => 1
  | .notifying => 1

namespace QueueMonitor

variable {ι T : Type*} [DecidableEq ι]

/-! ## The steps -/

/-- A thread goes on. -/
def goto (s : QueueMonitor ι T) (i : ι) (w : QueueThread) : QueueMonitor ι T :=
  { s with threads := Function.update s.threads i w }

@[simp] theorem queue_goto (s : QueueMonitor ι T) (i : ι) (w : QueueThread) :
    (s.goto i w).queue = s.queue := rfl

@[simp] theorem threads_goto (s : QueueMonitor ι T) (i : ι) (w : QueueThread) :
    (s.goto i w).threads = Function.update s.threads i w := rfl

/-- `waitAndPop`, from the lock to its release. -/
def waitAndPop (s : QueueMonitor ι T) (i : ι) : QueueMonitor ι T :=
  if ¬ (s.queue ≠ [] ∨ s.shouldStop i = true) then s.goto i .waiting
  else
    match ThreadSafeQueue.tryPop s.queue with
    -- `return false`
    | none => s.goto i .outside
    | some (_, queue) => { s.goto i .outside with queue := queue }

def step [Fintype ι] (s : QueueMonitor ι T) : MonitorLabel ι T → Option (QueueMonitor ι T)
  | .push i value =>
    if s.threads i = .outside then
      some { s.goto i .notifying with queue := ThreadSafeQueue.push s.queue value }
    else none
  | .notifyOne i (some j) =>
    if s.threads i = .notifying ∧ s.threads j = .waiting then
      some ((s.goto i .outside).goto j .awake)
    else none
  | .notifyOne i none =>
    if s.threads i = .notifying ∧ ∀ j, s.threads j ≠ .waiting then some (s.goto i .outside) else none
  | .tryPop i =>
    if s.threads i = .outside then
      match ThreadSafeQueue.tryPop s.queue with
      | none => some s
      | some (_, queue) => some { s with queue := queue }
    else none
  | .call i => if s.threads i = .outside then some (s.goto i .awake) else none
  | .waitAndPop i => if s.threads i = .awake then some (s.waitAndPop i) else none
  | .spurious i => if s.threads i = .waiting then some (s.goto i .awake) else none
  | .setStop i stop => some { s with shouldStop := Function.update s.shouldStop i stop }

variable [Fintype ι]

/-- What a step does, one constructor for each branch that lets it happen. -/
inductive Turn (s : QueueMonitor ι T) : MonitorLabel ι T → QueueMonitor ι T → Prop where
  | push (i : ι) (value : T) (hi : s.threads i = .outside) :
    Turn s (.push i value) { s.goto i .notifying with queue := s.queue ++ [value] }
  | notifyOne (i j : ι) (hi : s.threads i = .notifying) (hj : s.threads j = .waiting) :
    Turn s (.notifyOne i (some j)) ((s.goto i .outside).goto j .awake)
  | notifyNobody (i : ι) (hi : s.threads i = .notifying) (hnobody : ∀ j, s.threads j ≠ .waiting) :
    Turn s (.notifyOne i none) (s.goto i .outside)
  | seesEmpty (i : ι) (hi : s.threads i = .outside) (hempty : s.queue = []) :
    Turn s (.tryPop i) s
  | tryPops (i : ι) (value : T) (queue : List T) (hi : s.threads i = .outside)
      (hfront : s.queue = value :: queue) : Turn s (.tryPop i) { s with queue := queue }
  | call (i : ι) (hi : s.threads i = .outside) : Turn s (.call i) (s.goto i .awake)
  | waits (i : ι) (hi : s.threads i = .awake) (hempty : s.queue = [])
      (hstop : s.shouldStop i = false) : Turn s (.waitAndPop i) (s.goto i .waiting)
  | stops (i : ι) (hi : s.threads i = .awake) (hempty : s.queue = [])
      (hstop : s.shouldStop i = true) : Turn s (.waitAndPop i) (s.goto i .outside)
  | pops (i : ι) (value : T) (queue : List T) (hi : s.threads i = .awake)
      (hfront : s.queue = value :: queue) :
    Turn s (.waitAndPop i) { s.goto i .outside with queue := queue }
  | spurious (i : ι) (hi : s.threads i = .waiting) : Turn s (.spurious i) (s.goto i .awake)
  | setStop (i : ι) (stop : Bool) :
    Turn s (.setStop i stop) { s with shouldStop := Function.update s.shouldStop i stop }

variable {s t : QueueMonitor ι T} {l : MonitorLabel ι T} {ls : List (MonitorLabel ι T)}

theorem turn_of_step (h : s.step l = some t) : s.Turn l t := by
  cases l with
  | push i value =>
    simp only [step] at h
    split_ifs at h with hi
    cases h
    exact .push i value hi
  | notifyOne i woken =>
    cases woken with
    | none =>
      simp only [step] at h
      split_ifs at h with hi
      cases h
      exact .notifyNobody i hi.1 hi.2
    | some j =>
      simp only [step] at h
      split_ifs at h with hi
      cases h
      exact .notifyOne i j hi.1 hi.2
  | tryPop i =>
    simp only [step] at h
    split_ifs at h with hi
    cases hqueue : s.queue with
    | nil =>
      rw [hqueue] at h
      cases h
      exact .seesEmpty i hi hqueue
    | cons value queue =>
      rw [hqueue] at h
      cases h
      exact .tryPops i value queue hi hqueue
  | call i =>
    simp only [step] at h
    split_ifs at h with hi
    cases h
    exact .call i hi
  | waitAndPop i =>
    simp only [step] at h
    split_ifs at h with hi
    cases h
    unfold waitAndPop
    cases hqueue : s.queue with
    | nil =>
      cases hstop : s.shouldStop i with
      | false => exact .waits i hi hqueue hstop
      | true => exact .stops i hi hqueue hstop
    | cons value queue => exact .pops i value queue hi hqueue
  | spurious i =>
    simp only [step] at h
    split_ifs at h with hi
    cases h
    exact .spurious i hi
  | setStop i stop =>
    cases h
    exact .setStop i stop

/-! ## First in, first out -/

/-- The value a step pushes. -/
def pushed (_ : QueueMonitor ι T) : MonitorLabel ι T → List T
  | .push _ value => [value]
  | _ => []

/-- The value a step hands to its caller. -/
def popped (s : QueueMonitor ι T) : MonitorLabel ι T → List T
  | .tryPop _ => s.queue.head?.toList
  | .waitAndPop _ => s.queue.head?.toList
  | _ => []

theorem conserved_step (h : s.step l = some t) : s.popped l ++ t.queue = s.queue ++ s.pushed l := by
  cases turn_of_step h with
  | seesEmpty i hi hempty => simp [popped, pushed, hempty]
  | tryPops i value queue hi hfront => simp [popped, pushed, hfront]
  | waits i hi hempty hstop => simp [popped, pushed, hempty]
  | stops i hi hempty hstop => simp [popped, pushed, hempty]
  | pops i value queue hi hfront => simp [popped, pushed, hfront]
  | _ => simp [popped, pushed]

/-- **Nothing is lost, duplicated or reordered**, whoever pushes and pops. -/
theorem conserved_of_run (h : run step s ls = some t) :
    collect step popped s ls ++ t.queue = s.queue ++ collect step pushed s ls :=
  collect_queue (φ := id) (ψ := id) (fun _ _ => rfl) (fun _ _ => rfl)
    (fun _ _ _ hstep => conserved_step hstep) h

/-! ## No notification is lost -/

/-- The threads about to act on a value. -/
def attending (s : QueueMonitor ι T) : ℕ := ∑ i, (s.threads i).attending

/-- While somebody waits, each value has a thread about to act on it. -/
def Covered (s : QueueMonitor ι T) : Prop :=
  (∃ i, s.threads i = .waiting) → s.queue.length ≤ s.attending

/-- A thread goes on. -/
theorem attending_goto (s : QueueMonitor ι T) {i : ι} {v : QueueThread} (hi : s.threads i = v)
    (w : QueueThread) : (s.goto i w).attending + v.attending = s.attending + w.attending :=
  hi ▸ Census.sum_update QueueThread.attending s.threads i w

omit [Fintype ι] in
/-- Who waits after a thread has gone on elsewhere has waited before. -/
theorem waiting_of_goto {i j : ι} {w : QueueThread} (hw : w ≠ .waiting)
    (hj : (s.goto i w).threads j = .waiting) : s.threads j = .waiting := by
  rw [threads_goto] at hj
  by_cases hij : j = i
  · subst hij
    rw [Function.update_self] at hj
    exact absurd hj hw
  · rwa [Function.update_of_ne hij] at hj

theorem covered_step (hs : s.Covered) (h : s.step l = some t) : t.Covered := by
  cases turn_of_step h with
  | push i value hi =>
    rintro ⟨j, hj⟩
    have hle := hs ⟨j, waiting_of_goto (by decide) hj⟩
    have hsum := s.attending_goto hi .notifying
    have hattending : QueueMonitor.attending
        { s.goto i .notifying with queue := s.queue ++ [value] } = s.attending + 1 := hsum
    rw [hattending, List.length_append]
    exact Nat.succ_le_succ hle
  | notifyOne i j hi hj =>
    intro _
    have hle := hs ⟨j, hj⟩
    have hji : j ≠ i := fun hji => by simp [hji, hi] at hj
    have hfirst := s.attending_goto hi .outside
    have hsecond := (s.goto i .outside).attending_goto
      (i := j) ((Function.update_of_ne hji _ _).trans hj) .awake
    simp only [QueueThread.attending] at hfirst hsecond
    simp only [queue_goto]
    omega
  | notifyNobody i hi hnobody =>
    rintro ⟨j, hj⟩
    exact absurd (waiting_of_goto (by decide) hj) (hnobody j)
  | seesEmpty i hi hempty => exact hs
  | tryPops i value queue hi hfront =>
    intro hj
    have hle := hs hj
    rw [hfront, List.length_cons] at hle
    exact (Nat.lt_of_succ_le hle).le
  | call i hi =>
    rintro ⟨j, hj⟩
    have hle := hs ⟨j, waiting_of_goto (by decide) hj⟩
    have hsum := s.attending_goto hi .awake
    simp only [QueueThread.attending] at hsum
    rw [queue_goto]
    omega
  | waits i hi hempty hstop =>
    intro _
    simp [hempty]
  | stops i hi hempty hstop =>
    intro _
    simp [hempty]
  | pops i value queue hi hfront =>
    rintro ⟨j, hj⟩
    have hle := hs ⟨j, waiting_of_goto (by decide) hj⟩
    have hsum : QueueMonitor.attending { s.goto i .outside with queue := queue } + 1 = s.attending :=
      s.attending_goto hi .outside
    rw [hfront, List.length_cons] at hle
    exact Nat.le_of_succ_le_succ (hle.trans hsum.ge)
  | spurious i hi =>
    intro _
    have hle := hs ⟨i, hi⟩
    have hsum := s.attending_goto hi .awake
    simp only [QueueThread.attending] at hsum
    rw [queue_goto]
    omega
  | setStop i stop => exact hs

theorem covered_of_run (hs : s.Covered) (h : run step s ls = some t) : t.Covered :=
  run_invariant' (fun _ _ _ hs h => covered_step hs h) hs h

/-! ## Coming to rest -/

/-- The steps that a thread in one of the calls takes by itself. -/
def isInternal : MonitorLabel ι T → Bool
  | .notifyOne _ _ | .waitAndPop _ => true
  | _ => false

/-- No thread can take one. -/
def AtRest (s : QueueMonitor ι T) : Prop := ∀ l, isInternal l = true → s.step l = none

/-- What the threads have still to do, at most. -/
def measure (s : QueueMonitor ι T) : ℕ := ∑ i, (s.threads i).weight

theorem measure_goto (s : QueueMonitor ι T) {i : ι} {v : QueueThread} (hi : s.threads i = v)
    (w : QueueThread) : (s.goto i w).measure + v.weight = s.measure + w.weight :=
  hi ▸ Census.sum_update QueueThread.weight s.threads i w

theorem measure_step (hl : isInternal l = true) (h : s.step l = some t) : t.measure < s.measure := by
  cases turn_of_step h with
  | notifyOne i j hi hj =>
    have hji : j ≠ i := fun hji => by simp [hji, hi] at hj
    have hfirst := s.measure_goto hi .outside
    have hsecond := (s.goto i .outside).measure_goto
      (i := j) ((Function.update_of_ne hji _ _).trans hj) .awake
    simp only [QueueThread.weight] at hfirst hsecond
    omega
  | notifyNobody i hi hnobody =>
    have hsum := s.measure_goto hi .outside
    simp only [QueueThread.weight] at hsum
    omega
  | waits i hi hempty hstop =>
    have hsum := s.measure_goto hi .waiting
    simp only [QueueThread.weight] at hsum
    omega
  | stops i hi hempty hstop =>
    have hsum := s.measure_goto hi .outside
    simp only [QueueThread.weight] at hsum
    omega
  | pops i value queue hi hfront =>
    have hsum : QueueMonitor.measure { s.goto i .outside with queue := queue } + 1 = s.measure :=
      s.measure_goto hi .outside
    omega
  | push i value hi => cases hl
  | seesEmpty i hi hempty => cases hl
  | tryPops i value queue hi hfront => cases hl
  | call i hi => cases hl
  | spurious i hi => cases hl
  | setStop i stop => cases hl

/-- At rest every thread is outside, or waits. -/
theorem outside_or_waiting_of_atRest (hrest : s.AtRest) (i : ι) :
    s.threads i = .outside ∨ s.threads i = .waiting := by
  cases hi : s.threads i with
  | outside => exact Or.inl rfl
  | waiting => exact Or.inr rfl
  | awake =>
    have h := hrest (.waitAndPop i) rfl
    simp [step, hi] at h
  | notifying =>
    by_cases hnobody : ∀ j, s.threads j ≠ .waiting
    · have h := hrest (.notifyOne i none) rfl
      simp [step, hi, hnobody] at h
    · obtain ⟨j, hj⟩ := not_forall_not.mp hnobody
      have h := hrest (.notifyOne i (some j)) rfl
      simp [step, hi, hj] at h

theorem attending_eq_zero (hrest : s.AtRest) : s.attending = 0 := by
  refine Finset.sum_eq_zero fun i _ => ?_
  rcases outside_or_waiting_of_atRest hrest i with hi | hi
  · rw [hi]
    rfl
  · rw [hi]
    rfl

omit [DecidableEq ι] [Fintype ι] in
/-- Steps the threads take by themselves push nothing. -/
theorem pushed_eq_nil (hl : isInternal l = true) (s : QueueMonitor ι T) : s.pushed l = [] := by
  cases l with
  | push i value => cases hl
  | _ => rfl

/-- **The queue**, under any number of threads and over every interleaving of pushes,
notifications, pops, waits and changes of the stop predicates: what has been handed out, then
what is queued, is what was pushed.  Left to themselves the threads take no more steps than
`measure` says, and if one of them waits when none of them can go on, everything that was pushed
has been handed out. -/
theorem run_threadSafeQueue {ls₀ : List (MonitorLabel ι T)}
    (h₀ : run step ({} : QueueMonitor ι T) ls₀ = some s) (hinternal : ∀ l ∈ ls, isInternal l = true)
    (h : run step s ls = some t) :
    collect step popped {} (ls₀ ++ ls) ++ t.queue = collect step pushed {} ls₀ ∧
      ls.length ≤ s.measure ∧
      (t.AtRest → (∃ i, t.threads i = .waiting) →
        collect step popped {} (ls₀ ++ ls) = collect step pushed {} ls₀) := by
  have hall : run step ({} : QueueMonitor ι T) (ls₀ ++ ls) = some t := run_append.mpr ⟨s, h₀, h⟩
  have hconserved := conserved_of_run hall
  rw [collect_append h₀ (f := pushed),
    collect_eq_nil (fun l hl s => pushed_eq_nil (hinternal l hl) s) s, List.append_nil] at hconserved
  have hbound := length_le_of_measure (P := fun _ l => isInternal l = true)
    (fun s l s' hl h => measure_step hl h) (always_of_forall_mem (fun l hl _ => hinternal l hl) s) h
  refine ⟨hconserved, le_trans (Nat.le_add_right _ _) hbound, fun hrest hwaiting => ?_⟩
  have hstart : Covered ({} : QueueMonitor ι T) := fun _ => Nat.zero_le _
  have hle := covered_of_run hstart hall hwaiting
  rw [attending_eq_zero hrest, Nat.le_zero, List.length_eq_zero_iff] at hle
  rw [hle, List.append_nil] at hconserved
  exact hconserved

/-- A thread waits; two others push, one after the other, before they notify anybody. -/
def twoPushes : List (MonitorLabel (Option Bool) ℕ) :=
  [.call none, .waitAndPop none, .push (some false) 5, .push (some true) 7]

/-- The second notification finds nobody waiting, and its value stays in the queue. -/
def twoNotifies : List (MonitorLabel (Option Bool) ℕ) :=
  [.notifyOne (some true) (some none), .waitAndPop none, .notifyOne (some false) none]

theorem run_threadSafeQueue_twoPushes : ∃ t : QueueMonitor (Option Bool) ℕ,
    collect step popped ({} : QueueMonitor (Option Bool) ℕ) (twoPushes ++ twoNotifies) ++ t.queue =
        [5, 7] ∧ t.queue = [7] := by
  obtain ⟨s, hs⟩ : ∃ s, run step ({} : QueueMonitor (Option Bool) ℕ) twoPushes = some s := ⟨_, rfl⟩
  obtain ⟨t, ht, hqueue⟩ : ∃ t, run step s twoNotifies = some t ∧ t.queue = [7] := by
    cases hs
    exact ⟨_, rfl, rfl⟩
  exact ⟨t, (run_threadSafeQueue hs (by decide) ht).1, hqueue⟩

/-! ## Being told to stop -/

/-- The thread waits, and nobody has a notification to send. -/
structure Forgotten (i : ι) (s : QueueMonitor ι T) : Prop where
  waiting : s.threads i = .waiting
  nobody : ∀ j, s.threads j ≠ .notifying

omit [Fintype ι] in
/-- Another thread goes on, not to notify. -/
theorem Forgotten.goto {i j : ι} {w : QueueThread} (hs : s.Forgotten i) (hij : i ≠ j)
    (hw : w ≠ .notifying) : (s.goto j w).Forgotten i where
  waiting := by
    rw [threads_goto, Function.update_of_ne hij]
    exact hs.waiting
  nobody k := by
    rw [threads_goto]
    by_cases hk : k = j
    · subst hk
      rwa [Function.update_self]
    · rw [Function.update_of_ne hk]
      exact hs.nobody k

theorem forgotten_step {i : ι} (hs : s.Forgotten i) (hpush : ∀ j value, l ≠ .push j value)
    (hspurious : l ≠ .spurious i) (h : s.step l = some t) : t.Forgotten i := by
  have hne : ∀ {j}, s.threads j ≠ .waiting → i ≠ j := fun hj hij => hj (hij ▸ hs.waiting)
  cases turn_of_step h with
  | push j value hj => exact absurd rfl (hpush j value)
  | notifyOne j k hj hk => exact absurd hj (hs.nobody j)
  | notifyNobody j hj hnobody => exact absurd hj (hs.nobody j)
  | seesEmpty j hj hempty => exact hs
  | tryPops j value queue hj hfront => exact ⟨hs.waiting, hs.nobody⟩
  | call j hj => exact hs.goto (hne (by simp [hj])) (by decide)
  | waits j hj hempty hstop => exact hs.goto (hne (by simp [hj])) (by decide)
  | stops j hj hempty hstop => exact hs.goto (hne (by simp [hj])) (by decide)
  | pops j value queue hj hfront =>
    have hgoto : (s.goto j .outside).Forgotten i := hs.goto (hne (by simp [hj])) (by decide)
    exact ⟨hgoto.waiting, hgoto.nobody⟩
  | spurious j hj => exact hs.goto (fun hij => hspurious (hij ▸ rfl)) (by decide)
  | setStop j stop => exact ⟨hs.waiting, hs.nobody⟩

/-- **A stop predicate that becomes true wakes nobody**: until the next push a thread that waits
goes on waiting, whatever the predicates answer and whatever is popped. -/
theorem waits_of_run {i : ι} (hwaiting : s.threads i = .waiting)
    (hnobody : ∀ j, s.threads j ≠ .notifying)
    (hls : ∀ l ∈ ls, (∀ j value, l ≠ .push j value) ∧ l ≠ .spurious i)
    (h : run step s ls = some t) : t.threads i = .waiting :=
  (run_invariant (P := fun _ l => (∀ j value, l ≠ .push j value) ∧ l ≠ .spurious i)
    (fun _ _ _ hs hl h => forgotten_step hs hl.1 hl.2 h) (Forgotten.mk hwaiting hnobody)
    (always_of_forall_mem (fun l hl _ => hls l hl) s) h).waiting

/-- One thread waits, another begins to. -/
def oneWaiting : List (MonitorLabel Bool ℕ) := [.call false, .waitAndPop false, .call true]

/-- Both are told to stop; only the one that has not begun to wait returns. -/
def bothStop : List (MonitorLabel Bool ℕ) := [.setStop false true, .setStop true true, .waitAndPop true]

theorem waits_of_run_bothStop : ∃ s t : QueueMonitor Bool ℕ,
    run step {} oneWaiting = some s ∧ run step s bothStop = some t ∧ t.shouldStop false = true ∧
      t.threads true = .outside ∧ t.threads false = .waiting := by
  obtain ⟨s, hs, hwaiting, hnobody⟩ : ∃ s, run step ({} : QueueMonitor Bool ℕ) oneWaiting = some s ∧
      s.threads false = .waiting ∧ ∀ j, s.threads j ≠ .notifying := ⟨_, rfl, rfl, by decide⟩
  obtain ⟨t, ht, hstop, htrue⟩ : ∃ t, run step s bothStop = some t ∧ t.shouldStop false = true ∧
      t.threads true = .outside := by
    cases hs
    exact ⟨_, rfl, rfl, rfl⟩
  exact ⟨s, t, hs, ht, hstop, htrue, waits_of_run hwaiting hnobody (by simp [bothStop]) ht⟩

end QueueMonitor
end Multilife

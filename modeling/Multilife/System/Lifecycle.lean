import Mathlib.Algebra.BigOperators.Group.Finset.Basic
import Mathlib.Algebra.GroupWithZero.Nat
import Multilife.Foundations.Transition

/-!
# Starting and stopping the server

`GameServer::start` and `GameServer::stop` with the calls they make, `TickScheduler::start`,
`TickScheduler::stop` and `runLoop`, one atomic step at a time, for any number of threads that
call them and any number of loops that were ever spawned.  `std::thread` is a handle: assigning
to one that is joinable, or giving it up, ends the program by `std::terminate`.

`start` goes on when there is no network manager and when `BoostNetworkManager::start` gives up
because it cannot open, bind or listen; only a `BoostNetworkManager` is given the snapshot
provider.  The calls of the manager's `start` and `stop` are one step each.

The calls are not made for being called at once (`Serial`): a `start` between the two steps of
a `stop` finds the old thread in its place.

* `Sound`: what the flags, the handle and the loops have to do with each other, by the place the
  one call under way has reached.
* `run_lifecycle`: with one call at a time there is at most one loop, it ticks only with the
  network, the provider and the cache that its `start` has left, and `stop` returns and leaves
  nothing running.
* `terminated_of_overlap`: what two calls at once can do.
-/

namespace Multilife

open Transition

/-- Where a thread is in `GameServer::start` or `GameServer::stop`: outside of them, or before
the step of this name. -/
inductive ServerCall where
  | outside
  | startNetwork
  | setProvider
  | refreshCache
  | startScheduler
  | spawn
  | stopScheduler
  | join
  | stopNetwork
  deriving DecidableEq

/-- Where a `runLoop` is: before it looks at `m_running`, in the callback, in `sleep_until`, or
past its end. -/
inductive LoopThread where
  | checking
  | ticking
  | sleeping
  | exited
  deriving DecidableEq

/-- `m_networkManager`: null, a `BoostNetworkManager`, or of another class. -/
inductive Manager where
  | absent
  | boost
  | other
  deriving DecidableEq

/-- The manager, `m_running` of the server and of the scheduler, the scheduler's `m_thread` with
the number of its loop, the loops, and what `start` sets up before it starts the scheduler.  That
the last `start` brought no network up (`offline`) is a record of the run. -/
structure Lifecycle (ι : Type*) where
  manager : Manager := .boost
  serverRunning : Bool := false
  schedulerRunning : Bool := false
  thread : Option ℕ := none
  loops : List LoopThread := []
  networkStarted : Bool := false
  offline : Bool := false
  providerSet : Bool := false
  cacheFilled : Bool := false
  calls : ι → ServerCall := fun _ => .outside
  terminated : Bool := false

/-- The atomic steps. -/
inductive LifecycleLabel (ι : Type*) where
  /-- `GameServer::start` is called, up to its `exchange`. -/
  | start (i : ι)
  /-- `GameServer::stop` is called, up to its `exchange`. -/
  | stop (i : ι)
  /-- The next step of the call. -/
  | next (i : ι)
  /-- The manager's `start` returns without having started. -/
  | startFails (i : ι)
  /-- The next step of a loop. -/
  | loop (k : ℕ)

/-- `runLoop`. -/
def LoopThread.next (running : Bool) : LoopThread → Option LoopThread
  | .checking => some (if running then .ticking else .exited)
  | .ticking => some .sleeping
  | .sleeping => some .checking
  | .exited => none

theorem LoopThread.ne_exited_of_next {running : Bool} {v w : LoopThread} (h : v.next running = some w) :
    v ≠ .exited := by
  rintro rfl
  cases h

/-- A loop goes on while it is not told to end. -/
theorem LoopThread.next_ne_exited {v w : LoopThread} (h : v.next true = some w) : w ≠ .exited := by
  rintro rfl
  cases v <;> cases h

/-- How far a loop is from its end, once it may end. -/
def LoopThread.weight : LoopThread → ℕ
  | .exited => 0
  | .checking => 1
  | .sleeping => 2
  | .ticking => 3

/-- How far a `stop` is from its end, once it has told the loop to end. -/
def ServerCall.weight : ServerCall → ℕ
  | .join => 2
  | .stopNetwork => 1
  | _ => 0

namespace Lifecycle

variable {ι : Type*} [DecidableEq ι]

/-! ## The steps -/

def goto (s : Lifecycle ι) (i : ι) (p : ServerCall) : Lifecycle ι :=
  { s with calls := Function.update s.calls i p }

/-- One step of a call. -/
def next (s : Lifecycle ι) (i : ι) : Option (Lifecycle ι) :=
  match s.calls i with
  | .outside => none
  | .startNetwork =>
    if s.manager = .absent then some { s.goto i .setProvider with offline := true }
    else some { s.goto i .setProvider with networkStarted := true, offline := false }
  | .setProvider =>
    -- the `dynamic_cast`
    if s.manager = .boost then some { s.goto i .refreshCache with providerSet := true }
    else some (s.goto i .refreshCache)
  | .refreshCache => some { s.goto i .startScheduler with cacheFilled := true }
  | .startScheduler =>
    if s.schedulerRunning then some (s.goto i .outside)
    else some { s.goto i .spawn with schedulerRunning := true }
  | .spawn =>
    if s.thread.isSome then some { s.goto i .outside with terminated := true }
    else some
      { s.goto i .outside with thread := some s.loops.length, loops := s.loops ++ [.checking] }
  | .stopScheduler =>
    if s.schedulerRunning then some { s.goto i .join with schedulerRunning := false }
    else some (s.goto i .stopNetwork)
  | .join =>
    match s.thread with
    | none => some (s.goto i .stopNetwork)
    | some k =>
      if s.loops[k]? = some .exited then some { s.goto i .stopNetwork with thread := none } else none
  | .stopNetwork => some { s.goto i .outside with networkStarted := false }

def step (s : Lifecycle ι) (l : LifecycleLabel ι) : Option (Lifecycle ι) :=
  if s.terminated = true then none
  else
    match l with
    | .start i =>
      if s.calls i = .outside then
        if s.serverRunning then some s else some { s.goto i .startNetwork with serverRunning := true }
      else none
    | .stop i =>
      if s.calls i = .outside then
        if s.serverRunning then some { s.goto i .stopScheduler with serverRunning := false } else some s
      else none
    | .next i => s.next i
    | .startFails i =>
      if s.calls i = .startNetwork ∧ s.manager ≠ .absent then
        some { s.goto i .setProvider with offline := true }
      else none
    | .loop k =>
      (s.loops[k]?.bind (LoopThread.next s.schedulerRunning)).map fun w =>
        { s with loops := s.loops.set k w }

/-- What a step does, one constructor for each branch that lets it happen. -/
inductive Turn (s : Lifecycle ι) : LifecycleLabel ι → Lifecycle ι → Prop where
  | startAgain (i : ι) (hi : s.calls i = .outside) (hrunning : s.serverRunning = true) :
    Turn s (.start i) s
  | start (i : ι) (hi : s.calls i = .outside) (hrunning : s.serverRunning = false) :
    Turn s (.start i) { s.goto i .startNetwork with serverRunning := true }
  | stopAgain (i : ι) (hi : s.calls i = .outside) (hrunning : s.serverRunning = false) :
    Turn s (.stop i) s
  | stop (i : ι) (hi : s.calls i = .outside) (hrunning : s.serverRunning = true) :
    Turn s (.stop i) { s.goto i .stopScheduler with serverRunning := false }
  | noNetwork (i : ι) (hi : s.calls i = .startNetwork) (hmanager : s.manager = .absent) :
    Turn s (.next i) { s.goto i .setProvider with offline := true }
  | startNetwork (i : ι) (hi : s.calls i = .startNetwork) (hmanager : s.manager ≠ .absent) :
    Turn s (.next i) { s.goto i .setProvider with networkStarted := true, offline := false }
  | startFails (i : ι) (hi : s.calls i = .startNetwork) (hmanager : s.manager ≠ .absent) :
    Turn s (.startFails i) { s.goto i .setProvider with offline := true }
  | setProvider (i : ι) (hi : s.calls i = .setProvider) (hmanager : s.manager = .boost) :
    Turn s (.next i) { s.goto i .refreshCache with providerSet := true }
  | noProvider (i : ι) (hi : s.calls i = .setProvider) (hmanager : s.manager ≠ .boost) :
    Turn s (.next i) (s.goto i .refreshCache)
  | refreshCache (i : ι) (hi : s.calls i = .refreshCache) :
    Turn s (.next i) { s.goto i .startScheduler with cacheFilled := true }
  | schedulerRuns (i : ι) (hi : s.calls i = .startScheduler) (hrunning : s.schedulerRunning = true) :
    Turn s (.next i) (s.goto i .outside)
  | startScheduler (i : ι) (hi : s.calls i = .startScheduler) (hrunning : s.schedulerRunning = false) :
    Turn s (.next i) { s.goto i .spawn with schedulerRunning := true }
  | terminates (i : ι) (hi : s.calls i = .spawn) (hthread : s.thread ≠ none) :
    Turn s (.next i) { s.goto i .outside with terminated := true }
  | spawn (i : ι) (hi : s.calls i = .spawn) (hthread : s.thread = none) :
    Turn s (.next i)
      { s.goto i .outside with thread := some s.loops.length, loops := s.loops ++ [.checking] }
  | stopScheduler (i : ι) (hi : s.calls i = .stopScheduler) (hrunning : s.schedulerRunning = true) :
    Turn s (.next i) { s.goto i .join with schedulerRunning := false }
  | schedulerStopped (i : ι) (hi : s.calls i = .stopScheduler) (hrunning : s.schedulerRunning = false) :
    Turn s (.next i) (s.goto i .stopNetwork)
  | nothingToJoin (i : ι) (hi : s.calls i = .join) (hthread : s.thread = none) :
    Turn s (.next i) (s.goto i .stopNetwork)
  | join (i : ι) (k : ℕ) (hi : s.calls i = .join) (hthread : s.thread = some k)
      (hexited : s.loops[k]? = some .exited) :
    Turn s (.next i) { s.goto i .stopNetwork with thread := none }
  | stopNetwork (i : ι) (hi : s.calls i = .stopNetwork) :
    Turn s (.next i) { s.goto i .outside with networkStarted := false }
  | loop (k : ℕ) (v w : LoopThread) (hv : s.loops[k]? = some v)
      (hw : v.next s.schedulerRunning = some w) : Turn s (.loop k) { s with loops := s.loops.set k w }

variable {s t : Lifecycle ι} {l : LifecycleLabel ι} {ls : List (LifecycleLabel ι)}

theorem turn_of_next {i : ι} (h : s.next i = some t) : s.Turn (.next i) t := by
  unfold next at h
  split at h
  · cases h
  · next hi =>
    split_ifs at h with hmanager
    · cases h
      exact .noNetwork i hi hmanager
    · cases h
      exact .startNetwork i hi hmanager
  · next hi =>
    split_ifs at h with hmanager
    · cases h
      exact .setProvider i hi hmanager
    · cases h
      exact .noProvider i hi hmanager
  · next hi =>
    cases h
    exact .refreshCache i hi
  · next hi =>
    split_ifs at h with hrunning
    · cases h
      exact .schedulerRuns i hi hrunning
    · cases h
      exact .startScheduler i hi (by simpa using hrunning)
  · next hi =>
    split_ifs at h with hthread
    · cases h
      exact .terminates i hi (Option.isSome_iff_ne_none.mp hthread)
    · cases h
      exact .spawn i hi (by simpa using hthread)
  · next hi =>
    split_ifs at h with hrunning
    · cases h
      exact .stopScheduler i hi hrunning
    · cases h
      exact .schedulerStopped i hi (by simpa using hrunning)
  · next hi =>
    split at h
    · next hthread =>
      cases h
      exact .nothingToJoin i hi hthread
    · next k hthread =>
      split_ifs at h with hexited
      cases h
      exact .join i k hi hthread hexited
  · next hi =>
    cases h
    exact .stopNetwork i hi

theorem turn_of_step (h : s.step l = some t) : s.Turn l t ∧ s.terminated = false := by
  unfold step at h
  by_cases hterminated : s.terminated = true
  · rw [if_pos hterminated] at h
    cases h
  rw [if_neg hterminated] at h
  refine ⟨?_, by simpa using hterminated⟩
  cases l with
  | start i =>
    dsimp only at h
    split_ifs at h with hi hrunning
    · cases h
      exact .startAgain i hi hrunning
    · cases h
      exact .start i hi (by simpa using hrunning)
  | stop i =>
    dsimp only at h
    split_ifs at h with hi hrunning
    · cases h
      exact .stop i hi hrunning
    · cases h
      exact .stopAgain i hi (by simpa using hrunning)
  | next i => exact turn_of_next h
  | startFails i =>
    dsimp only at h
    split_ifs at h with henabled
    cases h
    exact .startFails i henabled.1 henabled.2
  | loop k =>
    obtain ⟨w, hw, rfl⟩ := Option.map_eq_some_iff.mp h
    obtain ⟨v, hv, hw⟩ := Option.bind_eq_some_iff.mp hw
    exact .loop k v w hv hw

/-! ## One call at a time -/

/-- A call of `start` or `stop` begins when no other is under way. -/
def Serial (s : Lifecycle ι) : LifecycleLabel ι → Prop
  | .start _ => ∀ j, s.calls j = .outside
  | .stop _ => ∀ j, s.calls j = .outside
  | _ => True

instance [Fintype ι] (s : Lifecycle ι) : ∀ l, Decidable (s.Serial l)
  | .start _ => inferInstanceAs (Decidable (∀ j, s.calls j = .outside))
  | .stop _ => inferInstanceAs (Decidable (∀ j, s.calls j = .outside))
  | .next _ => isTrue trivial
  | .startFails _ => isTrue trivial
  | .loop _ => isTrue trivial

/-- The network is up, unless the last `start` brought none up. -/
def Networked (s : Lifecycle ι) : Prop := s.networkStarted = !s.offline

/-- The provider is set, if the manager can have one. -/
def Provided (s : Lifecycle ι) : Prop := s.manager = .boost → s.providerSet = true

/-- The flags and the handle when the one call under way has reached this place, or when there is
none. -/
def Agrees (s : Lifecycle ι) : ServerCall → Prop
  | .outside => s.schedulerRunning = s.serverRunning ∧
      s.networkStarted = (s.serverRunning && !s.offline) ∧ s.thread.isSome = s.serverRunning
  | .startNetwork => s.serverRunning = true ∧ s.schedulerRunning = false ∧ s.networkStarted = false ∧
      s.thread = none
  | .setProvider => s.serverRunning = true ∧ s.schedulerRunning = false ∧ s.Networked ∧
      s.thread = none
  | .refreshCache => s.serverRunning = true ∧ s.schedulerRunning = false ∧ s.Networked ∧
      s.thread = none ∧ s.Provided
  | .startScheduler => s.serverRunning = true ∧ s.schedulerRunning = false ∧ s.Networked ∧
      s.thread = none ∧ s.Provided ∧ s.cacheFilled = true
  | .spawn => s.serverRunning = true ∧ s.schedulerRunning = true ∧ s.Networked ∧
      s.thread = none ∧ s.Provided ∧ s.cacheFilled = true
  | .stopScheduler => s.serverRunning = false ∧ s.schedulerRunning = true ∧ s.Networked ∧
      s.thread.isSome = true
  | .join => s.serverRunning = false ∧ s.schedulerRunning = false ∧ s.Networked ∧
      s.thread.isSome = true
  | .stopNetwork => s.serverRunning = false ∧ s.schedulerRunning = false ∧ s.Networked ∧
      s.thread = none

/-- At most one call is under way, and it agrees with the state. -/
structure Calling (s : Lifecycle ι) : Prop where
  one : ∀ i j, s.calls i ≠ .outside → s.calls j ≠ .outside → i = j
  busy : ∀ i, s.calls i ≠ .outside → s.Agrees (s.calls i)
  idle : (∀ i, s.calls i = .outside) → s.Agrees .outside

/-- The loops, the handle and what is set up. -/
structure Looping (s : Lifecycle ι) : Prop where
  /-- A loop that has not ended has the handle. -/
  alive : ∀ k w, s.loops[k]? = some w → w ≠ .exited → s.thread = some k
  /-- The handle has a loop, which ends only when it is told to. -/
  handle : ∀ k, s.thread = some k →
    ∃ w, s.loops[k]? = some w ∧ (s.schedulerRunning = true → w ≠ .exited)
  ready : s.thread.isSome = true → s.Networked ∧ s.Provided ∧ s.cacheFilled = true

omit [DecidableEq ι] in
/-- The other calls are not under way. -/
theorem Calling.others (hs : s.Calling) {i : ι} (hi : s.calls i ≠ .outside) (j : ι) (hj : j ≠ i) :
    s.calls j = .outside := by
  by_contra hne
  exact hj (hs.one j i hne hi)

/-- The call goes on. -/
theorem calling_of_update {i : ι} {p : ServerCall} (hcalls : t.calls = Function.update s.calls i p)
    (hothers : ∀ j, j ≠ i → s.calls j = .outside) (hagrees : t.Agrees p) : t.Calling := by
  have hi : t.calls i = p := by rw [hcalls, Function.update_self]
  have hne : ∀ j, t.calls j ≠ .outside → j = i := by
    intro j hj
    by_contra hji
    rw [hcalls, Function.update_of_ne hji] at hj
    exact hj (hothers j hji)
  exact
    { one := fun j k hj hk => (hne j hj).trans (hne k hk).symm
      busy := fun j hj => by rw [hne j hj, hi]; exact hagrees
      idle := fun hall => by rw [← hall i, hi]; exact hagrees }

omit [DecidableEq ι] in
/-- The place a call has reached agrees with the state. -/
theorem Calling.agrees (hs : s.Calling) {i : ι} {p : ServerCall} (hi : s.calls i = p)
    (hp : p ≠ .outside) : s.Agrees p ∧ ∀ j, j ≠ i → s.calls j = .outside := by
  subst hi
  exact ⟨hs.busy i hp, hs.others hp⟩

theorem calling_step (hs : s.Calling) (hl : s.Serial l) (h : s.step l = some t) : t.Calling := by
  cases (turn_of_step h).1 with
  | startAgain i hi hrunning => exact hs
  | start i hi hrunning =>
    obtain ⟨hscheduler, hnetwork, hthread⟩ := hs.idle hl
    rw [hrunning] at hscheduler hnetwork hthread
    exact calling_of_update rfl (fun j _ => hl j)
      ⟨rfl, hscheduler, hnetwork, Option.isNone_iff_eq_none.mp (Option.isSome_eq_false_iff.mp hthread)⟩
  | stopAgain i hi hrunning => exact hs
  | stop i hi hrunning =>
    obtain ⟨hscheduler, hnetwork, hthread⟩ := hs.idle hl
    rw [hrunning] at hscheduler hnetwork hthread
    exact calling_of_update rfl (fun j _ => hl j) ⟨rfl, hscheduler, hnetwork, hthread⟩
  | noNetwork i hi hmanager =>
    obtain ⟨⟨hserver, hscheduler, hdown, hthread⟩, hothers⟩ := hs.agrees hi (by decide)
    exact calling_of_update rfl hothers ⟨hserver, hscheduler, hdown, hthread⟩
  | startNetwork i hi hmanager =>
    obtain ⟨⟨hserver, hscheduler, -, hthread⟩, hothers⟩ := hs.agrees hi (by decide)
    exact calling_of_update rfl hothers ⟨hserver, hscheduler, rfl, hthread⟩
  | startFails i hi hmanager =>
    obtain ⟨⟨hserver, hscheduler, hdown, hthread⟩, hothers⟩ := hs.agrees hi (by decide)
    exact calling_of_update rfl hothers ⟨hserver, hscheduler, hdown, hthread⟩
  | setProvider i hi hmanager =>
    obtain ⟨⟨hserver, hscheduler, hnetwork, hthread⟩, hothers⟩ := hs.agrees hi (by decide)
    exact calling_of_update rfl hothers ⟨hserver, hscheduler, hnetwork, hthread, fun _ => rfl⟩
  | noProvider i hi hmanager =>
    obtain ⟨⟨hserver, hscheduler, hnetwork, hthread⟩, hothers⟩ := hs.agrees hi (by decide)
    exact calling_of_update rfl hothers
      ⟨hserver, hscheduler, hnetwork, hthread, fun hboost => absurd hboost hmanager⟩
  | refreshCache i hi =>
    obtain ⟨⟨hserver, hscheduler, hnetwork, hthread, hprovider⟩, hothers⟩ := hs.agrees hi (by decide)
    exact calling_of_update rfl hothers ⟨hserver, hscheduler, hnetwork, hthread, hprovider, rfl⟩
  | schedulerRuns i hi hrunning =>
    obtain ⟨⟨-, hscheduler, -⟩, -⟩ := hs.agrees hi (by decide)
    cases hrunning.symm.trans hscheduler
  | startScheduler i hi hrunning =>
    obtain ⟨⟨hserver, -, hnetwork, hthread, hready⟩, hothers⟩ := hs.agrees hi (by decide)
    exact calling_of_update rfl hothers ⟨hserver, rfl, hnetwork, hthread, hready⟩
  | terminates i hi hthread =>
    obtain ⟨⟨-, -, -, hnone, -⟩, -⟩ := hs.agrees hi (by decide)
    exact absurd hnone hthread
  | spawn i hi hthread =>
    obtain ⟨⟨hserver, hscheduler, hnetwork, -⟩, hothers⟩ := hs.agrees hi (by decide)
    refine calling_of_update rfl hothers ⟨hscheduler.trans hserver.symm, ?_, hserver.symm⟩
    exact hnetwork.trans (by simp [goto, hserver])
  | stopScheduler i hi hrunning =>
    obtain ⟨⟨hserver, -, hnetwork, hthread⟩, hothers⟩ := hs.agrees hi (by decide)
    exact calling_of_update rfl hothers ⟨hserver, rfl, hnetwork, hthread⟩
  | schedulerStopped i hi hrunning =>
    obtain ⟨⟨-, hscheduler, -⟩, -⟩ := hs.agrees hi (by decide)
    cases hrunning.symm.trans hscheduler
  | nothingToJoin i hi hthread =>
    obtain ⟨⟨-, -, -, hsome⟩, -⟩ := hs.agrees hi (by decide)
    rw [hthread] at hsome
    cases hsome
  | join i k hi hthread hexited =>
    obtain ⟨⟨hserver, hscheduler, hnetwork, -⟩, hothers⟩ := hs.agrees hi (by decide)
    exact calling_of_update rfl hothers ⟨hserver, hscheduler, hnetwork, rfl⟩
  | stopNetwork i hi =>
    obtain ⟨⟨hserver, hscheduler, -, hthread⟩, hothers⟩ := hs.agrees hi (by decide)
    exact calling_of_update rfl hothers ⟨hscheduler.trans hserver.symm, by simp [goto, hserver],
      (congrArg Option.isSome hthread).trans hserver.symm⟩
  | loop k v w hv hw => exact ⟨hs.one, hs.busy, hs.idle⟩

omit [DecidableEq ι] in
/-- A step that leaves loops and handle alone. -/
theorem Looping.of_eq (hs : s.Looping) (hloops : t.loops = s.loops) (hthread : t.thread = s.thread)
    (hrunning : t.schedulerRunning = true → s.schedulerRunning = true)
    (hready : s.Networked → s.Provided → s.cacheFilled = true →
      t.Networked ∧ t.Provided ∧ t.cacheFilled = true) : t.Looping where
  alive k w hw := by
    rw [hloops] at hw
    rw [hthread]
    exact hs.alive k w hw
  handle k hk := by
    rw [hthread] at hk
    obtain ⟨w, hw, halive⟩ := hs.handle k hk
    exact ⟨w, hloops ▸ hw, fun h => halive (hrunning h)⟩
  ready h := by
    rw [hthread] at h
    obtain ⟨hnetwork, hprovider, hcache⟩ := hs.ready h
    exact hready hnetwork hprovider hcache

omit [DecidableEq ι] in
/-- A step without a handle, before and after. -/
theorem Looping.of_none (hs : s.Looping) (hloops : t.loops = s.loops) (hnone : s.thread = none)
    (hthread : t.thread = none) : t.Looping where
  alive k w hw halive := by
    rw [hloops] at hw
    rw [hthread, ← hnone]
    exact hs.alive k w hw halive
  handle k hk := by cases hthread.symm.trans hk
  ready h := by
    rw [hthread] at h
    cases h

theorem looping_step (hs : s.Looping) (hcalling : s.Calling) (h : s.step l = some t) : t.Looping := by
  cases (turn_of_step h).1 with
  | startAgain i hi hrunning => exact hs
  | start i hi hrunning => exact hs.of_eq rfl rfl id fun h h' h'' => ⟨h, h', h''⟩
  | stopAgain i hi hrunning => exact hs
  | stop i hi hrunning => exact hs.of_eq rfl rfl id fun h h' h'' => ⟨h, h', h''⟩
  | noNetwork i hi hmanager =>
    obtain ⟨⟨-, -, -, hthread⟩, -⟩ := hcalling.agrees hi (by decide)
    exact hs.of_none rfl hthread hthread
  | startNetwork i hi hmanager => exact hs.of_eq rfl rfl id fun _ h' h'' => ⟨rfl, h', h''⟩
  | startFails i hi hmanager =>
    obtain ⟨⟨-, -, -, hthread⟩, -⟩ := hcalling.agrees hi (by decide)
    exact hs.of_none rfl hthread hthread
  | setProvider i hi hmanager => exact hs.of_eq rfl rfl id fun h _ h'' => ⟨h, fun _ => rfl, h''⟩
  | noProvider i hi hmanager => exact hs.of_eq rfl rfl id fun h h' h'' => ⟨h, h', h''⟩
  | refreshCache i hi => exact hs.of_eq rfl rfl id fun h h' _ => ⟨h, h', rfl⟩
  | schedulerRuns i hi hrunning => exact hs.of_eq rfl rfl id fun h h' h'' => ⟨h, h', h''⟩
  | startScheduler i hi hrunning =>
    obtain ⟨⟨-, -, -, hthread, -⟩, -⟩ := hcalling.agrees hi (by decide)
    exact hs.of_none rfl hthread hthread
  | terminates i hi hthread => exact hs.of_eq rfl rfl id fun h h' h'' => ⟨h, h', h''⟩
  | spawn i hi hthread =>
    obtain ⟨⟨-, -, hnetwork, -, hready⟩, -⟩ := hcalling.agrees hi (by decide)
    refine ⟨fun k w hw halive => ?_, fun k hk => ?_, fun _ => ⟨hnetwork, hready⟩⟩
    · rcases Nat.lt_or_ge k s.loops.length with hlt | hge
      · -- the loops of before have ended, for nobody has their handle
        rw [List.getElem?_append_left hlt] at hw
        cases hthread.symm.trans (hs.alive k w hw halive)
      · have hlast : k < (s.loops ++ [LoopThread.checking]).length := (List.getElem?_eq_some_iff.mp hw).1
        rw [List.length_append, List.length_singleton] at hlast
        exact congrArg some (Nat.le_antisymm hge (Nat.lt_succ_iff.mp hlast))
    · cases hk
      exact ⟨.checking, List.getElem?_concat_length, fun _ => by decide⟩
  | stopScheduler i hi hrunning =>
    exact hs.of_eq rfl rfl (fun h => Bool.noConfusion h) fun h h' h'' => ⟨h, h', h''⟩
  | schedulerStopped i hi hrunning => exact hs.of_eq rfl rfl id fun h h' h'' => ⟨h, h', h''⟩
  | nothingToJoin i hi hthread => exact hs.of_eq rfl rfl id fun h h' h'' => ⟨h, h', h''⟩
  | join i k hi hthread hexited =>
    refine ⟨fun j w hw halive => ?_, fun j hj => ?_, fun hsome => ?_⟩
    · cases hthread.symm.trans (hs.alive j w hw halive)
      exact absurd (Option.some.inj (hw.symm.trans hexited)) halive
    · cases hj
    · cases hsome
  | stopNetwork i hi =>
    obtain ⟨⟨-, -, -, hthread⟩, -⟩ := hcalling.agrees hi (by decide)
    exact hs.of_none rfl hthread hthread
  | loop k v w hv hw =>
    have hlt : k < s.loops.length := (List.getElem?_eq_some_iff.mp hv).1
    refine ⟨fun j u hu halive => ?_, fun j hj => ?_, hs.ready⟩
    · by_cases hjk : k = j
      · subst hjk
        exact hs.alive k v hv (LoopThread.ne_exited_of_next hw)
      · rw [List.getElem?_set_ne hjk] at hu
        exact hs.alive j u hu halive
    · obtain ⟨u, hu, hrunning⟩ := hs.handle j hj
      by_cases hjk : k = j
      · subst hjk
        exact ⟨w, List.getElem?_set_self hlt, fun hrun => LoopThread.next_ne_exited (hrun ▸ hw)⟩
      · exact ⟨u, (List.getElem?_set_ne hjk).trans hu, hrunning⟩

/-- The invariant of calls made one at a time. -/
structure Sound (s : Lifecycle ι) : Prop extends Calling s, Looping s where
  goesOn : s.terminated = false

omit [DecidableEq ι] in
theorem sound_start (manager : Manager) : Sound ({ manager := manager } : Lifecycle ι) where
  one i j hi := absurd rfl hi
  busy i hi := absurd rfl hi
  idle _ := ⟨rfl, rfl, rfl⟩
  alive k w hw := by cases hw
  handle k hk := by cases hk
  ready h := by cases h
  goesOn := rfl

theorem sound_step (hs : s.Sound) (hl : s.Serial l) (h : s.step l = some t) : t.Sound := by
  refine ⟨calling_step hs.toCalling hl h, looping_step hs.toLooping hs.toCalling h, ?_⟩
  cases (turn_of_step h).1 with
  | terminates i hi hthread =>
    obtain ⟨⟨-, -, -, hnone, -⟩, -⟩ := hs.agrees hi (by decide)
    exact absurd hnone hthread
  | _ => exact hs.goesOn

theorem sound_of_run (hs : s.Sound) (hserial : Always step Serial s ls) (h : run step s ls = some t) :
    t.Sound :=
  run_invariant (fun _ _ _ hs hl h => sound_step hs hl h) hs hserial h

/-! ## A stop returns -/

/-- A loop that has not ended. -/
def Alive (s : Lifecycle ι) (k : ℕ) : Prop := ∃ w, s.loops[k]? = some w ∧ w ≠ .exited

/-- The steps that nobody has to call for. -/
def isInternal : LifecycleLabel ι → Bool
  | .next _ | .startFails _ | .loop _ => true
  | .start _ | .stop _ => false

/-- None of them can be taken. -/
def AtRest (s : Lifecycle ι) : Prop := ∀ l, isInternal l = true → s.step l = none

/-- The call of `i` has told the loop to end. -/
structure Stopping (i : ι) (s : Lifecycle ι) : Prop where
  server : s.serverRunning = false
  scheduler : s.schedulerRunning = false
  call : s.calls i = .join ∨ s.calls i = .stopNetwork ∨ s.calls i = .outside
  others : ∀ j, j ≠ i → s.calls j = .outside

/-- How many steps there are left until it returns and the loops have ended, at most. -/
def measure (i : ι) (s : Lifecycle ι) : ℕ :=
  (s.calls i).weight + (s.loops.map LoopThread.weight).sum

theorem weight_set {loops : List LoopThread} {k : ℕ} {v w : LoopThread} (hv : loops[k]? = some v) :
    ((loops.set k w).map LoopThread.weight).sum + v.weight =
      (loops.map LoopThread.weight).sum + w.weight := by
  induction loops generalizing k with
  | nil => cases hv
  | cons u loops ih =>
    cases k with
    | zero =>
      cases hv
      simp only [List.set_cons_zero, List.map_cons, List.sum_cons]
      omega
    | succ k =>
      have h := ih hv
      simp only [List.set_cons_succ, List.map_cons, List.sum_cons]
      omega

theorem weight_next {v w : LoopThread} (h : v.next false = some w) : w.weight < v.weight := by
  cases v <;> cases h <;> decide

theorem stopping_step {i : ι} (hs : s.Stopping i) (hl : isInternal l = true) (h : s.step l = some t) :
    t.Stopping i ∧ t.measure i < s.measure i := by
  have hcall : ∀ {j p}, s.calls j = p → p ≠ .outside → j = i := fun hj hp => by
    by_contra hji
    exact hp (hj.symm.trans (hs.others _ hji))
  have hplace : ∀ {j p}, s.calls j = p → p ≠ .outside → p = .join ∨ p = .stopNetwork := fun hj hp => by
    cases hcall hj hp
    rcases hs.call with h | h | h
    · exact Or.inl (hj.symm.trans h)
    · exact Or.inr (hj.symm.trans h)
    · exact absurd (hj.symm.trans h) hp
  have hgoto : ∀ {p}, ∀ j, j ≠ i → (Function.update s.calls i p) j = .outside := fun j hj => by
    rw [Function.update_of_ne hj]
    exact hs.others j hj
  cases (turn_of_step h).1 with
  | startAgain j hj hrunning => cases hl
  | start j hj hrunning => cases hl
  | stopAgain j hj hrunning => cases hl
  | stop j hj hrunning => cases hl
  | noNetwork j hj hmanager => exact absurd (hplace hj (by decide)) (by decide)
  | startNetwork j hj hmanager => exact absurd (hplace hj (by decide)) (by decide)
  | startFails j hj hmanager => exact absurd (hplace hj (by decide)) (by decide)
  | setProvider j hj hmanager => exact absurd (hplace hj (by decide)) (by decide)
  | noProvider j hj hmanager => exact absurd (hplace hj (by decide)) (by decide)
  | refreshCache j hj => exact absurd (hplace hj (by decide)) (by decide)
  | schedulerRuns j hj hrunning => exact absurd (hplace hj (by decide)) (by decide)
  | startScheduler j hj hrunning => exact absurd (hplace hj (by decide)) (by decide)
  | terminates j hj hthread => exact absurd (hplace hj (by decide)) (by decide)
  | spawn j hj hthread => exact absurd (hplace hj (by decide)) (by decide)
  | stopScheduler j hj hrunning => exact absurd (hplace hj (by decide)) (by decide)
  | schedulerStopped j hj hrunning => exact absurd (hplace hj (by decide)) (by decide)
  | nothingToJoin j hj hthread =>
    cases hcall hj (by decide)
    refine ⟨⟨hs.server, hs.scheduler, Or.inr (Or.inl (Function.update_self ..)), hgoto⟩, ?_⟩
    simp [measure, goto, hj, ServerCall.weight]
  | join j k hj hthread hexited =>
    cases hcall hj (by decide)
    refine ⟨⟨hs.server, hs.scheduler, Or.inr (Or.inl (Function.update_self ..)), hgoto⟩, ?_⟩
    simp [measure, goto, hj, ServerCall.weight]
  | stopNetwork j hj =>
    cases hcall hj (by decide)
    refine ⟨⟨hs.server, hs.scheduler, Or.inr (Or.inr (Function.update_self ..)), hgoto⟩, ?_⟩
    simp [measure, goto, hj, ServerCall.weight]
  | loop k v w hv hw =>
    refine ⟨⟨hs.server, hs.scheduler, hs.call, hs.others⟩, ?_⟩
    rw [hs.scheduler] at hw
    have hset := weight_set (w := w) hv
    have hlt := weight_next hw
    simp only [measure]
    omega

theorem stopping_of_run {i : ι} (hs : s.Stopping i) (hls : ∀ l ∈ ls, isInternal l = true)
    (h : run step s ls = some t) : t.Stopping i ∧ ls.length + t.measure i ≤ s.measure i := by
  induction ls generalizing s with
  | nil =>
    cases h
    exact ⟨hs, Nat.le_of_eq (Nat.zero_add _)⟩
  | cons l ls ih =>
    obtain ⟨s', hs', ht⟩ := run_cons_eq_some.mp h
    obtain ⟨hstopping, hlt⟩ := stopping_step hs (hls l List.mem_cons_self) hs'
    obtain ⟨ht', hle⟩ := ih hstopping (fun l' hl' => hls l' (List.mem_cons_of_mem l hl')) ht
    refine ⟨ht', ?_⟩
    rw [List.length_cons]
    omega

/-- At rest the call has returned and no loop is left. -/
theorem stopped_of_atRest {i : ι} (hs : s.Sound) (hstopping : s.Stopping i) (hrest : s.AtRest) :
    (∀ j, s.calls j = .outside) ∧ (∀ k, ¬ s.Alive k) ∧ s.networkStarted = false := by
  have hexited : ∀ (k : ℕ) (w : LoopThread), s.loops[k]? = some w → w = .exited := by
    intro k w hw
    by_contra halive
    have h := hrest (.loop k) rfl
    cases w with
    | exited => exact halive rfl
    | _ => simp [step, hs.goesOn, hw, LoopThread.next] at h
  have hnext : s.next i = none := by
    have h := hrest (.next i) rfl
    rwa [step, if_neg (by simp [hs.goesOn])] at h
  have hcall : s.calls i = .outside := by
    rcases hstopping.call with hi | hi | hi
    · obtain ⟨k, hk⟩ := Option.isSome_iff_exists.mp (hs.agrees hi (by decide)).1.2.2.2
      obtain ⟨w, hw, -⟩ := hs.handle k hk
      rw [hexited k w hw] at hw
      simp [next, hi, hk, hw] at hnext
    · simp [next, hi] at hnext
    · exact hi
  have hall : ∀ j, s.calls j = .outside := by
    intro j
    by_cases hj : j = i
    · rw [hj, hcall]
    · exact hstopping.others j hj
  refine ⟨hall, fun k hk => ?_, (hs.idle hall).2.1.trans (by simp [hstopping.server])⟩
  obtain ⟨w, hw, halive⟩ := hk
  exact halive (hexited k w hw)

theorem manager_step (h : s.step l = some t) : t.manager = s.manager := by
  cases (turn_of_step h).1 <;> rfl

/-- **Starting and stopping**, by any number of threads, one call at a time, over every
interleaving with the loops.  The program is never terminated; there is never more than one loop,
and it ticks only with the cache filled, the provider set if the manager can have one, and the
network up exactly if the last `start` brought it up; between the calls there is a loop exactly
while the server runs; and once a `stop` has told the loop to end, it takes no more than `measure`
steps until nothing can go on, and then the call has returned, no loop is left and the network is
down. -/
theorem run_lifecycle {manager : Manager}
    (h : run step ({ manager := manager } : Lifecycle ι) ls = some t)
    (hserial : Always step Serial { manager := manager } ls) :
    t.terminated = false ∧
    (∀ k k', t.Alive k → t.Alive k' → k = k') ∧
    (∀ k : ℕ, t.loops[k]? = some LoopThread.ticking → t.networkStarted = !t.offline ∧
      (manager = .boost → t.providerSet = true) ∧ t.cacheFilled = true) ∧
    ((∀ i, t.calls i = .outside) → (t.serverRunning = true ↔ ∃ k, t.Alive k)) ∧
    ∀ i, t.calls i = .join → ∀ ls' u, (∀ l ∈ ls', isInternal l = true) → run step t ls' = some u →
      ls'.length ≤ t.measure i ∧
        (u.AtRest → (∀ j, u.calls j = .outside) ∧ (∀ k, ¬ u.Alive k) ∧ u.networkStarted = false) := by
  have ht := sound_of_run (sound_start manager) hserial h
  have hmanager : t.manager = manager :=
    run_invariant' (I := fun s : Lifecycle ι => s.manager = manager)
      (fun _ _ _ hs h => (manager_step h).trans hs) rfl h
  refine ⟨ht.goesOn, fun k k' hk hk' => ?_, fun k hk => ?_, fun hall => ⟨fun hrunning => ?_, ?_⟩,
    fun i hi ls' u hls' hu => ?_⟩
  · obtain ⟨w, hw, halive⟩ := hk
    obtain ⟨w', hw', halive'⟩ := hk'
    exact Option.some.inj ((ht.alive k w hw halive).symm.trans (ht.alive k' w' hw' halive'))
  · obtain ⟨hnetwork, hprovider, hcache⟩ := ht.ready (by rw [ht.alive k _ hk (by decide)]; rfl)
    exact ⟨hnetwork, fun hboost => hprovider (hmanager.trans hboost), hcache⟩
  · obtain ⟨hscheduler, -, hthread⟩ := ht.idle hall
    rw [hrunning] at hscheduler hthread
    obtain ⟨k, hk⟩ := Option.isSome_iff_exists.mp hthread
    obtain ⟨w, hw, halive⟩ := ht.handle k hk
    exact ⟨k, w, hw, halive hscheduler⟩
  · rintro ⟨k, w, hw, halive⟩
    rw [← (ht.idle hall).2.2, ht.alive k w hw halive]
    rfl
  · obtain ⟨⟨hserver, hscheduler, -⟩, hothers⟩ := ht.agrees hi (by decide)
    obtain ⟨hstopping, hle⟩ := stopping_of_run ⟨hserver, hscheduler, Or.inl hi, hothers⟩ hls' hu
    have hserial' : Always step Serial t ls' := always_of_forall_mem (P := Serial) (fun l hl s => by
      have hinternal := hls' l hl
      cases l with
      | start j => cases hinternal
      | stop j => cases hinternal
      | next j => exact trivial
      | startFails j => exact trivial
      | loop k => exact trivial) t
    exact ⟨Nat.le_trans (Nat.le_add_right _ _) hle,
      stopped_of_atRest (sound_of_run ht hserial' hu) hstopping⟩

/-- Started, stopped in the middle of a tick, and started again while the port is taken. -/
def restart : List (LifecycleLabel Bool) :=
  [.start true, .next true, .next true, .next true, .next true, .next true, .loop 0, .stop true,
    .next true, .loop 0, .loop 0, .loop 0, .next true, .next true, .start false, .startFails false,
    .next false, .next false, .next false, .next false, .loop 1, .stop true, .next true]

/-- The second loop ticks without a network, and the second `stop` ends it all the same. -/
theorem run_lifecycle_restart : ∃ t : Lifecycle Bool, run step {} restart = some t ∧
    t.terminated = false ∧ t.Alive 1 ∧ (∀ k, t.Alive k → k = 1) ∧ t.networkStarted = false ∧
      t.providerSet = true ∧ t.cacheFilled = true ∧
        ∀ ls' u, (∀ l ∈ ls', isInternal l = true) → run step t ls' = some u → ls'.length ≤ 5 := by
  obtain ⟨t, ht, hticking, hjoin, hmeasure, hoffline⟩ : ∃ t : Lifecycle Bool,
      run step {} restart = some t ∧ t.loops[1]? = some LoopThread.ticking ∧
        t.calls true = .join ∧ t.measure true = 5 ∧ t.offline = true :=
    ⟨_, rfl, rfl, rfl, rfl, rfl⟩
  obtain ⟨hgoesOn, hone, hready, -, hreturns⟩ := run_lifecycle ht (by decide)
  obtain ⟨hnetwork, hprovider, hcache⟩ := hready 1 hticking
  have halive : t.Alive 1 := ⟨_, hticking, by decide⟩
  exact ⟨t, ht, hgoesOn, halive, fun k hk => hone k 1 hk halive,
    hnetwork.trans (by rw [hoffline]; rfl), hprovider rfl, hcache,
    fun ls' u hls' hu => hmeasure ▸ (hreturns true hjoin ls' u hls' hu).1⟩

/-! ## Two calls at once -/

/-- A `start` that finds the handle of the loop that a `stop` is about to join. -/
def startDuringStop : List (LifecycleLabel Bool) :=
  [.start true, .next true, .next true, .next true, .next true, .next true, .stop true, .next true,
    .start false, .next false, .next false, .next false, .next false, .next false]

/-- A `stop` that comes before the loop is spawned, and the next `start`. -/
def stopDuringStart : List (LifecycleLabel Bool) :=
  [.start true, .next true, .next true, .next true, .next true, .stop false, .next false, .next true,
    .start true, .next true, .next true, .next true, .next true, .next true]

/-- **Overlapping calls end the program.** -/
theorem terminated_of_overlap : ∃ t u : Lifecycle Bool, run step {} startDuringStop = some t ∧
    t.terminated = true ∧ run step {} stopDuringStart = some u ∧ u.terminated = true :=
  ⟨_, _, rfl, rfl, rfl, rfl⟩

end Lifecycle
end Multilife

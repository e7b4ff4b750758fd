import Multilife.System.Accounts

/-!
# The command queue, one operation at a time

`onCommandsFromNetwork` pushes the commands of a callback one by one, `onTick` pops until
it happens to see an empty queue, and the mutex of `ThreadSafeQueue` makes each push and
each pop atomic.  `Threads.step` interleaves them: any number of sessions, each with a
callback in progress, and the tick thread.

* `conserved_of_run`: what has been applied, what is collected and what is queued is what
  was pushed, in this order.
* `run_commandQueue`: hence each session's commands are applied at most once and in the
  order received, and a tick applies what was pushed before it began to drain.
* `atomic_of_run`: the interleavings are runs of the server whose tick takes the whole
  queue at once, which the rest of the development is about.
-/

namespace Multilife

open Transition

/-! ## The queue -/

namespace ThreadSafeQueue

variable {T : Type*}

/-- `push`. -/
def push (queue : List T) (value : T) : List T := queue ++ [value]

/-- `tryPop`: the front and the rest, if there is a front. -/
def tryPop : List T → Option (T × List T)
  | [] => none
  | front :: queue => some (front, queue)

end ThreadSafeQueue

/-! ## The threads -/

/-- Where the tick thread is: between two ticks, in the loop of `tryPop`, or behind it
with the batch it has collected. -/
inductive TickThread where
  | idle
  | draining (sched : TickSchedule) (batch : List PlayerCommand)
  | drained (sched : TickSchedule) (batch : List PlayerCommand)

/-- The batch being collected. -/
def TickThread.batch : TickThread → List PlayerCommand
  | .idle => []
  | .draining _ batch => batch
  | .drained _ batch => batch

/-- The server with its queue, what the callback of each session has still to push, and
the tick thread. -/
structure Threads (ι : Type*) where
  server : GameServer := {}
  callbacks : ι → List PlayerCommand := fun _ => []
  tickThread : TickThread := .idle

/-- The atomic operations. -/
inductive QueueLabel (ι : Type*) where
  /-- The callback of a session is called with these commands. -/
  | callback (i : ι) (commands : List PlayerCommand)
  /-- It pushes its next command. -/
  | push (i : ι)
  /-- `onTick` begins. -/
  | beginTick (sched : TickSchedule)
  | tryPop
  /-- The simulation step and `applyCommands` on the batch. -/
  | applyCommands

namespace Threads

variable {ι : Type*} [DecidableEq ι]

def step (s : Threads ι) : QueueLabel ι → Option (Threads ι)
  | .callback i commands =>
    if s.callbacks i = [] then
      some { s with callbacks := Function.update s.callbacks i commands }
    else none
  | .push i =>
    match s.callbacks i with
    | [] => none
    | cmd :: commands => some
      { s with
        server := { s.server with commandQueue := ThreadSafeQueue.push s.server.commandQueue cmd }
        callbacks := Function.update s.callbacks i commands }
  | .beginTick sched =>
    match s.tickThread with
    | .idle => some { s with tickThread := .draining sched [] }
    | _ => none
  | .tryPop =>
    match s.tickThread with
    | .draining sched batch =>
      match ThreadSafeQueue.tryPop s.server.commandQueue with
      | none => some { s with tickThread := .drained sched batch }
      | some (cmd, queue) => some
        { s with
          server := { s.server with commandQueue := queue }
          tickThread := .draining sched (batch ++ [cmd]) }
    | _ => none
  | .applyCommands =>
    match s.tickThread with
    | .drained sched batch =>
      let stepped := ({ s.server with commandQueue := batch }.stepWorld sched).1
      some
        { s with
          server := { stepped with commandQueue := s.server.commandQueue }
          tickThread := .idle }
    | _ => none

/-- What a step does, one constructor for each branch that lets it happen. -/
inductive Turn (s : Threads ι) : QueueLabel ι → Threads ι → Prop where
  | callback (i : ι) (commands : List PlayerCommand) (hdone : s.callbacks i = []) :
    Turn s (.callback i commands) { s with callbacks := Function.update s.callbacks i commands }
  | push (i : ι) (cmd : PlayerCommand) (commands : List PlayerCommand)
      (hcallback : s.callbacks i = cmd :: commands) :
    Turn s (.push i)
      { s with
        server := { s.server with commandQueue := s.server.commandQueue ++ [cmd] }
        callbacks := Function.update s.callbacks i commands }
  | beginTick (sched : TickSchedule) (hidle : s.tickThread = .idle) :
    Turn s (.beginTick sched) { s with tickThread := .draining sched [] }
  | seesEmpty (sched : TickSchedule) (batch : List PlayerCommand)
      (hdraining : s.tickThread = .draining sched batch) (hempty : s.server.commandQueue = []) :
    Turn s .tryPop { s with tickThread := .drained sched batch }
  | pops (sched : TickSchedule) (batch : List PlayerCommand) (cmd : PlayerCommand)
      (queue : List PlayerCommand) (hdraining : s.tickThread = .draining sched batch)
      (hfront : s.server.commandQueue = cmd :: queue) :
    Turn s .tryPop
      { s with
        server := { s.server with commandQueue := queue }
        tickThread := .draining sched (batch ++ [cmd]) }
  | applyCommands (sched : TickSchedule) (batch : List PlayerCommand)
      (hdrained : s.tickThread = .drained sched batch) :
    Turn s .applyCommands
      { s with
        server :=
          { ({ s.server with commandQueue := batch }.stepWorld sched).1 with
            commandQueue := s.server.commandQueue }
        tickThread := .idle }

theorem turn_of_step {s t : Threads ι} {l : QueueLabel ι} (h : s.step l = some t) :
    s.Turn l t := by
  cases l with
  | callback i commands =>
    simp only [step] at h
    split_ifs at h with hdone
    cases h
    exact .callback i commands hdone
  | push i =>
    simp only [step] at h
    split at h
    · cases h
    · next cmd commands hcallback =>
      cases h
      exact .push i cmd commands hcallback
  | beginTick sched =>
    simp only [step] at h
    split at h
    · next hidle =>
      cases h
      exact .beginTick sched hidle
    · cases h
  | tryPop =>
    simp only [step] at h
    split at h
    · next sched batch hdraining =>
      cases hqueue : s.server.commandQueue with
      | nil =>
        rw [hqueue] at h
        cases h
        exact .seesEmpty sched batch hdraining hqueue
      | cons cmd queue =>
        rw [hqueue] at h
        cases h
        exact .pops sched batch cmd queue hdraining hqueue
    · cases h
  | applyCommands =>
    simp only [step] at h
    split at h
    · next sched batch hdrained =>
      cases h
      exact .applyCommands sched batch hdrained
    · cases h

/-! ## What a run has done -/

/-- The commands a step receives, with the session. -/
def received (_ : Threads ι) : QueueLabel ι → List (ι × PlayerCommand)
  | .callback i commands => commands.map fun cmd => (i, cmd)
  | _ => []

/-- The command a step pushes, with the session. -/
def pushed (s : Threads ι) : QueueLabel ι → List (ι × PlayerCommand)
  | .push i => (s.callbacks i).head?.toList.map fun cmd => (i, cmd)
  | _ => []

/-- The batch a step applies. -/
def applied (s : Threads ι) : QueueLabel ι → List (List PlayerCommand)
  | .applyCommands => [s.tickThread.batch]
  | _ => []

/-- The commands of one session, in order. -/
def ofSession (i : ι) (log : List (ι × PlayerCommand)) : List PlayerCommand :=
  (log.filter fun e => e.1 = i).map Prod.snd

@[simp] theorem ofSession_append (i : ι) (log log' : List (ι × PlayerCommand)) :
    ofSession i (log ++ log') = ofSession i log ++ ofSession i log' := by
  rw [ofSession, List.filter_append, List.map_append]
  rfl

@[simp] theorem ofSession_map (i j : ι) (commands : List PlayerCommand) :
    ofSession i (commands.map fun cmd => (j, cmd)) = if j = i then commands else [] := by
  induction commands with
  | nil => simp [ofSession]
  | cons cmd commands ih =>
    rw [ofSession, List.map_cons, List.filter_cons]
    by_cases h : j = i
    · rw [if_pos h] at ih
      simp only [h, decide_true, if_true, List.map_cons] at ih ⊢
      rw [← ofSession, ih]
    · rw [if_neg h] at ih
      simp only [h, decide_false, Bool.false_eq_true, if_false]
      exact ih

/-- **One step**, by what it receives, pushes, collects and applies. -/
theorem conserved_step {s t : Threads ι} {l : QueueLabel ι} (h : s.step l = some t) :
    ((s.applied l).flatten ++ (t.tickThread.batch ++ t.server.commandQueue) =
      s.tickThread.batch ++ s.server.commandQueue ++ (s.pushed l).map Prod.snd) ∧
    ∀ i, s.callbacks i ++ ofSession i (s.received l) =
      ofSession i (s.pushed l) ++ t.callbacks i := by
  cases turn_of_step h with
  | callback j commands hdone =>
    refine ⟨by simp [applied, pushed], fun i => ?_⟩
    rw [received, ofSession_map]
    by_cases hij : i = j
    · subst hij
      simp [pushed, ofSession, hdone]
    · simp [pushed, ofSession, hij, Ne.symm hij]
  | push j cmd commands hcallback =>
    have hpushed : s.pushed (.push j) = [cmd].map fun cmd => (j, cmd) := by
      rw [pushed, hcallback]
      rfl
    refine ⟨by simp [hpushed, applied], fun i => ?_⟩
    rw [hpushed, ofSession_map]
    by_cases hij : i = j
    · subst hij
      simp [received, ofSession, hcallback]
    · simp [received, ofSession, hij, Ne.symm hij]
  | beginTick sched hidle =>
    exact ⟨by simp [applied, pushed, hidle, TickThread.batch],
      fun i => by simp [received, pushed, ofSession]⟩
  | seesEmpty sched batch hdraining hempty =>
    exact ⟨by simp [applied, pushed, hdraining, TickThread.batch],
      fun i => by simp [received, pushed, ofSession]⟩
  | pops sched batch cmd queue hdraining hfront =>
    exact ⟨by simp [applied, pushed, hdraining, TickThread.batch, hfront],
      fun i => by simp [received, pushed, ofSession]⟩
  | applyCommands sched batch hdrained =>
    exact ⟨by simp [applied, pushed, hdrained, TickThread.batch],
      fun i => by simp [received, pushed, ofSession]⟩

/-- **Nothing is lost, duplicated or reordered**, over every interleaving: what is applied,
then what is collected, then what is queued, is what was pushed; and what a session has
pushed, then what its callback has still to push, is what it has received. -/
theorem conserved_of_run {s t : Threads ι} {ls : List (QueueLabel ι)} (h : run step s ls = some t) :
    ((collect step applied s ls).flatten ++ (t.tickThread.batch ++ t.server.commandQueue) =
      s.tickThread.batch ++ s.server.commandQueue ++ (collect step pushed s ls).map Prod.snd) ∧
    ∀ i, s.callbacks i ++ ofSession i (collect step received s ls) =
      ofSession i (collect step pushed s ls) ++ t.callbacks i := by
  constructor
  · exact collect_queue (q := fun s => s.tickThread.batch ++ s.server.commandQueue)
      (fun _ _ => List.flatten_append) (fun _ _ => List.map_append)
      (fun _ _ _ hstep => (conserved_step hstep).1) h
  · intro i
    exact (collect_queue (q := fun s => s.callbacks i) (ofSession_append i) (ofSession_append i)
      (fun _ _ _ hstep => ((conserved_step hstep).2 i).symm) h).symm

/-! ## One tick -/

/-- During a tick: what was queued when it began is in the batch, or follows it. -/
def Covers (queue : List PlayerCommand) (s : Threads ι) : Prop :=
  match s.tickThread with
  | .idle => False
  | .draining _ batch => queue <+: batch ++ s.server.commandQueue
  | .drained _ batch => queue <+: batch

/-- Only `applyCommands` ends the tick. -/
theorem covers_step {queue : List PlayerCommand} {s t : Threads ι} {l : QueueLabel ι}
    (hs : Covers queue s) (hl : l ≠ .applyCommands) (h : s.step l = some t) : Covers queue t := by
  cases turn_of_step h with
  | callback j commands hdone => exact hs
  | push j cmd commands hcallback =>
    unfold Covers at hs ⊢
    dsimp only
    cases htick : s.tickThread with
    | idle =>
      rw [htick] at hs
      exact hs
    | draining sched batch =>
      rw [htick] at hs
      dsimp only
      rw [← List.append_assoc]
      exact hs.trans (List.prefix_append _ _)
    | drained sched batch =>
      rw [htick] at hs
      exact hs
  | beginTick sched hidle =>
    rw [Covers, hidle] at hs
    exact absurd hs id
  | seesEmpty sched batch hdraining hempty =>
    rw [Covers, hdraining] at hs
    dsimp only at hs
    rw [hempty, List.append_nil] at hs
    exact hs
  | pops sched batch cmd queue hdraining hfront =>
    rw [Covers, hdraining] at hs
    dsimp only at hs
    rw [hfront] at hs
    simp only [Covers, List.append_assoc, List.singleton_append]
    exact hs
  | applyCommands sched batch hdrained => exact absurd rfl hl

/-- **A tick applies what was queued when it began to drain.** -/
theorem applied_of_tick {s t : Threads ι} {sched : TickSchedule} {middle : List (QueueLabel ι)}
    (hmiddle : ∀ l ∈ middle, l ≠ .applyCommands)
    (h : run step s (.beginTick sched :: (middle ++ [.applyCommands])) = some t) :
    ∃ batch, collect step applied s (.beginTick sched :: (middle ++ [.applyCommands])) = [batch] ∧
      s.tickThread = .idle ∧ s.server.commandQueue <+: batch := by
  obtain ⟨begun, hbegun, hrest⟩ := run_cons_eq_some.mp h
  obtain ⟨m, hm, hlast⟩ := run_append.mp hrest
  obtain ⟨t', ht', -⟩ := run_cons_eq_some.mp hlast
  have hidle : s.tickThread = .idle ∧ Covers s.server.commandQueue begun := by
    cases turn_of_step hbegun with
    | beginTick _ hidle => exact ⟨hidle, List.prefix_refl _⟩
  have hcovers : Covers s.server.commandQueue m :=
    run_invariant (P := fun _ l => l ≠ .applyCommands)
      (fun s l s' hs hl hstep => covers_step hs hl hstep) hidle.2
      (always_of_forall_mem (fun l hl _ => hmiddle l hl) _) hm
  -- no step in between applies anything
  have hnone : collect step applied begun middle = [] := by
    refine collect_eq_nil (fun l hl s => ?_) begun
    cases l with
    | applyCommands => exact absurd rfl (hmiddle _ hl)
    | _ => rfl
  refine ⟨m.tickThread.batch, ?_, hidle.1, ?_⟩
  · rw [collect_cons hbegun, collect_concat hm _ ht', hnone]
    rfl
  · cases turn_of_step ht' with
    | applyCommands sched batch hdrained =>
      rw [Covers, hdrained] at hcovers
      rw [hdrained]
      exact hcovers

/-- **The command queue**, over every number of sessions and every interleaving of single
pushes and pops.  The batches applied so far, then the batch being collected, then the
queue, are the commands pushed so far; so what is applied of a session's commands is the
first of those it received, in their order; and every command pushed before a tick begins
to drain is applied when that tick has applied its batch. -/
theorem run_commandQueue {t : Threads ι} {ls : List (QueueLabel ι)} (h : run step {} ls = some t) :
    ((collect step applied {} ls).flatten ++ (t.tickThread.batch ++ t.server.commandQueue) =
      (collect step pushed {} ls).map Prod.snd) ∧
    (∃ n, (collect step applied {} ls).flatten = ((collect step pushed {} ls).take n).map Prod.snd ∧
      ∀ i, ofSession i ((collect step pushed {} ls).take n) <+:
        ofSession i (collect step received {} ls)) ∧
    ∀ before sched middle after,
      ls = before ++ (.beginTick sched :: (middle ++ [.applyCommands])) ++ after →
      (∀ l ∈ middle, l ≠ .applyCommands) →
      ∃ batch, collect step applied {} (before ++ (.beginTick sched :: (middle ++ [.applyCommands]))) =
          collect step applied {} before ++ [batch] ∧
        (collect step pushed {} before).map Prod.snd <+:
          (collect step applied {} before ++ [batch]).flatten := by
  obtain ⟨hqueue, hsessions⟩ := conserved_of_run h
  refine ⟨hqueue, ⟨(collect step applied {} ls).flatten.length, ?_, fun i => ?_⟩, ?_⟩
  · rw [List.map_take, ← show _ = (collect step pushed {} ls).map Prod.snd from hqueue, List.take_left]
  · refine List.IsPrefix.trans ?_ ⟨t.callbacks i, (hsessions i).symm⟩
    conv_rhs => rw [← List.take_append_drop (collect step applied {} ls).flatten.length
      (collect step pushed {} ls), ofSession_append]
    exact List.prefix_append _ _
  · rintro before sched middle after rfl hmiddle
    obtain ⟨m', hm', -⟩ := run_append.mp h
    obtain ⟨m, hm, htick⟩ := run_append.mp hm'
    obtain ⟨batch, hbatch, hidle, hprefix⟩ := applied_of_tick hmiddle htick
    refine ⟨batch, by rw [collect_append hm, hbatch], ?_⟩
    have hbefore := (conserved_of_run hm).1
    rw [hidle] at hbefore
    rw [List.flatten_append, List.flatten_singleton,
      ← show _ = (collect step pushed {} before).map Prod.snd from hbefore]
    exact (List.prefix_append_right_inj _).mpr hprefix

/-- Two sessions; the second pushes between the pops of a tick. -/
def twoSessions : List (QueueLabel ℕ) :=
  [.callback 0 [⟨7, .PlaceCell, 0, 0⟩, ⟨7, .PlaceCell, 1, 0⟩], .push 0, .beginTick .sorted, .tryPop,
    .callback 1 [⟨8, .PlaceCell, 5, 5⟩], .push 1, .push 0, .tryPop, .tryPop, .tryPop, .applyCommands]

/-- The tick takes all three, in the order they were pushed. -/
theorem run_commandQueue_twoSessions : ∃ t : Threads ℕ,
    (collect step applied {} twoSessions).flatten ++ (t.tickThread.batch ++ t.server.commandQueue) =
      [⟨7, .PlaceCell, 0, 0⟩, ⟨8, .PlaceCell, 5, 5⟩, ⟨7, .PlaceCell, 1, 0⟩] := by
  obtain ⟨t, ht⟩ : ∃ t, run step ({} : Threads ℕ) twoSessions = some t := ⟨_, rfl⟩
  exact ⟨t, (run_commandQueue ht).1⟩

/-! ## The queue taken at once -/

/-- The server whose tick takes the whole queue at the moment the tick thread finds it
empty. -/
def atomic (s : Threads ι) : GameServer :=
  match s.tickThread with
  | .idle => s.server
  | .draining _ batch => { s.server with commandQueue := batch ++ s.server.commandQueue }
  | .drained sched batch =>
    { ({ s.server with commandQueue := batch }.stepWorld sched).1 with
      commandQueue := s.server.commandQueue }

/-- The calls into that server. -/
def atomicCalls (s : Threads ι) : QueueLabel ι → List Call
  | .push i => (s.callbacks i).head?.toList.map fun cmd => .onCommandsFromNetwork [cmd]
  | .tryPop =>
    match s.tickThread, s.server.commandQueue with
    | .draining sched _, [] => [.stepWorld sched]
    | _, _ => []
  | _ => []

theorem atomic_of_step {s t : Threads ι} {l : QueueLabel ι} (h : s.step l = some t) :
    t.atomic = (s.atomicCalls l).foldl GameServer.call s.atomic := by
  cases turn_of_step h with
  | callback j commands hdone => rfl
  | push j cmd commands hcallback =>
    rw [atomicCalls, hcallback]
    unfold atomic
    dsimp only
    cases s.tickThread with
    | idle => rfl
    | draining sched batch =>
      dsimp only
      rw [← List.append_assoc]
      rfl
    | drained sched batch => rfl
  | beginTick sched hidle =>
    unfold atomic
    rw [hidle]
    rfl
  | seesEmpty sched batch hdraining hempty =>
    unfold atomic
    rw [atomicCalls, hdraining, hempty]
    dsimp only
    rw [List.append_nil]
    rfl
  | pops sched batch cmd queue hdraining hfront =>
    unfold atomic
    rw [atomicCalls, hdraining, hfront]
    dsimp only
    rw [List.append_assoc]
    rfl
  | applyCommands sched batch hdrained =>
    unfold atomic
    rw [hdrained]
    rfl

/-- **Draining one by one is draining at once**: every interleaving is a run of the server
whose tick takes the whole queue. -/
theorem atomic_of_run {s t : Threads ι} {ls : List (QueueLabel ι)} (h : run step s ls = some t) :
    t.atomic = (collect step atomicCalls s ls).foldl GameServer.call s.atomic :=
  run_foldl (fun _ _ _ hstep => atomic_of_step hstep) h

/-- A tick that takes what two sessions push while it drains. -/
theorem atomic_of_run_twoSessions : ∃ t : Threads ℕ, run step {} twoSessions = some t ∧
    t.atomic =
      [.onCommandsFromNetwork [⟨7, .PlaceCell, 0, 0⟩], .onCommandsFromNetwork [⟨8, .PlaceCell, 5, 5⟩],
        .onCommandsFromNetwork [⟨7, .PlaceCell, 1, 0⟩], .stepWorld .sorted].foldl GameServer.call {} := by
  obtain ⟨t, ht⟩ : ∃ t, run step ({} : Threads ℕ) twoSessions = some t := ⟨_, rfl⟩
  exact ⟨t, ht, atomic_of_run ht⟩

end Threads
end Multilife

import Multilife.System.Convergence

/-!
# Who still waits after a tick

A broadcast serves everyone who is registered, the waiting ones with a snapshot; but a
tick posts one only if it has something to report.  So a session that waits before a
tick is served by its end exactly if some broadcast is handled in the meantime: one that
is still queued from an earlier tick, or that of a tick with commands or with a change.

* `quiet_of_wholeTick`: a tick counts as quiet exactly when nothing is dirty after its
  first part, whatever the I/O thread does in between.
* `snapshots_of_wholeTick`: the snapshot that is cached meanwhile is of the world before the tick
  until the tick refreshes it, and then of the world after it.
* `handled_of_run`: an undisturbed player is served by the first broadcast handled, a waiting one
  with the snapshot that is cached then.
* `served_iff`: all together, for every reachable state and every interleaving.
-/

namespace Multilife

open Client Transition BoostNetworkManager

/-- The datagrams are a snapshot of a world with the cells `g`, under the number `seqNum`. -/
def SnapshotOf (g : Plane) (seqNum : UInt32) (datagrams : List (List UInt8)) : Prop :=
  ∃ (w : World) (order : FiniteMap.Traversal ChunkCoord), w.cellAt = g ∧
    datagrams = (fullPackets seqNum (w.allChunksWithCoords order)).map Packet.encode

namespace State

variable {s s' t : State} {l : Label} {ls : List Label} {playerId : PlayerId} {needs : Bool}

/-! ## Dirty lists between ticks -/

/-- The delta of the tick in progress, if there is one, has been taken. -/
def Swept (s : State) : Prop :=
  match s.phase with
  | .simulated _ | .cached _ => True
  | _ => s.server.world.Clean

theorem swept_step (hs : s.Swept) (h : s.step l = some s') : s'.Swept := by
  unfold Swept at hs
  cases turn_of_step h with
  | startTick sched hphase => exact trivial
  | refreshFullSnapshotCache order counts hphase => exact trivial
  | serializeDelta order counts hphase => exact s.server.clean_serializeDelta order
  | onConnection l s' hl hsame hstep =>
    rw [Swept, hsame.phase, hsame.world]
    exact hs
  | skipBroadcast counts hphase =>
    rw [hphase] at hs
    exact hs
  | postBroadcast counts update hphase hne =>
    rw [hphase] at hs
    exact hs
  | broadcastServerStats order counts jobs hphase hjobs =>
    rw [hphase] at hs
    exact hs
  | _ => exact hs

/-- **Between ticks nothing is dirty.** -/
theorem clean_of_run (h : run step {} ls = some s) (hphase : s.phase = .idle) :
    s.server.world.Clean := by
  have hstart : Swept {} := by
    intro c chunk hchunk
    cases hchunk
  have hswept : s.Swept := run_invariant' (I := Swept)
    (fun _ _ _ hs hstep => swept_step hs hstep) hstart h
  unfold Swept at hswept
  rw [hphase] at hswept
  exact hswept

/-! ## The cached snapshot -/

/-- The cached snapshot is of a world with the cells `g`. -/
def Caches (g : Plane) (s : State) : Prop :=
  ∀ seqNum, SnapshotOf g seqNum (datagramsOf (s.server.getFullSnapshotForSeq seqNum))

theorem Caches.of_eq {g : Plane} (hs : s.Caches g)
    (h : s'.server.cachedFullSnapshot = s.server.cachedFullSnapshot) : s'.Caches g := by
  intro seqNum
  rw [GameServer.getFullSnapshotForSeq, h]
  exact hs seqNum

theorem caches_refreshFullSnapshotCache (order : FiniteMap.Traversal ChunkCoord) (g : GameServer)
    (seqNum : UInt32) :
    SnapshotOf g.world.cellAt seqNum
      (datagramsOf ((g.refreshFullSnapshotCache order).getFullSnapshotForSeq seqNum)) :=
  ⟨g.world, order, rfl, GameServer.datagramsOf_getFullSnapshotForSeq order seqNum g⟩

/-- Unless a tick is ahead of it, the snapshot is of the present world. -/
def Fresh (s : State) : Prop := ¬ s.phase.Ahead → s.Caches s.server.world.cellAt

theorem fresh_step (hs : s.Fresh) (h : s.step l = some s') : s'.Fresh := by
  unfold Fresh at hs
  cases turn_of_step h with
  | startTick sched hphase => exact fun hahead => absurd trivial hahead
  | refreshFullSnapshotCache order counts hphase =>
    exact fun _ => caches_refreshFullSnapshotCache order s.server
  | serializeDelta order counts hphase =>
    rw [hphase] at hs
    intro _
    rw [GameServer.cellAt_serializeDelta]
    exact hs not_false
  | skipBroadcast counts hphase =>
    rw [hphase] at hs
    exact hs
  | postBroadcast counts update hphase hne =>
    rw [hphase] at hs
    exact hs
  | broadcastServerStats order counts jobs hphase hjobs =>
    rw [hphase] at hs
    exact hs
  | onConnection l s' hl hsame hstep =>
    intro hahead
    rw [hsame.world]
    rw [hsame.phase] at hahead
    exact (hs hahead).of_eq hsame.cachedFullSnapshot
  | _ => exact hs

theorem fresh_empty : Fresh {} := by
  intro _ seqNum
  refine ⟨{}, sortedChunks, rfl, ?_⟩
  rw [GameServer.getFullSnapshotForSeq_empty, datagramsOf_nil, World.allChunksWithCoords,
    show ({} : World).chunks.keys = ∅ from Finmap.keys_empty, FiniteMap.Traversal.order_empty]
  rfl

/-- **Between ticks the snapshot is of the world.** -/
theorem fresh_of_run (h : run step {} ls = some s) : s.Fresh :=
  run_invariant' (fun _ _ _ hs hstep => fresh_step hs hstep) fresh_empty h

/-! ## One tick among the turns of the I/O thread -/

/-- A whole tick: from its start until the tick thread is idle again and everything that
was posted has been handled. -/
structure WholeTick (sched : TickSchedule) (s : State) (ls : List Label) (t : State) : Prop where
  run : run step s (.startTick sched :: ls) = some t
  phase : t.phase = .idle
  ticks : t.ticks = s.ticks + 1
  jobs : t.jobs = []

/-- Tick number `n`, which left the world `w` after its first part and had `q` quiet
ticks before it, is over or as far as its phase says. -/
def InTick (w : World) (n q : ℕ) (s : State) : Prop :=
  n < s.ticks ∨ s.ticks = n ∧
    match s.phase with
    | .simulated _ | .cached _ => s.server.world = w ∧ s.quiet = q
    | .serialized _ update => (update = [] ↔ w.Clean) ∧ s.quiet = q
    | .announced _ | .idle => (w.Clean → s.quiet = q + 1) ∧ (¬ w.Clean → s.quiet = q)

/-- **One turn** of either thread. -/
theorem inTick_step {w : World} {n q : ℕ} (hs : InTick w n q s) (h : s.step l = some s') :
    InTick w n q s' := by
  unfold InTick at hs
  cases turn_of_step h with
  | startTick sched hphase =>
    left
    show n < s.ticks + 1
    omega
  | refreshFullSnapshotCache order counts hphase =>
    rw [hphase] at hs
    exact hs
  | serializeDelta order counts hphase =>
    rw [hphase] at hs
    refine hs.imp_right fun ⟨hticks, hworld, hquiet⟩ => ⟨hticks, ?_, hquiet⟩
    rw [← hworld]
    exact serializeDelta_eq_nil_iff order s.server
  | skipBroadcast counts hphase =>
    rw [hphase] at hs
    refine hs.imp_right fun ⟨hticks, hclean, hquiet⟩ => ⟨hticks, fun _ => ?_, fun hdirty => ?_⟩
    · exact congrArg (· + 1) hquiet
    · exact absurd (hclean.mp rfl) hdirty
  | postBroadcast counts update hphase hne =>
    rw [hphase] at hs
    exact hs.imp_right fun ⟨hticks, hclean, hquiet⟩ =>
      ⟨hticks, fun h => absurd (hclean.mpr h) hne, fun _ => hquiet⟩
  | broadcastServerStats order counts jobs hphase hjobs =>
    rw [hphase] at hs
    exact hs
  | onConnection l s' hl hsame hstep =>
    rw [InTick, hsame.ticks, hsame.phase, hsame.world, hsame.quiet]
    exact hs
  | _ => exact hs

/-- Where a tick starts, and how it goes on. -/
theorem WholeTick.start {sched : TickSchedule} (h : WholeTick sched s ls t) :
    s.phase = .idle ∧ s.step (.startTick sched) = some
      { s with
        server := (s.server.stepWorld sched).1
        phase := .simulated (s.server.stepWorld sched).2
        ticks := s.ticks + 1 } := by
  obtain ⟨m, hm, -⟩ := run_cons_eq_some.mp h.run
  cases turn_of_step hm with
  | startTick _ hphase => exact ⟨hphase, hm⟩
  | onConnection _ _ hl => exact absurd hl not_false

/-- **A tick is quiet exactly when nothing is dirty after its first part.** -/
theorem quiet_of_wholeTick {sched : TickSchedule} (h : WholeTick sched s ls t) :
    ((s.server.stepWorld sched).1.world.Clean → t.quiet = s.quiet + 1) ∧
      (¬ (s.server.stepWorld sched).1.world.Clean → t.quiet = s.quiet) := by
  obtain ⟨m, hm, hrun⟩ := run_cons_eq_some.mp h.run
  have hstart : InTick (s.server.stepWorld sched).1.world (s.ticks + 1) s.quiet m := by
    cases hm.symm.trans h.start.2
    exact Or.inr ⟨rfl, rfl, rfl⟩
  have hend := run_invariant' (I := InTick (s.server.stepWorld sched).1.world (s.ticks + 1) s.quiet)
    (fun _ _ _ hs hstep => inTick_step hs hstep) hstart hrun
  unfold InTick at hend
  rw [h.phase, h.ticks] at hend
  rcases hend with hlt | ⟨-, hquiet⟩
  · exact absurd hlt (lt_irrefl _)
  · exact hquiet

theorem ticks_le_step (h : s.step l = some s') : s.ticks ≤ s'.ticks := by
  cases turn_of_step h with
  | startTick sched hphase => exact Nat.le_succ s.ticks
  | onConnection l s' hl hsame hstep => exact Nat.le_of_eq hsame.ticks.symm
  | _ => exact Nat.le_refl s.ticks

theorem ticks_le_of_run (h : run step s ls = some t) : s.ticks ≤ t.ticks :=
  run_invariant' (I := fun m : State => s.ticks ≤ m.ticks)
    (fun _ _ _ hle hstep => hle.trans (ticks_le_step hstep)) (Nat.le_refl s.ticks) h

/-- Tick number `n`, which found a snapshot of the cells `g` and made the cells `g'` of them, is
over, or has refreshed the snapshot as far as its phase says. -/
def Refreshes (g g' : Plane) (n q : ℕ) (s : State) : Prop :=
  n < s.ticks ∨ s.ticks = n ∧ s.server.world.cellAt = g' ∧
    (s.phase.Ahead → s.Caches g ∧ s.quiet = q)

theorem refreshes_step {g g' : Plane} {n q : ℕ} (hs : Refreshes g g' n q s)
    (h : s.step l = some s') : Refreshes g g' n q s' := by
  unfold Refreshes at hs
  cases turn_of_step h with
  | startTick sched hphase =>
    left
    show n < s.ticks + 1
    omega
  | refreshFullSnapshotCache order counts hphase =>
    exact hs.imp_right fun hin => ⟨hin.1, hin.2.1, fun hahead => absurd hahead not_false⟩
  | serializeDelta order counts hphase =>
    refine hs.imp_right fun hin => ⟨hin.1, ?_, fun hahead => absurd hahead not_false⟩
    rw [GameServer.cellAt_serializeDelta]
    exact hin.2.1
  | skipBroadcast counts hphase =>
    exact hs.imp_right fun hin => ⟨hin.1, hin.2.1, fun hahead => absurd hahead not_false⟩
  | postBroadcast counts update hphase hne =>
    exact hs.imp_right fun hin => ⟨hin.1, hin.2.1, fun hahead => absurd hahead not_false⟩
  | broadcastServerStats order counts jobs hphase hjobs =>
    exact hs.imp_right fun hin => ⟨hin.1, hin.2.1, fun hahead => absurd hahead not_false⟩
  | onConnection l s' hl hsame hstep =>
    rw [Refreshes, hsame.ticks, hsame.phase, hsame.world, hsame.quiet]
    exact hs.imp_right fun hin => ⟨hin.1, hin.2.1, fun hahead =>
      ⟨(hin.2.2 hahead).1.of_eq hsame.cachedFullSnapshot, (hin.2.2 hahead).2⟩⟩
  | _ => exact hs

/-- **The snapshot during a tick**: as long as it is that of the world before the tick, nothing has
been posted by the tick; and then it is that of the world after the tick. -/
theorem snapshots_of_wholeTick {ls₀ : List Label} (hs : run step {} ls₀ = some s)
    {sched : TickSchedule} (h : WholeTick sched s ls t) {before after : List Label} {m : State}
    (hls : ls = before ++ after) (hm : run step s (.startTick sched :: before) = some m) :
    m.Caches t.server.world.cellAt ∨ m.Caches s.server.world.cellAt ∧ m.posted = s.posted := by
  obtain ⟨hidle, hstart⟩ := h.start
  obtain ⟨m', hm', hrun⟩ := run_cons_eq_some.mp hm
  have hcached : s.Caches s.server.world.cellAt :=
    fresh_of_run hs (by rw [hidle]; exact not_false)
  have hbegin : Refreshes s.server.world.cellAt (s.server.stepWorld sched).1.world.cellAt
      (s.ticks + 1) s.quiet m' := by
    cases hm'.symm.trans hstart
    exact Or.inr ⟨rfl, rfl, fun _ =>
      ⟨hcached.of_eq (GameServer.cachedFullSnapshot_stepWorld sched s.server), rfl⟩⟩
  have hfirst := run_invariant' (fun _ _ _ hs hstep => refreshes_step hs hstep) hbegin hrun
  have hlast : run step m after = some t := by
    have hall := h.run
    rw [hls, ← List.cons_append, run_append] at hall
    obtain ⟨m'', hm'', ht⟩ := hall
    cases hm''.symm.trans hm
    exact ht
  have hend := run_invariant' (fun _ _ _ hs hstep => refreshes_step hs hstep) hfirst hlast
  unfold Refreshes at hfirst hend
  rw [h.ticks] at hend
  obtain ⟨-, hworld, -⟩ := hend.resolve_left (lt_irrefl _)
  obtain ⟨hticks, hsame, hahead⟩ := hfirst.resolve_left fun hlt => by
    have hle := ticks_le_of_run hlast
    rw [h.ticks] at hle
    omega
  rw [hworld, ← hsame]
  by_cases hphase : m.phase.Ahead
  · obtain ⟨hbefore, hquiet⟩ := hahead hphase
    refine Or.inr ⟨hbefore, ?_⟩
    rw [posted, posted, hticks, hquiet, hidle]
    cases hin : m.phase with
    | simulated counts =>
      show s.ticks + 1 - s.quiet - 1 = s.ticks - s.quiet - 0
      omega
    | _ =>
      rw [hin] at hphase
      exact hphase.elim
  · exact Or.inl (fresh_of_run (run_append.mpr ⟨s, hs, hm⟩) hphase)

/-! ## Who has been served -/

/-- A player was served with `r` on the way `ls` from `s`, by a handler that ran in `m`, before any
other broadcast was handled; if the player waited, with the snapshot that was cached then, under
the number of the broadcast. -/
structure FirstServed (needs : Bool) (s : State) (ls : List Label) (m : State) (r : Sent) :
    Prop where
  runs : ∃ before order after, ls = before ++ .runHandler order :: after ∧
    run step s before = some m
  first : s.queued.length + m.posted = m.queued.length + s.posted
  queued : m.queued ≠ []
  full : r.transmission.full = needs
  datagrams : needs = true → r.transmission.datagrams =
    datagramsOf (m.server.getFullSnapshotForSeq (UInt32.ofNat r.broadcast))

theorem FirstServed.concat {m : State} {r : Sent} (h : FirstServed needs s ls m r) (l : Label) :
    FirstServed needs s (ls ++ [l]) m r := by
  obtain ⟨before, order, after, rfl, hrun⟩ := h.runs
  refine { h with runs := ⟨before, order, after ++ [l], ?_, hrun⟩ }
  rw [List.append_assoc, List.cons_append]

/-- The player has been served since `s`, first as its session asked then. -/
structure ServedSince (playerId : PlayerId) (needs : Bool) (s : State) (ls : List Label)
    (t : State) : Prop where
  registered : t.network.Registered playerId false
  sent : ∃ m r rs, t.sentTo playerId = s.sentTo playerId ++ r :: rs ∧ FirstServed needs s ls m r

/-- Nothing has happened to the player since `s`. -/
structure StillWaits (playerId : PlayerId) (needs : Bool) (s t : State) : Prop where
  registered : t.network.Registered playerId needs
  sent : t.sentTo playerId = s.sentTo playerId

/-- **An undisturbed player is served by the first broadcast handled**: of those that
were queued and those that have been posted, `handled` have left the queue. -/
theorem handled_of_run {ls₀ : List Label} (hs : run step {} ls₀ = some s)
    (h : run step s ls = some t) (hu : Always step (Undisturbed playerId) s ls)
    (hreg : s.network.Registered playerId needs) :
    ∃ handled, s.queued.length + t.posted = t.queued.length + s.posted + handled ∧
      (handled = 0 → StillWaits playerId needs s t) ∧
      (0 < handled → ServedSince playerId needs s ls t) := by
  refine (run_history (P := Undisturbed playerId)
    (Q := fun ls t => ∃ handled,
      s.queued.length + t.posted = t.queued.length + s.posted + handled ∧
      (handled = 0 → StillWaits playerId needs s t) ∧
      (0 < handled → ServedSince playerId needs s ls t))
    ?_ (fun ls m l m' hrun ih hul hstep => ?_) hu h)
  · exact ⟨0, rfl, fun _ => ⟨hreg, rfl⟩, fun hlt => absurd hlt (lt_irrefl 0)⟩
  · have hm := run_append.mpr ⟨s, hs, hrun⟩
    obtain ⟨handled, hcount, hwaits, hserved⟩ := ih
    cases @queue_of_step m m' l playerId (run_numbered hm) (run_consistent hm) hstep with
    | wait hposted hqueued hsent hkeep =>
      refine ⟨handled, by rw [hposted, hqueued, hcount], fun h0 => ?_, fun hpos => ?_⟩
      · have hw := hwaits h0
        exact ⟨hkeep hul needs hw.registered, hsent.trans hw.sent⟩
      · obtain ⟨hregistered, m₁, r, rs, hsince, hfirst⟩ := hserved hpos
        exact ⟨hkeep hul false hregistered, m₁, r, rs, hsent.trans hsince, hfirst.concat l⟩
    | post hposted hqueued hsent hkeep =>
      refine ⟨handled, ?_, fun h0 => ?_, fun hpos => ?_⟩
      · rw [hposted, hqueued, List.length_append, List.length_singleton]
        omega
      · have hw := hwaits h0
        exact ⟨hkeep needs hw.registered, hsent.trans hw.sent⟩
      · obtain ⟨hregistered, m₁, r, rs, hsince, hfirst⟩ := hserved hpos
        exact ⟨hkeep false hregistered, m₁, r, rs, hsent.trans hsince, hfirst.concat l⟩
    | handle order number hl hposted hqueued hhandle =>
      refine ⟨handled + 1, ?_, fun h0 => absurd h0 (Nat.succ_ne_zero handled), fun _ => ?_⟩
      · rw [hqueued, List.length_cons] at hcount
        omega
      · rcases Nat.eq_zero_or_pos handled with h0 | hpos
        · have hw := hwaits h0
          obtain ⟨hfalse, r, hsent, hfull, hnumber, hdatagrams⟩ := hhandle needs hw.registered
          refine ⟨hfalse, m, r, [], by rw [hsent, hw.sent], ⟨ls, order, [], by rw [hl], hrun⟩, ?_, ?_,
            hfull, fun hneeds => ?_⟩
          · rw [hcount, h0, Nat.add_zero]
          · rw [hqueued]
            exact List.cons_ne_nil _ _
          · rw [hdatagrams hneeds, hnumber]
        · obtain ⟨hregistered, m₁, r, rs, hsince, hfirst⟩ := hserved hpos
          obtain ⟨hfalse, r', hsent', -⟩ := hhandle false hregistered
          refine ⟨hfalse, m₁, r, rs ++ [r'], ?_, hfirst.concat l⟩
          rw [hsent', hsince, List.append_assoc]
          rfl

/-- Something makes a broadcast be handled in the tick. -/
def Broadcasts (sched : TickSchedule) (s : State) : Prop :=
  s.queued ≠ [] ∨ s.server.commandQueue ≠ [] ∨
    (s.server.world.simulate sched).cellAt ≠ s.server.world.cellAt

/-- **The broadcasts handled during a tick**: there is one exactly if something makes one
be handled. -/
theorem broadcasts_iff_of_wholeTick {ls₀ : List Label} (hs : run step {} ls₀ = some s)
    {sched : TickSchedule} (htick : WholeTick sched s ls t) {handled : ℕ}
    (hcount : s.queued.length + t.posted = t.queued.length + s.posted + handled) :
    s.Broadcasts sched ↔ 0 < handled := by
  have hidle : s.phase = .idle := by
    obtain ⟨m, hm, -⟩ := run_cons_eq_some.mp htick.run
    cases turn_of_step hm with
    | startTick _ hphase => exact hphase
    | onConnection _ _ hl => exact absurd hl not_false
  have hcounted := (run_numbered hs).counted
  have hqueued : t.queued = [] := by
    rw [queued, htick.jobs]
    rfl
  rw [posted, posted, htick.phase, htick.ticks, hidle, hqueued] at hcount
  rw [hidle] at hcounted
  simp only [TickPhase.undecided, List.length_nil] at hcount hcounted
  have hclean := GameServer.clean_stepWorld_iff sched (clean_of_run hs hidle)
  obtain ⟨hquiet, hloud⟩ := quiet_of_wholeTick htick
  unfold Broadcasts
  by_cases h : (s.server.stepWorld sched).1.world.Clean
  · -- only what was queued before is handled
    have hq := hquiet h
    obtain ⟨hnone, hsame⟩ := hclean.mp h
    have hhandled : handled = s.queued.length := by omega
    simp [hnone, hsame, hhandled, List.length_pos_iff]
  · have hq := hloud h
    refine iff_of_true ?_ (by omega)
    by_contra hnot
    simp only [not_or, not_not] at hnot
    exact h (hclean.mpr hnot.2)

/-- A player that waited in `s` has been sent the world in the tick `ls`, which ends in `t`: first
a snapshot, and then deltas. -/
structure SentWorld (playerId : PlayerId) (ls₀ ls : List Label) (s t : State) (r : Sent)
    (rs : List Sent) : Prop where
  sent : t.sentTo playerId = s.sentTo playerId ++ r :: rs
  full : r.transmission.full = true
  /-- The snapshot is the one cached when its handler ran, under the number of the broadcast. -/
  cached : ∃ before order after m, ls = before ++ .runHandler order :: after ∧
    run step s before = some m ∧ r.transmission.datagrams =
      datagramsOf (m.server.getFullSnapshotForSeq (UInt32.ofNat r.broadcast))
  /-- It is of the world after the tick, or, if the broadcast was queued before, maybe of the world
  before the tick. -/
  world : SnapshotOf t.server.world.cellAt (UInt32.ofNat r.broadcast) r.transmission.datagrams ∨
    s.queued ≠ [] ∧
      SnapshotOf s.server.world.cellAt (UInt32.ofNat r.broadcast) r.transmission.datagrams
  /-- A client that showed nothing then shows the world after the tick, unless a snapshot was cached
  of unpaired cells or of a chunk that takes more than one packet. -/
  shows : Always step Tame {} (ls₀ ++ ls) → ∀ c : ClientState, c.model.aliveCells = ∅ →
    ((Sent.datagrams (r :: rs)).foldl ClientState.receive c).model.Shows t.server.world.cellAt

/-- A waiting player that has been served has been sent the world. -/
theorem sentWorld_of_servedSince {ls₀ : List Label} (hs : run step {} ls₀ = some s)
    {sched : TickSchedule} (htick : WholeTick sched s ls t)
    (hu : Always step (Undisturbed playerId) s (.startTick sched :: ls))
    (hreg : s.network.Registered playerId true)
    (h : ServedSince playerId true s (.startTick sched :: ls) t) :
    ∃ r rs, SentWorld playerId ls₀ (.startTick sched :: ls) s t r rs := by
  obtain ⟨m, r, rs, hsent, hfirst⟩ := h.sent
  obtain ⟨before, order, after, hls, hm⟩ := hfirst.runs
  refine ⟨r, rs, hsent, hfirst.full, ⟨before, order, after, m, hls, hm, hfirst.datagrams rfl⟩, ?_,
    fun htame c hempty => ?_⟩
  · cases before with
    | nil => cases hls
    | cons l before =>
      obtain ⟨rfl, hrest⟩ := List.cons.inj hls
      rw [hfirst.datagrams rfl]
      rcases snapshots_of_wholeTick hs htick hrest hm with hafter | ⟨hbefore, hposted⟩
      · exact Or.inl (hafter _)
      · -- the tick has posted nothing yet, so the broadcast was queued before it
        refine Or.inr ⟨fun hnone => hfirst.queued ?_, hbefore _⟩
        have hcount := hfirst.first
        rw [hposted, hnone] at hcount
        exact List.length_eq_zero_iff.mp (by simpa using hcount.symm)
  · have hqueued : t.queued = [] := by
      rw [queued, htick.jobs]
      rfl
    obtain ⟨rs', hsent', hshows⟩ :=
      run_shows hs htick.run htame hreg hu hempty htick.phase hqueued h.registered
    rw [List.append_cancel_left (hsent.symm.trans hsent')]
    exact hshows

/-- **When a waiting player is served by the next tick.**  For every reachable state and
every tick from it, over every interleaving with the I/O thread and with connections
that leave the player alone: once all that was posted has been handled, the player does
not wait, and has been sent the world if it did, if and only if it did not wait before,
or a broadcast was queued, a command was queued, or the generation changes a cell. -/
theorem served_iff {ls₀ : List Label} (hs : run step {} ls₀ = some s) {sched : TickSchedule}
    (htick : WholeTick sched s ls t)
    (hu : Always step (Undisturbed playerId) s (.startTick sched :: ls))
    (hreg : s.network.Registered playerId needs) :
    (t.network.Registered playerId false ∧ (needs = true →
        ∃ r rs, SentWorld playerId ls₀ (.startTick sched :: ls) s t r rs)) ↔
      (needs = true → s.Broadcasts sched) := by
  obtain ⟨handled, hcount, hwaits, hserved⟩ := handled_of_run hs htick.run hu hreg
  rw [broadcasts_iff_of_wholeTick hs htick hcount]
  cases needs with
  | false =>
    refine iff_of_true ⟨?_, fun h => absurd h Bool.false_ne_true⟩ fun h => absurd h Bool.false_ne_true
    rcases Nat.eq_zero_or_pos handled with h0 | hpos
    · exact (hwaits h0).registered
    · exact (hserved hpos).registered
  | true =>
    constructor
    · rintro ⟨hfalse, -⟩ -
      by_contra hnot
      have hw := hwaits (Nat.eq_zero_of_not_pos hnot)
      exact Bool.false_ne_true (hfalse.needs_unique hw.registered)
    · intro hpos
      have hsv := hserved (hpos rfl)
      exact ⟨hsv.registered, fun _ => sentWorld_of_servedSince hs htick hu hreg hsv⟩

/-! ### Two ticks -/

section Ticks

variable (players : FiniteMap.Traversal PlayerId) (order : FiniteMap.Traversal ChunkCoord)

/-- The turns of a tick concern nobody. -/
theorem undisturbed_tick (sched : TickSchedule) (handlers : ℕ) (s : State) :
    Always step (Undisturbed playerId) s
      (tickLabels sched order players ++ List.replicate handlers (.runHandler players)) := by
  refine always_of_forall_mem (fun l hl s => ?_) s
  rcases List.mem_append.mp hl with hl | hl
  · simp only [tickLabels, deltaLabels, List.cons_append, List.nil_append, List.mem_cons,
      List.not_mem_nil, or_false] at hl
    rcases hl with rfl | rfl | rfl | rfl | rfl <;> exact trivial
  · rw [List.eq_of_mem_replicate hl]
    exact trivial

end Ticks

/-- Player 7 connects and asks for a cell; the next tick sends it the world with this cell. -/
theorem served_iff_place :
    ∃ s t r rs, run step {} (connect 1 ⟨0, 0⟩ 7 ++ [.message 1 (.command .PlaceCell 7 0 0)]) =
        some s ∧
      run step s (tickLabels .sorted sortedChunks sortedPlayers ++
        [.runHandler sortedPlayers, .runHandler sortedPlayers]) = some t ∧
      t.network.Registered 7 false ∧
      SentWorld 7 (connect 1 ⟨0, 0⟩ 7 ++ [.message 1 (.command .PlaceCell 7 0 0)])
        (tickLabels .sorted sortedChunks sortedPlayers ++
          [.runHandler sortedPlayers, .runHandler sortedPlayers]) s t r rs ∧
      ((Sent.datagrams (r :: rs)).foldl ClientState.receive {}).ownerAt ⟨0, 0⟩ = some 7 := by
  obtain ⟨s₀, t, hconnect, hready, hplay, hafter, hticks, htame, hcell⟩ := exists_place
  have hsend := run_send hready.reading .PlaceCell 0 0
  have hs := run_append.mpr ⟨s₀, hconnect, hsend⟩
  have hreg : Registered 7 true { s₀ with
      server := s₀.server.onCommandsFromNetwork [⟨7, .PlaceCell, 0, 0⟩] }.network :=
    hready.registered
  have ht : run step { s₀ with
        server := s₀.server.onCommandsFromNetwork [⟨7, .PlaceCell, 0, 0⟩] }
      (tickLabels .sorted sortedChunks sortedPlayers ++
        [.runHandler sortedPlayers, .runHandler sortedPlayers]) = some t := by
    obtain ⟨m, hm, ht⟩ := run_append.mp (show run step s₀ ([.message 1 (.command .PlaceCell 7 0 0)] ++
      (tickLabels .sorted sortedChunks sortedPlayers ++
        [.runHandler sortedPlayers, .runHandler sortedPlayers])) = some t from hplay)
    cases hm.symm.trans hsend
    exact ht
  have hqueued : (⟨7, .PlaceCell, 0, 0⟩ : PlayerCommand) ∈
      (s₀.server.onCommandsFromNetwork [⟨7, .PlaceCell, 0, 0⟩]).commandQueue :=
    List.mem_append_right _ (List.mem_singleton_self _)
  obtain ⟨hserved, hworld⟩ := (served_iff hs ⟨ht, hafter.phase, hticks, hafter.jobs⟩
    (undisturbed_tick sortedPlayers sortedChunks .sorted 2 _) hreg).mpr
      fun _ => Or.inr (Or.inl (List.ne_nil_of_mem hqueued))
  obtain ⟨r, rs, hsent⟩ := hworld rfl
  refine ⟨_, t, r, rs, hs, ht, hserved, hsent, ?_⟩
  have hshows := hsent.shows htame {} rfl ⟨0, 0⟩
  rw [show (⟨0, 0⟩ : CellKey).point = (0, 0) from rfl, hcell] at hshows
  exact hshows

/-- **A quiet tick serves nobody.**  Player 7 connects to an empty server, and the next
tick has nothing to report: the player still waits, and has been sent nothing. -/
theorem not_served_quiet :
    ∃ ls₀ ls s t sched, run step {} ls₀ = some s ∧ WholeTick sched s ls t ∧
      Always step (Undisturbed 7) s (.startTick sched :: ls) ∧ s.network.Registered 7 true ∧
      ¬ t.network.Registered 7 false ∧
      ¬ ∃ r rs, SentWorld 7 ls₀ (.startTick sched :: ls) s t r rs := by
  have hconnect := run_connect (s := {}) 1 Finmap.notMem_empty ⟨0, 0⟩ 7
  have hempty := (GameServer.tick_of_empty .sorted sortedChunks
    (g := { resourceManager := ({} : ResourceManager).addPlayer 7 }) rfl rfl).1
  have htick := run_quietTick (s :=
    { network := connected 1 ⟨0, 0⟩ 7 {}
      server := { resourceManager := ({} : ResourceManager).addPlayer 7 } })
    .sorted sortedChunks sortedPlayers rfl rfl hempty
  have hwaiting := registered_connected 1 ⟨0, 0⟩ 7 {}
  refine ⟨_, _, _, _, .sorted, hconnect, ⟨htick, rfl, rfl, rfl⟩,
    undisturbed_tick sortedPlayers sortedChunks .sorted 1 _, hwaiting, fun hserved => ?_, ?_⟩
  · exact Bool.false_ne_true (hserved.needs_unique hwaiting)
  · rintro ⟨r, rs, hsent⟩
    exact List.cons_ne_nil r rs hsent.sent.symm

end State
end Multilife

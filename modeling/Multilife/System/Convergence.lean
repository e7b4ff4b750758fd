import Multilife.System.Service

/-!
# Late snapshots

A handled broadcast sends a waiting session the snapshot that is cached *then*, not
the one of its tick, and the deltas queued behind it take some cells back to older
states before they bring them forward again.  No harm is done: whatever the client
shows once the queue has arrived is right at every cell that no delta is still to
report (`Reports`).

* `Cached`: the cached snapshot is of a world from which the present one differs
  only in marked cells.
* `propagation_of_step`: a turn grows the queue of deltas as `Appendable` allows, or
  handles its front.
* `run_shows`: when nothing is in progress or queued, the client of a served player
  shows the world.
-/

namespace Multilife

open Client Overwrite Transition proto BoostNetworkManager WorldSerializer

/-! ## Deltas on their way -/

namespace TickPhase

/-- The world is ahead of the cached snapshot. -/
def Ahead : TickPhase → Prop
  | .simulated _ => True
  | _ => False

/-- The world has changes that no delta reports yet. -/
def Unreported : TickPhase → Prop
  | .simulated _ | .cached _ => True
  | _ => False

/-- The delta that is serialized and not yet posted. -/
def datagrams : TickPhase → List (List UInt8)
  | .serialized _ update => datagramsOf update
  | _ => []

end TickPhase

/-- The delta of a posted broadcast. -/
def Job.datagrams : Job → List (List UInt8)
  | .worldUpdate payload _ _ _ => datagramsOf payload
  | .serverStats _ => []

namespace State

/-- The deltas that are still to be handled, in order. -/
def pending (s : State) : List (List UInt8) := s.jobs.flatMap Job.datagrams ++ s.phase.datagrams

/-- Something is true of the pending deltas, and of the owner to show, at every key
that is not marked. -/
def Reports (P : CellKey → List (List UInt8) → Option PlayerId → Prop) (s : State) : Prop :=
  ∀ k : CellKey, ¬ s.server.world.Marked k.point →
    P k s.pending (liveOwner (s.server.world.cellAt k.point))

/-- The cached snapshot is of `w`, whose cells are paired and whose chunks are not
crowded, and the present world differs from it only in marked cells. -/
structure Cached (w : World) (order : FiniteMap.Traversal ChunkCoord) (s : State) : Prop where
  snapshot : s.server.cachedFullSnapshot = serializeFull 0 (w.allChunksWithCoords order)
  paired : w.cellAt.Paired
  small : ∀ c chunk, w.tryGetChunk c = some chunk → chunk.liveCells ≤ kMaxCellsPerPacket
  tracks : World.Tracks w.cellAt s.server.world
  current : ¬ s.phase.Ahead → s.server.world.cellAt = w.cellAt
  clean : ¬ s.phase.Unreported → s.server.world.Clean

/-- A snapshot is only cached of a world whose cells are paired and whose chunks have
at most `kMaxCellsPerPacket` live cells. -/
def Tame (s : State) : Label → Prop
  | .refreshFullSnapshotCache _ =>
    s.server.world.cellAt.Paired ∧ ∀ c chunk, s.server.world.tryGetChunk c = some chunk →
      chunk.liveCells ≤ kMaxCellsPerPacket
  | _ => True

variable {s s' : State} {l : Label} {playerId : PlayerId} {needs : Bool} {w : World}
  {order : FiniteMap.Traversal ChunkCoord}

/-! ## The cached snapshot -/

theorem cached_empty : Cached {} sortedChunks {} where
  snapshot := by
    rw [World.allChunksWithCoords, show ({} : World).chunks.keys = ∅ from Finmap.keys_empty,
      FiniteMap.Traversal.order_empty]
    rfl
  paired p := by
    rw [World.cellAt_empty]
    decide
  small c chunk h := by cases h
  tracks := World.Clean.tracks fun c chunk h => by cases h
  current _ := rfl
  clean _ c chunk h := by cases h

/-- **The cache keeps up.** -/
theorem step_cached (hs : Cached w order s) (htame : s.Tame l) (h : s.step l = some s') :
    ∃ w order, Cached w order s' := by
  obtain ⟨hsnapshot, hpaired, hsmall, htracks, hcurrent, hclean⟩ := hs
  cases turn_of_step h with
  | startTick sched hphase =>
    rw [hphase] at hcurrent hclean
    have hstep := GameServer.tracks_stepWorld sched (hclean not_false)
    rw [hcurrent not_false] at hstep
    refine ⟨w, order, ?_, hpaired, hsmall, hstep, fun h => absurd trivial h,
      fun h => absurd trivial h⟩
    rw [← hsnapshot]
    exact GameServer.cachedFullSnapshot_stepWorld sched s.server
  | refreshFullSnapshotCache order' counts hphase =>
    exact ⟨s.server.world, order', rfl, htame.1, htame.2,
      ⟨fun p hne => absurd rfl hne, htracks.inChunk⟩, fun _ => rfl, fun h => absurd trivial h⟩
  | serializeDelta order' counts hphase =>
    rw [hphase] at hcurrent
    have hcells := GameServer.cellAt_serializeDelta order' s.server
    have hafter := GameServer.clean_serializeDelta order' s.server
    have htracks' := hafter.tracks
    rw [hcells, hcurrent not_false] at htracks'
    exact ⟨w, order, hsnapshot, hpaired, hsmall, htracks',
      fun _ => hcells.trans (hcurrent not_false), fun _ => hafter⟩
  | skipBroadcast counts hphase =>
    rw [hphase] at hcurrent hclean
    exact ⟨w, order, hsnapshot, hpaired, hsmall, htracks, hcurrent, hclean⟩
  | postBroadcast counts update hphase hne =>
    rw [hphase] at hcurrent hclean
    exact ⟨w, order, hsnapshot, hpaired, hsmall, htracks, hcurrent, hclean⟩
  | broadcastServerStats players counts jobs hphase hjobs =>
    rw [hphase] at hcurrent hclean
    exact ⟨w, order, hsnapshot, hpaired, hsmall, htracks, hcurrent, hclean⟩
  | handleStats players payload jobs hjobs =>
    exact ⟨w, order, hsnapshot, hpaired, hsmall, htracks, hcurrent, hclean⟩
  | handleBroadcast players payload seq tick quiet jobs hjobs =>
    exact ⟨w, order, hsnapshot, hpaired, hsmall, htracks, hcurrent, hclean⟩
  | onConnection l s' hl hsame hstep =>
    refine ⟨w, order, hsame.cachedFullSnapshot.trans hsnapshot, hpaired, hsmall, ?_, ?_, ?_⟩
    · rw [hsame.world]
      exact htracks
    · rw [hsame.world, hsame.phase]
      exact hcurrent
    · rw [hsame.world, hsame.phase]
      exact hclean

/-- **What a snapshot is worth** to a client that shows nothing: it is right wherever
the world has no marked cell. -/
theorem Cached.ownerAt_snapshot (hs : Cached w order s) (seq : UInt32) {c : ClientState}
    {k : CellKey} (hempty : c.ownerAt k = none) (hk : ¬ s.server.world.Marked k.point) :
    ((datagramsOf (s.server.getFullSnapshotForSeq seq)).foldl ClientState.receive c).ownerAt k =
      liveOwner (s.server.world.cellAt k.point) := by
  have hdatagrams := GameServer.datagramsOf_getFullSnapshotForSeq order seq { world := w }
  have hsame : s.server.world.cellAt k.point = w.cellAt k.point := by
    by_contra hne
    exact hk (hs.tracks.marked _ hne)
  rw [GameServer.getFullSnapshotForSeq, hs.snapshot, hsame]
  refine (congrArg (fun ds => ClientState.ownerAt k (List.foldl ClientState.receive c ds))
    hdatagrams).trans ?_
  rcases keeps_or_determines order seq hs.paired.owned hs.small k with ⟨hnone, hkeeps⟩ | hdet
  · rw [hnone]
    exact (read_foldl_of_keeps hkeeps c).trans hempty
  · exact hdet c

/-! ## The queue of deltas -/

/-- A turn that changes neither the world nor the queue. -/
theorem Reports.of_same {P : CellKey → List (List UInt8) → Option PlayerId → Prop}
    (h : s.Reports P) (hworld : s'.server.world = s.server.world)
    (hpending : s'.pending = s.pending) : s'.Reports P := by
  intro k hk
  rw [hworld] at hk ⊢
  rw [hpending]
  exact h k hk

/-- What a turn does to the queue of deltas, and to a player. -/
inductive Propagation (playerId : PlayerId) (s : State) (l : Label) (s' : State) : Prop
  /-- The queue grows by a delta, or stays. -/
  | grow
      (hreports : ∀ P, (∀ k, Appendable ClientState.receive (ClientState.ownerAt k) (P k)) →
        s.Reports P → s'.Reports P)
      (hsent : s'.sentTo playerId = s.sentTo playerId)
      (hreg : s.Undisturbed playerId l → ∀ needs, s.network.Registered playerId needs →
        s'.network.Registered playerId needs)
  /-- The first delta of the queue is handled. -/
  | handle (payload : List UInt8) (seq : UInt32) (hworld : s'.server.world = s.server.world)
      (hpending : s.pending = datagramsOf payload ++ s'.pending)
      (hserved : ∀ needs, s.network.Registered playerId needs →
        s'.network.Registered playerId false ∧
          ∃ r : Sent, s'.sentTo playerId = s.sentTo playerId ++ [r] ∧
            r.transmission.datagrams =
              datagramsOf (if needs then s.server.getFullSnapshotForSeq seq else payload))

/-- A tick only marks cells. -/
theorem Cached.reports_startTick (hs : Cached w order s) (hphase : s.phase = .idle)
    (sched : TickSchedule) {P : CellKey → List (List UInt8) → Option PlayerId → Prop}
    (h : s.Reports P) :
    Reports P
      { s with
        server := (s.server.stepWorld sched).1
        phase := .simulated (s.server.stepWorld sched).2
        ticks := s.ticks + 1 } := by
  have hclean := hs.clean
  rw [hphase] at hclean
  intro k hk
  have hsame : (s.server.stepWorld sched).1.world.cellAt k.point =
      s.server.world.cellAt k.point := by
    by_contra hne
    exact hk ((GameServer.tracks_stepWorld sched (hclean not_false)).marked _ hne)
  have hpending := h k ((hclean not_false).not_marked k.point)
  rw [pending, hphase] at hpending
  show P k (s.jobs.flatMap Job.datagrams ++ []) (liveOwner _)
  rw [hsame]
  exact hpending

/-- Serializing reports every marked cell. -/
theorem Cached.reports_serializeDelta (hs : Cached w order s)
    {counts : Finmap fun _ : PlayerId => UInt64} (hphase : s.phase = .cached counts)
    (deltaOrder : FiniteMap.Traversal ChunkCoord)
    {P : CellKey → List (List UInt8) → Option PlayerId → Prop}
    (hP : ∀ k, Appendable ClientState.receive (ClientState.ownerAt k) (P k)) (h : s.Reports P) :
    Reports P
      { s with
        server := (s.server.serializeDelta deltaOrder).2
        phase := .serialized counts (s.server.serializeDelta deltaOrder).1 } := by
  have hcurrent := hs.current
  rw [hphase] at hcurrent
  have hpaired : s.server.world.cellAt.Paired := by
    rw [hcurrent not_false]
    exact hs.paired
  intro k _
  show P k (s.jobs.flatMap Job.datagrams ++ datagramsOf (s.server.serializeDelta deltaOrder).1)
    (liveOwner ((s.server.serializeDelta deltaOrder).2.world.cellAt k.point))
  rw [GameServer.cellAt_serializeDelta, GameServer.datagramsOf_serializeDelta]
  by_cases hk : s.server.world.Marked k.point
  · refine (hP k).agree _ (fun d hd => ?_) ?_
    · obtain ⟨p, hp, rfl⟩ := List.mem_map.mp hd
      exact keeps_or_sets deltaOrder _ hs.tracks hpaired k p hp
    · obtain ⟨p, hp, hsets⟩ := sets_of_marked deltaOrder s.server.broadcastSeq hs.tracks hpaired hk
      exact ⟨p.encode, List.mem_map.mpr ⟨p, hp, rfl⟩, hsets⟩
  · have hpending := h k hk
    rw [pending, hphase] at hpending
    refine (hP k).keeps ((List.append_nil (s.jobs.flatMap Job.datagrams)) ▸ hpending)
      fun d hd => ?_
    obtain ⟨p, hp, rfl⟩ := List.mem_map.mp hd
    exact keeps_of_not_marked deltaOrder _ hk p hp

/-- **What a turn does to the queue of deltas.** -/
theorem propagation_of_step (hs : Cached w order s) (hm : s.network.Consistent)
    (h : s.step l = some s') : Propagation playerId s l s' := by
  cases turn_of_step h with
  | startTick sched hphase =>
    exact .grow (fun P _ hreports => hs.reports_startTick hphase sched hreports) rfl
      fun _ _ hreg => hreg
  | refreshFullSnapshotCache order' counts hphase =>
    refine .grow (fun P _ hreports => hreports.of_same rfl ?_) rfl fun _ _ hreg => hreg
    rw [pending, pending, hphase]
    rfl
  | serializeDelta deltaOrder counts hphase =>
    exact .grow (fun P hP hreports => hs.reports_serializeDelta hphase deltaOrder hP hreports) rfl
      fun _ _ hreg => hreg
  | skipBroadcast counts hphase =>
    refine .grow (fun P _ hreports => hreports.of_same rfl ?_) rfl fun _ _ hreg => hreg
    rw [pending, pending, hphase, TickPhase.datagrams, datagramsOf_nil]
    rfl
  | postBroadcast counts update hphase hne =>
    refine .grow (fun P _ hreports => hreports.of_same rfl ?_) rfl
      fun _ _ hreg => ⟨hreg.session, hreg.endpoint⟩
    rw [pending, pending, hphase, List.flatMap_append, List.flatMap_singleton]
    exact List.append_nil _
  | broadcastServerStats players counts jobs hphase hjobs =>
    refine .grow (fun P _ hreports => hreports.of_same rfl ?_) rfl fun _ _ hreg => hreg
    rw [pending, pending, hphase, List.flatMap_append]
    rcases hjobs with rfl | ⟨payload, rfl⟩ <;>
      exact congrArg (· ++ []) (List.append_nil (s.jobs.flatMap Job.datagrams))
  | handleStats players payload jobs hjobs =>
    refine .grow (fun P _ hreports => hreports.of_same rfl ?_) rfl fun _ _ hreg => hreg
    rw [pending, pending, hjobs]
    rfl
  | handleBroadcast players payload seq tick quiet jobs hjobs =>
    refine .handle payload seq rfl ?_ fun needs hreg => ?_
    · rw [pending, hjobs, List.flatMap_cons, List.append_assoc]
      rfl
    · obtain ⟨ep, hsent⟩ := filter_sent players hreg payload seq tick quiet
      exact ⟨registered_doUdpBroadcast players _ hreg payload seq, _, hsent, rfl⟩
  | onConnection l s' hl hsame hstep =>
    refine .grow (fun P _ hreports => hreports.of_same hsame.world ?_) ?_
      fun hu needs hreg => step_registered hm hreg hu hl hstep
    · rw [pending, pending, hsame.jobs, hsame.phase]
    · rw [sentTo, sentTo, hsame.sent]

/-- The queue settles at every cell that is not marked, wherever a client starts from
that shows it right. -/
abbrev Settled : State → Prop :=
  Reports fun k => Settles ClientState.receive (ClientState.ownerAt k)

theorem step_settled (hsettled : s.Settled) (hs : Cached w order s) (hm : s.network.Consistent)
    (h : s.step l = some s') : s'.Settled := by
  cases @propagation_of_step s s' l 0 w order hs hm h with
  | grow hreports hsent hreg => exact hreports _ (fun k => appendable_settles _ _) hsettled
  | handle payload seq hworld hpending hserved =>
    intro k hk
    rw [hworld] at hk ⊢
    have hqueue := hsettled k hk
    rw [hpending] at hqueue
    exact hqueue.of_append

/-! ## An undisturbed client -/

/-- A client that was empty when the player registered and has received `rs` since.
Once the player has been served, the queue takes the client to the world. -/
structure Converges (playerId : PlayerId) (c : ClientState) (old rs : List Sent) (needs : Bool)
    (s : State) : Prop where
  registered : s.network.Registered playerId needs
  sent : s.sentTo playerId = old ++ rs
  waiting : needs = true → rs = []
  reaches : needs = false → s.Reports fun k ds v =>
    ClientState.ownerAt k (ds.foldl ClientState.receive
      ((Sent.datagrams rs).foldl ClientState.receive c)) = v

variable {c : ClientState} {old rs : List Sent}

/-- **One turn**: the snapshot may be late, and the queue settles behind it. -/
theorem step_converges (hc : Converges playerId c old rs needs s)
    (hempty : c.model.aliveCells = ∅) (hsettled : s.Settled) (hs : Cached w order s)
    (hm : s.network.Consistent) (hu : s.Undisturbed playerId l) (h : s.step l = some s') :
    ∃ rs' needs', Converges playerId c old rs' needs' s' := by
  obtain ⟨hregistered, hsentTo, hwaiting, hreaches⟩ := hc
  cases @propagation_of_step s s' l playerId w order hs hm h with
  | grow hreports hsent hreg =>
    exact ⟨rs, needs, hreg hu needs hregistered, hsent.trans hsentTo, hwaiting,
      fun hneeds => hreports _ (fun k => appendable_read _ _ _) (hreaches hneeds)⟩
  | handle payload seq hworld hpending hserved =>
    obtain ⟨hreg, r, hsent, hdatagrams⟩ := hserved needs hregistered
    refine ⟨rs ++ [r], false, hreg, ?_, fun hfalse => absurd hfalse Bool.false_ne_true,
      fun _ k hk => ?_⟩
    · rw [hsent, hsentTo, List.append_assoc]
    · rw [hworld] at hk ⊢
      rw [Sent.datagrams, List.flatMap_append, List.flatMap_singleton, List.foldl_append,
        hdatagrams]
      cases needs with
      | true =>
        rw [hwaiting rfl, List.flatMap_nil, List.foldl_nil, if_pos rfl]
        have hqueue := hsettled k hk
        rw [hpending] at hqueue
        refine hqueue.of_append.read_foldl (hs.ownerAt_snapshot seq ?_ hk)
        rw [ClientState.ownerAt, hempty]
        exact Finmap.lookup_empty k
      | false =>
        rw [if_neg Bool.false_ne_true, ← List.foldl_append]
        have hqueue := hreaches rfl k hk
        rw [hpending, List.foldl_append] at hqueue
        rw [List.foldl_append]
        exact hqueue

/-! ## Along a run -/

theorem settled_empty : Settled {} := fun _ _ => trivial

/-- The cache and the queue, along every run. -/
theorem run_settled {ls : List Label} (h : run step {} ls = some s)
    (htame : Always step Tame {} ls) :
    (∃ w order, Cached w order s) ∧ s.network.Consistent ∧ s.Settled := by
  refine run_invariant
    (I := fun s : State => (∃ w order, Cached w order s) ∧ s.network.Consistent ∧ s.Settled)
    (fun s l s' hs hl hstep => ?_) ⟨⟨{}, sortedChunks, cached_empty⟩, consistent_empty,
      settled_empty⟩ htame h
  obtain ⟨⟨w, order, hcached⟩, hm, hsettled⟩ := hs
  exact ⟨step_cached hcached hl hstep, step_consistent hm hstep,
    step_settled hsettled hcached hm hstep⟩

/-- **The client of an undisturbed player converges.** -/
theorem run_converges {ls₀ ls : List Label} {s₀ : State} (h₀ : run step {} ls₀ = some s₀)
    (h : run step s₀ ls = some s) (htame : Always step Tame {} (ls₀ ++ ls))
    (hreg : s₀.network.Registered playerId true)
    (hu : Always step (Undisturbed playerId) s₀ ls) (hempty : c.model.aliveCells = ∅) :
    (∃ w order, Cached w order s) ∧
      ∃ rs needs, Converges playerId c (s₀.sentTo playerId) rs needs s := by
  obtain ⟨htame₀, htame⟩ := always_append.mp htame
  have hstart : Converges playerId c (s₀.sentTo playerId) [] true s₀ :=
    ⟨hreg, (List.append_nil _).symm, fun _ => rfl, fun h => absurd h.symm Bool.false_ne_true⟩
  have hall := run_invariant
    (I := fun s : State => ((∃ w order, Cached w order s) ∧ s.network.Consistent ∧ s.Settled) ∧
      ∃ rs needs, Converges playerId c (s₀.sentTo playerId) rs needs s)
    (fun s l s' hs hl hstep => ?_) ⟨run_settled h₀ htame₀, [], true, hstart⟩
    ((htame s₀ h₀).and hu) h
  · exact ⟨hall.1.1, hall.2⟩
  · obtain ⟨⟨⟨w, order, hcached⟩, hm, hsettled⟩, rs, needs, hc⟩ := hs
    exact ⟨⟨step_cached hcached hl.1 hstep, step_consistent hm hstep,
      step_settled hsettled hcached hm hstep⟩,
      step_converges hc hempty hsettled hcached hm hl.2 hstep⟩

theorem pending_of_quiescent (hphase : s.phase = .idle) (hqueued : s.queued = []) :
    s.pending = [] := by
  rw [pending, hphase]
  refine (List.append_nil _).trans (List.flatMap_eq_nil_iff.mpr fun job hjob => ?_)
  have hnone := List.filterMap_eq_nil_iff.mp hqueued job hjob
  cases job with
  | worldUpdate payload seq tick quiet => cases hnone
  | serverStats payload => rfl

/-- **A late snapshot is harmless.**  In every run whose snapshots are cached of worlds
with paired cells and uncrowded chunks, let a player register in `s₀` and stay
undisturbed, with a client that shows nothing and then receives everything the
player is sent.  When no tick is in progress, no broadcast is queued and the player
has been served, the client shows the world. -/
theorem run_shows {ls₀ ls : List Label} {s₀ : State} (h₀ : run step {} ls₀ = some s₀)
    (h : run step s₀ ls = some s) (htame : Always step Tame {} (ls₀ ++ ls))
    (hreg : s₀.network.Registered playerId true)
    (hu : Always step (Undisturbed playerId) s₀ ls) (hempty : c.model.aliveCells = ∅)
    (hphase : s.phase = .idle) (hqueued : s.queued = [])
    (hserved : s.network.Registered playerId false) :
    ∃ rs, s.sentTo playerId = s₀.sentTo playerId ++ rs ∧
      ((Sent.datagrams rs).foldl ClientState.receive c).model.Shows s.server.world.cellAt := by
  obtain ⟨⟨w, order, hcached⟩, rs, needs, hc⟩ := run_converges h₀ h htame hreg hu hempty
  refine ⟨rs, hc.sent, fun k => ?_⟩
  have hneeds : needs = false := hc.registered.needs_unique hserved
  have hclean := hcached.clean
  rw [hphase] at hclean
  have hreach := hc.reaches hneeds k ((hclean not_false).not_marked k.point)
  rw [pending_of_quiescent hphase hqueued] at hreach
  exact hreach

/-- Only the refresh of the cache is constrained. -/
theorem tame_playLabels {sched : TickSchedule} {players : FiniteMap.Traversal PlayerId}
    {ptr : SessionPtr} {cmds : List (CommandType × Int64 × Int64)}
    (hreading : Reading ptr playerId s.network)
    (hpaired : ((s.server.onCommandsFromNetwork (commandsOf playerId cmds)).stepWorld
      sched).1.world.cellAt.Paired)
    (hsmall : ∀ c chunk, ((s.server.onCommandsFromNetwork (commandsOf playerId cmds)).stepWorld
      sched).1.world.tryGetChunk c = some chunk → chunk.liveCells ≤ kMaxCellsPerPacket) :
    Always step Tame s (playLabels sched order players ptr playerId cmds) := by
  rw [playLabels, always_append]
  refine ⟨always_of_forall_mem (fun l hl s => ?_) s, fun s₁ hs₁ => ?_⟩
  · obtain ⟨cmd, -, rfl⟩ := List.mem_map.mp hl
    exact trivial
  · rw [run_sendAll hreading cmds] at hs₁
    cases hs₁
    refine ⟨trivial, fun s₂ hs₂ => ⟨?_, fun s₃ _ => ?_⟩⟩
    · cases turn_of_step hs₂ with
      | startTick sched hphase => exact ⟨hpaired, hsmall⟩
      | onConnection l s' hl hsame hstep => exact absurd hl not_false
    · exact ⟨trivial, fun _ _ => ⟨trivial, fun _ _ => ⟨trivial, fun _ _ =>
        ⟨trivial, fun _ _ => ⟨trivial, fun _ _ => trivial⟩⟩⟩⟩⟩

/-- Player 7 connects and places a cell, which is the only one in the world that is cached. -/
theorem exists_place :
    ∃ s₀ s, run step {} (connect 1 ⟨0, 0⟩ 7) = some s₀ ∧ Quiescent 1 7 true s₀ ∧
      run step s₀ (playLabels .sorted sortedChunks sortedPlayers 1 7 [(.PlaceCell, 0, 0)]) =
        some s ∧
      Quiescent 1 7 false s ∧ s.ticks = s₀.ticks + 1 ∧
      Always step Tame {} (connect 1 ⟨0, 0⟩ 7 ++
        playLabels .sorted sortedChunks sortedPlayers 1 7 [(.PlaceCell, 0, 0)]) ∧
      s.server.world.cellAt (0, 0) = { alive := true, owner := 7 } := by
  obtain ⟨s₀, hconnect, hready, hserver, -⟩ :=
    exists_connected (s := {}) rfl rfl 1 Finmap.notMem_empty ⟨0, 0⟩ 7
  obtain ⟨s, ep, hplay, hafter, hs, hticks, -⟩ := hready.run_play .sorted sortedChunks sortedPlayers
    (List.cons_ne_nil (CommandType.PlaceCell, 0, 0) [])
  have hqueue : (s₀.server.onCommandsFromNetwork
      (commandsOf 7 [(.PlaceCell, 0, 0)])).commandQueue = [⟨7, .PlaceCell, 0, 0⟩] := by
    rw [hserver]
    rfl
  have hcells := GameServer.cellAt_stepWorld_place .sorted
    (g := s₀.server.onCommandsFromNetwork (commandsOf 7 [(.PlaceCell, 0, 0)]))
    (by rw [hserver]; rfl) hqueue rfl (by rw [hserver]; exact Finmap.lookup_insert _)
  have hpaired : ({} : World).cellAt.Paired := fun p => by
    rw [World.cellAt_empty]
    decide
  have hone : ∀ p, ((GameServer.stepWorld .sorted (s₀.server.onCommandsFromNetwork
      (commandsOf 7 [(.PlaceCell, 0, 0)]))).1.world.cellAt p).alive = true →
        p = targetOf ⟨7, .PlaceCell, 0, 0⟩ := by
    intro p halive
    by_contra hne
    rw [hcells, Function.update_of_ne hne, World.cellAt_empty] at halive
    cases halive
  refine ⟨s₀, s, hconnect, hready, hplay, hafter, hticks, ?_, ?_⟩
  · refine always_append.mpr ⟨⟨trivial, fun _ _ => ⟨trivial, fun _ _ => trivial⟩⟩, fun m hm => ?_⟩
    rw [hconnect] at hm
    cases hm
    refine tame_playLabels hready.reading ?_ fun c chunk hchunk => ?_
    · rw [hcells]
      exact hpaired.update _ (by decide)
    · exact (World.liveCells_le_one hchunk hone).trans (by decide)
  · rw [hs]
    show ((GameServer.serializeDelta sortedChunks _).2.world.cellAt (0, 0)) = _
    rw [GameServer.cellAt_serializeDelta]
    have hcell := congrFun hcells (targetOf ⟨7, .PlaceCell, 0, 0⟩)
    rw [Function.update_self] at hcell
    exact hcell

theorem run_shows_place :
    ∃ s₀ s rs, run step {} (connect 1 ⟨0, 0⟩ 7) = some s₀ ∧
      run step s₀ (playLabels .sorted sortedChunks sortedPlayers 1 7 [(.PlaceCell, 0, 0)]) =
        some s ∧
      s.sentTo 7 = s₀.sentTo 7 ++ rs ∧
        ((Sent.datagrams rs).foldl ClientState.receive {}).model.Shows s.server.world.cellAt := by
  obtain ⟨s₀, s, hconnect, hready, hplay, hafter, -, htame, -⟩ := exists_place
  obtain ⟨rs, hrs⟩ := run_shows hconnect hplay htame hready.registered
    (always_of_forall_mem (fun l hl s => undisturbed_playLabels _ _ _ _ _ _ hl s) s₀)
    (c := {}) rfl hafter.phase (by rw [queued, hafter.jobs]; rfl) hafter.registered
  exact ⟨s₀, s, rs, hconnect, hplay, hrs⟩

end State
end Multilife

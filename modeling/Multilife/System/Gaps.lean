import Multilife.System.Sequence

/-!
# Losses

A client keeps only the last number it has heard, so it can miss the loss of a
datagram.  Whether it does is a question about the transmissions to one player,
which are ordered by their ticks (`run_ordered`) and numbered as `Numbered` says.

* `run_lost_iff`: when a loss goes unnoticed.  At most one datagram of the tick
  arrives, and the numbers the client hears still go up by one.
-/

namespace Multilife

open Client Transition BoostNetworkManager

namespace State

variable {s s' : State} {l : Label} {playerId : PlayerId}

/-! ## Transmissions in the order of their ticks -/

/-- The tick of a posted broadcast. -/
def jobTick : Job → Option ℕ
  | .worldUpdate _ _ tick _ => some tick
  | .serverStats _ => none

/-- The ticks of what a player was sent, and of what is still queued. -/
def ticksOf (playerId : PlayerId) (s : State) : List ℕ :=
  (s.sentTo playerId).map Sent.tick ++ s.jobs.filterMap jobTick

/-- Broadcasts are queued and sent in the order of their ticks. -/
structure Ordered (playerId : PlayerId) (s : State) : Prop where
  increasing : (s.ticksOf playerId).Pairwise (· < ·)
  past : ∀ t ∈ s.ticksOf playerId, t + s.phase.undecided ≤ s.ticks

/-- A broadcast sends a player at most one transmission. -/
theorem ticks_broadcast (order : FiniteMap.Traversal PlayerId) (m : BoostNetworkManager)
    (provider : UInt32 → List UInt8) (payload : List UInt8) (seq : UInt32) (tick quiet : ℕ) :
    (((m.doUdpBroadcast order (some provider) payload seq).2.map fun t =>
        (⟨tick, quiet, payload, t⟩ : Sent)).filter
          (fun r => r.transmission.id = playerId)).map Sent.tick = [] ∨
      (((m.doUdpBroadcast order (some provider) payload seq).2.map fun t =>
        (⟨tick, quiet, payload, t⟩ : Sent)).filter
          (fun r => r.transmission.id = playerId)).map Sent.tick = [tick] := by
  rw [transmissions_doUdpBroadcast, List.map_map, List.filter_map, List.map_map]
  have hnodup := nodup_sessionInfos order m
  have hsub : (((m.sessionInfos order).filter fun info => info.id = playerId).map
      SessionInfo.id).Nodup := (List.filter_sublist.map SessionInfo.id).nodup hnodup
  show List.map (fun _ => tick) ((m.sessionInfos order).filter fun info => info.id = playerId) = _ ∨
    List.map (fun _ => tick) ((m.sessionInfos order).filter fun info => info.id = playerId) = _
  have hid : ∀ info ∈ (m.sessionInfos order).filter (fun info => info.id = playerId),
      info.id = playerId := fun info hinfo => of_decide_eq_true (List.mem_filter.mp hinfo).2
  generalize (m.sessionInfos order).filter (fun info => info.id = playerId) = infos at hsub hid ⊢
  match infos with
  | [] => exact Or.inl rfl
  | [info] => exact Or.inr rfl
  | info :: info' :: infos =>
    have hsame : info.id = info'.id :=
      (hid info List.mem_cons_self).trans
        (hid info' (List.mem_cons_of_mem _ List.mem_cons_self)).symm
    rw [List.map_cons, List.map_cons, hsame] at hsub
    exact absurd List.mem_cons_self (List.nodup_cons.mp hsub).1

theorem ordered_empty : Ordered playerId {} where
  increasing := List.Pairwise.nil
  past _ h := absurd h List.not_mem_nil

/-- Handlers are posted behind the ones there are. -/
theorem ticksOf_of_jobs (s : State) (jobs : List Job) (hsent : s'.sent = s.sent)
    (hjobs : s'.jobs = s.jobs ++ jobs) :
    s'.ticksOf playerId = s.ticksOf playerId ++ jobs.filterMap jobTick := by
  rw [ticksOf, ticksOf, sentTo, sentTo, hsent, hjobs, List.filterMap_append, List.append_assoc]

/-- The head of the queue moves to what was sent, or is dropped for this player. -/
theorem ticksOf_sublist (order : FiniteMap.Traversal PlayerId) {payload : List UInt8}
    {seq : UInt32} {tick quiet : ℕ} {jobs : List Job}
    (hjobs : s.jobs = .worldUpdate payload seq tick quiet :: jobs) (hjobs' : s'.jobs = jobs)
    (hsent : s'.sent = s.sent ++ (s.network.doUdpBroadcast order
      (some s.server.getFullSnapshotForSeq) payload seq).2.map fun t => ⟨tick, quiet, payload, t⟩) :
    (s'.ticksOf playerId).Sublist (s.ticksOf playerId) := by
  rw [ticksOf, sentTo, hsent, hjobs', List.filter_append, List.map_append, ticksOf, hjobs,
    List.filterMap_cons]
  show (_ ++ _ ++ List.filterMap jobTick jobs).Sublist (_ ++ tick :: List.filterMap jobTick jobs)
  rw [List.append_assoc]
  refine List.Sublist.append (List.Sublist.refl _) ?_
  rcases @ticks_broadcast playerId order s.network s.server.getFullSnapshotForSeq
    payload seq tick quiet with h | h
  · rw [h, List.nil_append]
    exact List.sublist_cons_self _ _
  · rw [h]
    exact List.Sublist.refl _

theorem step_ordered (hs : s.Ordered playerId) (h : s.step l = some s') :
    s'.Ordered playerId := by
  obtain ⟨hincreasing, hpast⟩ := hs
  cases turn_of_step h with
  | startTick sched hphase =>
    refine ⟨hincreasing, fun t ht => ?_⟩
    have hle := hpast t ht
    rw [hphase] at hle
    exact Nat.add_le_add_right hle 1
  | refreshFullSnapshotCache order counts hphase =>
    rw [hphase] at hpast
    exact ⟨hincreasing, hpast⟩
  | serializeDelta order counts hphase =>
    rw [hphase] at hpast
    exact ⟨hincreasing, hpast⟩
  | skipBroadcast counts hphase =>
    refine ⟨hincreasing, fun t ht => ?_⟩
    exact (Nat.le_add_right t _).trans (hpast t ht)
  | postBroadcast counts update hphase hne =>
    rw [hphase] at hpast
    have hticks : ticksOf playerId
        { s with
          network := { s.network with seqNum := s.network.seqNum + 1 }
          phase := .announced counts
          jobs := s.jobs ++ [.worldUpdate update (s.network.seqNum + 1) s.ticks s.quiet] } =
        s.ticksOf playerId ++ [s.ticks] :=
      ticksOf_of_jobs s [.worldUpdate update (s.network.seqNum + 1) s.ticks s.quiet] rfl rfl
    refine ⟨?_, fun t ht => ?_⟩
    · rw [hticks, List.pairwise_append]
      refine ⟨hincreasing, List.pairwise_singleton _ _, fun t ht t' ht' => ?_⟩
      rw [List.mem_singleton.mp ht']
      exact hpast t ht
    · rw [hticks, List.mem_append, List.mem_singleton] at ht
      rcases ht with ht | rfl
      · exact (Nat.le_add_right t _).trans (hpast t ht)
      · exact le_refl _
  | broadcastServerStats order counts jobs hphase hjobs =>
    rw [hphase] at hpast
    have hticks : ticksOf playerId { s with phase := .idle, jobs := s.jobs ++ jobs } =
        s.ticksOf playerId ++ jobs.filterMap jobTick := ticksOf_of_jobs s jobs rfl rfl
    have hnone : jobs.filterMap jobTick = [] := by
      rcases hjobs with rfl | ⟨payload, rfl⟩ <;> rfl
    rw [hnone, List.append_nil] at hticks
    exact ⟨hticks ▸ hincreasing, hticks ▸ hpast⟩
  | handleStats order payload jobs hjobs =>
    rw [ticksOf, hjobs] at hincreasing hpast
    exact ⟨hincreasing, hpast⟩
  | handleBroadcast order payload seq tick quiet jobs hjobs =>
    refine ⟨hincreasing.sublist ?_, fun t ht => hpast t (List.Sublist.subset ?_ ht)⟩
    · exact ticksOf_sublist order hjobs rfl rfl
    · exact ticksOf_sublist order hjobs rfl rfl
  | onConnection l s' hl hsame hstep =>
    have hticks : s'.ticksOf playerId = s.ticksOf playerId :=
      (ticksOf_of_jobs s [] hsame.sent (hsame.jobs.trans (List.append_nil _).symm)).trans
        (List.append_nil _)
    refine ⟨hticks ▸ hincreasing, ?_⟩
    rw [hticks, hsame.phase, hsame.ticks]
    exact hpast

/-- **Transmissions to a player are in the order of their ticks.** -/
theorem run_ordered {ls : List Label} (h : run step {} ls = some s) : s.Ordered playerId :=
  run_invariant' (I := Ordered playerId) (fun _ _ _ hs hstep => step_ordered hs hstep)
    ordered_empty h

/-! ## Hearing a transmission -/

end State

namespace Sent

/-- The last number a client has heard, after what arrives of a transmission. -/
def heard (last : UInt32) (r : Sent) (arrived : List (List UInt8)) : UInt32 :=
  if arrived = [] then last else UInt32.ofNat r.number

/-- The last number it has heard, after whole transmissions. -/
def heardAll (last : UInt32) (rs : List Sent) : UInt32 :=
  rs.foldl (fun last r => r.heard last r.transmission.datagrams) last

/-- The datagrams of transmissions. -/
def datagrams (rs : List Sent) : List (List UInt8) := rs.flatMap fun r => r.transmission.datagrams

variable {r : Sent} {c : ClientState} {last : UInt32}

theorem Numbered.number_of_delta (hfull : r.transmission.full = false) : r.number = r.tick := by
  rw [number, hfull, if_neg Bool.false_ne_true]

theorem Numbered.lastSeqNum_foldl (hr : r.Numbered) {arrived : List (List UInt8)}
    (harrived : arrived.Sublist r.transmission.datagrams)
    (hlast : c.network.lastSeqNum = some last) :
    (arrived.foldl ClientState.receive c).network.lastSeqNum = some (r.heard last arrived) := by
  rw [(hr.stamped.sublist harrived).lastSeqNum_foldl, heard, hlast]
  split_ifs <;> rfl

/-- **Snapshots are heard, and never make a client ask.** -/
theorem asks_snapshots {rs : List Sent} (hrs : ∀ r ∈ rs, r.Numbered)
    (hfull : ∀ r ∈ rs, r.transmission.full = true) (hconnected : c.network.isConnected = true)
    (hlast : c.network.lastSeqNum = some last) :
    c.asks (datagrams rs) = false ∧
      ((datagrams rs).foldl ClientState.receive c).network.isConnected = true ∧
      ((datagrams rs).foldl ClientState.receive c).network.lastSeqNum =
        some (heardAll last rs) := by
  induction rs generalizing c last with
  | nil => exact ⟨rfl, hconnected, hlast⟩
  | cons r rs ih =>
    have hr := hrs r List.mem_cons_self
    have hstamped := hr.stamped
    rw [hfull r List.mem_cons_self] at hstamped
    obtain ⟨hask, hafter⟩ := ih (fun q hq => hrs q (List.mem_cons_of_mem r hq))
      (fun q hq => hfull q (List.mem_cons_of_mem r hq))
      ((hstamped.isConnected_foldl c).trans hconnected)
      (hr.lastSeqNum_foldl (List.Sublist.refl _) hlast)
    rw [datagrams, List.flatMap_cons, ClientState.asks_append, hstamped.asks_of_full c hconnected,
      List.foldl_append]
    exact ⟨hask, hafter⟩

end Sent

/-! ## Lost datagrams -/

/-- A loss that a client does not notice: `last` is the number it had heard, `lost`
the transmission of which only `survivors` arrive, and `next` the first delta of
which something arrives again; `mid` is what was sent in between. -/
structure Unnoticed (last : UInt32) (lost : Sent) (survivors : List (List UInt8))
    (mid : List Sent) (next : Sent) : Prop where
  few : survivors.length ≤ 1
  follows : survivors ≠ [] → UInt32.ofNat lost.tick = last + 1
  continues : UInt32.ofNat next.tick =
    Sent.heardAll (lost.heard last survivors) (mid.filter fun r => r.transmission.full) + 1

namespace State

variable {s s' : State} {l : Label} {playerId : PlayerId}

/-- What the client does between a loss and the next delta, on numbered
transmissions. -/
theorem asks_lost_iff {lost next : Sent} {mid : List Sent} (hlost : lost.Numbered)
    (hnext : next.Numbered) (hmid : ∀ r ∈ mid, r.Numbered)
    (hlostDelta : lost.transmission.full = false) (hnextDelta : next.transmission.full = false)
    {survivors : List (List UInt8)}
    (hsurvivors : survivors.Sublist lost.transmission.datagrams) {d : List UInt8}
    (hd : d ∈ next.transmission.datagrams) {c : ClientState}
    (hconnected : c.network.isConnected = true) {last : UInt32}
    (hlast : c.network.lastSeqNum = some last) :
    c.asks (survivors ++ Sent.datagrams (mid.filter fun r => r.transmission.full) ++ [d]) = true ↔
      ¬ Unnoticed last lost survivors mid next := by
  have hstamped := hlost.stamped.sublist hsurvivors
  rw [hlostDelta, Sent.Numbered.number_of_delta hlostDelta] at hstamped
  have hsnapshots : ∀ r ∈ mid.filter (fun r => r.transmission.full), r.Numbered :=
    fun r hr => hmid r (List.mem_of_mem_filter hr)
  have hfull : ∀ r ∈ mid.filter (fun r => r.transmission.full), r.transmission.full = true :=
    fun r hr => (List.mem_filter.mp hr).2
  obtain ⟨hask, hconnected', hlast'⟩ := Sent.asks_snapshots hsnapshots hfull
    ((hstamped.isConnected_foldl c).trans hconnected) (hlost.lastSeqNum_foldl hsurvivors hlast)
  have hone : Stamped (UInt32.ofNat next.tick) false [d] := by
    have h := hnext.stamped.sublist (List.singleton_sublist.mpr hd)
    rw [hnextDelta, Sent.Numbered.number_of_delta hnextDelta] at h
    exact h
  rw [ClientState.asks_append, ClientState.asks_append, hask, Bool.or_false, List.foldl_append,
    Bool.or_eq_true, hstamped.asks_iff c hconnected, hone.asks_iff _ hconnected', hlast', hlast]
  constructor
  · rintro ((hmany | ⟨hne, last', heq, hgap⟩) | hmany | ⟨-, last', heq, hgap⟩) hunnoticed
    · exact absurd hunnoticed.few (Nat.not_le.mpr hmany)
    · cases heq
      exact hgap (hunnoticed.follows hne)
    · exact absurd hmany (by rw [List.length_singleton]; decide)
    · cases heq
      exact hgap hunnoticed.continues
  · intro hnoticed
    by_contra hnone
    rw [not_or, not_or, not_or] at hnone
    obtain ⟨⟨hfew, hfollows⟩, -, hcontinues⟩ := hnone
    refine hnoticed ⟨by omega, fun hne => ?_, ?_⟩
    · by_contra hgap
      exact hfollows ⟨hne, last, rfl, hgap⟩
    · by_contra hgap
      exact hcontinues ⟨List.cons_ne_nil _ _, _, rfl, hgap⟩

/-- **When a loss goes unnoticed.**  In every run, let `lost` and `next` be deltas
sent to a player, with `mid` in between, and let the network drop some of `lost`,
every delta of `mid`, and what precedes `d` in `next`.  A client that has heard
`last` asks for a resync on a datagram of `lost`, on `d`, or in between, unless the
loss is `Unnoticed`. -/
theorem run_lost_iff {ls : List Label} (h : run step {} ls = some s)
    {before mid after : List Sent} {lost next : Sent}
    (hsent : s.sentTo playerId = before ++ lost :: (mid ++ next :: after))
    (hlost : lost.transmission.full = false) (hnext : next.transmission.full = false)
    {survivors : List (List UInt8)}
    (hsurvivors : survivors.Sublist lost.transmission.datagrams) {d : List UInt8}
    (hd : d ∈ next.transmission.datagrams) {c : ClientState}
    (hconnected : c.network.isConnected = true) {last : UInt32}
    (hlast : c.network.lastSeqNum = some last) :
    lost.tick < next.tick ∧
      (c.asks (survivors ++ Sent.datagrams (mid.filter fun r => r.transmission.full) ++ [d]) =
          true ↔
        ¬ Unnoticed last lost survivors mid next) := by
  have hnumbered := run_numbered h
  have hmem : ∀ r ∈ before ++ lost :: (mid ++ next :: after), r.Numbered := by
    intro r hr
    rw [← hsent] at hr
    exact hnumbered.sent r (List.mem_of_mem_filter hr)
  have hordered := (@run_ordered s playerId ls h).increasing
  rw [ticksOf, hsent, List.map_append, List.map_cons, List.pairwise_append] at hordered
  have hpairs := (List.pairwise_append.mp hordered.1).2.1
  refine ⟨(List.pairwise_cons.mp hpairs).1 next.tick ?_, ?_⟩
  · rw [List.map_append, List.map_cons]
    exact List.mem_append_right _ List.mem_cons_self
  · refine asks_lost_iff (hmem lost ?_) (hmem next ?_) (fun r hr => hmem r ?_) hlost hnext
      hsurvivors hd hconnected hlast
    · exact List.mem_append_right _ List.mem_cons_self
    · exact List.mem_append_right _ (List.mem_cons_of_mem _
        (List.mem_append_right _ List.mem_cons_self))
    · exact List.mem_append_right _ (List.mem_cons_of_mem _ (List.mem_append_left _ hr))

/-- Three ticks of player `7`: a cell, cells in two chunks, a cell. -/
def threeTicks : List Label :=
  playLabels .sorted sortedChunks sortedPlayers 1 7 [(.PlaceCell, 0, 0)] ++
    (playLabels .sorted sortedChunks sortedPlayers 1 7 [(.PlaceCell, 0, 0), (.PlaceCell, 64, 0)] ++
      playLabels .sorted sortedChunks sortedPlayers 1 7 [(.PlaceCell, 0, 0)])

/-- The player is sent a snapshot, a delta of at least two datagrams, and a delta. -/
theorem exists_threeTicks :
    ∃ s₀ s r₁ r₂ r₃, run step {} (connect 1 ⟨0, 0⟩ 7) = some s₀ ∧
      s₀.network.Registered 7 true ∧ s₀.sentTo 7 = [] ∧ run step s₀ threeTicks = some s ∧
      s.sentTo 7 = [r₁, r₂, r₃] ∧
      (r₁.transmission.full = true ∧ r₁.transmission.datagrams ≠ [] ∧ r₁.tick = 1 ∧
        r₁.quiet = 0) ∧
      (r₂.transmission.full = false ∧ 2 ≤ r₂.transmission.datagrams.length ∧ r₂.tick = 2) ∧
      r₃.transmission.full = false ∧ r₃.transmission.datagrams ≠ [] ∧ r₃.tick = 3 := by
  obtain ⟨s₀, hconnect, hready, hserver, hticks, hquiet, hsent⟩ :=
    exists_connected (s := {}) rfl rfl 1 Finmap.notMem_empty ⟨0, 0⟩ 7
  have hworld : s₀.server.world = {} := by rw [hserver]
  have hqueue : s₀.server.commandQueue = [] := by rw [hserver]
  have haccount : s₀.server.resourceManager.balances.lookup 7 = some kStartBalance := by
    rw [hserver]
    exact Finmap.lookup_insert _
  have hnone : s₀.sentTo 7 = [] := by rw [sentTo, hsent]; rfl
  obtain ⟨s₁, r₁, hrun₁, hready₁, -, hticks₁, hquiet₁, hsent₁, htick₁, hq₁, hfull₁, hne₁⟩ :=
    hready.run_firstCell .sorted sortedChunks sortedPlayers hworld hqueue haccount 0 0
  obtain ⟨s₂, ep₂, hrun₂, hready₂, -, hticks₂, -, hsent₂⟩ := hready₁.run_play .sorted sortedChunks
    sortedPlayers (List.cons_ne_nil (CommandType.PlaceCell, 0, 0) [(CommandType.PlaceCell, 64, 0)])
  obtain ⟨s₃, ep₃, hrun₃, -, -, -, -, hsent₃⟩ := hready₂.run_play .sorted sortedChunks
    sortedPlayers (List.cons_ne_nil (CommandType.PlaceCell, 0, 0) [])
  have hrun := run_append.mpr ⟨s₁, hrun₁, run_append.mpr ⟨s₂, hrun₂, hrun₃⟩⟩
  have hnumbered := run_numbered (run_append.mpr ⟨s₀, hconnect, hrun⟩)
  rw [hsent₂, hsent₁, hnone] at hsent₃
  have hticks₀ : s₀.ticks = 0 := hticks
  have hlast := hnumbered.sent _ (List.mem_of_mem_filter
    (hsent₃ ▸ List.mem_append_right _ (List.mem_singleton_self _)))
  refine ⟨s₀, s₃, r₁, _, _, hconnect, hready.registered, hnone, hrun, hsent₃,
    ⟨hfull₁, hne₁, by rw [htick₁, hticks₀], hq₁.trans hquiet⟩, ⟨rfl, ?_, ?_⟩, rfl, ?_, ?_⟩
  · have hmem : ∀ cmd ∈ commandsOf 7 [(.PlaceCell, 0, 0), (.PlaceCell, 64, 0)],
        cmd ∈ (s₁.server.onCommandsFromNetwork
          (commandsOf 7 [(.PlaceCell, 0, 0), (.PlaceCell, 64, 0)])).commandQueue :=
      fun cmd hcmd => List.mem_append_right _ hcmd
    exact GameServer.two_le_length_tick .sorted sortedChunks
      (hmem ⟨7, .PlaceCell, 0, 0⟩ (by decide)) (hmem ⟨7, .PlaceCell, 64, 0⟩ (by decide))
      (by decide)
  · show s₁.ticks + 1 = 2
    rw [hticks₁, hticks₀]
  · rw [hlast.delta rfl]
    exact hlast.posted.ne_nil
  · show s₂.ticks + 1 = 3
    rw [hticks₂, hticks₁, hticks₀]

theorem run_lost_iff_threeTicks :
    ∃ (s : State) (r₁ r₂ r₃ : Sent) (d : List UInt8),
      run step {} (connect 1 ⟨0, 0⟩ 7 ++ threeTicks) = some s ∧ s.sentTo 7 = [r₁, r₂, r₃] ∧
        d ∈ r₃.transmission.datagrams ∧ r₂.tick < r₃.tick ∧
        (ClientState.asks { network := { lastSeqNum := some 1 } }
            ([] ++ Sent.datagrams (([] : List Sent).filter fun r => r.transmission.full) ++ [d]) =
              true ↔
          ¬ Unnoticed 1 r₂ [] [] r₃) := by
  obtain ⟨s₀, s, r₁, r₂, r₃, hconnect, -, -, hrun, hsent, -, ⟨hdelta₂, -, -⟩, hdelta₃, hne₃, -⟩ :=
    exists_threeTicks
  have hwhole := run_append.mpr ⟨s₀, hconnect, hrun⟩
  obtain ⟨d, hd⟩ := List.exists_mem_of_ne_nil _ hne₃
  have hsplit : s.sentTo 7 = [r₁] ++ r₂ :: ([] ++ r₃ :: []) := hsent
  exact ⟨s, r₁, r₂, r₃, d, hwhole, hsent, hd, run_lost_iff hwhole hsplit hdelta₂ hdelta₃
    (List.nil_sublist _) hd rfl rfl⟩

/-- **A loss that is not noticed.**  The second of three ticks has two datagrams, of
which only one arrives; the numbers the client hears are `1`, `2`, `3`. -/
theorem run_lost_unnoticed :
    ¬ ∀ ls s, run step {} ls = some s → ∀ playerId before lost mid next after,
      s.sentTo playerId = before ++ lost :: (mid ++ next :: after) →
      lost.transmission.full = false → next.transmission.full = false →
      ∀ survivors, survivors.Sublist lost.transmission.datagrams →
        survivors ≠ lost.transmission.datagrams → ∀ d ∈ next.transmission.datagrams.head?,
        ((Sent.datagrams before).foldl ClientState.receive {}).network.lastSeqNum ≠ none →
          ((Sent.datagrams before).foldl ClientState.receive {}).asks
            (survivors ++ Sent.datagrams (mid.filter fun r => r.transmission.full) ++ [d]) =
              true := by
  intro hclaim
  obtain ⟨s₀, s, r₁, r₂, r₃, hconnect, -, -, hrun, hsent, ⟨hfull₁, hne₁, htick₁, hquiet₁⟩,
    ⟨hdelta₂, htwo, htick₂⟩, hdelta₃, hne₃, htick₃⟩ := exists_threeTicks
  have hwhole := run_append.mpr ⟨s₀, hconnect, hrun⟩
  have hnumbered : ∀ r ∈ [r₁, r₂, r₃], r.Numbered := fun r hr =>
    (run_numbered hwhole).sent r (List.mem_of_mem_filter (hsent ▸ hr))
  have hr₁ := hnumbered r₁ (by simp)
  have hr₂ := hnumbered r₂ (by simp)
  have hr₃ := hnumbered r₃ (by simp)
  obtain ⟨d₂, rest, hdatagrams⟩ := List.exists_cons_of_ne_nil
    (List.ne_nil_of_length_pos (lt_of_lt_of_le Nat.two_pos htwo))
  obtain ⟨d₃, rest₃, hdatagrams₃⟩ := List.exists_cons_of_ne_nil hne₃
  have hsub : [d₂].Sublist r₂.transmission.datagrams := by
    rw [hdatagrams]
    exact List.singleton_sublist.mpr List.mem_cons_self
  have hmem : d₃ ∈ r₃.transmission.datagrams := by
    rw [hdatagrams₃]
    exact List.mem_cons_self
  -- the client has heard the snapshot, under the number 1
  have hbefore : Sent.datagrams [r₁] = r₁.transmission.datagrams := by
    rw [Sent.datagrams, List.flatMap_singleton]
  have hlast : ((Sent.datagrams [r₁]).foldl ClientState.receive {}).network.lastSeqNum =
      some 1 := by
    rw [hbefore, hr₁.stamped.lastSeqNum_foldl, if_neg hne₁, Sent.number, hfull₁, if_pos rfl, htick₁,
      hquiet₁]
    rfl
  have hconnected : ((Sent.datagrams [r₁]).foldl ClientState.receive {}).network.isConnected =
      true := by
    rw [hbefore, hr₁.stamped.isConnected_foldl]
  have hasks := hclaim _ s hwhole 7 [r₁] r₂ [] r₃ [] hsent hdelta₂ hdelta₃ [d₂] hsub
    (fun heq => by rw [← heq] at htwo; exact absurd htwo (Nat.not_le.mpr Nat.one_lt_two)) d₃
    (by rw [hdatagrams₃]; rfl) (by rw [hlast]; exact Option.some_ne_none 1)
  refine (asks_lost_iff hr₂ hr₃ (fun r hr => absurd hr List.not_mem_nil) hdelta₂ hdelta₃ hsub hmem
    hconnected hlast).mp hasks ⟨le_refl 1, fun _ => ?_, ?_⟩
  · rw [htick₂]
    rfl
  · rw [Sent.heard, if_neg (List.cons_ne_nil d₂ []), Sent.Numbered.number_of_delta hdelta₂, htick₂,
      htick₃]
    rfl

end State
end Multilife

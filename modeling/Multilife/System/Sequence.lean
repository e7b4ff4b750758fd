import Multilife.System.Ticks

/-!
# The numbers of broadcasts

Deltas carry the counter of `GameServer`, which counts ticks; snapshots carry the
counter of `BoostNetworkManager`, which counts posted broadcasts.  They part at
every tick with nothing to report.  `Numbered` is the invariant that says so, with
the kind and the number of everything that is posted or sent; `run_numbered` is
that it holds along every run.

* `run_stamps`: in a broadcast, the snapshot carries the number of the delta exactly
  when the number of ticks with an empty delta so far is a multiple of `2 ^ 32`.
-/

namespace Multilife

open Client LittleEndian Transition proto BoostNetworkManager

/-! ## What is posted and sent -/

/-- A posted delta: a burst under the number of its tick. -/
structure Posted (payload : List UInt8) (tick quiet : ℕ) : Prop where
  stamped : Stamped (UInt32.ofNat tick) false (datagramsOf payload)
  ne_nil : datagramsOf payload ≠ []
  quiet_lt : quiet < tick

namespace Sent

/-- The number on the datagrams: that of the tick for a delta, that of the broadcast
for a snapshot. -/
def number (r : Sent) : ℕ := if r.transmission.full then r.tick - r.quiet else r.tick

structure Numbered (r : Sent) : Prop where
  posted : Posted r.delta r.tick r.quiet
  stamped : Stamped (UInt32.ofNat r.number) r.transmission.full r.transmission.datagrams
  delta : r.transmission.full = false → r.transmission.datagrams = datagramsOf r.delta

end Sent

/-- The tick in progress has not come to its broadcast. -/
def TickPhase.undecided : TickPhase → ℕ
  | .idle | .announced _ => 0
  | .simulated _ | .cached _ | .serialized _ _ => 1

namespace State

/-- How many broadcasts have been posted: one for each tick that came to its
broadcast with something to report. -/
def posted (s : State) : ℕ := s.ticks - s.quiet - s.phase.undecided

/-- What the numbers in a state mean. -/
structure Numbered (s : State) : Prop where
  counted : s.quiet + s.phase.undecided ≤ s.ticks
  broadcastSeq : s.server.broadcastSeq = UInt32.ofNat s.ticks
  seqNum : s.network.seqNum = UInt32.ofNat s.posted
  update : ∀ counts update, s.phase = .serialized counts update →
    Stamped (UInt32.ofNat s.ticks) false (datagramsOf update) ∧
      (update ≠ [] → datagramsOf update ≠ [])
  snapshot : ∀ seq, Stamped seq true (datagramsOf (s.server.getFullSnapshotForSeq seq))
  jobs : ∀ payload seq tick quiet, Job.worldUpdate payload seq tick quiet ∈ s.jobs →
    Posted payload tick quiet ∧ seq = UInt32.ofNat (tick - quiet)
  sent : ∀ r ∈ s.sent, r.Numbered

theorem numbered_empty : Numbered {} where
  counted := le_refl 0
  broadcastSeq := rfl
  seqNum := rfl
  update _ _ h := by cases h
  snapshot seq := by
    rw [GameServer.getFullSnapshotForSeq_empty, datagramsOf_nil]
    exact Stamped.nil
  jobs _ _ _ _ h := absurd h List.not_mem_nil
  sent _ h := absurd h List.not_mem_nil

variable {s s' : State} {l : Label}

/-- What is sent in a broadcast is what its job says. -/
theorem numbered_of_mem_broadcast (hs : s.Numbered) (order : FiniteMap.Traversal PlayerId)
    {payload : List UInt8} {seq : UInt32} {tick quiet : ℕ} (hposted : Posted payload tick quiet)
    (hseq : seq = UInt32.ofNat (tick - quiet)) {t : Transmission}
    (ht : t ∈ (s.network.doUdpBroadcast order (some s.server.getFullSnapshotForSeq)
      payload seq).2) : Sent.Numbered ⟨tick, quiet, payload, t⟩ := by
  rw [transmissions_doUdpBroadcast] at ht
  obtain ⟨info, -, rfl⟩ := List.mem_map.mp ht
  refine ⟨hposted, ?_, fun hfull => ?_⟩
  · show Stamped (UInt32.ofNat (if info.needsFull then tick - quiet else tick)) info.needsFull
      (datagramsOf (if info.needsFull then _ else payload))
    cases info.needsFull with
    | true =>
      rw [if_pos rfl, if_pos rfl, ← hseq]
      exact hs.snapshot seq
    | false => exact hposted.stamped
  · have hneeds : info.needsFull = false := hfull
    show datagramsOf (if info.needsFull then _ else payload) = datagramsOf payload
    rw [hneeds, if_neg Bool.false_ne_true]

/-- The number of the broadcast that a tick comes to. -/
theorem Numbered.next_of_serialized (hs : s.Numbered)
    {counts : Finmap fun _ : PlayerId => UInt64} {update : List UInt8}
    (hphase : s.phase = .serialized counts update) :
    s.network.seqNum + 1 = UInt32.ofNat (s.ticks - s.quiet) := by
  have hcounted := hs.counted
  rw [hs.seqNum, posted]
  rw [hphase] at hcounted ⊢
  have hlt : s.quiet < s.ticks := hcounted
  show UInt32.ofNat (s.ticks - s.quiet - 1) + 1 = _
  rw [show s.ticks - s.quiet = s.ticks - s.quiet - 1 + 1 from by omega]
  exact (UInt32.ofNat_add _ 1).symm

/-- **The counters of one turn.** -/
theorem counters_of_step (hs : s.Numbered) (h : s.step l = some s') :
    s'.quiet + s'.phase.undecided ≤ s'.ticks ∧
      s'.server.broadcastSeq = UInt32.ofNat s'.ticks ∧
        s'.network.seqNum = UInt32.ofNat s'.posted := by
  have hcounted := hs.counted
  have hseqNum := hs.seqNum
  rw [posted] at hseqNum
  cases turn_of_step h with
  | startTick sched hphase =>
    rw [hphase] at hcounted hseqNum
    refine ⟨Nat.add_le_add_right hcounted 1, ?_, ?_⟩
    · show s.server.broadcastSeq + 1 = _
      rw [hs.broadcastSeq]
      exact (UInt32.ofNat_add s.ticks 1).symm
    · show s.network.seqNum = UInt32.ofNat (s.ticks + 1 - s.quiet - 1)
      rw [hseqNum]
      show UInt32.ofNat (s.ticks - s.quiet - 0) = _
      congr 1
      omega
  | skipBroadcast counts hphase =>
    rw [hphase] at hcounted hseqNum
    refine ⟨hcounted, hs.broadcastSeq, ?_⟩
    show s.network.seqNum = UInt32.ofNat (s.ticks - (s.quiet + 1) - 0)
    rw [hseqNum]
    show UInt32.ofNat (s.ticks - s.quiet - 1) = _
    congr 1
  | postBroadcast counts update hphase hne =>
    rw [hphase] at hcounted
    exact ⟨Nat.le_of_lt hcounted, hs.broadcastSeq, hs.next_of_serialized hphase⟩
  | refreshFullSnapshotCache order counts hphase =>
    rw [hphase] at hcounted hseqNum
    exact ⟨hcounted, hs.broadcastSeq, hseqNum⟩
  | serializeDelta order counts hphase =>
    rw [hphase] at hcounted hseqNum
    exact ⟨hcounted, hs.broadcastSeq, hseqNum⟩
  | broadcastServerStats order counts jobs hphase hjobs =>
    rw [hphase] at hcounted hseqNum
    exact ⟨hcounted, hs.broadcastSeq, hseqNum⟩
  | handleStats order payload jobs hjobs => exact ⟨hcounted, hs.broadcastSeq, hseqNum⟩
  | handleBroadcast order payload seq tick quiet jobs hjobs =>
    exact ⟨hcounted, hs.broadcastSeq, (cleared_doUdpBroadcast ..).seqNum.trans hseqNum⟩
  | onConnection l s' hl hsame hstep =>
    rw [posted, hsame.quiet, hsame.phase, hsame.ticks, hsame.broadcastSeq, hsame.seqNum]
    exact ⟨hcounted, hs.broadcastSeq, hseqNum⟩

/-- **The delta** that waits for its broadcast is the one this tick has serialized. -/
theorem update_of_step (hs : s.Numbered) (h : s.step l = some s')
    {counts : Finmap fun _ : PlayerId => UInt64} {update : List UInt8}
    (hphase' : s'.phase = .serialized counts update) :
    Stamped (UInt32.ofNat s'.ticks) false (datagramsOf update) ∧
      (update ≠ [] → datagramsOf update ≠ []) := by
  cases turn_of_step h with
  | serializeDelta order counts' hphase =>
    cases hphase'
    show Stamped (UInt32.ofNat s.ticks) _ _ ∧ _
    rw [← hs.broadcastSeq]
    exact ⟨s.server.stamped_serializeDelta order, s.server.datagramsOf_serializeDelta_ne_nil order⟩
  | handleStats order payload jobs hjobs => exact hs.update counts update hphase'
  | handleBroadcast order payload seq tick quiet jobs hjobs =>
    exact hs.update counts update hphase'
  | onConnection l s' hl hsame hstep =>
    rw [hsame.ticks]
    exact hs.update counts update (hsame.phase ▸ hphase')
  | _ => cases hphase'

/-- **The snapshot** is the old one, or one that has just been taken. -/
theorem snapshot_of_step (hs : s.Numbered) (h : s.step l = some s') (seq : UInt32) :
    Stamped seq true (datagramsOf (s'.server.getFullSnapshotForSeq seq)) := by
  cases turn_of_step h with
  | refreshFullSnapshotCache order counts hphase =>
    exact GameServer.stamped_getFullSnapshotForSeq order seq s.server
  | onConnection l s' hl hsame hstep =>
    rw [GameServer.getFullSnapshotForSeq, hsame.cachedFullSnapshot]
    exact hs.snapshot seq
  | _ => exact hs.snapshot seq

/-- **What a turn posts.** -/
theorem job_of_step (h : s.step l = some s') {payload : List UInt8} {seq : UInt32}
    {tick quiet : ℕ} (hjob : Job.worldUpdate payload seq tick quiet ∈ s'.jobs) :
    Job.worldUpdate payload seq tick quiet ∈ s.jobs ∨
      ((∃ counts, s.phase = .serialized counts payload) ∧ payload ≠ [] ∧
        seq = s.network.seqNum + 1 ∧ tick = s.ticks ∧ quiet = s.quiet) := by
  cases turn_of_step h with
  | postBroadcast counts update hphase hne =>
    rcases List.mem_append.mp hjob with hjob | hjob
    · exact Or.inl hjob
    · cases List.mem_singleton.mp hjob
      exact Or.inr ⟨⟨counts, hphase⟩, hne, rfl, rfl, rfl⟩
  | broadcastServerStats order counts jobs hphase hjobs =>
    rcases List.mem_append.mp hjob with hjob | hjob
    · exact Or.inl hjob
    · rcases hjobs with rfl | ⟨stats, rfl⟩
      · exact absurd hjob List.not_mem_nil
      · cases List.mem_singleton.mp hjob
  | handleStats order stats jobs hjobs => exact Or.inl (hjobs ▸ List.mem_cons_of_mem _ hjob)
  | handleBroadcast order handled seq' tick' quiet' jobs hjobs =>
    exact Or.inl (hjobs ▸ List.mem_cons_of_mem _ hjob)
  | onConnection l s' hl hsame hstep => exact Or.inl (hsame.jobs ▸ hjob)
  | _ => exact Or.inl hjob

/-- **What a turn sends** is posted before. -/
theorem sent_of_step (h : s.step l = some s') {r : Sent} (hr : r ∈ s'.sent) :
    r ∈ s.sent ∨ ∃ order payload seq tick quiet, Job.worldUpdate payload seq tick quiet ∈ s.jobs ∧
      ∃ t ∈ (s.network.doUdpBroadcast order (some s.server.getFullSnapshotForSeq) payload seq).2,
        r = ⟨tick, quiet, payload, t⟩ := by
  cases turn_of_step h with
  | handleBroadcast order payload seq tick quiet jobs hjobs =>
    rcases List.mem_append.mp hr with hr | hr
    · exact Or.inl hr
    · obtain ⟨t, ht, rfl⟩ := List.mem_map.mp hr
      exact Or.inr ⟨order, payload, seq, tick, quiet, hjobs ▸ List.mem_cons_self, t, ht, rfl⟩
  | onConnection l s' hl hsame hstep => exact Or.inl (hsame.sent ▸ hr)
  | _ => exact Or.inl hr

/-- **One turn keeps the numbers.** -/
theorem step_numbered (hs : s.Numbered) (h : s.step l = some s') : s'.Numbered := by
  obtain ⟨hcounted, hbroadcastSeq, hseqNum⟩ := counters_of_step hs h
  refine ⟨hcounted, hbroadcastSeq, hseqNum, fun counts update hphase => update_of_step hs h hphase,
    snapshot_of_step hs h, fun payload seq tick quiet hjob => ?_, fun r hr => ?_⟩
  · rcases job_of_step h hjob with hjob | ⟨⟨counts, hphase⟩, hne, rfl, rfl, rfl⟩
    · exact hs.jobs payload seq tick quiet hjob
    · obtain ⟨hstamped, hnonempty⟩ := hs.update counts payload hphase
      have hlt := hs.counted
      rw [hphase] at hlt
      exact ⟨⟨hstamped, hnonempty hne, hlt⟩, hs.next_of_serialized hphase⟩
  · rcases sent_of_step h hr with hr | ⟨order, payload, seq, tick, quiet, hjob, t, ht, rfl⟩
    · exact hs.sent r hr
    · obtain ⟨hposted, hseq⟩ := hs.jobs payload seq tick quiet hjob
      exact numbered_of_mem_broadcast hs order hposted hseq ht

/-- **The numbers hold along every run.** -/
theorem run_numbered {ls : List Label} (h : run step {} ls = some s) : s.Numbered :=
  run_invariant' (I := Numbered) (fun _ _ _ hs hstep => step_numbered hs hstep) numbered_empty h

/-! ## Two counters -/

/-- The number a datagram carries. -/
theorem number_of_mem_stamped {seqNum : UInt32} {full : Bool} {ds : List (List UInt8)}
    (h : Stamped seqNum full ds) {d : List UInt8} (hd : d ∈ ds) :
    readLE UInt32 d kOffSeqNum = seqNum := by
  obtain ⟨packets, rfl, hall⟩ := h
  obtain ⟨p, hp, rfl⟩ := List.mem_map.mp hd
  rw [p.seqNum_encode]
  exact (hall p hp).1

theorem ofNat_eq_ofNat_iff {a b : ℕ} : UInt32.ofNat a = UInt32.ofNat b ↔ a ≡ b [MOD 2 ^ 32] := by
  rw [← UInt32.toNat_inj, UInt32.toNat_ofNat', UInt32.toNat_ofNat']
  rfl

/-- A broadcast number is the number of its tick when no tick was quiet. -/
theorem ofNat_sub_eq_iff {tick quiet : ℕ} (h : quiet ≤ tick) :
    UInt32.ofNat (tick - quiet) = UInt32.ofNat tick ↔ 2 ^ 32 ∣ quiet := by
  rw [ofNat_eq_ofNat_iff, Nat.modEq_iff_dvd' (Nat.sub_le tick quiet), Nat.sub_sub_self h]

/-- A snapshot and the delta it stands in for. -/
theorem stamps_iff (hs : s.Numbered) {r : Sent} (hr : r ∈ s.sent)
    (hfull : r.transmission.full = true) {d d' : List UInt8} (hd : d ∈ r.transmission.datagrams)
    (hd' : d' ∈ datagramsOf r.delta) :
    readLE UInt32 d kOffSeqNum = readLE UInt32 d' kOffSeqNum ↔ 2 ^ 32 ∣ r.quiet := by
  obtain ⟨hposted, hstamped, -⟩ := hs.sent r hr
  rw [number_of_mem_stamped hstamped hd, number_of_mem_stamped hposted.stamped hd', Sent.number,
    if_pos hfull]
  exact ofNat_sub_eq_iff hposted.quiet_lt.le

/-- **When snapshot and delta agree.**  In every run, the number on the snapshot sent
to a session that needs one is the number on the delta of the same broadcast exactly
when the ticks so far with an empty delta are a multiple of `2 ^ 32`. -/
theorem run_stamps {ls : List Label} (h : run step {} ls = some s) :
    ∀ r ∈ s.sent, r.transmission.full = true → ∀ d ∈ r.transmission.datagrams,
      ∀ d' ∈ datagramsOf r.delta,
        (readLE UInt32 d kOffSeqNum = readLE UInt32 d' kOffSeqNum ↔ 2 ^ 32 ∣ r.quiet) :=
  fun _ hr hfull _ hd _ hd' => stamps_iff (run_numbered h) hr hfull hd hd'

theorem run_stamps_place :
    ∃ s, run step {} (connect 1 ⟨0, 0⟩ 7 ++ playLabels .sorted sortedChunks sortedPlayers 1 7
        [(.PlaceCell, 0, 0)]) = some s ∧
      ∀ r ∈ s.sent, r.transmission.full = true → ∀ d ∈ r.transmission.datagrams,
        ∀ d' ∈ datagramsOf r.delta,
          (readLE UInt32 d kOffSeqNum = readLE UInt32 d' kOffSeqNum ↔ 2 ^ 32 ∣ r.quiet) := by
  obtain ⟨_, hconnect, hready, -⟩ :=
    exists_connected (s := {}) rfl rfl 1 Finmap.notMem_empty ⟨0, 0⟩ 7
  obtain ⟨s, ep, hplay, -⟩ := hready.run_play .sorted sortedChunks sortedPlayers
    (List.cons_ne_nil (CommandType.PlaceCell, 0, 0) [])
  have hrun := run_append.mpr ⟨_, hconnect, hplay⟩
  exact ⟨s, hrun, run_stamps hrun⟩

/-- **A quiet tick drives the counters apart.**  The run: a tick of the empty world,
then player `7` connects and places a cell, then a tick. -/
theorem run_quiet_first :
    ¬ ∀ ls s, run step {} ls = some s →
      ∀ r ∈ s.sent, r.transmission.full = true → ∀ d ∈ r.transmission.datagrams,
        ∀ d' ∈ datagramsOf r.delta,
          readLE UInt32 d kOffSeqNum = readLE UInt32 d' kOffSeqNum := by
  intro hclaim
  obtain ⟨hempty, hworld⟩ := GameServer.tick_of_empty .sorted sortedChunks (g := {}) rfl rfl
  let before : State :=
    { server := (GameServer.tick .sorted sortedChunks {}).2, ticks := 1, quiet := 1 }
  have htick := run_quietTick (s := {}) .sorted sortedChunks sortedPlayers rfl rfl hempty
  obtain ⟨ready, hconnect, hready, hserver, -, hquiet, -⟩ :=
    exists_connected (s := before) rfl rfl 1 Finmap.notMem_empty ⟨0, 0⟩ 7
  have hempty' : ready.server.world = {} := by
    rw [hserver]
    exact hworld
  have hqueue : ready.server.commandQueue = [] := by
    rw [hserver]
    exact GameServer.commandQueue_tick .sorted sortedChunks (g := {})
  have haccount : ready.server.resourceManager.balances.lookup 7 = some kStartBalance := by
    rw [hserver]
    exact Finmap.lookup_insert _
  obtain ⟨s, r, hplay, -, -, -, -, hsent, -, hrquiet, hfull, hsnapshot⟩ := hready.run_firstCell
    .sorted sortedChunks sortedPlayers hempty' hqueue haccount 0 0
  have hrun := run_append.mpr ⟨_, htick, run_append.mpr ⟨_, hconnect, hplay⟩⟩
  have hnumbered := run_numbered hrun
  have hr : r ∈ s.sent :=
    List.mem_of_mem_filter (hsent ▸ List.mem_append_right _ (List.mem_singleton_self r))
  obtain ⟨d, hd⟩ := List.exists_mem_of_ne_nil _ hsnapshot
  obtain ⟨d', hd'⟩ := List.exists_mem_of_ne_nil _ (hnumbered.sent r hr).posted.ne_nil
  have hdvd := (stamps_iff hnumbered hr hfull hd hd').mp (hclaim _ s hrun r hr hfull d hd d' hd')
  rw [hrquiet, hquiet] at hdvd
  exact absurd hdvd (by decide)

end State
end Multilife

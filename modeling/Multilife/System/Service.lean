import Mathlib.Data.List.Chain
import Multilife.System.Gaps

/-!
# Serving one player

Broadcasts are queued under consecutive numbers and leave the queue in order
(`queue_of_step`, `run_queued`).  A player that is registered and stays undisturbed
is served by each of them, first with a snapshot and then with deltas
(`Follows`), so what it is sent is numbered without a gap in the count of
broadcasts.  The deltas, though, carry the count of ticks.

* `run_seamless_iff`: when a client that loses nothing asks for nothing.  Every
  delta is one datagram, and the quiet ticks before it are as many, modulo
  `2 ^ 32`, as those the first number of the client leaves out.
-/

namespace Multilife

open Client Transition BoostNetworkManager

/-- The number of the broadcast, in the count of broadcasts. -/
def Sent.broadcast (r : Sent) : ℕ := r.tick - r.quiet

/-- One number follows another. -/
def Next (a b : ℕ) : Prop := b = a + 1

/-- What an undisturbed player has been sent: nothing while it waits, and then a
snapshot that deltas follow. -/
inductive SnapshotFirst : Bool → List Sent → Prop
  | waiting : SnapshotFirst true []
  | following {r : Sent} {rs : List Sent} (hr : r.transmission.full = true)
      (hrs : ∀ q ∈ rs, q.transmission.full = false) : SnapshotFirst false (r :: rs)

theorem SnapshotFirst.snoc {needs : Bool} {rs : List Sent} (h : SnapshotFirst needs rs)
    {r : Sent} (hr : r.transmission.full = needs) : SnapshotFirst false (rs ++ [r]) := by
  cases h with
  | waiting => exact .following hr fun q hq => absurd hq List.not_mem_nil
  | following hfirst hrest =>
    refine .following hfirst fun q hq => ?_
    rcases List.mem_append.mp hq with hq | hq
    · exact hrest q hq
    · rw [List.mem_singleton.mp hq]
      exact hr

namespace State

variable {s s' : State} {l : Label} {playerId : PlayerId} {needs : Bool}

/-! ## The queue of broadcasts -/

/-- The number of a posted broadcast, in the count of broadcasts. -/
def jobNumber : Job → Option ℕ
  | .worldUpdate _ _ tick quiet => some (tick - quiet)
  | .serverStats _ => none

/-- The broadcasts that wait for the I/O thread. -/
def queued (s : State) : List ℕ := s.jobs.filterMap jobNumber

/-- What a turn does to the queue, and to a player. -/
inductive QueueTurn (playerId : PlayerId) (s : State) (l : Label) (s' : State) : Prop
  /-- Nothing is posted, and nothing is handled. -/
  | wait (hposted : s'.posted = s.posted) (hqueued : s'.queued = s.queued)
      (hsent : s'.sentTo playerId = s.sentTo playerId)
      (hreg : s.Undisturbed playerId l → ∀ needs, s.network.Registered playerId needs →
        s'.network.Registered playerId needs)
  /-- The next broadcast is posted. -/
  | post (hposted : s'.posted = s.posted + 1) (hqueued : s'.queued = s.queued ++ [s.posted + 1])
      (hsent : s'.sentTo playerId = s.sentTo playerId)
      (hreg : ∀ needs, s.network.Registered playerId needs →
        s'.network.Registered playerId needs)
  /-- The first broadcast of the queue is handled. -/
  | handle (order : FiniteMap.Traversal PlayerId) (number : ℕ) (hl : l = .runHandler order)
      (hposted : s'.posted = s.posted) (hqueued : s.queued = number :: s'.queued)
      (hserved : ∀ needs, s.network.Registered playerId needs →
        s'.network.Registered playerId false ∧
          ∃ r : Sent, s'.sentTo playerId = s.sentTo playerId ++ [r] ∧
            r.transmission.full = needs ∧ r.broadcast = number ∧
            (needs = true → r.transmission.datagrams =
              datagramsOf (s.server.getFullSnapshotForSeq (UInt32.ofNat number))))

/-- **What a turn does to the queue.** -/
theorem queue_of_step (hs : s.Numbered) (hm : s.network.Consistent) (h : s.step l = some s') :
    QueueTurn playerId s l s' := by
  have hcounted := hs.counted
  cases turn_of_step h with
  | startTick sched hphase =>
    refine .wait ?_ rfl rfl fun _ _ hreg => hreg
    rw [posted, posted, hphase]
    show s.ticks + 1 - s.quiet - 1 = s.ticks - s.quiet - 0
    omega
  | refreshFullSnapshotCache order counts hphase =>
    refine .wait ?_ rfl rfl fun _ _ hreg => hreg
    rw [posted, posted, hphase]
    rfl
  | serializeDelta order counts hphase =>
    refine .wait ?_ rfl rfl fun _ _ hreg => hreg
    rw [posted, posted, hphase]
    rfl
  | skipBroadcast counts hphase =>
    refine .wait ?_ rfl rfl fun _ _ hreg => hreg
    rw [posted, posted, hphase]
    show s.ticks - (s.quiet + 1) - 0 = s.ticks - s.quiet - 1
    omega
  | postBroadcast counts update hphase hne =>
    rw [hphase] at hcounted
    have hlt : s.quiet < s.ticks := hcounted
    have hnumber : s.ticks - s.quiet = s.posted + 1 := by
      rw [posted, hphase]
      show s.ticks - s.quiet = s.ticks - s.quiet - 1 + 1
      omega
    refine .post hnumber ?_ rfl fun needs hreg => ⟨hreg.session, hreg.endpoint⟩
    rw [queued, List.filterMap_append, ← hnumber]
    rfl
  | broadcastServerStats order counts jobs hphase hjobs =>
    refine .wait ?_ ?_ rfl fun _ _ hreg => hreg
    · rw [posted, posted, hphase]
      rfl
    · rw [queued, List.filterMap_append]
      rcases hjobs with rfl | ⟨payload, rfl⟩ <;> exact List.append_nil _
  | handleStats order payload jobs hjobs =>
    refine .wait rfl ?_ rfl fun _ _ hreg => hreg
    rw [queued, queued, hjobs]
    rfl
  | handleBroadcast order payload seq tick quiet jobs hjobs =>
    refine .handle order (tick - quiet) rfl rfl ?_ fun needs hreg => ?_
    · rw [queued, hjobs]
      rfl
    · obtain ⟨ep, hsent⟩ := filter_sent order hreg payload seq tick quiet
      refine ⟨registered_doUdpBroadcast order _ hreg payload seq, _, hsent, rfl, rfl, ?_⟩
      have hseq := (hs.jobs payload seq tick quiet (hjobs ▸ List.mem_cons_self)).2
      rintro rfl
      rw [← hseq]
      rfl
  | onConnection l s' hl hsame hstep =>
    refine .wait ?_ ?_ ?_ fun hu needs hreg => step_registered hm hreg hu hl hstep
    · rw [posted, posted, hsame.ticks, hsame.quiet, hsame.phase]
    · rw [queued, queued, hsame.jobs]
    · rw [sentTo, sentTo, hsame.sent]

/-- The queue ends with the last broadcast posted, and has no gap. -/
theorem run_queued {ls : List Label} (h : run step {} ls = some s) :
    (s.queued ++ [s.posted + 1]).IsChain Next := by
  have hall := run_invariant'
    (I := fun s : State => s.Numbered ∧ s.network.Consistent ∧
      (s.queued ++ [s.posted + 1]).IsChain Next)
    (fun s l s' hs hstep => ?_) ⟨numbered_empty, consistent_empty, List.isChain_singleton 1⟩ h
  · exact hall.2.2
  · obtain ⟨hnumbered, hm, hchain⟩ := hs
    refine ⟨step_numbered hnumbered hstep, step_consistent hm hstep, ?_⟩
    cases @queue_of_step s s' l 0 hnumbered hm hstep with
    | wait hposted hqueued hsent hreg =>
      rw [hposted, hqueued]
      exact hchain
    | post hposted hqueued hsent hreg =>
      rw [hposted, hqueued, List.append_assoc]
      exact List.isChain_split.mpr ⟨hchain, List.isChain_pair.mpr rfl⟩
    | handle order number hl hposted hqueued hserved =>
      rw [hqueued, List.cons_append] at hchain
      rw [hposted]
      exact hchain.tail

/-! ## An undisturbed player -/

/-- A player that has been sent `rs`, after `old`, since it registered. -/
structure Follows (playerId : PlayerId) (old rs : List Sent) (needs : Bool) (s : State) :
    Prop where
  registered : s.network.Registered playerId needs
  sent : s.sentTo playerId = old ++ rs
  kinds : SnapshotFirst needs rs
  counted : (rs.map Sent.broadcast ++ s.queued ++ [s.posted + 1]).IsChain Next

theorem step_follows {old rs : List Sent} (hf : Follows playerId old rs needs s)
    (hs : s.Numbered) (hm : s.network.Consistent) (hu : s.Undisturbed playerId l)
    (h : s.step l = some s') : ∃ rs' needs', Follows playerId old rs' needs' s' := by
  obtain ⟨hregistered, hsentTo, hkinds, hchain⟩ := hf
  cases @queue_of_step s s' l playerId hs hm h with
  | wait hposted hqueued hsent hreg =>
    refine ⟨rs, needs, hreg hu needs hregistered, hsent.trans hsentTo, hkinds, ?_⟩
    rw [hposted, hqueued]
    exact hchain
  | post hposted hqueued hsent hreg =>
    refine ⟨rs, needs, hreg needs hregistered, hsent.trans hsentTo, hkinds, ?_⟩
    rw [hposted, hqueued, ← List.append_assoc, List.append_assoc]
    exact List.isChain_split.mpr ⟨hchain, List.isChain_pair.mpr rfl⟩
  | handle order number hl hposted hqueued hserved =>
    obtain ⟨hreg, r, hsent, hfull, hnumber, -⟩ := hserved needs hregistered
    refine ⟨rs ++ [r], false, hreg, ?_, hkinds.snoc hfull, ?_⟩
    · rw [hsent, hsentTo, List.append_assoc]
    · -- the head of the queue moves to what was sent
      rw [List.map_append, List.map_singleton, hnumber, hposted, List.append_assoc,
        List.append_assoc, List.singleton_append]
      rw [hqueued, List.append_assoc] at hchain
      exact hchain

/-- **An undisturbed player follows.** -/
theorem run_follows {ls₀ ls : List Label} {s₀ : State} (h₀ : run step {} ls₀ = some s₀)
    (hreg : s₀.network.Registered playerId true) (h : run step s₀ ls = some s)
    (hu : Always step (Undisturbed playerId) s₀ ls) :
    ∃ rs needs, Follows playerId (s₀.sentTo playerId) rs needs s := by
  have hfirst : Follows playerId (s₀.sentTo playerId) [] true s₀ :=
    ⟨hreg, (List.append_nil _).symm, .waiting, run_queued h₀⟩
  have hall := run_invariant
    (I := fun s : State => s.Numbered ∧ s.network.Consistent ∧
      ∃ rs needs, Follows playerId (s₀.sentTo playerId) rs needs s)
    (fun s l s' hs hul hstep => ?_)
    ⟨run_numbered h₀, run_consistent h₀, [], true, hfirst⟩ hu h
  · exact hall.2.2
  · obtain ⟨hnumbered, hm, rs, needs, hf⟩ := hs
    exact ⟨step_numbered hnumbered hstep, step_consistent hm hstep,
      step_follows hf hnumbered hm hul hstep⟩

end State

/-! ## A client that loses nothing -/

/-- The transmissions do not make a client ask: each delta is one datagram, and
`quiet` is, modulo `2 ^ 32`, the number of quiet ticks that its number counts and
the first number of the client does not.  A snapshot counts none. -/
structure Seamless (rs : List Sent) (quiet : ℕ) : Prop where
  snapshots : ∀ r ∈ rs, r.transmission.full = true → r.transmission.datagrams ≠ [] → quiet = 0
  deltas : ∀ r ∈ rs, r.transmission.full = false →
    r.transmission.datagrams.length = 1 ∧ r.quiet ≡ quiet [MOD 2 ^ 32]

theorem seamless_nil (quiet : ℕ) : Seamless [] quiet :=
  ⟨fun _ hr => absurd hr List.not_mem_nil, fun _ hr => absurd hr List.not_mem_nil⟩

theorem seamless_cons_of_full {r : Sent} {rs : List Sent} {quiet : ℕ}
    (hfull : r.transmission.full = true) :
    Seamless (r :: rs) quiet ↔ (r.transmission.datagrams ≠ [] → quiet = 0) ∧ Seamless rs quiet := by
  constructor
  · rintro ⟨hsnapshots, hdeltas⟩
    exact ⟨hsnapshots r List.mem_cons_self hfull,
      fun q hq => hsnapshots q (List.mem_cons_of_mem r hq),
      fun q hq => hdeltas q (List.mem_cons_of_mem r hq)⟩
  · rintro ⟨hhead, hsnapshots, hdeltas⟩
    refine ⟨List.forall_mem_cons.mpr ⟨fun _ => hhead, hsnapshots⟩,
      List.forall_mem_cons.mpr ⟨fun hdelta => ?_, hdeltas⟩⟩
    rw [hfull] at hdelta
    cases hdelta

theorem seamless_cons_of_delta {r : Sent} {rs : List Sent} {quiet : ℕ}
    (hdelta : r.transmission.full = false) :
    Seamless (r :: rs) quiet ↔
      (r.transmission.datagrams.length = 1 ∧ r.quiet ≡ quiet [MOD 2 ^ 32]) ∧
        Seamless rs quiet := by
  constructor
  · rintro ⟨hsnapshots, hdeltas⟩
    exact ⟨hdeltas r List.mem_cons_self hdelta,
      fun q hq => hsnapshots q (List.mem_cons_of_mem r hq),
      fun q hq => hdeltas q (List.mem_cons_of_mem r hq)⟩
  · rintro ⟨hhead, hsnapshots, hdeltas⟩
    refine ⟨List.forall_mem_cons.mpr ⟨fun hfull => ?_, hsnapshots⟩,
      List.forall_mem_cons.mpr ⟨fun _ => hhead, hdeltas⟩⟩
    rw [hdelta] at hfull
    cases hfull

/-- Among deltas only the remainder matters. -/
theorem Seamless.of_modEq {rs : List Sent} {quiet quiet' : ℕ} (h : Seamless rs quiet)
    (hdelta : ∀ r ∈ rs, r.transmission.full = false) (heq : quiet ≡ quiet' [MOD 2 ^ 32]) :
    Seamless rs quiet' := by
  refine ⟨fun r hr hfull => ?_, fun r hr hrdelta => ?_⟩
  · rw [hdelta r hr] at hfull
    cases hfull
  · obtain ⟨hone, hquiet⟩ := h.deltas r hr hrdelta
    exact ⟨hone, hquiet.trans heq⟩

namespace Sent

variable {c : ClientState}

theorem Numbered.tick_eq {r : Sent} (hr : r.Numbered) : r.tick = r.broadcast + r.quiet :=
  (Nat.sub_add_cancel hr.posted.quiet_lt.le).symm

/-- One delta that arrives whole makes no client ask that has heard nothing, if it
is one datagram. -/
theorem Numbered.asks_first {r : Sent} (hr : r.Numbered) (hfull : r.transmission.full = false)
    (hconnected : c.network.isConnected = true) (hlast : c.network.lastSeqNum = none) :
    c.asks r.transmission.datagrams = false ↔ r.transmission.datagrams.length = 1 := by
  have hstamped := hr.stamped
  rw [hfull] at hstamped
  have hpos := List.length_pos_of_ne_nil ((hr.delta hfull).symm ▸ hr.posted.ne_nil)
  rw [← Bool.not_eq_true, hstamped.asks_iff c hconnected, hlast]
  constructor
  · intro hquiet
    have hfew := mt Or.inl hquiet
    omega
  · rintro hone (hmany | ⟨-, last, heq, -⟩)
    · omega
    · cases heq

/-- One delta that arrives whole, when the client has heard the broadcast before it
under a number that leaves out all but `quiet` quiet ticks. -/
theorem Numbered.asks_next {r : Sent} (hr : r.Numbered) (hfull : r.transmission.full = false)
    {quiet : ℕ} (hconnected : c.network.isConnected = true) {n : ℕ}
    (hlast : c.network.lastSeqNum = some (UInt32.ofNat (n + quiet))) (hnext : Next n r.broadcast) :
    c.asks r.transmission.datagrams = false ↔
      r.transmission.datagrams.length = 1 ∧ r.quiet ≡ quiet [MOD 2 ^ 32] := by
  have hstamped := hr.stamped
  rw [hfull, number_of_delta hfull] at hstamped
  have hne : r.transmission.datagrams ≠ [] := (hr.delta hfull).symm ▸ hr.posted.ne_nil
  have hpos := List.length_pos_of_ne_nil hne
  have hnumber : UInt32.ofNat r.tick = UInt32.ofNat (n + quiet) + 1 ↔
      r.quiet ≡ quiet [MOD 2 ^ 32] := by
    have hsucc : UInt32.ofNat (n + quiet) + 1 = UInt32.ofNat (n + 1 + quiet) := by
      rw [Nat.add_right_comm]
      exact (UInt32.ofNat_add _ 1).symm
    rw [hr.tick_eq, hnext, hsucc, State.ofNat_eq_ofNat_iff]
    exact ⟨Nat.ModEq.add_left_cancel' _, Nat.ModEq.add_left _⟩
  rw [← hnumber, ← Bool.not_eq_true, hstamped.asks_iff c hconnected, hlast]
  constructor
  · intro hsilent
    have hfew := mt Or.inl hsilent
    refine ⟨by omega, ?_⟩
    by_contra hgap
    exact hsilent (Or.inr ⟨hne, _, rfl, hgap⟩)
  · rintro ⟨hone, heq⟩ (hmany | ⟨-, last, hheard, hgap⟩)
    · omega
    · cases hheard
      exact hgap heq

/-- **Deltas that follow a number.** -/
theorem asks_deltas {rs : List Sent} (hrs : ∀ r ∈ rs, r.Numbered)
    (hdelta : ∀ r ∈ rs, r.transmission.full = false) {quiet : ℕ}
    (hconnected : c.network.isConnected = true) {n : ℕ}
    (hlast : c.network.lastSeqNum = some (UInt32.ofNat (n + quiet)))
    (hchain : (n :: rs.map broadcast).IsChain Next) :
    c.asks (datagrams rs) = false ↔ Seamless rs quiet := by
  induction rs generalizing c n with
  | nil => exact iff_of_true rfl (seamless_nil quiet)
  | cons r rs ih =>
    obtain ⟨hr, hrs⟩ := List.forall_mem_cons.mp hrs
    obtain ⟨hfull, hdelta⟩ := List.forall_mem_cons.mp hdelta
    rw [List.map_cons, List.isChain_cons_cons] at hchain
    rw [datagrams, List.flatMap_cons, ClientState.asks_append, Bool.or_eq_false_iff,
      hr.asks_next hfull hconnected hlast hchain.1, seamless_cons_of_delta hfull]
    refine and_congr_right fun hone => ?_
    refine ih hrs hdelta ((hr.stamped.isConnected_foldl c).trans hconnected) ?_ hchain.2
    rw [hr.lastSeqNum_foldl (List.Sublist.refl _) hlast, heard,
      if_neg ((hr.delta hfull).symm ▸ hr.posted.ne_nil), Numbered.number_of_delta hfull, hr.tick_eq,
      State.ofNat_eq_ofNat_iff.mpr (hone.2.add_left r.broadcast)]

/-- **A snapshot and deltas**, heard by a client that has heard nothing. -/
theorem asks_snapshotFirst {needs : Bool} {rs : List Sent} (hkinds : SnapshotFirst needs rs)
    (hrs : ∀ r ∈ rs, r.Numbered) (hchain : (rs.map broadcast).IsChain Next) :
    ClientState.asks {} (datagrams rs) = false ↔ ∃ quiet, Seamless rs quiet := by
  cases hkinds with
  | waiting => exact iff_of_true rfl ⟨0, seamless_nil 0⟩
  | @following r rs hfull hdelta =>
    obtain ⟨hr, hrs⟩ := List.forall_mem_cons.mp hrs
    have hstamped := hr.stamped
    rw [hfull] at hstamped
    have hconnected : (r.transmission.datagrams.foldl ClientState.receive {}).network.isConnected =
        true := hstamped.isConnected_foldl {}
    have hheard := hstamped.lastSeqNum_foldl {}
    rw [datagrams, List.flatMap_cons, ClientState.asks_append, hstamped.asks_of_full {} rfl,
      Bool.false_or]
    simp only [seamless_cons_of_full hfull]
    by_cases hnone : r.transmission.datagrams = []
    · -- the client has not heard the snapshot, so it starts from the first delta
      rw [hnone, List.foldl_nil]
      cases rs with
      | nil => exact iff_of_true rfl ⟨0, fun h => absurd rfl h, seamless_nil 0⟩
      | cons r' rs =>
        obtain ⟨hr', hrs⟩ := List.forall_mem_cons.mp hrs
        obtain ⟨hfull', hdelta⟩ := List.forall_mem_cons.mp hdelta
        have hstamped' := hr'.stamped
        have hfirst : (r'.transmission.datagrams.foldl ClientState.receive {}).network.lastSeqNum =
            some (UInt32.ofNat (r'.broadcast + r'.quiet)) := by
          rw [hstamped'.lastSeqNum_foldl, if_neg ((hr'.delta hfull').symm ▸ hr'.posted.ne_nil),
            Numbered.number_of_delta hfull', hr'.tick_eq]
        rw [List.map_cons, List.map_cons, List.isChain_cons_cons] at hchain
        rw [List.flatMap_cons, ClientState.asks_append, Bool.or_eq_false_iff,
          hr'.asks_first hfull' rfl rfl]
        refine (and_congr_right fun _ => asks_deltas hrs hdelta
          (hstamped'.isConnected_foldl {}) hfirst hchain.2).trans ?_
        simp only [seamless_cons_of_delta hfull']
        constructor
        · rintro ⟨hone, hseamless⟩
          exact ⟨r'.quiet, fun h => absurd rfl h, ⟨hone, Nat.ModEq.refl _⟩, hseamless⟩
        · rintro ⟨quiet, -, ⟨hone, hquiet⟩, hseamless⟩
          exact ⟨hone, hseamless.of_modEq hdelta hquiet.symm⟩
    · rw [if_neg hnone, number, if_pos hfull] at hheard
      refine (@asks_deltas _ rs hrs hdelta 0 hconnected r.broadcast hheard hchain).trans ?_
      constructor
      · exact fun hseamless => ⟨0, fun _ => rfl, hseamless⟩
      · rintro ⟨quiet, hzero, hseamless⟩
        rw [← hzero hnone]
        exact hseamless

end Sent

namespace State

variable {s : State} {playerId : PlayerId} {needs : Bool} {old rs : List Sent}

theorem Follows.asks_iff (hf : Follows playerId old rs needs s) (hs : s.Numbered) :
    ClientState.asks {} (Sent.datagrams rs) = false ↔ ∃ quiet, Seamless rs quiet := by
  refine Sent.asks_snapshotFirst hf.kinds (fun r hr => ?_) ?_
  · have hmem : r ∈ s.sentTo playerId := by
      rw [hf.sent]
      exact List.mem_append_right _ hr
    exact hs.sent r (List.mem_of_mem_filter hmem)
  · have hcounted := hf.counted
    rw [List.append_assoc] at hcounted
    exact hcounted.left_of_append

/-- **When a client that loses nothing asks for nothing.**  Along every run, let a
player register in `s₀` and stay undisturbed.  Its client, fed everything the player
is sent, never asks for a resync exactly when what it is sent is `Seamless`. -/
theorem run_seamless_iff {ls₀ ls : List Label} {s₀ : State} (h₀ : run step {} ls₀ = some s₀)
    (hreg : s₀.network.Registered playerId true) (h : run step s₀ ls = some s)
    (hu : Always step (Undisturbed playerId) s₀ ls) :
    ∃ rs, s.sentTo playerId = s₀.sentTo playerId ++ rs ∧
      (ClientState.asks {} (Sent.datagrams rs) = false ↔ ∃ quiet, Seamless rs quiet) := by
  obtain ⟨rs, needs, hf⟩ := run_follows h₀ hreg h hu
  exact ⟨rs, hf.sent, hf.asks_iff (run_numbered (run_append.mpr ⟨s₀, h₀, h⟩))⟩

/-- Ticks and commands disturb nobody. -/
theorem undisturbed_playLabels (sched : TickSchedule) (order : FiniteMap.Traversal ChunkCoord)
    (players : FiniteMap.Traversal PlayerId) (ptr : SessionPtr) (id : PlayerId)
    (cmds : List (CommandType × Int64 × Int64)) {l : Label}
    (hl : l ∈ playLabels sched order players ptr id cmds) (s : State) :
    s.Undisturbed playerId l := by
  rcases List.mem_append.mp hl with hl | hl
  · obtain ⟨cmd, -, rfl⟩ := List.mem_map.mp hl
    exact trivial
  · simp only [tickLabels, deltaLabels, List.mem_append, List.mem_cons, List.not_mem_nil,
      or_false] at hl
    rcases hl with ((rfl | rfl | rfl) | rfl | rfl) | rfl | rfl <;> exact trivial

theorem undisturbed_threeTicks (s : State) :
    Always step (Undisturbed playerId) s threeTicks := by
  refine always_of_forall_mem (fun l hl s => ?_) s
  rw [threeTicks, List.mem_append, List.mem_append] at hl
  rcases hl with hl | hl | hl <;> exact undisturbed_playLabels _ _ _ _ _ _ hl s

theorem run_seamless_iff_threeTicks :
    ∃ s₀ s rs, run step {} (connect 1 ⟨0, 0⟩ 7) = some s₀ ∧ run step s₀ threeTicks = some s ∧
      s.sentTo 7 = s₀.sentTo 7 ++ rs ∧
        (ClientState.asks {} (Sent.datagrams rs) = false ↔ ∃ quiet, Seamless rs quiet) := by
  obtain ⟨s₀, s, r₁, r₂, r₃, hconnect, hreg, -, hrun, -⟩ := exists_threeTicks
  obtain ⟨rs, hrs⟩ := run_seamless_iff hconnect hreg hrun (undisturbed_threeTicks s₀)
  exact ⟨s₀, s, rs, hconnect, hrun, hrs⟩

/-- **A resync that nothing lost calls for.**  The second of three ticks has two
datagrams, and the second of them does not carry the next number. -/
theorem run_resync_unprovoked :
    ¬ ∀ ls₀ s₀ ls s playerId, run step {} ls₀ = some s₀ → s₀.network.Registered playerId true →
      run step s₀ ls = some s → Always step (Undisturbed playerId) s₀ ls →
        ∀ rs, s.sentTo playerId = s₀.sentTo playerId ++ rs →
          ClientState.asks {} (Sent.datagrams rs) = false := by
  intro hclaim
  obtain ⟨s₀, s, r₁, r₂, r₃, hconnect, hreg, hold, hrun, hsent, -, ⟨hdelta, htwo, -⟩, -⟩ :=
    exists_threeTicks
  have hu := @undisturbed_threeTicks 7 s₀
  obtain ⟨rs, needs, hf⟩ := run_follows hconnect hreg hrun hu
  have hrs : rs = [r₁, r₂, r₃] := by
    rw [← hsent, hf.sent, hold, List.nil_append]
  obtain ⟨quiet, hseamless⟩ := (hf.asks_iff (run_numbered (run_append.mpr ⟨s₀, hconnect, hrun⟩))).mp
    (hclaim _ s₀ _ s 7 hconnect hreg hrun hu rs hf.sent)
  have hmem : r₂ ∈ rs := by
    rw [hrs]
    exact List.mem_cons_of_mem r₁ List.mem_cons_self
  have hone := (hseamless.deltas r₂ hmem hdelta).1
  omega

end State
end Multilife

import Multilife.Client.ClientRuntime
import Multilife.Refinement.Ranking
import Multilife.Refinement.StatsStream
import Multilife.System.Sequence
import Multilife.System.Sessions

/-!
# The announcements of the ticks

At its end a tick announces its statistics: it packs them and posts a handler, which writes them to
every session that is registered when it runs.

* `listens_step`: a connection that has once stopped listening does not begin again.
* `heard_of_run`: so what is written to it are the announcements of consecutive ticks.
* `lookup_announced`: an announcement is about the ledger and the world at its tick's end.
* `statistics_of_run`: a client emits the announcements as they were, however their bytes are cut.
-/

namespace Multilife

open BoostNetworkManager Chunk Client FiniteMap Tally Transition

namespace BoostNetworkManager

/-! ## Who is written to -/

/-- The connection is registered, under some id. -/
def Listens (self : SessionPtr) (m : BoostNetworkManager) : Prop :=
  ∃ id, m.sessions.lookup id = some self

/-- The connection has had its handshake, or has ended without one. -/
def Begun (self : SessionPtr) (m : BoostNetworkManager) : Prop :=
  ∃ session, m.objects.lookup self = some session ∧ session.pending ≠ .handshake

variable {m m' : BoostNetworkManager} {self : SessionPtr}

theorem begun_of_listens (hm : m.Consistent) (h : m.Listens self) : m.Begun self := by
  obtain ⟨id, hid⟩ := h
  obtain ⟨session, hsession, -, hpending⟩ := hm id self hid
  exact ⟨session, hsession, hpending⟩

/-- A registered connection is written to once. -/
theorem filter_broadcastServerStats (hm : m.Consistent) (h : m.Listens self)
    (order : Traversal PlayerId) (payload : List UInt8) :
    (m.broadcastServerStats order payload).filter (fun w => w.1 = self) = [(self, payload)] := by
  obtain ⟨id, hid⟩ := h
  have howner : ∀ id' session, m.sessions.lookup id' = some session →
      ((m.objects.lookup session).map Session.playerId).getD 0 = id' := by
    intro id' session hsession
    obtain ⟨object, hobject, hplayer, -⟩ := hm id' session hsession
    rw [hobject]
    exact hplayer
  have hlist := filter_filterMap (α := PlayerId)
    (f := fun id => (m.sessions.lookup id).map fun session => (session, payload))
    (g := fun w => ((m.objects.lookup w.1).map Session.playerId).getD 0)
    (fun id' w hw => by
      obtain ⟨session, hsession, rfl⟩ := Option.map_eq_some_iff.mp hw
      exact howner id' session hsession)
    (order.nodup m.sessions.keys)
    ((order.mem_order _ _).mpr (Finmap.mem_keys.mpr (Finmap.mem_of_lookup_eq_some hid)))
  rw [hid] at hlist
  rw [broadcastServerStats, ← show Option.toList (some (self, payload)) = [(self, payload)] from rfl]
  refine Eq.trans (List.filter_congr fun w hw => ?_) hlist
  obtain ⟨id', -, hw⟩ := List.mem_filterMap.mp hw
  obtain ⟨session, hsession, rfl⟩ := Option.map_eq_some_iff.mp hw
  rw [decide_eq_decide, howner id' session hsession]
  constructor
  · rintro rfl
    exact (howner id' session hsession).symm.trans (howner id session hid)
  · rintro rfl
    exact Option.some.inj (hsession.symm.trans hid)

/-- Nobody else is. -/
theorem filter_broadcastServerStats_of_not (h : ¬ m.Listens self) (order : Traversal PlayerId)
    (payload : List UInt8) :
    (m.broadcastServerStats order payload).filter (fun w => w.1 = self) = [] := by
  refine List.filter_eq_nil_iff.mpr fun w hw => ?_
  obtain ⟨id, -, hw⟩ := List.mem_filterMap.mp hw
  obtain ⟨session, hsession, rfl⟩ := Option.map_eq_some_iff.mp hw
  rw [decide_eq_true_eq]
  rintro rfl
  exact h ⟨id, hsession⟩

/-! ## Connections come and go -/

/-- What has begun has begun, and does not begin to listen. -/
structure Settles (ptr : SessionPtr) (m m' : BoostNetworkManager) : Prop where
  begun : m'.Begun ptr
  listens : m'.Listens ptr → m.Listens ptr

theorem settles_of_cleared (h : m.Begun self) (hsessions : m'.sessions = m.sessions)
    (hobjects : m'.objects.lookup self = m.objects.lookup self ∨ m'.objects.lookup self =
      (m.objects.lookup self).map fun s => { s with needsFullSnapshot := false }) :
    Settles self m m' := by
  obtain ⟨session, hsession, hpending⟩ := h
  constructor
  · rcases hobjects with heq | heq
    · exact ⟨session, heq.trans hsession, hpending⟩
    · rw [hsession] at heq
      exact ⟨_, heq, hpending⟩
  · rintro ⟨id, hid⟩
    exact ⟨id, hsessions ▸ hid⟩

/-- Writing another object. -/
theorem begun_insert_of_ne (h : m.Begun self) {other : SessionPtr} (hne : self ≠ other)
    (session : Session) : Begun self { m with objects := m.objects.insert other session } := by
  obtain ⟨found, hfound, hpending⟩ := h
  exact ⟨found, (Finmap.lookup_insert_of_ne _ hne).trans hfound, hpending⟩

theorem settles_start {other : SessionPtr} {session : Session} (h : m.Begun self)
    (hother : m.objects.lookup other = some session) (hpending : session.pending = .handshake)
    (buf : List UInt8) : Settles self m (m.start other session buf).1 := by
  have hne : self ≠ other := by
    rintro rfl
    obtain ⟨found, hfound, hnot⟩ := h
    rw [hother] at hfound
    cases hfound
    exact hnot hpending
  rw [start]
  dsimp only
  split_ifs with hmagic
  · exact ⟨begun_insert_of_ne h hne _, id⟩
  · refine ⟨begun_insert_of_ne h hne _, ?_⟩
    rintro ⟨id, hid⟩
    refine ⟨id, ?_⟩
    by_cases heq : id = LittleEndian.readLE UInt64 buf 4
    · rw [heq, Finmap.lookup_insert] at hid
      exact absurd (Option.some.inj hid).symm hne
    · exact (Finmap.lookup_insert_of_ne _ heq).symm.trans hid

theorem settles_setNeedsFullSnapshot (h : m.Begun self) (id : PlayerId) (value : Bool) :
    Settles self m (m.setNeedsFullSnapshot id value) := by
  obtain ⟨session, hsession, hpending⟩ := h
  unfold setNeedsFullSnapshot
  cases m.sessions.lookup id with
  | none => exact ⟨⟨session, hsession, hpending⟩, fun hl => hl⟩
  | some changed =>
    refine ⟨?_, fun hl => hl⟩
    show ∃ s, (modify changed _ m.objects).lookup self = some s ∧ _
    rw [lookup_modify, hsession]
    split_ifs
    · exact ⟨_, rfl, hpending⟩
    · exact ⟨session, rfl, hpending⟩

theorem settles_readError (h : m.Begun self) (other : SessionPtr) (session : Session) :
    Settles self m (m.readError other session) := by
  constructor
  · obtain ⟨found, hfound, hpending⟩ := h
    have hobjects : (m.readError other session).objects =
        m.objects.insert other { session with pending := .none } := by
      rw [readError]
      split_ifs <;> rfl
    by_cases hne : self = other
    · exact ⟨_, by rw [hobjects, hne, Finmap.lookup_insert], PendingRead.noConfusion⟩
    · exact ⟨found, by rw [hobjects, Finmap.lookup_insert_of_ne _ hne, hfound], hpending⟩
  · rintro ⟨id, hid⟩
    rw [readError] at hid
    split_ifs at hid
    · have hne : id ≠ session.playerId := by
        rintro rfl
        have hnone : (m.sessions.erase session.playerId).lookup session.playerId = some self := hid
        rw [Finmap.lookup_erase] at hnone
        cases hnone
      exact ⟨id, (Finmap.lookup_erase_ne hne).symm.trans hid⟩
    · exact ⟨id, hid⟩

end BoostNetworkManager

namespace State

variable {s s' t : State} {l : Label} {ls : List Label} {self : SessionPtr}

/-- **A connection that has once stopped listening** does not begin again. -/
theorem listens_step (hs : s.network.Begun self) (h : s.step l = some s') :
    Settles self s.network s'.network := by
  cases turn_of_step h with
  | handleBroadcast order payload seq tick quiet jobs hjobs =>
    have hcleared := cleared_doUdpBroadcast order (some s.server.getFullSnapshotForSeq) s.network
      payload seq
    exact settles_of_cleared hs hcleared.sessions (hcleared.objects self)
  | onConnection l s' hl hsame hstep =>
    have hnetwork := networkTurn_of_step hl hstep
    generalize s'.network = m' at hnetwork ⊢
    cases hnetwork with
    | accept other socket hother =>
      have hne : self ≠ other := by
        rintro rfl
        obtain ⟨session, hsession, -⟩ := hs
        exact hother (Finmap.mem_of_lookup_eq_some hsession)
      exact ⟨begun_insert_of_ne hs hne _, id⟩
    | handshake other buf session hother hpending => exact settles_start hs hother hpending buf
    | resync other session hother hpending => exact settles_setNeedsFullSnapshot hs _ true
    | otherMessage other msg hmsg => exact ⟨hs, id⟩
    | readError other session hother hpending => exact settles_readError hs other session
  | _ => exact ⟨hs, id⟩

/-! ## What is announced, and what is written -/

/-- The payload of a handler of `broadcastServerStats`. -/
def statsPayload : Job → Option (List UInt8)
  | .worldUpdate .. => none
  | .serverStats payload => some payload

/-- The statistics that are still posted. -/
def unhandled (s : State) : List (List UInt8) := s.jobs.filterMap statsPayload

/-- The statistics that a turn writes. -/
def handled (s : State) : Label → List (List UInt8)
  | .startTick _ => []
  | .refreshFullSnapshotCache _ => []
  | .serializeDelta _ => []
  | .broadcastWorldUpdate => []
  | .broadcastServerStats _ => []
  | .runHandler _ => (s.jobs.head?.bind statsPayload).toList
  | .accept _ _ => []
  | .handshake _ _ => []
  | .message _ _ => []
  | .readError _ => []

/-- What a turn writes to TCP, and to which sessions. -/
def writes (s : State) : Label → List (SessionPtr × List UInt8)
  | .runHandler order =>
    (s.handled (.runHandler order)).flatMap fun payload => s.network.broadcastServerStats order payload
  | _ => []

/-- What a turn writes to one session. -/
def writesTo (self : SessionPtr) (s : State) (l : Label) : List (List UInt8) :=
  ((s.writes l).filter fun w => w.1 = self).map Prod.snd

/-- The statistics that a turn announces. -/
def announced (s : State) : Label → List ParsedServerStatsMessage
  | .startTick _ => []
  | .refreshFullSnapshotCache _ => []
  | .serializeDelta _ => []
  | .broadcastWorldUpdate => []
  | .broadcastServerStats order =>
    match s.phase with
    | .announced totalCounts =>
      [statsMessage order s.server.broadcastSeq s.server.resourceManager totalCounts]
    | _ => []
  | .runHandler _ => []
  | .accept _ _ => []
  | .handshake _ _ => []
  | .message _ _ => []
  | .readError _ => []

/-- The handlers take the announcements in order. -/
theorem handled_step (h : s.step l = some s') :
    s.handled l ++ s'.unhandled =
      s.unhandled ++ (s.announced l).map ParsedServerStatsMessage.encode := by
  cases turn_of_step h with
  | startTick sched hphase => exact (List.append_nil _).symm
  | refreshFullSnapshotCache order counts hphase => exact (List.append_nil _).symm
  | serializeDelta order counts hphase => exact (List.append_nil _).symm
  | skipBroadcast counts hphase => exact (List.append_nil _).symm
  | postBroadcast counts update hphase hne =>
    rw [handled, announced, unhandled, List.filterMap_append]
    rfl
  | broadcastServerStats order counts jobs hphase hjobs =>
    have hpayload := serializeServerStats_eq order s.server.broadcastSeq s.server.resourceManager counts
    have hne : (serializeServerStats order s.server.broadcastSeq s.server.resourceManager
        counts).isEmpty = false := by
      rw [hpayload]
      rfl
    simp only [step, State.broadcastServerStats, hphase, hne, Option.some.injEq] at h
    rw [← h, handled, announced, hphase, unhandled, unhandled]
    simp [statsPayload, hpayload]
  | handleStats order payload jobs hjobs =>
    rw [handled, announced, unhandled, unhandled, hjobs]
    exact (List.append_nil _).symm
  | handleBroadcast order payload seq tick quiet jobs hjobs =>
    rw [handled, announced, unhandled, unhandled, hjobs]
    exact (List.append_nil _).symm
  | onConnection l s' hl hsame hstep =>
    have hnone : s.handled l = [] ∧ s.announced l = [] := by
      cases l with
      | accept self socket => exact ⟨rfl, rfl⟩
      | handshake self buf => exact ⟨rfl, rfl⟩
      | message self msg => exact ⟨rfl, rfl⟩
      | readError self => exact ⟨rfl, rfl⟩
      | _ => exact absurd hl not_false
    rw [hnone.1, hnone.2, unhandled, hsame.jobs]
    exact (List.append_nil _).symm

/-- A session is written what is written at all, or nothing. -/
theorem writesTo_of_listens (hs : s.network.Consistent) (hself : s.network.Listens self) (l : Label) :
    s.writesTo self l = s.handled l := by
  cases l with
  | runHandler order =>
    rw [writesTo, writes]
    cases hjob : s.jobs.head?.bind statsPayload with
    | none => simp [handled, hjob]
    | some payload =>
      simp [handled, hjob, filter_broadcastServerStats hs hself]
  | _ => rfl

theorem writesTo_of_not (hself : ¬ s.network.Listens self) (l : Label) : s.writesTo self l = [] := by
  cases l with
  | runHandler order =>
    rw [writesTo, writes]
    cases hjob : s.jobs.head?.bind statsPayload with
    | none => simp [handled, hjob]
    | some payload => simp [handled, hjob, filter_broadcastServerStats_of_not hself]
  | _ => rfl

/-- **What a session hears** is a run of consecutive announcements, up to the last one if it is
still registered and no handler is posted. -/
theorem heard_of_run (h : run step {} ls = some t) (self : SessionPtr) :
    ∃ first heard, first ≤ (collect step announced {} ls).length ∧
      collect step (writesTo self) {} ls = heard.map ParsedServerStatsMessage.encode ∧
      heard <+: (collect step announced {} ls).drop first ∧
      (t.network.Listens self → t.unhandled = [] →
        heard = (collect step announced {} ls).drop first) := by
  have hqueue := collect_queue (f := handled) (g := announced) (φ := id)
    (ψ := List.map ParsedServerStatsMessage.encode) (q := unhandled) (fun _ _ => rfl)
    (fun _ _ => List.map_append) (fun _ _ _ h => handled_step h) h
  have hnone : unhandled {} = [] := rfl
  rw [id, hnone, List.nil_append] at hqueue
  obtain ⟨before, after, hall, -, hlast⟩ := collect_while
    (I := fun s : State => s.network.Consistent) (P := fun s => s.network.Listens self)
    (Q := fun s => s.network.Begun self ∧ ¬ s.network.Listens self)
    (fun _ _ _ hs h => step_consistent hs h)
    (fun s l s' hs hself h => by
      have hsettles := listens_step (begun_of_listens hs hself) h
      by_cases hself' : s'.network.Listens self
      · exact Or.inl hself'
      · exact Or.inr ⟨hsettles.begun, hself'⟩)
    (fun s l s' _ hover h => by
      have hsettles := listens_step hover.1 h
      exact ⟨hsettles.begun, fun hself' => hover.2 (hsettles.listens hself')⟩)
    (fun s l hs hself => writesTo_of_listens hs hself l)
    (fun s l _ hself => writesTo_of_not hself l) (fun s hover => hover.2) consistent_empty h
  rw [← hall, List.append_assoc, List.append_assoc] at hqueue
  obtain ⟨missed, rest, hsplit, hmissed, hrest⟩ := List.map_eq_append_iff.mp hqueue.symm
  obtain ⟨heard, tail, rfl, hheard, htail⟩ := List.map_eq_append_iff.mp hrest
  refine ⟨missed.length, heard, ?_, hheard.symm, ?_, fun hself hquiet => ?_⟩
  · rw [hsplit, List.length_append]
    exact Nat.le_add_right _ _
  · rw [hsplit, List.drop_left]
    exact List.prefix_append _ _
  · rw [hlast hself, hquiet, List.append_nil, List.map_eq_nil_iff] at htail
    rw [hsplit, List.drop_left, htail, List.append_nil]

end State

/-! ## Which tick, and what about -/

/-- The tick in progress has not announced its statistics. -/
def TickPhase.unannounced : TickPhase → ℕ
  | .idle => 0
  | .simulated _ | .cached _ | .serialized _ _ | .announced _ => 1

/-- What the tick in progress has counted. -/
def TickPhase.totalCounts : TickPhase → Option (Finmap fun _ : PlayerId => UInt64)
  | .idle => none
  | .simulated totalCounts => some totalCounts
  | .cached totalCounts => some totalCounts
  | .serialized totalCounts _ => some totalCounts
  | .announced totalCounts => some totalCounts

namespace State

variable {s s' t : State} {l : Label} {ls : List Label} {self : SessionPtr}

/-- **One announcement for each tick**, with its number. -/
theorem announcements_of_run (h : run step {} ls = some t) :
    t.phase.unannounced ≤ t.ticks ∧
      (collect step announced {} ls).map ParsedServerStatsMessage.generation =
        (List.range (t.ticks - t.phase.unannounced)).map fun k => UInt32.ofNat (k + 1) := by
  refine run_history (P := fun _ _ => True)
    (Q := fun ls t => t.phase.unannounced ≤ t.ticks ∧
      (collect step announced {} ls).map ParsedServerStatsMessage.generation =
        (List.range (t.ticks - t.phase.unannounced)).map fun k => UInt32.ofNat (k + 1))
    ⟨Nat.le_refl 0, rfl⟩ (fun ls s l t hrun ih _ hstep => ?_)
    (always_of_forall_mem (fun _ _ _ => trivial) _) h
  obtain ⟨hle, hgenerations⟩ := ih
  have hseq := (run_numbered hrun).broadcastSeq
  rw [collect_concat hrun l hstep, List.map_append, hgenerations]
  cases turn_of_step hstep with
  | startTick sched hphase =>
    rw [hphase]
    exact ⟨Nat.le_add_left 1 s.ticks, List.append_nil _⟩
  | refreshFullSnapshotCache order counts hphase =>
    rw [hphase] at hle ⊢
    exact ⟨hle, List.append_nil _⟩
  | serializeDelta order counts hphase =>
    rw [hphase] at hle ⊢
    exact ⟨hle, List.append_nil _⟩
  | skipBroadcast counts hphase =>
    rw [hphase] at hle ⊢
    exact ⟨hle, List.append_nil _⟩
  | postBroadcast counts update hphase hne =>
    rw [hphase] at hle ⊢
    exact ⟨hle, List.append_nil _⟩
  | broadcastServerStats order counts jobs hphase hjobs =>
    rw [hphase] at hle
    rw [announced, hphase]
    refine ⟨Nat.zero_le _, ?_⟩
    obtain ⟨n, hn⟩ : ∃ n, s.ticks = n + 1 := Nat.exists_eq_add_of_le' hle
    have hmessage : (statsMessage order s.server.broadcastSeq s.server.resourceManager
        counts).generation = UInt32.ofNat (n + 1) := by
      show s.server.broadcastSeq = _
      rw [hseq, hn]
    show (List.range (s.ticks - 1)).map _ ++ [_] = (List.range (s.ticks - 0)).map _
    rw [hmessage, hn, Nat.add_sub_cancel, Nat.sub_zero, List.range_succ, List.map_append]
    rfl
  | handleStats order payload jobs hjobs => exact ⟨hle, List.append_nil _⟩
  | handleBroadcast order payload seq tick quiet jobs hjobs => exact ⟨hle, List.append_nil _⟩
  | onConnection l s' hl hsame hstep' =>
    have hnone : s.announced l = [] := by
      cases l with
      | accept self socket => rfl
      | handshake self buf => rfl
      | message self msg => rfl
      | readError self => rfl
      | _ => exact absurd hl not_false
    rw [hnone, hsame.phase, hsame.ticks]
    exact ⟨hle, List.append_nil _⟩

/-- What has been counted are the cells of the world. -/
def Counted (s : State) : Prop :=
  ∀ totalCounts, s.phase.totalCounts = some totalCounts →
    ∀ id, total totalCounts id = UInt64.ofNat (s.server.world.cellAt.paidCount id)

theorem counted_step (hs : s.Counted) (h : s.step l = some s') : s'.Counted := by
  cases turn_of_step h with
  | startTick sched hphase =>
    rintro totalCounts hcounts id
    cases hcounts
    show total (s.server.stepWorld sched).2 id =
      UInt64.ofNat ((s.server.stepWorld sched).1.world.cellAt.paidCount id)
    rw [GameServer.stepWorld_eq]
    exact World.total_totalCounts _ sched id
  | refreshFullSnapshotCache order counts hphase =>
    rw [Counted, hphase] at hs
    exact hs
  | serializeDelta order counts hphase =>
    rw [Counted, hphase] at hs
    show ∀ totalCounts, some counts = some totalCounts → ∀ id, total totalCounts id =
      UInt64.ofNat ((s.server.serializeDelta order).2.world.cellAt.paidCount id)
    rw [GameServer.cellAt_serializeDelta]
    exact hs
  | skipBroadcast counts hphase =>
    rw [Counted, hphase] at hs
    exact hs
  | postBroadcast counts update hphase hne =>
    rw [Counted, hphase] at hs
    exact hs
  | broadcastServerStats order counts jobs hphase hjobs =>
    intro totalCounts hcounts
    cases hcounts
  | handleStats order payload jobs hjobs => exact hs
  | handleBroadcast order payload seq tick quiet jobs hjobs => exact hs
  | onConnection l s' hl hsame hstep =>
    rw [Counted, hsame.phase, hsame.world]
    exact hs

theorem counted_of_run (h : run step {} ls = some t) : t.Counted :=
  run_invariant' (fun _ _ _ hs h => counted_step hs h) (fun _ hcounts => by cases hcounts) h

/-- What the statistics say about a player: the account, and the live cells on the plane.  Only the
65535 smallest ids have an entry. -/
noncomputable def snapshotOf (s : State) (id : PlayerId) : Option GameNetworkClient.PlayerSnapshot :=
  if id ∈ s.server.resourceManager.balances ∧
      (s.server.resourceManager.balances.keys.filter (· < id)).card < 65535 then
    some ⟨id, s.server.resourceManager.getBalance id,
      UInt64.ofNat (s.server.world.cellAt.paidCount id)⟩
  else none

/-- The entries of the statistics: the 65535 smallest ids of the ledger, with what was counted. -/
theorem lookup_statsMessage (order : Traversal PlayerId) (generation : UInt32) (r : ResourceManager)
    (totalCounts : Finmap fun _ : PlayerId => UInt64) (id : PlayerId) :
    (balances ∅ (.serverStatsUpdated (GameNetworkClient.toStatsUpdate
      (statsMessage order generation r totalCounts)))).lookup id =
      if id ∈ r.balances ∧ (r.balances.keys.filter (· < id)).card < 65535 then
        some ⟨id, r.getBalance id, total totalCounts id⟩
      else none := by
  have hplayers : (GameNetworkClient.toStatsUpdate (statsMessage order generation r
      totalCounts)).players = (listedPlayers order r).map fun id =>
        (⟨id, r.getBalance id, total totalCounts id⟩ : GameNetworkClient.PlayerSnapshot) := by
    rw [GameNetworkClient.toStatsUpdate, statsMessage, List.map_map]
    rfl
  have hids : ((listedPlayers order r).map fun id =>
      (⟨id, r.getBalance id, total totalCounts id⟩ : GameNetworkClient.PlayerSnapshot)).map
        GameNetworkClient.PlayerSnapshot.playerId = listedPlayers order r := by
    rw [List.map_map]
    exact List.map_id _
  rw [balances, hplayers]
  split_ifs with hsmall
  · have hlisted := (mem_listedPlayers_iff order r id).mpr hsmall
    refine lookup_players (p := ⟨id, _, _⟩) ?_ (List.mem_map.mpr ⟨id, hlisted, rfl⟩)
    rw [hids]
    exact (pairwise_listedPlayers order r).imp fun hlt => ne_of_lt hlt
  · have hlisted : id ∉ listedPlayers order r := mt (mem_listedPlayers_iff order r id).mp hsmall
    rw [lookup_players_of_not_mem (by rw [hids]; exact hlisted)]
    exact Finmap.lookup_empty id

/-- **What an announcement says** about each player. -/
theorem lookup_announced (hs : s.Counted) {msg : ParsedServerStatsMessage}
    (hmsg : msg ∈ s.announced l) (id : PlayerId) :
    (balances ∅ (.serverStatsUpdated (GameNetworkClient.toStatsUpdate msg))).lookup id =
      s.snapshotOf id := by
  cases l with
  | broadcastServerStats order =>
    rw [announced] at hmsg
    cases hphase : s.phase with
    | announced totalCounts =>
      rw [hphase] at hmsg
      cases List.mem_singleton.mp hmsg
      have hcount : total totalCounts id = UInt64.ofNat (s.server.world.cellAt.paidCount id) :=
        hs totalCounts (by rw [hphase]; rfl) id
      rw [lookup_statsMessage, snapshotOf, hcount]
    | _ =>
      rw [hphase] at hmsg
      cases hmsg
  | _ => cases hmsg

/-! ## The bytes -/

/-- A client takes the announcements off the stream again. -/
theorem drain_announcements {msgs : List ParsedServerStatsMessage}
    (h : ∀ msg ∈ msgs, msg.players.length < 65536) :
    GameNetworkClient.statsParser.drain (msgs.flatMap ParsedServerStatsMessage.encode) =
      (msgs, []) :=
  BufferParser.drain_flatMap rfl fun msg hmsg rest =>
    tryParseServerStatsMessage_encode msg (h msg hmsg) rest

theorem length_players_statsMessage (order : Traversal PlayerId) (generation : UInt32)
    (r : ResourceManager) (totalCounts : Finmap fun _ : PlayerId => UInt64) :
    (statsMessage order generation r totalCounts).players.length < 65536 := by
  simp only [statsMessage, listedPlayers, List.length_map, List.length_take]
  omega

theorem length_players_of_announced {msg : ParsedServerStatsMessage} (hmsg : msg ∈ s.announced l) :
    msg.players.length < 65536 := by
  cases l with
  | broadcastServerStats order =>
    rw [announced] at hmsg
    cases hphase : s.phase with
    | announced totalCounts =>
      rw [hphase] at hmsg
      cases List.mem_singleton.mp hmsg
      exact length_players_statsMessage ..
    | _ =>
      rw [hphase] at hmsg
      cases hmsg
  | _ => cases hmsg

/-- What a client has cut out of a part of what was written to its session. -/
theorem messages_of_run (h : run step {} ls = some t) (self : SessionPtr) :
    ∃ first ≤ (collect step announced {} ls).length,
      ∀ bytes, bytes <+: (collect step (writesTo self) {} ls).flatten →
      (GameNetworkClient.statsParser.drain bytes).1 <+: (collect step announced {} ls).drop first ∧
      (t.network.Listens self → t.unhandled = [] →
        bytes = (collect step (writesTo self) {} ls).flatten →
        GameNetworkClient.statsParser.drain bytes =
          ((collect step announced {} ls).drop first, [])) := by
  obtain ⟨first, heard, hfirst, hwritten, hheard, hall⟩ := heard_of_run h self
  have hshort : ∀ msg ∈ heard, msg.players.length < 65536 := by
    intro msg hmsg
    obtain ⟨k, hk⟩ := List.getElem?_of_mem (List.mem_of_mem_drop (hheard.subset hmsg))
    obtain ⟨before, l, after, m, -, -, -, hmsg⟩ := getElem?_collect hk
    exact length_players_of_announced (List.mem_of_getElem? hmsg)
  have hdrain := drain_announcements hshort
  rw [List.flatMap_def, ← hwritten] at hdrain
  refine ⟨first, hfirst, fun bytes hbytes => ⟨?_, fun hself hquiet hrest => ?_⟩⟩
  · have hpart := BufferParser.messages_of_part incremental_statsParser hbytes
    rw [hdrain] at hpart
    exact hpart.trans hheard
  · rw [hrest, hdrain, hall hself hquiet]

/-- The signals of the fragments are those of the messages in them. -/
theorem onTcpReadyReads_eq (fragments : List (List UInt8)) :
    GameNetworkClient.onTcpReadyReads fragments =
      ((GameNetworkClient.statsParser.drain fragments.flatten).2,
        (GameNetworkClient.statsParser.drain fragments.flatten).1.map
          GameNetworkClient.toStatsUpdate) := by
  have hempty : GameNetworkClient.statsParser.drain [] = ([], []) := BufferParser.drain_of_none rfl
  have hfeed := BufferParser.foldl_feed incremental_statsParser [] fragments
  rw [hempty, List.nil_append] at hfeed
  rw [← hfeed]
  exact GameNetworkClient.foldl_onTcpReadyRead fragments ([], [])

/-- The state in which tick number `n` of a run announces its statistics. -/
def AnnouncesIn (ls : List Label) (n : ℕ) (m : State) : Prop :=
  ∃ before order after, ls = before ++ .broadcastServerStats order :: after ∧
    run step {} before = some m ∧ m.ticks = n

/-- Every announcement is that of its tick. -/
theorem tick_of_announced {k : ℕ} {msg : ParsedServerStatsMessage}
    (hk : (collect step announced {} ls)[k]? = some msg) :
    msg.generation = UInt32.ofNat (k + 1) ∧ ∃ m, AnnouncesIn ls (k + 1) m ∧
      ∀ id, (balances ∅ (.serverStatsUpdated (GameNetworkClient.toStatsUpdate msg))).lookup id =
        m.snapshotOf id := by
  obtain ⟨before, l, after, m, hls, hm, hle, hmsg⟩ := getElem?_collect hk
  obtain ⟨hticks, hgenerations⟩ := announcements_of_run hm
  have hlength := congrArg List.length hgenerations
  rw [List.length_map, List.length_map, List.length_range] at hlength
  have hmem := List.mem_of_getElem? hmsg
  cases l with
  | broadcastServerStats order =>
    cases hphase : m.phase with
    | announced totalCounts =>
      rw [announced, hphase] at hmsg
      have hfirst : k - (collect step announced {} before).length = 0 := by
        by_contra hne
        obtain ⟨j, hj⟩ := Nat.exists_eq_succ_of_ne_zero hne
        rw [hj] at hmsg
        cases hmsg
      have htick : m.ticks = k + 1 := by
        rw [hphase] at hticks hlength
        simp only [TickPhase.unannounced] at hticks hlength
        omega
      refine ⟨?_, m, ⟨before, order, after, hls, hm, htick⟩,
        lookup_announced (counted_of_run hm) hmem⟩
      rw [hfirst] at hmsg
      cases hmsg
      show m.server.broadcastSeq = _
      rw [(run_numbered hm).broadcastSeq, htick]
    | _ =>
      rw [announced, hphase] at hmem
      cases hmem
  | _ => cases hmem

/-- The messages a client has cut out of a part of the stream are those of consecutive ticks. -/
theorem tick_of_message {first k : ℕ} {heard : List ParsedServerStatsMessage}
    (hheard : heard <+: (collect step announced {} ls).drop first) {msg : ParsedServerStatsMessage}
    (hk : heard[k]? = some msg) :
    msg.generation = UInt32.ofNat (first + k + 1) ∧ ∃ m, AnnouncesIn ls (first + k + 1) m ∧
      ∀ id, (balances ∅ (.serverStatsUpdated (GameNetworkClient.toStatsUpdate msg))).lookup id =
        m.snapshotOf id := by
  obtain ⟨hlt, -⟩ := List.getElem?_eq_some_iff.mp hk
  obtain ⟨rest, hrest⟩ := hheard
  refine tick_of_announced ?_
  rw [← List.getElem?_drop, ← hrest, List.getElem?_append_left hlt, hk]

/-- **The statistics of consecutive ticks.**  However what is written to a session is cut on its
way, and wherever it breaks off, the client emits the announcements of consecutive ticks, each once
and in order, with the accounts and the live cells of its tick; and those of all ticks up to the
last one, if the session is still registered, no handler is posted and everything has arrived.  No
handshake of these runs falls between the calls by which a tick reads the ledger. -/
theorem statistics_of_run (h : run step {} ls = some t) (self : SessionPtr) :
    ∃ first, ∀ fragments : List (List UInt8),
      fragments.flatten <+: (collect step (writesTo self) {} ls).flatten →
      (∀ k u, (GameNetworkClient.onTcpReadyReads fragments).2[k]? = some u →
        u.generation = UInt32.ofNat (first + k + 1) ∧ ∃ m, AnnouncesIn ls (first + k + 1) m ∧
          ∀ id, (balances ∅ (.serverStatsUpdated u)).lookup id = m.snapshotOf id) ∧
      (t.network.Listens self → t.unhandled = [] → t.phase = .idle →
        fragments.flatten = (collect step (writesTo self) {} ls).flatten →
        first + (GameNetworkClient.onTcpReadyReads fragments).2.length = t.ticks ∧
          (GameNetworkClient.onTcpReadyReads fragments).1 = []) := by
  obtain ⟨first, hfirst, hmessages⟩ := messages_of_run h self
  refine ⟨first, fun fragments harrived => ?_⟩
  obtain ⟨hheard, hall⟩ := hmessages _ harrived
  rw [onTcpReadyReads_eq]
  refine ⟨fun k u hk => ?_, fun hself hquiet hidle hrest => ?_⟩
  · rw [List.getElem?_map, Option.map_eq_some_iff] at hk
    obtain ⟨msg, hmsg, rfl⟩ := hk
    exact tick_of_message hheard hmsg
  · have hlength := congrArg List.length (announcements_of_run h).2
    rw [List.length_map, List.length_map, List.length_range, hidle] at hlength
    rw [hall hself hquiet hrest]
    refine ⟨?_, rfl⟩
    rw [List.length_map, List.length_drop, Nat.add_sub_cancel' hfirst, hlength]
    rfl

/-- **A quiet tick is announced**: its statistics are all that a registered session is written. -/
theorem writesTo_quietTick (sched : TickSchedule) (order : Traversal ChunkCoord)
    (players : Traversal PlayerId) (hphase : s.phase = .idle) (hjobs : s.jobs = [])
    (hquiet : (s.server.tick sched order).1 = []) (hs : s.network.Consistent)
    (hself : s.network.Listens self) :
    collect step (writesTo self) s (tickLabels sched order players ++ [.runHandler players]) =
      [(statsMessage players (s.server.tick sched order).2.broadcastSeq
        (s.server.tick sched order).2.resourceManager (s.server.stepWorld sched).2).encode] := by
  have hsilent : collect step (writesTo self) s (tickLabels sched order players) = [] := by
    refine collect_eq_nil (fun l hl s => ?_) _
    simp only [tickLabels, deltaLabels, List.mem_append, List.mem_cons, List.not_mem_nil,
      or_false] at hl
    rcases hl with (rfl | rfl | rfl) | rfl | rfl <;> rfl
  have hposted := run_tickLabels_quiet sched order players hphase hquiet
  rw [hjobs, List.nil_append, serializeServerStats_eq] at hposted
  rw [collect_append hposted, hsilent, List.nil_append]
  refine (collect_cons rfl []).trans ?_
  rw [collect_nil, List.append_nil, writesTo_of_listens]
  · rfl
  · exact hs
  · exact hself

/-- Player 7 connects, and a tick of the empty world is broadcast. -/
def quietTick : List Label :=
  connect 1 ⟨0, 0⟩ 7 ++
    (tickLabels .sorted sortedChunks sortedPlayers ++ [.runHandler sortedPlayers])

theorem run_quietTick_connected :
    ∃ t, run step {} quietTick = some t ∧ t.network = connected 1 ⟨0, 0⟩ 7 {} ∧ t.jobs = [] ∧
      t.phase = .idle ∧ t.ticks = 1 := by
  have hconnect := run_connect (s := {}) 1 Finmap.notMem_empty ⟨0, 0⟩ 7
  have htick := run_quietTick (s :=
    { server := { resourceManager := ({} : ResourceManager).addPlayer 7 }
      network := connected 1 ⟨0, 0⟩ 7 {} })
    .sorted sortedChunks sortedPlayers rfl rfl
    (GameServer.tick_of_empty .sorted sortedChunks rfl rfl).1
  exact ⟨_, run_append.mpr ⟨_, hconnect, htick⟩, rfl, rfl, rfl, rfl⟩

/-- What is written to player 7 is the announcement of that tick, and it has the player in it. -/
theorem announced_quietTick : ∃ msg : ParsedServerStatsMessage,
    (collect step (writesTo 1) {} quietTick).flatten = msg.encode ∧ msg.players.length < 65536 ∧
      balances ∅ (.serverStatsUpdated (GameNetworkClient.toStatsUpdate msg)) ≠ ∅ := by
  let g : GameServer := { resourceManager := ({} : ResourceManager).addPlayer 7 }
  have hconnect := run_connect (s := {}) 1 Finmap.notMem_empty ⟨0, 0⟩ 7
  have hsilent : collect step (writesTo 1) {} (connect 1 ⟨0, 0⟩ 7) = [] := by
    refine collect_eq_nil (fun l hl s => ?_) _
    rcases List.mem_pair.mp hl with rfl | rfl <;> rfl
  have hlistens : (connected 1 ⟨0, 0⟩ 7 {}).Listens 1 := ⟨7, by decide⟩
  have hwritten := writesTo_quietTick .sorted sortedChunks sortedPlayers
    (s := { server := g, network := connected 1 ⟨0, 0⟩ 7 {} }) rfl rfl
    (GameServer.tick_of_empty .sorted sortedChunks rfl rfl).1 (run_consistent hconnect) hlistens
  refine ⟨statsMessage sortedPlayers (g.tick .sorted sortedChunks).2.broadcastSeq
    (g.tick .sorted sortedChunks).2.resourceManager (g.stepWorld .sorted).2, ?_,
    length_players_statsMessage .., fun hnone => ?_⟩
  · rw [quietTick, collect_append hconnect, hsilent, hwritten]
    exact List.append_nil _
  · have hbalances : ∀ id, id ∈ (g.tick .sorted sortedChunks).2.resourceManager.balances ↔
        id ∈ g.resourceManager.balances := by
      have howners : g.world.cellAt.OwnersIn {id | id ∈ g.resourceManager.balances} := fun p => by
        rw [show g.world = {} from rfl, World.cellAt_empty]
        exact Or.inl rfl
      rw [GameServer.resourceManager_tick]
      exact GameServer.mem_balances_stepWorld .sorted ⟨fun _ => Iff.rfl, howners⟩
    have hlisted : (7 : PlayerId) ∈ (g.tick .sorted sortedChunks).2.resourceManager.balances ∧
        ((g.tick .sorted sortedChunks).2.resourceManager.balances.keys.filter (· < 7)).card <
          65535 := by
      rw [hbalances, keys_eq_of_mem_iff hbalances]
      exact ⟨Finmap.mem_insert.mpr (Or.inl rfl), by decide⟩
    have hlookup := lookup_statsMessage sortedPlayers (g.tick .sorted sortedChunks).2.broadcastSeq
      (g.tick .sorted sortedChunks).2.resourceManager (g.stepWorld .sorted).2 7
    rw [hnone, Finmap.lookup_empty, if_pos hlisted] at hlookup
    cases hlookup

/-- Its statistics arrive. -/
theorem statistics_of_run_quietTick : ∃ t first, run step {} quietTick = some t ∧
    first + (GameNetworkClient.onTcpReadyReads (collect step (writesTo 1) {} quietTick)).2.length =
      1 := by
  obtain ⟨t, ht, hnetwork, hjobs, hphase, hticks⟩ := run_quietTick_connected
  obtain ⟨first, hfirst⟩ := statistics_of_run ht 1
  have hlistens : t.network.Listens 1 := by
    rw [hnetwork]
    exact ⟨7, by decide⟩
  have hquiet : t.unhandled = [] := by
    rw [unhandled, hjobs]
    rfl
  have hall := ((hfirst _ (List.prefix_refl _)).2 hlistens hquiet hphase rfl).1
  exact ⟨t, first, ht, hall.trans hticks⟩

end State
end Multilife

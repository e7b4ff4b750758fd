import Multilife.System.IoThread

/-!
# Stopping the network manager

* `Settled`: how the call of `stop`, the acceptor and the I/O thread hang together.
* `stopped_of_run`: when `stop` has returned nothing happens any more, and unless an exception has
  ended the I/O thread no connection is open and nobody is registered.
* `returns_iff`: whether it returns without help from the peers.
-/

namespace Multilife

open BoostNetworkManager FiniteMap Transition

namespace BoostNetworkManager

variable {m m' : BoostNetworkManager} {c : SessionPtr}

/-- A new connection is open. -/
theorem openSockets_accept (m : BoostNetworkManager) (self : SessionPtr) (socket : Endpoint)
    (hself : self ∉ m.objects) : (m.accept self socket).openSockets = insert self m.openSockets := by
  ext c
  rw [Finset.mem_insert, mem_openSockets, mem_openSockets, accept]
  by_cases hc : c = self
  · subst hc
    simp
  · simp [hc, Finmap.lookup_insert_of_ne _ hc]

/-- A read that fails closes its connection. -/
theorem openSockets_readError (m : BoostNetworkManager) (c : SessionPtr) (session : Session) :
    (m.readError c session).openSockets = m.openSockets.erase c := by
  ext c'
  have hobjects : (m.readError c session).objects =
      m.objects.insert c { session with pending := .none } := by
    unfold readError
    dsimp only
    split_ifs <;> rfl
  rw [Finset.mem_erase, mem_openSockets, mem_openSockets, hobjects]
  by_cases hc : c' = c
  · subst hc
    simp
  · rw [Finmap.lookup_insert_of_ne _ hc]
    simp [hc]

/-- A read that fails registers nobody. -/
theorem sessions_readError {m : BoostNetworkManager} (hm : m.sessions = ∅) (c : SessionPtr)
    (session : Session) : (m.readError c session).sessions = ∅ := by
  have herase : ∀ id, m.sessions.erase id = (∅ : Finmap fun _ : PlayerId => SessionPtr) := by
    intro id
    rw [hm]
    rfl
  unfold readError
  split_ifs
  · exact herase _
  · exact hm

/-- A broadcast leaves the reads alone. -/
theorem openSockets_of_cleared (h : Cleared m m') : m'.openSockets = m.openSockets := by
  ext c
  rw [mem_openSockets, mem_openSockets]
  rcases h.objects c with heq | heq
  · rw [heq]
  · rw [heq]
    cases m.objects.lookup c <;> simp

/-- A connection that has shaken hands has a read pending. -/
theorem mem_openSockets_of_claim {id : PlayerId} (h : m.claim c = some id) : c ∈ m.openSockets := by
  obtain ⟨session, hsession, hid⟩ := Option.bind_eq_some_iff.mp h
  rw [mem_openSockets]
  refine ⟨session, hsession, fun hnone => ?_⟩
  rw [hnone] at hid
  cases hid

end BoostNetworkManager

namespace State

/-- Who is registered reads messages under the id. -/
def Claimed (s : State) : Prop :=
  ∀ id c, s.network.sessions.lookup id = some c → s.network.claim c = some id

theorem claimed_step {s t : State} {l : Label} (hs : s.Claimed) (h : s.step l = some t) : t.Claimed := by
  intro id c hc
  rcases registry_of_step h with ⟨-, hsame, -⟩ | ⟨self, id', -, hregisters, -⟩ | ⟨self, id', -, -, hends⟩
  · rw [hsame.sessions] at hc
    rw [hsame.claim]
    exact hs id c hc
  · rw [hregisters.sessions] at hc
    rw [hregisters.claim]
    by_cases hid : id = id'
    · rw [hid, Finmap.lookup_insert] at hc
      rw [if_pos (Option.some.inj hc).symm, hid]
    · rw [Finmap.lookup_insert_of_ne _ hid] at hc
      have hclaim := hs id c hc
      rw [if_neg, hclaim]
      rintro rfl
      cases hregisters.free.symm.trans hclaim
  · rw [hends.sessions] at hc
    rw [hends.claim]
    have hid : id ≠ id' := by
      rintro rfl
      rw [Finmap.lookup_erase] at hc
      cases hc
    rw [Finmap.lookup_erase_ne hid] at hc
    have hclaim := hs id c hc
    rw [if_neg, hclaim]
    rintro rfl
    exact hid (Option.some.inj (hclaim.symm.trans hends.claimed))

end State

namespace Shutdown

variable {s t m : Shutdown} {l : ShutdownLabel} {ls ls' : List ShutdownLabel}

/-! ## When the I/O thread has left -/

/-- How the call, the acceptor and the I/O thread hang together. -/
structure Settled (s : Shutdown) : Prop where
  claimed : s.ioThread ≠ .thrown → s.state.Claimed
  running : s.call ≠ .none → s.running = false
  acceptor : s.call.acceptorOpen = false → s.acceptor ≠ .listening
  /-- The sessions a stats handler has yet to write to are registered, until `stop` closes them. -/
  unwritten : s.call.sessionsOpen = true →
    ∀ c ∈ s.ioThread.unwritten, c ∈ s.state.network.registeredSockets
  left : s.ioThread = .returned → s.call ≠ .none ∧ s.acceptor = .done ∧ s.state.jobs = [] ∧
    s.state.network.openSockets = ∅
  returned : s.call = .returned → s.ioThread = .returned ∨ s.ioThread = .thrown

theorem settled_start : Settled {} where
  claimed _ id c hc := by cases hc
  running h := absurd rfl h
  acceptor h := by cases h
  unwritten _ c hc := by cases hc
  left h := by cases h
  returned h := by cases h

/-- Where the I/O thread runs or waits, the call has not joined it. -/
theorem Settled.ne_returned (hs : s.Settled) (hreturned : s.ioThread ≠ .returned)
    (hthrown : s.ioThread ≠ .thrown) : s.call ≠ .returned :=
  fun hcall => (hs.returned hcall).elim hreturned hthrown

/-- A turn of the tick thread leaves the registries alone. -/
theorem sessions_of_onTickThread {s t : State} {l : Label} (hl : OnTickThread l)
    (h : s.step l = some t) : t.network.sessions = s.network.sessions := by
  cases State.turn_of_step h with
  | onConnection l t hconnection hsame hstep => cases l <;> first | exact hl.elim | exact hconnection.elim
  | handleStats order payload jobs hjobs => cases hl
  | handleBroadcast order payload seq tick quiet jobs hjobs => cases hl
  | _ => rfl

/-- A posted handler is handled. -/
theorem runHandler_of_step {s t : State} {order : Traversal PlayerId}
    (h : s.step (.runHandler order) = some t) :
    t.network.openSockets = s.network.openSockets ∧ t.network.sessions = s.network.sessions ∧
      (∀ c, c ∈ t.network.objects ↔ c ∈ s.network.objects) ∧ s.jobs.length = t.jobs.length + 1 := by
  cases State.turn_of_step h with
  | handleStats order payload jobs hjobs =>
    exact ⟨rfl, rfl, fun _ => Iff.rfl, by rw [hjobs]; rfl⟩
  | handleBroadcast order payload seq tick quiet jobs hjobs =>
    have hcleared := cleared_doUdpBroadcast order (some s.server.getFullSnapshotForSeq) s.network
      payload seq
    refine ⟨openSockets_of_cleared hcleared, hcleared.sessions, fun c => ?_, by rw [hjobs]; rfl⟩
    rw [← Finmap.lookup_isSome, ← Finmap.lookup_isSome]
    rcases hcleared.objects c with heq | heq
    · rw [heq]
    · rw [heq, Option.isSome_map]
  | onConnection l t hl hsame hstep => exact absurd hl not_false

theorem registered_of_statsSessions {s : State} {order : Traversal PlayerId} {c : SessionPtr}
    (hc : c ∈ s.statsSessions order) : c ∈ s.network.registeredSockets := by
  unfold State.statsSessions at hc
  split at hc
  · obtain ⟨⟨session, payload⟩, hmem, rfl⟩ := List.mem_map.mp hc
    obtain ⟨id, -, hid⟩ := List.mem_filterMap.mp hmem
    obtain ⟨c, hsession, hpair⟩ := Option.map_eq_some_iff.mp hid
    cases hpair
    exact mem_registeredSockets.mpr ⟨id, hsession⟩
  · cases hc

theorem registeredSockets_of_sessions {m m' : BoostNetworkManager} (h : m'.sessions = m.sessions) :
    m'.registeredSockets = m.registeredSockets := by
  rw [registeredSockets, registeredSockets, h]

/-- A step of the I/O thread, from a place where it runs. -/
theorem Settled.of_ioThread (hs : s.Settled) {ioThread : IoThread} {acceptor : Acceptor} {state : State}
    (hruns : s.ioThread ≠ .returned ∧ s.ioThread ≠ .thrown) (hnotLeft : ioThread ≠ .returned)
    (hclaimed : ioThread ≠ .thrown → state.Claimed)
    (hacceptor : s.call.acceptorOpen = false → acceptor ≠ .listening)
    (hunwritten : s.call.sessionsOpen = true →
      ∀ c ∈ ioThread.unwritten, c ∈ state.network.registeredSockets) :
    Settled { s with state := state, ioThread := ioThread, acceptor := acceptor } where
  claimed := hclaimed
  running := hs.running
  acceptor := hacceptor
  unwritten := hunwritten
  left h := absurd h hnotLeft
  returned h := absurd h (hs.ne_returned hruns.1 hruns.2)

theorem settled_step (hs : s.Settled) (h : s.step l = some t) : t.Settled := by
  cases turn_of_step h with
  | tick l state hl hcall hstep =>
    refine ⟨fun hthrown => State.claimed_step (hs.claimed hthrown) hstep, hs.running, hs.acceptor,
      fun hopen c hc => ?_, fun hleft => absurd hcall (hs.left hleft).1, hs.returned⟩
    rw [registeredSockets_of_sessions (sessions_of_onTickThread hl hstep)]
    exact hs.unwritten hopen c hc
  | handler order state hthread hstep =>
    refine hs.of_ioThread (by simp [hthread]) (IoThread.write_ne_returned _)
      (fun _ => State.claimed_step (hs.claimed (by simp [hthread])) hstep) hs.acceptor
      fun _ c hc => ?_
    rw [IoThread.unwritten_write] at hc
    rw [registeredSockets_of_sessions (runHandler_of_step hstep).2.1]
    exact registered_of_statsSessions hc
  | read l state hl hthread hstep =>
    refine hs.of_ioThread (by simp [hthread]) (by simp [hthread])
      (fun hthrown => State.claimed_step (hs.claimed hthrown) hstep) hs.acceptor fun _ c hc => ?_
    rw [hthread] at hc
    cases hc
  | aborted self state hthread hself hstep =>
    refine hs.of_ioThread (by simp [hthread]) (by simp [hthread])
      (fun hthrown => State.claimed_step (hs.claimed hthrown) hstep) hs.acceptor fun _ c hc => ?_
    rw [hthread] at hc
    cases hc
  | accept self socket hthread hacceptor hrunning hself =>
    exact hs.of_ioThread (by simp [hthread]) (by simp) (fun _ => hs.claimed (by simp [hthread]))
      (fun _ => by simp) fun _ c hc => by cases hc
  | accepted self socket state hthread hstep =>
    exact hs.of_ioThread (by simp [hthread]) (by simp)
      (fun _ => State.claimed_step (hs.claimed (by simp [hthread])) hstep) hs.acceptor
      fun _ c hc => by cases hc
  | acceptThrows self socket hthread =>
    exact hs.of_ioThread (by simp [hthread]) (by simp) (fun h => absurd rfl h) hs.acceptor
      fun _ c hc => by cases hc
  | acceptError hthread hacceptor hrunning =>
    exact hs.of_ioThread (by simp [hthread]) (by simp) (fun _ => hs.claimed (by simp [hthread]))
      (fun _ => by simp) fun _ c hc => by cases hc
  | acceptRefused hthread hacceptor hrunning =>
    exact hs.of_ioThread (by simp [hthread]) (by simp [hthread]) hs.claimed (fun _ => by simp)
      hs.unwritten
  | acceptAborted hthread hacceptor hrunning =>
    exact hs.of_ioThread (by simp [hthread]) (by simp [hthread]) hs.claimed (fun _ => by simp)
      hs.unwritten
  | checkRunning hthread =>
    refine hs.of_ioThread (by simp [hthread]) (by split_ifs <;> simp)
      (fun _ => hs.claimed (by simp [hthread])) hs.acceptor fun _ c hc => ?_
    split_ifs at hc <;> cases hc
  | doAccept hthread =>
    exact hs.of_ioThread (by simp [hthread]) (by simp) (fun _ => hs.claimed (by simp [hthread]))
      (fun hclosed => by simp [hclosed]) fun _ c hc => by cases hc
  | handshakeThrows registered self handshakeBuf state hthread hstep =>
    exact hs.of_ioThread (by simp [hthread]) (by simp) (fun h => absurd rfl h) hs.acceptor
      fun _ c hc => by cases hc
  | wrote session rest hthread =>
    refine hs.of_ioThread (by simp [hthread]) (IoThread.write_ne_returned _)
      (fun _ => hs.claimed (by simp [hthread])) hs.acceptor fun hopen c hc => ?_
    rw [IoThread.unwritten_write] at hc
    exact hs.unwritten hopen c (by rw [hthread]; exact List.mem_cons_of_mem session hc)
  | blocks session rest hthread hsession =>
    refine hs.of_ioThread (by simp [hthread]) (by simp) (fun _ => hs.claimed (by simp [hthread]))
      hs.acceptor fun hopen c hc => ?_
    exact hs.unwritten hopen c (by rw [hthread]; exact List.mem_cons_of_mem session hc)
  | unblocked session rest hthread =>
    refine hs.of_ioThread (by simp [hthread]) (IoThread.write_ne_returned _)
      (fun _ => hs.claimed (by simp [hthread])) hs.acceptor fun hopen c hc => ?_
    rw [IoThread.unwritten_write] at hc
    exact hs.unwritten hopen c (by rw [hthread]; exact hc)
  | stop hcall =>
    exact ⟨hs.claimed, fun _ => rfl, nofun, fun _ => hs.unwritten (by rw [hcall]; rfl),
      fun hleft => absurd hcall (hs.left hleft).1, nofun⟩
  | resetWork hcall =>
    refine ⟨hs.claimed, fun _ => hs.running (by simp [hcall]), nofun,
      fun _ => hs.unwritten (by rw [hcall]; rfl), fun hleft => ?_, nofun⟩
    exact ⟨by simp, (hs.left hleft).2⟩
  | closeAcceptor hcall =>
    refine ⟨hs.claimed, fun _ => hs.running (by simp [hcall]), fun _ => ?_,
      fun _ => hs.unwritten (by rw [hcall]; rfl), fun hleft => ?_, nofun⟩
    · dsimp only
      split_ifs with hlistening
      · simp
      · exact hlistening
    · obtain ⟨-, hdone, hrest⟩ := hs.left hleft
      exact ⟨by simp, by simp [hdone], hrest⟩
  | closeSessions hcall =>
    refine ⟨(fun _ id c hc => by cases hc), fun _ => hs.running (by simp [hcall]),
      fun _ => hs.acceptor (by rw [hcall]; rfl), nofun, fun hleft => ?_,
      nofun⟩
    exact ⟨by simp, (hs.left hleft).2⟩
  | exit hthread hcall hacceptor hjobs hsockets =>
    exact ⟨fun _ => hs.claimed (by simp [hthread]), hs.running, hs.acceptor, (fun _ c hc => by cases hc),
      fun _ => ⟨hcall.1, hacceptor, hjobs, hsockets⟩, fun _ => Or.inl rfl⟩
  | join hcall hthread =>
    exact ⟨hs.claimed, fun _ => hs.running (by simp [hcall]), fun _ => hs.acceptor (by rw [hcall]; rfl),
      nofun, fun hleft => ⟨by simp, (hs.left hleft).2⟩, fun _ => hthread⟩

theorem settled_of_run (h : run step {} ls = some t) : t.Settled :=
  run_invariant' (fun _ _ _ hs h => settled_step hs h) settled_start h

/-- **When `stop` has returned**, in any run: nothing happens any more, and unless an exception has
ended the I/O thread no connection is open, nobody is registered and no handler is left. -/
theorem stopped_of_run (h : run step {} ls = some t) (hreturned : t.call = .returned) :
    (∀ l, t.step l = none) ∧ (t.ioThread ≠ .thrown →
      t.state.network.openSockets = ∅ ∧ t.state.network.sessions = ∅ ∧ t.state.jobs = []) := by
  have ht := settled_of_run h
  have hthread := ht.returned hreturned
  refine ⟨fun l => ?_, fun hthrown => ?_⟩
  · have hstep : ∀ u, ¬ t.Turn l u := by
      intro u hu
      cases hu <;> simp_all
    by_contra hne
    obtain ⟨u, hu⟩ := Option.ne_none_iff_exists'.mp hne
    exact hstep u (turn_of_step hu)
  · obtain ⟨-, -, hjobs, hsockets⟩ := ht.left (hthread.resolve_right hthrown)
    refine ⟨hsockets, Finmap.ext_lookup fun id => ?_, hjobs⟩
    cases hlookup : t.state.network.sessions.lookup id with
    | none => rw [Finmap.lookup_empty]
    | some c =>
      have hopen := mem_openSockets_of_claim (ht.claimed hthrown id c hlookup)
      rw [hsockets] at hopen
      exact absurd hopen (Finset.notMem_empty c)

/-- A connection is accepted and shakes hands. -/
def connect (self : SessionPtr) (socket : Endpoint) (playerId : PlayerId) : List ShutdownLabel :=
  [.accept self socket, .accepted, .checkRunning, .doAccept,
    .turn (.handshake self (State.handshakeOf playerId))]

/-- A client that has reconnected before the server has seen its old socket close. -/
def reconnected : List ShutdownLabel :=
  connect 1 ⟨0, 0⟩ 7 ++ connect 2 ⟨0, 1⟩ 7 ++ [.stop, .resetWork, .closeAcceptor]

/-- Once it closes the old one too, `stop` returns. -/
theorem stopped_of_run_reconnected : ∃ t, run step {} (reconnected ++ [.closeSessions, .acceptAborted,
      .aborted 2, .turn (.readError 1), .exit, .join]) = some t ∧
    (∀ l, t.step l = none) ∧ t.state.network.openSockets = ∅ ∧ t.state.network.sessions = ∅ := by
  obtain ⟨t, ht, hreturned, hthread⟩ : ∃ t, run step {} (reconnected ++ [.closeSessions,
      .acceptAborted, .aborted 2, .turn (.readError 1), .exit, .join]) = some t ∧
        t.call = .returned ∧ t.ioThread = .returned := ⟨_, rfl, rfl, rfl⟩
  obtain ⟨hnone, hclosed⟩ := stopped_of_run ht hreturned
  obtain ⟨hsockets, hsessions, -⟩ := hclosed (by rw [hthread]; decide)
  exact ⟨t, ht, hnone, hsockets, hsessions⟩

/-- A second client resets its connection before it is looked at: the first one is never closed. -/
example : ∃ t, run step {} [.accept 1 ⟨0, 0⟩, .accepted, .checkRunning, .doAccept,
    .accept 2 ⟨0, 1⟩, .acceptThrows, .stop, .resetWork, .closeAcceptor, .closeSessions, .join] =
      some t ∧ t.call = .returned ∧ 1 ∈ t.state.network.openSockets :=
  ⟨_, rfl, rfl, by decide⟩

/-! ## Whether it returns -/

/-- The turns that need no peer. -/
def isInternal : ShutdownLabel → Bool
  | .turn (.runHandler _) | .aborted _ | .accepted | .acceptThrows | .acceptAborted | .checkRunning
  | .doAccept | .wrote | .blocks | .exit | .join => true
  | _ => false

theorem runHandler_of_isInternal {l : Label} (hl : isInternal (.turn l) = true) :
    ∃ order, l = .runHandler order := by
  cases l with
  | runHandler order => exact ⟨order, rfl⟩
  | _ => cases hl

/-- None of them can be taken. -/
def AtRest (s : Shutdown) : Prop := ∀ l, isInternal l = true → s.step l = none

/-- Nobody has to be waited for: `stop` has closed every open connection, and the I/O thread is
not occupied. -/
def Free (s : Shutdown) : Prop :=
  s.state.network.openSockets ⊆ s.aborted ∧ s.ioThread.occupied = false

/-- Behind `closeSessions`. -/
structure Draining (s : Shutdown) : Prop where
  settled : s.Settled
  call : s.call = .sessionsClosed ∨ s.call = .returned
  sessions : s.state.network.sessions = ∅
  unwritten : ∀ c ∈ s.ioThread.unwritten, c ∈ s.aborted
  aborted : s.ioThread ≠ .thrown → ∀ c ∈ s.aborted, c ∈ s.state.network.objects

/-- How many of these turns there are left, at most. -/
def measure (s : Shutdown) : ℕ :=
  s.state.network.openSockets.card + s.state.jobs.length + (if s.acceptor = .done then 0 else 1) +
    s.ioThread.weight + (if s.call = .returned then 0 else 1)

theorem Draining.notRunning (hs : s.Draining) : s.running = false :=
  hs.settled.running (by rcases hs.call with h | h <;> simp [h])

theorem Draining.acceptorClosed (hs : s.Draining) : s.call.acceptorOpen = false := by
  rcases hs.call with h | h <;> rw [h] <;> rfl

theorem runHandler_ne_none {s : State} (order : Traversal PlayerId) (hjobs : s.jobs ≠ []) :
    s.step (.runHandler order) ≠ none := by
  rw [State.step, State.runHandler]
  cases hlist : s.jobs with
  | nil => exact absurd hlist hjobs
  | cons job jobs => cases job <;> simp

/-- Nobody is registered, so a stats handler that begins now writes to nobody. -/
theorem Draining.statsSessions (hs : s.Draining) (order : Traversal PlayerId) :
    s.state.statsSessions order = [] := by
  refine List.eq_nil_iff_forall_not_mem.mpr fun c hc => ?_
  obtain ⟨id, hid⟩ := mem_registeredSockets.mp (registered_of_statsSessions hc)
  rw [hs.sessions, Finmap.lookup_empty] at hid
  cases hid

/-- A turn that needs no peer, behind `closeSessions`. -/
theorem draining_step (hs : s.Draining) (hl : isInternal l = true) (h : s.step l = some t) :
    t.Draining ∧ t.measure < s.measure := by
  have hsettled := settled_step hs.settled h
  cases turn_of_step h with
  | handler order state hthread hstep =>
    obtain ⟨hsockets, hsessions, hobjects, hjobs⟩ := runHandler_of_step hstep
    rw [hs.statsSessions order] at hsettled ⊢
    refine ⟨⟨hsettled, hs.call, hsessions.trans hs.sessions, (fun c hc => by cases hc),
      fun _ c hc => (hobjects c).mpr (hs.aborted (by simp [hthread]) c hc)⟩, ?_⟩
    simp only [measure, hsockets, hjobs, hthread, IoThread.write]
    omega
  | aborted self state hthread hself hstep =>
    obtain ⟨session, hlookup, hpending, rfl⟩ := State.readError_of_step hstep
    have hopen : self ∈ s.state.network.openSockets := mem_openSockets.mpr ⟨session, hlookup, hpending⟩
    have hcard := Finset.card_erase_of_mem hopen
    have hpos := Finset.card_pos.mpr ⟨self, hopen⟩
    refine ⟨⟨hsettled, hs.call, sessions_readError hs.sessions self session, hs.unwritten,
      fun hthrown c hc => ?_⟩, ?_⟩
    · have hc := hs.aborted hthrown c hc
      unfold BoostNetworkManager.readError
      split_ifs <;> exact Finmap.mem_insert.mpr (Or.inr hc)
    · simp only [measure, openSockets_readError, hcard]
      omega
  | accepted self socket state hthread hstep =>
    obtain ⟨hself, rfl⟩ := State.accept_of_step hstep
    refine ⟨⟨hsettled, hs.call, hs.sessions, (fun c hc => by cases hc), fun _ c hc => ?_⟩, ?_⟩
    · exact Finmap.mem_insert.mpr (Or.inr (hs.aborted (by simp [hthread]) c hc))
    · have hcard := Finset.card_insert_le self s.state.network.openSockets
      simp only [measure, openSockets_accept _ _ _ hself, hthread, IoThread.weight]
      omega
  | acceptThrows self socket hthread =>
    refine ⟨⟨hsettled, hs.call, hs.sessions, (fun c hc => by cases hc), fun h => absurd rfl h⟩, ?_⟩
    simp only [measure, hthread, IoThread.weight]
    omega
  | acceptAborted hthread hacceptor hrunning =>
    refine ⟨⟨hsettled, hs.call, hs.sessions, hs.unwritten, hs.aborted⟩, ?_⟩
    simp only [measure, hacceptor, reduceCtorEq, if_true, if_false]
    omega
  | checkRunning hthread =>
    rw [hs.notRunning] at hsettled ⊢
    refine ⟨⟨hsettled, hs.call, hs.sessions, (fun c hc => by cases hc),
      fun _ => hs.aborted (by simp [hthread])⟩, ?_⟩
    simp only [measure, hthread, IoThread.weight, Bool.false_eq_true, if_false]
    omega
  | doAccept hthread =>
    refine ⟨⟨hsettled, hs.call, hs.sessions, (fun c hc => by cases hc),
      fun _ => hs.aborted (by simp [hthread])⟩, ?_⟩
    simp only [measure, hthread, IoThread.weight]
    split_ifs <;> omega
  | wrote session rest hthread =>
    refine ⟨⟨hsettled, hs.call, hs.sessions, fun c hc => ?_,
      fun _ => hs.aborted (by simp [hthread])⟩, ?_⟩
    · rw [IoThread.unwritten_write] at hc
      exact hs.unwritten c (by rw [hthread]; exact List.mem_cons_of_mem session hc)
    · have hweight : s.ioThread.weight = rest.length + 2 := by rw [hthread]; rfl
      simp only [measure, IoThread.weight_write]
      omega
  | blocks session rest hthread hsession =>
    exact absurd (hs.unwritten session (by rw [hthread]; exact List.mem_cons_self)) hsession
  | exit hthread hcall hacceptor hjobs hsockets =>
    refine ⟨⟨hsettled, hs.call, hs.sessions, (fun c hc => by cases hc),
      fun _ => hs.aborted (by simp [hthread])⟩, ?_⟩
    simp only [measure, hthread, IoThread.weight]
    omega
  | join hcall hthread =>
    refine ⟨⟨hsettled, Or.inr rfl, hs.sessions, hs.unwritten, hs.aborted⟩, ?_⟩
    simp only [measure, hcall, if_true, reduceCtorEq, if_false]
    omega
  | tick l state hlabel hcall hstep =>
    obtain ⟨order, rfl⟩ := runHandler_of_isInternal hl
    exact hlabel.elim
  | read l state hlabel hthread hstep =>
    obtain ⟨order, rfl⟩ := runHandler_of_isInternal hl
    exact hlabel.elim
  | _ => cases hl

/-- Such a turn frees nobody and occupies nobody, unless it is the exception. -/
theorem free_step (hs : s.Draining) (hl : isInternal l = true) (h : s.step l = some t)
    (hthrown : s.ioThread ≠ .thrown) : t.ioThread = .thrown ∨ (t.Free ↔ s.Free) := by
  cases turn_of_step h with
  | handler order state hthread hstep =>
    refine Or.inr (and_congr ?_ ?_)
    · rw [(runHandler_of_step hstep).1]
    · rw [IoThread.occupied_write, hthread]
      rfl
  | aborted self state hthread hself hstep =>
    obtain ⟨session, -, -, rfl⟩ := State.readError_of_step hstep
    refine Or.inr (and_congr ?_ Iff.rfl)
    rw [openSockets_readError, ← Finset.subset_insert_iff, Finset.insert_eq_of_mem hself]
  | accepted self socket state hthread hstep =>
    right
    obtain ⟨hself, rfl⟩ := State.accept_of_step hstep
    have hnew : self ∉ s.aborted := fun hmem => hself (hs.aborted hthrown self hmem)
    simp [Free, openSockets_accept _ _ _ hself, Finset.insert_subset_iff, hnew, hthread,
      IoThread.occupied]
  | acceptThrows self socket hthread => exact Or.inl rfl
  | checkRunning hthread =>
    right
    simp [Free, hs.notRunning, hthread, IoThread.occupied]
  | doAccept hthread =>
    right
    simp only [Free, hthread, IoThread.occupied]
  | wrote session rest hthread =>
    refine Or.inr (and_congr Iff.rfl ?_)
    rw [IoThread.occupied_write, hthread]
    rfl
  | blocks session rest hthread hsession =>
    exact absurd (hs.unwritten session (by rw [hthread]; exact List.mem_cons_self)) hsession
  | exit hthread hcall hacceptor hjobs hsockets =>
    right
    simp only [Free, hthread, IoThread.occupied]
  | tick l state hlabel hcall hstep =>
    obtain ⟨order, rfl⟩ := runHandler_of_isInternal hl
    exact hlabel.elim
  | read l state hlabel hthread hstep =>
    obtain ⟨order, rfl⟩ := runHandler_of_isInternal hl
    exact hlabel.elim
  | acceptAborted hthread hacceptor hrunning => exact Or.inr Iff.rfl
  | join hcall hthread => exact Or.inr Iff.rfl
  | _ => cases hl

/-- Behind the exception the I/O thread does nothing. -/
theorem thrown_step (hthrown : s.ioThread = .thrown) (h : s.step l = some t) : t.ioThread = .thrown := by
  cases turn_of_step h <;> simp_all

theorem draining_of_run (hs : s.Draining) (hls : ∀ l ∈ ls, isInternal l = true)
    (h : run step s ls = some t) : t.Draining ∧ ls.length + t.measure ≤ s.measure ∧
      (t.ioThread = .thrown ∨ (t.Free ↔ s.Free)) := by
  induction ls generalizing s with
  | nil =>
    cases h
    exact ⟨hs, Nat.le_of_eq (Nat.zero_add _), Or.inr Iff.rfl⟩
  | cons l ls ih =>
    obtain ⟨s', hs', ht⟩ := run_cons_eq_some.mp h
    have hl := hls l List.mem_cons_self
    obtain ⟨hdraining, hlt⟩ := draining_step hs hl hs'
    obtain ⟨ht', hle, hfree⟩ := ih hdraining (fun l' hl' => hls l' (List.mem_cons_of_mem l hl')) ht
    refine ⟨ht', by rw [List.length_cons]; omega, ?_⟩
    have hstays : s'.ioThread = .thrown → t.ioThread = .thrown := fun hthrown =>
      run_invariant' (fun _ _ _ hs h => thrown_step hs h) hthrown ht
    by_cases hthrown : s.ioThread = .thrown
    · exact Or.inl (hstays (thrown_step hthrown hs'))
    · rcases free_step hs hl hs' hthrown with hexception | hstep
      · exact Or.inl (hstays hexception)
      · exact hfree.imp_right fun h => h.trans hstep

/-- At rest `stop` has returned, or a peer is waited for. -/
theorem returned_iff_of_atRest (hs : s.Draining) (hrest : s.AtRest) :
    s.call = .returned ↔ s.ioThread = .thrown ∨ s.Free := by
  constructor
  · intro hreturned
    refine (hs.settled.returned hreturned).symm.imp_right fun hthread => ?_
    exact ⟨by rw [(hs.settled.left hthread).2.2.2]; exact Finset.empty_subset _, by rw [hthread]; rfl⟩
  · intro hfree
    refine hs.call.resolve_left fun hcall => ?_
    have hjoin : ¬ (s.ioThread = .returned ∨ s.ioThread = .thrown) := by
      intro hthread
      have h := hrest .join rfl
      simp [step, hcall, hthread] at h
    rw [not_or] at hjoin
    obtain ⟨hsockets, hoccupied⟩ := hfree.resolve_left hjoin.2
    -- wherever else it is, the I/O thread could go on
    cases hthread : s.ioThread with
    | accepting self socket =>
      rw [hthread] at hoccupied
      cases hoccupied
    | rearming =>
      have h := hrest .checkRunning rfl
      simp [step, acceptTurn, hthread] at h
    | armed =>
      have h := hrest .doAccept rfl
      simp [step, acceptTurn, hthread] at h
    | writing session rest =>
      have h := hrest .wrote rfl
      simp [step, hthread] at h
    | blocked session rest =>
      rw [hthread] at hoccupied
      cases hoccupied
    | returned => exact hjoin.1 hthread
    | thrown => exact hjoin.2 hthread
    | polling =>
      have hacceptor : s.acceptor = .done := by
        cases hplace : s.acceptor with
        | listening => exact absurd hplace (hs.settled.acceptor hs.acceptorClosed)
        | closed =>
          have h := hrest .acceptAborted rfl
          simp [step, acceptTurn, hthread, hplace, hs.notRunning] at h
        | done => rfl
      have hjobs : s.state.jobs = [] := by
        by_contra hne
        have h := hrest (.turn (.runHandler sortedPlayers)) rfl
        simp [step, turn, hthread, runHandler_ne_none sortedPlayers hne] at h
      have hclosed : s.state.network.openSockets = ∅ := by
        refine Finset.eq_empty_of_forall_notMem fun c hc => ?_
        obtain ⟨session, hlookup, hpending⟩ := mem_openSockets.mp hc
        have h := hrest (.aborted c) rfl
        simp [step, hthread, hsockets hc, State.step, State.readError, hlookup, hpending] at h
      have h := hrest .exit rfl
      simp [step, hthread, hcall, hacceptor, hjobs, hclosed] at h

theorem draining_of_closeSessions (hs : s.Settled) (h : s.step .closeSessions = some m) :
    m.Draining := by
  have hsettled := settled_step hs h
  cases turn_of_step h with
  | closeSessions hcall =>
    refine ⟨hsettled, Or.inl rfl, rfl, hs.unwritten (by rw [hcall]; rfl), fun hthrown c hc => ?_⟩
    obtain ⟨id, hid⟩ := mem_registeredSockets.mp hc
    obtain ⟨session, hsession, -⟩ := mem_openSockets.mp
      (mem_openSockets_of_claim (hs.claimed hthrown id c hid))
    exact Finmap.mem_iff.mpr ⟨session, hsession⟩

/-- Nobody has to be waited for when every open connection was registered. -/
theorem free_of_closeSessions (h : s.step .closeSessions = some m) : m.Free ↔
    (∀ c ∈ s.state.network.openSockets, ∃ id, s.state.network.sessions.lookup id = some c) ∧
      s.ioThread.occupied = false := by
  cases turn_of_step h with
  | closeSessions hcall =>
    exact and_congr_left fun _ => forall₂_congr fun c _ => mem_registeredSockets

/-- **When `stop` returns by itself.**  From the moment it has closed the sessions the server
takes no more turns than `measure` says without its peers, and when it can take none, `stop` has
returned exactly if an exception has ended the I/O thread, or if, when `stop` took the lock, every
connection with a read pending was registered and the I/O thread was neither blocked in a write
nor about to make a session.  A connection that has not shaken hands, or whose id another one has
taken since, is left open, and the I/O thread waits for its peer. -/
theorem returns_iff (h : run step {} ls = some s) (hclose : s.step .closeSessions = some m)
    (hls : ∀ l ∈ ls', isInternal l = true) (h' : run step m ls' = some t) :
    ls'.length ≤ m.measure ∧ (t.AtRest → (t.call = .returned ↔ t.ioThread = .thrown ∨
      (∀ c ∈ s.state.network.openSockets, ∃ id, s.state.network.sessions.lookup id = some c) ∧
        s.ioThread.occupied = false)) := by
  have hm := draining_of_closeSessions (settled_of_run h) hclose
  obtain ⟨ht, hle, hfree⟩ := draining_of_run hm hls h'
  refine ⟨le_trans (Nat.le_add_right _ _) hle, fun hrest => ?_⟩
  rw [returned_iff_of_atRest ht hrest, ← free_of_closeSessions hclose]
  rcases hfree with hthrown | hiff
  · simp [hthrown]
  · rw [hiff]

/-- Its new connection is closed, and `stop` waits for the old one. -/
theorem returns_iff_reconnected : ∃ s m t, run step {} reconnected = some s ∧
    s.step .closeSessions = some m ∧ run step m [.acceptAborted, .aborted 2] = some t ∧
      t.AtRest ∧ t.call ≠ .returned := by
  obtain ⟨s, hs, hcall, hopen, hsessions⟩ : ∃ s : Shutdown, run step {} reconnected = some s ∧
      s.call = .acceptorClosed ∧ 1 ∈ s.state.network.openSockets ∧
        s.state.network.sessions = (∅ : Finmap fun _ : PlayerId => SessionPtr).insert 7 2 :=
    ⟨_, rfl, rfl, by decide, rfl⟩
  obtain ⟨m, hm⟩ : ∃ m, s.step .closeSessions = some m := by
    simp [step, hcall]
  obtain ⟨t, ht, hthread, hacceptor, haborted, hsockets, hjobs, hclosed⟩ : ∃ t,
      run step m [.acceptAborted, .aborted 2] = some t ∧ t.ioThread = .polling ∧
        t.acceptor = .done ∧ t.aborted = {2} ∧ t.state.network.openSockets = {1} ∧
          t.state.jobs = [] ∧ t.call = .sessionsClosed := by
    cases hs
    cases hm
    exact ⟨_, rfl, rfl, rfl, rfl, by decide, rfl, rfl⟩
  have hrest : t.AtRest := by
    intro l hl
    cases l with
    | turn l =>
      obtain ⟨order, rfl⟩ := runHandler_of_isInternal hl
      simp [step, turn, State.step, State.runHandler, hjobs]
    | aborted self =>
      have hgone : t.state.step (.readError 2) = none := by
        by_contra hne
        obtain ⟨state, hstate⟩ := Option.ne_none_iff_exists'.mp hne
        obtain ⟨session, hlookup, hpending, -⟩ := State.readError_of_step hstate
        have htwo : 2 ∈ t.state.network.openSockets := mem_openSockets.mpr ⟨session, hlookup, hpending⟩
        rw [hsockets] at htwo
        exact absurd htwo (by decide)
      simp only [step, haborted, Finset.mem_singleton]
      split_ifs with hself
      · rw [hself.2, hgone]
        rfl
      · rfl
    | exit => simp [step, hsockets]
    | accepted | acceptThrows | acceptAborted | checkRunning | doAccept | wrote | blocks | join =>
      simp [step, acceptTurn, hthread, hacceptor]
    | _ => cases hl
  refine ⟨s, m, t, hs, hm, ht, hrest, fun hreturned => ?_⟩
  rcases ((returns_iff hs hm (by decide) ht).2 hrest).mp hreturned with hthrown | ⟨hall, -⟩
  · cases hthread.symm.trans hthrown
  · obtain ⟨id, hid⟩ := hall 1 hopen
    rw [hsessions] at hid
    by_cases hseven : id = 7
    · rw [hseven, Finmap.lookup_insert] at hid
      cases hid
    · rw [Finmap.lookup_insert_of_ne _ hseven] at hid
      cases hid

/-- While a write blocks nothing goes on without its peer, whatever `stop` has closed. -/
theorem atRest_of_blocked {session : SessionPtr} {rest : List SessionPtr}
    (hthread : s.ioThread = .blocked session rest) : s.AtRest := by
  intro l hl
  cases l with
  | turn l =>
    obtain ⟨order, rfl⟩ := runHandler_of_isInternal hl
    simp [step, turn, hthread]
  | aborted _ | accepted | acceptThrows | acceptAborted | checkRunning | doAccept | wrote | blocks
  | exit | join => simp [step, acceptTurn, hthread]
  | _ => cases hl

end Shutdown
end Multilife

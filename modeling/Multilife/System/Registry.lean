import Multilife.System.Accounts
import Multilife.System.Sessions

/-!
# Who is registered

Several connections may use one id.  A handshake registers its own connection, and a
read error removes whatever is registered under the id.  So the connection that
handshook last stays registered as long as none of the others ends before it.

`claim` is the id that an open connection has shaken hands with, `registrations` the
history of the handshakes, and `latestOpen` the connection that should be registered.

* `registry_of_step`: a turn leaves registries and claims alone, completes a handshake,
  or ends a connection that claims an id.
* `staysRegistered_of_run`: while every connection that ends is the only open one with
  its id, the latest one is registered.
* `staysRegistered_iff`: that is the exact condition.
-/

namespace Multilife

open BoostNetworkManager FiniteMap Transition

namespace BoostNetworkManager

/-- The id of a connection that has had its handshake and is open: it reads messages. -/
def claim (m : BoostNetworkManager) (c : SessionPtr) : Option PlayerId :=
  (m.objects.lookup c).bind fun session =>
    if session.pending = .message then some session.playerId else none

/-- The remote address of a connection. -/
def socketOf (m : BoostNetworkManager) (c : SessionPtr) : Option Endpoint :=
  (m.objects.lookup c).map Session.socket

/-- The registries are the same, and so are the open connections. -/
structure SameClaims (m m' : BoostNetworkManager) : Prop where
  sessions : m'.sessions = m.sessions
  udpEndpoints : m'.udpEndpoints = m.udpEndpoints
  claim : ∀ c, m'.claim c = m.claim c
  socket : ∀ c, m.claim c ≠ none → m'.socketOf c = m.socketOf c

variable {m m' : BoostNetworkManager} {c self : SessionPtr} {session : Session}

theorem claim_insert (m : BoostNetworkManager) (self c : SessionPtr) (session : Session) :
    claim { m with objects := m.objects.insert self session } c =
      if c = self then (if session.pending = .message then some session.playerId else none)
      else m.claim c := by
  unfold claim
  by_cases hc : c = self
  · rw [if_pos hc, hc, Finmap.lookup_insert, Option.bind_some]
  · rw [if_neg hc, Finmap.lookup_insert_of_ne _ hc]

/-- A session object, but for its flag. -/
def unflagged (m : BoostNetworkManager) (c : SessionPtr) : Option Session :=
  (m.objects.lookup c).map fun s => { s with needsFullSnapshot := false }

theorem claim_eq_unflagged (m : BoostNetworkManager) (c : SessionPtr) :
    m.claim c = (m.unflagged c).bind fun session =>
      if session.pending = .message then some session.playerId else none := by
  unfold claim unflagged
  cases m.objects.lookup c <;> rfl

theorem socketOf_eq_unflagged (m : BoostNetworkManager) (c : SessionPtr) :
    m.socketOf c = (m.unflagged c).map Session.socket := by
  unfold socketOf unflagged
  cases m.objects.lookup c <;> rfl

theorem unflagged_insert_of_ne (hc : c ≠ self) :
    unflagged { m with objects := m.objects.insert self session } c = m.unflagged c := by
  unfold unflagged
  rw [Finmap.lookup_insert_of_ne _ hc]

theorem socketOf_insert_of_ne (hc : c ≠ self) :
    socketOf { m with objects := m.objects.insert self session } c = m.socketOf c := by
  rw [socketOf_eq_unflagged, unflagged_insert_of_ne hc, ← socketOf_eq_unflagged]

theorem unflagged_of_cleared (h : Cleared m m') (c : SessionPtr) :
    m'.unflagged c = m.unflagged c := by
  unfold unflagged
  rcases h.objects c with heq | heq
  · rw [heq]
  · rw [heq, Option.map_map]
    rfl

theorem unflagged_setNeedsFullSnapshot (m : BoostNetworkManager) (id : PlayerId) (value : Bool)
    (c : SessionPtr) : (m.setNeedsFullSnapshot id value).unflagged c = m.unflagged c := by
  unfold setNeedsFullSnapshot
  cases m.sessions.lookup id with
  | none => rfl
  | some ptr =>
    simp only [unflagged, lookup_modify]
    split_ifs
    · rw [Option.map_map]
      rfl
    · rfl

/-- Flags are not noticed. -/
theorem sameClaims_of_unflagged (hsessions : m'.sessions = m.sessions)
    (hendpoints : m'.udpEndpoints = m.udpEndpoints)
    (h : ∀ c, m'.unflagged c = m.unflagged c) : SameClaims m m' where
  sessions := hsessions
  udpEndpoints := hendpoints
  claim c := by rw [claim_eq_unflagged, h, ← claim_eq_unflagged]
  socket c _ := by rw [socketOf_eq_unflagged, h, ← socketOf_eq_unflagged]

theorem sameClaims_of_cleared (h : Cleared m m') : SameClaims m m' :=
  sameClaims_of_unflagged h.sessions h.udpEndpoints (unflagged_of_cleared h)

theorem sameClaims_setNeedsFullSnapshot (m : BoostNetworkManager) (id : PlayerId) (value : Bool) :
    SameClaims m (m.setNeedsFullSnapshot id value) := by
  have hregistries : (m.setNeedsFullSnapshot id value).sessions = m.sessions ∧
      (m.setNeedsFullSnapshot id value).udpEndpoints = m.udpEndpoints := by
    unfold setNeedsFullSnapshot
    split <;> exact ⟨rfl, rfl⟩
  exact sameClaims_of_unflagged hregistries.1 hregistries.2
    (unflagged_setNeedsFullSnapshot m id value)

/-- Writing an object that claims nothing, over one that claims nothing. -/
theorem sameClaims_insert (hself : m.claim self = none) (hpending : session.pending ≠ .message) :
    SameClaims m { m with objects := m.objects.insert self session } where
  sessions := rfl
  udpEndpoints := rfl
  claim c := by
    rw [claim_insert]
    split_ifs with hc
    · rw [hc, hself]
    · rfl
  socket c hc := socketOf_insert_of_ne fun h => hc (h ▸ hself)

end BoostNetworkManager

namespace State

variable {s t : State} {p : PlayerId} {c : SessionPtr}

/-- The handshake a turn completes: its id, and its connection. -/
def registrations (s : State) : Label → List (PlayerId × SessionPtr)
  | .handshake self handshakeBuf => ((s.handshakeId self handshakeBuf).map (·, self)).toList
  | _ => []

/-- A turn that completes a handshake. -/
structure Registers (s t : State) (ptr : SessionPtr) (id : PlayerId) : Prop where
  free : s.network.claim ptr = none
  sessions : t.network.sessions = s.network.sessions.insert id ptr
  socket : ∃ ep, t.network.socketOf ptr = some ep ∧
    t.network.udpEndpoints = s.network.udpEndpoints.insert id ep
  claim : ∀ c, t.network.claim c = if c = ptr then some id else s.network.claim c
  sockets : ∀ c, c ≠ ptr → t.network.socketOf c = s.network.socketOf c

/-- A turn that ends a connection with an id. -/
structure Ends (s t : State) (ptr : SessionPtr) (id : PlayerId) : Prop where
  claimed : s.network.claim ptr = some id
  sessions : t.network.sessions = s.network.sessions.erase id
  udpEndpoints : t.network.udpEndpoints = s.network.udpEndpoints.erase id
  claim : ∀ c, t.network.claim c = if c = ptr then none else s.network.claim c
  sockets : ∀ c, c ≠ ptr → t.network.socketOf c = s.network.socketOf c

/-- A turn of a connection under its handshake. -/
theorem registry_of_handshake {self : SessionPtr} {buf : List UInt8} {session : Session}
    (hsession : s.sessionReading .handshake self = some session)
    (h : s.step (.handshake self buf) = some t) :
    (s.registrations (.handshake self buf) = [] ∧ SameClaims s.network t.network) ∨
      ∃ id, s.registrations (.handshake self buf) = [(id, self)] ∧ Registers s t self id := by
  obtain ⟨hlookup, hpending⟩ := lookup_of_sessionReading hsession
  have hfree : s.network.claim self = none := by
    rw [claim, hlookup, Option.bind_some, hpending]
    rfl
  rw [step, handshake, hsession, Option.map_some, Option.some.injEq] at h
  rw [registrations, handshakeId, hsession, Option.bind_some]
  unfold start at h ⊢
  dsimp only at h ⊢
  split_ifs at h ⊢ with hmagic
  · subst h
    exact Or.inl ⟨rfl, sameClaims_insert hfree PendingRead.noConfusion⟩
  · subst h
    refine Or.inr ⟨_, rfl, hfree, rfl, ⟨session.socket, ?_, rfl⟩, fun c => ?_, fun c hc => ?_⟩
    · show ((s.network.objects.insert self _).lookup self).map Session.socket = _
      rw [Finmap.lookup_insert]
      rfl
    · exact claim_insert s.network self c _
    · exact socketOf_insert_of_ne hc

theorem registry_of_readError {self : SessionPtr} (h : s.step (.readError self) = some t) :
    (s.network.claim self = none ∧ SameClaims s.network t.network) ∨
      ∃ id, Ends s t self id := by
  obtain ⟨session, hlookup, -, rfl⟩ := readError_of_step h
  unfold BoostNetworkManager.readError
  dsimp only
  by_cases hpending : session.pending = .message
  · rw [if_pos hpending]
    refine Or.inr ⟨session.playerId, ?_, rfl, rfl, fun c => ?_, fun c hc => ?_⟩
    · rw [claim, hlookup, Option.bind_some, if_pos hpending]
    · exact claim_insert s.network self c _
    · exact socketOf_insert_of_ne hc
  · rw [if_neg hpending]
    have hfree : s.network.claim self = none := by
      rw [claim, hlookup, Option.bind_some, if_neg hpending]
    exact Or.inl ⟨hfree, sameClaims_insert hfree PendingRead.noConfusion⟩

/-- **What a turn does to the registries.** -/
theorem registry_of_step {l : Label} (h : s.step l = some t) :
    (s.registrations l = [] ∧ SameClaims s.network t.network ∧
      ∀ self, l = .readError self → s.network.claim self = none) ∨
    (∃ self id, s.registrations l = [(id, self)] ∧ Registers s t self id ∧
      ∀ self, l ≠ .readError self) ∨
    ∃ self id, s.registrations l = [] ∧ l = .readError self ∧ Ends s t self id := by
  have hsame : SameClaims s.network s.network := ⟨rfl, rfl, fun _ => rfl, fun _ _ => rfl⟩
  cases turn_of_step h with
  | onConnection l t hl =>
    cases l with
    | accept self socket =>
      obtain ⟨hself, rfl⟩ := accept_of_step h
      refine Or.inl ⟨rfl, sameClaims_insert ?_ PendingRead.noConfusion, fun _ => Label.noConfusion⟩
      rw [claim, Finmap.lookup_eq_none.mpr hself, Option.bind_none]
    | handshake self buf =>
      obtain ⟨session, hsession, -⟩ := Option.map_eq_some_iff.mp h
      rcases registry_of_handshake hsession h with ⟨hnone, hclaims⟩ | ⟨id, hid, hregisters⟩
      · exact Or.inl ⟨hnone, hclaims, fun _ => Label.noConfusion⟩
      · exact Or.inr (Or.inl ⟨self, id, hid, hregisters, fun _ => Label.noConfusion⟩)
    | message self msg =>
      refine Or.inl ⟨rfl, ?_, fun _ => Label.noConfusion⟩
      have hnetwork := networkTurn_of_step hl h
      generalize t.network = m' at hnetwork ⊢
      cases hnetwork with
      | resync self session hself hpending => exact sameClaims_setNeedsFullSnapshot _ _ _
      | otherMessage self msg hmsg => exact hsame
    | readError self =>
      rcases registry_of_readError h with ⟨hnone, hclaims⟩ | ⟨id, hends⟩
      · exact Or.inl ⟨rfl, hclaims, fun _ heq => by cases heq; exact hnone⟩
      · exact Or.inr (Or.inr ⟨self, id, rfl, rfl, hends⟩)
    | _ => exact absurd hl not_false
  | handleBroadcast order payload seq tick quiet jobs hjobs =>
    exact Or.inl ⟨rfl, sameClaims_of_cleared (cleared_doUdpBroadcast _ _ _ _ _),
      fun _ => Label.noConfusion⟩
  | postBroadcast counts update hphase hne =>
    exact Or.inl ⟨rfl, ⟨rfl, rfl, fun _ => rfl, fun _ _ => rfl⟩, fun _ => Label.noConfusion⟩
  | _ => exact Or.inl ⟨rfl, hsame, fun _ => Label.noConfusion⟩

/-! ## The latest connection -/

/-- The handshakes of a run that still hold: of open connections with the id. -/
def openHandshakes (p : PlayerId) (ls : List Label) (t : State) : List (PlayerId × SessionPtr) :=
  (collect step registrations {} ls).filter fun e => e.1 = p ∧ t.network.claim e.2 = some p

/-- Among the open connections with the id, the one that handshook last. -/
def latestOpen (p : PlayerId) (ls : List Label) (t : State) : Option SessionPtr :=
  (openHandshakes p ls t).getLast?.map Prod.snd

/-- The latest open connection of every id is registered, with its address. -/
def StaysRegistered (ls : List Label) (t : State) : Prop :=
  ∀ p c, latestOpen p ls t = some c →
    t.network.sessions.lookup p = some c ∧
      ∃ ep, t.network.socketOf c = some ep ∧ t.network.udpEndpoints.lookup p = some ep

/-- A connection that ends is the only open one with its id. -/
def EndsAlone (s : State) : Label → Prop
  | .readError self => ∀ id, s.network.claim self = some id →
      ∀ c, s.network.claim c = some id → c = self
  | _ => True

theorem claim_of_latestOpen {ls : List Label} (h : latestOpen p ls t = some c) :
    t.network.claim c = some p := by
  obtain ⟨e, he, rfl⟩ := Option.map_eq_some_iff.mp h
  have hmem := List.mem_filter.mp (List.mem_of_getLast? he)
  simp only [decide_eq_true_eq] at hmem
  exact hmem.2.2

/-- An open connection is in the history. -/
theorem mem_registrations_of_claim {ls : List Label} (h : run step {} ls = some t)
    (hc : t.network.claim c = some p) : (p, c) ∈ collect step registrations {} ls := by
  revert c p
  refine run_history (P := fun _ _ => True)
    (Q := fun ls t => ∀ {p c}, t.network.claim c = some p → (p, c) ∈ collect step registrations {} ls)
    ?_ (fun ls s l t hrun ih _ hstep p c hc => ?_) (always_of_forall_mem (fun _ _ _ => trivial) _) h
  · intro p c hc
    cases hc
  · rw [collect_concat hrun l hstep]
    rcases registry_of_step hstep with ⟨-, hclaims, -⟩ | ⟨self, id, hid, hregisters, -⟩ |
      ⟨self, id, -, -, hends⟩
    · rw [hclaims.claim] at hc
      exact List.mem_append_left _ (ih hc)
    · rw [hregisters.claim] at hc
      split_ifs at hc with heq
      · cases hc
        rw [heq, hid]
        exact List.mem_append_right _ (List.mem_singleton_self _)
      · exact List.mem_append_left _ (ih hc)
    · rw [hends.claim] at hc
      split_ifs at hc
      exact List.mem_append_left _ (ih hc)

/-- Where a connection with the id is open, one of them is the latest. -/
theorem exists_latestOpen {ls : List Label} (h : run step {} ls = some t)
    (hc : t.network.claim c = some p) : ∃ c', latestOpen p ls t = some c' := by
  have hmem : (p, c) ∈ openHandshakes p ls t :=
    List.mem_filter.mpr ⟨mem_registrations_of_claim h hc, by simp [hc]⟩
  cases hlast : (openHandshakes p ls t).getLast? with
  | none =>
    rw [List.getLast?_eq_none_iff.mp hlast] at hmem
    exact absurd hmem List.not_mem_nil
  | some e => exact ⟨e.2, by rw [latestOpen, hlast, Option.map_some]⟩

/-- A turn in which nobody joins or leaves the id. -/
theorem latestOpen_of_claims {ls : List Label} {l : Label} (hrun : run step {} ls = some s)
    (h : s.step l = some t) (hregs : ∀ e ∈ s.registrations l, e.1 ≠ p)
    (hclaims : ∀ c, t.network.claim c = some p ↔ s.network.claim c = some p) :
    latestOpen p (ls ++ [l]) t = latestOpen p ls s := by
  have hnone : (s.registrations l).filter (fun e => e.1 = p ∧ t.network.claim e.2 = some p) = [] :=
    List.filter_eq_nil_iff.mpr fun e he => by simp [hregs e he]
  rw [latestOpen, openHandshakes, collect_concat hrun l h, List.filter_append, hnone,
    List.append_nil]
  simp only [hclaims]
  rfl

/-- **One turn**: the latest connection stays registered, if none ends beside it. -/
theorem staysRegistered_step {ls : List Label} {l : Label} (hrun : run step {} ls = some s)
    (hs : StaysRegistered ls s) (halone : s.EndsAlone l) (h : s.step l = some t) :
    StaysRegistered (ls ++ [l]) t := by
  intro p c hc
  rcases registry_of_step h with ⟨hnone, hclaims, -⟩ | ⟨self, id, hid, hregisters, -⟩ |
    ⟨self, id, hnone, rfl, hends⟩
  · rw [latestOpen_of_claims hrun h (by simp [hnone]) fun c => by rw [hclaims.claim]] at hc
    have hclaim := claim_of_latestOpen hc
    rw [hclaims.sessions, hclaims.udpEndpoints, hclaims.socket c (by simp [hclaim])]
    exact hs p c hc
  · by_cases hp : p = id
    · -- the connection that has just handshaken is the latest
      subst hp
      have hlast : latestOpen p (ls ++ [l]) t = some self := by
        rw [latestOpen, openHandshakes, collect_concat hrun l h, hid, List.filter_append,
          List.filter_singleton]
        simp [hregisters.claim]
      rw [hlast, Option.some.injEq] at hc
      subst hc
      obtain ⟨ep, hep, hendpoints⟩ := hregisters.socket
      rw [hregisters.sessions, hendpoints]
      exact ⟨Finmap.lookup_insert _, ep, hep, Finmap.lookup_insert _⟩
    · have hclaims : ∀ c, t.network.claim c = some p ↔ s.network.claim c = some p := by
        intro c
        rw [hregisters.claim]
        split_ifs with heq
        · simp [heq, hregisters.free, Ne.symm hp]
        · rfl
      rw [latestOpen_of_claims hrun h (by simp [hid, Ne.symm hp]) hclaims] at hc
      have hne : c ≠ self := by
        rintro rfl
        have hclaim := claim_of_latestOpen hc
        rw [hregisters.free] at hclaim
        cases hclaim
      obtain ⟨ep, -, hendpoints⟩ := hregisters.socket
      rw [hregisters.sessions, hendpoints, hregisters.sockets c hne,
        Finmap.lookup_insert_of_ne _ hp, Finmap.lookup_insert_of_ne _ hp]
      exact hs p c hc
  · have hother : ∀ c, t.network.claim c = some id → False := by
      intro c hclaim
      rw [hends.claim] at hclaim
      split_ifs at hclaim with heq
      exact heq (halone id hends.claimed c hclaim)
    by_cases hp : p = id
    · subst hp
      exact absurd (claim_of_latestOpen hc) (hother c)
    · have hclaims : ∀ c, t.network.claim c = some p ↔ s.network.claim c = some p := by
        intro c
        rw [hends.claim]
        split_ifs with heq
        · simp [heq, hends.claimed, Ne.symm hp]
        · rfl
      rw [latestOpen_of_claims hrun h (by simp [hnone]) hclaims] at hc
      have hne : c ≠ self := by
        rintro rfl
        have hclaim := claim_of_latestOpen hc
        rw [hends.claimed, Option.some.injEq] at hclaim
        exact hp hclaim.symm
      rw [hends.sessions, hends.udpEndpoints, hends.sockets c hne, Finmap.lookup_erase_ne hp,
        Finmap.lookup_erase_ne hp]
      exact hs p c hc

theorem staysRegistered_of_run {ls : List Label} (h : run step {} ls = some t)
    (halone : Always step EndsAlone {} ls) : StaysRegistered ls t := by
  refine run_history (Q := StaysRegistered) ?_
    (fun ls s l t hrun hs halone hstep => staysRegistered_step hrun hs halone hstep) halone h
  intro p c hc
  cases hc

/-- The end of a connection beside another one leaves that one unregistered. -/
theorem endsAlone_of_staysRegistered {ls : List Label} {l : Label}
    (hrun : run step {} ls = some s)
    (h : ∀ t, s.step l = some t → StaysRegistered (ls ++ [l]) t) : s.EndsAlone l := by
  cases l with
  | readError self =>
    intro id hself c hc
    by_contra hne
    have hstep : ∃ t, s.step (.readError self) = some t := by
      rw [claim] at hself
      obtain ⟨session, hsession, hpending⟩ := Option.bind_eq_some_iff.mp hself
      split_ifs at hpending with hmessage
      simp [step, readError, hsession, hmessage]
    obtain ⟨t, ht⟩ := hstep
    rcases registry_of_step ht with ⟨-, -, hnone⟩ | ⟨_, _, -, -, hnot⟩ | ⟨_, id', -, heq, hends⟩
    · rw [hnone self rfl] at hself
      cases hself
    · exact absurd rfl (hnot self)
    · cases heq
      have hid : id' = id := Option.some.inj (hends.claimed.symm.trans hself)
      subst hid
      have hopen : t.network.claim c = some id' := by rw [hends.claim, if_neg hne, hc]
      obtain ⟨c', hc'⟩ := exists_latestOpen (run_concat hrun ht) hopen
      have hregistered := (h t ht id' c' hc').1
      rw [hends.sessions, Finmap.lookup_erase] at hregistered
      cases hregistered
  | _ => exact trivial

/-- **A live connection stays registered exactly if connections end alone.**  At every
point of a run the latest open connection of every id is registered with its address, if
and only if each connection that ends is then the only open one with its id. -/
theorem staysRegistered_iff (ls : List Label) :
    (∀ before after t, ls = before ++ after → run step {} before = some t →
      StaysRegistered before t) ↔ Always step EndsAlone {} ls := by
  constructor
  · intro h
    refine always_iff.mpr fun before l after m hls hm => ?_
    refine endsAlone_of_staysRegistered hm fun t ht =>
      h (before ++ [l]) after t ?_ (run_concat hm ht)
    rw [hls, List.append_assoc]
    rfl
  · rintro halone before after t rfl ht
    exact staysRegistered_of_run ht (always_append.mp halone).1

theorem claim_connected (self : SessionPtr) (socket : Endpoint) (playerId : PlayerId)
    (m : BoostNetworkManager) (c : SessionPtr) :
    (connected self socket playerId m).claim c =
      if c = self then some playerId else m.claim c := by
  rw [connected, start, magic_handshakeOf, id_handshakeOf, if_neg (not_not.mpr rfl)]
  refine (claim_insert (m.accept self socket) self c _).trans ?_
  by_cases hc : c = self
  · rw [if_pos hc, if_pos hc, if_pos rfl]
  · rw [if_neg hc, if_neg hc]
    exact (claim_insert m self c _).trans (if_neg hc)

/-- **The old connection of a client that has reconnected closes.**  Player 7 connects
twice, then the first connection ends. -/
theorem not_staysRegistered_reconnect :
    ¬ ∀ ls t, run step {} ls = some t → StaysRegistered ls t := by
  intro hclaim
  have hfirst := run_connect (s := {}) 1 Finmap.notMem_empty ⟨0, 0⟩ 7
  have hsecond := run_connect (s :=
    { network := connected 1 ⟨0, 0⟩ 7 {}
      server := { resourceManager := ({} : ResourceManager).addPlayer 7 } }) 2 (by decide) ⟨0, 1⟩ 7
  have hrun := run_append.mpr ⟨_, hfirst, hsecond⟩
  have halone := endsAlone_of_staysRegistered (l := .readError 1) hrun fun t ht =>
    hclaim _ t (run_concat hrun ht)
  have hclaims := claim_connected 2 ⟨0, 1⟩ 7 (connected 1 ⟨0, 0⟩ 7 {})
  have hone := claim_connected 1 ⟨0, 0⟩ 7 {} 1
  exact absurd (halone 7 ((hclaims 1).trans hone) 2 (hclaims 2)) (by decide)

end State
end Multilife

import Multilife.Refinement.CommandStream
import Multilife.System.Pairing
import Multilife.System.Registry

/-!
# What becomes of a client's stream

The I/O thread handles each read of a session in a turn of its own, and any turns may
come between.  A session whose id nobody else uses keeps its place in the registries
(`exclusive_step`), so each of its turns does what its request asks for:

* `standing_of_run`: once a session has read the handshake and some requests, it is
  registered, and the command callback has been called with the commands among them
  that claim its own id.
* `stream_roundTrips`: hence, whatever fragments the stream of a client arrives in and
  whatever happens in between, its requests are carried out in order, and none of its
  reads gets stuck.
-/

namespace Multilife

open BoostNetworkManager Client FiniteMap LittleEndian Transition proto

/-- The turn in which a read of a session is handled. -/
def SessionRead.label (self : SessionPtr) : SessionRead → Label
  | .handshake handshakeBuf => .handshake self handshakeBuf
  | .message msg => .message self msg

/-- The turns in which a read of the session ends, well or not. -/
def Label.readBy (self : SessionPtr) : Label → Bool
  | .handshake c _ => c = self
  | .message c _ => c = self
  | .readError c => c = self
  | _ => false

/-- No other session shakes hands with the id. -/
def Label.SparesId (self : SessionPtr) (p : PlayerId) : Label → Prop
  | .handshake c handshakeBuf =>
    c ≠ self → readLE UInt32 handshakeBuf 0 = kMagic → readLE UInt64 handshakeBuf 4 ≠ p
  | _ => True

/-- The command a request stands for, if it claims the right id. -/
def Client.Request.commandFor (p : PlayerId) : Request → Option PlayerCommand
  | .command type playerId x y => if playerId = p then some ⟨p, type, x, y⟩ else none
  | .resync => none

/-- The turn of the handshake. -/
def handshakeTurn (self : SessionPtr) (p : PlayerId) : Label :=
  (SessionRead.handshake (GameNetworkClient.onTcpConnected p)).label self

/-- The turn of a request. -/
def Client.Request.turn (self : SessionPtr) (r : Request) : Label :=
  (SessionRead.message r.message).label self

namespace BoostNetworkManager

/-- The session has the id, with its address, and no other open connection has it. -/
structure Exclusive (c : SessionPtr) (p : PlayerId) (m : BoostNetworkManager) : Prop where
  claim : m.claim c = some p
  sessions : m.sessions.lookup p = some c
  endpoint : ∃ ep, m.socketOf c = some ep ∧ m.udpEndpoints.lookup p = some ep
  unique : ∀ c', m.claim c' = some p → c' = c

/-- The connection, if it is there at all, waits for its handshake. -/
def AwaitsHandshake (self : SessionPtr) (m : BoostNetworkManager) : Prop :=
  ∀ session, m.unflagged self = some session → session.pending = .handshake

variable {m : BoostNetworkManager} {self : SessionPtr} {p : PlayerId}

theorem lookup_of_claim (h : m.claim self = some p) :
    ∃ session, m.objects.lookup self = some session ∧ session.pending = .message ∧
      session.playerId = p := by
  obtain ⟨session, hsession, hclaim⟩ := Option.bind_eq_some_iff.mp h
  split_ifs at hclaim with hpending
  exact ⟨session, hsession, hpending, Option.some.inj hclaim⟩

end BoostNetworkManager

namespace State

variable {s t : State} {self : SessionPtr} {p : PlayerId}

/-- The calls of the command callback in a turn, with the session that makes them. -/
def deliveries (s : State) : Label → List (SessionPtr × PlayerCommand)
  | .message c msg => (s.delivered c msg).map (c, ·)
  | _ => []

/-- The calls of a run that the session makes, or that are made for the player. -/
def deliveriesOf (self : SessionPtr) (p : PlayerId) (ls : List Label) :
    List (SessionPtr × PlayerCommand) :=
  (collect step deliveries {} ls).filter fun e => e.1 = self ∨ e.2.playerId = p

/-- The requests read so far have been carried out, and nothing else was delivered for
the player. -/
structure InStep (c : SessionPtr) (p : PlayerId) (done : List Request) (ls : List Label)
    (t : State) : Prop where
  exclusive : t.network.Exclusive c p
  deliveries : deliveriesOf c p ls = (done.filterMap (Request.commandFor p)).map (c, ·)

/-! ## Turns of others -/

/-- A session waits for its handshake until it has read it. -/
theorem awaitsHandshake_step {l : Label} (hs : AwaitsHandshake self s.network)
    (hl : l.readBy self = false) (h : s.step l = some t) : AwaitsHandshake self t.network := by
  have hsame : t.network.unflagged self = s.network.unflagged self →
      AwaitsHandshake self t.network := fun heq session hsession => hs session (heq ▸ hsession)
  cases turn_of_step h with
  | onConnection l t hon =>
    have hnetwork := networkTurn_of_step hon h
    generalize t.network = m' at hnetwork hsame ⊢
    cases hnetwork with
    | accept c socket hc =>
      by_cases heq : self = c
      · subst heq
        intro session hsession
        rw [unflagged, BoostNetworkManager.accept, Finmap.lookup_insert] at hsession
        cases hsession
        rfl
      · exact hsame (unflagged_insert_of_ne heq)
    | handshake c buf session hc hpending =>
      have hne : self ≠ c := by simpa [Label.readBy, eq_comm] using hl
      unfold start at hsame ⊢
      dsimp only at hsame ⊢
      split_ifs at hsame ⊢ <;> exact hsame (unflagged_insert_of_ne hne)
    | resync c session hc hpending => exact hsame (unflagged_setNeedsFullSnapshot _ _ _ _)
    | otherMessage c msg hmsg => exact hsame rfl
    | readError c session hc hpending =>
      have hne : self ≠ c := by simpa [Label.readBy, eq_comm] using hl
      refine hsame ?_
      unfold BoostNetworkManager.readError
      split_ifs <;> exact unflagged_insert_of_ne hne
  | handleBroadcast order payload seq tick quiet jobs hjobs =>
    exact hsame (unflagged_of_cleared (cleared_doUdpBroadcast _ _ _ _ _) self)
  | _ => exact hs

/-- What a registration has checked. -/
theorem handshake_of_registrations {l : Label} {c : SessionPtr} {id : PlayerId}
    (h : s.registrations l = [(id, c)]) :
    ∃ buf, l = .handshake c buf ∧ readLE UInt32 buf 0 = kMagic ∧ readLE UInt64 buf 4 = id := by
  cases l with
  | handshake c' buf =>
    rw [registrations, handshakeId] at h
    cases hsession : s.sessionReading .handshake c' with
    | none => rw [hsession] at h; cases h
    | some session =>
      rw [hsession, Option.bind_some, start] at h
      dsimp only at h
      split_ifs at h with hmagic
      · cases h
      · cases h
        exact ⟨buf, rfl, not_not.mp hmagic, rfl⟩
  | _ => cases h

/-- Nobody else comes to have the id. -/
theorem unique_step {l : Label} (hs : ∀ c, s.network.claim c = some p → c = self)
    (hl : l.SparesId self p) (h : s.step l = some t) :
    ∀ c, t.network.claim c = some p → c = self := by
  intro c hc
  rcases registry_of_step h with ⟨-, hclaims, -⟩ | ⟨c', id, hid, hregisters, -⟩ |
    ⟨c', id, -, -, hends⟩
  · exact hs c (hclaims.claim c ▸ hc)
  · rw [hregisters.claim] at hc
    split_ifs at hc with heq
    · cases hc
      obtain ⟨buf, rfl, hmagic, hread⟩ := handshake_of_registrations hid
      by_contra hne
      exact hl (heq ▸ hne) hmagic hread
    · exact hs c hc
  · rw [hends.claim] at hc
    split_ifs at hc
    exact hs c hc

/-- **The session keeps its place** until one of its reads fails. -/
theorem exclusive_step {l : Label} (hs : s.network.Exclusive self p) (hl : l.SparesId self p)
    (hread : l ≠ .readError self) (h : s.step l = some t) : t.network.Exclusive self p := by
  obtain ⟨ep, hsocket, hendpoint⟩ := hs.endpoint
  have hunique := unique_step hs.unique hl h
  rcases registry_of_step h with ⟨-, hclaims, -⟩ | ⟨c, id, hid, hregisters, -⟩ |
    ⟨c, id, -, rfl, hends⟩
  · have hopen : s.network.claim self ≠ none := by simp [hs.claim]
    refine ⟨?_, ?_, ⟨ep, (hclaims.socket self hopen).trans hsocket, ?_⟩, hunique⟩
    · rw [hclaims.claim, hs.claim]
    · rw [hclaims.sessions, hs.sessions]
    · rw [hclaims.udpEndpoints, hendpoint]
  · have hne : self ≠ c := by
      rintro rfl
      have hfree := hregisters.free
      rw [hs.claim] at hfree
      cases hfree
    have hp : p ≠ id := by
      rintro rfl
      exact hne (hunique c (by rw [hregisters.claim, if_pos rfl])).symm
    obtain ⟨ep', -, hendpoints⟩ := hregisters.socket
    refine ⟨?_, ?_, ⟨ep, (hregisters.sockets self hne).trans hsocket, ?_⟩, hunique⟩
    · rw [hregisters.claim, if_neg hne, hs.claim]
    · rw [hregisters.sessions, Finmap.lookup_insert_of_ne _ hp, hs.sessions]
    · rw [hendpoints, Finmap.lookup_insert_of_ne _ hp, hendpoint]
  · have hne : self ≠ c := by
      rintro rfl
      exact hread rfl
    have hp : p ≠ id := by
      rintro rfl
      exact hne (hs.unique c hends.claimed).symm
    refine ⟨?_, ?_, ⟨ep, (hends.sockets self hne).trans hsocket, ?_⟩, hunique⟩
    · rw [hends.claim, if_neg hne, hs.claim]
    · rw [hends.sessions, Finmap.lookup_erase_ne hp, hs.sessions]
    · rw [hends.udpEndpoints, Finmap.lookup_erase_ne hp, hendpoint]

/-- A session delivers commands of its own id only. -/
theorem claim_of_mem_delivered {c : SessionPtr} {msg : ClientMessage} {cmd : PlayerCommand}
    (h : cmd ∈ s.delivered c msg) : s.network.claim c = some cmd.playerId := by
  unfold delivered at h
  cases hsession : s.sessionReading .message c with
  | none => rw [hsession] at h; cases h
  | some session =>
    obtain ⟨hlookup, hpending⟩ := lookup_of_sessionReading hsession
    rw [hsession] at h
    rw [claim, hlookup, Option.bind_some, if_pos hpending]
    cases msg with
    | resync => cases h
    | command type cmdPlayer x y =>
      replace h : cmd ∈ (readNextMessage s.network session (.command type cmdPlayer x y)).2 := h
      rw [readNextMessage] at h
      split_ifs at h
      · cases h
      · rw [List.mem_singleton.mp h]
    | unknown msgType => cases h

/-- **Others deliver nothing for the player.** -/
theorem filter_deliveries_eq_nil {l : Label} (hs : ∀ c, s.network.claim c = some p → c = self)
    (hl : l.readBy self = false) :
    (s.deliveries l).filter (fun e => e.1 = self ∨ e.2.playerId = p) = [] := by
  refine List.filter_eq_nil_iff.mpr fun e he => ?_
  cases l with
  | message c msg =>
    have hc : c ≠ self := by simpa [Label.readBy] using hl
    obtain ⟨cmd, hcmd, rfl⟩ := List.mem_map.mp he
    have hid : cmd.playerId ≠ p := fun heq => hc (hs c (heq ▸ claim_of_mem_delivered hcmd))
    simp [hc, hid]
  | _ => cases he

/-! ## Turns of the session -/

/-- **The handshake** registers the session. -/
theorem exclusive_handshake (hunique : ∀ c, s.network.claim c = some p → c = self)
    (h : s.step (handshakeTurn self p) = some t) : t.network.Exclusive self p := by
  obtain ⟨session, hsession, -⟩ := Option.map_eq_some_iff.mp h
  have hregistered : s.registrations (handshakeTurn self p) = [(p, self)] := by
    show ((s.handshakeId self _).map (·, self)).toList = _
    rw [handshakeId, hsession, Option.bind_some, onTcpConnected_eq]
    exact congrArg (fun id => (id.map (·, self)).toList)
      (start_handshakeOf s.network self session p)
  rcases registry_of_handshake hsession h with ⟨hnone, -⟩ | ⟨id, hid, hregisters⟩
  · rw [handshakeTurn, SessionRead.label] at hregistered
    rw [hregistered] at hnone
    cases hnone
  · rw [handshakeTurn, SessionRead.label] at hregistered
    rw [hregistered] at hid
    cases hid
    obtain ⟨ep, hsocket, hendpoints⟩ := hregisters.socket
    refine ⟨?_, ?_, ⟨ep, hsocket, ?_⟩, fun c hc => ?_⟩
    · rw [hregisters.claim, if_pos rfl]
    · rw [hregisters.sessions, Finmap.lookup_insert]
    · rw [hendpoints, Finmap.lookup_insert]
    · rw [hregisters.claim] at hc
      split_ifs at hc with heq
      · exact heq
      · exact hunique c hc

theorem sessionReading_of_claim (hs : s.network.claim self = some p) :
    ∃ session, s.sessionReading .message self = some session ∧ session.playerId = p := by
  obtain ⟨session, hlookup, hpending, hid⟩ := lookup_of_claim hs
  refine ⟨session, ?_, hid⟩
  rw [sessionReading, hlookup]
  exact if_pos hpending

/-- **A request** is delivered if it is a command that claims the right id. -/
theorem deliveries_turn (hs : s.network.claim self = some p) (r : Request) :
    s.deliveries (r.turn self) = (r.commandFor p).toList.map (self, ·) := by
  obtain ⟨session, hsession, rfl⟩ := sessionReading_of_claim hs
  have hdelivered : s.delivered self r.message =
      (s.network.readNextMessage session r.message).2 := by
    rw [delivered, hsession]
    rfl
  show (s.delivered self r.message).map _ = _
  rw [hdelivered]
  cases r with
  | command type playerId x y =>
    show (if playerId ≠ session.playerId then _ else _ :
      BoostNetworkManager × List PlayerCommand).2.map _ = _
    rw [Request.commandFor]
    by_cases hid : playerId = session.playerId
    · rw [if_neg (not_not.mpr hid), if_pos hid]
      rfl
    · rw [if_pos hid, if_neg hid]
      rfl
  | resync => rfl

/-- **A request for a resync** is noted. -/
theorem registered_resync (hs : s.network.Exclusive self p)
    (h : s.step (.message self .resync) = some t) : t.network.Registered p true := by
  obtain ⟨session, hsession, hid⟩ := sessionReading_of_claim hs.claim
  obtain ⟨ep, -, hendpoint⟩ := hs.endpoint
  have hlookup := (lookup_of_sessionReading hsession).1
  rw [step, message, hsession, Option.map_some, Option.some.injEq] at h
  subst h
  show (s.network.setNeedsFullSnapshot session.playerId true).Registered p true
  rw [hid, setNeedsFullSnapshot, hs.sessions]
  refine ⟨⟨{ session with needsFullSnapshot := true }, ?_, rfl⟩, ep, hendpoint⟩
  refine Option.bind_eq_some_iff.mpr ⟨self, hs.sessions, ?_⟩
  show (modify self _ s.network.objects).lookup self = _
  rw [lookup_modify, if_pos rfl, hlookup, Option.map_some]

/-- A session that waits for its handshake can read it. -/
theorem step_handshakeTurn (hs : AwaitsHandshake self s.network)
    (hself : self ∈ s.network.objects) : ∃ t, s.step (handshakeTurn self p) = some t := by
  obtain ⟨session, hlookup⟩ := Finmap.mem_iff.mp hself
  have hpending : session.pending = .handshake :=
    hs { session with needsFullSnapshot := false } (by rw [unflagged, hlookup, Option.map_some])
  have hsession : s.sessionReading .handshake self = some session := by
    rw [sessionReading, hlookup]
    exact if_pos hpending
  exact ⟨_, Option.map_eq_some_iff.mpr ⟨session, hsession, rfl⟩⟩

/-- A session that has had its handshake can read any request. -/
theorem step_turn (hs : s.network.claim self = some p) (r : Request) :
    ∃ t, s.step (r.turn self) = some t := by
  obtain ⟨session, hsession, -⟩ := sessionReading_of_claim hs
  exact ⟨_, Option.map_eq_some_iff.mpr ⟨session, hsession, rfl⟩⟩

/-! ## Along a run -/

/-- Where a session stands after a run, by what it has read. -/
structure Standing (c : SessionPtr) (p : PlayerId) (ls : List Label) (t : State) : Prop where
  unique : ∀ c', t.network.claim c' = some p → c' = c
  waiting : ls.filter (Label.readBy c) = [] →
    AwaitsHandshake c t.network ∧ deliveriesOf c p ls = []
  inStep : ∀ done, ls.filter (Label.readBy c) = handshakeTurn c p :: done.map (Request.turn c) →
    InStep c p done ls t

theorem standing_nil (self : SessionPtr) (p : PlayerId) : Standing self p [] {} where
  unique _ hc := by cases hc
  waiting _ := by
    refine ⟨fun session hsession => ?_, rfl⟩
    cases hsession
  inStep _ hreads := by cases hreads

theorem deliveriesOf_concat (self : SessionPtr) (p : PlayerId) {ls : List Label} {l : Label}
    (hrun : run step {} ls = some s) (h : s.step l = some t) :
    deliveriesOf self p (ls ++ [l]) = deliveriesOf self p ls ++
      (s.deliveries l).filter (fun e => e.1 = self ∨ e.2.playerId = p) := by
  rw [deliveriesOf, collect_concat hrun l h, List.filter_append]
  rfl

/-- **One turn.** -/
theorem standing_step {ls : List Label} {l : Label} (hrun : run step {} ls = some s)
    (hs : Standing self p ls s) (hl : l.SparesId self p) (h : s.step l = some t) :
    Standing self p (ls ++ [l]) t := by
  have hunique := unique_step hs.unique hl h
  have hconcat := deliveriesOf_concat self p hrun h
  cases hread : l.readBy self with
  | false =>
    -- a turn of others: what has been read is the same
    rw [filter_deliveries_eq_nil hs.unique hread, List.append_nil] at hconcat
    have hreads : (ls ++ [l]).filter (Label.readBy self) = ls.filter (Label.readBy self) := by
      simp [hread]
    have hne : l ≠ .readError self := by
      rintro rfl
      simp [Label.readBy] at hread
    refine ⟨hunique, fun hnone => ?_, fun done hdone => ?_⟩
    · obtain ⟨hawaits, hnothing⟩ := hs.waiting (hreads ▸ hnone)
      exact ⟨awaitsHandshake_step hawaits hread h, hconcat.trans hnothing⟩
    · have hbefore := hs.inStep done (hreads ▸ hdone)
      exact ⟨exclusive_step hbefore.exclusive hl hne h, hconcat.trans hbefore.deliveries⟩
  | true =>
    have hreads : (ls ++ [l]).filter (Label.readBy self) = ls.filter (Label.readBy self) ++ [l] := by
      simp [hread]
    refine ⟨hunique, fun hnone => ?_, fun done hdone => ?_⟩
    · rw [hreads] at hnone
      simp at hnone
    · rw [hreads] at hdone
      rcases List.eq_nil_or_concat done with rfl | ⟨done, r, rfl⟩
      · -- the handshake is read
        obtain ⟨hnone, heq⟩ := List.append_inj' (hdone.trans (List.nil_append _).symm) rfl
        cases heq
        refine ⟨exclusive_handshake hs.unique h, ?_⟩
        rw [hconcat, (hs.waiting hnone).2]
        rfl
      · -- one more request is read
        rw [List.concat_eq_append, List.map_append, ← List.cons_append] at hdone
        obtain ⟨hbefore, heq⟩ := List.append_inj' hdone rfl
        cases heq
        have hinStep := hs.inStep done hbefore
        refine ⟨exclusive_step hinStep.exclusive hl Label.noConfusion h, ?_⟩
        rw [hconcat, hinStep.deliveries, deliveries_turn hinStep.exclusive.claim,
          List.concat_eq_append, List.filterMap_append, List.map_append]
        congr 1
        cases hcommand : r.commandFor p <;> simp [hcommand]

theorem standing_of_run {ls : List Label} (h : run step {} ls = some t)
    (hl : ∀ l ∈ ls, l.SparesId self p) : Standing self p ls t :=
  run_history (Q := Standing self p) (P := fun _ l => l.SparesId self p) (standing_nil self p)
    (fun _ _ _ _ hrun hs hl hstep => standing_step hrun hs hl hstep)
    (always_of_forall_mem (fun l hmem _ => hl l hmem) _) h

/-! ## The stream of a client -/

/-- A session that reads a stream has read nothing, or the handshake and some requests. -/
theorem reads_cases {requests : List Request} {reads todo : List Label}
    (h : reads ++ todo = handshakeTurn self p :: requests.map (Request.turn self)) :
    (reads = [] ∧ todo = handshakeTurn self p :: requests.map (Request.turn self)) ∨
      ∃ done rest, requests = done ++ rest ∧
        reads = handshakeTurn self p :: done.map (Request.turn self) ∧
        todo = rest.map (Request.turn self) := by
  rcases List.append_eq_cons_iff.mp h with ⟨hnone, htodo⟩ | ⟨reads', hreads, hsplit⟩
  · exact Or.inl ⟨hnone, htodo⟩
  · obtain ⟨done, rest, hrequests, rfl, rfl⟩ := List.map_eq_append_iff.mp hsplit
    exact Or.inr ⟨done, rest, hrequests, hreads, rfl⟩

/-- **The stream is carried out.**  The stream that a client writes for its requests
arrives in any fragments.  In a run in which no other session uses the id, the turns of
the session's reads are, so far, the first of those the fragments yield; `todo` are the
others.

* The fragments are read to the end, and a type byte is waited for.
* The next of the reads is never refused.
* Once the handshake and some requests have been read, the session is registered, and
  the commands among them that claim its id have been delivered, in order.
* Each request for a resync leaves the player waiting for a snapshot. -/
theorem stream_roundTrips {c : GameNetworkClient} (hc : c.isConnected = true) (p : PlayerId)
    (requests : List Request) {fragments : List (List UInt8)}
    (hstream : fragments.flatten = stream c p requests) {self : SessionPtr} {ls todo : List Label}
    {t : State} (hrun : run step {} ls = some t) (hother : ∀ l ∈ ls, l.SparesId self p)
    (hreads : ls.filter (Label.readBy self) ++ todo =
      (readFragments fragments).events.map (SessionRead.label self)) :
    ((readFragments fragments).state = .msgTypeBuf ∧ (readFragments fragments).unread = []) ∧
    (∀ l rest, todo = l :: rest → self ∈ t.network.objects → ∃ t', t.step l = some t') ∧
    (∀ done rest, requests = done ++ rest → todo = rest.map (Request.turn self) →
      ls.filter (Label.readBy self) = handshakeTurn self p :: done.map (Request.turn self) ∧
        InStep self p done ls t) ∧
    ∀ before after m m', ls = before ++ .message self .resync :: after →
      run step {} before = some m → m.step (.message self .resync) = some m' →
        m'.network.Registered p true := by
  have houtcome := read_stream hc p requests hstream
  have hturns : ls.filter (Label.readBy self) ++ todo =
      handshakeTurn self p :: requests.map (Request.turn self) := by
    rw [hreads, houtcome, List.map_cons, List.map_map]
    rfl
  have hstanding := standing_of_run hrun hother
  refine ⟨by simp [houtcome], ?_, ?_, ?_⟩
  · intro l rest htodo hself
    rcases reads_cases hturns with ⟨hnone, hall⟩ | ⟨done, rest', -, hdone, hrest⟩
    · cases htodo.symm.trans hall
      exact step_handshakeTurn (hstanding.waiting hnone).1 hself
    · obtain ⟨r, -, -, rfl, -⟩ := List.map_eq_cons_iff.mp (hrest.symm.trans htodo)
      exact step_turn (hstanding.inStep done hdone).exclusive.claim r
  · rintro done rest rfl rfl
    rw [List.map_append, ← List.cons_append] at hturns
    have hdone := List.append_cancel_right hturns
    exact ⟨hdone, hstanding.inStep done hdone⟩
  · rintro before after m m' rfl hm hstep
    have hbefore := standing_of_run hm fun l hl => hother l (List.mem_append_left _ hl)
    have hresync : Label.readBy self (.message self .resync) = true := by simp [Label.readBy]
    rw [List.filter_append, List.filter_cons_of_pos hresync, List.append_assoc] at hturns
    rcases reads_cases hturns with ⟨-, hfirst⟩ | ⟨done, -, -, hdone, -⟩
    · cases hfirst
    · exact registered_resync (hbefore.inStep done hdone).exclusive hstep

/-- Player 7 connects and places a cell, and a request for a resync is on its way; the
stream was cut inside the handshake. -/
theorem stream_roundTrips_place :
    ∃ t, run step {} (connectAndSend 7 .PlaceCell 0 0) = some t ∧
      InStep 1 7 [.command .PlaceCell 7 0 0] (connectAndSend 7 .PlaceCell 0 0) t ∧
      ∃ t', t.step (.message 1 .resync) = some t' := by
  let requests : List Request := [.command .PlaceCell 7 0 0, .resync]
  let written := stream {} 7 requests
  have hstream : [written.take 5, written.drop 5].flatten = stream {} 7 requests := by
    simp [written]
  have hreads : (connectAndSend 7 .PlaceCell 0 0).filter (Label.readBy 1) ++
      [.message 1 .resync] =
        (readFragments [written.take 5, written.drop 5]).events.map (SessionRead.label 1) := by
    rw [read_stream rfl 7 requests hstream, onTcpConnected_eq]
    rfl
  have hother : ∀ l ∈ connectAndSend 7 .PlaceCell 0 0, l.SparesId 1 7 := by
    simp [connectAndSend, connect, Label.SparesId]
  obtain ⟨-, hnext, hdone, -⟩ := stream_roundTrips rfl 7 requests hstream
    (run_connectAndSend 7 .PlaceCell 0 0) hother hreads
  have hinStep := (hdone [.command .PlaceCell 7 0 0] [.resync] rfl rfl).2
  obtain ⟨session, hsession, -⟩ := lookup_of_claim hinStep.exclusive.claim
  exact ⟨_, run_connectAndSend 7 .PlaceCell 0 0, hinStep,
    hnext _ [] rfl (Finmap.mem_iff.mpr ⟨session, hsession⟩)⟩

end State
end Multilife

import Multilife.Refinement.UdpFraming

/-!
# Gaps

The client keeps the last number it has seen and asks for a resync when a delta
datagram does not carry the next one.  The datagrams of one transmission all carry
the same number, so what the client does with such a burst depends on that number,
on how many of the datagrams arrive, and on the number before: `asks_iff`,
`asks_of_full`.
-/

namespace Multilife

open Client

namespace Client.ClientState

/-- Whether the client asks for a resync while it receives the datagrams. -/
def asks : ClientState → List (List UInt8) → Bool
  | _, [] => false
  | c, d :: ds => c.sendsResync d || (c.receive d).asks ds

theorem asks_append (c : ClientState) (ds ds' : List (List UInt8)) :
    c.asks (ds ++ ds') = (c.asks ds || (ds.foldl receive c).asks ds') := by
  induction ds generalizing c with
  | nil => rfl
  | cons d ds ih => rw [List.cons_append, asks, asks, ih, List.foldl_cons, Bool.or_assoc]

/-! ## One packet -/

theorem network_receive_encode (c : ClientState) (p : Packet) :
    (c.receive p.encode).network = { c.network with lastSeqNum := some p.seqNum } := by
  unfold receive GameNetworkClient.applyDatagram
  rw [Packet.parseUdpWorldPacket_encode]

/-- **When a datagram makes the client ask.** -/
theorem sendsResync_encode (c : ClientState) (hconnected : c.network.isConnected = true)
    (p : Packet) :
    c.sendsResync p.encode = true ↔
      p.full = false ∧ ∃ last, c.network.lastSeqNum = some last ∧ p.seqNum ≠ last + 1 := by
  unfold sendsResync GameNetworkClient.applyDatagram
  rw [Packet.parseUdpWorldPacket_encode]
  dsimp only
  rw [hconnected]
  cases c.network.lastSeqNum with
  | none => simp
  | some last => simp

end Client.ClientState

/-! ## Bursts -/

/-- A number is not the next one. -/
theorem ne_add_one (n : UInt32) : n ≠ n + 1 := by
  intro h
  have hnat := congrArg UInt32.toNat h
  have hlt := n.toNat_lt
  rw [UInt32.toNat_add, UInt32.toNat_one] at hnat
  omega

/-- Datagrams of one kind under one number. -/
def Stamped (seqNum : UInt32) (full : Bool) (ds : List (List UInt8)) : Prop :=
  ∃ packets : List Packet, ds = packets.map Packet.encode ∧
    ∀ p ∈ packets, p.seqNum = seqNum ∧ p.full = full

namespace Stamped

variable {seqNum : UInt32} {full : Bool} {ds ds' : List (List UInt8)}

theorem nil : Stamped seqNum full [] := ⟨[], rfl, fun _ hp => absurd hp List.not_mem_nil⟩

theorem cons_iff {d : List UInt8} :
    Stamped seqNum full (d :: ds) ↔
      (∃ p : Packet, d = p.encode ∧ p.seqNum = seqNum ∧ p.full = full) ∧
        Stamped seqNum full ds := by
  constructor
  · rintro ⟨packets, hds, hall⟩
    cases packets with
    | nil => cases hds
    | cons p packets =>
      obtain ⟨hd, htail⟩ := List.cons.inj hds
      exact ⟨⟨p, hd, hall p List.mem_cons_self⟩, packets, htail,
        fun q hq => hall q (List.mem_cons_of_mem p hq)⟩
  · rintro ⟨⟨p, rfl, hp⟩, packets, rfl, hall⟩
    refine ⟨p :: packets, rfl, fun q hq => ?_⟩
    rcases List.mem_cons.mp hq with rfl | hq
    · exact hp
    · exact hall q hq

/-- Losing some datagrams leaves a burst. -/
theorem sublist (h : Stamped seqNum full ds) (hsub : ds'.Sublist ds) :
    Stamped seqNum full ds' := by
  obtain ⟨packets, rfl, hall⟩ := h
  obtain ⟨packets', hpackets, rfl⟩ := List.sublist_map_iff.mp hsub
  exact ⟨packets', rfl, fun p hp => hall p (hpackets.subset hp)⟩

theorem isConnected_foldl (h : Stamped seqNum full ds) (c : ClientState) :
    (ds.foldl ClientState.receive c).network.isConnected = c.network.isConnected := by
  induction ds generalizing c with
  | nil => rfl
  | cons d ds ih =>
    obtain ⟨⟨p, rfl, -⟩, htail⟩ := cons_iff.mp h
    rw [List.foldl_cons, ih htail, ClientState.network_receive_encode]

/-- A burst leaves its number, unless nothing of it arrives. -/
theorem lastSeqNum_foldl (h : Stamped seqNum full ds) (c : ClientState) :
    (ds.foldl ClientState.receive c).network.lastSeqNum =
      if ds = [] then c.network.lastSeqNum else some seqNum := by
  induction ds generalizing c with
  | nil => rfl
  | cons d ds ih =>
    obtain ⟨⟨p, rfl, rfl, -⟩, htail⟩ := cons_iff.mp h
    rw [List.foldl_cons, ih htail, ClientState.network_receive_encode, if_neg (List.cons_ne_nil _ _)]
    exact ite_self _

/-- **A snapshot never makes the client ask.** -/
theorem asks_of_full (h : Stamped seqNum true ds) (c : ClientState)
    (hconnected : c.network.isConnected = true) : c.asks ds = false := by
  induction ds generalizing c with
  | nil => rfl
  | cons d ds ih =>
    obtain ⟨⟨p, rfl, -, hfull⟩, htail⟩ := cons_iff.mp h
    have hhead : c.sendsResync p.encode = false := by
      rw [← Bool.not_eq_true, ClientState.sendsResync_encode c hconnected, hfull]
      exact fun hask => Bool.noConfusion hask.1
    rw [ClientState.asks, hhead, Bool.false_or]
    refine ih htail _ ?_
    rw [ClientState.network_receive_encode]
    exact hconnected

/-- **When a burst of a delta makes the client ask**: its number is not the next
one, or it has a second datagram. -/
theorem asks_iff (h : Stamped seqNum false ds) (c : ClientState)
    (hconnected : c.network.isConnected = true) :
    c.asks ds = true ↔
      2 ≤ ds.length ∨
        ds ≠ [] ∧ ∃ last, c.network.lastSeqNum = some last ∧ seqNum ≠ last + 1 := by
  cases ds with
  | nil => simp [ClientState.asks]
  | cons d ds =>
    obtain ⟨⟨p, rfl, rfl, hfull⟩, htail⟩ := cons_iff.mp h
    have hhead := ClientState.sendsResync_encode c hconnected p
    rw [ClientState.asks, Bool.or_eq_true, hhead]
    cases ds with
    | nil => simp [ClientState.asks, hfull]
    | cons d' ds =>
      -- the second datagram repeats the number of the first
      obtain ⟨⟨q, rfl, hq, hqfull⟩, -⟩ := cons_iff.mp htail
      have hsecond : (c.receive p.encode).sendsResync q.encode = true := by
        rw [ClientState.sendsResync_encode, ClientState.network_receive_encode, hq]
        · exact ⟨hqfull, p.seqNum, rfl, ne_add_one p.seqNum⟩
        · rw [ClientState.network_receive_encode]
          exact hconnected
      rw [ClientState.asks, hsecond]
      simp

end Stamped
end Multilife

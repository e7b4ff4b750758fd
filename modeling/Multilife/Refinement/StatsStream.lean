import Multilife.Client.GameNetworkClient
import Multilife.Refinement.Stats

/-!
# The stream of statistics

The statistics reach the client as a stream of bytes, in fragments that know nothing of
messages.  `tryParseServerStatsMessage` skips what cannot begin a message, waits for a
header, and then for as many bytes as the header announces.

* `incremental_statsParser`: what it decides on a short buffer it decides on a long one.
* `onTcpReadyRead_fragments`: hence the fragments do not matter.
* `tryParseServerStatsMessage_noise`: what the server sends is read back after any noise
  and before any continuation, one entry for each of the smallest ids.
-/

namespace Multilife

open FiniteMap LittleEndian proto Client Tally

namespace Client

/-! ## One call of the parser -/

variable {type : UInt8} {streamBuffer buffer : List UInt8}

/-- The size a header announces. -/
def packetSize (streamBuffer : List UInt8) : ℕ :=
  kServerStatsHeader + (readLE UInt16 streamBuffer 5).toNat * kServerStatsEntry

/-- The message a header announces. -/
def messageOf (streamBuffer : List UInt8) : ParsedServerStatsMessage where
  generation := readLE UInt32 streamBuffer 1
  players := readStatsEntries (readLE UInt16 streamBuffer 5).toNat
    (streamBuffer.drop kServerStatsHeader)

/-- Less than a header is kept. -/
theorem tryParseServerStatsMessage_short (h : streamBuffer.length < kServerStatsHeader) :
    tryParseServerStatsMessage streamBuffer = (none, streamBuffer) := by
  cases streamBuffer with
  | nil => rfl
  | cons type buffer =>
    rw [tryParseServerStatsMessage]
    dsimp only
    rw [if_pos h]

/-- A byte that cannot begin a message is skipped. -/
theorem tryParseServerStatsMessage_skip (h : kServerStatsHeader ≤ (type :: buffer).length)
    (htype : type ≠ kMsgServerStats) :
    tryParseServerStatsMessage (type :: buffer) = tryParseServerStatsMessage buffer := by
  rw [tryParseServerStatsMessage]
  dsimp only
  rw [if_neg (not_lt.mpr h), if_pos htype]

/-- At the beginning of a message, the parser waits for all of it. -/
theorem tryParseServerStatsMessage_header
    (h : kServerStatsHeader ≤ (kMsgServerStats :: buffer).length) :
    tryParseServerStatsMessage (kMsgServerStats :: buffer) =
      if (kMsgServerStats :: buffer).length < packetSize (kMsgServerStats :: buffer) then
        (none, kMsgServerStats :: buffer)
      else (some (messageOf (kMsgServerStats :: buffer)),
        (kMsgServerStats :: buffer).drop (packetSize (kMsgServerStats :: buffer))) := by
  rw [tryParseServerStatsMessage]
  dsimp only
  rw [if_neg (not_lt.mpr h), if_neg (not_not.mpr rfl)]
  rfl

/-! ## What comes later -/

theorem readStatsEntries_of_append {n : ℕ} {cursor : List UInt8}
    (h : n * kServerStatsEntry ≤ cursor.length) (more : List UInt8) :
    readStatsEntries n (cursor ++ more) = readStatsEntries n cursor := by
  induction n generalizing cursor with
  | zero => rfl
  | succ n ih =>
    have hentry : kServerStatsEntry ≤ cursor.length := by
      rw [Nat.succ_mul] at h
      omega
    have hrest : n * kServerStatsEntry ≤ (cursor.drop kServerStatsEntry).length := by
      rw [List.length_drop]
      rw [Nat.succ_mul] at h
      omega
    have hfield : ∀ offset, offset + 8 ≤ kServerStatsEntry →
        readLE UInt64 (cursor ++ more) offset = readLE UInt64 cursor offset :=
      fun offset hoffset => readLE_append (T := UInt64) (hoffset.trans hentry) more
    rw [readStatsEntries, readStatsEntries, hfield 0 (by decide), hfield 8 (by decide),
      hfield 16 (by decide), List.drop_append_of_le_length hentry, ih hrest]

variable (more : List UInt8)

/-- The header is read from its own bytes. -/
theorem packetSize_append (h : kServerStatsHeader ≤ streamBuffer.length) :
    packetSize (streamBuffer ++ more) = packetSize streamBuffer := by
  have hcount : readLE UInt16 (streamBuffer ++ more) 5 = readLE UInt16 streamBuffer 5 :=
    readLE_append (T := UInt16) h more
  rw [packetSize, packetSize, hcount]

/-- So is the message. -/
theorem messageOf_append (h : packetSize streamBuffer ≤ streamBuffer.length) :
    messageOf (streamBuffer ++ more) = messageOf streamBuffer := by
  have hheader : kServerStatsHeader ≤ streamBuffer.length := (Nat.le_add_right _ _).trans h
  have hgeneration : readLE UInt32 (streamBuffer ++ more) 1 = readLE UInt32 streamBuffer 1 :=
    readLE_append (T := UInt32) (le_trans (by decide) hheader) more
  have hcount : readLE UInt16 (streamBuffer ++ more) 5 = readLE UInt16 streamBuffer 5 :=
    readLE_append (T := UInt16) hheader more
  have hbody : (readLE UInt16 streamBuffer 5).toNat * kServerStatsEntry ≤
      (streamBuffer.drop kServerStatsHeader).length := by
    rw [packetSize] at h
    rw [List.length_drop]
    omega
  rw [messageOf, messageOf, hgeneration, hcount, List.drop_append_of_le_length hheader,
    readStatsEntries_of_append hbody]

/-- A parser that keeps the whole buffer has not decided anything. -/
theorem of_waits {found : Option ParsedServerStatsMessage} {rest : List UInt8}
    (hwait : tryParseServerStatsMessage buffer = (none, buffer))
    (h : tryParseServerStatsMessage buffer = (found, rest)) : found = none ∧ rest = buffer := by
  rw [hwait] at h
  cases h
  exact ⟨rfl, rfl⟩

/-- What is decided on a buffer stands when more arrives. -/
theorem tryParseServerStatsMessage_append {found : Option ParsedServerStatsMessage}
    {rest : List UInt8} : tryParseServerStatsMessage buffer = (found, rest) →
    tryParseServerStatsMessage (buffer ++ more) = match found with
      | some msg => (some msg, rest ++ more)
      | none => tryParseServerStatsMessage (rest ++ more) := by
  intro h
  induction buffer with
  | nil =>
    obtain ⟨rfl, rfl⟩ := of_waits rfl h
    rfl
  | cons type buffer ih =>
    by_cases hshort : (type :: buffer).length < kServerStatsHeader
    · obtain ⟨rfl, rfl⟩ := of_waits (tryParseServerStatsMessage_short hshort) h
      rfl
    have hlong := not_lt.mp hshort
    have hlong' : kServerStatsHeader ≤ (type :: (buffer ++ more)).length := by
      rw [← List.cons_append, List.length_append]
      exact hlong.trans (Nat.le_add_right _ _)
    by_cases htype : type = kMsgServerStats
    · subst htype
      have hheader := tryParseServerStatsMessage_header hlong
      by_cases hpartial :
          (kMsgServerStats :: buffer).length < packetSize (kMsgServerStats :: buffer)
      · rw [if_pos hpartial] at hheader
        obtain ⟨rfl, rfl⟩ := of_waits hheader h
        rfl
      · have hfit := not_lt.mp hpartial
        have hheader' := tryParseServerStatsMessage_header hlong'
        rw [← List.cons_append, packetSize_append more hlong, messageOf_append more hfit,
          List.drop_append_of_le_length hfit, if_neg] at hheader'
        · rw [if_neg hpartial, h] at hheader
          cases hheader
          exact hheader'
        · rw [List.length_append]
          omega
    · rw [tryParseServerStatsMessage_skip hlong htype] at h
      rw [List.cons_append, tryParseServerStatsMessage_skip hlong' htype]
      exact ih h

/-- **A decision on a short buffer is the decision on a long one**: a message is found
in both, and where none is found, what was skipped is skipped in both. -/
theorem incremental_statsParser : GameNetworkClient.statsParser.Incremental :=
  ⟨fun h more => tryParseServerStatsMessage_append more h,
    fun h more => tryParseServerStatsMessage_append more h⟩

/-! ## Fragments -/

namespace GameNetworkClient

/-- The fragments of a stream, read one after the other from an empty buffer. -/
def onTcpReadyReads (fragments : List (List UInt8)) : List UInt8 × List StatsUpdate :=
  fragments.foldl
    (fun s data => ((onTcpReadyRead s.1 data).1, s.2 ++ (onTcpReadyRead s.1 data).2)) ([], [])

/-- Every message takes at least a header off the buffer. -/
theorem length_drain_statsParser (buffer : List UInt8) :
    kServerStatsHeader * (statsParser.drain buffer).1.length +
      (statsParser.drain buffer).2.length ≤ buffer.length := by
  rcases hparse : statsParser.parse buffer with ⟨found, rest⟩
  cases found with
  | none =>
    have hle := length_tryParseServerStatsMessage_le buffer
    rw [show tryParseServerStatsMessage buffer = (none, rest) from hparse] at hle
    rw [BufferParser.drain_of_none hparse, List.length_nil, Nat.mul_zero, Nat.zero_add]
    exact hle
  | some msg =>
    have hle := length_of_tryParseServerStatsMessage hparse
    have hshorter := statsParser.shrinks hparse
    have ih := length_drain_statsParser rest
    rw [BufferParser.drain_of_some hparse, List.length_cons, Nat.mul_succ]
    dsimp only
    omega
termination_by buffer.length

/-- The signals so far and the buffer are those of a drained prefix. -/
theorem foldl_onTcpReadyRead (fragments : List (List UInt8))
    (s : List ParsedServerStatsMessage × List UInt8) :
    fragments.foldl
        (fun s data => ((onTcpReadyRead s.1 data).1, s.2 ++ (onTcpReadyRead s.1 data).2))
        (s.2, s.1.map toStatsUpdate) =
      ((fragments.foldl statsParser.feed s).2,
        (fragments.foldl statsParser.feed s).1.map toStatsUpdate) := by
  induction fragments generalizing s with
  | nil => rfl
  | cons data fragments ih =>
    rw [List.foldl_cons, List.foldl_cons, ← ih, BufferParser.feed, onTcpReadyRead, List.map_append]

/-- **TCP fragmentation does not matter.**  The fragments of a stream, in whatever way it
is cut, emit the signals the whole stream emits and leave the buffer it leaves; and each
call is over after at most one message for every seven bytes. -/
theorem onTcpReadyRead_fragments (fragments : List (List UInt8)) :
    onTcpReadyReads fragments = onTcpReadyRead [] fragments.flatten ∧
      ∀ tcpReadBuffer data : List UInt8,
        kServerStatsHeader * (onTcpReadyRead tcpReadBuffer data).2.length +
          (onTcpReadyRead tcpReadBuffer data).1.length ≤ tcpReadBuffer.length + data.length := by
  constructor
  · have hempty : statsParser.drain [] = ([], []) := BufferParser.drain_of_none rfl
    have hfeed := BufferParser.foldl_feed incremental_statsParser [] fragments
    have hall := foldl_onTcpReadyRead fragments ([], [])
    rw [hempty, List.nil_append] at hfeed
    rw [hfeed] at hall
    exact hall
  · intro tcpReadBuffer data
    have h := length_drain_statsParser (tcpReadBuffer ++ data)
    rw [List.length_append] at h
    rw [onTcpReadyRead, List.length_map]
    exact h

end GameNetworkClient

/-! ## Noise -/

/-- **Noise before a message is skipped.** -/
theorem tryParseServerStatsMessage_encode_of_noise {noise : List UInt8}
    (hnoise : kMsgServerStats ∉ noise) (m : ParsedServerStatsMessage)
    (hm : m.players.length < 65536) (rest : List UInt8) :
    tryParseServerStatsMessage (noise ++ (m.encode ++ rest)) = (some m, rest) := by
  induction noise with
  | nil => exact tryParseServerStatsMessage_encode m hm rest
  | cons type noise ih =>
    rw [List.mem_cons, not_or] at hnoise
    obtain ⟨htype, hnoise⟩ := hnoise
    have hlong : kServerStatsHeader ≤ (type :: (noise ++ (m.encode ++ rest))).length := by
      simp only [List.length_cons, List.length_append, m.length_encode]
      omega
    rw [List.cons_append, tryParseServerStatsMessage_skip hlong (Ne.symm htype), ih hnoise]

end Client

/-! ## The players that are listed -/

/-- The first `n` of a list in increasing order are those with fewer than `n` below. -/
theorem mem_take_of_pairwise {α : Type*} [LinearOrder α] {l : List α} (hl : l.Pairwise (· < ·))
    (n : ℕ) (a : α) : a ∈ l.take n ↔ a ∈ l ∧ l.countP (fun b => decide (b < a)) < n := by
  induction l generalizing n with
  | nil => simp
  | cons b l ih =>
    obtain ⟨hb, hl⟩ := List.pairwise_cons.mp hl
    cases n with
    | zero => simp
    | succ n =>
      rw [List.take_succ_cons, List.mem_cons, List.mem_cons, List.countP_cons, ih hl]
      by_cases hab : a = b
      · subst hab
        have hnone : l.countP (fun c => decide (c < a)) = 0 :=
          List.countP_eq_zero.mpr fun c hc => by simpa using (hb c hc).le
        simp [hnone]
      · by_cases hmem : a ∈ l
        · simp [hab, hmem, hb a hmem]
        · simp [hab, hmem]

variable (order : Traversal PlayerId) (generation : UInt32) (r : ResourceManager)
  (liveCounts : Finmap fun _ : PlayerId => UInt64)

/-- The players that are listed are the 65535 smallest. -/
theorem mem_listedPlayers_iff (id : PlayerId) :
    id ∈ listedPlayers order r ↔
      id ∈ r.balances ∧ (r.balances.keys.filter (· < id)).card < 65535 := by
  have hperm := List.mergeSort_perm (r.getPlayerIds order) fun a b => decide (a ≤ b)
  have hcount : ((r.getPlayerIds order).mergeSort (· ≤ ·)).countP (fun b => decide (b < id)) =
      (r.balances.keys.filter (· < id)).card := by
    have hbelow : r.balances.keys.filter (· < id) =
        ((r.getPlayerIds order).filter fun b => decide (b < id)).toFinset := by
      ext a
      simp [ResourceManager.getPlayerIds]
    have hnodup : (r.getPlayerIds order).Nodup := order.nodup _
    rw [hperm.countP_eq, List.countP_eq_length_filter, hbelow,
      List.toFinset_card_of_nodup (hnodup.filter _)]
  rw [listedPlayers, mem_take_of_pairwise (pairwise_sortedIds order r), hcount, hperm.mem_iff,
    ResourceManager.getPlayerIds, order.mem_order, Finmap.mem_keys]

/-- **What the server sends is what the client reads**, after any noise that cannot be
taken for a message and before any continuation: one entry for each of the 65535
smallest registered ids, in increasing order, with the balance and the live cells. -/
theorem tryParseServerStatsMessage_noise {noise : List UInt8} (hnoise : kMsgServerStats ∉ noise)
    (rest : List UInt8) :
    ∃ msg, tryParseServerStatsMessage
        (noise ++ (serializeServerStats order generation r liveCounts ++ rest)) = (some msg, rest) ∧
      msg.generation = generation ∧
      (msg.players.map ServerStatsEntry.playerId).Pairwise (· < ·) ∧
      (∀ id, id ∈ msg.players.map ServerStatsEntry.playerId ↔
        id ∈ r.balances ∧ (r.balances.keys.filter (· < id)).card < 65535) ∧
      ∀ e ∈ msg.players, r.balances.lookup e.playerId = some e.balance ∧
        e.liveCells = (liveCounts.lookup e.playerId).getD 0 := by
  have hlen : (statsMessage order generation r liveCounts).players.length < 65536 := by
    simp only [statsMessage, listedPlayers, List.length_map, List.length_take]
    omega
  have hids : (statsMessage order generation r liveCounts).players.map ServerStatsEntry.playerId =
      listedPlayers order r := by
    rw [statsMessage, List.map_map]
    exact List.map_id _
  refine ⟨statsMessage order generation r liveCounts, ?_, rfl, ?_, ?_, ?_⟩
  · rw [serializeServerStats_eq]
    exact tryParseServerStatsMessage_encode_of_noise hnoise _ hlen rest
  · rw [hids]
    exact pairwise_listedPlayers order r
  · rw [hids]
    exact mem_listedPlayers_iff order r
  · intro e he
    obtain ⟨id, hid, rfl⟩ := List.mem_map.mp he
    exact ⟨lookup_eq_some_total ((mem_listedPlayers_iff order r id).mp hid).1, rfl⟩

/-- Two bytes of noise, and one of the next message. -/
theorem tryParseServerStatsMessage_noise_two :
    ∃ msg, tryParseServerStatsMessage ([0, 1] ++
        (serializeServerStats sortedPlayers 5 (({} : ResourceManager).addPlayer 7) ∅ ++ [0x20])) =
      (some msg, [0x20]) ∧ msg.generation = 5 := by
  have hnoise : kMsgServerStats ∉ ([0, 1] : List UInt8) := by decide
  obtain ⟨msg, hmsg, hgeneration, -⟩ := tryParseServerStatsMessage_noise sortedPlayers 5
    (({} : ResourceManager).addPlayer 7) ∅ hnoise [0x20]
  exact ⟨msg, hmsg, hgeneration⟩

end Multilife

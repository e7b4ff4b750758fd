import Multilife.Refinement.UdpFraming

/-!
# Restamping in place

`rewriteSnapshotSeqNums` walks over the payload with an offset and writes into it.  The
walk is `rewriteFrom`, which also lists where it writes.

* `rewriteFrom_append`: the walk from an offset leaves what is before it and treats the
  rest like a payload of its own.
* `rewriteFrom_eq_foldl`, `rewriteFrom_within`: it is a sequence of writes of one field,
  all of them inside the payload.
* `rewriteFrom_encodeAll`: on a concatenation of packets it writes once at the front of
  every packet.
-/

namespace Multilife

open LittleEndian proto WorldSerializer

/-- The loop of `rewriteSnapshotSeqNums` from an offset on: the payload, and the offsets
of the writes. -/
def rewriteFrom (seqNum : UInt32) (payload : List UInt8) (offset : ℕ) : List UInt8 × List ℕ :=
  if _h : offset + kUdpHeader ≤ payload.length then
    let cellCount := readLE UInt16 payload (offset + kOffCellCount)
    let packetSize := kUdpHeader + cellCount.toNat * kUdpCellEntry
    if offset + packetSize > payload.length then (payload, [])
    else
      let rewritten := rewriteFrom seqNum (patchLE seqNum payload (offset + kOffSeqNum))
        (offset + packetSize)
      (rewritten.1, (offset + kOffSeqNum) :: rewritten.2)
  else (payload, [])
termination_by payload.length - offset
decreasing_by
  have hfield : offset + kOffSeqNum + FixedWidth.size UInt32 ≤ payload.length :=
    le_trans (Nat.add_le_add_left (by decide) offset) _h
  rw [length_patchLE hfield]
  simp only [kUdpHeader] at *
  omega

variable (seqNum : UInt32)

/-! ## The writes -/

/-- **The loop is a sequence of writes.** -/
theorem rewriteFrom_eq_foldl (payload : List UInt8) (offset : ℕ) :
    (rewriteFrom seqNum payload offset).1 =
      (rewriteFrom seqNum payload offset).2.foldl (patchLE seqNum) payload := by
  fun_induction rewriteFrom seqNum payload offset with
  | case1 payload offset hheader cellCount packetSize hpartial => rfl
  | case2 payload offset hheader cellCount packetSize hfit rewritten ih => exact ih
  | case3 payload offset hheader => rfl

/-- **Every write is inside the payload**, and a header is passed for each. -/
theorem rewriteFrom_within (payload : List UInt8) (offset : ℕ) :
    (∀ o ∈ (rewriteFrom seqNum payload offset).2,
      o + FixedWidth.size UInt32 ≤ payload.length) ∧
    (rewriteFrom seqNum payload offset).2.length * kUdpHeader ≤ payload.length - offset := by
  fun_induction rewriteFrom seqNum payload offset with
  | case1 payload offset hheader cellCount packetSize hpartial =>
    exact ⟨fun o ho => absurd ho List.not_mem_nil, by simp⟩
  | case2 payload offset hheader cellCount packetSize hfit rewritten ih =>
    have hfield : offset + kOffSeqNum + FixedWidth.size UInt32 ≤ payload.length :=
      le_trans (Nat.add_le_add_left (by decide) offset) hheader
    rw [length_patchLE hfield] at ih
    have hinside := ih.1
    have hcount : rewritten.2.length * kUdpHeader ≤ payload.length - (offset + packetSize) := ih.2
    refine ⟨fun o ho => ?_, ?_⟩
    · rcases List.mem_cons.mp ho with rfl | ho
      · exact hfield
      · exact hinside o ho
    · have hsize : kUdpHeader ≤ packetSize := Nat.le_add_right _ _
      rw [List.length_cons, Nat.succ_mul]
      omega
  | case3 payload offset hheader =>
    exact ⟨fun o ho => absurd ho List.not_mem_nil, by simp⟩

/-! ## The rest of the payload -/

/-- **What is before the offset is left alone**, the rest is a payload of its own. -/
theorem rewriteFrom_append (before payload : List UInt8) :
    (rewriteFrom seqNum (before ++ payload) before.length).1 =
      before ++ rewriteSnapshotSeqNums payload seqNum := by
  have hcount : readLE UInt16 (before ++ payload) (before.length + kOffCellCount) =
      readLE UInt16 payload kOffCellCount := readLE_append_left before payload kOffCellCount
  rw [rewriteFrom, rewriteSnapshotSeqNums]
  dsimp only
  rw [hcount, List.length_append]
  generalize hsize : kUdpHeader + (readLE UInt16 payload kOffCellCount).toNat * kUdpCellEntry =
    packetSize
  by_cases hheader : kUdpHeader ≤ payload.length
  · rw [dif_pos (Nat.add_le_add_left hheader _), if_pos hheader]
    by_cases hpartial : packetSize > payload.length
    · rw [if_pos (Nat.add_lt_add_left hpartial _), if_pos hpartial]
    · have hpos : kUdpHeader ≤ packetSize := hsize ▸ Nat.le_add_right _ _
      have hlength : (payload.take packetSize).length = packetSize :=
        List.length_take_of_le (not_lt.mp hpartial)
      have hfield : kOffSeqNum + FixedWidth.size UInt32 ≤ (payload.take packetSize).length := by
        rw [hlength]
        exact le_trans (by decide) hpos
      have hshorter : (payload.drop packetSize).length < payload.length := by
        simp only [List.length_drop, kUdpHeader] at *
        omega
      -- the write changes the packet at the offset, the loop goes on behind it
      have hpatch : patchLE seqNum (before ++ payload) (before.length + kOffSeqNum) =
          (before ++ patchLE seqNum (payload.take packetSize) kOffSeqNum) ++
            payload.drop packetSize := by
        rw [patchLE_append_left, List.append_assoc, ← patchLE_append hfield, List.take_append_drop]
      have hoffset : before.length + packetSize =
          (before ++ patchLE seqNum (payload.take packetSize) kOffSeqNum).length := by
        rw [List.length_append, length_patchLE hfield, hlength]
      rw [if_neg (fun h => hpartial (Nat.lt_of_add_lt_add_left h)), if_neg hpartial, hpatch, hoffset,
        rewriteFrom_append, List.append_assoc]
  · rw [dif_neg (fun h => hheader (Nat.le_of_add_le_add_left h)), if_neg hheader]
termination_by payload.length
decreasing_by exact hshorter

/-- The function is the loop from the front. -/
theorem rewriteSnapshotSeqNums_eq (payload : List UInt8) :
    rewriteSnapshotSeqNums payload seqNum = (rewriteFrom seqNum payload 0).1 := by
  have h := rewriteFrom_append seqNum [] payload
  rw [List.nil_append, List.nil_append] at h
  exact h.symm

/-! ## Packets -/

namespace Packet

/-- Where the packets of a concatenation begin. -/
def offsetsFrom : ℕ → List Packet → List ℕ
  | _, [] => []
  | offset, p :: packets => offset :: offsetsFrom (offset + p.encode.length) packets

/-- **Every packet is visited**: the writes are those at the beginnings of the packets. -/
theorem rewriteFrom_encodeAll (before : List UInt8) (packets : List Packet) :
    (rewriteFrom seqNum (before ++ encodeAll packets) before.length).2 =
      offsetsFrom before.length packets := by
  induction packets generalizing before with
  | nil =>
    have hnot : ¬ before.length + kUdpHeader ≤ (before ++ encodeAll []).length := by
      rw [encodeAll, List.flatMap_nil, List.append_nil, kUdpHeader]
      omega
    rw [rewriteFrom, dif_neg hnot, offsetsFrom]
  | cons p packets ih =>
    have hlen := p.length_encode
    have htotal : (before ++ (p.encode ++ encodeAll packets)).length =
        before.length + (p.encode.length + (encodeAll packets).length) := by
      rw [List.length_append, List.length_append]
    have hcount : (readLE UInt16 (before ++ (p.encode ++ encodeAll packets))
        (before.length + kOffCellCount)).toNat = p.entries.length := by
      rw [readLE_append_left]
      exact p.cellCount_encode _
    have hfield : kOffSeqNum + FixedWidth.size UInt32 ≤ p.encode.length := by
      rw [hlen]
      exact le_trans (by decide) (Nat.le_add_right _ _)
    have hpatch : patchLE seqNum (before ++ (p.encode ++ encodeAll packets))
        (before.length + kOffSeqNum) =
        (before ++ (restamp seqNum p).encode) ++ encodeAll packets := by
      rw [patchLE_append_left, patchLE_append hfield, patch_encode, List.append_assoc]
    have hoffset : before.length + p.encode.length =
        (before ++ (restamp seqNum p).encode).length := by
      rw [List.length_append, (restamp seqNum p).length_encode, hlen]
      rfl
    rw [encodeAll_cons, rewriteFrom]
    dsimp only
    rw [hcount, ← hlen, dif_pos (by rw [htotal, hlen]; omega), if_neg (by rw [htotal]; omega), hpatch,
      hoffset, ih, offsetsFrom, hoffset]
    rfl

end Packet

open Packet

/-- **Restamping a cached snapshot.**  It is the snapshot serialized anew; the writes are
one for each packet, at its front.  On any payload the loop ends, keeps the length,
writes inside the payload, and changes no byte outside the fields it writes. -/
theorem rewriteSnapshotSeqNums_spec (chunks : List (ChunkCoord × Chunk)) (payload : List UInt8) :
    (rewriteSnapshotSeqNums (serializeFull 0 chunks) seqNum = serializeFull seqNum chunks ∧
      (rewriteFrom seqNum (serializeFull 0 chunks) 0).2 =
        offsetsFrom 0 (packetsOf 0 true (chunks.map fun e => (e.1, fullEntries e.2)))) ∧
    rewriteSnapshotSeqNums payload seqNum = (rewriteFrom seqNum payload 0).1 ∧
    (rewriteFrom seqNum payload 0).2.length * kUdpHeader ≤ payload.length ∧
    (rewriteSnapshotSeqNums payload seqNum).length = payload.length ∧
    (∀ o ∈ (rewriteFrom seqNum payload 0).2, o + (writeLE seqNum).length ≤ payload.length) ∧
    ∀ i, (∀ o ∈ (rewriteFrom seqNum payload 0).2, i < o ∨ o + (writeLE seqNum).length ≤ i) →
      (rewriteSnapshotSeqNums payload seqNum)[i]? = payload[i]? := by
  have hwithin := rewriteFrom_within seqNum payload 0
  rw [length_writeLE, rewriteSnapshotSeqNums_eq seqNum payload]
  refine ⟨⟨?_, ?_⟩, rfl, hwithin.2, ?_, hwithin.1, fun i hi => ?_⟩
  · exact rewriteSnapshotSeqNums_serializeFull seqNum chunks
  · rw [payload_serializeFull]
    exact rewriteFrom_encodeAll seqNum [] _
  · rw [rewriteFrom_eq_foldl, length_foldl_patchLE seqNum hwithin.1]
  · rw [rewriteFrom_eq_foldl, getElem?_foldl_patchLE seqNum hwithin.1 hi]

end Multilife

import Multilife.Foundations.Transition
import Multilife.Refinement.ClientModel
import Multilife.Server.CoordinateArithmetic

/-!
# An update of one chunk

What `applyUpdate` makes of the model, as a map: the keys a full packet erases, and the
entries that override what is left, from first to last (`lookup_applyUpdate`).

* `applyUpdate_fullSnapshot`: for a model that datagrams have built, no `floorDiv` of the
  erase pass overflows, and the pass erases the block of its chunk.
* `touchesOnlyItsChunk_iff`: a datagram reaches beyond its chunk exactly when a local
  coordinate of it is 64 or more, which the parser lets through.
-/

namespace Multilife.Client

open FiniteMap LittleEndian Overwrite Transition proto

/-! ## The block of a chunk -/

/-- The key lies in the 64 by 64 block of the chunk. -/
def InBlock (chunkX chunkY : Int32) (k : CellKey) : Prop :=
  (64 * chunkX.toInt ≤ k.x.toInt ∧ k.x.toInt ≤ 64 * chunkX.toInt + 63) ∧
    64 * chunkY.toInt ≤ k.y.toInt ∧ k.y.toInt ≤ 64 * chunkY.toInt + 63

instance (chunkX chunkY : Int32) (k : CellKey) : Decidable (InBlock chunkX chunkY k) :=
  inferInstanceAs (Decidable (_ ∧ _))

variable {chunkX chunkY : Int32} {k : CellKey}

theorem inBlock_iff : InBlock chunkX chunkY k ↔
    blockOf k.point = (⟨chunkX, chunkY⟩ : ChunkCoord).toBlock := by
  have hblock : blockOf k.point = (⟨chunkX, chunkY⟩ : ChunkCoord).toBlock ↔
      k.x.toInt / 64 = chunkX.toInt ∧ k.y.toInt / 64 = chunkY.toInt := Prod.mk_inj
  rw [hblock, InBlock]
  omega

/-- The test of the erase pass. -/
theorem outsideChunk_eq (chunkX chunkY : Int32) (k : CellKey) :
    WorldModel.outsideChunk chunkX chunkY k = !decide (InBlock chunkX chunkY k) := by
  rw [Bool.eq_iff_iff, outsideChunk_iff ⟨chunkX, chunkY⟩, ne_eq, ← inBlock_iff]
  simp

/-- The key of a parsed cell. -/
def cellKey (chunkX chunkY : Int32) (cell : UdpCellUpdate) : CellKey :=
  WorldModel.keyOf chunkX chunkY (GameNetworkClient.toAliveCell cell)

/-- The point of a parsed cell. -/
theorem toInt_cellKey (chunkX chunkY : Int32) (cell : UdpCellUpdate) :
    (cellKey chunkX chunkY cell).x.toInt = 64 * chunkX.toInt + cell.localX.toNat ∧
      (cellKey chunkX chunkY cell).y.toInt = 64 * chunkY.toInt + cell.localY.toNat := by
  have hpoint := point_keyOf_toAliveCell ⟨chunkX, chunkY⟩ cell
  exact ⟨congrArg Prod.fst hpoint, congrArg Prod.snd hpoint⟩

/-- A parsed cell lies in its block when its local coordinates do. -/
theorem inBlock_keyOf (chunkX chunkY : Int32) (cell : UdpCellUpdate) :
    InBlock chunkX chunkY (WorldModel.keyOf chunkX chunkY (GameNetworkClient.toAliveCell cell)) ↔
      cell.localX < 64 ∧ cell.localY < 64 := by
  obtain ⟨hx, hy⟩ := toInt_cellKey chunkX chunkY cell
  have h64 : (64 : UInt8).toNat = 64 := rfl
  rw [← cellKey, InBlock, hx, hy, UInt8.lt_iff_toNat_lt, UInt8.lt_iff_toNat_lt, h64]
  omega

/-! ## The map after an update -/

/-- The owners shown after the cells of a packet, from the first to the last; owner `0`
deletes. -/
def override (chunkX chunkY : Int32) (cells : List UdpCellUpdate)
    (shown : CellKey → Option UInt64) : CellKey → Option UInt64 :=
  cells.foldl (fun shown cell => Function.update shown (cellKey chunkX chunkY cell) (cellOwner cell))
    shown

/-- What the erase pass leaves. -/
def remaining (fullSnapshot : Bool) (chunkX chunkY : Int32) (m : WorldModel) (k : CellKey) :
    Option UInt64 :=
  if fullSnapshot ∧ InBlock chunkX chunkY k then none else m.aliveCells.lookup k

/-- The erase pass erases the block. -/
theorem lookup_erasePass (fullSnapshot : Bool) (chunkX chunkY : Int32) (m : WorldModel)
    (k : CellKey) :
    (if fullSnapshot then filter (fun key _ => WorldModel.outsideChunk chunkX chunkY key) m.aliveCells
      else m.aliveCells).lookup k = remaining fullSnapshot chunkX chunkY m k := by
  cases fullSnapshot with
  | false => simp [remaining]
  | true =>
    rw [if_pos rfl, lookup_filter, outsideChunk_eq, remaining]
    by_cases h : InBlock chunkX chunkY k
    · simp [h]
    · rw [decide_eq_false h, if_neg fun hblock => h hblock.2]
      cases m.aliveCells.lookup k <;> rfl

/-- The insert pass, from whatever the erase pass has left. -/
theorem lookup_foldl_applyCell (chunkX chunkY : Int32) (cells : List UdpCellUpdate)
    (start : Finmap fun _ : CellKey => UInt64) (k : CellKey) :
    (cells.foldl (fun acc cell => WorldModel.applyCell chunkX chunkY acc
      (GameNetworkClient.toAliveCell cell)) start).lookup k =
      override chunkX chunkY cells start.lookup k := by
  induction cells generalizing start with
  | nil => rfl
  | cons cell cells ih =>
    have hstep : (WorldModel.applyCell chunkX chunkY start
        (GameNetworkClient.toAliveCell cell)).lookup =
        Function.update start.lookup (cellKey chunkX chunkY cell) (cellOwner cell) := by
      ext1 k
      have hkey : cellPoint ⟨chunkX, chunkY⟩ cell = k.point ↔ k = cellKey chunkX chunkY cell := by
        rw [← point_keyOf_toAliveCell, CellKey.point_injective.eq_iff]
        exact eq_comm
      rw [lookup_applyCell_toAliveCell ⟨chunkX, chunkY⟩, Function.update_apply]
      simp only [hkey]
    rw [List.foldl_cons, ih, hstep]
    rfl

/-- **An update on the map**: the erase pass, overridden by the cells of the packet. -/
theorem lookup_applyUpdate (m : WorldModel) (seqNum : UInt32) (fullSnapshot : Bool)
    (chunkX chunkY : Int32) (cells : List UdpCellUpdate) (k : CellKey) :
    (m.applyUpdate seqNum fullSnapshot chunkX chunkY
        (cells.map GameNetworkClient.toAliveCell)).aliveCells.lookup k =
      override chunkX chunkY cells (remaining fullSnapshot chunkX chunkY m) k := by
  rw [WorldModel.applyUpdate, List.foldl_map, lookup_foldl_applyCell]
  congr 1
  ext1 k
  exact lookup_erasePass fullSnapshot chunkX chunkY m k

/-- What a datagram makes of a model. -/
theorem ownerAt_receive {datagram : List UInt8} {parsed : ParsedUdpWorldPacket}
    (h : parseUdpWorldPacket datagram = some parsed) (c : ClientState) (k : CellKey) :
    (c.receive datagram).ownerAt k =
      override parsed.chunkX parsed.chunkY parsed.cells
        (remaining parsed.fullSnapshot parsed.chunkX parsed.chunkY c.model) k := by
  rw [← lookup_applyUpdate c.model parsed.seqNum, ClientState.ownerAt, ClientState.receive,
    GameNetworkClient.applyDatagram, h]

/-! ## Models that datagrams build -/

/-- A key that some packet can name. -/
def Nameable (k : CellKey) : Prop := ∃ chunkX chunkY cell, cellKey chunkX chunkY cell = k

theorem nameable_receive {c : ClientState} (hc : ∀ k ∈ c.model.aliveCells, Nameable k)
    (datagram : List UInt8) {k : CellKey} (hk : k ∈ (c.receive datagram).model.aliveCells) :
    Nameable k := by
  cases hparse : parseUdpWorldPacket datagram with
  | none =>
    rw [ClientState.receive, GameNetworkClient.applyDatagram, hparse] at hk
    exact hc k hk
  | some parsed =>
    obtain ⟨owner, howner⟩ := Finmap.mem_iff.mp hk
    have hshown := ownerAt_receive hparse c k
    rw [ClientState.ownerAt, howner, override, foldl_update] at hshown
    cases hlast : lastWrite (cellKey parsed.chunkX parsed.chunkY) cellOwner parsed.cells k with
    | none =>
      rw [hlast, Option.getD_none, remaining] at hshown
      split_ifs at hshown
      exact hc k (Finmap.mem_of_lookup_eq_some hshown.symm)
    | some v =>
      -- some cell of the packet has this key
      by_contra hnot
      have hnone : lastWrite (cellKey parsed.chunkX parsed.chunkY) cellOwner parsed.cells k = none :=
        lastWrite_eq_none.mpr fun cell _ hkey => hnot ⟨_, _, cell, hkey⟩
      rw [hnone] at hlast
      cases hlast

/-- **Every key of a model that datagrams have built is nameable.** -/
theorem nameable_of_datagrams (network : GameNetworkClient) (datagrams : List (List UInt8)) :
    ∀ k ∈ (datagrams.foldl ClientState.receive { network := network }).model.aliveCells,
      Nameable k := by
  refine foldl_invariant' (I := fun c : ClientState => ∀ k ∈ c.model.aliveCells, Nameable k)
    (fun c datagram hc k hk => nameable_receive hc datagram hk) ?_
  exact fun k hk => absurd hk Finmap.notMem_empty

/-- The signed operations of `floorDiv` on a negative value. -/
def floorDivOps (value divisor : Int64) : List CoordOp :=
  if value ≥ 0 then [] else [.sub64 value divisor, .add64 (value - divisor) 1]

theorem not_overflows_floorDivOps {v : Int64} (h : -2 ^ 63 + 64 ≤ v.toInt) :
    ∀ op ∈ floorDivOps v kChunkWidth.toInt64, ¬ op.Overflows := by
  have hhigh := v.toInt_lt
  have h64 : kChunkWidth.toInt64.toInt = 64 := by decide
  have hone : (1 : Int64).toInt = 1 := by decide
  intro op hop
  unfold floorDivOps at hop
  split_ifs at hop with hv
  · cases hop
  · have hsub : (v - kChunkWidth.toInt64).toInt = v.toInt - 64 := by
      rw [Int64.toInt_sub, h64]
      exact Int.bmod_eq_of_le (by omega) (by omega)
    rcases List.mem_cons.mp hop with rfl | hop
    · simp only [CoordOp.Overflows, CoordOp.value, h64]
      omega
    · rw [List.mem_singleton.mp hop]
      simp only [CoordOp.Overflows, CoordOp.value, hsub, hone]
      omega

/-- **A full snapshot packet clears exactly its chunk.**  In a model that datagrams have
built, no `floorDiv` of the erase pass overflows, and each is floor division by 64; the
pass removes the keys of the chunk's block; and the map afterwards is what remains,
overridden by the cells of the packet from the first to the last. -/
theorem applyUpdate_fullSnapshot (network : GameNetworkClient) (datagrams : List (List UInt8))
    (seqNum : UInt32) (chunkX chunkY : Int32) (cells : List UdpCellUpdate) :
    let m := (datagrams.foldl ClientState.receive { network := network }).model
    (∀ k ∈ m.aliveCells,
      (∀ op ∈ floorDivOps k.x kChunkWidth.toInt64 ++ floorDivOps k.y kChunkHeight.toInt64,
        ¬ op.Overflows) ∧
      (floorDiv k.x kChunkWidth.toInt64).toInt = k.x.toInt.fdiv 64 ∧
      (floorDiv k.y kChunkHeight.toInt64).toInt = k.y.toInt.fdiv 64) ∧
    (∀ k, (filter (fun key _ => WorldModel.outsideChunk chunkX chunkY key) m.aliveCells).lookup k =
      if InBlock chunkX chunkY k then none else m.aliveCells.lookup k) ∧
    (∀ cell, (cellKey chunkX chunkY cell).x.toInt = 64 * chunkX.toInt + cell.localX.toNat ∧
      (cellKey chunkX chunkY cell).y.toInt = 64 * chunkY.toInt + cell.localY.toNat) ∧
    ∀ k, (m.applyUpdate seqNum true chunkX chunkY
        (cells.map GameNetworkClient.toAliveCell)).aliveCells.lookup k =
      override chunkX chunkY cells
        (fun k => if InBlock chunkX chunkY k then none else m.aliveCells.lookup k) k := by
  intro m
  have hremaining : remaining true chunkX chunkY m =
      fun k => if InBlock chunkX chunkY k then none else m.aliveCells.lookup k :=
    funext fun k => by simp [remaining]
  refine ⟨fun k hk => ?_, fun k => ?_, toInt_cellKey chunkX chunkY, fun k => ?_⟩
  · obtain ⟨cx, cy, cell, rfl⟩ := nameable_of_datagrams network datagrams k hk
    obtain ⟨hx, hy⟩ := toInt_cellKey cx cy cell
    have hcx := cx.le_toInt
    have hcy := cy.le_toInt
    have hxlow : -2 ^ 63 + 64 ≤ (cellKey cx cy cell).x.toInt := by omega
    have hylow : -2 ^ 63 + 64 ≤ (cellKey cx cy cell).y.toInt := by omega
    rw [show kChunkHeight = kChunkWidth from rfl]
    refine ⟨fun op hop => ?_, ?_, ?_⟩
    · rcases List.mem_append.mp hop with hop | hop
      · exact not_overflows_floorDivOps hxlow op hop
      · exact not_overflows_floorDivOps hylow op hop
    · rw [toInt_floorDiv (by omega), Int.fdiv_eq_ediv_of_nonneg _ (by decide)]
    · rw [toInt_floorDiv (by omega), Int.fdiv_eq_ediv_of_nonneg _ (by decide)]
  · rw [← congrFun hremaining k, ← lookup_erasePass, if_pos rfl]
  · rw [lookup_applyUpdate, hremaining]

/-! ## Datagrams from anywhere -/

/-- What is said of the local coordinates of all parsed cells is said of their bytes. -/
theorem forall_mem_readCells {P : UInt8 → UInt8 → Prop} {n : ℕ} {cursor : List UInt8} :
    (∀ cell ∈ readCells n cursor, P cell.localX cell.localY) ↔
      ∀ i < n, P (cursor.getD (i * kUdpCellEntry) 0) (cursor.getD (i * kUdpCellEntry + 1) 0) := by
  have hdrop : ∀ (cursor : List UInt8) j,
      (cursor.drop kUdpCellEntry).getD j 0 = cursor.getD (kUdpCellEntry + j) 0 := by
    intro cursor j
    rw [List.getD_eq_getElem?_getD, List.getD_eq_getElem?_getD, List.getElem?_drop]
  induction n generalizing cursor with
  | zero => simp [readCells]
  | succ n ih =>
    rw [readCells, List.forall_mem_cons]
    refine (and_congr_right fun _ => ih).trans ?_
    constructor
    · rintro ⟨hfirst, hlater⟩ i hi
      cases i with
      | zero =>
        rw [Nat.zero_mul]
        exact hfirst
      | succ i =>
        have h := hlater i (by omega)
        rw [hdrop, hdrop] at h
        rw [Nat.succ_mul, Nat.add_comm (i * kUdpCellEntry), Nat.add_assoc]
        exact h
    · intro h
      refine ⟨?_, fun i hi => ?_⟩
      · have hfirst := h 0 (by omega)
        rw [Nat.zero_mul] at hfirst
        exact hfirst
      · have hlater := h (i + 1) (by omega)
        rw [Nat.succ_mul, Nat.add_comm (i * kUdpCellEntry), Nat.add_assoc] at hlater
        rw [hdrop, hdrop]
        exact hlater

/-- The datagram changes no key outside the block of the chunk its header names. -/
def TouchesOnlyItsChunk (datagram : List UInt8) (c : ClientState) : Prop :=
  ∀ k, ¬ InBlock (readLE Int32 datagram kOffChunkX) (readLE Int32 datagram kOffChunkY) k →
    (c.receive datagram).ownerAt k = c.ownerAt k

/-- The chunk a parsed datagram names is that of its header, its cells are those behind it. -/
theorem parsed_fields {datagram : List UInt8} {parsed : ParsedUdpWorldPacket}
    (h : parseUdpWorldPacket datagram = some parsed) :
    parsed.chunkX = readLE Int32 datagram kOffChunkX ∧
      parsed.chunkY = readLE Int32 datagram kOffChunkY ∧
      parsed.cells = readCells (readLE UInt16 datagram kOffCellCount).toNat
        (datagram.drop kUdpHeader) := by
  rw [parseUdpWorldPacket] at h
  dsimp only at h
  split_ifs at h
  cases h
  exact ⟨rfl, rfl, rfl⟩

/-- Outside the block, a datagram writes what its last cell for a key says. -/
theorem touchesOnlyItsChunk_iff_lastWrite {datagram : List UInt8} {parsed : ParsedUdpWorldPacket}
    (h : parseUdpWorldPacket datagram = some parsed) (c : ClientState) :
    TouchesOnlyItsChunk datagram c ↔ ∀ k, ¬ InBlock parsed.chunkX parsed.chunkY k →
      ∀ v, lastWrite (cellKey parsed.chunkX parsed.chunkY) cellOwner parsed.cells k = some v →
        v = c.ownerAt k := by
  obtain ⟨hx, hy, -⟩ := parsed_fields h
  rw [TouchesOnlyItsChunk, ← hx, ← hy]
  refine forall_congr' fun k => imp_congr_right fun hk => ?_
  have hkept : remaining parsed.fullSnapshot parsed.chunkX parsed.chunkY c.model k = c.ownerAt k := by
    rw [remaining, if_neg fun hblock => hk hblock.2, ClientState.ownerAt]
  rw [ownerAt_receive h, override, foldl_update, hkept]
  cases lastWrite (cellKey parsed.chunkX parsed.chunkY) cellOwner parsed.cells k with
  | none => simp
  | some v => simp

/-- **When a datagram touches only its chunk.**  An accepted datagram leaves every key
outside the block of its chunk alone, in whatever model it meets, exactly when every cell
it lists has local coordinates below 64. -/
theorem touchesOnlyItsChunk_iff {datagram : List UInt8}
    (haccepted : (parseUdpWorldPacket datagram).isSome) :
    (∀ c, TouchesOnlyItsChunk datagram c) ↔
      ∀ i < (readLE UInt16 datagram kOffCellCount).toNat,
        datagram.getD (kUdpHeader + i * kUdpCellEntry) 0 < 64 ∧
        datagram.getD (kUdpHeader + i * kUdpCellEntry + 1) 0 < 64 := by
  obtain ⟨parsed, hparse⟩ := Option.isSome_iff_exists.mp haccepted
  obtain ⟨hx, hy, hcells⟩ := parsed_fields hparse
  have hbytes : (∀ cell ∈ parsed.cells, cell.localX < 64 ∧ cell.localY < 64) ↔
      ∀ i < (readLE UInt16 datagram kOffCellCount).toNat,
        datagram.getD (kUdpHeader + i * kUdpCellEntry) 0 < 64 ∧
        datagram.getD (kUdpHeader + i * kUdpCellEntry + 1) 0 < 64 := by
    rw [hcells, forall_mem_readCells (P := fun x y => x < 64 ∧ y < 64)]
    simp only [List.getD_eq_getElem?_getD, List.getElem?_drop, Nat.add_assoc]
  rw [← hbytes]
  simp only [touchesOnlyItsChunk_iff_lastWrite hparse]
  constructor
  · intro h cell hcell
    by_contra hout
    rw [← inBlock_keyOf parsed.chunkX parsed.chunkY] at hout
    cases hlast : lastWrite (cellKey parsed.chunkX parsed.chunkY) cellOwner parsed.cells
        (cellKey parsed.chunkX parsed.chunkY cell) with
    | none => exact lastWrite_eq_none.mp hlast cell hcell rfl
    | some v =>
      -- one of two models does not hold what is written
      have hempty := h {} _ hout v hlast
      have hfull := h ⟨{}, ⟨Finmap.insert (cellKey parsed.chunkX parsed.chunkY cell) 1 ∅, 0⟩⟩ _ hout
        v hlast
      rw [hempty, ClientState.ownerAt, ClientState.ownerAt, cellKey, Finmap.lookup_insert,
        Finmap.lookup_empty] at hfull
      cases hfull
  · intro h c k hk v hlast
    have hnone : lastWrite (cellKey parsed.chunkX parsed.chunkY) cellOwner parsed.cells k = none :=
      lastWrite_eq_none.mpr fun cell hcell hkey => hk (by
        rw [← hkey]
        exact (inBlock_keyOf parsed.chunkX parsed.chunkY cell).mpr (h cell hcell))
    rw [hnone] at hlast
    cases hlast

/-- A delta for chunk (0, 0) with one live cell of player 7 in row 0. -/
def oneCell (localX : UInt8) : List UInt8 :=
  [1, 0, 0, 0, 0, 0, 0, 0, 0, 0, 0, 0, 0, 1, 0, localX, 0, 1, 7, 0, 0, 0, 0, 0, 0, 0]

/-- The last cell of the row is in the chunk, and the cell beside it stays as it was. -/
theorem touchesOnlyItsChunk_oneCell :
    TouchesOnlyItsChunk (oneCell 63) ⟨{}, ⟨Finmap.singleton ⟨64, 0⟩ 9, 0⟩⟩ := by
  have haccepted : (parseUdpWorldPacket (oneCell 63)).isSome := by decide
  exact (touchesOnlyItsChunk_iff haccepted).mpr (by decide) _

/-- The next is in the chunk beside it, and the parser accepts it. -/
theorem not_touchesOnlyItsChunk_oneCell :
    (parseUdpWorldPacket (oneCell 64)).isSome ∧ ¬ TouchesOnlyItsChunk (oneCell 64) {} := by
  refine ⟨by decide, fun h => ?_⟩
  have hkey := h ⟨64, 0⟩ (by decide)
  revert hkey
  decide

end Multilife.Client

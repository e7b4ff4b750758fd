import Multilife.Abstract.Plane
import Multilife.Foundations.Overwrite
import Multilife.Refinement.UdpFraming

/-!
# The client's model, key by key

A key of the model is a point of the plane, and a packet is a list of overwrites
of such points.  For one key, a packet either leaves the owner it has alone or
sets it to something that depends only on the packet: `keeps_packet`,
`sets_packet`, `sets_packet_of_block`.  What a sequence of datagrams does to a
model then follows from the rules of `Overwrite`, without looking at the map
again.
-/

namespace Multilife.Client

open FiniteMap Overwrite proto

/-! ## Keys and points -/

/-- The point of a key. -/
def CellKey.point (k : CellKey) : ℤ × ℤ := (k.x.toInt, k.y.toInt)

theorem CellKey.point_injective : Function.Injective CellKey.point := by
  intro k k' h
  ext1
  · exact Int64.toInt_inj.mp (congrArg Prod.fst h)
  · exact Int64.toInt_inj.mp (congrArg Prod.snd h)

/-- The base coordinate of a chunk and a small offset do not overflow. -/
theorem toInt_base_add (c : Int32) {n : ℕ} (hn : n < 256) :
    (c.toInt64 * kChunkWidth.toInt64 + Int64.ofNat n).toInt = 64 * c.toInt + n := by
  have hlow := c.le_toInt
  have hhigh := c.toInt_lt
  have h64 : kChunkWidth.toInt64.toInt = 64 := by decide
  have hn' : (Int64.ofNat n).toInt = n := Int64.toInt_ofNat_of_lt (by omega)
  have hbase : (c.toInt64 * kChunkWidth.toInt64).toInt = 64 * c.toInt := by
    rw [Int64.toInt_mul, Int32.toInt_toInt64, h64, Int.mul_comm]
    exact Int.bmod_eq_of_le (by omega) (by omega)
  rw [Int64.toInt_add, hbase, hn']
  exact Int.bmod_eq_of_le (by omega) (by omega)

/-- **`floorDiv` is floor division** where its subtraction does not wrap. -/
theorem toInt_floorDiv {v : Int64} (h : -2 ^ 63 ≤ v.toInt - 64 + 1) :
    (floorDiv v kChunkWidth.toInt64).toInt = v.toInt / 64 := by
  have hvhigh := v.toInt_lt
  have h64 : kChunkWidth.toInt64.toInt = 64 := by decide
  have hone : (1 : Int64).toInt = 1 := by decide
  have hpos : ¬ kChunkWidth.toInt64 ≤ 0 := by decide
  have hne : kChunkWidth.toInt64 ≠ -1 := by decide
  rw [floorDiv, if_neg hpos]
  by_cases hv : v ≥ 0
  · have hv' : 0 ≤ v.toInt := Int64.le_iff_toInt_le.mp hv
    rw [if_pos hv, Int64.toInt_div_of_ne_right _ _ hne, h64, Int.tdiv_eq_ediv_of_nonneg hv']
  · have hv' : v.toInt < 0 := by
      by_contra h
      exact hv (Int64.le_iff_toInt_le.mpr (not_lt.mp h))
    have hsmall : (v.toInt - 64 + 1).bmod (2 ^ 64) = v.toInt - 64 + 1 :=
      Int.bmod_eq_of_le (by omega) (by omega)
    have hneg : v.toInt - 64 + 1 = -(63 - v.toInt) := by omega
    rw [if_neg hv, Int64.toInt_div_of_ne_right _ _ hne, h64, Int64.toInt_add, Int64.toInt_sub,
      h64, hone, Int.bmod_add_bmod, hsmall, hneg, Int.neg_tdiv,
      Int.tdiv_eq_ediv_of_nonneg (by omega)]
    omega

/-- **`floorDiv` finds the chunk of a key.**  Keys so close to the least integer
that the subtraction wraps belong to no chunk, and are not taken for one. -/
theorem floorDiv_eq_iff (v : Int64) (c : Int32) :
    floorDiv v kChunkWidth.toInt64 = c.toInt64 ↔ v.toInt / 64 = c.toInt := by
  have hlow := c.le_toInt
  have hhigh := c.toInt_lt
  have hvlow := v.le_toInt
  rw [← Int64.toInt_inj, Int32.toInt_toInt64]
  by_cases hwrap : -2 ^ 63 ≤ v.toInt - 64 + 1
  · rw [toInt_floorDiv hwrap]
  · have h64 : kChunkWidth.toInt64.toInt = 64 := by decide
    have hone : (1 : Int64).toInt = 1 := by decide
    have hpos : ¬ kChunkWidth.toInt64 ≤ 0 := by decide
    have hne : kChunkWidth.toInt64 ≠ -1 := by decide
    have hv : ¬ v ≥ 0 := fun h => by
      have hv' : 0 ≤ v.toInt := Int64.le_iff_toInt_le.mp h
      omega
    have hbig : (v.toInt - 64 + 1).bmod (2 ^ 64) = v.toInt - 64 + 1 + 2 ^ 64 := by
      rw [← Int.add_bmod_right]
      exact Int.bmod_eq_of_le (by omega) (by omega)
    rw [floorDiv, if_neg hpos, if_neg hv, Int64.toInt_div_of_ne_right _ _ hne, h64,
      Int64.toInt_add, Int64.toInt_sub, h64, hone, Int.bmod_add_bmod, hbig,
      Int.tdiv_eq_ediv_of_nonneg (by omega)]
    omega

/-- The erase pass erases the block of the chunk. -/
theorem outsideChunk_iff (c : ChunkCoord) (k : CellKey) :
    WorldModel.outsideChunk c.x c.y k = true ↔ blockOf k.point ≠ c.toBlock := by
  have hx := floorDiv_eq_iff k.x c.x
  have hy := floorDiv_eq_iff k.y c.y
  have hblock : blockOf k.point = c.toBlock ↔
      k.x.toInt / 64 = c.x.toInt ∧ k.y.toInt / 64 = c.y.toInt := Prod.mk_inj
  rw [WorldModel.outsideChunk, Bool.not_eq_true', Bool.and_eq_false_iff, beq_eq_false_iff_ne,
    beq_eq_false_iff_ne, ne_eq, ne_eq, ne_eq, hblock, hx, show kChunkHeight = kChunkWidth from rfl,
    hy, not_and_or]

/-! ## Entries -/

/-- The point of a parsed cell of a chunk. -/
def cellPoint (c : ChunkCoord) (cell : UdpCellUpdate) : ℤ × ℤ :=
  pointOf c.toBlock cell.localX.toNat cell.localY.toNat

/-- What a parsed cell makes of its point. -/
def cellOwner (cell : UdpCellUpdate) : Option UInt64 :=
  if cell.alive && cell.owner != 0 then some cell.owner else none

/-- The key of a parsed cell is the key of its point. -/
theorem point_keyOf_toAliveCell (c : ChunkCoord) (cell : UdpCellUpdate) :
    (WorldModel.keyOf c.x c.y (GameNetworkClient.toAliveCell cell)).point = cellPoint c cell := by
  ext
  · exact toInt_base_add c.x cell.localX.toNat_lt
  · exact toInt_base_add c.y cell.localY.toNat_lt

/-- One parsed cell overwrites one point. -/
theorem lookup_applyCell_toAliveCell (c : ChunkCoord) (cells : Finmap fun _ : CellKey => UInt64)
    (cell : UdpCellUpdate) (k : CellKey) :
    (WorldModel.applyCell c.x c.y cells (GameNetworkClient.toAliveCell cell)).lookup k =
      if cellPoint c cell = k.point then cellOwner cell else cells.lookup k := by
  have hkey : cellPoint c cell = k.point ↔
      k = WorldModel.keyOf c.x c.y (GameNetworkClient.toAliveCell cell) := by
    rw [← point_keyOf_toAliveCell, CellKey.point_injective.eq_iff]
    exact eq_comm
  have howner : (GameNetworkClient.toAliveCell cell).owner = if cell.alive then cell.owner else 0 := rfl
  unfold WorldModel.applyCell cellOwner
  by_cases h : cellPoint c cell = k.point
  · rw [if_pos h, hkey.mp h]
    cases halive : cell.alive with
    | true =>
      rw [howner, halive, if_pos rfl, Bool.true_and]
      by_cases hzero : cell.owner = 0
      · rw [if_pos hzero, Finmap.lookup_erase]
        simp [hzero]
      · rw [if_neg hzero, Finmap.lookup_insert]
        simp [hzero]
    | false =>
      rw [howner, halive, if_neg Bool.false_ne_true, if_pos rfl, Finmap.lookup_erase]
      rfl
  · have hne : k ≠ WorldModel.keyOf c.x c.y (GameNetworkClient.toAliveCell cell) :=
      fun hk => h (hkey.mpr hk)
    rw [if_neg h]
    split_ifs
    · exact Finmap.lookup_erase_ne hne
    · exact Finmap.lookup_insert_of_ne _ hne

/-- The point of an entry of a chunk. -/
def entryPoint (c : ChunkCoord) (e : Entry) : ℤ × ℤ := pointOf c.toBlock e.x.toNat e.y.toNat

/-- What an entry makes of its point. -/
def entryOwner (e : Entry) : Option UInt64 :=
  if e.alive != 0 && e.owner != 0 then some e.owner else none

/-- The update the client makes of an entry. -/
def entryUpdate (e : Entry) : AliveCell := GameNetworkClient.toAliveCell (Packet.toUpdate e)

/-- One entry overwrites one point. -/
theorem lookup_applyCell (c : ChunkCoord) (cells : Finmap fun _ : CellKey => UInt64) (e : Entry)
    (k : CellKey) :
    (WorldModel.applyCell c.x c.y cells (entryUpdate e)).lookup k =
      if entryPoint c e = k.point then entryOwner e else cells.lookup k :=
  lookup_applyCell_toAliveCell c cells (Packet.toUpdate e) k

/-! ## Packets -/

/-- The owner the client shows at a key. -/
def ClientState.ownerAt (k : CellKey) (c : ClientState) : Option UInt64 :=
  c.model.aliveCells.lookup k

/-- The model after an encoded packet. -/
theorem model_receive_encode (c : ClientState) (p : Packet) :
    (c.receive p.encode).model =
      c.model.applyUpdate p.seqNum p.full p.coord.x p.coord.y (p.entries.map entryUpdate) := by
  unfold ClientState.receive GameNetworkClient.applyDatagram
  rw [Packet.parseUdpWorldPacket_encode]
  dsimp only
  rw [List.map_map]
  rfl

/-- The model of a client at a key, after an encoded packet: the erase pass, then
the entries one by one. -/
theorem ownerAt_receive_encode (c : ClientState) (p : Packet) (k : CellKey) :
    (c.receive p.encode).ownerAt k =
      (p.entries.foldl (fun cells e => WorldModel.applyCell p.coord.x p.coord.y cells (entryUpdate e))
        (if p.full then
          filter (fun key _ => WorldModel.outsideChunk p.coord.x p.coord.y key) c.model.aliveCells
        else c.model.aliveCells)).lookup k := by
  rw [ClientState.ownerAt, model_receive_encode, WorldModel.applyUpdate, List.foldl_map]

variable {p : Packet} {k : CellKey}

/-- Entries that do not name a key leave it alone. -/
theorem lookup_foldl_of_unnamed (hentries : ∀ e ∈ p.entries, entryPoint p.coord e ≠ k.point)
    (cells : Finmap fun _ : CellKey => UInt64) :
    (p.entries.foldl (fun cells e => WorldModel.applyCell p.coord.x p.coord.y cells (entryUpdate e))
      cells).lookup k = cells.lookup k :=
  read_foldl_of_keeps
    (f := fun cells e => WorldModel.applyCell p.coord.x p.coord.y cells (entryUpdate e))
    (r := fun cells : Finmap fun _ : CellKey => UInt64 => cells.lookup k)
    (fun e he cells => (lookup_applyCell p.coord cells e k).trans (if_neg (hentries e he))) cells

/-- **A packet that does not name a key leaves it alone**, unless it is a full
packet of the key's chunk. -/
theorem keeps_packet (hentries : ∀ e ∈ p.entries, entryPoint p.coord e ≠ k.point)
    (hblock : p.full = true → blockOf k.point ≠ p.coord.toBlock) :
    Keeps ClientState.receive (ClientState.ownerAt k) p.encode := by
  intro c
  rw [ownerAt_receive_encode, lookup_foldl_of_unnamed hentries]
  cases hfull : p.full with
  | false => rfl
  | true =>
    rw [if_pos rfl, lookup_filter, (outsideChunk_iff p.coord k).mpr (hblock hfull)]
    show Option.filter _ (c.model.aliveCells.lookup k) = c.model.aliveCells.lookup k
    cases c.model.aliveCells.lookup k with
    | none => rfl
    | some owner => rfl

/-- **A packet that names a key sets it**, when its entries for that key agree. -/
theorem sets_packet {v : Option UInt64}
    (hagree : ∀ e ∈ p.entries, entryPoint p.coord e = k.point → entryOwner e = v)
    (hex : ∃ e ∈ p.entries, entryPoint p.coord e = k.point) :
    Sets ClientState.receive (ClientState.ownerAt k) p.encode v := by
  intro c
  rw [ownerAt_receive_encode]
  obtain ⟨e, he, hpoint⟩ := hex
  refine read_foldl_of_agree
    (f := fun cells e => WorldModel.applyCell p.coord.x p.coord.y cells (entryUpdate e))
    (r := fun cells : Finmap fun _ : CellKey => UInt64 => cells.lookup k)
    (fun e he => ?_) ⟨e, he, fun cells => ?_⟩ _
  · by_cases h : entryPoint p.coord e = k.point
    · refine Or.inr fun cells => (lookup_applyCell p.coord cells e k).trans ?_
      rw [if_pos h, hagree e he h]
    · exact Or.inl fun cells => (lookup_applyCell p.coord cells e k).trans (if_neg h)
  · refine (lookup_applyCell p.coord cells e k).trans ?_
    rw [if_pos hpoint, hagree e he hpoint]

/-- **A full packet clears its chunk** where it names nothing. -/
theorem sets_packet_of_block (hfull : p.full = true) (hblock : blockOf k.point = p.coord.toBlock)
    (hentries : ∀ e ∈ p.entries, entryPoint p.coord e ≠ k.point) :
    Sets ClientState.receive (ClientState.ownerAt k) p.encode none := by
  intro c
  have hinside : WorldModel.outsideChunk p.coord.x p.coord.y k = false := by
    rw [← Bool.not_eq_true, outsideChunk_iff]
    exact fun h => h hblock
  rw [ownerAt_receive_encode, lookup_foldl_of_unnamed hentries]
  rw [hfull, if_pos rfl, lookup_filter, hinside]
  show Option.filter _ (c.model.aliveCells.lookup k) = none
  cases c.model.aliveCells.lookup k with
  | none => rfl
  | some owner => rfl

/-! ## A model that shows a plane -/

/-- What a client shows for a cell. -/
def liveOwner (cell : CellState) : Option PlayerId := if cell.alive then some cell.owner else none

/-- The model maps exactly the live cells of the plane to their owners. -/
def WorldModel.Shows (m : WorldModel) (g : Plane) : Prop :=
  ∀ k : CellKey, m.aliveCells.lookup k = liveOwner (g k.point)

/-- Every live cell of a world has a key. -/
theorem exists_key_of_alive {w : World} {q : ℤ × ℤ} (hq : (w.cellAt q).alive = true) :
    ∃ k : CellKey, k.point = q := by
  rcases World.point_cases q with ⟨c, x, y, hx, hy, rfl⟩ | hnone
  · rw [show ChunkWidth = 64 from rfl] at hx
    rw [show ChunkHeight = 64 from rfl] at hy
    refine ⟨⟨c.x.toInt64 * kChunkWidth.toInt64 + Int64.ofNat x,
      c.y.toInt64 * kChunkHeight.toInt64 + Int64.ofNat y⟩, ?_⟩
    ext
    · exact toInt_base_add c.x (by omega)
    · exact toInt_base_add c.y (by omega)
  · rw [World.cellAt_of_not_block w hnone] at hq
    exact absurd hq Bool.false_ne_true

end Multilife.Client

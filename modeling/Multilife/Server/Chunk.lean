import Mathlib.Data.Finmap
import Mathlib.Logic.Function.Basic
import Mathlib.Data.Fintype.Basic
import Multilife.Foundations.Overwrite
import Multilife.Foundations.Plurality
import Multilife.Server.Types

/-!
# Chunks

`Chunk.hpp` and `Chunk.cpp`.  A chunk stores its 64 x 64 cells with a border of
ghost cells around them, twice: the current buffer and the one the next
generation is written to.  Every write through `setCell`, and every birth and
death in `calculateNext`, is recorded in the list of dirty cells.

The file ends with what the operations do, one lemma for each: reading a cell
after a write, and `calculateNext_spec` for the generation, which says what is
written to the other buffer and which cells are reported dirty.  The callers use
these and never unfold a loop.
-/

namespace Multilife

open Plurality

namespace Chunk

def InnerWidth : ℕ := ChunkWidth
def InnerHeight : ℕ := ChunkHeight
def GhostBorder : ℕ := 1
def TotalWidth : ℕ := InnerWidth + 2 * GhostBorder
def TotalHeight : ℕ := InnerHeight + 2 * GhostBorder
def TotalCells : ℕ := TotalWidth * TotalHeight

/-- `Chunk::DirtyCell`. -/
structure DirtyCell where
  x : UInt8
  y : UInt8
  deriving DecidableEq, Repr

/-- `std::array<CellState, TotalCells>`. -/
abbrev Buffer := Vector CellState TotalCells

def readCell (buffer : Buffer) (i : ℕ) : CellState := buffer[i]?.getD {}

def writeCell (buffer : Buffer) (i : ℕ) (state : CellState) : Buffer :=
  buffer.setIfInBounds i state

def index (storageX storageY : ℕ) : ℕ := toIndex storageX storageY TotalWidth

end Chunk

/-- `Chunk`: `m_currentBufferIndex`, `m_buffers`, `m_dirtyCells`. -/
structure Chunk where
  currentBufferIndex : Fin 2 := ⟨0, Nat.two_pos⟩
  buffers : Fin 2 → Chunk.Buffer := fun _ => Vector.replicate Chunk.TotalCells {}
  dirtyCells : List Chunk.DirtyCell := []

namespace Chunk

/-- The buffer that is read: `m_buffers[m_currentBufferIndex]`. -/
def current (c : Chunk) : Buffer := c.buffers c.currentBufferIndex

/-! ## The operations -/

def getCell (c : Chunk) (x y : ℕ) : CellState :=
  readCell c.current (index (x + GhostBorder) (y + GhostBorder))

def setCell (c : Chunk) (x y : ℕ) (state : CellState) : Chunk where
  currentBufferIndex := c.currentBufferIndex
  buffers := Function.update c.buffers c.currentBufferIndex
    (writeCell c.current (toIndex (x + GhostBorder) (y + GhostBorder) TotalWidth) state)
  dirtyCells := c.dirtyCells ++ [⟨UInt8.ofNat x, UInt8.ofNat y⟩]

def getGhostCell (c : Chunk) (storageX storageY : ℕ) : CellState :=
  readCell c.current (index storageX storageY)

def setGhostCell (c : Chunk) (storageX storageY : ℕ) (state : CellState) : Chunk :=
  { c with
    buffers := Function.update c.buffers c.currentBufferIndex
      (writeCell c.current (index storageX storageY) state) }

/-- The test `cell.alive && cell.owner != 0`. -/
def isOwnedAlive (cell : CellState) : Bool := cell.alive && cell.owner != 0

/-- The pairs `(dx, dy)` of the two nested loops over `-1, 0, 1`, without `(0, 0)`. -/
def neighborOffsets : List (ℤ × ℤ) :=
  [(-1, -1), (0, -1), (1, -1), (-1, 0), (1, 0), (-1, 1), (0, 1), (1, 1)]

/-- The cell `neighborAliveCount` looks at, for one pair of offsets. -/
def neighborCell (current : Buffer) (sx sy : ℕ) (d : ℤ × ℤ) : CellState :=
  readCell current (index ((sx : ℤ) + d.1).toNat ((sy : ℤ) + d.2).toNat)

/-- The lambda `neighborAliveCount` of `calculateNext`: how many neighbours are
alive with an owner, and the owner of a cell that would be born here.  The
ordered map `neighborsOwners` is kept as its list of entries. -/
def neighborAliveCount (current : Buffer) (sx sy : ℕ) : ℕ × PlayerId :=
  let (count, neighborsOwners) := neighborOffsets.foldl
    (fun (acc : ℕ × List (PlayerId × ℕ)) d =>
      let cell := neighborCell current sx sy d
      if isOwnedAlive cell then (acc.1 + 1, bump cell.owner acc.2) else acc)
    (0, [])
  let nextOwner := neighborsOwners.foldl
    (fun (best : PlayerId × ℕ) m => if best.2 ≤ m.2 then m else best) (0, 0)
  (count, nextOwner.1)

/-- The body of the loops of `calculateNext` for one cell: its next state, and
whether it is pushed to the dirty list. -/
def calculateCell (current : Buffer) (x y : ℕ) : CellState × Bool :=
  let sx := x + GhostBorder
  let sy := y + GhostBorder
  let currentCell := readCell current (index sx sy)
  let (neighbors, nextOwner) := neighborAliveCount current sx sy
  if currentCell.alive then
    if (neighbors < 2 ∨ neighbors > 3) ∧ currentCell.alive then
      ({ alive := false, owner := 0 }, true)
    else (currentCell, false)
  else
    if neighbors = 3 ∧ !currentCell.alive then
      ({ alive := true, owner := nextOwner }, true)
    else (currentCell, false)

/-- The cells `(x, y)` of a chunk in the order of the nested loops, row by row. -/
def innerCells : List (ℕ × ℕ) :=
  (List.range InnerHeight).flatMap fun y => (List.range InnerWidth).map fun x => (x, y)

/-- The state of the loops of `calculateNext`: the buffer being written and the
dirty list. -/
def calculateStep (current : Buffer) (acc : Buffer × List DirtyCell) (p : ℕ × ℕ) :
    Buffer × List DirtyCell :=
  let (nextCell, dirty) := calculateCell current p.1 p.2
  (writeCell acc.1 (index (p.1 + GhostBorder) (p.2 + GhostBorder)) nextCell,
    if dirty then acc.2 ++ [⟨UInt8.ofNat p.1, UInt8.ofNat p.2⟩] else acc.2)

def calculateNext (c : Chunk) : Chunk :=
  let next := c.buffers (1 - c.currentBufferIndex)
  let loop := innerCells.foldl (calculateStep c.current) (next, c.dirtyCells)
  { c with
    buffers := Function.update c.buffers (1 - c.currentBufferIndex) loop.1
    dirtyCells := loop.2 }

def swapBuffers (c : Chunk) : Chunk :=
  { c with currentBufferIndex := 1 - c.currentBufferIndex }

/-- `getLiveCountByPlayer`: the map from owners to numbers of live cells. -/
def getLiveCountByPlayer (c : Chunk) : Finmap fun _ : PlayerId => UInt64 :=
  innerCells.foldl
    (fun counts p =>
      let cell := readCell c.current (index (p.1 + GhostBorder) (p.2 + GhostBorder))
      if isOwnedAlive cell then
        counts.insert cell.owner ((counts.lookup cell.owner).getD 0 + 1)
      else counts)
    ∅

def isDirty (c : Chunk) : Bool := !c.dirtyCells.isEmpty

def clearDirty (c : Chunk) : Chunk := { c with dirtyCells := [] }

/-! ## Storage -/

theorem readCell_writeCell (buffer : Buffer) (i j : ℕ) (state : CellState) :
    readCell (writeCell buffer i state) j =
      if i = j ∧ i < TotalCells then state else readCell buffer j := by
  unfold readCell writeCell
  rw [Vector.getElem?_setIfInBounds]
  by_cases hij : i = j
  · subst hij
    by_cases hi : i < TotalCells
    · simp [hi]
    · simp [hi]
  · simp [hij]

theorem index_lt {sx sy : ℕ} (hx : sx < TotalWidth) (hy : sy < TotalHeight) :
    index sx sy < TotalCells := by
  simp only [index, toIndex, TotalCells, TotalWidth, TotalHeight, InnerWidth, InnerHeight,
    GhostBorder, ChunkWidth, ChunkHeight] at *
  omega

/-- Storage positions do not overlap. -/
theorem index_inj {sx sy tx ty : ℕ} (hx : sx < TotalWidth) (hx' : tx < TotalWidth) :
    index sx sy = index tx ty ↔ sx = tx ∧ sy = ty := by
  simp only [index, toIndex, TotalWidth, InnerWidth, GhostBorder, ChunkWidth] at *
  omega

/-- Reading a storage cell after a write to a storage cell. -/
theorem readCell_writeCell_index (buffer : Buffer) {sx sy tx ty : ℕ} (state : CellState)
    (hsx : sx < TotalWidth) (hsy : sy < TotalHeight) (htx : tx < TotalWidth) :
    readCell (writeCell buffer (index sx sy) state) (index tx ty) =
      if sx = tx ∧ sy = ty then state else readCell buffer (index tx ty) := by
  rw [readCell_writeCell]
  exact if_congr (by rw [index_inj hsx htx, and_iff_left (index_lt hsx hsy)]) rfl rfl

/-- An empty chunk is dead everywhere. -/
@[simp] theorem getGhostCell_empty (sx sy : ℕ) : ({} : Chunk).getGhostCell sx sy = {} := by
  unfold getGhostCell current readCell
  rw [Vector.getElem?_replicate]
  split_ifs <;> rfl

@[simp] theorem getCell_empty (x y : ℕ) : ({} : Chunk).getCell x y = {} :=
  getGhostCell_empty _ _

@[simp] theorem current_setCell (c : Chunk) (x y : ℕ) (state : CellState) :
    (c.setCell x y state).current =
      writeCell c.current (index (x + GhostBorder) (y + GhostBorder)) state :=
  Function.update_self c.currentBufferIndex _ c.buffers

@[simp] theorem current_setGhostCell (c : Chunk) (sx sy : ℕ) (state : CellState) :
    (c.setGhostCell sx sy state).current = writeCell c.current (index sx sy) state :=
  Function.update_self c.currentBufferIndex _ c.buffers

@[simp] theorem dirtyCells_setGhostCell (c : Chunk) (sx sy : ℕ) (state : CellState) :
    (c.setGhostCell sx sy state).dirtyCells = c.dirtyCells := rfl

@[simp] theorem dirtyCells_setCell (c : Chunk) (x y : ℕ) (state : CellState) :
    (c.setCell x y state).dirtyCells = c.dirtyCells ++ [⟨UInt8.ofNat x, UInt8.ofNat y⟩] := rfl

@[simp] theorem getCell_clearDirty (c : Chunk) (x y : ℕ) :
    c.clearDirty.getCell x y = c.getCell x y := rfl

@[simp] theorem dirtyCells_clearDirty (c : Chunk) : c.clearDirty.dirtyCells = [] := rfl

/-- An inner cell lies inside the storage. -/
theorem inner_lt {x : ℕ} (hx : x < ChunkWidth) : x + GhostBorder < TotalWidth := by
  simp only [TotalWidth, InnerWidth, GhostBorder] at *
  omega

theorem inner_lt' {y : ℕ} (hy : y < ChunkHeight) : y + GhostBorder < TotalHeight := by
  simp only [TotalHeight, InnerHeight, GhostBorder] at *
  omega

/-- Reading an inner cell after a `setCell`. -/
theorem getCell_setCell (c : Chunk) {x y u v : ℕ} (state : CellState)
    (hx : x < ChunkWidth) (hy : y < ChunkHeight) (hu : u < ChunkWidth) :
    (c.setCell x y state).getCell u v =
      if x = u ∧ y = v then state else c.getCell u v := by
  unfold getCell
  rw [current_setCell, readCell_writeCell_index _ _ (inner_lt hx) (inner_lt' hy) (inner_lt hu)]
  simp only [Nat.add_right_cancel_iff]

/-- Reading a storage cell after a `setGhostCell`. -/
theorem getGhostCell_setGhostCell (c : Chunk) {sx sy tx ty : ℕ} (state : CellState)
    (hsx : sx < TotalWidth) (hsy : sy < TotalHeight) (htx : tx < TotalWidth) :
    (c.setGhostCell sx sy state).getGhostCell tx ty =
      if sx = tx ∧ sy = ty then state else c.getGhostCell tx ty := by
  unfold getGhostCell
  rw [current_setGhostCell, readCell_writeCell_index _ _ hsx hsy htx]

/-! ## Counting neighbours -/

/-- The owners of the live, owned cells of a list. -/
def votesOf (cells : List CellState) : List PlayerId :=
  (cells.filter isOwnedAlive).map CellState.owner

/-- The votes of the neighbours of a storage cell, in the order they are visited. -/
def neighborVotes (current : Buffer) (sx sy : ℕ) : List PlayerId :=
  votesOf (neighborOffsets.map (neighborCell current sx sy))

/-- The loop over a list of neighbours counts and tallies their votes. -/
theorem foldl_votes (look : ℤ × ℤ → CellState) (l : List (ℤ × ℤ))
    (acc : ℕ × List (PlayerId × ℕ)) :
    l.foldl (fun (acc : ℕ × List (PlayerId × ℕ)) d =>
        let cell := look d
        if isOwnedAlive cell then (acc.1 + 1, bump cell.owner acc.2) else acc) acc =
      (acc.1 + (votesOf (l.map look)).length,
        (votesOf (l.map look)).foldl (fun m a => bump a m) acc.2) := by
  induction l generalizing acc with
  | nil => rfl
  | cons d l ih =>
    rw [List.foldl_cons, ih]
    unfold votesOf
    by_cases h : isOwnedAlive (look d) = true
    · rw [List.map_cons, List.filter_cons_of_pos h, List.map_cons, List.length_cons,
        List.foldl_cons]
      simp only [h, if_true]
      rw [Nat.add_right_comm, Nat.add_assoc]
    · rw [List.map_cons, List.filter_cons_of_neg h]
      simp only [h, if_false, Bool.false_eq_true]

/-- **What the neighbour loop returns**: the number of votes, and their
plurality. -/
theorem neighborAliveCount_eq (current : Buffer) (sx sy : ℕ) :
    neighborAliveCount current sx sy =
      ((neighborVotes current sx sy).length,
        (plurality (neighborVotes current sx sy)).getD 0) := by
  unfold neighborAliveCount
  rw [foldl_votes, Nat.zero_add]
  exact congrArg _ (leader_tally (neighborVotes current sx sy) 0)

/-! ## The generation -/

theorem mem_innerCells {p : ℕ × ℕ} :
    p ∈ innerCells ↔ p.1 < ChunkWidth ∧ p.2 < ChunkHeight := by
  obtain ⟨x, y⟩ := p
  simp only [innerCells, List.mem_flatMap, List.mem_range, List.mem_map, Prod.mk.injEq,
    InnerHeight, InnerWidth]
  constructor
  · rintro ⟨b, hb, a, ha, rfl, rfl⟩
    exact ⟨ha, hb⟩
  · rintro ⟨hx, hy⟩
    exact ⟨y, hy, x, hx, rfl, rfl⟩

/-- What some inner cell satisfies. -/
theorem exists_mem_innerCells {P : ℕ → ℕ → Prop} :
    (∃ p ∈ innerCells, P p.1 p.2) ↔ ∃ x y, x < ChunkWidth ∧ y < ChunkHeight ∧ P x y := by
  constructor
  · rintro ⟨p, hp, h⟩
    obtain ⟨hx, hy⟩ := mem_innerCells.mp hp
    exact ⟨p.1, p.2, hx, hy, h⟩
  · rintro ⟨x, y, hx, hy, h⟩
    exact ⟨(x, y), mem_innerCells.mpr ⟨hx, hy⟩, h⟩

/-- No cell is visited twice. -/
theorem nodup_innerCells : innerCells.Nodup := by
  rw [innerCells, List.nodup_flatMap]
  refine ⟨fun y _ => List.nodup_range.map fun a b h => congrArg Prod.fst h, ?_⟩
  refine List.nodup_range.imp fun hne p hp hp' => ?_
  obtain ⟨a, -, rfl⟩ := List.mem_map.mp hp
  obtain ⟨b, -, hb⟩ := List.mem_map.mp hp'
  exact hne (congrArg Prod.snd hb).symm

theorem length_innerCells : innerCells.length = ChunkHeight * ChunkWidth := by
  rw [innerCells, List.length_flatMap, ← InnerHeight, ← InnerWidth]
  simp

-- from here on only these facts about `innerCells` are used; unfolding it lists 4096 cells
attribute [irreducible] innerCells

/-- One step of the loop writes one inner cell. -/
theorem readCell_calculateStep (buffer : Buffer) (acc : Buffer × List DirtyCell)
    {p q : ℕ × ℕ} (hp : p ∈ innerCells) (hq : q ∈ innerCells) :
    readCell (calculateStep buffer acc p).1 (index (q.1 + GhostBorder) (q.2 + GhostBorder)) =
      if p = q then (calculateCell buffer q.1 q.2).1
      else readCell acc.1 (index (q.1 + GhostBorder) (q.2 + GhostBorder)) := by
  obtain ⟨hpx, hpy⟩ := mem_innerCells.mp hp
  obtain ⟨hqx, -⟩ := mem_innerCells.mp hq
  show readCell (writeCell acc.1 _ (calculateCell buffer p.1 p.2).1) _ = _
  rw [readCell_writeCell_index _ _ (inner_lt hpx) (inner_lt' hpy) (inner_lt hqx)]
  simp only [Nat.add_right_cancel_iff, ← Prod.ext_iff]
  split_ifs with h
  · rw [h]
  · rfl

theorem calculateStep_snd (current : Buffer) (acc : Buffer × List DirtyCell) (p : ℕ × ℕ) :
    (calculateStep current acc p).2 =
      if (calculateCell current p.1 p.2).2 then
        acc.2 ++ [⟨UInt8.ofNat p.1, UInt8.ofNat p.2⟩]
      else acc.2 := rfl

/-- The loop writes the computed state of every inner cell. -/
theorem readCell_foldl_calculateStep (buffer : Buffer) (acc : Buffer × List DirtyCell)
    {q : ℕ × ℕ} (hq : q ∈ innerCells) :
    readCell (innerCells.foldl (calculateStep buffer) acc).1
        (index (q.1 + GhostBorder) (q.2 + GhostBorder)) =
      (calculateCell buffer q.1 q.2).1 := by
  refine Overwrite.read_foldl_of_agree (f := calculateStep buffer)
    (r := fun acc => readCell acc.1 (index (q.1 + GhostBorder) (q.2 + GhostBorder)))
    (fun p hp => ?_)
    ⟨q, hq, fun acc => (readCell_calculateStep buffer acc hq hq).trans (if_pos rfl)⟩ acc
  by_cases h : p = q
  · exact Or.inr fun acc => (readCell_calculateStep buffer acc hp hq).trans (if_pos h)
  · exact Or.inl fun acc => (readCell_calculateStep buffer acc hp hq).trans (if_neg h)

/-- The cells whose state the generation changes, as it reports them. -/
def changedCells (buffer : Buffer) : List DirtyCell :=
  (innerCells.filter fun p => (calculateCell buffer p.1 p.2).2).map
    fun p => ⟨UInt8.ofNat p.1, UInt8.ofNat p.2⟩

theorem dirty_foldl_calculateStep (buffer : Buffer) (acc : Buffer × List DirtyCell) :
    (innerCells.foldl (calculateStep buffer) acc).2 = acc.2 ++ changedCells buffer := by
  unfold changedCells
  generalize innerCells = l
  induction l generalizing acc with
  | nil => simp
  | cons p l ih =>
    rw [List.foldl_cons, ih, calculateStep_snd, List.filter_cons]
    split_ifs <;> simp

theorem one_sub_ne (i : Fin 2) : i ≠ 1 - i := by
  revert i
  decide

/-- **The generation of a chunk.**  After `calculateNext` the buffer that is read
is unchanged, the other buffer holds the computed state of every inner cell, and
the changed cells are appended to the dirty list. -/
theorem calculateNext_spec (c : Chunk) :
    c.calculateNext.current = c.current ∧
      (∀ x y, x < ChunkWidth → y < ChunkHeight →
        c.calculateNext.swapBuffers.getCell x y = (calculateCell c.current x y).1) ∧
      c.calculateNext.swapBuffers.dirtyCells = c.dirtyCells ++ changedCells c.current := by
  refine ⟨?_, fun x y hx hy => ?_, ?_⟩
  · exact Function.update_of_ne (one_sub_ne _) _ _
  · have hq : (x, y) ∈ innerCells := mem_innerCells.mpr ⟨hx, hy⟩
    have hbuffer : c.calculateNext.swapBuffers.current =
        (innerCells.foldl (calculateStep c.current)
          (c.buffers (1 - c.currentBufferIndex), c.dirtyCells)).1 :=
      Function.update_self _ _ _
    rw [getCell, hbuffer]
    exact readCell_foldl_calculateStep c.current (_, c.dirtyCells) (q := (x, y)) hq
  · exact dirty_foldl_calculateStep c.current (_, c.dirtyCells)

end Chunk
end Multilife

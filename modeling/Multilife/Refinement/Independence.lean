import Multilife.Foundations.Commutation
import Multilife.Refinement.DeltaContent

/-!
# Independent commands

A command reads and writes one cell and one balance, and it leaves a chunk and an entry of
a dirty list behind.  `Dependent` commands are those of one player and those on one cell.
Two others commute, except that the dirty lists record their order: the states they lead
to are `Alike`.

* `alike_applyCommands`: batches that differ in the order of independent commands lead to
  alike states.
* `applyCommands_reordering`: so the chunks, the cells and the balances are the same, and a
  client cannot tell the deltas apart.
-/

namespace Multilife

open Chunk Client Commutation WorldSerializer

/-! ## The ledger -/

namespace World

variable {cmd : PlayerCommand} {cell : CellState} {r r' : ResourceManager}

/-- **The switch reads one account.** -/
theorem switchCommand_congr (cell : CellState)
    (h : r.balances.lookup cmd.playerId = r'.balances.lookup cmd.playerId) :
    (switchCommand cmd cell r).1 = (switchCommand cmd cell r').1 ∧
      (switchCommand cmd cell r).2.balances.lookup cmd.playerId =
        (switchCommand cmd cell r').2.balances.lookup cmd.playerId := by
  have hspend : (r.trySpend cmd.playerId kPlaceCost).1 = (r'.trySpend cmd.playerId kPlaceCost).1 ∧
      (r.trySpend cmd.playerId kPlaceCost).2.balances.lookup cmd.playerId =
        (r'.trySpend cmd.playerId kPlaceCost).2.balances.lookup cmd.playerId := by
    unfold ResourceManager.trySpend
    rw [h]
    cases hlookup : r'.balances.lookup cmd.playerId with
    | none => exact ⟨rfl, h⟩
    | some b =>
      dsimp only
      split_ifs
      · exact ⟨rfl, h⟩
      · exact ⟨rfl, by rw [Finmap.lookup_insert, Finmap.lookup_insert]⟩
  have haward : (r.award cmd.playerId kRemoveAward).1 = (r'.award cmd.playerId kRemoveAward).1 ∧
      (r.award cmd.playerId kRemoveAward).2.balances.lookup cmd.playerId =
        (r'.award cmd.playerId kRemoveAward).2.balances.lookup cmd.playerId := by
    unfold ResourceManager.award
    rw [h]
    cases hlookup : r'.balances.lookup cmd.playerId with
    | none => exact ⟨rfl, h⟩
    | some b => exact ⟨rfl, by rw [Finmap.lookup_insert, Finmap.lookup_insert]⟩
  rw [switchCommand_cases, switchCommand_cases, hspend.1, haward.1]
  split_ifs
  · exact ⟨rfl, hspend.2⟩
  · exact ⟨rfl, haward.2⟩
  · exact ⟨rfl, h⟩

/-- **The switch writes one account.** -/
theorem switchCommand_frame {id : PlayerId} (hid : id ≠ cmd.playerId) :
    (switchCommand cmd cell r).2.balances.lookup id = r.balances.lookup id := by
  generalize hswitch : switchCommand cmd cell r = next
  have heffect := switchCommand_effect cmd cell r
  rw [hswitch] at heffect
  cases heffect with
  | refused => rfl
  | placed b htype hfree hlookup hcost => exact Finmap.lookup_insert_of_ne _ hid
  | removed b htype hown hlookup => exact Finmap.lookup_insert_of_ne _ hid

/-! ## The dirty lists -/

/-- The dirty list of a chunk, empty where there is no chunk. -/
def dirtyCellsAt (w : World) (c : ChunkCoord) : List DirtyCell :=
  ((w.tryGetChunk c).map Chunk.dirtyCells).getD []

variable {w : World}

theorem mem_dirtyCellsAt {c : ChunkCoord} {dc : DirtyCell} :
    dc ∈ w.dirtyCellsAt c ↔ ∃ chunk, w.tryGetChunk c = some chunk ∧ dc ∈ chunk.dirtyCells := by
  rw [dirtyCellsAt]
  cases w.tryGetChunk c <;> simp

theorem marked_iff {p : ℤ × ℤ} :
    w.Marked p ↔ ∃ c, ∃ dc ∈ w.dirtyCellsAt c, p = pointOf c.toBlock dc.x.toNat dc.y.toNat := by
  simp only [Marked, mem_dirtyCellsAt]
  constructor
  · rintro ⟨c, chunk, dc, hchunk, hdc, hp⟩
    exact ⟨c, dc, ⟨chunk, hchunk, hdc⟩, hp⟩
  · rintro ⟨c, dc, ⟨chunk, hchunk, hdc⟩, hp⟩
    exact ⟨c, chunk, dc, hchunk, hdc, hp⟩

theorem clean_iff : w.Clean ↔ ∀ c dc, dc ∉ w.dirtyCellsAt c := by
  simp only [Clean, mem_dirtyCellsAt, List.eq_nil_iff_forall_not_mem]
  constructor
  · rintro h c dc ⟨chunk, hchunk, hdc⟩
    exact h c chunk hchunk dc hdc
  · intro h c chunk hchunk dc hdc
    exact h c dc ⟨chunk, hchunk, hdc⟩

/-- A command adds its cell to the dirty list of its chunk. -/
theorem dirtyCellsAt_applyCommand (s : World × ResourceManager) (cmd : PlayerCommand)
    (c : ChunkCoord) :
    (applyCommand s cmd).1.dirtyCellsAt c = s.1.dirtyCellsAt c ++ if c = coordOf cmd then
      [⟨UInt8.ofNat (localIndex cmd.x ChunkWidth), UInt8.ofNat (localIndex cmd.y ChunkHeight)⟩]
      else [] := by
  rw [dirtyCellsAt, (dirtyLists_applyCommand s cmd).2]
  split_ifs
  · rfl
  · rw [List.append_nil]
    rfl

end World

/-! ## Alike states -/

/-- The states differ at most in the order of the dirty lists. -/
structure Alike (s s' : World × ResourceManager) : Prop where
  chunks : ∀ c, c ∈ s.1.chunks ↔ c ∈ s'.1.chunks
  cells : s.1.cellAt = s'.1.cellAt
  balances : s.2 = s'.2
  dirtyLists : ∀ c, List.Perm (s.1.dirtyCellsAt c) (s'.1.dirtyCellsAt c)

theorem equivalence_alike : Equivalence Alike where
  refl _ := ⟨fun _ => Iff.rfl, rfl, rfl, fun _ => List.Perm.refl _⟩
  symm h := ⟨fun c => (h.chunks c).symm, h.cells.symm, h.balances.symm,
    fun c => (h.dirtyLists c).symm⟩
  trans h h' := ⟨fun c => (h.chunks c).trans (h'.chunks c), h.cells.trans h'.cells,
    h.balances.trans h'.balances, fun c => (h.dirtyLists c).trans (h'.dirtyLists c)⟩

namespace World

/-- A command does the same to alike states. -/
theorem alike_applyCommand (s s' : World × ResourceManager) (cmd : PlayerCommand)
    (h : Alike s s') : Alike (applyCommand s cmd) (applyCommand s' cmd) where
  chunks c := by
    rw [(dirtyLists_applyCommand s cmd).1, (dirtyLists_applyCommand s' cmd).1, h.chunks]
  cells := by rw [cellAt_applyCommand, cellAt_applyCommand, h.cells, h.balances]
  balances := by rw [applyCommand_snd, applyCommand_snd, h.cells, h.balances]
  dirtyLists c := by
    rw [dirtyCellsAt_applyCommand, dirtyCellsAt_applyCommand]
    exact (h.dirtyLists c).append_right _

/-! ## Independent commands -/

/-- The chunk and the local cell that the coordinates of a command map to. -/
def cellOf (cmd : PlayerCommand) : ChunkCoord × ℕ × ℕ :=
  (coordOf cmd, localIndex cmd.x ChunkWidth, localIndex cmd.y ChunkHeight)

/-- The commands are of one player, or on one cell. -/
def Dependent (cmd cmd' : PlayerCommand) : Prop :=
  cmd.playerId = cmd'.playerId ∨ cellOf cmd = cellOf cmd'

instance (cmd cmd' : PlayerCommand) : Decidable (Dependent cmd cmd') :=
  inferInstanceAs (Decidable (_ ∨ _))

/-- Commands on different cells work on different points. -/
theorem targetOf_ne {cmd cmd' : PlayerCommand} (h : cellOf cmd ≠ cellOf cmd') :
    targetOf cmd ≠ targetOf cmd' := by
  intro htarget
  obtain ⟨hblock, hx, hy⟩ := (pointOf_inj (localIndex_lt_width cmd.x) (localIndex_lt_height cmd.y)
    (localIndex_lt_width cmd'.x) (localIndex_lt_height cmd'.y)).mp htarget
  exact h (Prod.ext (ChunkCoord.toBlock_injective hblock) (Prod.ext hx hy))

variable (s : World × ResourceManager) {cmd cmd' : PlayerCommand}

theorem lookup_applyCommand_of_ne {id : PlayerId} (hid : id ≠ cmd.playerId) :
    (applyCommand s cmd).2.balances.lookup id = s.2.balances.lookup id := by
  rw [applyCommand_snd, switchCommand_frame hid]

variable {s} in
/-- **What a command does depends on its cell and its account.** -/
theorem applyCommand_congr_at {s' : World × ResourceManager}
    (hcell : s'.1.cellAt (targetOf cmd) = s.1.cellAt (targetOf cmd))
    (haccount : s'.2.balances.lookup cmd.playerId = s.2.balances.lookup cmd.playerId) :
    (applyCommand s' cmd).1.cellAt (targetOf cmd) = (applyCommand s cmd).1.cellAt (targetOf cmd) ∧
      (applyCommand s' cmd).2.balances.lookup cmd.playerId =
        (applyCommand s cmd).2.balances.lookup cmd.playerId := by
  obtain ⟨hsame, hsameAccount⟩ := switchCommand_congr (s.1.cellAt (targetOf cmd)) haccount
  constructor
  · rw [cellAt_applyCommand, cellAt_applyCommand, Function.update_self, Function.update_self, hcell,
      hsame]
  · rw [applyCommand_snd, applyCommand_snd, hcell, hsameAccount]

variable (h : ¬ Dependent cmd cmd')
include h

/-- A command does the same after an independent one. -/
theorem applyCommand_of_independent :
    (applyCommand (applyCommand s cmd) cmd').1.cellAt (targetOf cmd') =
        (applyCommand s cmd').1.cellAt (targetOf cmd') ∧
      (applyCommand (applyCommand s cmd) cmd').2.balances.lookup cmd'.playerId =
        (applyCommand s cmd').2.balances.lookup cmd'.playerId := by
  obtain ⟨hplayer, hcell⟩ := not_or.mp h
  exact applyCommand_congr_at (cellAt_applyCommand_of_ne s _ (targetOf_ne hcell).symm)
    (lookup_applyCommand_of_ne s (Ne.symm hplayer))

/-- **Independent commands commute.** -/
theorem alike_of_independent :
    Alike (applyCommand (applyCommand s cmd) cmd') (applyCommand (applyCommand s cmd') cmd) := by
  have h' : ¬ Dependent cmd' cmd := fun hdep => h (hdep.imp Eq.symm Eq.symm)
  obtain ⟨hplayer, hcell⟩ := not_or.mp h
  have htarget := targetOf_ne hcell
  refine ⟨fun c => ?_, funext fun p => ?_, ?_, fun c => ?_⟩
  · simp only [(dirtyLists_applyCommand _ _).1]
    exact or_right_comm
  · by_cases hp : p = targetOf cmd
    · subst hp
      rw [cellAt_applyCommand_of_ne _ _ htarget, (applyCommand_of_independent s h').1]
    · by_cases hp' : p = targetOf cmd'
      · subst hp'
        rw [(applyCommand_of_independent s h).1, cellAt_applyCommand_of_ne _ _ htarget.symm]
      · rw [cellAt_applyCommand_of_ne _ _ hp', cellAt_applyCommand_of_ne _ _ hp,
          cellAt_applyCommand_of_ne _ _ hp, cellAt_applyCommand_of_ne _ _ hp']
  · have hledger : (applyCommand (applyCommand s cmd) cmd').2.balances =
        (applyCommand (applyCommand s cmd') cmd).2.balances := by
      refine Finmap.ext_lookup fun id => ?_
      by_cases hid : id = cmd.playerId
      · subst hid
        rw [lookup_applyCommand_of_ne _ hplayer, (applyCommand_of_independent s h').2]
      · by_cases hid' : id = cmd'.playerId
        · subst hid'
          rw [(applyCommand_of_independent s h).2, lookup_applyCommand_of_ne _ (Ne.symm hplayer)]
        · rw [lookup_applyCommand_of_ne _ hid', lookup_applyCommand_of_ne _ hid,
            lookup_applyCommand_of_ne _ hid, lookup_applyCommand_of_ne _ hid']
    exact congrArg ResourceManager.mk hledger
  · simp only [dirtyCellsAt_applyCommand, List.append_assoc]
    exact List.perm_append_comm.append_left _

end World

/-! ## Batches -/

open World

/-- **Batches that differ in the order of independent commands** lead to alike states. -/
theorem alike_applyCommands {batch batch' : List PlayerCommand}
    (h : Reordering Dependent batch batch') (s : World × ResourceManager) :
    Alike (applyCommands s batch) (applyCommands s batch') :=
  foldl_of_reordering equivalence_alike alike_applyCommand
    (fun s _ _ h => alike_of_independent s h) (fun _ => Or.inl rfl)
    (fun _ _ h => h.imp Eq.symm Eq.symm) h s

/-- **A client cannot tell alike worlds apart** by their deltas. -/
theorem model_eq_of_alike {s s' : World × ResourceManager} (h : Alike s s')
    (hmarks : s.1.MarksInChunk) {order order' : FiniteMap.Traversal ChunkCoord} {seqNum : UInt32}
    {received received' : List (List UInt8)} (hreceived : ReceivesDelta s.1 order seqNum received)
    (hreceived' : ReceivesDelta s'.1 order' seqNum received') (c : ClientState) :
    (received.foldl ClientState.receive c).model =
      (received'.foldl ClientState.receive c).model := by
  have hmem : ∀ coord dc, dc ∈ s.1.dirtyCellsAt coord ↔ dc ∈ s'.1.dirtyCellsAt coord :=
    fun coord dc => (h.dirtyLists coord).mem_iff
  have hmarked : ∀ p, s.1.Marked p ↔ s'.1.Marked p := by
    intro p
    simp only [marked_iff, hmem]
  have hclean : s.1.Clean ↔ s'.1.Clean := by simp only [clean_iff, hmem]
  have hmarks' : s'.1.MarksInChunk := by
    intro coord chunk dc hchunk hdc
    obtain ⟨chunk₀, hchunk₀, hdc₀⟩ := mem_dirtyCellsAt.mp
      ((hmem coord dc).mpr (mem_dirtyCellsAt.mpr ⟨chunk, hchunk, hdc⟩))
    exact hmarks coord chunk₀ dc hchunk₀ hdc₀
  have hcells : (received.foldl ClientState.receive c).model.aliveCells =
      (received'.foldl ClientState.receive c).model.aliveCells := by
    refine Finmap.ext_lookup fun k => ?_
    show ClientState.ownerAt k _ = ClientState.ownerAt k _
    by_cases hk : s.1.Marked k.point
    · rw [(ownerAt_foldl_receive hreceived hmarks c k).1 hk,
        (ownerAt_foldl_receive hreceived' hmarks' c k).1 ((hmarked _).mp hk), h.cells]
    · rw [(ownerAt_foldl_receive hreceived hmarks c k).2 hk,
        (ownerAt_foldl_receive hreceived' hmarks' c k).2 (mt (hmarked _).mpr hk)]
  have hgeneration : (received.foldl ClientState.receive c).model.generation =
      (received'.foldl ClientState.receive c).model.generation := by
    by_cases hs : s.1.Clean
    · rw [(generation_foldl_receive hreceived c).1 hs,
        (generation_foldl_receive hreceived' c).1 (hclean.mp hs)]
    · rw [(generation_foldl_receive hreceived c).2 hs,
        (generation_foldl_receive hreceived' c).2 (mt hclean.mpr hs)]
  exact congrArg₂ WorldModel.mk hcells hgeneration

/-- **Independent commands commute.**  Two batches with the same commands, in which any two
of one player and any two on one cell are in the same order, create the same chunks and
leave the same cells and the same balances.  The following deltas make the same of every
client's model, in whatever order the chunks are serialized and the datagrams arrive. -/
theorem applyCommands_reordering {batch batch' : List PlayerCommand}
    (h : Reordering Dependent batch batch') (s : World × ResourceManager) :
    let after := applyCommands s batch
    let after' := applyCommands s batch'
    (∀ c, c ∈ after.1.chunks ↔ c ∈ after'.1.chunks) ∧ after.1.cellAt = after'.1.cellAt ∧
    after.2 = after'.2 ∧
    (s.1.MarksInChunk → ∀ order order' seqNum received received',
      ReceivesDelta after.1 order seqNum received → ReceivesDelta after'.1 order' seqNum received' →
      ∀ c : ClientState, (received.foldl ClientState.receive c).model =
        (received'.foldl ClientState.receive c).model) := by
  intro after after'
  have halike := alike_applyCommands h s
  refine ⟨halike.chunks, halike.cells, halike.balances, ?_⟩
  intro hmarks order order' seqNum received received' hreceived hreceived' c
  have hmarks' : after.1.MarksInChunk := (tracks_applyCommands hmarks.tracks batch).inChunk
  exact model_eq_of_alike halike hmarks' hreceived hreceived' c

/-- Two players, each with a command on a cell of its own, in either order. -/
theorem reordering_twoPlayers : Reordering Dependent
    [⟨7, .PlaceCell, 0, 0⟩, ⟨8, .PlaceCell, 5, 5⟩] [⟨8, .PlaceCell, 5, 5⟩, ⟨7, .PlaceCell, 0, 0⟩] :=
  ⟨(Equiv.swap 0 1 : Fin 2 ≃ Fin 2), by decide, by decide⟩

theorem applyCommands_reordering_twoPlayers :
    let r := (({} : ResourceManager).addPlayer 7).addPlayer 8
    let after := applyCommands ({}, r) [⟨7, .PlaceCell, 0, 0⟩, ⟨8, .PlaceCell, 5, 5⟩]
    let after' := applyCommands ({}, r) [⟨8, .PlaceCell, 5, 5⟩, ⟨7, .PlaceCell, 0, 0⟩]
    after.1.cellAt = after'.1.cellAt ∧ after.2 = after'.2 ∧
      after.2.getBalance 7 = 8 ∧ after.2.getBalance 8 = 8 := by
  intro r after after'
  obtain ⟨-, hcells, hbalances, -⟩ := applyCommands_reordering reordering_twoPlayers ({}, r)
  exact ⟨hcells, hbalances, by decide +kernel, by decide +kernel⟩

end Multilife

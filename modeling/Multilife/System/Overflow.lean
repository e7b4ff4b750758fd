import Multilife.Refinement.Addressing
import Multilife.Server.CoordinateArithmetic
import Multilife.System.Accounts
import Multilife.System.Pairing

/-!
# Where coordinate arithmetic overflows

`Roomy` is the exact condition on the state before a tick: every chunk is one step, and
every chunk with live cells two steps, away from the ends of `int`, and no queued
coordinate is among the least 64 of its type.

* `noOverflow_iff`: a tick overflows nowhere exactly from a roomy state.
* `noOverflow_of_spacious`: commands that keep a distance from the ends of the world, one
  chunk for each tick to come, keep every state roomy, since a tick adds chunks at most
  one step away from those there are.
* `run_noOverflow`: both, for whole runs.
-/

namespace Multilife

open FiniteMap Chunk Transition

/-! ## One axis -/

namespace CoordOp

/-- Adding or subtracting one. -/
theorem overflows_one32 (a : Int32) :
    (¬ (add32 a 1).Overflows ∧ ¬ (sub32 a 1).Overflows) ↔
      -2 ^ 31 + 1 ≤ a.toInt ∧ a.toInt ≤ 2 ^ 31 - 1 - 1 := by
  have hone : (1 : Int32).toInt = 1 := by decide
  have hlow := a.le_toInt
  have hhigh := a.toInt_lt
  simp only [Overflows, value, hone, not_not]
  omega

theorem overflows_unit {a : Int32} {d : ℤ} (hd : -1 ≤ d ∧ d ≤ 1) :
    (add32 a (Int32.ofInt d)).Overflows ↔ ¬ (-2 ^ 31 ≤ a.toInt + d ∧ a.toInt + d < 2 ^ 31) := by
  have hofInt : (Int32.ofInt d).toInt = d := Int32.toInt_ofInt_of_le (by omega) (by omega)
  simp only [Overflows, value, hofInt]

end CoordOp

namespace World

/-- The coordinate is far enough from the least `std::int64_t`. -/
def AxisRoomy (x : Int64) : Prop := -2 ^ 63 + 64 ≤ x.toInt

/-- **One axis of a command** overflows exactly on the least 64 numbers. -/
theorem axisOps_iff (global : Int64) :
    (∀ op ∈ axisOps global 64, ¬ op.Overflows) ↔ AxisRoomy global := by
  have h64 : (Int64.ofNat 64).toInt = 64 := Int64.toInt_ofNat_of_lt (by decide)
  have hone : (1 : Int64).toInt = 1 := by decide
  have hlow := global.le_toInt
  have hhigh := global.toInt_lt
  -- `global % size + size` is between 1 and 127
  have hmod : ¬ (CoordOp.add64 (global % Int64.ofNat 64) (Int64.ofNat 64)).Overflows := by
    have hrem : (global % Int64.ofNat 64).toInt = global.toInt.tmod 64 := by
      rw [Int64.toInt_mod, h64]
    have hremlow : -64 < global.toInt.tmod 64 := Int.lt_tmod_of_pos _ (by decide)
    have hremhigh : global.toInt.tmod 64 < 64 := Int.tmod_lt_of_pos _ (by decide)
    simp only [CoordOp.Overflows, CoordOp.value, hrem, h64]
    omega
  unfold axisOps AxisRoomy
  by_cases hsign : global ≥ 0
  · have hsign' : 0 ≤ global.toInt := Int64.le_iff_toInt_le.mp hsign
    rw [if_pos hsign, List.nil_append, List.forall_mem_singleton]
    exact iff_of_true hmod (by omega)
  · have hsign' : global.toInt < 0 := by
      by_contra h
      exact hsign (Int64.le_iff_toInt_le.mpr (not_lt.mp h))
    rw [if_neg hsign]
    simp only [List.cons_append, List.nil_append, List.forall_mem_cons, List.not_mem_nil,
      false_implies, implies_true, and_true]
    constructor
    · rintro ⟨hsub, -⟩
      simp only [CoordOp.Overflows, CoordOp.value, h64, not_not] at hsub
      omega
    · intro hroom
      have hsub : ¬ (CoordOp.sub64 global (Int64.ofNat 64)).Overflows := by
        simp only [CoordOp.Overflows, CoordOp.value, h64]
        omega
      have hvalue := CoordOp.result_of_not_overflows hsub
      simp only [CoordOp.result, CoordOp.value, h64] at hvalue
      refine ⟨hsub, ?_, hmod⟩
      simp only [CoordOp.Overflows, CoordOp.value, hvalue, hone]
      omega

theorem commandOps_iff (cmd : PlayerCommand) :
    (∀ op ∈ commandOps cmd, ¬ op.Overflows) ↔ AxisRoomy cmd.x ∧ AxisRoomy cmd.y := by
  rw [commandOps, List.forall_mem_append]
  exact and_congr (axisOps_iff cmd.x) (axisOps_iff cmd.y)

/-! ## The exchange -/

/-- The eight neighbours of a chunk can be named exactly one step inside. -/
theorem borderOps_iff (c : ChunkCoord) : (∀ op ∈ borderOps c, ¬ op.Overflows) ↔ c.Inside 1 := by
  unfold borderOps ChunkCoord.Inside
  rw [← CoordOp.overflows_one32 c.x, ← CoordOp.overflows_one32 c.y]
  simp only [List.forall_mem_append, List.forall_mem_cons, List.not_mem_nil, false_implies,
    implies_true, and_true]
  constructor
  · -- the first four are the exchange with the sides
    rintro ⟨⟨hysub, hyadd, hxsub, hxadd⟩, -⟩
    exact ⟨⟨hxadd, hxsub⟩, hyadd, hysub⟩
  · rintro ⟨⟨hxadd, hxsub⟩, hyadd, hysub⟩
    exact ⟨⟨hysub, hyadd, hxsub, hxadd⟩, hxsub, hysub, hxadd, hysub, hxsub, hyadd, hxadd, hyadd⟩

theorem marginOps_iff {c : ChunkCoord} {chunk : Chunk} (hlive : hasLiveCells chunk = true) :
    (∀ op ∈ marginOps c chunk, ¬ op.Overflows) ↔ c.Inside 1 := by
  have hxlow := c.x.le_toInt
  have hxhigh := c.x.toInt_lt
  have hylow := c.y.le_toInt
  have hyhigh := c.y.toInt_lt
  rw [marginOps, if_pos hlive]
  constructor
  · intro h
    have hop : ∀ d ∈ neighborOffsets, (-2 ^ 31 ≤ c.x.toInt + d.1 ∧ c.x.toInt + d.1 < 2 ^ 31) ∧
        -2 ^ 31 ≤ c.y.toInt + d.2 ∧ c.y.toInt + d.2 < 2 ^ 31 := by
      intro d hd
      obtain ⟨hd1, hd2⟩ := unitStep_of_mem_neighborOffsets hd
      have hx := h _ (List.mem_flatMap.mpr ⟨d, hd, List.mem_cons_self⟩)
      have hy := h _ (List.mem_flatMap.mpr ⟨d, hd, List.mem_cons_of_mem _ (List.mem_singleton_self _)⟩)
      rw [CoordOp.overflows_unit hd1, not_not] at hx
      rw [CoordOp.overflows_unit hd2, not_not] at hy
      exact ⟨hx, hy⟩
    have hleast := hop (-1, -1) (by decide)
    have hgreatest := hop (1, 1) (by decide)
    unfold ChunkCoord.Inside
    omega
  · intro h op hop
    obtain ⟨d, hd, hop⟩ := List.mem_flatMap.mp hop
    obtain ⟨hd1, hd2⟩ := unitStep_of_mem_neighborOffsets hd
    unfold ChunkCoord.Inside at h
    rcases List.mem_cons.mp hop with rfl | hop
    · rw [CoordOp.overflows_unit hd1, not_not]
      omega
    · rw [List.mem_singleton.mp hop, CoordOp.overflows_unit hd2, not_not]
      omega

/-- Every chunk can name its neighbours, and every chunk with live cells the neighbours
of its neighbours. -/
structure Roomy (w : World) : Prop where
  chunks : ∀ c ∈ w.chunks, c.Inside 1
  live : ∀ c chunk, w.tryGetChunk c = some chunk → hasLiveCells chunk = true → c.Inside 2

/-- **The exchange** overflows nowhere exactly in a roomy world. -/
theorem exchangeBordersOps_iff (marginOrder borderOrder : Traversal ChunkCoord) (w : World) :
    (∀ op ∈ exchangeBordersOps marginOrder borderOrder w, ¬ op.Overflows) ↔ w.Roomy := by
  rw [exchangeBordersOps, List.forall_mem_append, List.forall_mem_flatMap, List.forall_mem_flatMap]
  constructor
  · rintro ⟨hmargin, hborders⟩
    have hinside : ∀ c ∈ (w.ensureSimulationMarginUnlocked marginOrder).chunks, c.Inside 1 :=
      fun c hc => (borderOps_iff c).mp
        (hborders c ((borderOrder.mem_order _ _).mpr (Finmap.mem_keys.mpr hc)))
    refine ⟨fun c hc => ?_, fun c chunk hchunk hlive => ?_⟩
    · obtain ⟨chunk, hchunk⟩ := mem_chunks_iff.mp hc
      rcases tryGetChunk_ensureSimulationMargin marginOrder w c with h | ⟨hnone, -, -⟩
      · exact hinside c (mem_chunks_iff.mpr ⟨chunk, h.trans hchunk⟩)
      · rw [hchunk] at hnone
        cases hnone
    · -- both corners of the margin of a live chunk are chunks, one step further out
      have hone : c.Inside 1 := (marginOps_iff hlive).mp
        (hmargin (c, chunk) (mem_allChunksWithCoords.mpr hchunk))
      have hcorner : ∀ d ∈ neighborOffsets, (offsetCoord c d).Inside 1 := fun d hd =>
        hinside _ (mem_margin_of_onMargin marginOrder ⟨c, chunk, hchunk, hlive, d, hd, rfl⟩)
      have hleast := hcorner (-1, -1) (by decide)
      have hgreatest := hcorner (1, 1) (by decide)
      have hleastBlock := toBlock_offsetCoord hone
        (unitStep_of_mem_neighborOffsets (show (-1, -1) ∈ neighborOffsets by decide))
      have hgreatestBlock := toBlock_offsetCoord hone
        (unitStep_of_mem_neighborOffsets (show (1, 1) ∈ neighborOffsets by decide))
      simp only [ChunkCoord.toBlock, Prod.mk.injEq] at hleastBlock hgreatestBlock
      unfold ChunkCoord.Inside at *
      omega
  · intro hroomy
    refine ⟨fun e he op hop => ?_, fun c hc => (borderOps_iff c).mpr ?_⟩
    · by_cases hlive : hasLiveCells e.2 = true
      · have hone := (hroomy.live e.1 e.2 (mem_allChunksWithCoords.mp he) hlive).mono
          (show (1 : ℤ) ≤ 2 by decide)
        exact (marginOps_iff hlive).mpr hone op hop
      · rw [marginOps, if_neg hlive] at hop
        exact absurd hop List.not_mem_nil
    · exact inside_of_mem_margin_of_live marginOrder (by decide) hroomy.chunks hroomy.live
        (Finmap.mem_keys.mp ((borderOrder.mem_order _ _).mp hc))

end World

/-! ## One tick -/

namespace GameServer

/-- The world is roomy and so is every queued coordinate. -/
structure Roomy (g : GameServer) : Prop where
  world : g.world.Roomy
  commands : ∀ cmd ∈ g.commandQueue, World.AxisRoomy cmd.x ∧ World.AxisRoomy cmd.y

/-- No signed operation on coordinates overflows in the tick. -/
def NoOverflow (sched : TickSchedule) (g : GameServer) : Prop :=
  ∀ op ∈ g.tickOps sched, ¬ op.Overflows

/-- **A tick overflows nowhere exactly from a roomy state.** -/
theorem noOverflow_iff (sched : TickSchedule) (g : GameServer) : g.NoOverflow sched ↔ g.Roomy := by
  rw [NoOverflow, tickOps, List.forall_mem_append, List.forall_mem_flatMap,
    World.exchangeBordersOps_iff]
  constructor
  · rintro ⟨hworld, hcommands⟩
    exact ⟨hworld, fun cmd hcmd => (World.commandOps_iff cmd).mp (hcommands cmd hcmd)⟩
  · rintro ⟨hworld, hcommands⟩
    exact ⟨hworld, fun cmd hcmd => (World.commandOps_iff cmd).mpr (hcommands cmd hcmd)⟩

end GameServer

/-! ## Distance from the ends of the world -/

/-- The coordinate lies at least `n` chunks inside the coordinates that have a chunk. -/
def CoordWithin (n : ℤ) (x : Int64) : Prop :=
  64 * (-2 ^ 31 + n) ≤ x.toInt ∧ x.toInt < 64 * (2 ^ 31 - n)

/-- The chunk of such a command keeps this distance. -/
theorem inside_coordOf {n : ℤ} (hn : 0 ≤ n) {cmd : PlayerCommand}
    (h : CoordWithin n cmd.x ∧ CoordWithin n cmd.y) : (World.coordOf cmd).Inside n := by
  obtain ⟨⟨hxlow, hxhigh⟩, hylow, hyhigh⟩ := h
  have hx := toInt_chunkIndex (show CoordInReach cmd.x from ⟨by omega, by omega⟩)
  have hy := toInt_chunkIndex (show CoordInReach cmd.y from ⟨by omega, by omega⟩)
  simp only [ChunkCoord.Inside, World.coordOf, ChunkWidth, ChunkHeight, hx, hy]
  omega

namespace World

/-- The chunks after the simulation step are those of the margin. -/
theorem mem_chunks_simulate (sched : TickSchedule) (w : World) (c : ChunkCoord) :
    c ∈ (w.simulate sched).chunks ↔ c ∈ (w.ensureSimulationMarginUnlocked sched.margin).chunks := by
  rw [mem_chunks_iff, mem_chunks_iff, tryGetChunk_simulate, tryGetChunk_exchangeBorders]
  cases (w.ensureSimulationMarginUnlocked sched.margin).tryGetChunk c <;> simp

/-- A batch adds the chunks of its commands. -/
theorem mem_chunks_applyCommands {s : World × ResourceManager} {batch : List PlayerCommand}
    {c : ChunkCoord} (h : c ∈ (applyCommands s batch).1.chunks) :
    c ∈ s.1.chunks ∨ ∃ cmd ∈ batch, c = coordOf cmd := by
  induction batch generalizing s with
  | nil => exact Or.inl h
  | cons cmd batch ih =>
    rw [applyCommands_cons] at h
    rcases ih h with h | ⟨cmd', hcmd', hc⟩
    · by_cases hc : c = coordOf cmd
      · exact Or.inr ⟨cmd, List.mem_cons_self, hc⟩
      · obtain ⟨chunk, hchunk⟩ := mem_chunks_iff.mp h
        rw [tryGetChunk_applyCommand, if_neg hc] at hchunk
        exact Or.inl (mem_chunks_iff.mpr ⟨chunk, hchunk⟩)
    · exact Or.inr ⟨cmd', List.mem_cons_of_mem _ hcmd', hc⟩

end World

/-- All chunks and all queued commands lie at least `n` chunks inside. -/
structure GameServer.Spacious (n : ℤ) (g : GameServer) : Prop where
  chunks : ∀ c ∈ g.world.chunks, c.Inside n
  commands : ∀ cmd ∈ g.commandQueue, CoordWithin n cmd.x ∧ CoordWithin n cmd.y

namespace GameServer

variable {g : GameServer} {n : ℤ}

/-- Two chunks inside is roomy. -/
theorem Spacious.roomy (hn : 2 ≤ n) (h : g.Spacious n) : g.Roomy where
  world := ⟨fun c hc => (h.chunks c hc).mono (by omega), fun c chunk hchunk _ =>
    (h.chunks c (World.mem_chunks_iff.mpr ⟨chunk, hchunk⟩)).mono hn⟩
  commands cmd hcmd := by
    obtain ⟨⟨hxlow, -⟩, hylow, -⟩ := h.commands cmd hcmd
    unfold World.AxisRoomy
    omega

/-- **A tick comes one chunk closer to the ends.** -/
theorem Spacious.stepWorld (hn : 0 ≤ n) (h : g.Spacious (n + 1)) (sched : TickSchedule) :
    (g.stepWorld sched).1.Spacious n := by
  rw [stepWorld_eq]
  refine ⟨fun c hc => ?_, fun cmd hcmd => absurd hcmd List.not_mem_nil⟩
  rcases World.mem_chunks_applyCommands hc with hc | ⟨cmd, hcmd, rfl⟩
  · exact World.inside_of_mem_margin_of_live sched.margin hn
      (fun c hc => (h.chunks c hc).mono (by omega))
      (fun c chunk hchunk _ => h.chunks c (World.mem_chunks_iff.mpr ⟨chunk, hchunk⟩))
      ((World.mem_chunks_simulate sched g.world c).mp hc)
  · exact (inside_coordOf (by omega) (h.commands cmd hcmd)).mono (by omega)

/-- Serializing a delta adds no chunk. -/
theorem Spacious.serializeDelta (h : g.Spacious n) (order : Traversal ChunkCoord) :
    (g.serializeDelta order).2.Spacious n := by
  refine ⟨fun c hc => h.chunks c ?_, h.commands⟩
  obtain ⟨chunk, hchunk⟩ := World.mem_chunks_iff.mp hc
  rw [tryGetChunk_serializeDelta, Option.map_eq_some_iff] at hchunk
  obtain ⟨before, hbefore, -⟩ := hchunk
  exact World.mem_chunks_iff.mpr ⟨before, hbefore⟩

end GameServer

/-! ## Runs -/

/-- The command of this message, if it is one, lies at least `n` chunks inside. -/
def Label.Within (n : ℤ) : Label → Prop
  | .message _ (.command _ _ x y) => CoordWithin n x ∧ CoordWithin n y
  | _ => True

theorem Label.Within.mono {n n' : ℤ} {l : Label} (h : l.Within n) (hn : n' ≤ n) :
    l.Within n' := by
  cases l with
  | message self msg =>
    cases msg with
    | command type cmdPlayer x y =>
      obtain ⟨⟨hxlow, hxhigh⟩, hylow, hyhigh⟩ := h
      constructor <;> constructor <;> omega
    | _ => exact trivial
  | _ => exact trivial

/-- The label begins a tick. -/
def Label.startsTick : Label → Bool
  | .startTick _ => true
  | _ => false

/-- A condition on the server at the beginning of each tick. -/
def State.OnTick (P : TickSchedule → GameServer → Prop) (s : State) : Label → Prop
  | .startTick sched => P sched s.server
  | _ => True

namespace State

variable {s t : State} {n : ℤ}

theorem delivered_within {self : SessionPtr} {msg : ClientMessage}
    (hl : Label.Within n (.message self msg)) :
    ∀ cmd ∈ s.delivered self msg, CoordWithin n cmd.x ∧ CoordWithin n cmd.y := by
  intro cmd hcmd
  unfold delivered at hcmd
  cases hsession : s.sessionReading .message self with
  | none =>
    rw [hsession] at hcmd
    exact absurd hcmd List.not_mem_nil
  | some session =>
    rw [hsession, Option.map_some, Option.getD_some] at hcmd
    cases msg with
    | command type cmdPlayer x y =>
      rw [BoostNetworkManager.readNextMessage] at hcmd
      split_ifs at hcmd
      · exact absurd hcmd List.not_mem_nil
      · rw [List.mem_singleton.mp hcmd]
        exact hl
    | _ => exact absurd hcmd List.not_mem_nil

/-- **One turn**: a tick costs one chunk of distance, any other turn none. -/
theorem spacious_step {l : Label} (hn : 0 ≤ n) (h : s.step l = some t) (hl : l.Within n)
    (hs : s.server.Spacious (n + if l.startsTick then 1 else 0)) : t.server.Spacious n := by
  rw [server_of_step h]
  cases l with
  | startTick sched => exact hs.stepWorld hn sched
  | serializeDelta order =>
    have hs : s.server.Spacious n := by simpa [Label.startsTick] using hs
    exact hs.serializeDelta order
  | handshake self buf =>
    have hs : s.server.Spacious n := by simpa [Label.startsTick] using hs
    show GameServer.Spacious n
      (((s.handshakeId self buf).map Call.addPlayer).toList.foldl GameServer.call s.server)
    cases s.handshakeId self buf with
    | none => exact hs
    | some id => exact ⟨hs.chunks, hs.commands⟩
  | message self msg =>
    have hs : s.server.Spacious n := by simpa [Label.startsTick] using hs
    refine ⟨hs.chunks, fun cmd hcmd => ?_⟩
    rcases List.mem_append.mp hcmd with hcmd | hcmd
    · exact hs.commands cmd hcmd
    · exact delivered_within hl cmd hcmd
  | _ =>
    have hs : s.server.Spacious n := by simpa [Label.startsTick] using hs
    exact ⟨hs.chunks, hs.commands⟩

theorem noOverflow_of_spacious {ls : List Label}
    (hs : s.server.Spacious (ls.countP Label.startsTick + 1))
    (hls : ∀ l ∈ ls, l.Within (ls.countP Label.startsTick + 1)) :
    Always step (OnTick fun sched g => g.NoOverflow sched) s ls := by
  induction ls generalizing s with
  | nil => exact trivial
  | cons l ls ih =>
    have hcount : ((l :: ls).countP Label.startsTick : ℤ) =
        ls.countP Label.startsTick + if l.startsTick then 1 else 0 := by
      rw [List.countP_cons]
      push_cast
      rfl
    rw [hcount] at hs hls
    have hle : (0 : ℤ) ≤ if l.startsTick then 1 else 0 := by split_ifs <;> decide
    refine ⟨?_, fun s' hstep => ih ?_ fun l' hl' => ?_⟩
    · cases l with
      | startTick sched =>
        have htwo : (2 : ℤ) ≤ ls.countP Label.startsTick + 1 + 1 := by omega
        exact (GameServer.noOverflow_iff sched s.server).mpr (hs.roomy htwo)
      | _ => exact trivial
    · refine spacious_step (by omega) hstep ((hls l List.mem_cons_self).mono (by omega)) ?_
      rw [add_right_comm]
      exact hs
    · exact (hls l' (List.mem_cons_of_mem l hl')).mono (by omega)

/-- **When a run overflows nowhere.**  Exactly if each of its ticks starts from a roomy
state; and commands that stay one chunk inside for every tick of the run, and one more,
keep it so. -/
theorem run_noOverflow (ls : List Label) :
    (Always step (OnTick fun sched g => g.NoOverflow sched) {} ls ↔
      Always step (OnTick fun _ g => g.Roomy) {} ls) ∧
    ((∀ l ∈ ls, l.Within (ls.countP Label.startsTick + 1)) →
      Always step (OnTick fun sched g => g.NoOverflow sched) {} ls) := by
  refine ⟨always_congr fun s l => ?_, fun hls => noOverflow_of_spacious ?_ hls⟩
  · cases l with
    | startTick sched => exact GameServer.noOverflow_iff sched s.server
    | _ => exact Iff.rfl
  · refine ⟨fun c hc => absurd hc Finmap.notMem_empty, fun cmd hcmd => absurd hcmd List.not_mem_nil⟩

/-- **One command is enough.**  The run: connect, place a cell at the least 64-bit
coordinate, tick. -/
theorem run_overflows :
    ¬ ∀ ls, Always step (OnTick fun sched g => g.NoOverflow sched) {} ls := by
  intro hclaim
  have halways := hclaim (connectAndSend 7 .PlaceCell Int64.minValue 0 ++ [.startTick .sorted])
  have htick := (always_append.mp halways).2 _ (run_connectAndSend 7 .PlaceCell Int64.minValue 0)
  have hroomy := (GameServer.noOverflow_iff _ _).mp htick.1
  have hcoord : -2 ^ 63 + 64 ≤ Int64.minValue.toInt := (hroomy.commands _ List.mem_cons_self).1
  rw [Int64.toInt_minValue] at hcoord
  exact absurd hcoord (by decide)

end State
end Multilife

import UsbTrace.Interface.Device

/-!
# The device table over whole runs

`win_get` searches every slot before it takes one, ticks punch holes in the table, and
a full table recycles its least recently seen slot.  Through all of it a device has at
most one window, every ring index stays inside its array, and an event disturbs no
slot but its own device's, or the one slot a full table gives up.
-/

set_option autoImplicit false

namespace UsbTrace.Analysis

open UsbTrace.Model UsbTrace.Library UsbTrace.Interface

/-- Every slot's ring indices are those of an array of 1024 events; unused slots are
included, since a dropped window keeps its memory. -/
def RingsBounded (devs : DevTable) : Prop := ∀ i, RingBounded (devs i)

/-- A cleared window's ring is empty. -/
theorem ringBounded_fresh (k : DiagDevkey) : RingBounded (freshWin k) :=
  RingBuffer.bounded_empty _ (by decide)

/-- An ingest keeps its window's ring within bounds. -/
theorem ringBounded_ingestWin {w : Devwin} (hw : RingBounded w) (rules : List DiagRule)
    (evt : DiagEvent) (clock : ℕ → UInt64) :
    RingBounded (ingestWin rules w evt clock).1 := by
  unfold RingBounded
  rw [ringOf_ingestWin]
  exact hw.push evt

/-- Every operation keeps every ring within bounds. -/
theorem engineStep_ringsBounded (e : DiagEngine) (op : EngineOp) (hb : RingsBounded e.devs) :
    RingsBounded (engineStep e op).1.devs := by
  cases op with
  | ingest evt clock =>
    obtain ⟨i, w₀, hdevs, -, -, -, hcase⟩ := diagEngineIngest_cases e evt clock
    have hw₀ : RingBounded w₀ := by
      rcases hcase with ⟨-, rfl⟩ | ⟨-, rfl, -⟩
      · exact hb i
      · exact ringBounded_fresh _
    intro j
    simp only [engineStep, hdevs]
    by_cases hji : j = i
    · rw [hji, Function.update_self]
      exact ringBounded_ingestWin hw₀ e.rules evt clock
    · rw [Function.update_of_ne hji]
      exact hb j
  | tick nowNs =>
    intro i
    simp only [engineStep, diagEngineTick, foldl_emit_devs]
    unfold RingBounded
    rw [ringOf_tickWin]
    exact hb i

/-- The engine starts with every ring empty. -/
theorem ringsBounded_create (rules : List DiagRule) :
    RingsBounded (diagEngineCreate rules).devs := fun _ =>
  RingBuffer.bounded_empty (fun _ => ({} : DiagEvent)) (by decide : 0 < winMaxEvents)

/-- Ring indices are within bounds in every reachable engine. -/
theorem engineAfter_ringsBounded (rules : List DiagRule) (ops : List EngineOp) :
    RingsBounded (engineAfter rules ops).devs :=
  finalState_induct (fun e op => engineStep_ringsBounded e op) (ringsBounded_create rules) ops

/-- The window of a device has its ring within bounds, the empty one included. -/
theorem engineAfter_window_bounded (rules : List DiagRule) (ops : List EngineOp)
    (k : DiagDevkey) :
    RingBounded ((devLookup (engineAfter rules ops).devs k).getD (freshWin k)) := by
  cases hl : devLookup (engineAfter rules ops).devs k with
  | none => exact ringBounded_fresh k
  | some w =>
    obtain ⟨i, -, -, rfl⟩ := (engineAfter_keysUnique rules ops).lookup_eq_some.mp hl
    exact engineAfter_ringsBounded rules ops i

/-- A window in use belongs to a device the run has an event of. -/
theorem engineAfter_used_key (rules : List DiagRule) (ops : List EngineOp) :
    ∀ i, ((engineAfter rules ops).devs i).used = true → ∃ evt clock,
      EngineOp.ingest evt clock ∈ ops ∧
        diagEventKey evt = ((engineAfter rules ops).devs i).key := by
  induction ops using List.reverseRecOn with
  | nil =>
    intro i hi
    exact absurd hi (by simp [engineAfter, diagEngineCreate])
  | append_singleton ops op ih =>
    intro i hi
    rw [engineAfter_concat] at hi ⊢
    have hold : ((engineAfter rules ops).devs i).used = true → ∃ evt clock,
        EngineOp.ingest evt clock ∈ ops ++ [op] ∧
          diagEventKey evt = ((engineAfter rules ops).devs i).key := by
      intro hused
      obtain ⟨evt, clock, hmem, hkey⟩ := ih i hused
      exact ⟨evt, clock, List.mem_append_left _ hmem, hkey⟩
    cases op with
    | ingest evt clock =>
      obtain ⟨j, w₀, hdevs, -, -, hkey, -⟩ :=
        diagEngineIngest_cases (engineAfter rules ops) evt clock
      simp only [engineStep, hdevs] at hi ⊢
      by_cases hij : i = j
      · subst hij
        rw [Function.update_self, ingestWin_key, hkey]
        exact ⟨evt, clock, by simp, rfl⟩
      · rw [Function.update_of_ne hij] at hi ⊢
        exact hold hi
    | tick nowNs =>
      simp only [engineStep, diagEngineTick, foldl_emit_devs, tickWin_key] at hi ⊢
      exact hold (tickWin_used hi)

/-- An empty window that takes one event holds that event. -/
theorem winEvents_ingestWin_fresh (rules : List DiagRule) (k : DiagDevkey) (evt : DiagEvent)
    (clock : ℕ → UInt64) :
    winEvents (ingestWin rules (freshWin k) evt clock).1 = [evt] := by
  obtain ⟨lf, h⟩ := ingestWin_fst rules (freshWin k) evt clock
  have hring : ringOf (ingestWin rules (freshWin k) evt clock).1 =
      ringOf (noteEvent (freshWin k) evt) := by rw [h]; rfl
  rw [winEvents_congr hring, winEvents_noteEvent (ringBounded_fresh k)]
  rfl

/-- **The device table.**  In every reachable engine the keys of used slots are distinct
and ring indices are in range; an ingest for `k` leaves the slot of every other device
as it was unless all 128 slots are used and none holds `k`, and then it replaces exactly
one slot, one seen least recently, by a window of `k` that started empty.
SOURCE: engine.c:220-256, 562-573, 657-659 -/
theorem engineAfter_deviceTable (rules : List DiagRule) (ops : List EngineOp) :
    (∀ i j, ((engineAfter rules ops).devs i).used = true →
      ((engineAfter rules ops).devs j).used = true →
      ((engineAfter rules ops).devs i).key = ((engineAfter rules ops).devs j).key → i = j) ∧
    (∀ i, ((engineAfter rules ops).devs i).used = true →
      ((engineAfter rules ops).devs i).head < 1024 ∧
        ((engineAfter rules ops).devs i).count ≤ 1024) ∧
    ∀ (evt : DiagEvent) (clock : ℕ → UInt64),
      (¬((∀ i, ((engineAfter rules ops).devs i).used = true) ∧
          ∀ i, ((engineAfter rules ops).devs i).key ≠ diagEventKey evt) →
        ∀ j, ((engineAfter rules ops).devs j).used = true →
          ((engineAfter rules ops).devs j).key ≠ diagEventKey evt →
          (diagEngineIngest (engineAfter rules ops) evt clock).1.devs j =
            (engineAfter rules ops).devs j) ∧
      ((∀ i, ((engineAfter rules ops).devs i).used = true) ∧
          (∀ i, ((engineAfter rules ops).devs i).key ≠ diagEventKey evt) →
        ∃ i,
          (∀ j, j ≠ i → (diagEngineIngest (engineAfter rules ops) evt clock).1.devs j =
            (engineAfter rules ops).devs j) ∧
          (∀ j, ((engineAfter rules ops).devs i).lastSeenNs ≤
            ((engineAfter rules ops).devs j).lastSeenNs) ∧
          (diagEngineIngest (engineAfter rules ops) evt clock).1.devs i =
            (ingestWin rules (freshWin (diagEventKey evt)) evt clock).1 ∧
          winEvents ((diagEngineIngest (engineAfter rules ops) evt clock).1.devs i) = [evt]) := by
  have hu := engineAfter_keysUnique rules ops
  refine ⟨hu, fun i _ => ?_, fun evt clock => ?_⟩
  · have hb := engineAfter_ringsBounded rules ops i
    exact ⟨hb.head_lt, hb.count_le⟩
  obtain ⟨i, w₀, hdevs, -, -, -, hcase⟩ :=
    diagEngineIngest_cases (engineAfter rules ops) evt clock
  constructor
  · intro hroom j hj hkj
    -- the slot written held the key or was free, so it is not slot `j`
    have hji : j ≠ i := by
      rintro rfl
      rcases hcase with ⟨hf, -⟩ | ⟨hf, -, hfree | ⟨hfull, -⟩⟩
      · exact hkj (SlotTable.find_some hf).2
      · rw [hfree] at hj
        exact absurd hj (by simp)
      · exact hroom ⟨hfull, fun i => SlotTable.find_eq_none.mp hf i (hfull i)⟩
    rw [hdevs, Function.update_of_ne hji]
  · rintro ⟨hfull, hnone⟩
    rcases hcase with ⟨hf, -⟩ | ⟨-, rfl, hfree | ⟨-, hleast⟩⟩
    · exact absurd (SlotTable.find_some hf).2 (hnone i)
    · rw [hfull i] at hfree
      exact absurd hfree (by simp)
    · have hi : (diagEngineIngest (engineAfter rules ops) evt clock).1.devs i =
          (ingestWin rules (freshWin (diagEventKey evt)) evt clock).1 := by
        rw [hdevs, Function.update_self, engineAfter_rules]
      refine ⟨i, fun j hji => by rw [hdevs, Function.update_of_ne hji], fun j => ?_, hi, ?_⟩
      · exact UInt64.le_iff_toNat_le.mpr (hleast j)
      · rw [hi]
        exact winEvents_ingestWin_fresh rules _ evt clock

end UsbTrace.Analysis

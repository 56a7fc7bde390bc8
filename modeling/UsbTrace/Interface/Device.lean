import UsbTrace.Analysis.Window

/-!
# The engine as one machine per device

What the engine is for, seen from one device key: an optional window, created by the
device's first event, driven by its own events and by ticks, and dropped when idle.
`deviceStep` is that machine; it knows neither slots nor other devices.

`engineStep_lookup` and `engineStep_findings` connect it to the engine: on every step
the window the table holds for a key, and the findings printed for it, are those of
`deviceStep`, except that an event of a new device may recycle the slot while all 128
are taken (`Recycles`).
-/

set_option autoImplicit false

namespace UsbTrace.Interface

open UsbTrace.Model UsbTrace.Library UsbTrace.Analysis

/-- The window the table holds for a device. -/
def devLookup (devs : DevTable) (k : DiagDevkey) : Option Devwin :=
  SlotTable.lookup Devwin.used Devwin.key devs k

/-- No two used slots hold the same device. -/
def KeysUnique (devs : DevTable) : Prop :=
  SlotTable.KeysUnique Devwin.used Devwin.key devs

/-- An operation as one device sees it. -/
def deviceStep (rules : List DiagRule) (k : DiagDevkey) (ow : Option Devwin) :
    EngineOp → Option Devwin × List Finding
  | .ingest evt clock =>
    if diagEventKey evt = k then
      let r := ingestWin rules (ow.getD (freshWin k)) evt clock
      (some r.1, r.2)
    else (ow, [])
  | .tick nowNs =>
    match ow with
    | none => (none, [])
    | some w =>
      let r := tickWin rules nowNs w
      (if r.1.used then some r.1 else none, r.2)

/-- The operation is an event of a device without a window while all slots are used. -/
def Recycles (devs : DevTable) : EngineOp → Prop
  | .ingest evt _ => devLookup devs (diagEventKey evt) = none ∧ ∀ i, (devs i).used = true
  | .tick _ => False

/-- Findings of one device. -/
def ofDevice (k : DiagDevkey) (f : Finding) : Bool := decide (f.key = k)

/-! ## Emitting moves counters only -/

@[simp] theorem foldl_emit_devs (fs : List Finding) (e : DiagEngine) :
    (fs.foldl emit e).devs = e.devs := by
  induction fs generalizing e with
  | nil => rfl
  | cons f fs ih => rw [List.foldl_cons, ih]; rfl

@[simp] theorem foldl_emit_rules (fs : List Finding) (e : DiagEngine) :
    (fs.foldl emit e).rules = e.rules := by
  induction fs generalizing e with
  | nil => rfl
  | cons f fs ih => rw [List.foldl_cons, ih]; rfl

/-! ## Where an event of a device goes -/

/-- `win_get` with `create` set: the slot that holds the key, a free slot when none
does, or, with all slots used, one that was seen least recently.  The window there is
the key's own, or an empty one.
SOURCE: engine.c:220-248 -/
theorem winGet_cases (devs : DevTable) (k : DiagDevkey) :
    ∃ i devs', winGet devs k true = (some i, devs') ∧
      ((winFind devs k = some i ∧ devs' = devs) ∨
        (winFind devs k = none ∧ devs' = Function.update devs i (freshWin k) ∧
          ((devs i).used = false ∨
            ((∀ j, (devs j).used = true) ∧
              ∀ j, (devs i).lastSeenNs.toNat ≤ (devs j).lastSeenNs.toNat)))) := by
  cases hf : winFind devs k with
  | some i => exact ⟨i, devs, by simp [winGet, hf], Or.inl ⟨rfl, rfl⟩⟩
  | none =>
    obtain ⟨i, hi⟩ := Option.isSome_iff_exists.mp
      (SlotTable.place_isSome Devwin.used (fun w : Devwin => w.lastSeenNs.toNat) devs)
    have hp : winPlace devs = some i := hi
    refine ⟨i, Function.update devs i (freshWin k), by simp [winGet, hf, hp], Or.inr ?_⟩
    refine ⟨rfl, rfl, ?_⟩
    by_cases hfree : ∃ j, (devs j).used = false
    · exact Or.inl (SlotTable.place_free hfree hi)
    · right
      have hfull : ∀ j, (devs j).used = true := by simpa using hfree
      exact ⟨hfull, fun j => SlotTable.place_least hfull hi j⟩

/-- **One ingest, slot by slot.**  It rewrites a single slot: the one that holds the
key, a free one, or a least recently seen one; the window it works on is the key's own
or an empty one. -/
theorem diagEngineIngest_cases (e : DiagEngine) (evt : DiagEvent) (clock : ℕ → UInt64) :
    ∃ i w₀, (diagEngineIngest e evt clock).1.devs =
        Function.update e.devs i (ingestWin e.rules w₀ evt clock).1 ∧
      (diagEngineIngest e evt clock).2 = (ingestWin e.rules w₀ evt clock).2 ∧
      w₀.used = true ∧ w₀.key = diagEventKey evt ∧
      ((winFind e.devs (diagEventKey evt) = some i ∧ w₀ = e.devs i) ∨
        (winFind e.devs (diagEventKey evt) = none ∧ w₀ = freshWin (diagEventKey evt) ∧
          ((e.devs i).used = false ∨
            ((∀ j, (e.devs j).used = true) ∧
              ∀ j, (e.devs i).lastSeenNs.toNat ≤ (e.devs j).lastSeenNs.toNat)))) := by
  obtain ⟨i, devs', hget, hcase⟩ := winGet_cases e.devs (diagEventKey evt)
  refine ⟨i, devs' i, ?_, ?_, ?_⟩
  · have hupd : Function.update devs' i (ingestWin e.rules (devs' i) evt clock).1 =
        Function.update e.devs i (ingestWin e.rules (devs' i) evt clock).1 := by
      rcases hcase with ⟨-, rfl⟩ | ⟨-, rfl, -⟩
      · rfl
      · exact Function.update_idem _ _ _
    simp only [diagEngineIngest, hget, foldl_emit_devs]
    exact hupd
  · simp only [diagEngineIngest, hget]
  · rcases hcase with ⟨hf, rfl⟩ | ⟨hf, rfl, hslot⟩
    · obtain ⟨hu, hk⟩ := SlotTable.find_some hf
      exact ⟨hu, hk, Or.inl ⟨hf, rfl⟩⟩
    · have hfresh : Function.update e.devs i (freshWin (diagEventKey evt)) i =
          freshWin (diagEventKey evt) := Function.update_self _ _ _
      rw [hfresh]
      exact ⟨rfl, rfl, Or.inr ⟨hf, rfl, hslot⟩⟩

/-- The slots an ingest does not touch never hold its key. -/
theorem winFind_other {devs : DevTable} (hu : KeysUnique devs) {k : DiagDevkey}
    {i : Fin winMaxDevs}
    (h : winFind devs k = some i ∨ winFind devs k = none) :
    ∀ j, j ≠ i → (devs j).used = true → (devs j).key ≠ k := by
  intro j hji hj hk
  rcases h with h | h
  · obtain ⟨hi, hki⟩ := SlotTable.find_some h
    exact hji (hu j i hj hi (hk.trans hki.symm))
  · exact SlotTable.find_eq_none.mp h j hj hk

/-! ## Unique keys -/

/-- The engine starts with no window. -/
theorem keysUnique_create (rules : List DiagRule) : KeysUnique (diagEngineCreate rules).devs := by
  intro i j hi
  simp [diagEngineCreate] at hi

/-- **Every operation keeps device keys unique.** -/
theorem engineStep_keysUnique (e : DiagEngine) (op : EngineOp) (hu : KeysUnique e.devs) :
    KeysUnique (engineStep e op).1.devs := by
  cases op with
  | ingest evt clock =>
    obtain ⟨i, w₀, hdevs, -, -, hkey, hcase⟩ := diagEngineIngest_cases e evt clock
    have hother := winFind_other hu (i := i) (hcase.imp And.left And.left)
    simp only [engineStep]
    rw [hdevs]
    refine hu.update i _ fun j hji hj => ?_
    rw [ingestWin_key, hkey]
    exact hother j hji hj
  | tick nowNs =>
    simp only [engineStep, diagEngineTick, foldl_emit_devs]
    exact hu.of_shrink fun i hi => ⟨tickWin_used hi, tickWin_key _ _ _⟩

@[simp] theorem engineStep_rules (e : DiagEngine) (op : EngineOp) :
    (engineStep e op).1.rules = e.rules := by
  cases op with
  | ingest evt clock =>
    obtain ⟨i, devs', hget, -⟩ := winGet_cases e.devs (diagEventKey evt)
    simp only [engineStep, diagEngineIngest, hget, foldl_emit_rules]
  | tick nowNs => simp only [engineStep, diagEngineTick, foldl_emit_rules]

/-! ## The engine drives each device's machine -/

/-- A flattened table of lists that are empty but for one slot is that slot's list. -/
theorem flatMap_finRange_single {α : Type} {n : ℕ} (g : Fin n → List α) (i : Fin n)
    (h : ∀ j, j ≠ i → g j = []) : (List.finRange n).flatMap g = g i := by
  obtain ⟨l₁, l₂, hl⟩ := List.append_of_mem (List.mem_finRange i)
  have hnd : (l₁ ++ i :: l₂).Nodup := hl ▸ List.nodup_finRange n
  have h₁ : ∀ j ∈ l₁, g j = [] := fun j hj =>
    h j fun hji => (List.nodup_append.mp hnd).2.2 j hj i (by simp) hji
  have h₂ : ∀ j ∈ l₂, g j = [] := fun j hj =>
    h j fun hji => (List.nodup_cons.mp (List.nodup_append.mp hnd).2.1).1 (hji ▸ hj)
  rw [hl, List.flatMap_append, List.flatMap_cons, List.flatMap_eq_nil_iff.mpr h₁,
    List.flatMap_eq_nil_iff.mpr h₂, List.nil_append, List.append_nil]

/-- Findings of one device among findings that all carry the key `k'`. -/
theorem filter_ofDevice {fs : List Finding} {k k' : DiagDevkey} (h : ∀ f ∈ fs, f.key = k') :
    fs.filter (ofDevice k) = if k' = k then fs else [] := by
  split
  · next hk =>
    refine List.filter_eq_self.mpr fun f hf => ?_
    simp [ofDevice, h f hf, hk]
  · next hk =>
    refine List.filter_eq_nil_iff.mpr fun f hf => ?_
    simp [ofDevice, h f hf, hk]

/-- Reading the window an ingest of the device's own event starts from. -/
theorem ingest_start {e : DiagEngine} {k : DiagDevkey} {i : Fin winMaxDevs} {w₀ : Devwin}
    {R : Prop}
    (h : (winFind e.devs k = some i ∧ w₀ = e.devs i) ∨
      (winFind e.devs k = none ∧ w₀ = freshWin k ∧ R)) :
    w₀ = (devLookup e.devs k).getD (freshWin k) := by
  rcases h with ⟨hf, rfl⟩ | ⟨hf, rfl, -⟩
  · have : devLookup e.devs k = some (e.devs i) := by
      simp only [devLookup, SlotTable.lookup]
      rw [show SlotTable.find Devwin.used Devwin.key e.devs k = some i from hf]
      rfl
    rw [this]
    rfl
  · have : devLookup e.devs k = none := by
      simp only [devLookup, SlotTable.lookup]
      rw [show SlotTable.find Devwin.used Devwin.key e.devs k = none from hf]
      rfl
    rw [this]
    rfl

/-- **An ingest starts from the window of its event's device**, or from an empty one.
SOURCE: engine.c:562-617 -/
theorem diagEngineIngest_snd (e : DiagEngine) (evt : DiagEvent) (clock : ℕ → UInt64) :
    (diagEngineIngest e evt clock).2 = (ingestWin e.rules
      ((devLookup e.devs (diagEventKey evt)).getD (freshWin (diagEventKey evt))) evt clock).2 := by
  obtain ⟨i, w₀, -, hfs, -, -, hcase⟩ := diagEngineIngest_cases e evt clock
  rw [hfs, ingest_start hcase]

/-- **The window of a device after one operation** is the one its own machine reaches,
or the slot has been recycled by an event of another device.
SOURCE: engine.c:562-661 -/
theorem engineStep_lookup {e : DiagEngine} (hu : KeysUnique e.devs) (k : DiagDevkey)
    (op : EngineOp) :
    devLookup (engineStep e op).1.devs k = (deviceStep e.rules k (devLookup e.devs k) op).1 ∨
      (Recycles e.devs op ∧ devLookup e.devs k ≠ none ∧
        devLookup (engineStep e op).1.devs k = none) := by
  cases op with
  | ingest evt clock =>
    obtain ⟨i, w₀, hdevs, -, hused, hkey, hcase⟩ := diagEngineIngest_cases e evt clock
    have hother := winFind_other hu (i := i) (hcase.imp And.left And.left)
    have hw : ∀ j, j ≠ i → (e.devs j).used = true →
        (e.devs j).key ≠ (ingestWin e.rules w₀ evt clock).1.key := by
      intro j hji hj
      rw [ingestWin_key, hkey]
      exact hother j hji hj
    simp only [engineStep, hdevs]
    by_cases hk : diagEventKey evt = k
    · -- the device's own event: its slot holds what the ingest left there
      left
      subst hk
      have hself := SlotTable.KeysUnique.lookup_update_self hu i
        (ingestWin e.rules w₀ evt clock).1 hw (by rw [ingestWin_used, hused])
      rw [ingestWin_key, hkey] at hself
      simp only [deviceStep, if_true, ← ingest_start hcase]
      exact hself
    · have hkw : (ingestWin e.rules w₀ evt clock).1.key ≠ k := by
        rw [ingestWin_key, hkey]
        exact hk
      simp only [deviceStep, if_neg hk]
      by_cases hi : (e.devs i).used = true ∧ (e.devs i).key = k
      · -- the slot taken was the device's: that is recycling
        right
        rcases hcase with ⟨hf, -⟩ | ⟨hf, -, hfree | ⟨hfull, -⟩⟩
        · exact absurd ((SlotTable.find_some hf).2.symm.trans hi.2) hk
        · rw [hfree] at hi
          exact absurd hi.1 (by simp)
        · refine ⟨⟨?_, hfull⟩, ?_, ?_⟩
          · simp only [devLookup, SlotTable.lookup]
            rw [show SlotTable.find Devwin.used Devwin.key e.devs _ = none from hf]
            rfl
          · exact fun hnone => SlotTable.lookup_eq_none.mp hnone i hi.1 hi.2
          · refine SlotTable.lookup_eq_none.mpr fun j hj => ?_
            by_cases hji : j = i
            · subst hji
              simpa using hkw
            · simp only [Function.update_of_ne hji] at hj ⊢
              exact fun hjk => hji (hu j i hj hi.1 (hjk.trans hi.2.symm))
      · left
        exact SlotTable.KeysUnique.lookup_update_other hu i _ hw hkw
          (fun h h' => hi ⟨h, h'⟩)
  | tick nowNs =>
    left
    have hmap := SlotTable.KeysUnique.lookup_map hu (fun w => (tickWin e.rules nowNs w).1)
      (fun w hw => tickWin_used hw) (fun w => tickWin_key _ _ _) k
    simp only [engineStep, diagEngineTick, foldl_emit_devs, devLookup] at hmap ⊢
    rw [hmap]
    cases SlotTable.lookup Devwin.used Devwin.key e.devs k <;> rfl

/-- After an ingest, the table holds the window of its event's device. -/
theorem engineStep_lookup_own {e : DiagEngine} (hu : KeysUnique e.devs) (evt : DiagEvent)
    (clock : ℕ → UInt64) :
    devLookup (engineStep e (.ingest evt clock)).1.devs (diagEventKey evt) =
      some (ingestWin e.rules ((devLookup e.devs (diagEventKey evt)).getD
        (freshWin (diagEventKey evt))) evt clock).1 := by
  rcases engineStep_lookup hu (diagEventKey evt) (.ingest evt clock) with h | ⟨h, hsome, -⟩
  · rw [h]
    simp only [deviceStep, if_true]
  · exact absurd h.1 hsome

/-- A window a device has after an operation on another device, or after a tick, is one it
had before. -/
theorem engineStep_lookup_isSome {e : DiagEngine} (hu : KeysUnique e.devs) {k : DiagDevkey}
    {op : EngineOp} (hop : ∀ evt clock, op = .ingest evt clock → diagEventKey evt ≠ k)
    (h : (devLookup (engineStep e op).1.devs k).isSome) : (devLookup e.devs k).isSome := by
  rcases engineStep_lookup hu k op with hl | ⟨-, -, hl⟩
  · rw [hl] at h
    cases op with
    | ingest evt clock => simpa only [deviceStep, if_neg (hop evt clock rfl)] using h
    | tick nowNs =>
      cases hd : devLookup e.devs k with
      | none => simp [deviceStep, hd] at h
      | some w => rfl
  · simp [hl] at h

/-- **The findings one operation prints for a device** are those of its own machine.
SOURCE: engine.c:562-661 -/
theorem engineStep_findings {e : DiagEngine} (hu : KeysUnique e.devs) (k : DiagDevkey)
    (op : EngineOp) :
    (engineStep e op).2.filter (ofDevice k) =
      (deviceStep e.rules k (devLookup e.devs k) op).2 := by
  cases op with
  | ingest evt clock =>
    obtain ⟨i, w₀, -, hfs, -, hkey, hcase⟩ := diagEngineIngest_cases e evt clock
    have hkeys : ∀ f ∈ (ingestWin e.rules w₀ evt clock).2, f.key = diagEventKey evt := by
      intro f hf
      rw [ingestWin_finding_key e.rules w₀ evt clock f hf, hkey]
    simp only [engineStep, hfs, filter_ofDevice hkeys, deviceStep]
    split
    · next hk =>
      subst hk
      rw [← ingest_start hcase]
    · rfl
  | tick nowNs =>
    simp only [engineStep, diagEngineTick, List.filter_flatMap]
    have hslot : ∀ i, ((tickWin e.rules nowNs (e.devs i)).2).filter (ofDevice k) =
        if (e.devs i).key = k then (tickWin e.rules nowNs (e.devs i)).2 else [] :=
      fun i => filter_ofDevice (tickWin_finding_key e.rules nowNs (e.devs i))
    have hunused : ∀ i, (e.devs i).used = false → (tickWin e.rules nowNs (e.devs i)).2 = [] :=
      fun i hi => by rw [tickWin_unused e.rules nowNs _ hi]
    cases hl : devLookup e.devs k with
    | none =>
      have hnone := SlotTable.lookup_eq_none.mp hl
      refine List.flatMap_eq_nil_iff.mpr fun i _ => ?_
      rw [hslot]
      split
      · next hk =>
        refine hunused i ?_
        cases hi : (e.devs i).used with
        | false => rfl
        | true => exact absurd hk (hnone i hi)
      · rfl
    | some w =>
      obtain ⟨i, hi, hk, rfl⟩ := hu.lookup_eq_some.mp hl
      rw [flatMap_finRange_single _ i, hslot, if_pos hk]
      · rfl
      · intro j hji
        rw [hslot]
        split
        · next hjk =>
          refine hunused j ?_
          cases hj : (e.devs j).used with
          | false => rfl
          | true => exact absurd (hu j i hj hi (hjk.trans hk.symm)) hji
        · rfl

/-! ## Runs -/

/-- The last operation of a run takes its step in the engine the others lead to. -/
theorem engineAfter_concat (rules : List DiagRule) (ops : List EngineOp) (op : EngineOp) :
    engineAfter rules (ops ++ [op]) = (engineStep (engineAfter rules ops) op).1 :=
  finalState_concat ..

/-- No device has a window when the engine starts. -/
theorem devLookup_create (rules : List DiagRule) (k : DiagDevkey) :
    devLookup (diagEngineCreate rules).devs k = none :=
  SlotTable.lookup_eq_none.mpr fun i hi => absurd hi (by simp [diagEngineCreate])

/-- Device keys are unique in every reachable engine. -/
theorem engineAfter_keysUnique (rules : List DiagRule) (ops : List EngineOp) :
    KeysUnique (engineAfter rules ops).devs :=
  finalState_induct (fun e op => engineStep_keysUnique e op) (keysUnique_create rules) ops

@[simp] theorem engineAfter_rules (rules : List DiagRule) (ops : List EngineOp) :
    (engineAfter rules ops).rules = rules :=
  finalState_induct (I := fun e : DiagEngine => e.rules = rules)
    (fun e op h => by rw [engineStep_rules, h]) rfl ops

end UsbTrace.Interface

import UsbTrace.Analysis.RateReuse

/-!
# The slots of a run

The slot of an endpoint is made of the records of that endpoint alone, all of them and in their
order.  So whatever a new slot has, a record keeps and a flush keeps (`SlotRule`), every slot of
every run has, and every slot of every window (`run_slots`, `window_slots`).
-/

set_option autoImplicit false

namespace UsbTrace.Interface

open UsbTrace.Model UsbTrace.Library UsbTrace.Analysis

/-- The record of an operation, where it is one of the endpoint. -/
def recordAt (k : RateKey) : RateOp → Option ClassUrbEvent
  | .record e => if inKey (.record e) = some k then some e else none
  | .stop => none

/-- The records of an endpoint. -/
def recordsAt (k : RateKey) (ops : List RateOp) : List ClassUrbEvent := ops.filterMap (recordAt k)

/-- What a new slot has, and records and flushes keep. -/
structure SlotRule (P : HidRateSlot → List ClassUrbEvent → Prop) : Prop where
  fresh : ∀ e, P (newSlot e) []
  note : ∀ s es e, P s es → P (slotNote s e) (es ++ [e])
  clear : ∀ s es, P s es → P s.clearWindow es

theorem recordsAt_concat (k : RateKey) (ops : List RateOp) (op : RateOp) :
    recordsAt k (ops ++ [op]) = recordsAt k ops ++ (recordAt k op).toList := by
  rw [recordsAt, List.filterMap_append]
  rfl

theorem recordAt_of_ne {k : RateKey} {op : RateOp} (h : inKey op ≠ some k) :
    recordAt k op = none := by
  cases op with
  | record e => exact if_neg h
  | stop => rfl

theorem recordsAt_of_not_mem {k : RateKey} {ops : List RateOp} (h : k ∉ endpointsOf ops) :
    recordsAt k ops = [] := by
  refine List.filterMap_eq_nil_iff.mpr fun op hop => recordAt_of_ne fun hk => ?_
  exact h (List.mem_filterMap.mpr ⟨op, hop, hk⟩)

/-! ## Endpoints with a slot -/

theorem endpointsOf_concat (ops : List RateOp) (op : RateOp) :
    endpointsOf (ops ++ [op]) = endpointsOf ops ++ (inKey op).toList :=
  (records_concat ⟨0, 0, 0⟩ ops op).2.2

theorem serves_noteOp {m : RateMeter} {l : List RateKey} (h : m.slots.Serves l) (op : RateOp) :
    (noteOp m op).slots.Serves (l ++ (inKey op).toList) := by
  cases hin : inKey op with
  | none =>
    rw [noteOp_of_none m hin, Option.toList_none, List.append_nil]
    exact h
  | some k =>
    obtain ⟨e, rfl, -, -, rfl⟩ := inKey_eq_some hin
    rw [noteOp_of_in m hin]
    exact serves_noteSlots h e

theorem serves_flushed {m : RateMeter} {l : List RateKey} (h : m.slots.Serves l)
    (nowNs : UInt64) : (flushed m nowNs).1.slots.Serves l := by
  unfold BoundedMap.Serves at h ⊢
  rw [← h]
  exact congrArg List.reverse (BoundedMap.keys_mapValues _ _)

/-! ## Runs -/

/-- The slots there are, and those there is a place for. -/
structure SlotsHold (P : HidRateSlot → List ClassUrbEvent → Prop) (ops : List RateOp)
    (m : RateMeter) : Prop where
  serves : m.slots.Serves (endpointsOf ops)
  slots : ∀ k s, m.slots.lookup k = some s → P s (recordsAt k ops)

variable {P : HidRateSlot → List ClassUrbEvent → Prop} {cfg : RateConfig} {ops : List RateOp}
  {m : RateMeter}

/-- An endpoint that gets a slot now had no record before. -/
theorem SlotsHold.getD (h : SlotsHold P ops m) (hP : SlotRule P) {e : ClassUrbEvent}
    (hroom : m.slots.HasRoom (rateKey e)) :
    P ((m.slots.lookup (rateKey e)).getD (newSlot e)) (recordsAt (rateKey e) ops) := by
  cases hold : m.slots.lookup (rateKey e) with
  | some s => exact h.slots _ s hold
  | none =>
    have hnew : rateKey e ∉ endpointsOf ops := by
      intro hmem
      have hserved := (h.serves.hasRoom_iff (rateKey e) (newSlot e)).mp hroom
      have hkeys := h.serves.mem_keys.mpr ((BoundedMap.mem_served_append hmem).mp hserved)
      rw [BoundedMap.mem_keys_iff, hold] at hkeys
      cases hkeys
    rw [recordsAt_of_not_mem hnew]
    exact hP.fresh e

/-- **Noting a record.** -/
theorem SlotsHold.note (h : SlotsHold P ops m) (hP : SlotRule P) (op : RateOp) :
    SlotsHold P (ops ++ [op]) (noteOp m op) := by
  refine ⟨?_, fun k s hs => ?_⟩
  · rw [endpointsOf_concat]
    exact serves_noteOp h.serves op
  rw [recordsAt_concat]
  by_cases hk : inKey op = some k
  · obtain ⟨e, rfl, -, -, rfl⟩ := inKey_eq_some hk
    have hrecord : recordAt (rateKey e) (.record e) = some e := if_pos hk
    rw [noteOp_of_in m hk] at hs
    change (noteSlots m.slots e).lookup (rateKey e) = some s at hs
    have hroom : m.slots.HasRoom (rateKey e) := by
      by_contra hfull
      rw [noteSlots_of_not_hasRoom hfull] at hs
      exact hfull (BoundedMap.hasRoom_of_lookup hs)
    rw [noteSlots_of_hasRoom hroom] at hs
    cases hs
    rw [hrecord]
    exact hP.note _ _ e (h.getD hP hroom)
  · rw [recordAt_of_ne hk, Option.toList_none, List.append_nil]
    refine h.slots k s ?_
    rw [← hs]
    cases hin : inKey op with
    | none => rw [noteOp_of_none m hin]
    | some k' =>
      obtain ⟨e, rfl, -, -, rfl⟩ := inKey_eq_some hin
      rw [noteOp_of_in m hin]
      refine (noteSlots_of_ne m.slots e ?_).symm
      rintro rfl
      exact hk hin

/-- **A flush.** -/
theorem SlotsHold.flush (h : SlotsHold P ops m) (hP : SlotRule P) (nowNs : UInt64) :
    SlotsHold P ops (flushed m nowNs).1 := by
  refine ⟨serves_flushed h.serves nowNs, fun k s hs => ?_⟩
  obtain ⟨s', hs', rfl⟩ :=
    Option.map_eq_some_iff.mp ((BoundedMap.lookup_mapValues _ _ _).symm.trans hs)
  exact hP.clear s' _ (h.slots k s' hs')

/-- A meter that is off stays empty. -/
theorem rateStep_off (hrate : cfg.rate = false) (m : RateMeter) (op : RateOp) :
    rateStep cfg m op = (m, []) := by
  cases op with
  | record e =>
    rw [rateStep]
    split
    · exact if_pos (.inl (by rw [hrate]; rfl))
    · rfl
  | stop => exact if_neg fun h => Bool.false_ne_true (hrate ▸ h.1)

/-- **One operation.** -/
theorem SlotsHold.step (h : SlotsHold P ops m) (hP : SlotRule P) (hrate : cfg.rate = true)
    (op : RateOp) :
    SlotsHold P (ops ++ [op]) (rateStep cfg m op).1 ∧
      ∀ w ∈ (rateStep cfg m op).2, ∀ k s, w.slots.lookup k = some s →
        P s (recordsAt k (ops ++ [op])) := by
  have hnote := h.note hP op
  rcases rateStep_cases hrate m op with heq | ⟨nowNs, -, -, heq⟩
  · rw [heq]
    exact ⟨hnote, fun w hw => absurd hw List.not_mem_nil⟩
  · rw [heq]
    refine ⟨hnote.flush hP nowNs, fun w hw => ?_⟩
    obtain rfl := List.mem_singleton.mp hw
    exact hnote.slots

theorem run_slotsHold (hP : SlotRule P) (hrate : cfg.rate = true) (ops : List RateOp) :
    SlotsHold P ops (meterAfter cfg ops) := by
  induction ops using List.reverseRecOn with
  | nil => exact ⟨BoundedMap.serves_empty, fun k s hs => by cases hs⟩
  | append_singleton ops op ih =>
    rw [meterAfter, finalState_concat]
    exact (ih.step hP hrate op).1

/-- A run of a meter that is off. -/
theorem run_off (hrate : cfg.rate = false) (ops : List RateOp) :
    meterAfter cfg ops = RateMeter.empty ∧ windowsOf cfg ops = [] := by
  induction ops using List.reverseRecOn with
  | nil => exact ⟨rfl, rfl⟩
  | append_singleton ops op ih =>
    rw [meterAfter, windowsOf, finalState_concat, outputs_concat, rateStep_off hrate,
      List.append_nil]
    exact ih

/-- **Every slot of a run** has what the rule says. -/
theorem run_slots (hP : SlotRule P) (cfg : RateConfig) (ops : List RateOp) {k : RateKey}
    {s : HidRateSlot} (hs : (meterAfter cfg ops).slots.lookup k = some s) :
    P s (recordsAt k ops) := by
  cases hrate : cfg.rate with
  | true => exact (run_slotsHold hP hrate ops).slots k s hs
  | false =>
    rw [(run_off hrate ops).1] at hs
    cases hs

/-- **So has every slot of a window**, for the records up to its flush. -/
theorem window_slots (hP : SlotRule P) (cfg : RateConfig) (ops : List RateOp) {w : RateWindow}
    (hw : w ∈ windowsOf cfg ops) :
    ∃ seen, seen <+: ops ∧ ∀ k s, w.slots.lookup k = some s → P s (recordsAt k seen) := by
  cases hrate : cfg.rate with
  | true =>
    obtain ⟨pre, op, post, rfl, hstep⟩ := mem_outputs hw
    refine ⟨pre ++ [op], ⟨post, by rw [List.append_assoc, List.singleton_append]⟩, ?_⟩
    exact ((run_slotsHold hP hrate pre).step hP hrate op).2 w hstep
  | false =>
    rw [(run_off hrate ops).2] at hw
    cases hw

end UsbTrace.Interface

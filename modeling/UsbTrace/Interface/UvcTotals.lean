import UsbTrace.Interface.ModuleSession
import UsbTrace.Library.Samples
import UsbTrace.Model.UvcReport

/-!
# The tallies of the uvc module

The consumer reads each record as one of four kinds (`uvcInput`), and its tallies are functions
of the records it has read (`uvcTotals`): counts and sums, each modulo the range of its type, and
the least and the greatest of the intervals that were measured.
-/

set_option autoImplicit false

namespace UsbTrace.Interface

open UsbTrace.Model UsbTrace.Library

/-! ## Inputs -/

/-- A record the consumer takes notice of. -/
inductive UvcInput where
  | frame (e : UvcFrameEvent)
  | vb2 (e : UvcVb2Event)
  | drv (e : UvcDrvEvent)
  | urb (e : ClassUrbEvent)
deriving DecidableEq

/-- The record some bytes hold. -/
def uvcInput (data : List UInt8) : Option UvcInput :=
  ((recordOf evtUvcFrame uvcFrameEvent data).map fun e => .frame (e.readTexts data)).or
    (((recordOf evtUvcVb2 uvcVb2Event data).map fun e => .vb2 (e.readTexts data)).or
      (((recordOf evtUvcDrv uvcDrvEvent data).map .drv).or ((classRecord data).map .urb)))

/-- What the consumer does with a record. -/
def takeInput (opts : UvcOptions) (t : UvcTallies) : UvcInput → UvcTallies × List CStr
  | .frame e => handleFrame opts t e
  | .vb2 e => handleVb2 opts t e
  | .drv e => handleDrv t e
  | .urb e =>
    ({ t with klass := { t.klass with stats := t.klass.stats.note e } },
      if t.klass.all || classAnomaly e then [classPrintJson e] else [])

/-- **The consumer** takes the record the bytes hold, and does nothing where they hold none.
SOURCE: uvc.c:294-307 -/
theorem uvcOnEvent_eq (opts : UvcOptions) (t : UvcTallies) (data : List UInt8) :
    uvcOnEvent opts t data = match uvcInput data with
      | none => (t, [])
      | some i => takeInput opts t i := by
  rw [uvcOnEvent, uvcInput]
  cases hview : usbtraceEventHdr.view data with
  | none =>
    rw [recordOf_of_short (by decide) hview, recordOf_of_short (by decide) hview,
      recordOf_of_short (by decide) hview, classRecord, recordOf_of_short (by decide) hview]
    rfl
  | some h =>
    obtain rfl := hdr_of_view hview
    dsimp only
    by_cases hframe : (usbtraceEventHdr.of data).kind = evtUvcFrame
    · have hvb2 : (usbtraceEventHdr.of data).kind ≠ evtUvcVb2 := by rw [hframe]; decide
      have hdrv : (usbtraceEventHdr.of data).kind ≠ evtUvcDrv := by rw [hframe]; decide
      have hclass : (usbtraceEventHdr.of data).kind ≠ evtClass := by rw [hframe]; decide
      rw [if_pos hframe, recordOf_of_kind hframe, recordOf_of_ne hvb2, recordOf_of_ne hdrv,
        classRecord, recordOf_of_ne hclass]
      cases uvcFrameEvent.view data <;> rfl
    rw [if_neg hframe, recordOf_of_ne hframe]
    by_cases hvb2 : (usbtraceEventHdr.of data).kind = evtUvcVb2
    · have hdrv : (usbtraceEventHdr.of data).kind ≠ evtUvcDrv := by rw [hvb2]; decide
      have hclass : (usbtraceEventHdr.of data).kind ≠ evtClass := by rw [hvb2]; decide
      rw [if_pos hvb2, recordOf_of_kind hvb2, recordOf_of_ne hdrv, classRecord,
        recordOf_of_ne hclass]
      cases uvcVb2Event.view data <;> rfl
    rw [if_neg hvb2, recordOf_of_ne hvb2]
    by_cases hdrv : (usbtraceEventHdr.of data).kind = evtUvcDrv
    · have hclass : (usbtraceEventHdr.of data).kind ≠ evtClass := by rw [hdrv]; decide
      rw [if_pos hdrv, recordOf_of_kind hdrv, classRecord, recordOf_of_ne hclass]
      cases uvcDrvEvent.view data <;> rfl
    rw [if_neg hdrv, recordOf_of_ne hdrv, classStreamOnEvent_eq]
    cases classRecord data <;> rfl

/-! ## Intervals -/

/-- The intervals that were measured: 0 stands for none. -/
def measured (ivs : List UInt32) : List UInt32 := ivs.filter (· ≠ 0)

/-- Their statistics. -/
def intervalSamples (ivs : List UInt32) : Samples :=
  Samples.ofList ((measured ivs).map UInt32.toNat)

/-- The tally of some intervals. -/
def intervalTotals (ivs : List UInt32) : IntervalTally where
  intervals := ULong.ofNat (intervalSamples ivs).count
  sumIntervalNs := UInt64.ofNat (intervalSamples ivs).sum
  minIntervalNs := UInt32.ofNat (intervalSamples ivs).least
  maxIntervalNs := UInt32.ofNat (intervalSamples ivs).most

theorem measured_pos {ivs : List UInt32} : ∀ x ∈ (measured ivs).map UInt32.toNat, 0 < x := by
  intro x hx
  obtain ⟨iv, hiv, rfl⟩ := List.mem_map.mp hx
  refine Nat.pos_of_ne_zero fun h => ?_
  exact of_decide_eq_true (List.mem_filter.mp hiv).2 (UInt32.toNat_inj.mp h)

/-- Nothing of the extremes is lost in 32 bits. -/
theorem extremes_toNat (ivs : List UInt32) :
    (intervalTotals ivs).minIntervalNs.toNat = (intervalSamples ivs).least ∧
      (intervalTotals ivs).maxIntervalNs.toNat = (intervalSamples ivs).most := by
  have hfits : ∀ x ∈ (measured ivs).map UInt32.toNat, x < 2 ^ 32 := by
    intro x hx
    obtain ⟨iv, -, rfl⟩ := List.mem_map.mp hx
    exact iv.toNat_lt
  by_cases hne : (measured ivs).map UInt32.toNat = []
  · rw [intervalTotals, intervalSamples, hne]
    exact ⟨rfl, rfl⟩
  · exact ⟨UInt32.toNat_ofNat_of_lt' (hfits _ (Samples.least_mem hne)),
      UInt32.toNat_ofNat_of_lt' (hfits _ (Samples.most_mem hne))⟩

theorem intervalSamples_concat (ivs : List UInt32) (iv : UInt32) :
    intervalSamples (ivs ++ [iv]) =
      if iv ≠ 0 then (intervalSamples ivs).note iv.toNat else intervalSamples ivs := by
  rw [intervalSamples, measured, List.filter_append, List.filter_singleton]
  by_cases hiv : iv ≠ 0
  · rw [if_pos hiv, decide_eq_true hiv, List.map_append]
    exact Samples.ofList_concat measured_pos iv.toNat
  · rw [if_neg hiv, decide_eq_false hiv]
    exact congrArg _ (congrArg _ (List.append_nil _))

/-- **One more interval.** -/
theorem intervalTotals_concat (ivs : List UInt32) (iv : UInt32) :
    intervalTotals (ivs ++ [iv]) =
      if iv ≠ 0 then (intervalTotals ivs).note iv else intervalTotals ivs := by
  have hsamples := intervalSamples_concat ivs iv
  by_cases hiv : iv ≠ 0
  · rw [if_pos hiv] at hsamples ⊢
    obtain ⟨hmin, hmax⟩ := extremes_toNat ivs
    obtain ⟨hmin', hmax'⟩ := extremes_toNat (ivs ++ [iv])
    have hzero : (intervalTotals ivs).minIntervalNs = 0 ↔ (intervalSamples ivs).least = 0 := by
      rw [← hmin]
      exact UInt32.toNat_inj.symm
    refine IntervalTally.ext ?_ ?_ ?_ ?_
    · rw [intervalTotals, hsamples]
      exact ULong.ofNat_succ _
    · rw [intervalTotals, hsamples, IntervalTally.note, ← UInt64.ofNat_uInt32ToNat]
      exact UInt64.ofNat_add _ _
    · rw [← UInt32.toNat_inj, hmin', hsamples, IntervalTally.note, apply_ite UInt32.toNat, hmin]
      simp only [hzero, UInt32.lt_iff_toNat_lt, hmin, Samples.note]
    · rw [← UInt32.toNat_inj, hmax', hsamples, IntervalTally.note, apply_ite UInt32.toNat, hmax]
      simp only [gt_iff_lt, UInt32.lt_iff_toNat_lt, hmax, Samples.note]
  · rw [if_neg hiv] at hsamples ⊢
    rw [intervalTotals, hsamples]
    rfl

/-! ## Tallies -/

/-- The frames. -/
def frameTotals (es : List UvcFrameEvent) : FrameStats where
  frames := ULong.ofNat es.length
  errored := ULong.ofNat (es.countP fun e => e.errored ≠ 0)
  bytes := UInt64.ofNat (es.map fun e => e.bytes.toNat).sum
  iv := intervalTotals (es.map (·.intervalNs))

/-- A buffer that was finished. -/
def vb2Finished (e : UvcVb2Event) : Bool := e.vb2Op = uvcVb2Done

/-- The buffers. -/
def vb2Totals (es : List UvcVb2Event) : Vb2Stats where
  done := ULong.ofNat (es.countP fun e => e.vb2Op = uvcVb2Done)
  seqGaps := ULong.ofNat (es.countP fun e => e.seqGap ≠ 0)
  starved := ULong.ofNat (es.countP fun e => e.starved ≠ 0 ∨ e.vb2Op = uvcVb2Starved)
  wireCorr := ULong.ofNat (es.countP fun e => e.wireToVb2Ns ≠ 0)
  bytes := UInt64.ofNat ((es.filter vb2Finished).map fun e => e.bytesused.toNat).sum
  iv := intervalTotals ((es.filter vb2Finished).map (·.intervalNs))
  sumWireToVb2Ns := UInt64.ofNat (es.map fun e => e.wireToVb2Ns.toNat).sum

/-- A frame that was dropped for a reason. -/
def droppedFor (bit : UInt8) (e : UvcDrvEvent) : Prop :=
  e.drvOp = uvcDrvDrop ∧ e.reason &&& bit ≠ 0

instance (bit : UInt8) : DecidablePred (droppedFor bit) := fun _ =>
  inferInstanceAs (Decidable (_ ∧ _))

/-- The driver's frames. -/
def drvTotals (es : List UvcDrvEvent) : DrvStats where
  received := ULong.ofNat (es.countP fun e => e.drvOp = uvcDrvRecv)
  dropped := ULong.ofNat (es.countP fun e => e.drvOp = uvcDrvDrop)
  dropShort := ULong.ofNat (es.countP fun e => droppedFor uvcDropShort e)
  dropIso := ULong.ofNat (es.countP fun e => droppedFor uvcDropIso e)
  dropOther := ULong.ofNat (es.countP fun e => droppedFor uvcDropOther e)

theorem frameTotals_concat (es : List UvcFrameEvent) (e : UvcFrameEvent) :
    frameTotals (es ++ [e]) = tallyFrame (frameTotals es) e := by
  rw [frameTotals, ULong.ofNat_length_concat, ULong.ofNat_countP_concat, ofNat_sum_concat,
    List.map_append, List.map_singleton, intervalTotals_concat]
  rfl

theorem vb2Totals_concat (es : List UvcVb2Event) (e : UvcVb2Event) :
    vb2Totals (es ++ [e]) = tallyVb2 (vb2Totals es) e := by
  rw [vb2Totals, ULong.ofNat_countP_concat, ULong.ofNat_countP_concat, ULong.ofNat_countP_concat,
    ULong.ofNat_countP_concat, ofNat_sum_concat, List.filter_append, List.filter_singleton,
    vb2Finished, tallyVb2]
  have hsum : (if e.wireToVb2Ns ≠ 0 then (vb2Totals es).sumWireToVb2Ns + e.wireToVb2Ns.toUInt64
      else (vb2Totals es).sumWireToVb2Ns) =
        (vb2Totals es).sumWireToVb2Ns + e.wireToVb2Ns.toUInt64 := by
    by_cases hwire : e.wireToVb2Ns ≠ 0
    · rw [if_pos hwire]
    · rw [if_neg hwire, not_not.mp hwire]
      exact (UInt64.add_zero _).symm
  rw [hsum]
  by_cases hdone : e.vb2Op = uvcVb2Done
  · rw [decide_eq_true hdone, cond_true, ofNat_sum_concat, List.map_append, List.map_singleton,
      intervalTotals_concat]
    simp only [hdone, true_and, if_true]
    rfl
  · rw [decide_eq_false hdone, cond_false, List.append_nil]
    simp only [hdone, false_and, if_false]
    rfl

theorem drvTotals_concat (es : List UvcDrvEvent) (e : UvcDrvEvent) :
    drvTotals (es ++ [e]) = tallyDrv (drvTotals es) e := by
  rw [drvTotals, ULong.ofNat_countP_concat, ULong.ofNat_countP_concat, ULong.ofNat_countP_concat,
    ULong.ofNat_countP_concat, ULong.ofNat_countP_concat, tallyDrv]
  by_cases hrecv : e.drvOp = uvcDrvRecv
  · have hdrop : e.drvOp ≠ uvcDrvDrop := by rw [hrecv]; decide
    rw [if_pos hrecv, if_pos hrecv, if_neg hdrop, if_neg fun h => hdrop h.1,
      if_neg fun h => hdrop h.1, if_neg fun h => hdrop h.1]
    rfl
  · rw [if_neg hrecv, if_neg hrecv]
    by_cases hdrop : e.drvOp = uvcDrvDrop
    · simp only [droppedFor, hdrop, if_true, true_and]
      rfl
    · rw [if_neg hdrop, if_neg hdrop, if_neg fun h => hdrop h.1, if_neg fun h => hdrop h.1,
        if_neg fun h => hdrop h.1]
      rfl

/-! ## All four -/

def frameInputs (seen : List UvcInput) : List UvcFrameEvent :=
  seen.filterMap fun i => match i with
    | .frame e => some e
    | _ => none

def bufferInputs (seen : List UvcInput) : List UvcVb2Event :=
  seen.filterMap fun i => match i with
    | .vb2 e => some e
    | _ => none

def driverInputs (seen : List UvcInput) : List UvcDrvEvent :=
  seen.filterMap fun i => match i with
    | .drv e => some e
    | _ => none

def urbInputs (seen : List UvcInput) : List ClassUrbEvent :=
  seen.filterMap fun i => match i with
    | .urb e => some e
    | _ => none

/-- The globals after some records. -/
def uvcTotals (opts : UvcOptions) (seen : List UvcInput) : UvcTallies where
  klass := { all := opts.all, stats := classTotals (urbInputs seen) }
  frames := frameTotals (frameInputs seen)
  vb2 := vb2Totals (bufferInputs seen)
  drv := drvTotals (driverInputs seen)

/-- **One more record.** -/
theorem uvcTotals_concat (opts : UvcOptions) (seen : List UvcInput) (i : UvcInput) :
    uvcTotals opts (seen ++ [i]) = (takeInput opts (uvcTotals opts seen) i).1 := by
  cases i with
  | frame e =>
    simp only [uvcTotals, frameInputs, bufferInputs, driverInputs, urbInputs, List.filterMap_append,
      List.filterMap_cons, List.filterMap_nil, List.append_nil, frameTotals_concat]
    rfl
  | vb2 e =>
    simp only [uvcTotals, frameInputs, bufferInputs, driverInputs, urbInputs, List.filterMap_append,
      List.filterMap_cons, List.filterMap_nil, List.append_nil, vb2Totals_concat]
    rfl
  | drv e =>
    simp only [uvcTotals, frameInputs, bufferInputs, driverInputs, urbInputs, List.filterMap_append,
      List.filterMap_cons, List.filterMap_nil, List.append_nil, drvTotals_concat]
    rfl
  | urb e =>
    simp only [uvcTotals, frameInputs, bufferInputs, driverInputs, urbInputs, List.filterMap_append,
      List.filterMap_cons, List.filterMap_nil, List.append_nil, classTotals_concat]
    rfl

end UsbTrace.Interface

import UsbTrace.Analysis.DropCause
import UsbTrace.Analysis.UvcSessions
import UsbTrace.Interface.Doubles
import UsbTrace.Interface.RecordBytes

/-!
# The numbers of the uvc summaries

The rates a session of the uvc module reports are in order: the average lies between the lowest
and the highest (`summary_rates`).  The frames and the drops it reports are those of the calls the
driver probes saw, each drop under its causes (`drops_accounted`).
-/

set_option autoImplicit false

namespace UsbTrace.Analysis

open UsbTrace.Model UsbTrace.Library UsbTrace.Interface

/-! ## Rates -/

/-- The rates of a summary: none without an interval; else the highest and the lowest are those
of intervals that were measured, and the average is between them, where the intervals are together
below 2⁵³ ns and an `unsigned long` can count them. -/
structure RatesRight (long : LongWidth) (ivs : List UInt32) (t : IntervalTally) : Prop where
  none : measured ivs = [] →
    t.avgFps long = 0 ∧ fpsOf t.minIntervalNs = 0 ∧ fpsOf t.maxIntervalNs = 0
  attained : measured ivs ≠ [] → t.minIntervalNs ∈ measured ivs ∧ t.maxIntervalNs ∈ measured ivs
  extreme : ∀ iv ∈ measured ivs,
    fpsOf t.maxIntervalNs ≤ fpsOf iv ∧ fpsOf iv ≤ fpsOf t.minIntervalNs
  average : measured ivs ≠ [] → (intervalSamples ivs).sum < 2 ^ 53 →
    (long = .long32 → (measured ivs).length < 2 ^ 32) →
    fpsOf t.maxIntervalNs ≤ t.avgFps long ∧ t.avgFps long ≤ fpsOf t.minIntervalNs

/-- A double between two numbers of 32 bits, cut to one. -/
theorem truncU32_between {least most : UInt32} {q : ℚ} (hlow : (least.toNat : ℚ) ≤ q)
    (hhigh : q ≤ most.toNat) : least ≤ truncU32 q ∧ truncU32 q ≤ most := by
  have hfloor : ((⌊q⌋.toNat : ℕ) : ℤ) = ⌊q⌋ :=
    Int.toNat_of_nonneg (Int.floor_nonneg.mpr ((Nat.cast_nonneg _).trans hlow))
  have hlow' : least.toNat ≤ ⌊q⌋.toNat := by
    have : (least.toNat : ℤ) ≤ ⌊q⌋ := Int.le_floor.mpr (by exact_mod_cast hlow)
    omega
  have hhigh' : ⌊q⌋.toNat ≤ most.toNat := by
    have : ⌊q⌋ ≤ (most.toNat : ℤ) := by exact_mod_cast (Int.floor_le q).trans hhigh
    omega
  have hnat : (truncU32 q).toNat = ⌊q⌋.toNat :=
    UInt32.toNat_ofNat_of_lt' (hhigh'.trans_lt most.toNat_lt)
  rw [UInt32.le_iff_toNat_le, UInt32.le_iff_toNat_le, hnat]
  exact ⟨hlow', hhigh'⟩

section Intervals

variable {ivs : List UInt32}

theorem measured_ne {iv : UInt32} (h : iv ∈ measured ivs) : iv ≠ 0 :=
  of_decide_eq_true (List.mem_filter.mp h).2

theorem mem_measured_of_toNat {iv : UInt32} (h : iv.toNat ∈ (measured ivs).map UInt32.toNat) :
    iv ∈ measured ivs := by
  obtain ⟨iv', hiv', heq⟩ := List.mem_map.mp h
  rwa [← UInt32.toNat_inj.mp heq]

/-- The extremes were measured. -/
theorem extremes_mem (h : measured ivs ≠ []) :
    (intervalTotals ivs).minIntervalNs ∈ measured ivs ∧
      (intervalTotals ivs).maxIntervalNs ∈ measured ivs := by
  have hne : (measured ivs).map UInt32.toNat ≠ [] := fun hnil => h (List.map_eq_nil_iff.mp hnil)
  constructor
  · refine mem_measured_of_toNat ?_
    rw [(extremes_toNat ivs).1]
    exact Samples.least_mem hne
  · refine mem_measured_of_toNat ?_
    rw [(extremes_toNat ivs).2]
    exact Samples.most_mem hne

theorem extremes_bound {iv : UInt32} (h : iv ∈ measured ivs) :
    (intervalTotals ivs).minIntervalNs ≤ iv ∧ iv ≤ (intervalTotals ivs).maxIntervalNs := by
  rw [UInt32.le_iff_toNat_le, UInt32.le_iff_toNat_le, (extremes_toNat ivs).1,
    (extremes_toNat ivs).2]
  exact ⟨Samples.least_le (List.mem_map_of_mem h), Samples.le_most (List.mem_map_of_mem h)⟩

/-- Intervals that are together below 2⁵³ ns are summed up as they are, and counted so where an
`unsigned long` can hold their number. -/
theorem tally_exact {long : LongWidth} (hsum : (intervalSamples ivs).sum < 2 ^ 53)
    (hcount : long = .long32 → (measured ivs).length < 2 ^ 32) :
    (intervalTotals ivs).sumIntervalNs.toNat = (intervalSamples ivs).sum ∧
      (intervalTotals ivs).intervals.toNat long = (intervalSamples ivs).count := by
  have hlen : (intervalSamples ivs).count = (measured ivs).length := List.length_map _
  have hfits : (intervalSamples ivs).sum < 2 ^ 64 := hsum.trans (by norm_num)
  refine ⟨UInt64.toNat_ofNat_of_lt' hfits, ULong.toNat_ofNat_of_lt ?_⟩
  cases long with
  | long32 =>
    rw [hlen]
    exact hcount rfl
  | long64 => exact (List.length_le_sum_of_one_le _ measured_pos).trans_lt hfits

/-- The mean, cut to an integer, is between the extremes. -/
theorem average_between {long : LongWidth} (h : measured ivs ≠ [])
    (hsum : (intervalSamples ivs).sum < 2 ^ 53)
    (hlong : long = .long32 → (measured ivs).length < 2 ^ 32) :
    let t := intervalTotals ivs
    let avg := truncU32 (avgOf t.sumIntervalNs.toNat (t.intervals.toNat long))
    t.minIntervalNs ≤ avg ∧ avg ≤ t.maxIntervalNs := by
  intro t avg
  obtain ⟨htotal, hintervals⟩ := tally_exact hsum hlong
  have hcount : 0 < (intervalSamples ivs).count :=
    List.length_pos_iff.mpr fun hnil => h (List.map_eq_nil_iff.mp hnil)
  have hpos : 0 < t.minIntervalNs.toNat :=
    Nat.pos_of_ne_zero fun hzero => measured_ne (extremes_mem h).1 (UInt32.toNat_inj.mp hzero)
  have hlow : (intervalSamples ivs).count * t.minIntervalNs.toNat ≤ (intervalSamples ivs).sum := by
    rw [(extremes_toNat ivs).1]
    exact Samples.count_mul_least_le _
  have hhigh : (intervalSamples ivs).sum ≤ (intervalSamples ivs).count * t.maxIntervalNs.toNat := by
    rw [(extremes_toNat ivs).2]
    exact Samples.sum_le_count_mul _
  have hmost : t.maxIntervalNs.toNat < 2 ^ 53 := t.maxIntervalNs.toNat_lt.trans (by norm_num)
  have hmean := toDouble_mean hpos hlow hhigh hcount hsum hmost
  have havg : avg = truncU32 (toDouble (toDouble (intervalSamples ivs).sum /
      toDouble (intervalSamples ivs).count)) := by
    show truncU32 (avgOf t.sumIntervalNs.toNat (t.intervals.toNat long)) = _
    rw [htotal, hintervals, avgOf, if_pos hcount.ne']
  rw [havg]
  exact truncU32_between hmean.1 hmean.2

end Intervals

/-- **The rates of some intervals.** -/
theorem intervalTotals_rates (long : LongWidth) (ivs : List UInt32) :
    RatesRight long ivs (intervalTotals ivs) where
  none hnil := by
    rw [intervalTotals, intervalSamples, hnil]
    cases long <;> exact ⟨rfl, rfl, rfl⟩
  attained h := extremes_mem h
  extreme iv hiv := by
    obtain ⟨hlow, hhigh⟩ := extremes_bound hiv
    have hmin := (extremes_mem (List.ne_nil_of_mem hiv)).1
    exact ⟨fpsOf_anti (measured_ne hiv) hhigh, fpsOf_anti (measured_ne hmin) hlow⟩
  average h hsum hlong := by
    obtain ⟨hlow, hhigh⟩ := average_between h hsum hlong
    have hmin := measured_ne (extremes_mem h).1
    have havg : truncU32 (avgOf (intervalTotals ivs).sumIntervalNs.toNat
        ((intervalTotals ivs).intervals.toNat long)) ≠ 0 := by
      intro hzero
      rw [hzero] at hlow
      exact hmin (UInt32.le_antisymm hlow (UInt32.le_iff_toNat_le.mpr (Nat.zero_le _)))
    exact ⟨fpsOf_anti havg hhigh, fpsOf_anti hmin hlow⟩

/-- **The rates of a session are in order**: of the intervals of the frames, and of the finished
buffers, that a session of the uvc module was handed, the summaries report the least and the
greatest as the highest and the lowest rate, and a rate between the two as the average, as long
as the intervals together stay below 2⁵³ ns (and 2³² in number where `long` has 32 bits); and no
rate where there was none.
SOURCE: uvc.c:136-156, 197-220, 324-337, 359-373, 440-452 -/
theorem summary_rates (long : LongWidth) (opts : UvcOptions) (records : List (List UInt8)) :
    let seen := records.filterMap uvcInput
    let t := finalState (uvcOnEvent opts) (UvcTallies.start opts) records
    RatesRight long ((frameInputs seen).map (·.intervalNs)) t.frames.iv ∧
      RatesRight long (((bufferInputs seen).filter vb2Finished).map (·.intervalNs)) t.vb2.iv := by
  intro seen t
  have ht : t = uvcTotals opts seen := (uvcRun_reads opts records).1
  rw [ht]
  exact ⟨intervalTotals_rates long _, intervalTotals_rates long _⟩

/-! ## Drops -/

/-- What the driver probes say of a buffer: it was received, or dropped for a lost packet, a
short frame, both, or another cause. -/
def DrvSaid (e : UvcDrvEvent) : Prop :=
  e.drvOp = uvcDrvRecv ∨ e.drvOp = uvcDrvDrop ∧
    e.reason ∈ [uvcDropIso, uvcDropShort, uvcDropIso ||| uvcDropShort, uvcDropOther]

/-- A pending cause is a lost packet. -/
def CausesIso (m : DropCauses) : Prop := ∀ b v, m.lookup b = some v → v = uvcDropIso

theorem uvcDropCauseAdd_iso {m : DropCauses} (h : CausesIso m) (buf : UInt64) :
    CausesIso (uvcDropCauseAdd m buf uvcDropIso) := by
  intro b v hv
  unfold uvcDropCauseAdd at hv
  split at hv
  · next cur hcur =>
    rcases BoundedMap.lookup_update_cases hv with ⟨-, rfl⟩ | hold
    · rw [h buf cur hcur]
      rfl
    · exact h b v hold
  · rcases BoundedMap.lookup_update_cases hv with ⟨-, rfl⟩ | hold
    · rfl
    · exact h b v hold

/-- A cause that is taken is a lost packet, or none. -/
theorem uvcDropCauseTake_iso {m : DropCauses} (h : CausesIso m) (buf : UInt64) :
    CausesIso (uvcDropCauseTake m buf).1 ∧
      ((uvcDropCauseTake m buf).2 = 0 ∨ (uvcDropCauseTake m buf).2 = uvcDropIso) := by
  obtain ⟨hval, hrest⟩ := uvcDropCauseTake_spec m buf
  constructor
  · intro b v hv
    rw [hrest b] at hv
    split at hv
    · cases hv
    · exact h b v hv
  · rw [hval]
    cases hlookup : m.lookup buf with
    | none => exact .inl rfl
    | some v => exact .inr (h buf v hlookup)

theorem dropReason_mem {stream : UvcStreaming} {buf : UvcBuffer} {cause : UInt8}
    (h : cause = 0 ∨ cause = uvcDropIso) : dropReason stream buf cause ∈
      [uvcDropIso, uvcDropShort, uvcDropIso ||| uvcDropShort, uvcDropOther] := by
  unfold dropReason
  rcases h with rfl | rfl <;> cases shortFrame stream buf <;> decide

/-- **One call** of the driver. -/
theorem driverStep_said {m : DropCauses} (h : CausesIso m) (cfg : FilterConfig)
    (offs : UvcOffsets) (op : DriverOp) :
    CausesIso (driverStep cfg offs m op).1 ∧ ∀ e ∈ (driverStep cfg offs m op).2, DrvSaid e := by
  have hnone : ∀ e ∈ ([] : List UvcDrvEvent), DrvSaid e := fun _ he => absurd he List.not_mem_nil
  cases op with
  | queueNext now queue buf => exact ⟨h, fun e he => .inl (onQueueNext_recv e he)⟩
  | decodeIsoc uvcUrb buf =>
    refine ⟨?_, hnone⟩
    rw [driverStep]
    dsimp only
    unfold onDecodeIsoc
    split
    · split
      · exact h
      · split
        · exact h
        · split
          · exact h
          · split
            · exact uvcDropCauseAdd_iso h _
            · exact h
    · exact h
  | queueComplete now ref =>
    rw [driverStep]
    unfold onQueueComplete
    split
    · exact ⟨(uvcDropCauseTake_iso h 0).1, hnone⟩
    · next buf _ =>
      obtain ⟨htake, hcause⟩ := uvcDropCauseTake_iso h buf.ptr
      split
      · exact ⟨htake, hnone⟩
      · split
        · exact ⟨htake, hnone⟩
        · split
          · exact ⟨h, hnone⟩
          · split
            · exact ⟨htake, hnone⟩
            · dsimp only
              split
              · exact ⟨htake, hnone⟩
              · refine ⟨htake, fun e he => ?_⟩
                obtain rfl := List.mem_singleton.mp he
                exact .inr ⟨rfl, dropReason_mem hcause⟩

/-- The records of a run. -/
theorem driverRun_said (cfg : FilterConfig) (offs : UvcOffsets) (ops : List DriverOp) :
    ∀ e ∈ outputs (driverStep cfg offs) BoundedMap.empty ops, DrvSaid e := by
  intro e he
  obtain ⟨pre, op, post, -, hstep⟩ := mem_outputs he
  refine (driverStep_said ?_ cfg offs op).2 e hstep
  exact finalState_induct (I := CausesIso) (fun m op hm => (driverStep_said hm cfg offs op).1)
    (fun _ _ hv => by cases hv) pre

/-- The driver hands over a frame of a selected device. -/
def handsOver (cfg : FilterConfig) (offs : UvcOffsets) : DriverOp → Bool
  | .queueNext _ (some queue) (some buf) =>
    uvcBufIsVideo buf && offs.streamQueue && (uvcStreamUsb cfg (some queue.stream)).isSome
  | _ => false

/-- The queue discards the buffer: its frame has an error, and the driver drops such frames. -/
def discards (cfg : FilterConfig) (offs : UvcOffsets) (buf : UvcBuffer) (queue : UvcVideoQueue) :
    Bool :=
  offs.streamQueue && (uvcStreamUsb cfg (some queue.stream)).isSome &&
    queue.flags &&& uvcQueueDropCorrupted ≠ 0 && buf.error.toUInt8 ≠ 0

/-- The driver drops a frame of a selected device. -/
def dropsFrame (cfg : FilterConfig) (offs : UvcOffsets) : DriverOp → Bool
  | .queueComplete _ ref => (uvcBufFromRef offs ref).any fun buf =>
    uvcBufIsVideo buf && (uvcBufVideoQueue offs buf).any (discards cfg offs buf)
  | _ => false

theorem onQueueNext_counts (cfg : FilterConfig) (offs : UvcOffsets) (now : UInt64)
    (queue : Option UvcVideoQueue) (buf : Option UvcBuffer) :
    (onQueueNext cfg offs queue buf now).countP (fun e => e.drvOp = uvcDrvRecv) =
      if handsOver cfg offs (.queueNext now queue buf) then 1 else 0 := by
  unfold onQueueNext handsOver
  cases queue with
  | none => rfl
  | some queue =>
    cases buf with
    | none => rfl
    | some buf =>
      cases hvideo : uvcBufIsVideo buf <;> cases hoffs : offs.streamQueue <;>
        cases husb : uvcStreamUsb cfg (some queue.stream) <;> simp [hvideo, husb, uvcDrvEmit]

theorem onQueueComplete_counts (cfg : FilterConfig) (offs : UvcOffsets) (m : DropCauses)
    (now : UInt64) (ref : Option UvcBuffer) :
    (onQueueComplete cfg offs m ref now).2.countP (fun e => e.drvOp = uvcDrvDrop) =
      if dropsFrame cfg offs (.queueComplete now ref) then 1 else 0 := by
  unfold onQueueComplete dropsFrame
  cases hbuf : uvcBufFromRef offs ref with
  | none => simp [hbuf]
  | some buf =>
    cases hqueue : uvcBufVideoQueue offs buf with
    | none => cases hvideo : uvcBufIsVideo buf <;> simp [hbuf, hqueue, hvideo]
    | some queue =>
      cases hvideo : uvcBufIsVideo buf <;> cases hoffs : offs.streamQueue <;>
        cases husb : uvcStreamUsb cfg (some queue.stream) <;>
        by_cases hflag : queue.flags &&& uvcQueueDropCorrupted = 0 <;>
        by_cases herr : buf.error.toUInt8 = 0 <;>
        simp [hbuf, hqueue, hvideo, hoffs, husb, hflag, herr, discards, uvcDrvEmit]

theorem onQueueComplete_drop {cfg : FilterConfig} {offs : UvcOffsets} {m : DropCauses}
    {now : UInt64} {ref : Option UvcBuffer} :
    ∀ e ∈ (onQueueComplete cfg offs m ref now).2, e.drvOp = uvcDrvDrop := by
  intro e he
  unfold onQueueComplete at he
  split at he
  · cases he
  · split at he
    · cases he
    · split at he
      · cases he
      · split at he
        · cases he
        · split at he
          · cases he
          · dsimp only at he
            split at he
            · cases he
            · rw [List.mem_singleton.mp he]
              rfl

/-- **One call** is reported as one frame, one drop, or nothing. -/
theorem driverStep_counts (cfg : FilterConfig) (offs : UvcOffsets) (m : DropCauses)
    (op : DriverOp) :
    (driverStep cfg offs m op).2.countP (fun e => e.drvOp = uvcDrvRecv) =
        (if handsOver cfg offs op then 1 else 0) ∧
      (driverStep cfg offs m op).2.countP (fun e => e.drvOp = uvcDrvDrop) =
        if dropsFrame cfg offs op then 1 else 0 := by
  have hnone : ∀ {op op' : UInt8} {es : List UvcDrvEvent}, op ≠ op' → (∀ e ∈ es, e.drvOp = op) →
      es.countP (fun e => e.drvOp = op') = 0 := by
    intro op op' es hne hes
    refine List.countP_eq_zero.mpr fun e he heq => hne ?_
    exact (hes e he).symm.trans (of_decide_eq_true heq)
  cases op with
  | queueNext now queue buf =>
    exact ⟨onQueueNext_counts cfg offs now queue buf, hnone (by decide) onQueueNext_recv⟩
  | decodeIsoc uvcUrb buf => exact ⟨rfl, rfl⟩
  | queueComplete now ref =>
    exact ⟨hnone (by decide) onQueueComplete_drop, onQueueComplete_counts cfg offs m now ref⟩

/-- **The records of a run** are the frames and the drops of its calls. -/
theorem driverRun_counts (cfg : FilterConfig) (offs : UvcOffsets) (ops : List DriverOp) :
    (outputs (driverStep cfg offs) BoundedMap.empty ops).countP (fun e => e.drvOp = uvcDrvRecv) =
        ops.countP (handsOver cfg offs) ∧
      (outputs (driverStep cfg offs) BoundedMap.empty ops).countP
          (fun e => e.drvOp = uvcDrvDrop) = ops.countP (dropsFrame cfg offs) := by
  induction ops using List.reverseRecOn with
  | nil => exact ⟨rfl, rfl⟩
  | append_singleton ops op ih =>
    obtain ⟨hrecv, hdrop⟩ :=
      driverStep_counts cfg offs (finalState (driverStep cfg offs) BoundedMap.empty ops) op
    rw [outputs_concat, List.countP_append, List.countP_append, List.countP_append,
      List.countP_append, List.countP_singleton, List.countP_singleton, ih.1, ih.2, hrecv, hdrop]
    exact ⟨rfl, rfl⟩

/-- A frame that was dropped, short and with a lost packet. -/
def droppedForBoth (e : UvcDrvEvent) : Prop := droppedFor uvcDropShort e ∧ droppedFor uvcDropIso e

instance : DecidablePred droppedForBoth := fun _ => inferInstanceAs (Decidable (_ ∧ _))

/-- The bits of a reason add up. -/
theorem reason_bits : ∀ reason ∈ [uvcDropIso, uvcDropShort, uvcDropIso ||| uvcDropShort,
    uvcDropOther],
    1 + (if reason &&& uvcDropShort ≠ 0 ∧ reason &&& uvcDropIso ≠ 0 then 1 else 0) =
      (if reason &&& uvcDropShort ≠ 0 then 1 else 0) +
        (if reason &&& uvcDropIso ≠ 0 then 1 else 0) +
        (if reason &&& uvcDropOther ≠ 0 then 1 else 0) := by
  simp only [List.forall_mem_cons, List.not_mem_nil, false_imp_iff, implies_true, and_true]
  exact ⟨rfl, rfl, rfl, rfl⟩

/-- **The causes of some drops** add up, but for those that have two. -/
theorem causes_balance {es : List UvcDrvEvent} (h : ∀ e ∈ es, DrvSaid e) :
    es.countP (fun e => e.drvOp = uvcDrvDrop) + es.countP (fun e => droppedForBoth e) =
      es.countP (fun e => droppedFor uvcDropShort e) +
        es.countP (fun e => droppedFor uvcDropIso e) +
        es.countP fun e => droppedFor uvcDropOther e := by
  induction es with
  | nil => rfl
  | cons e es ih =>
    obtain ⟨he, hes⟩ := List.forall_mem_cons.mp h
    have hrest := ih hes
    simp only [droppedForBoth, droppedFor] at hrest ⊢
    simp only [List.countP_cons, decide_eq_true_eq]
    rcases he with hrecv | ⟨hdrop, hreason⟩
    · have hdrop : e.drvOp ≠ uvcDrvDrop := by rw [hrecv]; decide
      simp only [hdrop, false_and, if_false, Nat.add_zero]
      exact hrest
    · have hbits := reason_bits e.reason hreason
      simp only [hdrop, true_and, if_true, decide_eq_true_eq]
      omega

/-- How a session accounts for the calls of the driver and their records, all in numbers of an
`unsigned long`. -/
structure DropsBalance (cfg : FilterConfig) (offs : UvcOffsets) (ops : List DriverOp)
    (d : DrvStats) : Prop where
  received : d.received = ULong.ofNat (ops.countP (handsOver cfg offs))
  dropped : d.dropped = ULong.ofNat (ops.countP (dropsFrame cfg offs))
  causes : d.dropped + ULong.ofNat
      ((outputs (driverStep cfg offs) BoundedMap.empty ops).countP fun e => droppedForBoth e) =
    d.dropShort + d.dropIso + d.dropOther

/-- The consumer reads a record of a driver probe from the memory it was written to. -/
theorem uvcInput_drv {e : UvcDrvEvent} (h : e.hdr.kind = evtUvcDrv) (fill : ℕ → UInt8)
    (rest : List UInt8) : uvcInput (structBytes fill e.fields ++ rest) = some (.drv e) := by
  have hhdr : usbtraceEventHdr.of (structBytes fill e.fields ++ rest) = e.hdr :=
    (hdr_stores e.hdr).of_structBytes_append fill _ rest
  have hother : ∀ kind : EventKind, evtUvcDrv ≠ kind →
      (usbtraceEventHdr.of (structBytes fill e.fields ++ rest)).kind ≠ kind := by
    intro kind hkind
    rwa [hhdr, h]
  rw [uvcInput, recordOf_of_ne (hother evtUvcFrame (by decide)),
    recordOf_of_ne (hother evtUvcVb2 (by decide)), recordOf_of_kind (by rw [hhdr, h]),
    (uvcDrvEvent_stores e).view fill rest]
  rfl

theorem driverInputs_inMemory {es : List UvcDrvEvent} (h : ∀ e ∈ es, e.hdr.kind = evtUvcDrv)
    (fill : ℕ → UInt8) (rest : List UInt8) :
    driverInputs ((es.map fun e => structBytes fill e.fields ++ rest).filterMap uvcInput) = es := by
  induction es with
  | nil => rfl
  | cons e es ih =>
    obtain ⟨he, hes⟩ := List.forall_mem_cons.mp h
    rw [List.map_cons, List.filterMap_cons_some (uvcInput_drv he _ _)]
    exact congrArg (e :: ·) (ih hes)

/-- **The drops are accounted for.**  Whatever the driver does, and whichever records come
between its own, a session that is handed the records of the driver probes in their order reports
as received the frames the driver handed over, and as dropped the buffers it discarded, and each
drop under its causes: short, a lost packet, both, or another one.
SOURCE: uvc.c:270-307, 405-417, uvc.bpf.c:718-899 -/
theorem drops_accounted (cfg : FilterConfig) (offs : UvcOffsets) (ops : List DriverOp)
    (opts : UvcOptions) (records : List (List UInt8))
    (hrecords : driverInputs (records.filterMap uvcInput) =
      outputs (driverStep cfg offs) BoundedMap.empty ops) :
    DropsBalance cfg offs ops
      (finalState (uvcOnEvent opts) (UvcTallies.start opts) records).drv := by
  obtain ⟨hrecv, hdrop⟩ := driverRun_counts cfg offs ops
  rw [(uvcRun_reads opts records).1, uvcTotals, hrecords]
  refine ⟨congrArg ULong.ofNat hrecv, congrArg ULong.ofNat hdrop, ?_⟩
  have hcauses := congrArg ULong.ofNat (causes_balance (driverRun_said cfg offs ops))
  rwa [ULong.ofNat_add, ULong.ofNat_add, ULong.ofNat_add] at hcauses

/-- A frame is handed over and dropped, and its buffer dropped again; the records are read from
memory. -/
theorem drops_accounted_sample :
    let ops := .queueNext 15 (sampleDropped 1000).queue (some (sampleDropped 1000)) ::
      sampleDriverCalls
    let es := outputs (driverStep {} {}) BoundedMap.empty ops
    es.length = 3 ∧ DropsBalance {} {} ops (finalState (uvcOnEvent {}) (UvcTallies.start {})
      (es.map fun e => structBytes (fun _ => 0xaa) e.fields ++ [1])).drv := by
  intro ops es
  have hkind : ∀ e ∈ es, e.hdr.kind = evtUvcDrv := by decide
  exact ⟨by decide, drops_accounted {} {} ops {} _ (driverInputs_inMemory hkind _ [1])⟩

end UsbTrace.Analysis

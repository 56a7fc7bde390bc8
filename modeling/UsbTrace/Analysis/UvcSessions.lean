import UsbTrace.Analysis.ClassSessions
import UsbTrace.Interface.UvcTotals

/-!
# What the uvc module prints in a session

Every line of a session is a JSON object: first, in the order of the records, those of the wire
frames, buffers and URBs that are out of order, or of all with `--all`, and then the summaries,
whose members are the totals over everything the module was handed (`uvcSession_reads`).
-/

set_option autoImplicit false

namespace UsbTrace.Analysis

open UsbTrace.Model UsbTrace.Library UsbTrace.Library.Json UsbTrace.Interface

/-! ## Members -/

/-- A rate or a time with one digit after the point. -/
def tenthsDatum (q : ℚ) : Datum := .bare (fixed 1 q)

/-- The members of a frame line. -/
def frameMembers (e : UvcFrameEvent) : List Member := [
  ("event", .str "uvc_frame".toList), ("errored", natDatum e.errored.toNat),
  ("eof", natDatum e.eof.toNat), ("bytes", natDatum e.bytes.toNat),
  ("packets", natDatum e.packets.toNat), ("err_packets", natDatum e.errPackets.toNat),
  ("duration_us", tenthsDatum (usOf e.durationNs)),
  ("interval_us", tenthsDatum (usOf e.intervalNs)), ("fps", tenthsDatum (fpsOf e.intervalNs)),
  ("pts", natDatum e.pts.toNat), ("scr_stc", natDatum e.scrStc.toNat), ("vid", idDatum e.vid),
  ("pid", idDatum e.product), ("bus", natDatum e.busnum.toNat), ("dev", natDatum e.devnum.toNat),
  ("comm", escapedDatum e.comm 33)]

/-- The members of a buffer line. -/
def vb2Members (e : UvcVb2Event) : List Member := [
  ("event", .str "uvc_vb2".toList), ("op", .str (vb2OpStr e.vb2Op)),
  ("sequence", natDatum e.sequence.toNat), ("seq_gap", natDatum e.seqGap.toNat),
  ("starved", natDatum e.starved.toNat), ("num_buffers", natDatum e.numBuffers.toNat),
  ("queued", natDatum e.queued.toNat), ("drv_owned", natDatum e.drvOwned.toNat),
  ("bytesused", natDatum e.bytesused.toNat), ("interval_us", tenthsDatum (usOf e.intervalNs)),
  ("fps", tenthsDatum (fpsOf e.intervalNs)), ("wire_to_vb2_us", tenthsDatum (usOf e.wireToVb2Ns)),
  ("state", natDatum e.state.toNat), ("buf_index", natDatum e.bufIndex.toNat),
  ("vb2_ts", natDatum e.vb2Timestamp.toNat), ("vid", idDatum e.vid), ("pid", idDatum e.product),
  ("bus", natDatum e.busnum.toNat), ("dev", natDatum e.devnum.toNat),
  ("comm", escapedDatum e.comm 33)]

/-- The rates of a summary. -/
def rateMembers (long : LongWidth) (t : IntervalTally) : List Member := [
  ("avg_fps", tenthsDatum (t.avgFps long)), ("min_fps", tenthsDatum (fpsOf t.maxIntervalNs)),
  ("max_fps", tenthsDatum (fpsOf t.minIntervalNs))]

def frameSummaryMembers (long : LongWidth) (st : FrameStats) : List Member := [
  ("event", .str "uvc_frame_summary".toList), ("frames", natDatum (st.frames.toNat long)),
  ("errored", natDatum (st.errored.toNat long)), ("bytes", natDatum st.bytes.toNat)] ++
  rateMembers long st.iv

def vb2SummaryMembers (long : LongWidth) (st : Vb2Stats) : List Member := [
  ("event", .str "uvc_vb2_summary".toList), ("done", natDatum (st.done.toNat long)),
  ("seq_gaps", natDatum (st.seqGaps.toNat long)), ("starved", natDatum (st.starved.toNat long)),
  ("bytes", natDatum st.bytes.toNat)] ++ rateMembers long st.iv

def drvSummaryMembers (long : LongWidth) (dropOk : Bool) (st : DrvStats) : List Member := [
  ("event", .str "uvc_drv_summary".toList), ("received", natDatum (st.received.toNat long)),
  ("dropped", natDatum (st.dropped.toNat long)),
  ("drop_short", natDatum (st.dropShort.toNat long)),
  ("drop_iso", natDatum (st.dropIso.toNat long)),
  ("drop_other", natDatum (st.dropOther.toNat long)),
  ("drop_hook", .bare (if dropOk then "true".toList else "false".toList))]

def gapSummaryMembers (long : LongWidth) (f : FrameStats) (v : Vb2Stats) : List Member := [
  ("event", .str "uvc_gap_summary".toList), ("wire_fps", tenthsDatum (gapFps long f.iv)),
  ("vb2_fps", tenthsDatum (gapFps long v.iv)),
  ("wire_drops", natDatum (f.errored.toNat long)),
  ("vb2_seq_gaps", natDatum (v.seqGaps.toNat long)),
  ("vb2_starved", natDatum (v.starved.toNat long)),
  ("avg_wire_to_vb2_ms", .bare (fixed 2 (wireVb2Ms long v)))]

/-! ## Lines -/

theorem tenthsDatum_ok (q : ℚ) : (tenthsDatum q).Ok := isBare_fixed 1 q

theorem vb2OpStr_body (v : UInt8) : StrBody (vb2OpStr v) := by
  refine label_body (fun n hn => ?_) v
  fin_cases hn <;> exact plain_body String.toList_ofList rfl

theorem isBare_literal (l : Literal) : IsBare l.text := by
  refine ⟨.literal l, ?_, ?_, ?_⟩ <;> cases l <;>
    simp only [Literal.text, List.forall_mem_cons, List.not_mem_nil, false_imp_iff, implies_true,
      and_true] <;> decide

theorem hookDatum_ok (dropOk : Bool) :
    (Datum.bare (if dropOk then "true".toList else "false".toList)).Ok := by
  cases dropOk with
  | true => exact isBare_literal .true
  | false => exact isBare_literal .false

set_option maxRecDepth 10000 in
theorem framePrintJson_line (e : UvcFrameEvent) : ReadsAs (framePrintJson e) (frameMembers e) := by
  rw [ReadsAs, framePrintJson, printf_eq (.more (.more (.more (.more .lit))))]
  refine LineFormat.line ⟨rfl, rfl⟩ rfl (List.cons_ne_nil _ _) ?_
  simp only [frameMembers, List.forall_mem_cons, List.not_mem_nil, false_imp_iff, implies_true,
    and_true]
  exact ⟨plain_body String.toList_ofList rfl, natDatum_ok _, natDatum_ok _, natDatum_ok _,
    natDatum_ok _, natDatum_ok _, tenthsDatum_ok _, tenthsDatum_ok _, tenthsDatum_ok _,
    natDatum_ok _, natDatum_ok _, idDatum_ok _, idDatum_ok _, natDatum_ok _, natDatum_ok _,
    escapedDatum_ok _ _⟩

set_option maxRecDepth 10000 in
theorem vb2PrintJson_line (e : UvcVb2Event) : ReadsAs (vb2PrintJson e) (vb2Members e) := by
  rw [ReadsAs, vb2PrintJson, printf_eq (.more (.more (.more (.more (.more (.more .lit))))))]
  refine LineFormat.line ⟨rfl, rfl⟩ rfl (List.cons_ne_nil _ _) ?_
  simp only [vb2Members, List.forall_mem_cons, List.not_mem_nil, false_imp_iff, implies_true,
    and_true]
  exact ⟨plain_body String.toList_ofList rfl, vb2OpStr_body _, natDatum_ok _, natDatum_ok _,
    natDatum_ok _, natDatum_ok _, natDatum_ok _, natDatum_ok _, natDatum_ok _, tenthsDatum_ok _,
    tenthsDatum_ok _, tenthsDatum_ok _, natDatum_ok _, natDatum_ok _, natDatum_ok _, idDatum_ok _,
    idDatum_ok _, natDatum_ok _, natDatum_ok _, escapedDatum_ok _ _⟩

theorem rateMembers_ok (long : LongWidth) (t : IntervalTally) :
    ∀ m ∈ rateMembers long t, m.2.Ok := by
  simp only [rateMembers, List.forall_mem_cons, List.not_mem_nil, false_imp_iff, implies_true,
    and_true]
  exact ⟨tenthsDatum_ok _, tenthsDatum_ok _, tenthsDatum_ok _⟩

set_option maxRecDepth 10000 in
theorem uvcFrameSummary_line (long : LongWidth) (st : FrameStats) :
    ReadsAs (uvcFrameSummary long st) (frameSummaryMembers long st) := by
  rw [ReadsAs, uvcFrameSummary, printf_eq (.more (.more .lit))]
  refine LineFormat.line ⟨rfl, rfl⟩ rfl (List.cons_ne_nil _ _) ?_
  refine List.forall_mem_append.mpr ⟨?_, rateMembers_ok long st.iv⟩
  simp only [List.forall_mem_cons, List.not_mem_nil, false_imp_iff, implies_true, and_true]
  exact ⟨plain_body String.toList_ofList rfl, natDatum_ok _, natDatum_ok _, natDatum_ok _⟩

set_option maxRecDepth 10000 in
theorem uvcVb2Summary_line (long : LongWidth) (st : Vb2Stats) :
    ReadsAs (uvcVb2Summary long st) (vb2SummaryMembers long st) := by
  rw [ReadsAs, uvcVb2Summary, printf_eq (.more (.more .lit))]
  refine LineFormat.line ⟨rfl, rfl⟩ rfl (List.cons_ne_nil _ _) ?_
  refine List.forall_mem_append.mpr ⟨?_, rateMembers_ok long st.iv⟩
  simp only [List.forall_mem_cons, List.not_mem_nil, false_imp_iff, implies_true, and_true]
  exact ⟨plain_body String.toList_ofList rfl, natDatum_ok _, natDatum_ok _, natDatum_ok _,
    natDatum_ok _⟩

set_option maxRecDepth 10000 in
theorem uvcDrvSummary_line (long : LongWidth) (dropOk : Bool) (st : DrvStats) :
    ReadsAs (uvcDrvSummary long dropOk st) (drvSummaryMembers long dropOk st) := by
  rw [ReadsAs, uvcDrvSummary, printf_eq (.more (.more .lit))]
  refine LineFormat.line ⟨rfl, rfl⟩ rfl (List.cons_ne_nil _ _) ?_
  simp only [drvSummaryMembers, List.forall_mem_cons, List.not_mem_nil, false_imp_iff,
    implies_true, and_true]
  exact ⟨plain_body String.toList_ofList rfl, natDatum_ok _, natDatum_ok _, natDatum_ok _,
    natDatum_ok _, natDatum_ok _, hookDatum_ok dropOk⟩

set_option maxRecDepth 10000 in
theorem uvcGapSummary_line (long : LongWidth) (f : FrameStats) (v : Vb2Stats) :
    ReadsAs (uvcGapSummary long f v) (gapSummaryMembers long f v) := by
  rw [ReadsAs, uvcGapSummary, printf_eq (.more (.more (.more .lit)))]
  refine LineFormat.line ⟨rfl, rfl⟩ rfl (List.cons_ne_nil _ _) ?_
  simp only [gapSummaryMembers, List.forall_mem_cons, List.not_mem_nil, false_imp_iff,
    implies_true, and_true]
  exact ⟨plain_body String.toList_ofList rfl, tenthsDatum_ok _, tenthsDatum_ok _, natDatum_ok _,
    natDatum_ok _, natDatum_ok _, isBare_fixed 2 _⟩

/-! ## Sessions -/

/-- A record that is printed as it comes. -/
def uvcPrinted (opts : UvcOptions) : UvcInput → Bool
  | .frame e => opts.all || frameAnomaly opts.fpsTarget e
  | .vb2 e => opts.all || vb2Anomaly e
  | .drv _ => false
  | .urb e => opts.all || classAnomaly e

def inputMembers : UvcInput → List Member
  | .frame e => frameMembers e
  | .vb2 e => vb2Members e
  | .drv _ => []
  | .urb e => classMembers e

/-- What is said of some bytes. -/
def uvcObjects (opts : UvcOptions) (data : List UInt8) : List (List Member) :=
  ((uvcInput data).filter (uvcPrinted opts)).toList.map inputMembers

/-- What is said at the end. -/
def uvcSummaries (long : LongWidth) (opts : UvcOptions) (t : UvcTallies) : List (List Member) :=
  [classSummaryMembers long "uvc".toList t.klass.stats] ++
    (if opts.noFrames then [] else [frameSummaryMembers long t.frames]) ++
    [drvSummaryMembers long opts.dropHook t.drv] ++
    (if opts.noVb2 then [] else [vb2SummaryMembers long t.vb2]) ++
    (if opts.noFrames || opts.noVb2 then [] else [gapSummaryMembers long t.frames t.vb2])

/-- A line that may be left out. -/
theorem printed_reads {line : CStr} {ms : List Member} (h : ReadsAs line ms) (all odd : Bool) :
    List.Forall₂ ReadsAs (if !all && !odd then [] else [line])
      (if all || odd then [ms] else []) := by
  rw [← Bool.not_or]
  cases all || odd with
  | true => exact List.Forall₂.cons h List.Forall₂.nil
  | false => exact List.Forall₂.nil

/-- **One record** prints one line or none. -/
theorem takeInput_reads {opts : UvcOptions} {t : UvcTallies} (hall : t.klass.all = opts.all)
    (i : UvcInput) :
    List.Forall₂ ReadsAs (takeInput opts t i).2
      (if uvcPrinted opts i then [inputMembers i] else []) := by
  cases i with
  | frame e => exact printed_reads (framePrintJson_line e) _ _
  | vb2 e => exact printed_reads (vb2PrintJson_line e) _ _
  | drv e => exact List.Forall₂.nil
  | urb e =>
    rw [takeInput, uvcPrinted, hall]
    dsimp only
    split
    · exact List.Forall₂.cons (classPrintJson_line e) List.Forall₂.nil
    · exact List.Forall₂.nil

/-- The consumer after it has read some records. -/
def UvcRead (opts : UvcOptions) (t : UvcTallies) (seen : List UvcInput) : Prop :=
  t = uvcTotals opts seen

/-- **Some bytes** are one more record, or nothing. -/
theorem uvcOnEvent_reads {opts : UvcOptions} {t : UvcTallies} {seen : List UvcInput}
    (h : UvcRead opts t seen) (data : List UInt8) :
    UvcRead opts (uvcOnEvent opts t data).1 (seen ++ (uvcInput data).toList) ∧
      List.Forall₂ ReadsAs (uvcOnEvent opts t data).2 (uvcObjects opts data) := by
  obtain rfl := h
  rw [uvcOnEvent_eq, uvcObjects]
  cases uvcInput data with
  | none => exact ⟨by rw [Option.toList_none, List.append_nil]; rfl, List.Forall₂.nil⟩
  | some i =>
    refine ⟨(uvcTotals_concat opts seen i).symm, ?_⟩
    have hline := takeInput_reads (t := uvcTotals opts seen) rfl i
    rw [Option.filter_some]
    cases hprinted : uvcPrinted opts i with
    | true => rwa [hprinted] at hline
    | false => rwa [hprinted] at hline

theorem uvcOnStop_reads (long : LongWidth) (opts : UvcOptions) (t : UvcTallies) :
    List.Forall₂ ReadsAs (uvcOnStop long opts t) (uvcSummaries long opts t) := by
  have hone : ∀ {line : CStr} {ms : List Member}, ReadsAs line ms →
      List.Forall₂ ReadsAs [line] [ms] := fun h => .cons h .nil
  have hopt : ∀ {line : CStr} {ms : List Member} (skip : Bool), ReadsAs line ms →
      List.Forall₂ ReadsAs (if !skip then [line] else []) (if skip then [] else [ms]) := by
    intro line ms skip h
    cases skip with
    | true => exact .nil
    | false => exact .cons h .nil
  rw [uvcOnStop, uvcSummaries, ← Bool.not_or]
  refine List.rel_append (List.rel_append (List.rel_append (List.rel_append ?_ ?_) ?_) ?_) ?_
  · exact hone (classStreamSummary_line long (plain_body String.toList_ofList rfl) _)
  · exact hopt _ (uvcFrameSummary_line long _)
  · exact hone (uvcDrvSummary_line long _ _)
  · exact hopt _ (uvcVb2Summary_line long _)
  · exact hopt _ (uvcGapSummary_line long _ _)

/-- A whole run of the consumer. -/
theorem uvcRun_reads (opts : UvcOptions) (records : List (List UInt8)) :
    finalState (uvcOnEvent opts) (UvcTallies.start opts) records =
        uvcTotals opts (records.filterMap uvcInput) ∧
      List.Forall₂ ReadsAs (outputs (uvcOnEvent opts) (UvcTallies.start opts) records)
        (records.flatMap (uvcObjects opts)) := by
  obtain ⟨hstate, hlines⟩ := collect_run (R := UvcRead opts)
    (fun _ _ data h => uvcOnEvent_reads h data) (s := UvcTallies.start opts) rfl records
  rw [← List.filterMap_eq_flatMap_toList] at hstate
  exact ⟨hstate, hlines⟩

/-- **A session of the uvc module** prints, in order, the object of each frame, buffer and URB
it was handed that is out of order, or of each with `--all`, and then the totals of all of them
and of the frames of the driver, each modulo the range of its type.
SOURCE: uvc.c:136-307, 324-337, 359-373, 405-417, 440-460, 494-505 -/
theorem uvcSession_reads (long : LongWidth) (opts : UvcOptions) (records : List (List UInt8)) :
    List.Forall₂ ReadsAs (uvcSession long opts records)
      (records.flatMap (uvcObjects opts) ++
        uvcSummaries long opts (uvcTotals opts (records.filterMap uvcInput))) := by
  obtain ⟨hstate, hlines⟩ := uvcRun_reads opts records
  rw [uvcSession, hstate]
  exact List.rel_append hlines (uvcOnStop_reads long opts _)

end UsbTrace.Analysis

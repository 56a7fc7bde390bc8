import UsbTrace.Model.ClassStream
import UsbTrace.Model.Driver

/-!
# The report of the uvc module

The consumer of uvc.c in JSON mode: it tallies wire frames, buffers and the driver's frames,
prints what is out of order (or everything), and sums up when it stops, with the tallies of a
target with a `long` of some width.
-/

set_option autoImplicit false

namespace UsbTrace.Model

open UsbTrace.Library

/-! ## Tallies -/

/-- The intervals measured so far, as `g_fstats` and `g_vbstats` keep them (uvc.c:34-37, 47-51). -/
@[ext] structure IntervalTally where
  intervals : ULong := 0
  sumIntervalNs : UInt64 := 0
  minIntervalNs : UInt32 := 0
  maxIntervalNs : UInt32 := 0
deriving DecidableEq, Repr

/-- One more interval (uvc.c:142-150, 211-219). -/
def IntervalTally.note (t : IntervalTally) (iv : UInt32) : IntervalTally where
  intervals := t.intervals + 1
  sumIntervalNs := t.sumIntervalNs + iv.toUInt64
  minIntervalNs := if t.minIntervalNs = 0 ∨ iv < t.minIntervalNs then iv else t.minIntervalNs
  maxIntervalNs := if iv > t.maxIntervalNs then iv else t.maxIntervalNs

/-- `g_fstats` (uvc.c:30-38). -/
structure FrameStats where
  frames : ULong := 0
  errored : ULong := 0
  bytes : UInt64 := 0
  iv : IntervalTally := {}
deriving DecidableEq, Repr

/-- `g_vbstats` (uvc.c:41-52). -/
structure Vb2Stats where
  done : ULong := 0
  seqGaps : ULong := 0
  starved : ULong := 0
  wireCorr : ULong := 0
  bytes : UInt64 := 0
  iv : IntervalTally := {}
  sumWireToVb2Ns : UInt64 := 0
deriving DecidableEq, Repr

/-- `g_drvstats` (uvc.c:55-61). -/
structure DrvStats where
  received : ULong := 0
  dropped : ULong := 0
  dropShort : ULong := 0
  dropIso : ULong := 0
  dropOther : ULong := 0
deriving DecidableEq, Repr

/-- `tally_frame` (uvc.c:136-151). -/
def tallyFrame (st : FrameStats) (e : UvcFrameEvent) : FrameStats where
  frames := st.frames + 1
  bytes := st.bytes + e.bytes.toUInt64
  errored := if e.errored ≠ 0 then st.errored + 1 else st.errored
  iv := if e.intervalNs ≠ 0 then st.iv.note e.intervalNs else st.iv

/-- `tally_vb2` (uvc.c:197-220). -/
def tallyVb2 (st : Vb2Stats) (e : UvcVb2Event) : Vb2Stats where
  done := if e.vb2Op = uvcVb2Done then st.done + 1 else st.done
  seqGaps := if e.seqGap ≠ 0 then st.seqGaps + 1 else st.seqGaps
  starved := if e.starved ≠ 0 ∨ e.vb2Op = uvcVb2Starved then st.starved + 1 else st.starved
  wireCorr := if e.wireToVb2Ns ≠ 0 then st.wireCorr + 1 else st.wireCorr
  sumWireToVb2Ns :=
    if e.wireToVb2Ns ≠ 0 then st.sumWireToVb2Ns + e.wireToVb2Ns.toUInt64 else st.sumWireToVb2Ns
  bytes := if e.vb2Op = uvcVb2Done then st.bytes + e.bytesused.toUInt64 else st.bytes
  iv := if e.vb2Op = uvcVb2Done ∧ e.intervalNs ≠ 0 then st.iv.note e.intervalNs else st.iv

/-- `tally_drv` (uvc.c:270-283). -/
def tallyDrv (st : DrvStats) (e : UvcDrvEvent) : DrvStats :=
  if e.drvOp = uvcDrvRecv then { st with received := st.received + 1 }
  else if e.drvOp = uvcDrvDrop then
    { st with
      dropped := st.dropped + 1
      dropShort := if e.reason &&& uvcDropShort ≠ 0 then st.dropShort + 1 else st.dropShort
      dropIso := if e.reason &&& uvcDropIso ≠ 0 then st.dropIso + 1 else st.dropIso
      dropOther := if e.reason &&& uvcDropOther ≠ 0 then st.dropOther + 1 else st.dropOther }
  else st

/-! ## Events -/

/-- The options of the module, and whether the drop hook is loaded
(`uvc_drop_hook_active`, uvc.c:399-403). -/
structure UvcOptions where
  all : Bool := false
  noFrames : Bool := false
  noVb2 : Bool := false
  fpsTarget : UInt32 := 0
  dropHook : Bool := true
deriving DecidableEq, Repr

/-- The globals of the module. -/
structure UvcTallies where
  klass : ClassStreamCtx
  frames : FrameStats := {}
  vb2 : Vb2Stats := {}
  drv : DrvStats := {}
deriving DecidableEq, Repr

/-- `vb2_op_str` (uvc.c:63-72). -/
def vb2OpStr : UInt8 → CStr :=
  label ["done".toList, "queue".toList, "qbuf".toList, "dqbuf".toList, "starve".toList]
    "done".toList

/-- `ns / 1000.0`. -/
def usOf (ns : UInt32) : ℚ := toDouble (ns.toNat / 1000)

/-- A frame below the target rate (uvc.c:166-167). -/
def slowFrame (fpsTarget : UInt32) (e : UvcFrameEvent) : Bool :=
  fpsTarget ≠ 0 && e.intervalNs ≠ 0 && fpsOf e.intervalNs < toDouble fpsTarget.toNat

/-- A frame that is printed without `--all` (uvc.c:168). -/
def frameAnomaly (fpsTarget : UInt32) (e : UvcFrameEvent) : Bool :=
  e.errored ≠ 0 || slowFrame fpsTarget e

/-- The line of a frame (uvc.c:173-185). -/
def framePrintJson (e : UvcFrameEvent) : CStr :=
  printf ("\x7b\"event\":\"uvc_frame\",\"errored\":%u,\"eof\":%u," ++
      "\"bytes\":%u,\"packets\":%u,\"err_packets\":%u," ++
      "\"duration_us\":%.1f,\"interval_us\":%.1f,\"fps\":%.1f," ++
      "\"pts\":%u,\"scr_stc\":%u,\"vid\":\"0x%04x\"," ++
      "\"pid\":\"0x%04x\",\"bus\":%u,\"dev\":%u,\"comm\":\"%s\"\x7d\n")
    [.num e.errored.toNat, .num e.eof.toNat, .num e.bytes.toNat, .num e.packets.toNat,
      .num e.errPackets.toNat, .dbl (usOf e.durationNs), .dbl (usOf e.intervalNs),
      .dbl (fpsOf e.intervalNs), .num e.pts.toNat, .num e.scrStc.toNat, .num e.vid.toNat,
      .num e.product.toNat, .num e.busnum.toNat, .num e.devnum.toNat, commJson e.comm]

/-- A buffer that is printed without `--all` (uvc.c:228-229). -/
def vb2Anomaly (e : UvcVb2Event) : Bool :=
  e.seqGap ≠ 0 || e.starved ≠ 0 || e.vb2Op = uvcVb2Starved

/-- The line of a buffer (uvc.c:232-249). -/
def vb2PrintJson (e : UvcVb2Event) : CStr :=
  printf ("\x7b\"event\":\"uvc_vb2\",\"op\":\"%s\",\"sequence\":%u," ++
      "\"seq_gap\":%u,\"starved\":%u," ++
      "\"num_buffers\":%u,\"queued\":%u,\"drv_owned\":%u," ++
      "\"bytesused\":%u,\"interval_us\":%.1f,\"fps\":%.1f," ++
      "\"wire_to_vb2_us\":%.1f,\"state\":%u,\"buf_index\":%u," ++
      "\"vb2_ts\":%llu,\"vid\":\"0x%04x\",\"pid\":\"0x%04x\"," ++
      "\"bus\":%u,\"dev\":%u,\"comm\":\"%s\"\x7d\n")
    [.str (vb2OpStr e.vb2Op), .num e.sequence.toNat, .num e.seqGap.toNat, .num e.starved.toNat,
      .num e.numBuffers.toNat, .num e.queued.toNat, .num e.drvOwned.toNat, .num e.bytesused.toNat,
      .dbl (usOf e.intervalNs), .dbl (fpsOf e.intervalNs), .dbl (usOf e.wireToVb2Ns),
      .num e.state.toNat, .num e.bufIndex.toNat, .num e.vb2Timestamp.toNat, .num e.vid.toNat,
      .num e.product.toNat, .num e.busnum.toNat, .num e.devnum.toNat, commJson e.comm]

/-- `handle_frame`, `handle_vb2` and `handle_drv` (uvc.c:158-195, 222-268, 285-291), on a record
that is there in full. -/
def handleFrame (opts : UvcOptions) (t : UvcTallies) (e : UvcFrameEvent) :
    UvcTallies × List CStr :=
  ({ t with frames := tallyFrame t.frames e },
    if !opts.all && !frameAnomaly opts.fpsTarget e then [] else [framePrintJson e])

def handleVb2 (opts : UvcOptions) (t : UvcTallies) (e : UvcVb2Event) : UvcTallies × List CStr :=
  ({ t with vb2 := tallyVb2 t.vb2 e },
    if !opts.all && !vb2Anomaly e then [] else [vb2PrintJson e])

def handleDrv (t : UvcTallies) (e : UvcDrvEvent) : UvcTallies × List CStr :=
  ({ t with drv := tallyDrv t.drv e }, [])

/-- `uvc_on_event` (uvc.c:294-307). -/
def uvcOnEvent (opts : UvcOptions) (t : UvcTallies) (data : List UInt8) :
    UvcTallies × List CStr :=
  match usbtraceEventHdr.view data with
  | none => (t, [])
  | some h =>
    if h.kind = evtUvcFrame then
      match (uvcFrameEvent.view data).map (UvcFrameEvent.readTexts data) with
      | none => (t, [])
      | some e => handleFrame opts t e
    else if h.kind = evtUvcVb2 then
      match (uvcVb2Event.view data).map (UvcVb2Event.readTexts data) with
      | none => (t, [])
      | some e => handleVb2 opts t e
    else if h.kind = evtUvcDrv then
      match uvcDrvEvent.view data with
      | none => (t, [])
      | some e => handleDrv t e
    else
      let (klass, out) := classStreamOnEvent t.klass data
      ({ t with klass := klass }, out)

/-! ## Summaries -/

/-- `(double)sum / n` where `n` is not 0, else 0. -/
def avgOf (sum n : ℕ) : ℚ := if n ≠ 0 then toDouble (toDouble sum / toDouble n) else 0

/-- `(unsigned int)` of a nonnegative double. -/
def truncU32 (q : ℚ) : UInt32 := UInt32.ofNat ⌊q⌋.toNat

/-- `fps_of((unsigned int)avg)` (uvc.c:326-327, 334, 361-362, 370). -/
def IntervalTally.avgFps (long : LongWidth) (t : IntervalTally) : ℚ :=
  fpsOf (truncU32 (avgOf t.sumIntervalNs.toNat (t.intervals.toNat long)))

/-- `uvc_frame_summary` (uvc.c:324-337). -/
def uvcFrameSummary (long : LongWidth) (st : FrameStats) : CStr :=
  printf ("\x7b\"event\":\"uvc_frame_summary\",\"frames\":%lu," ++
      "\"errored\":%lu,\"bytes\":%llu,\"avg_fps\":%.1f," ++
      "\"min_fps\":%.1f,\"max_fps\":%.1f\x7d\n")
    [.num (st.frames.toNat long), .num (st.errored.toNat long), .num st.bytes.toNat,
      .dbl (st.iv.avgFps long),
      .dbl (fpsOf st.iv.maxIntervalNs), .dbl (fpsOf st.iv.minIntervalNs)]

/-- `uvc_vb2_summary` (uvc.c:359-373). -/
def uvcVb2Summary (long : LongWidth) (st : Vb2Stats) : CStr :=
  printf ("\x7b\"event\":\"uvc_vb2_summary\",\"done\":%lu," ++
      "\"seq_gaps\":%lu,\"starved\":%lu,\"bytes\":%llu," ++
      "\"avg_fps\":%.1f,\"min_fps\":%.1f,\"max_fps\":%.1f\x7d\n")
    [.num (st.done.toNat long), .num (st.seqGaps.toNat long), .num (st.starved.toNat long),
      .num st.bytes.toNat, .dbl (st.iv.avgFps long),
      .dbl (fpsOf st.iv.maxIntervalNs), .dbl (fpsOf st.iv.minIntervalNs)]

/-- `uvc_drv_summary` (uvc.c:405-417). -/
def uvcDrvSummary (long : LongWidth) (dropOk : Bool) (st : DrvStats) : CStr :=
  printf ("\x7b\"event\":\"uvc_drv_summary\",\"received\":%lu," ++
      "\"dropped\":%lu,\"drop_short\":%lu,\"drop_iso\":%lu," ++
      "\"drop_other\":%lu,\"drop_hook\":%s\x7d\n")
    [.num (st.received.toNat long), .num (st.dropped.toNat long),
      .num (st.dropShort.toNat long), .num (st.dropIso.toNat long), .num (st.dropOther.toNat long),
      .str (if dropOk then "true".toList else "false".toList)]

/-- The rate `uvc_gap_summary` prints: 0 where no interval was measured (uvc.c:442-449). -/
def gapFps (long : LongWidth) (t : IntervalTally) : ℚ :=
  if t.intervals.toNat long ≠ 0 then t.avgFps long else 0

/-- `(double)sum_wire_to_vb2_ns / wire_corr / 1e6` (uvc.c:450-452). -/
def wireVb2Ms (long : LongWidth) (st : Vb2Stats) : ℚ :=
  if st.wireCorr.toNat long ≠ 0 then
    toDouble (avgOf st.sumWireToVb2Ns.toNat (st.wireCorr.toNat long) / 10 ^ 6)
  else 0

/-- `uvc_gap_summary` (uvc.c:440-460). -/
def uvcGapSummary (long : LongWidth) (f : FrameStats) (v : Vb2Stats) : CStr :=
  printf ("\x7b\"event\":\"uvc_gap_summary\",\"wire_fps\":%.1f," ++
      "\"vb2_fps\":%.1f,\"wire_drops\":%lu," ++
      "\"vb2_seq_gaps\":%lu,\"vb2_starved\":%lu," ++
      "\"avg_wire_to_vb2_ms\":%.2f\x7d\n")
    [.dbl (gapFps long f.iv), .dbl (gapFps long v.iv), .num (f.errored.toNat long),
      .num (v.seqGaps.toNat long), .num (v.starved.toNat long), .dbl (wireVb2Ms long v)]

/-- `uvc_on_stop` (uvc.c:494-505). -/
def uvcOnStop (long : LongWidth) (opts : UvcOptions) (t : UvcTallies) : List CStr :=
  [classStreamSummary long "uvc".toList t.klass.stats] ++
    (if !opts.noFrames then [uvcFrameSummary long t.frames] else []) ++
    [uvcDrvSummary long opts.dropHook t.drv] ++
    (if !opts.noVb2 then [uvcVb2Summary long t.vb2] else []) ++
    (if !opts.noFrames && !opts.noVb2 then [uvcGapSummary long t.frames t.vb2] else [])

/-- The tallies at the beginning, with `--all` set for the shared consumer. -/
def UvcTallies.start (opts : UvcOptions) : UvcTallies := { klass := { all := opts.all } }

/-- What a session prints for the records its map hands on, `on_stop` included. -/
def uvcSession (long : LongWidth) (opts : UvcOptions) (records : List (List UInt8)) : List CStr :=
  outputs (uvcOnEvent opts) (UvcTallies.start opts) records ++
    uvcOnStop long opts (finalState (uvcOnEvent opts) (UvcTallies.start opts) records)

end UsbTrace.Model

import UsbTrace.Model.Probe

/-!
# The uvc probes

What uvc.bpf.c does at a video URB completion and at the videobuf2 tracepoints: the
assembly of frames from isoc packets, and the queue records with their device.  The maps
are the program's own, all of 64 entries; a value a program holds a pointer to is written
back where the program is done with it.
-/

set_option autoImplicit false

namespace UsbTrace.Model

open UsbTrace.Library

/-! ## State -/

/-- `UVC_MAX_ISOC_PKTS` (uvc.bpf.c:39). -/
def uvcMaxIsocPkts : ℕ := 32

/-- The bits of a payload header's `bmHeaderInfo` (uvc.bpf.c:41-45). -/
def uvcFid : UInt8 := 0x01
def uvcEof : UInt8 := 0x02
def uvcPts : UInt8 := 0x04
def uvcScr : UInt8 := 0x08
def uvcErr : UInt8 := 0x40

/-- `struct uvc_stream_state` (uvc.bpf.c:48-61). -/
structure UvcStreamState where
  frameStartTs : UInt64 := 0
  lastFrameEndTs : UInt64 := 0
  curBytes : UInt32 := 0
  curPackets : UInt32 := 0
  curErrPackets : UInt32 := 0
  curPts : UInt32 := 0
  curScrStc : UInt32 := 0
  curScrSof : UInt16 := 0
  curFid : UInt8 := 0
  haveFid : Bool := false
  sawErr : Bool := false
  active : Bool := false
deriving DecidableEq, Repr

/-- `VB2_MIN_BYTES`, `VB2_MAX_BYTES` (uvc.bpf.c:72-73). -/
def vb2MinBytes : UInt32 := 100000
def vb2MaxBytes : UInt32 := 32 * 1024 * 1024

/-- `struct vb2_qstate` (uvc.bpf.c:75-82). -/
structure Vb2Qstate where
  doneCount : UInt32 := 0
  lastDoneNs : UInt64 := 0
  lastStarveNs : UInt64 := 0
  lastSequence : UInt32 := 0
  haveLastSeq : Bool := false
deriving DecidableEq, Repr

/-- `VB2_STARVE_COOLDOWN_NS`, `WIRE_VB2_MAX_NS`: 100 ms each. -/
def vb2StarveCooldownNs : UInt64 := 100000000
def wireVb2MaxNs : UInt64 := 100000000

/-- `struct stream_corr` (uvc.bpf.c:132-140). -/
structure StreamCorr where
  lastWireDoneNs : UInt64 := 0
  lastWireBytes : UInt32 := 0
  vid : UInt16 := 0
  pid : UInt16 := 0
  busnum : UInt16 := 0
  devnum : UInt16 := 0
deriving DecidableEq, Repr

/-- The maps of the uvc program. -/
structure UvcMaps where
  streams : BoundedMap UInt32 UvcStreamState 64
  vb2DevQueue : BoundedMap UInt32 UInt64 64
  vb2Queues : BoundedMap UInt64 Vb2Qstate 64
  streamCorr : BoundedMap UInt32 StreamCorr 64

/-- The maps of a program just loaded. -/
def UvcMaps.empty : UvcMaps :=
  ⟨BoundedMap.empty, BoundedMap.empty, BoundedMap.empty, BoundedMap.empty⟩

/-! ## videobuf2 -/

/-- `enum vb2_buffer_state` (vb2.bpf.h), the states the program names. -/
def vb2BufStateDequeued : UInt8 := 0
def vb2BufStateQueued : UInt8 := 3
def vb2BufStateActive : UInt8 := 4
def vb2BufStateDone : UInt8 := 5

/-- `enum uvc_vb2_op` (uvc.h). -/
def uvcVb2Done : UInt8 := 0
def uvcVb2Queue : UInt8 := 1
def uvcVb2Qbuf : UInt8 := 2
def uvcVb2Dqbuf : UInt8 := 3
def uvcVb2Starved : UInt8 := 4

/-- What the probes read of a `struct vb2_buffer`; `bytesused` is that of plane 0, and
`sequence` is there where the module BTF gives its place. -/
structure Vb2Buffer where
  vb2Queue : UInt64 := 0
  type : UInt32 := 0
  index : UInt32 := 0
  bytesused : UInt32 := 0
  timestamp : UInt64 := 0
  sequence : Option UInt32 := none
deriving DecidableEq, Repr

/-- `vb2_seq_gap` (uvc.bpf.c:110-120). -/
def vb2SeqGap (last cur : UInt32) : UInt8 :=
  if cur = last then 0
  else
    let expected := if last = 0xffffffff then 0 else last + 1
    if cur ≠ expected then 1 else 0

/-- `uvc_wire_to_vb2_ns` (uvc.bpf.c:149-164). -/
def uvcWireToVb2Ns (m : UvcMaps) (now : UInt64) (bytesused : UInt32) : UInt32 :=
  match m.streamCorr.lookup 0 with
  | none => 0
  | some corr =>
    if corr.lastWireDoneNs = 0 ∨ bytesused = 0 then 0
    else if bytesused ≠ corr.lastWireBytes then 0
    else
      let delta := now - corr.lastWireDoneNs
      if delta > wireVb2MaxNs then 0 else delta.toUInt32

/-- `uvc_corr_store` (uvc.bpf.c:166-182). -/
def uvcCorrStore (m : BoundedMap UInt32 StreamCorr 64) (key : UInt32)
    (vid pid bus devnum : UInt16) (bytes : UInt32) (now : UInt64) :
    BoundedMap UInt32 StreamCorr 64 :=
  let m := m.update key {}
  match m.lookup key with
  | none => m
  | some _ => m.update key
      { lastWireDoneNs := now, lastWireBytes := bytes, vid := vid, pid := pid, busnum := bus,
        devnum := devnum }

/-- The key of a device: `((__u32)bus << 16) | devnum`. -/
def uvcDevKey (bus devnum : UInt16) : UInt32 := (bus.toUInt32 <<< 16) ||| devnum.toUInt32

/-- `uvc_note_wire_frame` (uvc.bpf.c:184-192). -/
def uvcNoteWireFrame (m : UvcMaps) (bus devnum vid pid : UInt16) (bytes : UInt32)
    (now : UInt64) : UvcMaps :=
  let corr := uvcCorrStore m.streamCorr 0 vid pid bus devnum bytes now
  { m with streamCorr := uvcCorrStore corr (uvcDevKey bus devnum) vid pid bus devnum bytes now }

/-- `vb2_is_capture` (uvc.bpf.c:194-203). -/
def vb2IsCapture (b : Vb2Buffer) : Bool := b.type = 1 || b.type = 9

/-- `vb2_read_pool` (uvc.bpf.c:205-224): `num_buffers`, `queued`, `drv_owned`. -/
def vb2ReadPool (ctx : HookCtx) (q : UInt64) : UInt16 × UInt16 × UInt16 :=
  if q = 0 then (0, 0, 0)
  else
    let pool := ctx.pool q
    (pool.numBuffers.toUInt16, pool.queuedCount.toUInt16, pool.ownedByDrvCount.toUInt32.toUInt16)

/-- `uvc_vb2_qstate` (uvc.bpf.c:226-235). -/
def uvcVb2Qstate (m : UvcMaps) (key : UInt64) : UvcMaps × Option Vb2Qstate :=
  let (queues, st) := m.vb2Queues.lookupOrInit key {}
  ({ m with vb2Queues := queues }, st)

/-- `uvc_vb2_fill_device` (uvc.bpf.c:237-254): the entry the record takes its device from,
where there is one. -/
def uvcVb2FillDevice (m : UvcMaps) (now : UInt64) : Option StreamCorr :=
  match m.streamCorr.lookup 0 with
  | none => none
  | some corr =>
    if corr.lastWireDoneNs = 0 then none
    else if now - corr.lastWireDoneNs > wireVb2MaxNs then none
    else some corr

/-- `uvc_vb2_bind_dev` (uvc.bpf.c:256-265). -/
def uvcVb2BindDev (m : UvcMaps) (q : UInt64) (bus dev : UInt16) : UvcMaps :=
  if bus = 0 ∧ dev = 0 then m
  else { m with vb2DevQueue := m.vb2DevQueue.update (uvcDevKey bus dev) q }

/-- `uvc_vb2_submit` (uvc.bpf.c:267-305). -/
def uvcVb2Submit (ctx : HookCtx) (m : UvcMaps) (q : UInt64) (b : Option Vb2Buffer)
    (op state starved : UInt8) (now : UInt64) (seq : UInt32) (seqGap : UInt8)
    (interval wireToVb2Ns : UInt32) : UvcMaps × List Record :=
  let (nb, qu, drv) := vb2ReadPool ctx q
  let corr := (uvcVb2FillDevice m now).getD {}
  let ve : UvcVb2Event :=
    { hdr := eventHdr evtUvcVb2 uvcVb2Event.sizeof now
      sequence := seq
      bytesused := (b.map Vb2Buffer.bytesused).getD 0
      vb2Timestamp := (b.map Vb2Buffer.timestamp).getD 0
      state := state
      intervalNs := interval
      bufIndex := (b.map fun b => b.index.toUInt8).getD 0
      seqGap := seqGap
      vb2Op := op
      starved := starved
      numBuffers := nb
      queued := qu
      drvOwned := drv
      wireToVb2Ns := wireToVb2Ns
      vid := corr.vid
      product := corr.pid
      busnum := corr.busnum
      devnum := corr.devnum
      comm := readStr usbtraceCommLen ctx.task.comm }
  let m := if ve.busnum ≠ 0 ∨ ve.devnum ≠ 0 then uvcVb2BindDev m q ve.busnum ve.devnum else m
  (m, [.uvcVb2 ve])

/-- `uvc_check_starvation` (uvc.bpf.c:307-336). -/
def uvcCheckStarvation (ctx : HookCtx) (m : UvcMaps) (bus dev : UInt16) (now : UInt64) :
    UvcMaps × List Record :=
  if bus = 0 ∧ dev = 0 then (m, [])
  else match m.vb2DevQueue.lookup (uvcDevKey bus dev) with
    | none => (m, [])
    | some q =>
      if q = 0 then (m, [])
      else
        let (_, qu, _) := vb2ReadPool ctx q
        if qu > 0 then (m, [])
        else match uvcVb2Qstate m q with
          | (m, none) => (m, [])
          | (m, some st) =>
            if st.lastStarveNs ≠ 0 ∧ now - st.lastStarveNs < vb2StarveCooldownNs then (m, [])
            else
              let m := { m with vb2Queues := m.vb2Queues.update q { st with lastStarveNs := now } }
              uvcVb2Submit ctx m q none uvcVb2Starved 0 1 now 0 0 0 0

/-- The sequence and the gap of a completion, and the state of its queue after it
(uvc.bpf.c:364-376). -/
def vb2NoteDone (st : Vb2Qstate) (sequence : Option UInt32) (now : UInt64) :
    UInt32 × UInt8 × UInt32 × Vb2Qstate :=
  let st := { st with doneCount := st.doneCount + 1 }
  let (seq, seqGap, st) := match sequence with
    | some seq => (seq, if st.haveLastSeq then vb2SeqGap st.lastSequence seq else 0,
        { st with lastSequence := seq, haveLastSeq := true })
    | none => (st.doneCount, 0, st)
  let interval := if st.lastDoneNs ≠ 0 then (now - st.lastDoneNs).toUInt32 else 0
  (seq, seqGap, interval, { st with lastDoneNs := now })

/-- `uvc_emit_vb2_done` (uvc.bpf.c:338-380). -/
def uvcEmitVb2Done (ctx : HookCtx) (m : UvcMaps) (b : Vb2Buffer) (state : UInt8) :
    UvcMaps × List Record :=
  if state ≠ vb2BufStateDone then (m, [])
  else if b.bytesused ≠ 0 ∧ (b.bytesused < vb2MinBytes ∨ b.bytesused > vb2MaxBytes) then (m, [])
  else if b.vb2Queue = 0 then (m, [])
  else match uvcVb2Qstate m b.vb2Queue with
    | (m, none) => (m, [])
    | (m, some st) =>
      let (seq, seqGap, interval, st) := vb2NoteDone st b.sequence ctx.now
      let m := { m with vb2Queues := m.vb2Queues.update b.vb2Queue st }
      let wire := uvcWireToVb2Ns m ctx.now b.bytesused
      uvcVb2Submit ctx m b.vb2Queue (some b) uvcVb2Done state 0 ctx.now seq seqGap interval wire

/-- `uvc_emit_vb2_xact` (uvc.bpf.c:382-392). -/
def uvcEmitVb2Xact (ctx : HookCtx) (m : UvcMaps) (q : UInt64) (b : Vb2Buffer) (op state : UInt8) :
    UvcMaps × List Record :=
  if q = 0 ∨ !vb2IsCapture b then (m, [])
  else uvcVb2Submit ctx m q (some b) op state 0 ctx.now 0 0 0 0

/-- The videobuf2 tracepoints (uvc.bpf.c:425-453). -/
inductive Vb2Hook where
  /-- `vb2_buf_done`, or `vb2_v4l2_buf_done` on kernels that have that one. -/
  | bufDone (b : Vb2Buffer)
  | bufQueue (q : UInt64) (b : Vb2Buffer)
  | qbuf (q : UInt64) (b : Vb2Buffer)
  | dqbuf (q : UInt64) (b : Vb2Buffer)
deriving DecidableEq, Repr

/-- A videobuf2 tracepoint fires. -/
def vb2Step (ctx : HookCtx) (m : UvcMaps) : Vb2Hook → UvcMaps × List Record
  | .bufDone b => uvcEmitVb2Done ctx m b vb2BufStateDone
  | .bufQueue q b => uvcEmitVb2Xact ctx m q b uvcVb2Queue vb2BufStateActive
  | .qbuf q b => uvcEmitVb2Xact ctx m q b uvcVb2Qbuf vb2BufStateQueued
  | .dqbuf q b => uvcEmitVb2Xact ctx m q b uvcVb2Dqbuf vb2BufStateDequeued

/-! ## Frames -/

/-- `uvc_load_le32`, `uvc_load_le16` (uvc.bpf.c:455-463), at a place of the header. -/
def uvcLoadLe32 (p : List UInt8) (i : ℕ) : UInt32 :=
  (p.getD i 0).toUInt32 ||| ((p.getD (i + 1) 0).toUInt32 <<< 8) |||
    ((p.getD (i + 2) 0).toUInt32 <<< 16) ||| ((p.getD (i + 3) 0).toUInt32 <<< 24)

def uvcLoadLe16 (p : List UInt8) (i : ℕ) : UInt16 :=
  (p.getD i 0).toUInt16 ||| ((p.getD (i + 1) 0).toUInt16 <<< 8)

/-- Where a frame comes from: what `uvc_parse_frames` has read of the URB and its device. -/
structure UvcSource where
  vid : UInt16
  pid : UInt16
  bus : UInt16
  devnum : UInt16
  ep : UInt8
deriving DecidableEq, Repr

/-- The record of the frame in the making (uvc.bpf.c:469-495). -/
def uvcFrameRecord (ctx : HookCtx) (src : UvcSource) (st : UvcStreamState) (eof : Bool) :
    UvcFrameEvent :=
  { hdr := eventHdr evtUvcFrame uvcFrameEvent.sizeof ctx.now
    bytes := st.curBytes
    packets := st.curPackets
    errPackets := st.curErrPackets
    durationNs := (ctx.now - st.frameStartTs).toUInt32
    intervalNs := if st.lastFrameEndTs ≠ 0 then (ctx.now - st.lastFrameEndTs).toUInt32 else 0
    pts := st.curPts
    scrStc := st.curScrStc
    scrSof := st.curScrSof
    vid := src.vid
    product := src.pid
    busnum := src.bus
    devnum := src.devnum
    ep := src.ep
    errored := if !eof || st.sawErr then 1 else 0
    eof := if eof then 1 else 0
    fid := st.curFid
    comm := readStr usbtraceCommLen ctx.task.comm }

/-- The stream once a frame is emitted (uvc.bpf.c:500-509). -/
def uvcResetFrame (st : UvcStreamState) (now : UInt64) : UvcStreamState :=
  { st with
    lastFrameEndTs := now
    curBytes := 0
    curPackets := 0
    curErrPackets := 0
    curPts := 0
    curScrStc := 0
    curScrSof := 0
    sawErr := false
    active := false }

/-- What the packet loop carries: the stream, the other maps, and the records so far. -/
structure FrameLoop where
  st : UvcStreamState
  maps : UvcMaps
  out : List Record

/-- `uvc_emit_frame` (uvc.bpf.c:465-510). -/
def uvcEmitFrame (ctx : HookCtx) (src : UvcSource) (s : FrameLoop) (eof : Bool) : FrameLoop :=
  let fe := uvcFrameRecord ctx src s.st eof
  let m := uvcNoteWireFrame s.maps src.bus src.devnum src.vid src.pid s.st.curBytes ctx.now
  let (m, starved) := uvcCheckStarvation ctx m src.bus src.devnum ctx.now
  { st := uvcResetFrame s.st ctx.now, maps := m, out := s.out ++ .uvcFrame fe :: starved }

/-- `bpf_probe_read_kernel` of `n` bytes, of those that can be read. -/
def probeRead (n : ℕ) (bytes : List UInt8) : Option (List UInt8) :=
  if n ≤ bytes.length then some (bytes.take n) else none

/-- The payload header of a packet, zeroed past what is read of it; nothing where the packet
is skipped (uvc.bpf.c:568-588). -/
def uvcPayloadHeader (tblen : UInt32) (d : IsoPacket) : Option (List UInt8) :=
  if d.actualLength = 0 then none  -- empty packet between frames: normal
  else if d.offset + 2 > tblen then none
  else
    let n := if d.offset + 12 ≤ tblen then 12 else 2
    match probeRead n d.payload with
    | none => none
    | some bytes =>
      let hdr := bytes ++ List.replicate (12 - n) 0
      let hlen := hdr.getD 0 0
      -- not a well-formed payload header
      if hlen < 2 ∨ hlen.toUInt32 > d.actualLength then none else some hdr

/-- The marks a packet with an error status leaves (uvc.bpf.c:564-567). -/
def uvcMarkStatus (st : UvcStreamState) (d : IsoPacket) : UvcStreamState :=
  if d.status ≠ 0 then { st with sawErr := true, curErrPackets := st.curErrPackets + 1 } else st

/-- A frame begins with the packet at hand (uvc.bpf.c:592-595). -/
def uvcStartFrame (st : UvcStreamState) (fid : UInt8) (now : UInt64) : UvcStreamState :=
  { st with active := true, haveFid := true, curFid := fid, frameStartTs := now }

/-- The payload of a packet is added to the frame (uvc.bpf.c:606-608). -/
def uvcAddPayload (st : UvcStreamState) (d : IsoPacket) (hdr : List UInt8) : UvcStreamState :=
  { st with
    curBytes := st.curBytes + (d.actualLength - (hdr.getD 0 0).toUInt32)
    curPackets := st.curPackets + 1 }

/-- What the header says of the frame (uvc.bpf.c:609-617): its error bit, its PTS and its
SCR. -/
def uvcNoteErr (st : UvcStreamState) (hdr : List UInt8) : UvcStreamState :=
  if hdr.getD 1 0 &&& uvcErr ≠ 0 then { st with sawErr := true } else st

def uvcNotePts (st : UvcStreamState) (hdr : List UInt8) : UvcStreamState :=
  if hdr.getD 1 0 &&& uvcPts ≠ 0 ∧ hdr.getD 0 0 ≥ 6 then
    { st with curPts := uvcLoadLe32 hdr 2 }
  else st

def uvcNoteScr (st : UvcStreamState) (hdr : List UInt8) : UvcStreamState :=
  if hdr.getD 1 0 &&& uvcPts ≠ 0 ∧ hdr.getD 1 0 &&& uvcScr ≠ 0 ∧ hdr.getD 0 0 ≥ 12 then
    { st with curScrStc := uvcLoadLe32 hdr 6, curScrSof := uvcLoadLe16 hdr 10 }
  else st

/-- The packet is counted into the frame. -/
def uvcCountPacket (st : UvcStreamState) (d : IsoPacket) (hdr : List UInt8) : UvcStreamState :=
  uvcNoteScr (uvcNotePts (uvcNoteErr (uvcAddPayload st d hdr) hdr) hdr) hdr

/-- One turn of the packet loop (uvc.bpf.c:550-621). -/
def uvcPacket (ctx : HookCtx) (src : UvcSource) (tblen : UInt32) (s : FrameLoop) :
    Option IsoPacket → FrameLoop
  | none => s
  | some d =>
    let s := { s with st := uvcMarkStatus s.st d }
    match uvcPayloadHeader tblen d with
    | none => s
    | some hdr =>
      let bfh := hdr.getD 1 0
      let fid := bfh &&& uvcFid
      let s :=
        if !s.st.active then { s with st := uvcStartFrame s.st fid ctx.now }
        else if s.st.haveFid ∧ fid ≠ s.st.curFid then
          -- the previous frame lost its end
          let s := uvcEmitFrame ctx src s false
          { s with st := uvcStartFrame s.st fid ctx.now }
        else s
      let s := { s with st := uvcCountPacket s.st d hdr }
      if bfh &&& uvcEof ≠ 0 then uvcEmitFrame ctx src s true else s

/-- The key of a stream: `((__u32)bus << 16) | ((__u32)devnum << 8) | ep`. -/
def uvcStreamKey (bus devnum : UInt16) (ep : UInt8) : UInt32 :=
  (bus.toUInt32 <<< 16) ||| (devnum.toUInt32 <<< 8) ||| ep.toUInt32

/-- The key of the stream frames come from. -/
def UvcSource.key (src : UvcSource) : UInt32 := uvcStreamKey src.bus src.devnum src.ep

/-- The packets of an URB the loop comes to. -/
def uvcPackets (urb : Urb) : List (Option IsoPacket) :=
  urb.isoFrameDesc.take (min uvcMaxIsocPkts urb.numberOfPackets.toInt.toNat)

/-- `uvc_parse_frames` (uvc.bpf.c:512-622). -/
def uvcParseFrames (cfg : FilterConfig) (ctx : HookCtx) (m : UvcMaps) (dev : UsbDevice)
    (urb : Urb) : UvcMaps × List Record :=
  match usbtraceDevMatch dev cfg.filterVid cfg.filterPid with
  | none => (m, [])
  | some (vid, pid) =>
    let src : UvcSource :=
      { vid := vid, pid := pid, bus := dev.busnum.toUInt16, devnum := dev.devnum.toUInt16,
        ep := pipeEndpoint urb.pipe }
    match m.streams.lookupOrInit src.key {} with
    | (streams, none) => ({ m with streams := streams }, [])
    | (streams, some st) =>
      let m := { m with streams := streams }
      if urb.transferBuffer = 0 then (m, [])
      else
        let s := (uvcPackets urb).foldl (uvcPacket ctx src urb.transferBufferLength)
          { st := st, maps := m, out := [] }
        ({ s.maps with streams := s.maps.streams.update src.key s.st }, s.out)

/-- `on_video_complete` (uvc.bpf.c:624-637). -/
def onVideoComplete (cfg : FilterConfig) (ctx : HookCtx) (m : UvcMaps) (dev : UsbDevice)
    (urb : Urb) : UvcMaps × List Record :=
  let e := usbtraceClassUrbEmit cfg dev urb usbtraceClassVideo ctx.now ctx.task
  let (m, frames) := uvcParseFrames cfg ctx m dev urb
  (m, (e.map .classUrb).toList ++ frames)

/-- A hook of the uvc module fires. -/
inductive UvcOp where
  | complete (ctx : HookCtx) (dev : UsbDevice) (urb : Urb)
  | vb2 (ctx : HookCtx) (call : Vb2Hook)
deriving DecidableEq, Repr

/-- The uvc program at a hook, with its `no_frames` and `no_vb2` off. -/
def uvcStep (cfg : FilterConfig) (m : UvcMaps) : UvcOp → UvcMaps × List Record
  | .complete ctx dev urb => onVideoComplete cfg ctx m dev urb
  | .vb2 ctx call => vb2Step ctx m call

end UsbTrace.Model

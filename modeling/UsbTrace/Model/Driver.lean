import UsbTrace.Model.Uvc

/-!
# The uvcvideo driver probes

What uvc.bpf.c does at three functions of the uvcvideo driver: it counts the frames the
driver has decoded, tags a buffer when an URB decoded into it has lost packets, and reports
a buffer that the driver drops at its completion, with the reason.  A buffer, a queue and a
stream come with what the probes read of them at that moment; a null pointer on the way is
`none`.
-/

set_option autoImplicit false

namespace UsbTrace.Model

open UsbTrace.Library UsbTrace.Library.Decode

/-! ## What the probes read -/

/-- `UVC_QUEUE_DROP_CORRUPTED`, `UVC_FMT_FLAG_COMPRESSED` (uvc.bpf.h:10-11). -/
def uvcQueueDropCorrupted : UInt32 := 2
def uvcFmtFlagCompressed : UInt32 := 1

/-- `enum uvc_drv_op` (uvc.h:109-112). -/
def uvcDrvRecv : UInt8 := 0
def uvcDrvDrop : UInt8 := 1

/-- `UVC_DROP_*` (uvc.h:115-117). -/
def uvcDropShort : UInt8 := 1
def uvcDropIso : UInt8 := 2
def uvcDropOther : UInt8 := 4

/-- What is read of a `struct uvc_streaming`: the USB device of its `dev`, where there is one,
and the flags of its `cur_format`. -/
structure UvcStreaming where
  udev : Option UsbDevice := none
  maxVideoFrameSize : UInt32 := 0
  curFormat : Option UInt32 := none
deriving DecidableEq, Repr

/-- What is read of a `struct uvc_video_queue`, which is part of its stream. -/
structure UvcVideoQueue where
  flags : UInt32 := 0
  stream : UvcStreaming := {}
deriving DecidableEq, Repr

/-- What is read of a `struct uvc_buffer`; `queue` is where its vb2 queue leads. -/
structure UvcBuffer where
  ptr : UInt64 := 0
  type : UInt32 := 0
  error : UInt32 := 0
  bytesused : UInt32 := 0
  queue : Option UvcVideoQueue := none
deriving DecidableEq, Repr

/-- What is read of a `struct uvc_urb`. -/
structure UvcUrb where
  stream : Option UvcStreaming := none
  urb : Option Urb := none
deriving DecidableEq, Repr

/-- The fields whose place the module BTF gives: `uvc_buffer.ref`, `uvc_buffer.buf`,
`vb2_v4l2_buffer.vb2_buf` and `uvc_streaming.queue`. -/
structure UvcOffsets where
  bufferRef : Bool := true
  bufferBuf : Bool := true
  vbufVb2 : Bool := true
  streamQueue : Bool := true
deriving DecidableEq, Repr

/-- `struct uvc_drv_event` (uvc.h:119-128). -/
structure UvcDrvEvent where
  hdr : UsbtraceEventHdr
  drvOp : UInt8
  reason : UInt8
  vid : UInt16
  product : UInt16
  busnum : UInt16
  devnum : UInt16
deriving DecidableEq, Repr

def uvcDrvEvent : Decode UvcDrvEvent :=
  UvcDrvEvent.mk <$> usbtraceEventHdr <*> u8 <*> u8 <*> u16 <*> u16 <*> u16 <*> u16

/-- `uvc_buf_is_video` (uvc.bpf.c:642-651). -/
def uvcBufIsVideo (buf : UvcBuffer) : Bool := buf.type = 1 || buf.type = 9

/-- `uvc_stream_usb` (uvc.bpf.c:653-671): the ids, the bus and the device number. -/
def uvcStreamUsb (cfg : FilterConfig) (stream : Option UvcStreaming) :
    Option (UInt16 × UInt16 × UInt16 × UInt16) :=
  match stream.bind UvcStreaming.udev with
  | none => none
  | some udev =>
    match usbtraceDevMatch udev cfg.filterVid cfg.filterPid with
    | none => none
    | some (vid, pid) => some (vid, pid, udev.busnum.toUInt16, udev.devnum.toUInt16)

/-- `uvc_buf_from_ref` (uvc.bpf.c:673-683). -/
def uvcBufFromRef (offs : UvcOffsets) (ref : Option UvcBuffer) : Option UvcBuffer :=
  if offs.bufferRef then ref else none

/-- `uvc_buf_video_queue` (uvc.bpf.c:685-707). -/
def uvcBufVideoQueue (offs : UvcOffsets) (buf : UvcBuffer) : Option UvcVideoQueue :=
  if !offs.bufferBuf then none
  else if !offs.vbufVb2 then none
  else buf.queue

/-! ## Causes -/

/-- The `drv_drop_cause` map: bits gathered for a buffer until its completion. -/
abbrev DropCauses := BoundedMap UInt64 UInt8 64

/-- `uvc_drop_cause_add` (uvc.bpf.c:718-730). -/
def uvcDropCauseAdd (m : DropCauses) (buf : UInt64) (bit : UInt8) : DropCauses :=
  match m.lookup buf with
  | some cur => m.update buf (cur ||| bit)
  | none => m.update buf bit

/-- `uvc_drop_cause_take` (uvc.bpf.c:732-743). -/
def uvcDropCauseTake (m : DropCauses) (buf : UInt64) : DropCauses × UInt8 :=
  match m.lookup buf with
  | some val => (m.delete buf, val)
  | none => (m, 0)

/-- `uvc_drv_emit` (uvc.bpf.c:745-761). -/
def uvcDrvEmit (op reason : UInt8) (ids : UInt16 × UInt16 × UInt16 × UInt16) (now : UInt64) :
    UvcDrvEvent :=
  let (vid, pid, bus, devnum) := ids
  { hdr := eventHdr evtUvcDrv uvcDrvEvent.sizeof now
    drvOp := op
    reason := reason
    vid := vid
    product := pid
    busnum := bus
    devnum := devnum }

/-! ## Hooks -/

/-- `on_queue_next` (uvc.bpf.c:764-787). -/
def onQueueNext (cfg : FilterConfig) (offs : UvcOffsets) (queue : Option UvcVideoQueue)
    (buf : Option UvcBuffer) (now : UInt64) : List UvcDrvEvent :=
  match queue, buf with
  | some queue, some buf =>
    if !uvcBufIsVideo buf then []
    else if !offs.streamQueue then []
    else match uvcStreamUsb cfg (some queue.stream) with
      | none => []
      | some ids => [uvcDrvEmit uvcDrvRecv 0 ids now]
  | _, _ => []

/-- One of the packets the loop comes to was lost; one that cannot be read is passed over
(uvc.bpf.c:818-831). -/
def isocLost (urb : Urb) : Bool :=
  (uvcPackets urb).any fun d => match d with
    | none => false
    | some d => d.status < 0

/-- `on_decode_isoc` (uvc.bpf.c:794-833). -/
def onDecodeIsoc (cfg : FilterConfig) (m : DropCauses) (uvcUrb : Option UvcUrb)
    (buf : Option UvcBuffer) : DropCauses :=
  match uvcUrb, buf with
  | some uvcUrb, some buf =>
    if !uvcBufIsVideo buf then m
    else match uvcStreamUsb cfg uvcUrb.stream with
      | none => m
      | some _ =>
        match uvcUrb.urb with
        | none => m
        | some urb => if isocLost urb then uvcDropCauseAdd m buf.ptr uvcDropIso else m
  | _, _ => m

/-- The buffer is short: its format is not compressed, and it has not the size of a frame
(uvc.bpf.c:883-891). -/
def shortFrame (stream : UvcStreaming) (buf : UvcBuffer) : Bool :=
  let fmtflags := stream.curFormat.getD 0
  fmtflags &&& uvcFmtFlagCompressed = 0 && stream.maxVideoFrameSize ≠ 0 &&
    buf.bytesused ≠ stream.maxVideoFrameSize

/-- The reason of a drop (uvc.bpf.c:883-894). -/
def dropReason (stream : UvcStreaming) (buf : UvcBuffer) (cause : UInt8) : UInt8 :=
  let reason := if shortFrame stream buf then cause ||| uvcDropShort else cause
  if reason = 0 then uvcDropOther else reason

/-- `on_queue_complete` (uvc.bpf.c:840-899). -/
def onQueueComplete (cfg : FilterConfig) (offs : UvcOffsets) (m : DropCauses)
    (ref : Option UvcBuffer) (now : UInt64) : DropCauses × List UvcDrvEvent :=
  match uvcBufFromRef offs ref with
  | none => ((uvcDropCauseTake m 0).1, [])
  | some buf =>
    if !uvcBufIsVideo buf then ((uvcDropCauseTake m buf.ptr).1, [])
    else match uvcBufVideoQueue offs buf with
      | none => ((uvcDropCauseTake m buf.ptr).1, [])
      | some queue =>
        if !offs.streamQueue then (m, [])
        else match uvcStreamUsb cfg (some queue.stream) with
          | none => ((uvcDropCauseTake m buf.ptr).1, [])
          | some ids =>
            let (m, cause) := uvcDropCauseTake m buf.ptr
            let err := buf.error.toUInt8
            if queue.flags &&& uvcQueueDropCorrupted = 0 ∨ err = 0 then (m, [])
            else (m, [uvcDrvEmit uvcDrvDrop (dropReason queue.stream buf cause) ids now])

/-- A function of the driver is called. -/
inductive DriverOp where
  | queueNext (now : UInt64) (queue : Option UvcVideoQueue) (buf : Option UvcBuffer)
  | decodeIsoc (uvcUrb : Option UvcUrb) (buf : Option UvcBuffer)
  | queueComplete (now : UInt64) (ref : Option UvcBuffer)
deriving DecidableEq, Repr

/-- The driver probes at a call. -/
def driverStep (cfg : FilterConfig) (offs : UvcOffsets) (m : DropCauses) :
    DriverOp → DropCauses × List UvcDrvEvent
  | .queueNext now queue buf => (m, onQueueNext cfg offs queue buf now)
  | .decodeIsoc uvcUrb buf => (onDecodeIsoc cfg m uvcUrb buf, [])
  | .queueComplete now ref => onQueueComplete cfg offs m ref now

end UsbTrace.Model

import UsbTrace.Model.Event
import UsbTrace.Library.Layout

/-!
# The probes' records and their normalization

The records the kernel probes emit, as their headers declare them, and `normalize`
(diag.c:163-340), which flattens the eight kinds diag accepts into `DiagEvent`.  Members
stand in source order, so a decoder's member places are those of the C struct on the
supported little-endian targets.
-/

set_option autoImplicit false

namespace UsbTrace.Model

open UsbTrace.Library UsbTrace.Library.Decode

def usbtraceCommLen : ℕ := 16

/-- `struct usbtrace_event_hdr` (common.h:39-43). -/
structure UsbtraceEventHdr where
  kind : EventKind
  size : UInt32
  tsNs : UInt64
deriving DecidableEq, Repr

def usbtraceEventHdr : Decode UsbtraceEventHdr := UsbtraceEventHdr.mk <$> u32 <*> u32 <*> u64

/-- `struct urb_event` (urb.h:12-37). -/
structure UrbEvent where
  hdr : UsbtraceEventHdr
  latencyNs : UInt64
  pid : UInt32
  length : UInt32
  actual : UInt32
  status : Int32
  vid : UInt16
  product : UInt16
  busnum : UInt16
  devnum : UInt16
  ep : UInt8
  dirIn : UInt8
  xferType : UInt8
  isSubmit : UInt8
  comm : List UInt8
  hasSetup : UInt8
  setup : List UInt8
deriving DecidableEq, Repr

def urbEvent : Decode UrbEvent :=
  UrbEvent.mk <$> usbtraceEventHdr <*> u64 <*> u32 <*> u32 <*> u32 <*> s32
    <*> u16 <*> u16 <*> u16 <*> u16 <*> u8 <*> u8 <*> u8 <*> u8
    <*> bytes usbtraceCommLen <*> u8 <*> bytes 8

/-- `struct enum_event` (enum.h:24-46). -/
structure EnumEvent where
  hdr : UsbtraceEventHdr
  pid : UInt32
  vid : UInt16
  product : UInt16
  busnum : UInt16
  devnum : UInt16
  oldState : UInt8
  newState : UInt8
  speed : UInt8
  portnum : UInt8
  devpath : List UInt8
  comm : List UInt8
  status : Int32
  step : UInt8
  pad : List UInt8
deriving DecidableEq, Repr

def enumEvent : Decode EnumEvent :=
  EnumEvent.mk <$> usbtraceEventHdr <*> u32 <*> u16 <*> u16 <*> u16 <*> u16
    <*> u8 <*> u8 <*> u8 <*> u8 <*> bytes 16 <*> bytes usbtraceCommLen <*> s32 <*> u8
    <*> bytes 3

/-- `struct power_rec` (power.h:24-41). -/
structure PowerRec where
  hdr : UsbtraceEventHdr
  pid : UInt32
  vid : UInt16
  product : UInt16
  busnum : UInt16
  devnum : UInt16
  action : UInt8
  speed : UInt8
  portnum : UInt8
  pad : UInt8
  devpath : List UInt8
  comm : List UInt8
deriving DecidableEq, Repr

def powerRec : Decode PowerRec :=
  PowerRec.mk <$> usbtraceEventHdr <*> u32 <*> u16 <*> u16 <*> u16 <*> u16
    <*> u8 <*> u8 <*> u8 <*> u8 <*> bytes 16 <*> bytes usbtraceCommLen

/-- `struct lifecycle_event` (lifecycle.h:20-37). -/
structure LifecycleEvent where
  hdr : UsbtraceEventHdr
  pid : UInt32
  vid : UInt16
  product : UInt16
  busnum : UInt16
  devnum : UInt16
  action : UInt8
  speed : UInt8
  portnum : UInt8
  resetResume : UInt8
  devpath : List UInt8
  comm : List UInt8
deriving DecidableEq, Repr

def lifecycleEvent : Decode LifecycleEvent :=
  LifecycleEvent.mk <$> usbtraceEventHdr <*> u32 <*> u16 <*> u16 <*> u16 <*> u16
    <*> u8 <*> u8 <*> u8 <*> u8 <*> bytes 16 <*> bytes usbtraceCommLen

/-- `struct hub_event` (hub.h:20-38). -/
structure HubEvent where
  hdr : UsbtraceEventHdr
  pid : UInt32
  ocCount : UInt32
  vid : UInt16
  product : UInt16
  busnum : UInt16
  devnum : UInt16
  action : UInt8
  speed : UInt8
  portnum : UInt8
  warm : UInt8
  devpath : List UInt8
  comm : List UInt8
deriving DecidableEq, Repr

def hubEvent : Decode HubEvent :=
  HubEvent.mk <$> usbtraceEventHdr <*> u32 <*> u32 <*> u16 <*> u16 <*> u16 <*> u16
    <*> u8 <*> u8 <*> u8 <*> u8 <*> bytes 16 <*> bytes usbtraceCommLen

/-- `struct class_urb_event` (class.h:37-56). -/
structure ClassUrbEvent where
  hdr : UsbtraceEventHdr
  status : Int32
  errorCount : Int32
  numberOfPackets : UInt32
  actualLength : UInt32
  startFrame : Int32
  pid : UInt32
  vid : UInt16
  product : UInt16
  busnum : UInt16
  devnum : UInt16
  klass : UInt8
  ep : UInt8
  dirIn : UInt8
  xferType : UInt8
  comm : List UInt8
deriving DecidableEq, Repr

def classUrbEvent : Decode ClassUrbEvent :=
  ClassUrbEvent.mk <$> usbtraceEventHdr <*> s32 <*> s32 <*> u32 <*> u32 <*> s32 <*> u32
    <*> u16 <*> u16 <*> u16 <*> u16 <*> u8 <*> u8 <*> u8 <*> u8 <*> bytes usbtraceCommLen

/-- `struct uvc_frame_event` (uvc.h:31-54). -/
structure UvcFrameEvent where
  hdr : UsbtraceEventHdr
  bytes : UInt32
  packets : UInt32
  errPackets : UInt32
  durationNs : UInt32
  intervalNs : UInt32
  pts : UInt32
  scrStc : UInt32
  scrSof : UInt16
  vid : UInt16
  product : UInt16
  busnum : UInt16
  devnum : UInt16
  ep : UInt8
  errored : UInt8
  eof : UInt8
  fid : UInt8
  comm : List UInt8
deriving DecidableEq, Repr

def uvcFrameEvent : Decode UvcFrameEvent :=
  UvcFrameEvent.mk <$> usbtraceEventHdr <*> u32 <*> u32 <*> u32 <*> u32 <*> u32 <*> u32 <*> u32
    <*> u16 <*> u16 <*> u16 <*> u16 <*> u16 <*> u8 <*> u8 <*> u8 <*> u8
    <*> bytes usbtraceCommLen

/-- `struct uvc_vb2_event` (uvc.h:74-97). -/
structure UvcVb2Event where
  hdr : UsbtraceEventHdr
  sequence : UInt32
  bytesused : UInt32
  vb2Timestamp : UInt64
  state : UInt8
  intervalNs : UInt32
  bufIndex : UInt8
  seqGap : UInt8
  vb2Op : UInt8
  starved : UInt8
  numBuffers : UInt16
  queued : UInt16
  drvOwned : UInt16
  wireToVb2Ns : UInt32
  vid : UInt16
  product : UInt16
  busnum : UInt16
  devnum : UInt16
  comm : List UInt8
deriving DecidableEq, Repr

def uvcVb2Event : Decode UvcVb2Event :=
  UvcVb2Event.mk <$> usbtraceEventHdr <*> u32 <*> u32 <*> u64 <*> u8 <*> u32
    <*> u8 <*> u8 <*> u8 <*> u8 <*> u16 <*> u16 <*> u16 <*> u32
    <*> u16 <*> u16 <*> u16 <*> u16 <*> bytes usbtraceCommLen

/-- A record of one of the kinds diag accepts. -/
inductive Record where
  | urb (e : UrbEvent)
  | enum (e : EnumEvent)
  | power (e : PowerRec)
  | lifecycle (e : LifecycleEvent)
  | hub (e : HubEvent)
  | classUrb (e : ClassUrbEvent)
  | uvcFrame (e : UvcFrameEvent)
  | uvcVb2 (e : UvcVb2Event)
deriving DecidableEq, Repr

/-! ## Normalization -/

/-- The setup packet's `wValue`, little-endian (diag.c:192-193). -/
def setupWvalue (setup : List UInt8) : UInt16 :=
  (setup.getD 2 0).toUInt16 ||| ((setup.getD 3 0).toUInt16 <<< 8)

/-- `case USBTRACE_EVT_URB`; the latency is narrowed to the 32 bits of the normalized
field. -/
def normalizeUrb (out : DiagEvent) (e : UrbEvent) : DiagEvent :=
  { out with
    vid := e.vid, pid := e.product, busnum := e.busnum, devnum := e.devnum
    status := e.status
    latencyNs := e.latencyNs.toUInt32
    actual := e.actual
    length := e.length
    xferType := e.xferType
    dirIn := e.dirIn
    ep := e.ep
    isSubmit := e.isSubmit
    hasSetup := e.hasSetup
    brequest := if e.hasSetup ≠ 0 then e.setup.getD 1 0 else out.brequest
    wvalue := if e.hasSetup ≠ 0 then setupWvalue e.setup else out.wvalue
    comm := e.comm }

/-- `case USBTRACE_EVT_ENUM`. -/
def normalizeEnum (out : DiagEvent) (e : EnumEvent) : DiagEvent :=
  { out with
    vid := e.vid, pid := e.product, busnum := e.busnum, devnum := e.devnum
    speed := e.speed, portnum := e.portnum
    oldState := e.oldState
    newState := e.newState
    step := e.step
    status := e.status
    devpath := e.devpath, comm := e.comm }

/-- `case USBTRACE_EVT_POWER`. -/
def normalizePower (out : DiagEvent) (e : PowerRec) : DiagEvent :=
  { out with
    vid := e.vid, pid := e.product, busnum := e.busnum, devnum := e.devnum
    speed := e.speed, portnum := e.portnum
    action := e.action
    devpath := e.devpath, comm := e.comm }

/-- `case USBTRACE_EVT_LIFECYCLE`. -/
def normalizeLifecycle (out : DiagEvent) (e : LifecycleEvent) : DiagEvent :=
  { out with
    vid := e.vid, pid := e.product, busnum := e.busnum, devnum := e.devnum
    speed := e.speed, portnum := e.portnum
    action := e.action
    resetResume := e.resetResume
    devpath := e.devpath, comm := e.comm }

/-- `case USBTRACE_EVT_HUB`. -/
def normalizeHub (out : DiagEvent) (e : HubEvent) : DiagEvent :=
  { out with
    vid := e.vid, pid := e.product, busnum := e.busnum, devnum := e.devnum
    speed := e.speed, portnum := e.portnum
    action := e.action
    devpath := e.devpath, comm := e.comm }

/-- `case USBTRACE_EVT_CLASS`: one case for all class modules. -/
def normalizeClass (out : DiagEvent) (e : ClassUrbEvent) : DiagEvent :=
  { out with
    vid := e.vid, pid := e.product, busnum := e.busnum, devnum := e.devnum
    status := e.status
    errorCount := e.errorCount
    actual := e.actualLength
    length := e.actualLength
    xferType := e.xferType
    dirIn := e.dirIn
    ep := e.ep
    cls := e.klass
    isSubmit := 0  -- class events are completions
    comm := e.comm }

/-- `case USBTRACE_EVT_UVC_FRAME`. -/
def normalizeUvcFrame (out : DiagEvent) (e : UvcFrameEvent) : DiagEvent :=
  { out with
    vid := e.vid, pid := e.product, busnum := e.busnum, devnum := e.devnum
    ep := e.ep
    cls := usbtraceClassVideo
    actual := e.bytes
    frameBytes := e.bytes
    frameIntervalNs := e.intervalNs
    frameErrored := e.errored
    comm := e.comm }

/-- `case USBTRACE_EVT_UVC_VB2`. -/
def normalizeUvcVb2 (out : DiagEvent) (e : UvcVb2Event) : DiagEvent :=
  { out with
    vid := e.vid, pid := e.product, busnum := e.busnum, devnum := e.devnum
    cls := usbtraceClassVideo
    actual := e.bytesused
    vb2Sequence := e.sequence
    vb2Bytesused := e.bytesused
    vb2IntervalNs := e.intervalNs
    vb2SeqGap := e.seqGap
    wireToVb2Ns := e.wireToVb2Ns
    vb2Op := e.vb2Op
    vb2Starved := e.starved
    vb2NumBuffers := e.numBuffers
    vb2Queued := e.queued
    vb2DrvOwned := e.drvOwned
    comm := e.comm }

/-- `normalize` (diag.c:163-340): the event a record stands for; a record too short for
its kind, or of another kind, is rejected. -/
def normalize (data : List UInt8) : Option DiagEvent :=
  match usbtraceEventHdr.view data with
  | none => none
  | some h =>
    let out : DiagEvent := { kind := h.kind, tsNs := h.tsNs }
    if h.kind = evtUrb then (urbEvent.view data).map (normalizeUrb out)
    else if h.kind = evtEnum then (enumEvent.view data).map (normalizeEnum out)
    else if h.kind = evtPower then (powerRec.view data).map (normalizePower out)
    else if h.kind = evtLifecycle then (lifecycleEvent.view data).map (normalizeLifecycle out)
    else if h.kind = evtHub then (hubEvent.view data).map (normalizeHub out)
    else if h.kind = evtClass then (classUrbEvent.view data).map (normalizeClass out)
    else if h.kind = evtUvcFrame then (uvcFrameEvent.view data).map (normalizeUvcFrame out)
    else if h.kind = evtUvcVb2 then (uvcVb2Event.view data).map (normalizeUvcVb2 out)
    else none

/-- The header every record begins with. -/
def Record.hdr : Record → UsbtraceEventHdr
  | .urb e => e.hdr
  | .enum e => e.hdr
  | .power e => e.hdr
  | .lifecycle e => e.hdr
  | .hub e => e.hdr
  | .classUrb e => e.hdr
  | .uvcFrame e => e.hdr
  | .uvcVb2 e => e.hdr

/-- The event a record is normalized to. -/
def Record.event (rec : Record) : DiagEvent :=
  let out : DiagEvent := { kind := rec.hdr.kind, tsNs := rec.hdr.tsNs }
  match rec with
  | .urb e => normalizeUrb out e
  | .enum e => normalizeEnum out e
  | .power e => normalizePower out e
  | .lifecycle e => normalizeLifecycle out e
  | .hub e => normalizeHub out e
  | .classUrb e => normalizeClass out e
  | .uvcFrame e => normalizeUvcFrame out e
  | .uvcVb2 e => normalizeUvcVb2 out e

end UsbTrace.Model

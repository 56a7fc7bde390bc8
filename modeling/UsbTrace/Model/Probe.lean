import UsbTrace.Model.Records
import UsbTrace.Library.BoundedMap

/-!
# The probes and their device filter

What the BPF programs of the urb, enum, lifecycle, power, hub and class modules do when a
hook fires, up to the record they put into their `events` map.  A probe reads the
descriptor ids of the device at the moment the hook fires.
-/

set_option autoImplicit false

namespace UsbTrace.Model

open UsbTrace.Library

/-- `enum usbtrace_xfer_type` (common.h:14-19), the control type. -/
def usbtraceXferControl : UInt8 := 2

/-- What the probes read of a `struct usb_device`. -/
structure UsbDevice where
  idVendor : UInt16 := 0
  idProduct : UInt16 := 0
  busnum : UInt32 := 0
  devnum : UInt32 := 0
  speed : UInt32 := 0
  portnum : UInt8 := 0
  devpath : List UInt8 := []
deriving DecidableEq, Repr

/-- The key diag files a device under. -/
def UsbDevice.key (dev : UsbDevice) : DiagDevkey := ⟨dev.busnum.toUInt16, dev.devnum.toUInt16⟩

/-- What `bpf_probe_read_kernel_str` and `bpf_get_current_comm` leave in a zeroed array of `n`
bytes: the string up to its NUL, cut so that a NUL fits behind it. -/
def readStr (n : ℕ) (str : List UInt8) : List UInt8 :=
  let read := (str.takeWhile fun b => b ≠ 0).take (n - 1)
  read ++ List.replicate (n - read.length) 0

/-- The task a hook fires in: `bpf_get_current_pid_tgid() >> 32` and its comm. -/
structure Task where
  tgid : UInt32 := 0
  comm : List UInt8 := []
deriving DecidableEq, Repr

/-- What the probes read of a `struct vb2_queue`. -/
structure Vb2Pool where
  numBuffers : UInt32 := 0
  queuedCount : UInt32 := 0
  ownedByDrvCount : Int32 := 0
deriving DecidableEq, Repr

/-- What a hook reads next to its arguments: `bpf_ktime_get_ns()`, the current task, and
the vb2 queues in memory, by address. -/
structure HookCtx where
  now : UInt64 := 0
  task : Task := {}
  pools : List (UInt64 × Vb2Pool) := []
deriving DecidableEq, Repr

/-- The queue at an address; a failed read leaves zeros. -/
def HookCtx.pool (ctx : HookCtx) (q : UInt64) : Vb2Pool :=
  ((ctx.pools.find? fun p => p.1 = q).map Prod.snd).getD {}

/-- The filter every module's config carries; 0 means any. -/
structure FilterConfig where
  filterVid : UInt16 := 0
  filterPid : UInt16 := 0
deriving DecidableEq, Repr

/-- `usbtrace_dev_match` (filter.bpf.h:17-31): the ids of a device that passes. -/
def usbtraceDevMatch (dev : UsbDevice) (fvid fpid : UInt16) : Option (UInt16 × UInt16) :=
  if fvid ≠ 0 ∧ dev.idVendor ≠ fvid then none
  else if fpid ≠ 0 ∧ dev.idProduct ≠ fpid then none
  else some (dev.idVendor, dev.idProduct)

/-! ## Records of the device-scoped probes -/

/-- The header of a record of `size` bytes. -/
def eventHdr (kind : EventKind) (size : ℕ) (now : UInt64) : UsbtraceEventHdr :=
  { kind := kind, size := UInt32.ofNat size, tsNs := now }

/-- `emit_enum` (enum.bpf.c:50-83). -/
def emitEnum (cfg : FilterConfig) (udev : UsbDevice) (oldState newState step : UInt8)
    (status : Int32) (now : UInt64) (task : Task) : Option EnumEvent :=
  (usbtraceDevMatch udev cfg.filterVid cfg.filterPid).map fun (vid, pid) =>
    { hdr := eventHdr evtEnum enumEvent.sizeof now
      pid := task.tgid
      vid := vid
      product := pid
      busnum := udev.busnum.toUInt16
      devnum := udev.devnum.toUInt16
      oldState := oldState
      newState := newState
      speed := udev.speed.toUInt8
      portnum := udev.portnum
      devpath := readStr 16 udev.devpath
      comm := readStr usbtraceCommLen task.comm
      status := status
      step := step
      pad := [0, 0, 0] }

/-- `LIFECYCLE_CONNECT`, `LIFECYCLE_RESET` (lifecycle.h). -/
def lifecycleConnect : UInt8 := 0
def lifecycleReset : UInt8 := 2

/-- `emit` of the lifecycle module (lifecycle.bpf.c:37-70). -/
def lifecycleEmit (cfg : FilterConfig) (dev : UsbDevice) (action resetResume : UInt8)
    (now : UInt64) (task : Task) : Option LifecycleEvent :=
  (usbtraceDevMatch dev cfg.filterVid cfg.filterPid).map fun (vid, pid) =>
    { hdr := eventHdr evtLifecycle lifecycleEvent.sizeof now
      pid := task.tgid
      vid := vid
      product := pid
      busnum := dev.busnum.toUInt16
      devnum := dev.devnum.toUInt16
      action := action
      speed := dev.speed.toUInt8
      portnum := dev.portnum
      resetResume := if action = lifecycleReset then resetResume else 0
      devpath := readStr 16 dev.devpath
      comm := readStr usbtraceCommLen task.comm }

/-- `emit` of the power module (power.bpf.c:34-62). -/
def powerEmit (cfg : FilterConfig) (dev : UsbDevice) (action : UInt8) (now : UInt64)
    (task : Task) : Option PowerRec :=
  (usbtraceDevMatch dev cfg.filterVid cfg.filterPid).map fun (vid, pid) =>
    { hdr := eventHdr evtPower powerRec.sizeof now
      pid := task.tgid
      vid := vid
      product := pid
      busnum := dev.busnum.toUInt16
      devnum := dev.devnum.toUInt16
      action := action
      speed := dev.speed.toUInt8
      portnum := dev.portnum
      pad := 0
      devpath := readStr 16 dev.devpath
      comm := readStr usbtraceCommLen task.comm }

/-- `emit_dev` (hub.bpf.c:45-77), given the device the hook chose for the port. -/
def hubEmitDev (cfg : FilterConfig) (dev : UsbDevice) (port1 : Int32) (action warm : UInt8)
    (ocCount : UInt32) (now : UInt64) (task : Task) : Option HubEvent :=
  (usbtraceDevMatch dev cfg.filterVid cfg.filterPid).map fun (vid, pid) =>
    { hdr := eventHdr evtHub hubEvent.sizeof now
      pid := task.tgid
      ocCount := ocCount
      vid := vid
      product := pid
      busnum := dev.busnum.toUInt16
      devnum := dev.devnum.toUInt16
      action := action
      speed := dev.speed.toUInt8
      portnum := if port1 > 0 then port1.toInt8.toUInt8 else dev.portnum
      warm := warm
      devpath := readStr 16 dev.devpath
      comm := readStr usbtraceCommLen task.comm }

/-! ## URBs -/

/-- A `struct usb_iso_packet_descriptor`; `payload` is what can be read of the transfer
buffer from the packet's offset on. -/
structure IsoPacket where
  offset : UInt32 := 0
  actualLength : UInt32 := 0
  status : Int32 := 0
  payload : List UInt8 := []
deriving DecidableEq, Repr

/-- What the probes read of a `struct urb`; `setup` is its setup packet, where there is a
readable one, and a descriptor that cannot be read is `none`. -/
structure Urb where
  ptr : UInt64 := 0
  pipe : UInt32 := 0
  transferBuffer : UInt64 := 0
  transferBufferLength : UInt32 := 0
  actualLength : UInt32 := 0
  setup : Option (List UInt8) := none
  status : Int32 := 0
  errorCount : Int32 := 0
  numberOfPackets : Int32 := 0
  startFrame : Int32 := 0
  isoFrameDesc : List (Option IsoPacket) := []
deriving DecidableEq, Repr

/-- `pipe_endpoint`, `pipe_is_in`, `pipe_type` (urb.bpf.c:35-46). -/
def pipeEndpoint (pipe : UInt32) : UInt8 := ((pipe >>> 15) &&& 0xf).toUInt8
def pipeIsIn (pipe : UInt32) : UInt8 := if pipe &&& 0x80 ≠ 0 then 1 else 0
def pipeType (pipe : UInt32) : UInt8 := ((pipe >>> 30) &&& 0x3).toUInt8

/-- `usbtrace_class_urb_emit` (class_urb.bpf.h:36-76). -/
def usbtraceClassUrbEmit (cfg : FilterConfig) (dev : UsbDevice) (urb : Urb) (klass : UInt8)
    (now : UInt64) (task : Task) : Option ClassUrbEvent :=
  (usbtraceDevMatch dev cfg.filterVid cfg.filterPid).map fun (vid, pid) =>
    { hdr := eventHdr evtClass classUrbEvent.sizeof now
      status := urb.status
      errorCount := urb.errorCount
      numberOfPackets := urb.numberOfPackets.toUInt32
      actualLength := urb.actualLength
      startFrame := urb.startFrame
      pid := task.tgid
      vid := vid
      product := pid
      busnum := dev.busnum.toUInt16
      devnum := dev.devnum.toUInt16
      klass := klass
      ep := pipeEndpoint urb.pipe
      dirIn := pipeIsIn urb.pipe
      xferType := pipeType urb.pipe
      comm := readStr usbtraceCommLen task.comm }

/-- `struct urb_config` (urb.h:40-46). -/
structure UrbConfig extends FilterConfig where
  emitSubmit : Bool := false
  ctrlOnly : Bool := false
deriving DecidableEq, Repr

/-- The `start_ts` map: submit times by URB pointer (urb.bpf.c:48-53). -/
abbrev StartTs := BoundedMap UInt64 UInt64 16384

/-- `urb_is_control` (urb.bpf.c:64-67). -/
def urbIsControl (urb : Urb) : Bool := pipeType urb.pipe = usbtraceXferControl

/-- `fill_common` with `fill_setup` (urb.bpf.c:69-100), on a record with the given header
and completion members. -/
def fillCommon (hdr : UsbtraceEventHdr) (isSubmit : UInt8) (latencyNs : UInt64)
    (actual : UInt32) (status : Int32) (dev : UsbDevice) (urb : Urb) (vid pid : UInt16)
    (task : Task) : UrbEvent :=
  let setup := if urbIsControl urb then urb.setup else none
  { hdr := hdr
    latencyNs := latencyNs
    pid := task.tgid
    length := urb.transferBufferLength
    actual := actual
    status := status
    vid := vid
    product := pid
    busnum := dev.busnum.toUInt16
    devnum := dev.devnum.toUInt16
    ep := pipeEndpoint urb.pipe
    dirIn := pipeIsIn urb.pipe
    xferType := pipeType urb.pipe
    isSubmit := isSubmit
    comm := readStr usbtraceCommLen task.comm
    hasSetup := if setup.isSome then 1 else 0
    setup := setup.getD (List.replicate 8 0) }

/-- `on_submit` (urb.bpf.c:101-130). -/
def onSubmit (cfg : UrbConfig) (startTs : StartTs) (dev : UsbDevice) (urb : Urb) (ts : UInt64)
    (task : Task) : StartTs × Option UrbEvent :=
  if cfg.ctrlOnly ∧ !urbIsControl urb then (startTs, none)
  else match usbtraceDevMatch dev cfg.filterVid cfg.filterPid with
    | none => (startTs, none)
    | some (vid, pid) =>
      let startTs := startTs.update urb.ptr ts
      if !cfg.emitSubmit then (startTs, none)
      else (startTs, some
        (fillCommon (eventHdr evtUrb urbEvent.sizeof ts) 1 0 0 0 dev urb vid pid task))

/-- `on_giveback` (urb.bpf.c:144-189). -/
def onGiveback (cfg : UrbConfig) (startTs : StartTs) (dev : UsbDevice) (urb : Urb)
    (status : Int32) (now : UInt64) (task : Task) : StartTs × Option UrbEvent :=
  if cfg.ctrlOnly ∧ !urbIsControl urb then (startTs.delete urb.ptr, none)
  else match usbtraceDevMatch dev cfg.filterVid cfg.filterPid with
    | none => (startTs.delete urb.ptr, none)
    | some (vid, pid) =>
      let latencyNs := match startTs.lookup urb.ptr with
        | some ts => now - ts
        | none => 0
      (startTs.delete urb.ptr, some
        (fillCommon (eventHdr evtUrb urbEvent.sizeof now) 0 latencyNs urb.actualLength status
          dev urb vid pid task))

/-- A hook of the urb module fires.  `ret` is what `usb_submit_urb` goes on to return: the
probe is at its entry and does not see it. -/
inductive UrbOp where
  | submit (ctx : HookCtx) (dev : UsbDevice) (urb : Urb) (ret : Int32)
  | giveback (ctx : HookCtx) (dev : UsbDevice) (urb : Urb) (status : Int32)
deriving DecidableEq, Repr

/-- The urb program at a hook. -/
def urbStep (cfg : UrbConfig) (startTs : StartTs) : UrbOp → StartTs × List UrbEvent
  | .submit ctx dev urb _ =>
    let (startTs, e) := onSubmit cfg startTs dev urb ctx.now ctx.task
    (startTs, e.toList)
  | .giveback ctx dev urb status =>
    let (startTs, e) := onGiveback cfg startTs dev urb status ctx.now ctx.task
    (startTs, e.toList)

end UsbTrace.Model

import UsbTrace.Model.Session

/-!
# Entry and exit probes

The probe pairs of the enum and lifecycle modules.  The probe at the entry of a function
keeps the device it is called with under the thread; the one at its exit takes the device
out again and reports it with the return value (enum.bpf.c:85-170, lifecycle.bpf.c:72-100).
-/

set_option autoImplicit false

namespace UsbTrace.Model

open UsbTrace.Library

/-- `enum enum_step` (enum.h:14-19), past `ENUM_STEP_STATE`. -/
def enumStepGetDesc : UInt8 := 1
def enumStepSetAddr : UInt8 := 2
def enumStepSetConfig : UInt8 := 3

/-- A map from threads to the device they entered a function with. -/
abbrev PendingMap := BoundedMap UInt64 UInt64 64

/-- What a probe reads of the device at an address: the record's fields, and its state. -/
structure DeviceMemory where
  dev : UsbDevice := {}
  state : UInt8 := 0
deriving DecidableEq, Repr

/-- What an entry or exit probe reads next to its arguments: the clock,
`bpf_get_current_pid_tgid()` and the comm of the thread, and the devices in memory. -/
structure ThreadCtx where
  now : UInt64 := 0
  id : UInt64
  comm : List UInt8 := []
  devices : List (UInt64 × DeviceMemory) := []
deriving DecidableEq, Repr

/-- The task of the thread. -/
def ThreadCtx.task (ctx : ThreadCtx) : Task :=
  { tgid := (ctx.id >>> 32).toUInt32, comm := ctx.comm }

/-- The device at an address; a failed read leaves zeros. -/
def ThreadCtx.device (ctx : ThreadCtx) (udev : UInt64) : DeviceMemory :=
  ((ctx.devices.find? fun d => d.1 = udev).map Prod.snd).getD {}

/-- `usbtrace_kret_int` (pt_regs.bpf.h:103-106). -/
def usbtraceKretInt (rc : UInt64) : Int32 := rc.toUInt32.toInt32

/-- `usbtrace_kret_ptr_or_int` (pt_regs.bpf.h:114-123). -/
def usbtraceKretPtrOrInt (rc : UInt64) : Int32 :=
  if rc ≥ 0 - 4095 then rc.toUInt32.toInt32
  else if rc < 4096 then rc.toUInt32.toInt32
  else 0

/-- `stash` (enum.bpf.c:85-94), and `on_new_device` (lifecycle.bpf.c:72-82). -/
def stash (map : PendingMap) (id udev : UInt64) : PendingMap :=
  if udev = 0 then map else map.update id udev

/-- `pop_emit` (enum.bpf.c:96-118). -/
def popEmit (cfg : FilterConfig) (map : PendingMap) (ctx : ThreadCtx) (step : UInt8)
    (rc : UInt64) : PendingMap × Option EnumEvent :=
  let ret := if step = enumStepGetDesc then usbtraceKretPtrOrInt rc else usbtraceKretInt rc
  match map.lookup ctx.id with
  | none => (map, none)
  | some udev =>
    let map := map.delete ctx.id
    if udev = 0 then (map, none)
    else
      let d := ctx.device udev
      (map, emitEnum cfg d.dev d.state d.state step ret ctx.now ctx.task)

/-- `on_new_device_exit` (lifecycle.bpf.c:84-100). -/
def onNewDeviceExit (cfg : FilterConfig) (map : PendingMap) (ctx : ThreadCtx) (rc : UInt64) :
    PendingMap × Option LifecycleEvent :=
  let ret := usbtraceKretInt rc
  match map.lookup ctx.id with
  | none => (map, none)
  | some udev =>
    let map := map.delete ctx.id
    if ret < 0 ∨ udev = 0 then (map, none)
    else (map, lifecycleEmit cfg (ctx.device udev).dev lifecycleConnect 0 ctx.now ctx.task)

/-- The functions with a probe at entry and exit. -/
inductive ProbedFn where
  | getDesc | setAddr | setConfig | newDevice
deriving DecidableEq, Repr

/-- The maps of the probe pairs: `desc_pending`, `addr_pending`, `config_pending` and
`new_dev_pending`. -/
structure PendingMaps where
  descPending : PendingMap
  addrPending : PendingMap
  configPending : PendingMap
  newDevPending : PendingMap

def PendingMaps.empty : PendingMaps :=
  ⟨BoundedMap.empty, BoundedMap.empty, BoundedMap.empty, BoundedMap.empty⟩

/-- What happens at a probed function: a thread enters it, leaves it, or leaves it while the
exit probe is missed. -/
inductive PendingOp where
  | enter (fn : ProbedFn) (ctx : ThreadCtx) (udev : UInt64)
  | exit (fn : ProbedFn) (ctx : ThreadCtx) (rc : UInt64)
  | missedExit (fn : ProbedFn) (id : UInt64)
deriving DecidableEq, Repr

/-- The entry probe of a function. -/
def onEnter (m : PendingMaps) (ctx : ThreadCtx) (udev : UInt64) : ProbedFn → PendingMaps
  | .getDesc => { m with descPending := stash m.descPending ctx.id udev }
  | .setAddr => { m with addrPending := stash m.addrPending ctx.id udev }
  | .setConfig => { m with configPending := stash m.configPending ctx.id udev }
  | .newDevice => { m with newDevPending := stash m.newDevPending ctx.id udev }

/-- The exit probe of a function. -/
def onExit (cfg : FilterConfig) (m : PendingMaps) (ctx : ThreadCtx) (rc : UInt64) :
    ProbedFn → PendingMaps × List Record
  | .getDesc =>
    let (map, e) := popEmit cfg m.descPending ctx enumStepGetDesc rc
    ({ m with descPending := map }, (e.map .enum).toList)
  | .setAddr =>
    let (map, e) := popEmit cfg m.addrPending ctx enumStepSetAddr rc
    ({ m with addrPending := map }, (e.map .enum).toList)
  | .setConfig =>
    let (map, e) := popEmit cfg m.configPending ctx enumStepSetConfig rc
    ({ m with configPending := map }, (e.map .enum).toList)
  | .newDevice =>
    let (map, e) := onNewDeviceExit cfg m.newDevPending ctx rc
    ({ m with newDevPending := map }, (e.map .lifecycle).toList)

/-- The probe pairs at work. -/
def pendingStep (cfg : FilterConfig) (m : PendingMaps) : PendingOp → PendingMaps × List Record
  | .enter fn ctx udev => (onEnter m ctx udev fn, [])
  | .exit fn ctx rc => onExit cfg m ctx rc fn
  | .missedExit _ _ => (m, [])

end UsbTrace.Model

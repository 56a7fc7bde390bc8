import UsbTrace.Model.Session

/-!
# The hub probes

The four port hooks of the hub module and how each finds the device of its port, by its
argument, by the hub's array of ports or by the port (hub.bpf.c:30-148).  A pointer is
`none`, or what it points to.
-/

set_option autoImplicit false

namespace UsbTrace.Model

/-- `enum hub_action` (hub.h:11-17). -/
def actionReset : UInt8 := 0
def actionDisable : UInt8 := 1
def actionPowerOff : UInt8 := 2
def actionPowerOn : UInt8 := 3
def actionOvercurrent : UInt8 := 4

/-- What the probes read of a `struct usb_port`. -/
structure UsbPort where
  portnum : UInt8
  overCurrentCount : UInt32
  child : Option UsbDevice
deriving DecidableEq, Repr

/-- What the probes read of a `struct usb_hub`. -/
structure UsbHub where
  hdev : Option UsbDevice
  ports : Option (List (Option UsbPort))
deriving DecidableEq, Repr

/-- `usbtrace_kptr_idx` (pt_regs.bpf.h:129-134). -/
def usbtraceKptrIdx (arr : Option (List (Option UsbPort))) (idx : Int32) : Option UsbPort :=
  if idx < 0 ∨ idx > 15 then none
  else arr.bind fun ports => ports[idx.toNatClampNeg]?.join

/-- `hub_child` (hub.bpf.c:30-43). -/
def hubChild (hub : Option UsbHub) (port1 : Int32) : Option UsbDevice :=
  if port1 < 1 ∨ port1 > 16 then none
  else hub.bind fun hub => (usbtraceKptrIdx hub.ports (port1 - 1)).bind fun port => port.child

/-- The arguments of the hooked functions. -/
inductive HubCall where
  | portReset (hub : Option UsbHub) (port1 : Int32) (udev : Option UsbDevice)
  | portDisable (hub : Option UsbHub) (port1 : Int32)
  | setPortPower (hdev : Option UsbDevice) (hub : Option UsbHub) (port1 set : Int32)
  | overCurrent (port : Option UsbPort)
deriving DecidableEq, Repr

/-- `emit_dev` (hub.bpf.c:45-77). -/
def emitDev (cfg : FilterConfig) (dev : Option UsbDevice) (port1 : Int32) (action warm : UInt8)
    (ocCount : UInt32) (now : UInt64) (task : Task) : Option HubEvent :=
  dev.bind fun dev => hubEmitDev cfg dev port1 action warm ocCount now task

/-- `emit_hub_port` (hub.bpf.c:79-92). -/
def emitHubPort (cfg : FilterConfig) (hub : Option UsbHub) (port1 : Int32)
    (udev : Option UsbDevice) (action warm : UInt8) (ocCount : UInt32) (now : UInt64)
    (task : Task) : Option HubEvent :=
  let dev := udev.or (hubChild hub port1)
  let dev := dev.or (hub.bind UsbHub.hdev)
  emitDev cfg dev port1 action warm ocCount now task

/-- `on_port_reset`, `on_port_disable`, `on_set_port_power` and `on_overcurrent`
(hub.bpf.c:94-148). -/
def hubStep (cfg : FilterConfig) (now : UInt64) (task : Task) : HubCall → Option HubEvent
  | .portReset hub port1 udev => emitHubPort cfg hub port1 udev actionReset 0 0 now task
  | .portDisable hub port1 => emitHubPort cfg hub port1 none actionDisable 0 0 now task
  | .setPortPower hdev hub port1 set =>
    let action := if set ≠ 0 then actionPowerOn else actionPowerOff
    emitDev cfg ((hubChild hub port1).or hdev) port1 action 0 0 now task
  | .overCurrent port =>
    port.bind fun port =>
      port.child.bind fun child =>
        emitDev cfg child port.portnum.toUInt32.toInt32 actionOvercurrent 0
          port.overCurrentCount now task

end UsbTrace.Model

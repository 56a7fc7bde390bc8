import UsbTrace.Model.Printf
import UsbTrace.Model.Records

/-!
# The lines of the event modules

What urb, enum, hub, power, lifecycle and the class modules print for a record in JSON mode.  A
text of a record is a C string, and is read where it stands in memory.
-/

set_option autoImplicit false

namespace UsbTrace.Model

open UsbTrace.Library

/-! ## Labels -/

/-- `xfer_str` (urb.c:28-42, class_stream.c:13-22). -/
def xferStr : UInt8 → CStr :=
  label ["ISOC".toList, "INT".toList, "CTRL".toList, "BULK".toList] "?".toList

/-- `usbtrace_class_str` (class_stream.c:24-33). -/
def usbtraceClassStr : UInt8 → CStr :=
  label ["video".toList, "audio".toList, "hid".toList, "storage".toList] "class".toList

/-- `usbtrace_speed_str` (usbtrace_cli.c:53-64). -/
def usbtraceSpeedStr : UInt8 → CStr :=
  label ["?".toList, "low".toList, "full".toList, "high".toList, "wireless".toList,
    "super".toList, "super+".toList] "?".toList

/-- `state_str` (enum.c:20-34). -/
def stateStr : UInt8 → CStr :=
  label ["NOTATTACHED".toList, "ATTACHED".toList, "POWERED".toList, "RECONNECTING".toList,
    "UNAUTHED".toList, "DEFAULT".toList, "ADDRESS".toList, "CONFIGURED".toList,
    "SUSPENDED".toList] "?".toList

/-- `step_str` (enum.c:36-44). -/
def stepStr : UInt8 → CStr :=
  label ["STATE".toList, "GET_DESCRIPTOR".toList, "SET_ADDRESS".toList,
    "SET_CONFIGURATION".toList] "STATE".toList

/-- `action_str` (hub.c:18-28). -/
def hubActionStr : UInt8 → CStr :=
  label ["RESET".toList, "DISABLE".toList, "POWER_OFF".toList, "POWER_ON".toList,
    "OVERCURRENT".toList] "?".toList

/-- `action_str` (power.c:19-33). -/
def powerActionName : UInt8 → CStr :=
  label ["AUTOSUSPEND".toList, "AUTORESUME".toList, "PORT_SUSPEND".toList,
    "PORT_RESUME".toList] "?".toList

/-- `action_str` (lifecycle.c:19-31). -/
def lifecycleActionStr : UInt8 → CStr :=
  label ["CONNECT".toList, "DISCONNECT".toList, "RESET".toList] "?".toList

/-! ## Texts -/

/-- The text at an offset, as C reads it: up to its NUL, past the end of its array where that
has none. -/
def textAt (data : List UInt8) (off : ℕ) : List UInt8 := (data.drop off).takeWhile fun b => b ≠ 0

/-- A record with its texts as they are read from the memory it lies in. -/
def UrbEvent.readTexts (data : List UInt8) (e : UrbEvent) : UrbEvent :=
  { e with comm := textAt data 52 }

def EnumEvent.readTexts (data : List UInt8) (e : EnumEvent) : EnumEvent :=
  { e with devpath := textAt data 32, comm := textAt data 48 }

def HubEvent.readTexts (data : List UInt8) (e : HubEvent) : HubEvent :=
  { e with devpath := textAt data 36, comm := textAt data 52 }

def PowerRec.readTexts (data : List UInt8) (e : PowerRec) : PowerRec :=
  { e with devpath := textAt data 32, comm := textAt data 48 }

def LifecycleEvent.readTexts (data : List UInt8) (e : LifecycleEvent) : LifecycleEvent :=
  { e with devpath := textAt data 32, comm := textAt data 48 }

def ClassUrbEvent.readTexts (data : List UInt8) (e : ClassUrbEvent) : ClassUrbEvent :=
  { e with comm := textAt data 52 }

def UvcFrameEvent.readTexts (data : List UInt8) (e : UvcFrameEvent) : UvcFrameEvent :=
  { e with comm := textAt data 58 }

def UvcVb2Event.readTexts (data : List UInt8) (e : UvcVb2Event) : UvcVb2Event :=
  { e with comm := textAt data 64 }

/-- A `comm`, escaped into `char comm[2 * USBTRACE_COMM_LEN + 1]`. -/
def commJson (comm : List UInt8) : PrintfArg :=
  .str (usbtraceJsonEscape (commStr comm) (2 * usbtraceCommLen + 1))

/-- A `devpath`, escaped into `char path[2 * sizeof(e->devpath) + 1]`. -/
def pathJson (devpath : List UInt8) : PrintfArg :=
  .str (usbtraceJsonEscape (commStr devpath) (2 * 16 + 1))

/-! ## Lines -/

/-- The setup packet of a urb record. -/
def UrbEvent.packet (e : UrbEvent) : SetupPacket := fun i => e.setup.getD i.val 0

/-- What `print_json` adds for a setup packet (urb.c:308-317). -/
def printSetup (e : UrbEvent) : CStr :=
  let s := e.packet
  let req := formatSetup s reqSize
  printf (",\"bmRequestType\":\"0x%02x\",\"bRequest\":%u," ++
      "\"wValue\":%u,\"wIndex\":%u,\"wLength\":%u," ++
      "\"request\":\"%s\"")
    [.num (setupRequestType s).toNat, .num (setupRequest s).toNat, .num (setupValue s).toNat,
      .num (setupIndex s).toNat, .num (setupLength s).toNat,
      .str (usbtraceJsonEscape req (2 * reqSize + 1))]

/-- `print_json` (urb.c:291-319). -/
def urbPrintJson (e : UrbEvent) : CStr :=
  printf ("\x7b\"event\":\"%s\",\"type\":\"%s\",\"ep\":%u,\"dir\":\"%s\"," ++
      "\"actual\":%u,\"length\":%u,\"status\":%d,\"latency_us\":%.1f," ++
      "\"vid\":\"0x%04x\",\"pid\":\"0x%04x\",\"bus\":%u,\"dev\":%u," ++
      "\"comm\":\"%s\"")
    [.str (if e.isSubmit ≠ 0 then "submit".toList else "complete".toList),
      .str (xferStr e.xferType), .num e.ep.toNat,
      .str (if e.dirIn ≠ 0 then "in".toList else "out".toList), .num e.actual.toNat,
      .num e.length.toNat, .int e.status.toInt,
      .dbl (toDouble (toDouble e.latencyNs.toNat / 1000)), .num e.vid.toNat, .num e.product.toNat,
      .num e.busnum.toNat, .num e.devnum.toNat, commJson e.comm] ++
  (if e.hasSetup ≠ 0 then printSetup e else []) ++
  printf "\x7d\n" []

/-- The line of an enum record (enum.c:75-89). -/
def enumPrintJson (e : EnumEvent) : CStr :=
  printf ("\x7b\"event\":\"enum\",\"step\":\"%s\",\"from\":\"%s\"," ++
      "\"to\":\"%s\",\"status\":%d," ++
      "\"speed\":\"%s\",\"vid\":\"0x%04x\",\"pid\":\"0x%04x\"," ++
      "\"bus\":%u,\"dev\":%u,\"port\":%u,\"path\":\"%s\"," ++
      "\"comm\":\"%s\"\x7d\n")
    [.str (stepStr e.step), .str (stateStr e.oldState), .str (stateStr e.newState),
      .int e.status.toInt, .str (usbtraceSpeedStr e.speed), .num e.vid.toNat, .num e.product.toNat,
      .num e.busnum.toNat, .num e.devnum.toNat, .num e.portnum.toNat, pathJson e.devpath,
      commJson e.comm]

/-- The line of a hub record (hub.c:59-73). -/
def hubPrintJson (e : HubEvent) : CStr :=
  printf ("\x7b\"event\":\"hub\",\"action\":\"%s\"," ++
      "\"speed\":\"%s\",\"vid\":\"0x%04x\",\"pid\":\"0x%04x\"," ++
      "\"bus\":%u,\"dev\":%u,\"port\":%u,\"oc_count\":%u," ++
      "\"warm\":%u,\"path\":\"%s\",\"comm\":\"%s\"\x7d\n")
    [.str (hubActionStr e.action), .str (usbtraceSpeedStr e.speed), .num e.vid.toNat,
      .num e.product.toNat, .num e.busnum.toNat, .num e.devnum.toNat, .num e.portnum.toNat,
      .num e.ocCount.toNat, .num e.warm.toNat, pathJson e.devpath, commJson e.comm]

/-- The line of a power record (power.c:67-78). -/
def powerPrintJson (e : PowerRec) : CStr :=
  printf ("\x7b\"event\":\"power\",\"action\":\"%s\"," ++
      "\"speed\":\"%s\",\"vid\":\"0x%04x\",\"pid\":\"0x%04x\"," ++
      "\"bus\":%u,\"dev\":%u,\"port\":%u,\"path\":\"%s\"," ++
      "\"comm\":\"%s\"\x7d\n")
    [.str (powerActionName e.action), .str (usbtraceSpeedStr e.speed), .num e.vid.toNat,
      .num e.product.toNat, .num e.busnum.toNat, .num e.devnum.toNat, .num e.portnum.toNat,
      pathJson e.devpath, commJson e.comm]

/-- The line of a lifecycle record (lifecycle.c:62-75). -/
def lifecyclePrintJson (e : LifecycleEvent) : CStr :=
  printf ("\x7b\"event\":\"lifecycle\",\"action\":\"%s\"," ++
      "\"speed\":\"%s\",\"vid\":\"0x%04x\",\"pid\":\"0x%04x\"," ++
      "\"bus\":%u,\"dev\":%u,\"port\":%u,\"reset_resume\":%u," ++
      "\"path\":\"%s\",\"comm\":\"%s\"\x7d\n")
    [.str (lifecycleActionStr e.action), .str (usbtraceSpeedStr e.speed), .num e.vid.toNat,
      .num e.product.toNat, .num e.busnum.toNat, .num e.devnum.toNat, .num e.portnum.toNat,
      .num e.resetResume.toNat, pathJson e.devpath, commJson e.comm]

/-- The line of a class record (class_stream.c:67-82). -/
def classPrintJson (e : ClassUrbEvent) : CStr :=
  printf ("\x7b\"event\":\"class\",\"class\":\"%s\",\"xfer\":\"%s\"," ++
      "\"ep\":%u,\"dir\":\"%s\",\"status\":%d,\"error_count\":%d," ++
      "\"packets\":%u,\"bytes\":%u,\"start_frame\":%d," ++
      "\"vid\":\"0x%04x\",\"pid\":\"0x%04x\",\"bus\":%u,\"dev\":%u," ++
      "\"comm\":\"%s\"\x7d\n")
    [.str (usbtraceClassStr e.klass), .str (xferStr e.xferType), .num e.ep.toNat,
      .str (if e.dirIn ≠ 0 then "in".toList else "out".toList), .int e.status.toInt,
      .int e.errorCount.toInt, .num e.numberOfPackets.toNat, .num e.actualLength.toNat,
      .int e.startFrame.toInt, .num e.vid.toNat, .num e.product.toNat, .num e.busnum.toNat,
      .num e.devnum.toNat, commJson e.comm]

/-! ## Handlers -/

/-- The modules with one line for each record of their kind. -/
inductive EventModule where
  | urb | enum | hub | power | lifecycle
deriving DecidableEq, Repr

/-- A `handle_event`: a record of another kind, or one that is cut short, is passed over. -/
def handleEvent {α : Type} (kind : EventKind) (d : Decode α) (texts : List UInt8 → α → α)
    (print : α → CStr) (data : List UInt8) : Option CStr :=
  match usbtraceEventHdr.view data with
  | none => none
  | some h => if h.kind ≠ kind then none else (d.view data).map fun e => print (texts data e)

/-- The `handle_event` of a module in JSON mode (urb.c:321-337, enum.c:64-104, hub.c:48-87,
power.c:56-86, lifecycle.c:51-88). -/
def EventModule.handleEvent : EventModule → List UInt8 → Option CStr
  | .urb => Model.handleEvent evtUrb urbEvent UrbEvent.readTexts urbPrintJson
  | .enum => Model.handleEvent evtEnum enumEvent EnumEvent.readTexts enumPrintJson
  | .hub => Model.handleEvent evtHub hubEvent HubEvent.readTexts hubPrintJson
  | .power => Model.handleEvent evtPower powerRec PowerRec.readTexts powerPrintJson
  | .lifecycle =>
    Model.handleEvent evtLifecycle lifecycleEvent LifecycleEvent.readTexts lifecyclePrintJson

end UsbTrace.Model

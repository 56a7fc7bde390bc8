import UsbTrace.Model.Uvc
import UsbTrace.Model.Engine

/-!
# A diag session

diag as the composition of the probes, their `events` maps, `normalize` and the engine.  A
hook puts records into the map of its module, and the poll loop drains one map after the
other into the engine (diag.c:506, evmux.c).  A map of 256 KiB holds the records of every
device, and a record it has no room for is dropped without a trace (events.bpf.h:46-55): a
session is given which records find room.

The entry probes of the enum and lifecycle modules only pass the device pointer on to the
exit probe of the same thread, before the filter; an exit is given with that device.
-/

set_option autoImplicit false

namespace UsbTrace.Model

open UsbTrace.Library

/-- The modules with an `events` map diag polls (diag.c:474-490). -/
inductive Source where
  | urb | enum | lifecycle | power | hub | uvc | uac | hid | storage
deriving DecidableEq, Repr

/-- The class modules with no record of their own, and the class they report (class.h). -/
inductive ClassModule where
  | uac | hid | storage
deriving DecidableEq, Repr

def ClassModule.klass : ClassModule → UInt8
  | .uac => 1
  | .hid => 2
  | .storage => 3

def ClassModule.source : ClassModule → Source
  | .uac => .uac
  | .hid => .hid
  | .storage => .storage

/-- What a hook is given next to the device: one case for each probe that emits. -/
inductive HookCall where
  /-- `usb_set_device_state`: the state before and the new state. -/
  | setState (oldState newState : UInt8)
  /-- The exit of `usb_get_device_descriptor`, `hub_set_address` or
  `usb_set_configuration`, in the device's state at that moment. -/
  | enumExit (step state : UInt8) (ret : Int32)
  /-- The exit of `usb_new_device`. -/
  | newDevice (ret : Int32)
  | disconnect
  | resetDevice (resetResume : UInt8)
  | power (action : UInt8)
  | hub (port1 : Int32) (action warm : UInt8) (ocCount : UInt32)
  | classUrb (mod : ClassModule) (urb : Urb)
  | videoComplete (urb : Urb)
  | submit (urb : Urb)
  | giveback (urb : Urb) (status : Int32)
deriving DecidableEq, Repr

/-- The module whose probe a hook fires. -/
def HookCall.source : HookCall → Source
  | .setState .. | .enumExit .. => .enum
  | .newDevice .. | .disconnect | .resetDevice .. => .lifecycle
  | .power .. => .power
  | .hub .. => .hub
  | .classUrb mod _ => mod.source
  | .videoComplete .. => .uvc
  | .submit .. | .giveback .. => .urb

/-- A hook that fires for a device. -/
structure KernelEvent extends HookCtx where
  dev : UsbDevice
  call : HookCall
deriving DecidableEq, Repr

/-- The maps the probes keep across hooks. -/
structure ProbeMaps where
  startTs : StartTs
  uvc : UvcMaps

def ProbeMaps.empty : ProbeMaps := ⟨BoundedMap.empty, UvcMaps.empty⟩

/-- The probes as diag configures them (diag.c:391-460): the maps after the hook, and the
records put into the module's `events` map. -/
def probeStep (cfg : FilterConfig) (m : ProbeMaps) (ev : KernelEvent) :
    ProbeMaps × List Record :=
  let urbCfg : UrbConfig := { cfg with emitSubmit := true }
  match ev.call with
  | .setState oldState newState =>
    (m, ((emitEnum cfg ev.dev oldState newState enumStepState 0 ev.now ev.task).map
      .enum).toList)
  | .enumExit step state ret =>
    (m, ((emitEnum cfg ev.dev state state step ret ev.now ev.task).map .enum).toList)
  | .newDevice ret =>
    (m, if ret < 0 then []
      else ((lifecycleEmit cfg ev.dev lifecycleConnect 0 ev.now ev.task).map .lifecycle).toList)
  | .disconnect =>
    (m, ((lifecycleEmit cfg ev.dev lifecycleDisconnect 0 ev.now ev.task).map
      .lifecycle).toList)
  | .resetDevice resetResume =>
    (m, ((lifecycleEmit cfg ev.dev lifecycleReset resetResume ev.now ev.task).map
      .lifecycle).toList)
  | .power action => (m, ((powerEmit cfg ev.dev action ev.now ev.task).map .power).toList)
  | .hub port1 action warm ocCount =>
    (m, ((hubEmitDev cfg ev.dev port1 action warm ocCount ev.now ev.task).map .hub).toList)
  | .classUrb mod urb =>
    (m, ((usbtraceClassUrbEmit cfg ev.dev urb mod.klass ev.now ev.task).map .classUrb).toList)
  | .videoComplete urb =>
    let (uvc, out) := onVideoComplete cfg ev.toHookCtx m.uvc ev.dev urb
    ({ m with uvc := uvc }, out)
  | .submit urb =>
    let (startTs, e) := onSubmit urbCfg m.startTs ev.dev urb ev.now ev.task
    ({ m with startTs := startTs }, (e.map .urb).toList)
  | .giveback urb status =>
    let (startTs, e) := onGiveback urbCfg m.startTs ev.dev urb status ev.now ev.task
    ({ m with startTs := startTs }, (e.map .urb).toList)

/-! ## The poll loop -/

/-- A record that waits in an `events` map, with the clock readings of its ingest. -/
structure Pending where
  source : Source
  record : Record
  clock : ℕ → UInt64

/-- What happens in a session: a hook fires, with the clock readings of the ingests its
records lead to, the poll loop drains a module's map, or it ticks. -/
inductive SessionOp where
  | hook (ev : KernelEvent) (clock : ℕ → ℕ → UInt64)
  | vb2 (ctx : HookCtx) (call : Vb2Hook) (clock : ℕ → ℕ → UInt64)
  | drain (source : Source)
  | tick (nowNs : UInt64)

/-- The state of a session outside the engine; `hooks` numbers the hooks. -/
structure SessionState where
  maps : ProbeMaps
  pending : List Pending
  hooks : ℕ

def SessionState.start : SessionState := ⟨ProbeMaps.empty, [], 0⟩

/-- `USBTRACE_EVENT_OUTPUT` on each of a hook's records: those that wait in the module's
map, which has room for the `i`-th record if `room i`. -/
def enqueue (room : ℕ → Bool) (source : Source) (clock : ℕ → ℕ → UInt64) (rs : List Record) :
    List Pending :=
  (rs.zipIdx.filter fun r => room r.2).map fun r => ⟨source, r.1, clock r.2⟩

/-- `on_event` (diag.c:342-350). -/
def Pending.ingest (p : Pending) : EngineOp := .ingest p.record.event p.clock

/-- One step of a session, and the engine operations it leads to; `room n i` says whether
the `i`-th record of the `n`-th hook finds room. -/
def sessionStep (cfg : FilterConfig) (room : ℕ → ℕ → Bool) (s : SessionState) :
    SessionOp → SessionState × List EngineOp
  | .hook ev clock =>
    let (maps, rs) := probeStep cfg s.maps ev
    ({ maps := maps
       pending := s.pending ++ enqueue (room s.hooks) ev.call.source clock rs
       hooks := s.hooks + 1 }, [])
  | .vb2 ctx call clock =>
    let (uvc, rs) := vb2Step ctx s.maps.uvc call
    ({ maps := { s.maps with uvc := uvc }
       pending := s.pending ++ enqueue (room s.hooks) .uvc clock rs
       hooks := s.hooks + 1 }, [])
  | .drain source =>
    ({ s with pending := s.pending.filter fun p => p.source ≠ source },
      (s.pending.filter fun p => p.source = source).map Pending.ingest)
  | .tick nowNs => (s, [.tick nowNs])

/-- The engine operations of a session under a filter. -/
def sessionOps (cfg : FilterConfig) (room : ℕ → ℕ → Bool) (ops : List SessionOp) :
    List EngineOp :=
  outputs (sessionStep cfg room) SessionState.start ops

/-- The findings of a session under a filter. -/
def sessionFindings (cfg : FilterConfig) (room : ℕ → ℕ → Bool) (rules : List DiagRule)
    (ops : List SessionOp) : List Finding := engineFindings rules (sessionOps cfg room ops)

end UsbTrace.Model

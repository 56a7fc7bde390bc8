import UsbTrace.Model.DiagRun
import UsbTrace.Model.EventLines

/-!
# The run of one module

A module's `_run` (enum.c:115-136 and its likes) opens its skeleton, hands it to
`usbtrace_run` (run.c:14-79) and destroys it.  `usbtrace_run` loads and attaches the programs,
lets the module's map join a consumer of its own, and polls; the records a poll hands on go to
the module's callback.  The run ends when the signal handler clears `*running`, which is the
end of its inputs, or at an error of a poll.
-/

set_option autoImplicit false

namespace UsbTrace.Model

open UsbTrace.Library

/-- The probes' maps, the `events` map and the locals of the loop; `broken` once it has left at
an error. -/
structure ModuleState where
  maps : ProbeMaps
  queues : Queues
  err : ℤ := 0
  broken : Bool := false

def ModuleState.start : ModuleState := ⟨ProbeMaps.empty, fun _ => [], 0, false⟩

/-- One step of the kernel, or one turn of the loop (run.c:53-70): the records handed to the
callback. -/
def moduleStep (su : DiagSetup) (s : ModuleState) (i : DiagInput) : ModuleState × List Buffered :=
  match i with
  | .poll a _ =>
    if s.broken then (s, [])
    else
      let (qs, out, ret) := usbtraceEvmuxPoll su.buffers su.mux s.queues a
      if ret < 0 then
        if transient ret then (⟨s.maps, qs, 0, false⟩, out)
        else (⟨s.maps, qs, ret, true⟩, out)
      else (⟨s.maps, qs, ret, false⟩, out)
  | i =>
    let (maps, ws) := emitStep su s.maps i
    ({ s with maps := maps, queues := su.buffers.put s.queues ws }, [])

/-- What the system answers to a module's run. -/
structure ModuleWorld where
  cfg : FilterConfig
  transport : Transport
  probe : ProbeAnswer := {}
  muxAlloc : Bool := true
  muxEpoll : Bool := true
  add : AddAnswer := {}
  buffers : Buffers := listLanes (Buffered.place transport)
  inputs : List DiagInput

/-- What a module's run does: its return value, what it acquires and releases, and the records
its callback is handed between `on_start` and `on_stop`, where it comes to them. -/
structure ModuleExit where
  code : ℤ
  uses : List (Use Resource)
  session : Option (List Buffered) := none

/-- The module alone, with its map in the consumer. -/
def ModuleWorld.setup (w : ModuleWorld) (s : Source) : DiagSetup :=
  ⟨w.cfg, [s], ⟨w.transport, [s]⟩, w.buffers⟩

/-- `usbtrace_run` (run.c:14-79). -/
def usbtraceRun (s : Source) (w : ModuleWorld) : ModuleExit :=
  if w.probe.hooks = 0 || w.probe.load ≠ 0 || w.probe.attach ≠ 0 then { code := 1, uses := [] }
  else
    let (mux, news) := usbtraceEvmuxNew w.transport w.muxAlloc w.muxEpoll
    match mux with
    | none => { code := 1, uses := news }
    | some m =>
      let (m, err, adds) := usbtraceEvmuxAdd m s w.add
      let uses := news ++ adds ++ usbtraceEvmuxFree (some m)
      if err ≠ 0 then { code := 1, uses := uses }
      else
        let su : DiagSetup := ⟨w.cfg, [s], m, w.buffers⟩
        let err := (finalState (moduleStep su) ModuleState.start w.inputs).err
        { code := if err > 0 then 0 else if err ≠ 0 then 1 else 0
          uses := uses
          session := some (outputs (moduleStep su) ModuleState.start w.inputs) }

/-- The `_run` of a module (enum.c:115-136, hub.c:98-119, power.c:97-118, lifecycle.c:99-120). -/
def moduleRun (s : Source) (w : ModuleWorld) : ModuleExit :=
  if !w.probe.opens then { code := 1, uses := [] }
  else
    let e := usbtraceRun s w
    { e with uses := .acquire (.skeleton s) :: (e.uses ++ [.release (.skeleton s)]) }

/-- The modules that print what happens to devices, one line for each record. -/
inductive TimelineModule where
  | enum | hub | power | lifecycle
deriving DecidableEq, Repr

def TimelineModule.source : TimelineModule → Source
  | .enum => .enum
  | .hub => .hub
  | .power => .power
  | .lifecycle => .lifecycle

/-- The callback of the module. -/
def TimelineModule.events : TimelineModule → EventModule
  | .enum => .enum
  | .hub => .hub
  | .power => .power
  | .lifecycle => .lifecycle

/-- What the callback prints of the records it is handed, each with its bytes in the buffer. -/
def TimelineModule.printed (m : TimelineModule) (bytes : Buffered → List UInt8) (w : ModuleWorld) :
    List CStr :=
  ((moduleRun m.source w).session.getD []).filterMap fun r => m.events.handleEvent (bytes r)

end UsbTrace.Model

import UsbTrace.Analysis.EventLines
import UsbTrace.Analysis.Vendors
import UsbTrace.Interface.RecordBytes

/-!
# Records on their way to the consumer

What a hook puts into a ring buffer is the memory of a struct, with whatever the gaps between
its members held; what a consumer gets is bytes.  Every record of a hook is read back as it was
written (`inMemory_holds`), so that in every run of diag the event the engine is given is the
one `normalize` makes of the bytes of a record that was emitted (`delivered_read`).
-/

set_option autoImplicit false

namespace UsbTrace.Analysis

open UsbTrace.Model UsbTrace.Library UsbTrace.Library.Json UsbTrace.Interface

/-! ## Records as they are emitted -/

def recordKind : Record → EventKind
  | .urb _ => evtUrb
  | .enum _ => evtEnum
  | .power _ => evtPower
  | .lifecycle _ => evtLifecycle
  | .hub _ => evtHub
  | .classUrb _ => evtClass
  | .uvcFrame _ => evtUvcFrame
  | .uvcVb2 _ => evtUvcVb2

/-- `sizeof` of a record's struct. -/
def recordSize : Record → ℕ
  | .urb _ => urbEvent.sizeof
  | .enum _ => enumEvent.sizeof
  | .power _ => powerRec.sizeof
  | .lifecycle _ => lifecycleEvent.sizeof
  | .hub _ => hubEvent.sizeof
  | .classUrb _ => classUrbEvent.sizeof
  | .uvcFrame _ => uvcFrameEvent.sizeof
  | .uvcVb2 _ => uvcVb2Event.sizeof

/-- The header names the kind and the size, the arrays have theirs, and the texts end in them. -/
structure WellFormed (rec : Record) : Prop where
  sized : WellSized rec
  terminated : Terminated rec
  kind : rec.hdr.kind = recordKind rec
  size : rec.hdr.size = UInt32.ofNat (recordSize rec)

/-- What is read of a struct that begins with a header. -/
theorem read_stored {α : Type} {d : Decode α} {hdr : UsbtraceEventHdr} {tail : List Field} {e : α}
    (h : Stores d (hdr.fields ++ tail) e) {fill : ℕ → UInt8} {data rest : List UInt8}
    (hdata : data = structBytes fill (hdr.fields ++ tail) ++ rest) {kind : EventKind}
    (hkind : hdr.kind = kind) :
    (usbtraceEventHdr.of data).kind = kind ∧ d.sizeof ≤ data.length ∧ d.of data = e := by
  rw [hdata]
  refine ⟨?_, ?_, h.of_structBytes fill rest⟩
  · rw [(hdr_stores hdr).of_structBytes_append, hkind]
  · rw [List.length_append, h.length_structBytes]
    exact Nat.le_add_right _ _

/-- **A record is read back** from the memory it was written to, whatever that held before and
whatever follows it. -/
theorem inMemory_holds {rec : Record} (h : WellFormed rec) (fill : ℕ → UInt8)
    (rest : List UInt8) : Holds (rec.inMemory fill ++ rest) rec := by
  obtain ⟨data, hdata⟩ : ∃ data, data = rec.inMemory fill ++ rest := ⟨_, rfl⟩
  rw [← hdata]
  cases rec with
  | urb e =>
    obtain ⟨hkind, hlen, hof⟩ := read_stored (urbEvent_stores h.sized) hdata h.kind
    exact hof ▸ Holds.urb hkind hlen
  | enum e =>
    obtain ⟨hkind, hlen, hof⟩ := read_stored (enumEvent_stores h.sized) hdata h.kind
    exact hof ▸ Holds.enum hkind hlen
  | power e =>
    obtain ⟨hkind, hlen, hof⟩ := read_stored (powerRec_stores h.sized) hdata h.kind
    exact hof ▸ Holds.power hkind hlen
  | lifecycle e =>
    obtain ⟨hkind, hlen, hof⟩ := read_stored (lifecycleEvent_stores h.sized) hdata h.kind
    exact hof ▸ Holds.lifecycle hkind hlen
  | hub e =>
    obtain ⟨hkind, hlen, hof⟩ := read_stored (hubEvent_stores h.sized) hdata h.kind
    exact hof ▸ Holds.hub hkind hlen
  | classUrb e =>
    obtain ⟨hkind, hlen, hof⟩ := read_stored (classUrbEvent_stores h.sized) hdata h.kind
    exact hof ▸ Holds.classUrb hkind hlen
  | uvcFrame e =>
    obtain ⟨hkind, hlen, hof⟩ := read_stored (uvcFrameEvent_stores h.sized) hdata h.kind
    exact hof ▸ Holds.uvcFrame hkind hlen
  | uvcVb2 e =>
    obtain ⟨hkind, hlen, hof⟩ := read_stored (uvcVb2Event_stores h.sized) hdata h.kind
    exact hof ▸ Holds.uvcVb2 hkind hlen

/-- And it has the size its header names. -/
theorem inMemory_size {rec : Record} (h : WellFormed rec) (fill : ℕ → UInt8) :
    (rec.inMemory fill).length = rec.hdr.size.toNat := by
  rw [h.size]
  cases rec with
  | urb e => exact (urbEvent_stores h.sized).length_structBytes fill
  | enum e => exact (enumEvent_stores h.sized).length_structBytes fill
  | power e => exact (powerRec_stores h.sized).length_structBytes fill
  | lifecycle e => exact (lifecycleEvent_stores h.sized).length_structBytes fill
  | hub e => exact (hubEvent_stores h.sized).length_structBytes fill
  | classUrb e => exact (classUrbEvent_stores h.sized).length_structBytes fill
  | uvcFrame e => exact (uvcFrameEvent_stores h.sized).length_structBytes fill
  | uvcVb2 e => exact (uvcVb2Event_stores h.sized).length_structBytes fill

/-! ## Records of hooks -/

/-- Each record is well formed. -/
def AllWellFormed (rs : List Record) : Prop := ∀ rec ∈ rs, WellFormed rec

theorem allWellFormed_nil : AllWellFormed [] := fun _ h => absurd h List.not_mem_nil

theorem allWellFormed_append {rs ss : List Record} (hr : AllWellFormed rs) (hs : AllWellFormed ss) :
    AllWellFormed (rs ++ ss) := List.forall_mem_append.mpr ⟨hr, hs⟩

theorem allWellFormed_cons {rec : Record} {rs : List Record} (h : WellFormed rec)
    (hr : AllWellFormed rs) : AllWellFormed (rec :: rs) := List.forall_mem_cons.mpr ⟨h, hr⟩

/-- A hook that reports one record, where the device passes. -/
theorem allWellFormed_option {α : Type} {o : Option α} {f : α → Record}
    (h : ∀ e, o = some e → WellFormed (f e)) : AllWellFormed (o.map f).toList := by
  intro rec hrec
  obtain ⟨e, he, rfl⟩ := Option.map_eq_some_iff.mp (Option.mem_toList.mp hrec)
  exact h e he

section Hooks

variable {cfg : FilterConfig} {ctx : HookCtx} {dev : UsbDevice}

/-- A string that is read into an array fills it, and ends in it. -/
theorem readStr_array {n : ℕ} (hn : 0 < n) (str : List UInt8) :
    (readStr n str).length = n ∧ 0 ∈ readStr n str := by
  have hread : ((str.takeWhile fun b => b ≠ 0).take (n - 1)).length ≤ n - 1 :=
    List.length_take_le _ _
  rw [readStr]
  constructor
  · rw [List.length_append, List.length_replicate]
    omega
  · refine List.mem_append_right _ (List.mem_replicate.mpr ⟨?_, rfl⟩)
    omega

theorem emitEnum_wellFormed {oldState newState step : UInt8} {status : Int32} {e : EnumEvent}
    (h : emitEnum cfg dev oldState newState step status ctx.now ctx.task = some e) :
    WellFormed (.enum e) := by
  obtain ⟨ids, -, rfl⟩ := Option.map_eq_some_iff.mp h
  have hpath := readStr_array (by decide : 0 < 16) dev.devpath
  have hcomm := readStr_array (by decide : 0 < usbtraceCommLen) ctx.task.comm
  exact ⟨⟨hpath.1, hcomm.1, rfl⟩, ⟨hpath.2, hcomm.2⟩, rfl, rfl⟩

theorem lifecycleEmit_wellFormed {action resetResume : UInt8} {e : LifecycleEvent}
    (h : lifecycleEmit cfg dev action resetResume ctx.now ctx.task = some e) :
    WellFormed (.lifecycle e) := by
  obtain ⟨ids, -, rfl⟩ := Option.map_eq_some_iff.mp h
  have hpath := readStr_array (by decide : 0 < 16) dev.devpath
  have hcomm := readStr_array (by decide : 0 < usbtraceCommLen) ctx.task.comm
  exact ⟨⟨hpath.1, hcomm.1⟩, ⟨hpath.2, hcomm.2⟩, rfl, rfl⟩

theorem powerEmit_wellFormed {action : UInt8} {e : PowerRec}
    (h : powerEmit cfg dev action ctx.now ctx.task = some e) : WellFormed (.power e) := by
  obtain ⟨ids, -, rfl⟩ := Option.map_eq_some_iff.mp h
  have hpath := readStr_array (by decide : 0 < 16) dev.devpath
  have hcomm := readStr_array (by decide : 0 < usbtraceCommLen) ctx.task.comm
  exact ⟨⟨hpath.1, hcomm.1⟩, ⟨hpath.2, hcomm.2⟩, rfl, rfl⟩

theorem hubEmitDev_wellFormed {port1 : Int32} {action warm : UInt8} {ocCount : UInt32}
    {e : HubEvent}
    (h : hubEmitDev cfg dev port1 action warm ocCount ctx.now ctx.task = some e) :
    WellFormed (.hub e) := by
  obtain ⟨ids, -, rfl⟩ := Option.map_eq_some_iff.mp h
  have hpath := readStr_array (by decide : 0 < 16) dev.devpath
  have hcomm := readStr_array (by decide : 0 < usbtraceCommLen) ctx.task.comm
  exact ⟨⟨hpath.1, hcomm.1⟩, ⟨hpath.2, hcomm.2⟩, rfl, rfl⟩

theorem usbtraceClassUrbEmit_wellFormed {urb : Urb} {klass : UInt8} {e : ClassUrbEvent}
    (h : usbtraceClassUrbEmit cfg dev urb klass ctx.now ctx.task = some e) :
    WellFormed (.classUrb e) := by
  obtain ⟨ids, -, rfl⟩ := Option.map_eq_some_iff.mp h
  have hcomm := readStr_array (by decide : 0 < usbtraceCommLen) ctx.task.comm
  exact ⟨hcomm.1, hcomm.2, rfl, rfl⟩

/-- The setup packet of an URB, where there is one, has eight bytes. -/
def SetupSized (urb : Urb) : Prop := ∀ s ∈ urb.setup, s.length = 8

theorem fillCommon_wellFormed {urb : Urb} (hsetup : SetupSized urb) (now : UInt64)
    (isSubmit : UInt8) (latencyNs : UInt64) (actual : UInt32) (status : Int32)
    (vid pid : UInt16) :
    WellFormed (.urb (fillCommon (eventHdr evtUrb urbEvent.sizeof now) isSubmit latencyNs actual
      status dev urb vid pid ctx.task)) := by
  have hcomm := readStr_array (by decide : 0 < usbtraceCommLen) ctx.task.comm
  refine ⟨⟨hcomm.1, ?_⟩, hcomm.2, rfl, rfl⟩
  unfold fillCommon
  dsimp only
  split
  · cases hs : urb.setup with
    | none => rfl
    | some s => exact hsetup s hs
  · rfl

theorem onSubmit_wellFormed {urb : Urb} (hsetup : SetupSized urb) {urbCfg : UrbConfig}
    {startTs : StartTs} {ts : UInt64} {e : UrbEvent}
    (h : (onSubmit urbCfg startTs dev urb ts ctx.task).2 = some e) : WellFormed (.urb e) := by
  unfold onSubmit at h
  split at h
  · cases h
  · split at h
    · cases h
    · dsimp only at h
      split at h
      · cases h
      · cases h
        exact fillCommon_wellFormed hsetup _ _ _ _ _ _ _

theorem onGiveback_wellFormed {urb : Urb} (hsetup : SetupSized urb) {urbCfg : UrbConfig}
    {startTs : StartTs} {status : Int32} {now : UInt64} {e : UrbEvent}
    (h : (onGiveback urbCfg startTs dev urb status now ctx.task).2 = some e) :
    WellFormed (.urb e) := by
  unfold onGiveback at h
  split at h
  · cases h
  · split at h
    · cases h
    · cases h
      exact fillCommon_wellFormed hsetup _ _ _ _ _ _ _

/-! ## Records of the uvc program -/

theorem submitted_wellFormed {m : UvcMaps} {q : UInt64} {r : UvcMaps × List Record}
    (h : Submitted ctx m q r) : AllWellFormed r.2 := by
  rcases h with ⟨hnone, -⟩ | ⟨m', b, op, state, starved, seq, seqGap, interval, wire, -, rfl⟩
  · rw [hnone]
    exact allWellFormed_nil
  · have hcomm := readStr_array (by decide : 0 < usbtraceCommLen) ctx.task.comm
    exact allWellFormed_cons ⟨hcomm.1, hcomm.2, rfl, rfl⟩ allWellFormed_nil

theorem uvcCheckStarvation_wellFormed (m : UvcMaps) (bus devnum : UInt16) :
    AllWellFormed (uvcCheckStarvation ctx m bus devnum ctx.now).2 := by
  rcases uvcCheckStarvation_cases ctx m bus devnum with ⟨hnone, -⟩ | ⟨q, -, h⟩
  · rw [hnone]
    exact allWellFormed_nil
  · exact submitted_wellFormed h

theorem uvcEmitFrame_wellFormed {s : FrameLoop} (hs : AllWellFormed s.out) (src : UvcSource)
    (eof : Bool) : AllWellFormed (uvcEmitFrame ctx src s eof).out := by
  have hcomm := readStr_array (by decide : 0 < usbtraceCommLen) ctx.task.comm
  exact allWellFormed_append hs (allWellFormed_cons ⟨hcomm.1, hcomm.2, rfl, rfl⟩
    (uvcCheckStarvation_wellFormed _ _ _))

theorem uvcParseFrames_wellFormed (m : UvcMaps) (urb : Urb) :
    AllWellFormed (uvcParseFrames cfg ctx m dev urb).2 :=
  uvcParseFrames_induct (I := fun _ out => AllWellFormed out) cfg
    (fun _ eof hs => uvcEmitFrame_wellFormed hs _ eof) (fun _ _ _ h => h) allWellFormed_nil

end Hooks

/-- The setup packets a hook reads have their size. -/
structure HookSized (ev : KernelEvent) : Prop where
  submit : ∀ urb, ev.call = .submit urb → SetupSized urb
  giveback : ∀ urb status, ev.call = .giveback urb status → SetupSized urb

/-- **Every record of a hook is well formed.** -/
theorem probeStep_wellFormed {ev : KernelEvent} (hev : HookSized ev) (cfg : FilterConfig)
    (m : ProbeMaps) : AllWellFormed (probeStep cfg m ev).2 := by
  unfold probeStep
  cases hcall : ev.call with
  | setState oldState newState => exact allWellFormed_option fun e => emitEnum_wellFormed
  | enumExit step state ret => exact allWellFormed_option fun e => emitEnum_wellFormed
  | newDevice ret =>
    dsimp only
    split
    · exact allWellFormed_nil
    · exact allWellFormed_option fun e => lifecycleEmit_wellFormed
  | disconnect => exact allWellFormed_option fun e => lifecycleEmit_wellFormed
  | resetDevice resetResume => exact allWellFormed_option fun e => lifecycleEmit_wellFormed
  | power action => exact allWellFormed_option fun e => powerEmit_wellFormed
  | hub port1 action warm ocCount => exact allWellFormed_option fun e => hubEmitDev_wellFormed
  | classUrb mod urb => exact allWellFormed_option fun e => usbtraceClassUrbEmit_wellFormed
  | videoComplete urb =>
    exact allWellFormed_append (allWellFormed_option fun e => usbtraceClassUrbEmit_wellFormed)
      (uvcParseFrames_wellFormed m.uvc urb)
  | submit urb =>
    exact allWellFormed_option fun e => onSubmit_wellFormed (hev.submit urb hcall)
  | giveback urb status =>
    exact allWellFormed_option fun e => onGiveback_wellFormed (hev.giveback urb status hcall)

/-! ## Runs of diag -/

/-- The setup packets the hook of an input reads have their size. -/
def InputSized : DiagInput → Prop
  | .hook ev .. => HookSized ev
  | .vb2 .. | .poll .. => True

theorem emitStep_wellFormed {i : DiagInput} (hi : InputSized i) (su : DiagSetup)
    (m : ProbeMaps) : ∀ w ∈ (emitStep su m i).2, WellFormed w.record := by
  cases i with
  | hook ev cpu room clock =>
    rw [emitStep]
    split
    · exact fun w hw => probeStep_wellFormed hi su.cfg m _ (mem_eventOutput hw)
    · exact fun w hw => absurd hw List.not_mem_nil
  | vb2 ctx call cpu room clock =>
    rw [emitStep]
    split
    · have hrecords := submitted_wellFormed (vb2Step_cases ctx m.uvc call).1
      exact fun w hw => hrecords _ (mem_eventOutput hw)
    · exact fun w hw => absurd hw List.not_mem_nil
  | poll a now => exact fun w hw => absurd hw List.not_mem_nil

/-- **Nothing is lost in the layout of a record.**  In every run of diag, whatever the ring
buffer's memory held before and whatever follows a record there, the bytes of each record the
loop hands on have the size its header names, `normalize` makes of them the event the engine is
given, and the module of the record's kind prints them as its JSON object.
SOURCE: common.h:39-43, diag.c:163-350, events.bpf.h:44-58, uvc.bpf.c:267-305, 465-510,
urb.bpf.c:69-189, enum.bpf.c:50-83, hub.bpf.c:45-77, class_urb.bpf.h:36-76 -/
theorem delivered_read (su : DiagSetup) (hfifo : BuffersFifo su) (start : UInt64)
    (inputs : List DiagInput) (hinputs : ∀ i ∈ inputs, InputSized i) :
    ∀ w ∈ delivered (outputs (diagStep su) (DiagState.start start) inputs),
      ∀ (fill : ℕ → UInt8) (rest : List UInt8),
        (w.record.inMemory fill).length = w.record.hdr.size.toNat ∧
          Model.normalize (w.record.inMemory fill ++ rest) = some w.record.event ∧
          ∀ m : EventModule, w.record.hdr.kind = moduleKind m → ∃ line,
            m.handleEvent (w.record.inMemory fill ++ rest) = some line ∧
              readObject line = some (lineMembers w.record, ['\n']) := by
  intro w hw fill rest
  obtain ⟨pre, i, post, heq, hemit⟩ := mem_outputs (delivered_submitted hfifo start inputs hw).1
  have hi : i ∈ inputs := heq ▸ List.mem_append_right pre List.mem_cons_self
  have hform := emitStep_wellFormed (hinputs i hi) su _ w hemit
  have hholds := inMemory_holds hform fill rest
  refine ⟨inMemory_size hform fill, normalize_holds hholds, fun m hm => ?_⟩
  obtain ⟨line, hline, -, hread⟩ := moduleLine_reads m hholds hm hform.terminated
  exact ⟨line, hline, hread⟩

/-- A device gets its address and disconnects, and two polls hand the records on: that of the
lifecycle module first. -/
theorem delivered_read_sample :
    let su : DiagSetup := ⟨{}, [.enum, .lifecycle], ⟨.ringbuf, [.enum, .lifecycle]⟩,
      listLanes (Buffered.place .ringbuf)⟩
    let hook (call : HookCall) (now : UInt64) : DiagInput := .hook
      { now := now, task := { tgid := 42, comm := [0x6b, 0x68] }
        dev := { idVendor := 0x046d, busnum := 1, devnum := 2, devpath := [0x31] }, call := call }
      0 (fun _ => true) fun _ _ => now
    let inputs := [hook (.setState 5 6) 1, hook (.setState 6 0) 2, hook .disconnect 3,
      .poll { visits := [(.lifecycle, 1), (.enum, 1)], result := 2 } 4,
      .poll { visits := [(.enum, 7)], result := 1 } 5]
    let read := delivered (outputs (diagStep su) (DiagState.start 0) inputs)
    read.map (fun w => (w.record.hdr.kind, w.record.hdr.tsNs)) =
        [(evtLifecycle, 3), (evtEnum, 1), (evtEnum, 2)] ∧
      ∀ w ∈ read, (w.record.inMemory fun _ => 0xaa).length = w.record.hdr.size.toNat ∧
        Model.normalize (w.record.inMemory (fun _ => 0xaa) ++ [1, 2, 3]) = some w.record.event ∧
        ∀ m : EventModule, w.record.hdr.kind = moduleKind m → ∃ line,
          m.handleEvent (w.record.inMemory (fun _ => 0xaa) ++ [1, 2, 3]) = some line ∧
            readObject line = some (lineMembers w.record, ['\n']) := by
  intro su hook inputs read
  have hinputs : ∀ i ∈ inputs, InputSized i := by
    simp only [inputs, List.forall_mem_cons, List.not_mem_nil, false_imp_iff, implies_true,
      and_true]
    exact ⟨⟨nofun, nofun⟩, ⟨nofun, nofun⟩, ⟨nofun, nofun⟩, trivial, trivial⟩
  refine ⟨by decide +kernel, fun w hw => ?_⟩
  exact delivered_read su (listLanes_fifo _) 0 inputs hinputs w hw (fun _ => 0xaa) [1, 2, 3]

end UsbTrace.Analysis

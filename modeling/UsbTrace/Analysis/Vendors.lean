import UsbTrace.Analysis.Findings
import UsbTrace.Interface.DeviceFilter
import UsbTrace.Interface.Vb2

/-!
# What a filter keeps out

The probes look at a device's ids before they report it; the videobuf2 tracepoints see no
device and take the ids of a frame reported before.  So with `--vid` or `--pid` every record
names a device that was asked for, or none (`vb2Step_admitted`, `probeStep_admitted`), and so
does every finding of a run, which therefore rests on records of hooks (`finding_admitted`).
-/

set_option autoImplicit false

namespace UsbTrace.Analysis

open UsbTrace.Model UsbTrace.Library UsbTrace.Interface

/-- The ids of a device that was asked for. -/
def Admitted (cfg : FilterConfig) (vid pid : UInt16) : Prop :=
  (cfg.filterVid = 0 ∨ vid = cfg.filterVid) ∧ (cfg.filterPid = 0 ∨ pid = cfg.filterPid)

/-- They may be missing. -/
def AdmittedOrNone (cfg : FilterConfig) (vid pid : UInt16) : Prop :=
  Admitted cfg vid pid ∨ vid = 0 ∧ pid = 0

/-- An event of such a device; only a videobuf2 event may name none. -/
def AdmittedEvent (cfg : FilterConfig) (x : DiagEvent) : Prop :=
  Admitted cfg x.vid x.pid ∨ x.kind = evtUvcVb2 ∧ x.vid = 0 ∧ x.pid = 0

/-- The frames remembered are of such devices. -/
def CorrAdmitted (cfg : FilterConfig) (corr : BoundedMap UInt32 StreamCorr 64) : Prop :=
  ∀ k c, corr.lookup k = some c → AdmittedOrNone cfg c.vid c.pid

/-- What a uvc hook leaves: such frames, and records of such devices. -/
structure UvcAdmitted (cfg : FilterConfig) (r : UvcMaps × List Record) : Prop where
  corr : CorrAdmitted cfg r.1.streamCorr
  records : ∀ x ∈ r.2, AdmittedEvent cfg x.event

variable {cfg : FilterConfig}

theorem corrAdmitted_empty : CorrAdmitted cfg BoundedMap.empty := fun _ _ h => by cases h

theorem uvcAdmitted_nil {m : UvcMaps} (hm : CorrAdmitted cfg m.streamCorr) :
    UvcAdmitted cfg (m, []) := ⟨hm, fun _ hx => absurd hx List.not_mem_nil⟩

/-- A device that is matched was asked for.
SOURCE: filter.bpf.h:17-31 -/
theorem admitted_of_devMatch {dev : UsbDevice} {vid pid : UInt16}
    (h : usbtraceDevMatch dev cfg.filterVid cfg.filterPid = some (vid, pid)) :
    Admitted cfg vid pid := by
  unfold usbtraceDevMatch at h
  split at h
  · cases h
  · next hvid =>
    split at h
    · cases h
    · next hpid =>
      cases h
      exact ⟨by tauto, by tauto⟩

/-! ## Frames and buffers -/

/-- A submission takes its ids from a frame that is remembered. -/
theorem uvcVb2Submit_admitted {m : UvcMaps} (hm : CorrAdmitted cfg m.streamCorr) (ctx : HookCtx)
    (q : UInt64) (b : Option Vb2Buffer) (op state starved : UInt8) (now : UInt64) (seq : UInt32)
    (seqGap : UInt8) (interval wire : UInt32) :
    UvcAdmitted cfg (uvcVb2Submit ctx m q b op state starved now seq seqGap interval wire) := by
  have hdev : AdmittedOrNone cfg ((uvcVb2FillDevice m now).getD {}).vid
      ((uvcVb2FillDevice m now).getD {}).pid := by
    cases hfill : uvcVb2FillDevice m now with
    | none => exact .inr ⟨rfl, rfl⟩
    | some c =>
      unfold uvcVb2FillDevice at hfill
      split at hfill
      · cases hfill
      · next c' hlookup =>
        split at hfill
        · cases hfill
        · split at hfill
          · cases hfill
          · cases hfill
            exact hm 0 c hlookup
  constructor
  · unfold uvcVb2Submit uvcVb2BindDev
    dsimp only
    split
    · split <;> exact hm
    · exact hm
  · intro x hx
    obtain rfl := List.mem_singleton.mp hx
    exact hdev.imp_right fun hnone => ⟨rfl, hnone⟩

theorem submitted_admitted {m : UvcMaps} (hm : CorrAdmitted cfg m.streamCorr) {ctx : HookCtx}
    {q : UInt64} {r : UvcMaps × List Record} (h : Submitted ctx m q r) : UvcAdmitted cfg r := by
  rcases h with ⟨hnone, hsame⟩ | ⟨m', b, op, state, starved, seq, seqGap, interval, wire, hsame, rfl⟩
  · exact ⟨by rw [hsame.streamCorr]; exact hm, by rw [hnone]; exact (uvcAdmitted_nil hm).records⟩
  · exact uvcVb2Submit_admitted (by rw [hsame.streamCorr]; exact hm) _ _ _ _ _ _ _ _ _ _ _

/-- **A videobuf2 tracepoint** sees no device and reports none but those. -/
theorem vb2Step_admitted {m : UvcMaps} (hm : CorrAdmitted cfg m.streamCorr) (ctx : HookCtx)
    (call : Vb2Hook) : UvcAdmitted cfg (vb2Step ctx m call) :=
  submitted_admitted hm (vb2Step_cases ctx m call).1

theorem uvcCheckStarvation_admitted {m : UvcMaps} (hm : CorrAdmitted cfg m.streamCorr)
    (ctx : HookCtx) (bus dev : UInt16) :
    UvcAdmitted cfg (uvcCheckStarvation ctx m bus dev ctx.now) := by
  rcases uvcCheckStarvation_cases ctx m bus dev with ⟨hnone, hsame⟩ | ⟨q, -, h⟩
  · exact ⟨by rw [hsame.streamCorr]; exact hm, by rw [hnone]; exact (uvcAdmitted_nil hm).records⟩
  · exact submitted_admitted hm h

theorem uvcCorrStore_admitted {corr : BoundedMap UInt32 StreamCorr 64}
    (hcorr : CorrAdmitted cfg corr) (key : UInt32) {vid pid : UInt16}
    (hids : Admitted cfg vid pid) (bus devnum : UInt16) (bytes : UInt32) (now : UInt64) :
    CorrAdmitted cfg (uvcCorrStore corr key vid pid bus devnum bytes now) := by
  have hinit : CorrAdmitted cfg (corr.update key {}) := by
    intro k c hc
    rcases BoundedMap.lookup_update_cases hc with ⟨-, rfl⟩ | hold
    · exact .inr ⟨rfl, rfl⟩
    · exact hcorr k c hold
  unfold uvcCorrStore
  dsimp only
  split
  · exact hinit
  · intro k c hc
    rcases BoundedMap.lookup_update_cases hc with ⟨-, rfl⟩ | hold
    · exact .inl hids
    · exact hinit k c hold

/-- What an emission leaves names such devices. -/
theorem uvcEmitFrame_admitted {s : FrameLoop} (hs : UvcAdmitted cfg (s.maps, s.out))
    {src : UvcSource} (hsrc : Admitted cfg src.vid src.pid) (ctx : HookCtx) (eof : Bool) :
    UvcAdmitted cfg ((uvcEmitFrame ctx src s eof).maps, (uvcEmitFrame ctx src s eof).out) := by
  have hnote : CorrAdmitted cfg (uvcNoteWireFrame s.maps src.bus src.devnum src.vid src.pid
      s.st.curBytes ctx.now).streamCorr :=
    uvcCorrStore_admitted (uvcCorrStore_admitted hs.corr _ hsrc _ _ _ _) _ hsrc _ _ _ _
  have hcheck := uvcCheckStarvation_admitted hnote ctx src.bus src.devnum
  refine ⟨hcheck.corr, fun x hx => ?_⟩
  rcases List.mem_append.mp hx with hx | hx
  · exact hs.records x hx
  · rcases List.mem_cons.mp hx with rfl | hx
    · exact .inl hsrc
    · exact hcheck.records x hx

theorem uvcParseFrames_admitted {m : UvcMaps} (hm : CorrAdmitted cfg m.streamCorr)
    (ctx : HookCtx) (dev : UsbDevice) (urb : Urb) :
    UvcAdmitted cfg (uvcParseFrames cfg ctx m dev urb) := by
  cases hp : passes cfg dev with
  | false =>
    rw [uvcParseFrames_dropped hp]
    exact uvcAdmitted_nil hm
  | true =>
    have hids : Admitted cfg dev.idVendor dev.idProduct :=
      admitted_of_devMatch (devMatch_of_passes hp)
    exact uvcParseFrames_induct (I := fun m out => UvcAdmitted cfg (m, out)) cfg
      (fun s eof hs => uvcEmitFrame_admitted hs hids ctx eof)
      (fun _ _ _ h => ⟨h.corr, h.records⟩) (uvcAdmitted_nil hm)

/-! ## Hooks -/

/-- **Every record of a hook names a device that was asked for, or none.**
SOURCE: filter.bpf.h:17-31, uvc.bpf.c:149-305 -/
theorem probeStep_admitted {m : ProbeMaps} (hm : CorrAdmitted cfg m.uvc.streamCorr)
    (ev : KernelEvent) :
    CorrAdmitted cfg (probeStep cfg m ev).1.uvc.streamCorr ∧
      ∀ x ∈ (probeStep cfg m ev).2, AdmittedEvent cfg x.event := by
  cases hp : passes cfg ev.dev with
  | false =>
    have hmatch := devMatch_of_not_passes hp
    cases hcall : ev.call <;>
      simp [probeStep, hcall, emitEnum, lifecycleEmit, powerEmit, hubEmitDev,
        usbtraceClassUrbEmit, onSubmit, onGiveback, onVideoComplete, uvcParseFrames, hmatch, hm]
  | true =>
    have hmatch := devMatch_of_passes hp
    have hids : Admitted cfg ev.dev.idVendor ev.dev.idProduct := admitted_of_devMatch hmatch
    cases hcall : ev.call with
    | newDevice ret =>
      simp only [probeStep, hcall, lifecycleEmit, hmatch]
      refine ⟨hm, fun x hx => ?_⟩
      split at hx
      · cases hx
      · cases List.mem_singleton.mp hx
        exact .inl hids
    | videoComplete urb =>
      have hframes := uvcParseFrames_admitted hm ev.toHookCtx ev.dev urb
      simp only [probeStep, hcall, onVideoComplete, usbtraceClassUrbEmit, hmatch]
      refine ⟨hframes.corr, fun x hx => ?_⟩
      rcases List.mem_append.mp hx with hx | hx
      · cases List.mem_singleton.mp hx
        exact .inl hids
      · exact hframes.records x hx
    | _ =>
      simp only [probeStep, hcall, emitEnum, lifecycleEmit, powerEmit, hubEmitDev,
        usbtraceClassUrbEmit, onSubmit, onGiveback, hmatch]
      refine ⟨hm, fun x hx => ?_⟩
      cases List.mem_singleton.mp hx
      exact .inl hids

theorem mem_eventOutput {s : Source} {cpu : ℕ} {room : ℕ → Bool} {clock : ℕ → ℕ → UInt64}
    {rs : List Record} {w : Buffered} (h : w ∈ eventOutput s cpu room clock rs) :
    w.record ∈ rs := by
  obtain ⟨⟨r, i⟩, hr, rfl⟩ := List.mem_map.mp h
  exact List.fst_mem_of_mem_zipIdx (List.mem_filter.mp hr).1

theorem emitStep_admitted {su : DiagSetup} {m : ProbeMaps}
    (hm : CorrAdmitted su.cfg m.uvc.streamCorr) (i : DiagInput) :
    CorrAdmitted su.cfg (emitStep su m i).1.uvc.streamCorr ∧
      ∀ w ∈ (emitStep su m i).2, AdmittedEvent su.cfg w.record.event := by
  cases i with
  | hook ev cpu room clock =>
    rw [emitStep]
    split
    · have hstep := probeStep_admitted hm ev
      exact ⟨hstep.1, fun w hw => hstep.2 _ (mem_eventOutput hw)⟩
    · exact ⟨hm, fun w hw => absurd hw List.not_mem_nil⟩
  | vb2 ctx call cpu room clock =>
    rw [emitStep]
    split
    · have hstep := vb2Step_admitted hm ctx call
      exact ⟨hstep.corr, fun w hw => hstep.records _ (mem_eventOutput hw)⟩
    · exact ⟨hm, fun w hw => absurd hw List.not_mem_nil⟩
  | poll a now => exact ⟨hm, fun w hw => absurd hw List.not_mem_nil⟩

/-! ## Runs of diag -/

/-- The records of a run name such devices. -/
theorem submitted_admits (su : DiagSetup) (inputs : List DiagInput) :
    ∀ w ∈ submitted su inputs, AdmittedEvent su.cfg w.record.event := by
  intro w hw
  obtain ⟨pre, i, post, -, hstep⟩ := mem_outputs hw
  refine (emitStep_admitted ?_ i).2 w hstep
  exact finalState_induct (I := fun m : ProbeMaps => CorrAdmitted su.cfg m.uvc.streamCorr)
    (fun m i hm => (emitStep_admitted hm i).1) corrAdmitted_empty pre

/-- What is handed on in a run is a record that a hook put into a joined map. -/
theorem delivered_submitted {su : DiagSetup} (hfifo : BuffersFifo su) (start : UInt64)
    (inputs : List DiagInput) {w : Buffered}
    (h : w ∈ delivered (outputs (diagStep su) (DiagState.start start) inputs)) :
    w ∈ submitted su inputs ∧ w.source ∈ su.mux.srcs := by
  obtain ⟨hplaces, hsource⟩ := delivered_fifo hfifo start inputs
  refine ⟨?_, hsource w h⟩
  have hin : w ∈ (delivered (outputs (diagStep su) (DiagState.start start) inputs)).filter
      fun v => v.place su.mux.transport = w.place su.mux.transport :=
    List.mem_filter.mpr ⟨h, decide_eq_true rfl⟩
  have hmem : w ∈ inPlace su (w.place su.mux.transport) (submitted su inputs) := by
    rw [← hplaces]
    exact List.mem_append_left _ hin
  exact (List.mem_filter.mp hmem).1

/-- So is what the engine ingests. -/
theorem ingested_submitted {su : DiagSetup} (hfifo : BuffersFifo su) (start : UInt64)
    (inputs : List DiagInput) {x : DiagEvent} {clock : ℕ → UInt64}
    (h : EngineOp.ingest x clock ∈
      (outputs (diagStep su) (DiagState.start start) inputs).map LoopAction.op) :
    ∃ w ∈ submitted su inputs, w.record.event = x ∧ w.source ∈ su.mux.srcs := by
  obtain ⟨act, hact, hop⟩ := List.mem_map.mp h
  cases act with
  | deliver w =>
    have hw : w ∈ delivered (outputs (diagStep su) (DiagState.start start) inputs) :=
      List.mem_filterMap.mpr ⟨_, hact, rfl⟩
    obtain ⟨hsub, hsrc⟩ := delivered_submitted hfifo start inputs hw
    exact ⟨w, hsub, (EngineOp.ingest.inj hop).1, hsrc⟩
  | tick nowNs => cases hop

/-- **A filter keeps other devices out of the findings**: in every run of diag, a finding names
the vendor and the product that were asked for, or none, and it rests on records that hooks of
joined modules put into their maps for such devices.
SOURCE: diag.c:342-350, 391-524, filter.bpf.h:17-31, uvc.bpf.c:237-305 -/
theorem finding_admitted (su : DiagSetup) (hfifo : BuffersFifo su) (start : UInt64)
    (inputs : List DiagInput) (rules : List DiagRule) (f : Finding)
    (hf : f ∈ engineFindings rules
      ((outputs (diagStep su) (DiagState.start start) inputs).map LoopAction.op)) :
    (f.vid = 0 ∨ su.cfg.filterVid = 0 ∨ f.vid = su.cfg.filterVid) ∧
      (f.pid = 0 ∨ su.cfg.filterPid = 0 ∨ f.pid = su.cfg.filterPid) ∧
      (∃ w ∈ submitted su inputs,
        diagEventKey w.record.event = f.key ∧ w.source ∈ su.mux.srcs) ∧
      ∀ x ∈ f.evidence, AdmittedEvent su.cfg x ∧
        ∃ w ∈ submitted su inputs, w.record.event = x ∧ w.source ∈ su.mux.srcs := by
  obtain ⟨pre, op, post, hops, hprinted⟩ := mem_outputs hf
  obtain ⟨r, hr⟩ := step_justified hprinted
  have hown : ∀ x ∈ latestEvents f.key (pre ++ [op]), diagEventKey x = f.key ∧
      AdmittedEvent su.cfg x ∧
        ∃ w ∈ submitted su inputs, w.record.event = x ∧ w.source ∈ su.mux.srcs := by
    intro x hx
    obtain ⟨hkey, clock, hmem⟩ := mem_latestEvents.mp hx
    have hrun : EngineOp.ingest x clock ∈
        (outputs (diagStep su) (DiagState.start start) inputs).map LoopAction.op := by
      rw [hops, ← List.singleton_append, ← List.append_assoc]
      exact List.mem_append_left post hmem
    obtain ⟨w, hw, rfl, hsrc⟩ := ingested_submitted hfifo start inputs hrun
    exact ⟨hkey, submitted_admits su inputs w hw, w, hw, rfl, hsrc⟩
  refine ⟨?_, ?_, ?_, ?_⟩
  · rcases hr.vid with h | ⟨x, hx, h⟩
    · exact .inl h
    · rcases (hown x hx).2.1 with hadm | ⟨-, hvid, -⟩
      · exact .inr (h ▸ hadm.1)
      · exact .inl (h ▸ hvid)
  · rcases hr.pid with h | ⟨x, hx, h⟩
    · exact .inl h
    · rcases (hown x hx).2.1 with hadm | ⟨-, -, hpid⟩
      · exact .inr (h ▸ hadm.2)
      · exact .inl (h ▸ hpid)
  · obtain ⟨x, hx⟩ := List.exists_mem_of_ne_nil _ hr.device
    obtain ⟨hkey, -, w, hw, rfl, hsrc⟩ := hown x hx
    exact ⟨w, hw, hkey, hsrc⟩
  · intro x hx
    exact (hown x (hr.evidence_mem x hx)).2

/-- Two devices of which one is of the vendor asked for come and go, and a rule on the second
event within 10 s shows what the first of them did. -/
theorem finding_admitted_sample :
    let su : DiagSetup := ⟨{ filterVid := 0x0403 }, [.lifecycle], ⟨.ringbuf, [.lifecycle]⟩,
      listLanes (Buffered.place .ringbuf)⟩
    let hook (vid : UInt16) (bus : UInt32) (call : HookCall) (now : UInt64) : DiagInput := .hook
      { now := now, dev := { idVendor := vid, busnum := bus, devnum := 2 }, call := call }
      0 (fun _ => true) fun _ _ => now + 4000000000
    let inputs := [hook 0x0403 1 (.newDevice 0) 1, hook 0x046d 3 (.newDevice 0) 2,
      hook 0x046d 3 .disconnect 3, hook 0x0403 1 .disconnect 4,
      .poll { visits := [(.lifecycle, 4)], result := 2 } 5]
    let rules : List DiagRule := [{ trigger := { kind := some evtLifecycle }, whenList :=
      [{ kind := some evtLifecycle, countGte := some 2, withinMs := some 10000 }] }]
    ∃ f ∈ engineFindings rules
        ((outputs (diagStep su) (DiagState.start 0) inputs).map LoopAction.op),
      (f.vid = 0x0403 ∧ f.evidence.map DiagEvent.tsNs = [4, 1]) ∧
        (f.vid = 0 ∨ su.cfg.filterVid = 0 ∨ f.vid = su.cfg.filterVid) ∧
        (f.pid = 0 ∨ su.cfg.filterPid = 0 ∨ f.pid = su.cfg.filterPid) ∧
        (∃ w ∈ submitted su inputs,
          diagEventKey w.record.event = f.key ∧ w.source ∈ su.mux.srcs) ∧
        ∀ x ∈ f.evidence, AdmittedEvent su.cfg x ∧
          ∃ w ∈ submitted su inputs, w.record.event = x ∧ w.source ∈ su.mux.srcs := by
  intro su hook inputs rules
  have hlast : ∃ f ∈ engineFindings rules
      ((outputs (diagStep su) (DiagState.start 0) inputs).map LoopAction.op),
      f.vid = 0x0403 ∧ f.evidence.map DiagEvent.tsNs = [4, 1] := by
    decide +kernel
  obtain ⟨f, hf, hshown⟩ := hlast
  exact ⟨f, hf, hshown, finding_admitted su (listLanes_fifo _) 0 inputs rules f hf⟩

end UsbTrace.Analysis

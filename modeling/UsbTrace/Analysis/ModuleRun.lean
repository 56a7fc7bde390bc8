import UsbTrace.Analysis.RecordBytes
import UsbTrace.Analysis.Resources
import UsbTrace.Interface.ModuleSession
import UsbTrace.Model.ModuleRun

/-!
# The run of one module

A module that runs alone gives everything back, however its run ends, and returns 0 exactly if
it came up and no poll failed (`moduleRun_balanced`).  What it prints are the records its
programs put into its map, the first of each buffer, in order, each as its JSON object
(`moduleRun_prints`).
-/

set_option autoImplicit false

namespace UsbTrace.Analysis

open UsbTrace.Model UsbTrace.Library UsbTrace.Interface UsbTrace.Library.Json

/-! ## The loop -/

/-- A poll that succeeds or is interrupted. -/
def PollFine (su : DiagSetup) (s : ModuleState) : DiagInput → Prop
  | .poll a _ =>
    let (_, _, ret) := usbtraceEvmuxPoll su.buffers su.mux s.queues a
    0 ≤ ret ∨ transient ret = true
  | _ => True

/-- **One step**: the loop goes on unless the poll fails. -/
theorem moduleStep_broken (su : DiagSetup) (s : ModuleState) (i : DiagInput) :
    (moduleStep su s i).1.broken = false ↔ s.broken = false ∧ PollFine su s i := by
  cases i with
  | hook ev cpu room clock => exact (and_iff_left trivial).symm
  | vb2 ctx call cpu room clock => exact (and_iff_left trivial).symm
  | poll a now =>
    rw [moduleStep]
    dsimp only [PollFine]
    split
    · next hbroken => simp only [hbroken, Bool.true_eq_false, false_and]
    · next hopen =>
      have hopen' := Bool.eq_false_of_not_eq_true hopen
      split
      · next hneg =>
        split
        · next htrans => simp [hopen', htrans]
        · next htrans =>
          simp only [Bool.true_eq_false, false_iff, not_and, not_or]
          exact fun _ => ⟨not_le.mpr hneg, htrans⟩
      · next hpos => simp [hopen', not_lt.mp hpos]

/-- The records of a hook go in, and what a poll hands on comes out. -/
theorem moduleStep_exchange {su : DiagSetup} (hfifo : BuffersFifo su) {s : ModuleState}
    (hs : FiledIn su s.queues) (i : DiagInput) :
    (moduleStep su s i).1.maps = (emitStep su s.maps i).1 ∧
      Exchange (Buffered.place su.mux.transport) s.queues (emitStep su s.maps i).2
        (moduleStep su s i).2 (moduleStep su s i).1.queues := by
  cases i with
  | hook ev cpu room clock => exact ⟨rfl, hfifo.put _ _⟩
  | vb2 ctx call cpu room clock => exact ⟨rfl, hfifo.put _ _⟩
  | poll a now =>
    have hpoll := usbtraceEvmuxPoll_exchange su.mux hfifo hs a
    rw [moduleStep]
    dsimp only [emitStep]
    split
    · exact ⟨rfl, exchange_refl _ _⟩
    · split
      · split
        · exact ⟨rfl, hpoll⟩
        · exact ⟨rfl, hpoll⟩
      · exact ⟨rfl, hpoll⟩

/-- The loop's error is that of the poll it left at. -/
theorem moduleStep_err (su : DiagSetup) {s : ModuleState} (hs : s.broken = true ↔ s.err < 0)
    (i : DiagInput) :
    (moduleStep su s i).1.broken = true ↔ (moduleStep su s i).1.err < 0 := by
  cases i with
  | hook ev cpu room clock => exact hs
  | vb2 ctx call cpu room clock => exact hs
  | poll a now =>
    rw [moduleStep]
    dsimp only
    split
    · exact hs
    · split
      · next hneg =>
        split
        · simp
        · simpa using hneg
      · next hpos => simpa using hpos

/-- **A run of the loop.** -/
theorem moduleLoop_exchange {su : DiagSetup} (hfifo : BuffersFifo su) (inputs : List DiagInput) :
    Exchange (Buffered.place su.mux.transport) (fun _ => []) (submitted su inputs)
        (outputs (moduleStep su) ModuleState.start inputs)
        (finalState (moduleStep su) ModuleState.start inputs).queues ∧
      (finalState (moduleStep su) ModuleState.start inputs).maps =
        finalState (emitStep su) ProbeMaps.empty inputs := by
  induction inputs using List.reverseRecOn with
  | nil => exact ⟨exchange_refl _ _, rfl⟩
  | append_singleton is i ih =>
    obtain ⟨hex, hmaps⟩ := ih
    obtain ⟨hmaps', hex'⟩ := moduleStep_exchange hfifo (hex.filed filed_nil) i
    rw [finalState_concat, outputs_concat, submitted, outputs_concat, finalState_concat, ← hmaps]
    exact ⟨hex.trans hex', hmaps'⟩

theorem moduleLoop_broken (su : DiagSetup) (inputs : List DiagInput) :
    (finalState (moduleStep su) ModuleState.start inputs).broken = false ↔
      EveryStep (moduleStep su) (PollFine su) ModuleState.start inputs := by
  induction inputs using List.reverseRecOn with
  | nil => exact Iff.intro (fun _ => trivial) fun _ => rfl
  | append_singleton is i ih =>
    rw [finalState_concat, everyStep_concat, ← ih]
    exact moduleStep_broken su _ i

theorem moduleLoop_err (su : DiagSetup) (inputs : List DiagInput) :
    (finalState (moduleStep su) ModuleState.start inputs).broken = true ↔
      (finalState (moduleStep su) ModuleState.start inputs).err < 0 := by
  refine finalState_induct (I := fun s : ModuleState => s.broken = true ↔ s.err < 0) ?_ ?_ inputs
  · exact fun s i hs => moduleStep_err su hs i
  · decide

/-! ## Ways out -/

/-- What has to succeed before a module polls. -/
structure ComesUp (w : ModuleWorld) : Prop where
  opens : w.probe.opens = true
  hooks : w.probe.hooks ≠ 0
  load : w.probe.load = 0
  attach : w.probe.attach = 0
  alloc : w.muxAlloc = true
  epoll : w.transport = .perf → w.muxEpoll = true
  fd : 0 ≤ w.add.fd
  opened : w.add.opened = 0
  cpus : w.transport = .perf → addCpus w.add.cpus = 0

theorem usbtraceEvmuxNew_cases (transport : Transport) (alloc epoll : Bool) :
    (usbtraceEvmuxNew transport alloc epoll).1 = none ∧
        ¬(alloc = true ∧ (transport = .perf → epoll = true)) ∨
      (usbtraceEvmuxNew transport alloc epoll).1 = some ⟨transport, []⟩ ∧
        alloc = true ∧ (transport = .perf → epoll = true) := by
  cases alloc with
  | false => exact .inl ⟨rfl, fun h => by cases h.1⟩
  | true =>
    cases transport with
    | ringbuf => exact .inr ⟨rfl, rfl, nofun⟩
    | perf =>
      cases epoll with
      | false => exact .inl ⟨rfl, fun h => by cases h.2 rfl⟩
      | true => exact .inr ⟨rfl, rfl, fun _ => rfl⟩

/-- The first map joins, or the consumer stays empty and says why. -/
theorem usbtraceEvmuxAdd_first (transport : Transport) (s : Source) (a : AddAnswer) :
    (usbtraceEvmuxAdd ⟨transport, []⟩ s a).2.1 ≠ 0 ∧
        ¬(0 ≤ a.fd ∧ a.opened = 0 ∧ (transport = .perf → addCpus a.cpus = 0)) ∨
      (usbtraceEvmuxAdd ⟨transport, []⟩ s a).2.1 = 0 ∧
        (usbtraceEvmuxAdd ⟨transport, []⟩ s a).1 = ⟨transport, [s]⟩ ∧
        0 ≤ a.fd ∧ a.opened = 0 ∧ (transport = .perf → addCpus a.cpus = 0) := by
  unfold usbtraceEvmuxAdd
  split
  · next hfd => exact .inl ⟨neg_ne_zero.mpr (by decide), fun h => absurd h.1 (not_le.mpr hfd)⟩
  · next hfd =>
    cases transport with
    | perf =>
      dsimp only
      rw [if_neg (by decide)]
      split
      · next hopened => exact .inl ⟨hopened, fun h => hopened h.2.1⟩
      · next hopened =>
        split
        · next hcpus => exact .inl ⟨hcpus, fun h => hcpus (h.2.2 rfl)⟩
        · next hcpus =>
          exact .inr ⟨rfl, rfl, not_lt.mp hfd, not_not.mp hopened, fun _ => not_not.mp hcpus⟩
    | ringbuf =>
      dsimp only
      split
      · next hopened => exact .inl ⟨hopened, fun h => hopened h.2.1⟩
      · next hopened => exact .inr ⟨rfl, rfl, not_lt.mp hfd, not_not.mp hopened, nofun⟩

/-- What a run returns when its loop leaves with `err` (run.c:71-78). -/
def exitCode (err : ℤ) : ℤ := if err > 0 then 0 else if err ≠ 0 then 1 else 0

/-- **Two ways out**: before the loop, or after it. -/
theorem moduleRun_cases (s : Source) (w : ModuleWorld) :
    (moduleRun s w).session = none ∧ (moduleRun s w).code = 1 ∧ ¬ComesUp w ∨
      (moduleRun s w).session =
          some (outputs (moduleStep (w.setup s)) ModuleState.start w.inputs) ∧
        (moduleRun s w).code =
          exitCode (finalState (moduleStep (w.setup s)) ModuleState.start w.inputs).err ∧
        ComesUp w := by
  unfold moduleRun
  split
  · next hopens => exact .inl ⟨rfl, rfl, fun h => by simp [h.opens] at hopens⟩
  · next hopens =>
    unfold usbtraceRun
    split
    · next hprobe =>
      exact .inl ⟨rfl, rfl, fun h => by simp [h.hooks, h.load, h.attach] at hprobe⟩
    · next hprobe =>
      simp only [Bool.or_eq_true, decide_eq_true_eq, not_or, not_not] at hprobe
      obtain ⟨⟨hhooks, hload⟩, hattach⟩ := hprobe
      dsimp only
      rcases usbtraceEvmuxNew_cases w.transport w.muxAlloc w.muxEpoll with
        ⟨hnew, hnot⟩ | ⟨hnew, halloc, hepoll⟩
      · rw [hnew]
        exact .inl ⟨rfl, rfl, fun h => hnot ⟨h.alloc, h.epoll⟩⟩
      · rw [hnew]
        dsimp only
        rcases usbtraceEvmuxAdd_first w.transport s w.add with
          ⟨herr, hnot⟩ | ⟨herr, hmux, hfd, hopened, hcpus⟩
        · rw [if_pos herr]
          exact .inl ⟨rfl, rfl, fun h => hnot ⟨h.fd, h.opened, h.cpus⟩⟩
        · rw [if_neg (not_not.mpr herr), hmux]
          exact .inr ⟨rfl, rfl, ⟨by simpa using hopens, hhooks, hload, hattach, halloc, hepoll, hfd,
            hopened, hcpus⟩⟩

theorem exitCode_eq (err : ℤ) : exitCode err = if err < 0 then 1 else 0 := by
  unfold exitCode
  split_ifs <;> omega

/-! ## What is given back -/

/-- `usbtrace_run` leaves the skeleton it was handed, and nothing else. -/
theorem usbtraceRun_held (s : Source) (w : ModuleWorld) :
    heldAfter {.skeleton s} (usbtraceRun s w).uses = some {.skeleton s} := by
  have hF : ∀ x ∈ ({.skeleton s} : Finset Resource), ofMux x = false := by
    intro x hx
    rw [Finset.mem_singleton.mp hx]
    rfl
  unfold usbtraceRun
  split
  · rfl
  · have hnew := usbtraceEvmuxNew_held hF w.transport w.muxAlloc w.muxEpoll
    generalize hnewEq : usbtraceEvmuxNew w.transport w.muxAlloc w.muxEpoll = new at hnew
    obtain ⟨mux, news⟩ := new
    cases mux with
    | none => exact hnew.trans (by simp [muxHeld])
    | some m =>
      have hempty : m.srcs = [] := usbtraceEvmuxNew_srcs (congrArg Prod.fst hnewEq)
      have hsrcs : (usbtraceEvmuxAdd m s w.add).1.srcs.Nodup := by
        rcases usbtraceEvmuxAdd_cases m s w.add with ⟨hm, -⟩ | ⟨hm, -⟩
        · rw [hm, hempty]
          exact List.nodup_nil
        · rw [hm]
          simp [hempty]
      have hfresh : s ∉ m.srcs := by simp [hempty]
      have hadd := (heldAfter_append hnew _).trans (usbtraceEvmuxAdd_held hF hfresh w.add)
      have hfree := heldAfter_giveBack (nodup_muxHeld hsrcs) fun r hr =>
        not_mem_of_ofMux hF (ofMux_of_held hr)
      rw [← usbtraceEvmuxFree_eq] at hfree
      have hall := (heldAfter_append hadd _).trans hfree
      dsimp only
      split
      · exact hall
      · exact hall

theorem moduleRun_held (s : Source) (w : ModuleWorld) :
    heldAfter ∅ (moduleRun s w).uses = some ∅ := by
  unfold moduleRun
  split
  · rfl
  · have hrun := usbtraceRun_held s w
    have hopen : heldAfter ∅ (.acquire (.skeleton s) :: (usbtraceRun s w).uses) =
        some {.skeleton s} :=
      (heldAfter_acquire (Finset.notMem_empty _) _).trans hrun
    refine (heldAfter_append hopen [.release (.skeleton s)]).trans ?_
    rw [heldAfter_release (Finset.mem_singleton_self _), Finset.erase_singleton]
    rfl

/-- **The run of a module**: on every way out, nothing is acquired twice or released that is not
held, and everything is given back; the callback is handed records, between `on_start` and
`on_stop`, exactly if everything before the loop succeeds; and the module returns 0 exactly if
it does and every poll succeeds or is interrupted, and 1 otherwise.
SOURCE: run.c:14-79, enum.c:115-136, evmux.c:79-232 -/
theorem moduleRun_balanced (s : Source) (w : ModuleWorld) :
    heldAfter ∅ (moduleRun s w).uses = some ∅ ∧
      (∀ r, (moduleRun s w).uses.count (.acquire r) = (moduleRun s w).uses.count (.release r)) ∧
      ((moduleRun s w).session.isSome = true ↔ ComesUp w) ∧
      ((moduleRun s w).code = 0 ↔ ComesUp w ∧
        EveryStep (moduleStep (w.setup s)) (PollFine (w.setup s)) ModuleState.start w.inputs) ∧
      ((moduleRun s w).code = 0 ∨ (moduleRun s w).code = 1) := by
  refine ⟨moduleRun_held s w, fun r => ?_, ?_⟩
  · simpa only [Finset.notMem_empty, if_false, Nat.add_zero] using
      heldAfter_count (moduleRun_held s w) r
  · rcases moduleRun_cases s w with ⟨hsession, hcode, hdown⟩ | ⟨hsession, hcode, hup⟩
    · rw [hsession, hcode]
      exact ⟨by simp [hdown], by simp [hdown], .inr rfl⟩
    · have hfine := moduleLoop_broken (w.setup s) w.inputs
      have herr := moduleLoop_err (w.setup s) w.inputs
      rw [hsession, hcode, exitCode_eq, ← hfine]
      refine ⟨by simp [hup], ?_, ?_⟩
      · rw [← Bool.not_eq_true, herr]
        split
        · next hneg => simp [hneg]
        · next hpos => simp [hpos, hup]
      · split
        · exact .inr rfl
        · exact .inl rfl

/-! ## What is printed -/

theorem TimelineModule.eq_of_source {m n : TimelineModule} (h : n.source = m.source) : m = n := by
  cases m <;> cases n <;> first | rfl | cases h

theorem kind_of_match {α : Type} {ids : Option (UInt16 × UInt16)} {fill : UInt16 × UInt16 → α}
    {wrap : α → Record} {kind : EventKind} (h : ∀ p, (wrap (fill p)).hdr.kind = kind) :
    ∀ r ∈ ((ids.map fill).map wrap).toList, r.hdr.kind = kind := by
  intro r hr
  obtain ⟨e, he, rfl⟩ := Option.map_eq_some_iff.mp (Option.mem_toList.mp hr)
  obtain ⟨p, -, rfl⟩ := Option.map_eq_some_iff.mp he
  exact h p

/-- A hook of the module makes records of its kind. -/
theorem probeStep_timeline {m : TimelineModule} {ev : KernelEvent}
    (hev : ev.call.source = m.source) (cfg : FilterConfig) (maps : ProbeMaps) :
    ∀ r ∈ (probeStep cfg maps ev).2, r.hdr.kind = moduleKind m.events := by
  unfold probeStep
  cases hcall : ev.call with
  | setState oldState newState =>
    rw [hcall] at hev
    obtain rfl := TimelineModule.eq_of_source (n := .enum) hev
    exact kind_of_match fun _ => rfl
  | enumExit step state ret =>
    rw [hcall] at hev
    obtain rfl := TimelineModule.eq_of_source (n := .enum) hev
    exact kind_of_match fun _ => rfl
  | newDevice ret =>
    rw [hcall] at hev
    obtain rfl := TimelineModule.eq_of_source (n := .lifecycle) hev
    dsimp only
    split
    · exact fun r hr => absurd hr List.not_mem_nil
    · exact kind_of_match fun _ => rfl
  | disconnect =>
    rw [hcall] at hev
    obtain rfl := TimelineModule.eq_of_source (n := .lifecycle) hev
    exact kind_of_match fun _ => rfl
  | resetDevice resetResume =>
    rw [hcall] at hev
    obtain rfl := TimelineModule.eq_of_source (n := .lifecycle) hev
    exact kind_of_match fun _ => rfl
  | power action =>
    rw [hcall] at hev
    obtain rfl := TimelineModule.eq_of_source (n := .power) hev
    exact kind_of_match fun _ => rfl
  | hub port1 action warm ocCount =>
    rw [hcall] at hev
    obtain rfl := TimelineModule.eq_of_source (n := .hub) hev
    exact kind_of_match fun _ => rfl
  | classUrb mod urb =>
    rw [hcall] at hev
    cases m <;> cases mod <;> cases hev
  | videoComplete urb =>
    rw [hcall] at hev
    cases m <;> cases hev
  | submit urb =>
    rw [hcall] at hev
    cases m <;> cases hev
  | giveback urb status =>
    rw [hcall] at hev
    cases m <;> cases hev

theorem source_of_eventOutput {s : Source} {cpu : ℕ} {room : ℕ → Bool} {clock : ℕ → ℕ → UInt64}
    {rs : List Record} {r : Buffered} (h : r ∈ eventOutput s cpu room clock rs) :
    r.source = s := by
  obtain ⟨p, -, rfl⟩ := List.mem_map.mp h
  rfl

/-- The module's hooks read no setup packet. -/
theorem hookSized_timeline {m : TimelineModule} {ev : KernelEvent}
    (hev : ev.call.source = m.source) : HookSized ev := by
  constructor
  · intro urb hcall
    rw [hcall] at hev
    cases m <;> cases hev
  · intro urb status hcall
    rw [hcall] at hev
    cases m <;> cases hev

/-- What is put into the module's map. -/
theorem emitStep_timeline (m : TimelineModule) (w : ModuleWorld) (maps : ProbeMaps)
    (i : DiagInput) :
    ∀ r ∈ (emitStep (w.setup m.source) maps i).2, r.source = m.source ∧
      r.record.hdr.kind = moduleKind m.events ∧ WellFormed r.record := by
  intro r hr
  cases i with
  | hook ev cpu room clock =>
    rw [emitStep] at hr
    split at hr
    · next hlive =>
      have hsource := List.mem_singleton.mp hlive
      have hmem := mem_eventOutput hr
      exact ⟨(source_of_eventOutput hr).trans hsource,
        probeStep_timeline hsource w.cfg maps _ hmem,
        probeStep_wellFormed (hookSized_timeline hsource) w.cfg maps _ hmem⟩
    · exact absurd hr List.not_mem_nil
  | vb2 ctx call cpu room clock =>
    rw [emitStep] at hr
    split at hr
    · next hlive => cases m <;> cases List.mem_singleton.mp hlive
    · exact absurd hr List.not_mem_nil
  | poll a now => exact absurd hr List.not_mem_nil

/-- Lines of records that are all printed. -/
theorem filterMap_reads {α : Type} {f : α → Option CStr} {g : α → List Member} {xs : List α}
    (h : ∀ x ∈ xs, ∃ line, f x = some line ∧ ReadsAs line (g x)) :
    List.Forall₂ ReadsAs (xs.filterMap f) (xs.map g) := by
  induction xs with
  | nil => exact .nil
  | cons x xs ih =>
    obtain ⟨line, hline, hread⟩ := h x List.mem_cons_self
    rw [List.filterMap_cons_some hline]
    exact .cons hread (ih fun y hy => h y (List.mem_cons_of_mem x hy))

/-- **From the hooks to the lines.**  What a module that runs alone prints are the JSON objects
of records its hooks put into its map: of each buffer the first ones, in order, and with a ring
buffer the first ones of all; whatever the buffers' memory held before, and whatever follows a
record there.
SOURCE: run.c:14-79, evmux.c:79-232, enum.bpf.c:50-83, enum.c:64-136 and its likes -/
theorem moduleRun_prints (m : TimelineModule) (w : ModuleWorld)
    (hfifo : BuffersFifo (w.setup m.source)) (fill : Buffered → ℕ → UInt8)
    (rest : Buffered → List UInt8) :
    ∃ rs, List.Forall₂ ReadsAs
        (m.printed (fun r => r.record.inMemory (fill r) ++ rest r) w)
        (rs.map fun r => lineMembers r.record) ∧
      (∀ pl, inPlace (w.setup m.source) pl rs <+:
        inPlace (w.setup m.source) pl (submitted (w.setup m.source) w.inputs)) ∧
      (w.transport = .ringbuf → rs <+: submitted (w.setup m.source) w.inputs) := by
  rcases moduleRun_cases m.source w with ⟨hsession, -⟩ | ⟨hsession, -⟩
  · rw [TimelineModule.printed, hsession]
    exact ⟨[], .nil, fun _ => List.nil_prefix, fun _ => List.nil_prefix⟩
  · rw [TimelineModule.printed, hsession, Option.getD_some]
    have hplaces : ∀ pl, inPlace (w.setup m.source) pl
          (outputs (moduleStep (w.setup m.source)) ModuleState.start w.inputs) <+:
        inPlace (w.setup m.source) pl (submitted (w.setup m.source) w.inputs) :=
      fun pl => ⟨_, (moduleLoop_exchange hfifo w.inputs).1 pl⟩
    have hmem : ∀ r ∈ outputs (moduleStep (w.setup m.source)) ModuleState.start w.inputs,
        r ∈ submitted (w.setup m.source) w.inputs := by
      intro r hr
      have hown : r ∈ inPlace (w.setup m.source) (r.place w.transport)
          (outputs (moduleStep (w.setup m.source)) ModuleState.start w.inputs) :=
        List.mem_filter.mpr ⟨hr, decide_eq_true rfl⟩
      exact (List.mem_filter.mp ((hplaces _).subset hown)).1
    have hsource : ∀ r ∈ submitted (w.setup m.source) w.inputs, r.source = m.source := by
      intro r hr
      obtain ⟨pre, i, post, -, hemit⟩ := mem_outputs hr
      exact (emitStep_timeline m w _ i r hemit).1
    refine ⟨_, filterMap_reads fun r hr => ?_, hplaces, fun hring => ?_⟩
    · obtain ⟨pre, i, post, -, hemit⟩ := mem_outputs (hmem r hr)
      obtain ⟨-, hkind, hform⟩ := emitStep_timeline m w _ i r hemit
      obtain ⟨line, hline, hread⟩ := moduleLine_reads m.events
        (inMemory_holds hform (fill r) (rest r)) hkind hform.terminated
      exact ⟨line, hline, hread⟩
    · -- there is one buffer
      have hone : ∀ rs : List Buffered, (∀ r ∈ rs, r.source = m.source) →
          inPlace (w.setup m.source) ⟨m.source, 0⟩ rs = rs := by
        intro rs hrs
        refine List.filter_eq_self.mpr fun r hr => decide_eq_true ?_
        show Transport.place w.transport r.source r.cpu = _
        rw [hring, hrs r hr]
        rfl
      have hprefix := hplaces ⟨m.source, 0⟩
      rw [hone _ hsource, hone _ fun r hr => hsource r (hmem r hr)] at hprefix
      exact hprefix

/-- A device is enumerated, and the enum module prints what it was handed: the first of the
three records at an interrupted poll, the second at the next. -/
theorem moduleRun_prints_sample :
    let hook (call : HookCall) (now : UInt64) : DiagInput := .hook
      { now := now, task := { tgid := 42, comm := [0x6b, 0x68] }
        dev := { idVendor := 0x046d, busnum := 1, devnum := 2, devpath := [0x31] }, call := call }
      0 (fun _ => true) fun _ _ => now
    let w : ModuleWorld :=
      { cfg := {}, transport := .ringbuf
        inputs := [hook (.setState 5 6) 1, hook (.enumExit 2 6 0) 2,
          .poll { visits := [(.enum, 1)], result := -eintr } 3, hook (.setState 6 7) 4,
          .poll { visits := [(.enum, 1)], result := 1 } 5] }
    ((moduleRun .enum w).session.getD []).map (fun r => r.record.hdr.tsNs) = [1, 2] ∧
      ∃ rs, List.Forall₂ ReadsAs
          (TimelineModule.enum.printed
            (fun r => r.record.inMemory (fun _ => 0xaa) ++ [1, 2, 3]) w)
          (rs.map fun r => lineMembers r.record) ∧
        (∀ pl, inPlace (w.setup .enum) pl rs <+:
          inPlace (w.setup .enum) pl (submitted (w.setup .enum) w.inputs)) ∧
        (w.transport = .ringbuf → rs <+: submitted (w.setup .enum) w.inputs) := by
  intro hook w
  exact ⟨by decide +kernel, moduleRun_prints .enum w (listLanes_fifo _) (fun _ _ => 0xaa)
    fun _ => [1, 2, 3]⟩

end UsbTrace.Analysis

import UsbTrace.Analysis.TickSchedule

/-!
# From the hooks to the engine

Records wait in their module's buffer until a poll hands them on: with the ring buffer one buffer
for each module, with perf one for each module and CPU.  That a buffer keeps its records and
their order is libbpf's and the kernel's part (`BuffersFifo`).  Whatever the polls visit and
however many records each of them takes, the records handed on from a buffer, followed by those
that still wait in it, are then the records the hooks put into it, in order (`delivered_fifo`).
-/

set_option autoImplicit false

namespace UsbTrace.Analysis

open UsbTrace.Model UsbTrace.Library

/-- The record an action hands to the engine. -/
def handedOn : LoopAction → Option Buffered
  | .deliver w => some w
  | .tick _ => none

def delivered (acts : List LoopAction) : List Buffered := acts.filterMap handedOn

@[simp] theorem delivered_append (as bs : List LoopAction) :
    delivered (as ++ bs) = delivered as ++ delivered bs := List.filterMap_append

@[simp] theorem delivered_deliver (ws : List Buffered) :
    delivered (ws.map LoopAction.deliver) = ws := by
  induction ws with
  | nil => rfl
  | cons w ws ih => exact congrArg (w :: ·) ih

@[simp] theorem delivered_tick (nowNs : UInt64) : delivered [.tick nowNs] = [] := rfl

/-- A turn of a loop that goes on hands on what its poll did. -/
theorem delivered_loopTurn {s : LoopState} (hs : s.broken = false) (t : PollTurn) :
    delivered (loopTurn s t).2 = t.delivered := by
  have hopen : ¬(s.broken = true) := by rw [hs]; exact Bool.false_ne_true
  rw [loopTurn, if_neg hopen]
  dsimp only
  split
  · split <;> exact delivered_deliver _
  · split
    · rw [delivered_append, delivered_deliver, delivered_tick, List.append_nil]
    · exact delivered_deliver _

/-! ## One poll -/

section Poll

variable {buffers : Buffers} {qs : Queues}

theorem perfConsume_exchange (hfifo : buffers.Fifo (Buffered.place .perf))
    (consume : Source → List (ℕ × ℕ) × ℤ) (hqs : Filed (Buffered.place .perf) qs)
    (srcs : List Source) :
    Exchange (Buffered.place .perf) qs [] (perfConsume buffers consume qs srcs).2.1
      (perfConsume buffers consume qs srcs).1 := by
  induction srcs generalizing qs with
  | nil => exact exchange_refl _ qs
  | cons s rest ih =>
    have hvisits := hfifo.takeVisits hqs (perfVisits s (consume s).1)
    rw [perfConsume]
    dsimp only
    split
    · exact hvisits
    · exact hvisits.trans (ih (hvisits.filed hqs))

/-- **A poll takes from the buffers in their order**, whatever it is answered. -/
theorem usbtraceEvmuxPoll_exchange (m : Evmux) (hfifo : buffers.Fifo (Buffered.place m.transport))
    (hqs : Filed (Buffered.place m.transport) qs) (a : PollAnswer) :
    Exchange (Buffered.place m.transport) qs [] (usbtraceEvmuxPoll buffers m qs a).2.1
      (usbtraceEvmuxPoll buffers m qs a).1 := by
  rw [usbtraceEvmuxPoll]
  split
  · exact exchange_refl _ qs
  · cases htr : m.transport with
    | perf =>
      rw [htr] at hqs hfifo
      dsimp only
      split
      · exact exchange_refl _ qs
      · exact perfConsume_exchange hfifo a.consume hqs m.srcs
    | ringbuf =>
      rw [htr] at hqs hfifo
      exact hfifo.takeVisits hqs (ringVisits m.srcs a.visits)

theorem perfConsume_source (hfifo : buffers.Fifo (Buffered.place .perf))
    (consume : Source → List (ℕ × ℕ) × ℤ) (hqs : Filed (Buffered.place .perf) qs)
    {srcs : List Source} {w : Buffered} (h : w ∈ (perfConsume buffers consume qs srcs).2.1) :
    w.source ∈ srcs := by
  induction srcs generalizing qs with
  | nil => exact absurd h List.not_mem_nil
  | cons s rest ih =>
    have hfirst : w ∈ (takeVisits buffers qs (perfVisits s (consume s).1)).2 →
        w.source ∈ s :: rest := by
      intro hw
      obtain ⟨v, hv, hplace⟩ := hfifo.mem_takeVisits hqs hw
      obtain ⟨c, -, rfl⟩ := List.mem_map.mp hv
      exact List.mem_cons.mpr (.inl (congrArg Place.source hplace))
    rw [perfConsume] at h
    dsimp only at h
    split at h
    · exact hfirst h
    · rcases List.mem_append.mp h with h | h
      · exact hfirst h
      · have hvisits := hfifo.takeVisits hqs (perfVisits s (consume s).1)
        exact List.mem_cons_of_mem s (ih (hvisits.filed hqs) h)

/-- Only maps that joined the consumer are drained. -/
theorem usbtraceEvmuxPoll_source (m : Evmux) (hfifo : buffers.Fifo (Buffered.place m.transport))
    (hqs : Filed (Buffered.place m.transport) qs) (a : PollAnswer) {w : Buffered}
    (h : w ∈ (usbtraceEvmuxPoll buffers m qs a).2.1) : w.source ∈ m.srcs := by
  rw [usbtraceEvmuxPoll] at h
  split at h
  · exact absurd h List.not_mem_nil
  · cases htr : m.transport with
    | perf =>
      rw [htr] at hqs h hfifo
      dsimp only at h
      split at h
      · exact absurd h List.not_mem_nil
      · exact perfConsume_source hfifo a.consume hqs h
    | ringbuf =>
      rw [htr] at hqs h hfifo
      obtain ⟨v, hv, hplace⟩ := hfifo.mem_takeVisits hqs h
      obtain ⟨u, hu, rfl⟩ := List.mem_map.mp hv
      have hsrc : w.source = u.1 := congrArg Place.source hplace
      rw [hsrc]
      exact of_decide_eq_true (List.mem_filter.mp hu).2

end Poll

/-! ## Whole runs -/

/-- The records the hooks put into the buffers. -/
def submitted (su : DiagSetup) (inputs : List DiagInput) : List Buffered :=
  outputs (emitStep su) ProbeMaps.empty inputs

/-- The turns of the poll loop in a run. -/
def turnStep (su : DiagSetup) (s : DiagState) (i : DiagInput) : DiagState × List PollTurn :=
  ((diagStep su s i).1,
    match i with
    | .poll a now =>
      let (_, out, ret) := usbtraceEvmuxPoll su.buffers su.mux s.queues a
      [⟨out, ret, now⟩]
    | _ => [])

def diagTurns (su : DiagSetup) (start : UInt64) (inputs : List DiagInput) : List PollTurn :=
  outputs (turnStep su) (DiagState.start start) inputs

/-- The buffers neither lose nor reorder records. -/
def BuffersFifo (su : DiagSetup) : Prop := su.buffers.Fifo (Buffered.place su.mux.transport)

/-- The records are in their buffers. -/
def FiledIn (su : DiagSetup) (qs : Queues) : Prop :=
  Filed (Buffered.place su.mux.transport) qs

theorem filedIn_start (su : DiagSetup) (now : UInt64) :
    FiledIn su (DiagState.start now).queues := filed_nil

/-- The probes' maps do not depend on the loop. -/
theorem diagStep_maps (su : DiagSetup) (s : DiagState) (i : DiagInput) :
    (diagStep su s i).1.maps = (emitStep su s.maps i).1 := by
  cases i with
  | hook ev cpu room clock => rfl
  | vb2 ctx call cpu room clock => rfl
  | poll a now =>
    rw [diagStep]
    dsimp only
    split <;> rfl

section Runs

variable {su : DiagSetup} {s : DiagState}

/-- **One step**: the hook's records go in, and what a poll hands on comes out. -/
theorem diagStep_exchange (hfifo : BuffersFifo su) (hs : FiledIn su s.queues) (i : DiagInput) :
    Exchange (Buffered.place su.mux.transport) s.queues (emitStep su s.maps i).2
      (delivered (diagStep su s i).2) (diagStep su s i).1.queues := by
  cases i with
  | hook ev cpu room clock => exact hfifo.put _ _
  | vb2 ctx call cpu room clock => exact hfifo.put _ _
  | poll a now =>
    rw [diagStep]
    dsimp only [emitStep]
    split
    · exact exchange_refl _ _
    · next hopen =>
      rw [delivered_loopTurn (Bool.eq_false_of_not_eq_true hopen)]
      exact usbtraceEvmuxPoll_exchange su.mux hfifo hs a

theorem diagRun_exchange (hfifo : BuffersFifo su) (hs : FiledIn su s.queues)
    (inputs : List DiagInput) :
    Exchange (Buffered.place su.mux.transport) s.queues (outputs (emitStep su) s.maps inputs)
      (delivered (outputs (diagStep su) s inputs)) (finalState (diagStep su) s inputs).queues := by
  induction inputs generalizing s with
  | nil => exact exchange_refl _ _
  | cons i is ih =>
    have hstep := diagStep_exchange hfifo hs i
    rw [outputs_cons, outputs_cons, delivered_append, finalState_cons, ← diagStep_maps]
    exact hstep.trans (ih (hstep.filed hs))

theorem diagStep_source (hfifo : BuffersFifo su) (hs : FiledIn su s.queues) (i : DiagInput) :
    ∀ w ∈ delivered (diagStep su s i).2, w.source ∈ su.mux.srcs := by
  intro w hw
  cases i with
  | hook ev cpu room clock => exact absurd hw List.not_mem_nil
  | vb2 ctx call cpu room clock => exact absurd hw List.not_mem_nil
  | poll a now =>
    rw [diagStep] at hw
    dsimp only at hw
    split at hw
    · exact absurd hw List.not_mem_nil
    · next hopen =>
      rw [delivered_loopTurn (Bool.eq_false_of_not_eq_true hopen)] at hw
      exact usbtraceEvmuxPoll_source su.mux hfifo hs a hw

theorem diagRun_source (hfifo : BuffersFifo su) (hs : FiledIn su s.queues)
    (inputs : List DiagInput) :
    ∀ w ∈ delivered (outputs (diagStep su) s inputs), w.source ∈ su.mux.srcs := by
  induction inputs generalizing s with
  | nil => exact fun w hw => absurd hw List.not_mem_nil
  | cons i is ih =>
    intro w hw
    rw [outputs_cons, delivered_append] at hw
    rcases List.mem_append.mp hw with hw | hw
    · exact diagStep_source hfifo hs i w hw
    · exact ih ((diagStep_exchange hfifo hs i).filed hs) w hw

/-- The records of one buffer. -/
def inPlace (su : DiagSetup) (pl : Place) (ws : List Buffered) : List Buffered :=
  ws.filter fun w => w.place su.mux.transport = pl

/-- **Records are handed on in order**: with buffers that keep theirs, the records the engine was
given from a buffer and those that still wait in it are the records the hooks put there, in every
run; and the engine is given records of joined maps only.
SOURCE: diag.c:342-350, 471-524, evmux.c:137-224 -/
theorem delivered_fifo (hfifo : BuffersFifo su) (start : UInt64) (inputs : List DiagInput) :
    (∀ pl, inPlace su pl (delivered (outputs (diagStep su) (DiagState.start start) inputs)) ++
        (finalState (diagStep su) (DiagState.start start) inputs).queues pl =
        inPlace su pl (submitted su inputs)) ∧
      ∀ w ∈ delivered (outputs (diagStep su) (DiagState.start start) inputs),
        w.source ∈ su.mux.srcs :=
  ⟨diagRun_exchange hfifo (filedIn_start su start) inputs,
    diagRun_source hfifo (filedIn_start su start) inputs⟩

end Runs

/-! ## The loop in a run -/

/-- In a run the loop takes one turn for each poll, so that what holds of the loop's turns
holds of the run. -/
theorem diagStep_outputs (su : DiagSetup) (s : DiagState) (inputs : List DiagInput) :
    outputs (diagStep su) s inputs = outputs loopTurn s.loop (outputs (turnStep su) s inputs) := by
  induction inputs generalizing s with
  | nil => rfl
  | cons i is ih =>
    rw [outputs_cons, outputs_cons, outputs_append, ih]
    cases i with
    | hook ev cpu room clock => rfl
    | vb2 ctx call cpu room clock => rfl
    | poll a now =>
      have hstep : (diagStep su s (.poll a now)).1.loop = finalState loopTurn s.loop
            (turnStep su s (.poll a now)).2 ∧
          (diagStep su s (.poll a now)).2 = outputs loopTurn s.loop
            (turnStep su s (.poll a now)).2 := by
        rw [turnStep, diagStep]
        dsimp only
        split
        · next hbroken =>
          rw [finalState_cons, outputs_cons, loopTurn, if_pos hbroken]
          exact ⟨rfl, rfl⟩
        · rw [finalState_cons, outputs_cons]
          exact ⟨rfl, (List.append_nil _).symm⟩
      rw [hstep.2, ← hstep.1]
      rfl

/-- The loop of a run is the poll loop on the turns of the run. -/
theorem diagActions_eq (su : DiagSetup) (start : UInt64) (inputs : List DiagInput) :
    outputs (diagStep su) (DiagState.start start) inputs =
      loopActions start (diagTurns su start inputs) :=
  diagStep_outputs su (DiagState.start start) inputs

end UsbTrace.Analysis

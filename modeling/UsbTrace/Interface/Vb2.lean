import UsbTrace.Interface.Stream

/-!
# Queue events

What the uvc program does at a videobuf2 tracepoint and at a starvation check, said once:
it reports nothing, or it submits one record about one queue (`vb2Step_cases`,
`uvcCheckStarvation_cases`).  The two maps the device of a record depends on, `stream_corr`
and `vb2_dev_queue`, change at a wire frame and at a submission only.
-/

set_option autoImplicit false

namespace UsbTrace.Interface

open UsbTrace.Model UsbTrace.Library

/-- The queue a tracepoint fires for. -/
def vb2Queue : Vb2Hook → UInt64
  | .bufDone b => b.vb2Queue
  | .bufQueue q _ => q
  | .qbuf q _ => q
  | .dqbuf q _ => q

/-- The size of a completed buffer is plausible, or unknown. -/
def plausibleSize (bytesused : UInt32) : Bool :=
  bytesused = 0 || (vb2MinBytes ≤ bytesused && bytesused ≤ vb2MaxBytes)

/-- The program reports the tracepoint. -/
def vb2Reports : Vb2Hook → Bool
  | .bufDone b => plausibleSize b.bytesused && b.vb2Queue ≠ 0
  | .bufQueue q b => q ≠ 0 && vb2IsCapture b
  | .qbuf q b => q ≠ 0 && vb2IsCapture b
  | .dqbuf q b => q ≠ 0 && vb2IsCapture b

/-- The vb2 events among the records of the uvc module. -/
def vb2Of (out : List Record) : List UvcVb2Event :=
  out.filterMap fun r => match r with
    | .uvcVb2 e => some e
    | _ => none

@[simp] theorem vb2Of_nil : vb2Of [] = [] := rfl

@[simp] theorem vb2Of_append (a b : List Record) : vb2Of (a ++ b) = vb2Of a ++ vb2Of b :=
  List.filterMap_append

@[simp] theorem vb2Of_frame (e : UvcFrameEvent) (rs : List Record) :
    vb2Of (.uvcFrame e :: rs) = vb2Of rs := rfl

@[simp] theorem vb2Of_vb2 (e : UvcVb2Event) (rs : List Record) :
    vb2Of (.uvcVb2 e :: rs) = e :: vb2Of rs := rfl

/-- The wire frames and the queues bound are the same in both. -/
structure SameDevices (m m' : UvcMaps) : Prop where
  streamCorr : m'.streamCorr = m.streamCorr
  vb2DevQueue : m'.vb2DevQueue = m.vb2DevQueue

theorem SameDevices.refl (m : UvcMaps) : SameDevices m m := ⟨rfl, rfl⟩

/-- One record about the queue is submitted, or nothing is. -/
def Submitted (ctx : HookCtx) (m : UvcMaps) (q : UInt64) (r : UvcMaps × List Record) : Prop :=
  (r.2 = [] ∧ SameDevices m r.1) ∨
    ∃ m' b op state starved seq seqGap interval wire, SameDevices m m' ∧
      r = uvcVb2Submit ctx m' q b op state starved ctx.now seq seqGap interval wire

theorem uvcVb2Qstate_same (m : UvcMaps) (key : UInt64) :
    SameDevices m (uvcVb2Qstate m key).1 := ⟨rfl, rfl⟩

/-- A completed buffer of a plausible size is reported, where its queue has a state. -/
theorem uvcEmitVb2Done_eq (ctx : HookCtx) (m : UvcMaps) (b : Vb2Buffer) :
    uvcEmitVb2Done ctx m b vb2BufStateDone =
      if (plausibleSize b.bytesused && b.vb2Queue ≠ 0) = true then
        match uvcVb2Qstate m b.vb2Queue with
        | (m, none) => (m, [])
        | (m, some st) =>
          let (seq, seqGap, interval, st) := vb2NoteDone st b.sequence ctx.now
          let m := { m with vb2Queues := m.vb2Queues.update b.vb2Queue st }
          uvcVb2Submit ctx m b.vb2Queue (some b) uvcVb2Done vb2BufStateDone 0 ctx.now seq seqGap
            interval (uvcWireToVb2Ns m ctx.now b.bytesused)
      else (m, []) := by
  have hsize : plausibleSize b.bytesused = true ↔
      ¬(b.bytesused ≠ 0 ∧ (b.bytesused < vb2MinBytes ∨ b.bytesused > vb2MaxBytes)) := by
    simp only [plausibleSize, Bool.or_eq_true, Bool.and_eq_true, decide_eq_true_eq]
    rw [gt_iff_lt, ← UInt32.not_le, ← UInt32.not_le]
    tauto
  unfold uvcEmitVb2Done
  rw [if_neg (by simp)]
  by_cases h : b.bytesused ≠ 0 ∧ (b.bytesused < vb2MinBytes ∨ b.bytesused > vb2MaxBytes)
  · have hno : plausibleSize b.bytesused = false := by
      rw [← Bool.not_eq_true, hsize, not_not]
      exact h
    rw [if_pos h, hno]
    rfl
  · rw [if_neg h, hsize.mpr h, Bool.true_and]
    by_cases hq : b.vb2Queue = 0
    · rw [if_pos hq, if_neg (by simp [hq])]
    · exact (if_neg hq).trans (if_pos (by simp [hq])).symm

/-- **A tracepoint** reports its own queue, and only where its arguments are those the program
looks for. -/
theorem vb2Step_cases (ctx : HookCtx) (m : UvcMaps) (call : Vb2Hook) :
    Submitted ctx m (vb2Queue call) (vb2Step ctx m call) ∧
      (vb2Reports call = false → vb2Step ctx m call = (m, [])) := by
  have hxact : ∀ q b op state, Submitted ctx m q (uvcEmitVb2Xact ctx m q b op state) ∧
      ((q ≠ 0 && vb2IsCapture b) = false → uvcEmitVb2Xact ctx m q b op state = (m, [])) := by
    intro q b op state
    unfold uvcEmitVb2Xact
    by_cases h : q = 0 ∨ (!vb2IsCapture b) = true
    · rw [if_pos h]
      exact ⟨Or.inl ⟨rfl, SameDevices.refl m⟩, fun _ => rfl⟩
    · rw [if_neg h]
      refine ⟨Or.inr ⟨m, some b, op, state, 0, 0, 0, 0, 0, SameDevices.refl m, rfl⟩, ?_⟩
      intro hrep
      exact absurd hrep (by simpa [not_or] using h)
  cases call with
  | bufDone b =>
    simp only [vb2Step, vb2Queue, vb2Reports]
    rw [uvcEmitVb2Done_eq]
    refine ⟨?_, fun hrep => by rw [hrep]; rfl⟩
    split
    · rcases hst : uvcVb2Qstate m b.vb2Queue with ⟨m', _ | st⟩
      · have hm : m' = (uvcVb2Qstate m b.vb2Queue).1 := by rw [hst]
        exact Or.inl ⟨rfl, hm ▸ uvcVb2Qstate_same m _⟩
      · have hm : m' = (uvcVb2Qstate m b.vb2Queue).1 := by rw [hst]
        refine Or.inr ⟨{ m' with vb2Queues := _ }, some b, uvcVb2Done, vb2BufStateDone, 0, _, _, _,
          _, ?_, rfl⟩
        rw [hm]
        exact ⟨rfl, rfl⟩
    · exact Or.inl ⟨rfl, SameDevices.refl m⟩
  | bufQueue q b => exact hxact q b _ _
  | qbuf q b => exact hxact q b _ _
  | dqbuf q b => exact hxact q b _ _

/-- The key of a device, where bus and device number are apart. -/
theorem uvcDevKey_toNat (bus devnum : UInt16) :
    (uvcDevKey bus devnum).toNat = bus.toNat * 65536 + devnum.toNat := by
  have hbus : bus.toUInt32.toNat * 2 ^ 16 < 2 ^ 32 := by
    have hlt := bus.toNat_lt
    rw [UInt16.toNat_toUInt32]
    omega
  have hdev : devnum.toUInt32.toNat < 2 ^ 16 := by
    rw [UInt16.toNat_toUInt32]
    exact devnum.toNat_lt
  rw [uvcDevKey, UInt32.or_comm, toNat_or_shiftLeft (k := 16) (by decide) hdev hbus,
    UInt16.toNat_toUInt32, UInt16.toNat_toUInt32]
  exact Nat.add_comm _ _

theorem uvcDevKey_inj {bus bus' devnum devnum' : UInt16}
    (h : uvcDevKey bus devnum = uvcDevKey bus' devnum') : bus = bus' ∧ devnum = devnum' := by
  have hnat := congrArg UInt32.toNat h
  rw [uvcDevKey_toNat, uvcDevKey_toNat] at hnat
  have hdev := devnum.toNat_lt
  have hdev' := devnum'.toNat_lt
  refine ⟨UInt16.toNat_inj.mp ?_, UInt16.toNat_inj.mp ?_⟩ <;> omega

/-- The queue bound to a device, where the starvation check looks for one. -/
def boundQueue (m : UvcMaps) (bus dev : UInt16) : Option UInt64 :=
  if bus = 0 ∧ dev = 0 then none else m.vb2DevQueue.lookup (uvcDevKey bus dev)

/-- **A starvation check** reports the queue bound to the device, if there is one. -/
theorem uvcCheckStarvation_cases (ctx : HookCtx) (m : UvcMaps) (bus dev : UInt16) :
    (uvcCheckStarvation ctx m bus dev ctx.now).2 = [] ∧
        SameDevices m (uvcCheckStarvation ctx m bus dev ctx.now).1 ∨
      ∃ q ∈ boundQueue m bus dev,
        Submitted ctx m q (uvcCheckStarvation ctx m bus dev ctx.now) := by
  unfold uvcCheckStarvation boundQueue
  by_cases h0 : bus = 0 ∧ dev = 0
  · rw [if_pos h0]
    exact Or.inl ⟨rfl, SameDevices.refl m⟩
  · rw [if_neg h0, if_neg h0]
    cases hq : m.vb2DevQueue.lookup (uvcDevKey bus dev) with
    | none => exact Or.inl ⟨rfl, SameDevices.refl m⟩
    | some q =>
      right
      refine ⟨q, rfl, ?_⟩
      dsimp only
      split
      · exact Or.inl ⟨rfl, SameDevices.refl m⟩
      · split
        · exact Or.inl ⟨rfl, SameDevices.refl m⟩
        · rcases hst : uvcVb2Qstate m q with ⟨m', _ | st⟩
          · have hm : m' = (uvcVb2Qstate m q).1 := by rw [hst]
            exact Or.inl ⟨rfl, hm ▸ uvcVb2Qstate_same m _⟩
          · have hm : m' = (uvcVb2Qstate m q).1 := by rw [hst]
            dsimp only
            split
            · exact Or.inl ⟨rfl, hm ▸ uvcVb2Qstate_same m _⟩
            · refine Or.inr ⟨{ m' with vb2Queues := _ }, none, uvcVb2Starved, 0, 1, 0, 0, 0, 0, ?_,
                rfl⟩
              rw [hm]
              exact ⟨rfl, rfl⟩

/-! ## The state of a queue -/

/-- The state of a queue, but for its last starvation check; fresh where the map has none. -/
def queueAt (m : UvcMaps) (q : UInt64) : Vb2Qstate :=
  { (m.vb2Queues.lookup q).getD {} with lastStarveNs := 0 }

theorem queueAt_of_lookup {m : UvcMaps} {q : UInt64} {st : Vb2Qstate}
    (h : m.vb2Queues.lookup q = some st) : queueAt m q = { st with lastStarveNs := 0 } := by
  rw [queueAt, h, Option.getD_some]

/-- The state of a queue is in the map. -/
theorem uvcVb2Qstate_lookup {m m' : UvcMaps} {q : UInt64} {st : Vb2Qstate}
    (h : uvcVb2Qstate m q = (m', some st)) : m'.vb2Queues.lookup q = some st := by
  have hsnd := BoundedMap.lookupOrInit_snd m.vb2Queues q ({} : Vb2Qstate)
  have hm : (m.vb2Queues.lookupOrInit q {}).1 = m'.vb2Queues :=
    congrArg (fun r => r.1.vb2Queues) h
  have hst : (m.vb2Queues.lookupOrInit q {}).2 = some st := congrArg Prod.snd h
  rw [← hm, ← hsnd, hst]

/-- A queue looked up for the first time is fresh. -/
theorem uvcVb2Qstate_queueAt (m : UvcMaps) (key q : UInt64) :
    queueAt (uvcVb2Qstate m key).1 q = queueAt m q := by
  unfold queueAt uvcVb2Qstate
  dsimp only
  rcases BoundedMap.lookupOrInit_cases m.vb2Queues key {} q with hsame | ⟨rfl, hold, hnew⟩
  · rw [hsame]
  · rw [hold, hnew]
    rfl

/-- An entry that is set again. -/
theorem queueAt_update {m : UvcMaps} {key : UInt64} {st : Vb2Qstate}
    (h : m.vb2Queues.lookup key = some st) (st' : Vb2Qstate) (q : UInt64) :
    queueAt { m with vb2Queues := m.vb2Queues.update key st' } q =
      if q = key then { st' with lastStarveNs := 0 } else queueAt m q := by
  split
  · next hq =>
    rw [hq]
    exact queueAt_of_lookup (BoundedMap.lookup_update_self (BoundedMap.hasRoom_of_lookup h) st')
  · next hq =>
    unfold queueAt
    rw [BoundedMap.lookup_update_of_ne _ hq]

theorem uvcVb2Submit_queues (ctx : HookCtx) (m : UvcMaps) (q : UInt64) (b : Option Vb2Buffer)
    (op state starved : UInt8) (now : UInt64) (seq : UInt32) (seqGap : UInt8)
    (interval wire : UInt32) :
    (uvcVb2Submit ctx m q b op state starved now seq seqGap interval wire).1.vb2Queues =
      m.vb2Queues := by
  unfold uvcVb2Submit uvcVb2BindDev
  dsimp only
  split
  · split <;> rfl
  · rfl

theorem uvcVb2Submit_queueAt (ctx : HookCtx) (m : UvcMaps) (key : UInt64) (b : Option Vb2Buffer)
    (op state starved : UInt8) (now : UInt64) (seq : UInt32) (seqGap : UInt8)
    (interval wire : UInt32) (q : UInt64) :
    queueAt (uvcVb2Submit ctx m key b op state starved now seq seqGap interval wire).1 q =
      queueAt m q := by
  unfold queueAt
  rw [uvcVb2Submit_queues]

/-- A starvation check is all that changes in the state of a queue. -/
theorem uvcCheckStarvation_queueAt (ctx : HookCtx) (m : UvcMaps) (bus dev : UInt16)
    (now : UInt64) (q : UInt64) :
    queueAt (uvcCheckStarvation ctx m bus dev now).1 q = queueAt m q := by
  unfold uvcCheckStarvation
  split
  · rfl
  · split
    · rfl
    · next key _ =>
      have hstate := uvcVb2Qstate_queueAt m key q
      split
      · rfl
      · dsimp only
        split
        · rfl
        · split
          · next m' heq =>
            rw [heq] at hstate
            exact hstate
          · next m' st heq =>
            rw [heq] at hstate
            split
            · exact hstate
            · have hst := uvcVb2Qstate_lookup heq
              rw [uvcVb2Submit_queueAt, queueAt_update hst, ← hstate]
              split
              · next hq => rw [hq, queueAt_of_lookup hst]
              · rfl

/-- A completion of packets leaves the queues alone. -/
theorem onVideoComplete_queueAt (cfg : FilterConfig) (ctx : HookCtx) (m : UvcMaps)
    (dev : UsbDevice) (urb : Urb) (q : UInt64) :
    queueAt (onVideoComplete cfg ctx m dev urb).1 q = queueAt m q := by
  rw [(onVideoComplete_frames cfg ctx m dev urb).2]
  refine uvcParseFrames_induct (I := fun m' _ => queueAt m' q = queueAt m q) cfg
    (fun s eof hs => ?_) (fun _ _ _ h => h) rfl
  exact (uvcCheckStarvation_queueAt ctx _ _ _ _ q).trans hs

/-- So does a transfer of a buffer. -/
theorem uvcEmitVb2Xact_queueAt (ctx : HookCtx) (m : UvcMaps) (key : UInt64) (b : Vb2Buffer)
    (op state : UInt8) (q : UInt64) :
    queueAt (uvcEmitVb2Xact ctx m key b op state).1 q = queueAt m q := by
  unfold uvcEmitVb2Xact
  split
  · rfl
  · exact uvcVb2Submit_queueAt ..

/-- A completed buffer whose event finds a place for the state of its queue. -/
def Recorded (m : UvcMaps) (b : Vb2Buffer) : Prop :=
  vb2Reports (.bufDone b) = true ∧ m.vb2Queues.HasRoom b.vb2Queue

instance (m : UvcMaps) (b : Vb2Buffer) : Decidable (Recorded m b) :=
  inferInstanceAs (Decidable (_ ∧ _))

/-- A completed buffer that is not recorded leaves no event, and the queues alone. -/
theorem uvcEmitVb2Done_dropped (ctx : HookCtx) {m : UvcMaps} {b : Vb2Buffer}
    (h : ¬Recorded m b) :
    (uvcEmitVb2Done ctx m b vb2BufStateDone).2 = [] ∧
      ∀ q, queueAt (uvcEmitVb2Done ctx m b vb2BufStateDone).1 q = queueAt m q := by
  rw [uvcEmitVb2Done_eq]
  split
  · next hrep =>
    have hnone := BoundedMap.lookupOrInit_of_not_hasRoom (fun hroom => h ⟨hrep, hroom⟩)
      ({} : Vb2Qstate)
    have hst : uvcVb2Qstate m b.vb2Queue = (m, none) := by
      unfold uvcVb2Qstate
      rw [hnone]
    rw [hst]
    exact ⟨rfl, fun _ => rfl⟩
  · exact ⟨rfl, fun _ => rfl⟩

/-- **A completed buffer** that is recorded leaves one event, made of the state of its queue,
which it changes. -/
theorem uvcEmitVb2Done_recorded (ctx : HookCtx) {m : UvcMaps} {b : Vb2Buffer}
    (h : Recorded m b) :
    let r := uvcEmitVb2Done ctx m b vb2BufStateDone
    ∃ st e, { st with lastStarveNs := 0 } = queueAt m b.vb2Queue ∧
      r.2 = [.uvcVb2 e] ∧ e.hdr.tsNs = ctx.now ∧
      e.seqGap = (vb2NoteDone st b.sequence ctx.now).2.1 ∧
      e.intervalNs = (vb2NoteDone st b.sequence ctx.now).2.2.1 ∧
      ∀ q, queueAt r.1 q = if q = b.vb2Queue then
        { (vb2NoteDone st b.sequence ctx.now).2.2.2 with lastStarveNs := 0 }
        else queueAt m q := by
  intro r
  have hr : r = _ := (uvcEmitVb2Done_eq ctx m b).trans (if_pos h.1)
  rcases hst : uvcVb2Qstate m b.vb2Queue with ⟨m', _ | st⟩
  · have hnone : (m.vb2Queues.lookupOrInit b.vb2Queue {}).2 = none := congrArg Prod.snd hst
    rw [(BoundedMap.lookupOrInit_of_hasRoom h.2 {}).1] at hnone
    cases hnone
  · have hlookup := uvcVb2Qstate_lookup hst
    have hsame : ∀ q, queueAt m' q = queueAt m q := fun q => by
      rw [← uvcVb2Qstate_queueAt m b.vb2Queue q, hst]
    rw [hst] at hr
    refine ⟨st, _, ?_, by rw [hr]; rfl, rfl, rfl, rfl, fun q => ?_⟩
    · rw [← hsame, queueAt_of_lookup hlookup]
    · rw [hr]
      dsimp only
      rw [uvcVb2Submit_queueAt, queueAt_update hlookup, hsame]

/-- The tracepoint leaves an event: its arguments are those the program looks for, and the
state of the queue of a completed buffer finds a place. -/
def Reported (m : UvcMaps) : Vb2Hook → Prop
  | .bufDone b => Recorded m b
  | call => vb2Reports call = true

theorem uvcEmitVb2Xact_reported (ctx : HookCtx) (m : UvcMaps) (q : UInt64) (b : Vb2Buffer)
    (op state : UInt8) :
    vb2Of (uvcEmitVb2Xact ctx m q b op state).2 ≠ [] ↔ (q ≠ 0 && vb2IsCapture b) = true := by
  unfold uvcEmitVb2Xact
  by_cases h : q = 0 ∨ (!vb2IsCapture b) = true
  · rw [if_pos h]
    refine iff_of_false (fun hne => hne rfl) ?_
    rcases h with h | h <;> simp_all
  · rw [if_neg h]
    refine iff_of_true (List.cons_ne_nil _ _) ?_
    simpa [not_or] using h

/-- **A tracepoint leaves an event** exactly when it is reported. -/
theorem vb2Step_reported (ctx : HookCtx) (m : UvcMaps) (call : Vb2Hook) :
    vb2Of (vb2Step ctx m call).2 ≠ [] ↔ Reported m call := by
  cases call with
  | bufDone b =>
    by_cases h : Recorded m b
    · obtain ⟨st, e, -, hout, -⟩ := uvcEmitVb2Done_recorded ctx h
      refine iff_of_true ?_ h
      simp only [vb2Step, hout, vb2Of_vb2]
      exact List.cons_ne_nil _ _
    · refine iff_of_false ?_ h
      simp [vb2Step, (uvcEmitVb2Done_dropped ctx h).1]
  | bufQueue q b => exact uvcEmitVb2Xact_reported ctx m q b _ _
  | qbuf q b => exact uvcEmitVb2Xact_reported ctx m q b _ _
  | dqbuf q b => exact uvcEmitVb2Xact_reported ctx m q b _ _

end UsbTrace.Interface

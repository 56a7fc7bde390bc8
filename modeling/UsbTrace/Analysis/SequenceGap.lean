import UsbTrace.Interface.Vb2
import Mathlib.Data.List.Chain

/-!
# Sequence gaps

A completed buffer is reported with `seq_gap = 1` where its sequence number is not the one
after the last the program has seen on the queue.  The program has not seen a buffer whose
size it drops, and it does not see that streaming began anew: there is no gap exactly when
the buffers it looks at are numbered in turn (`no_gap_iff`), and a dropped size between two
of them, or a restart, is taken for a loss (`gap_without_loss`).
-/

set_option autoImplicit false

namespace UsbTrace.Analysis

open UsbTrace.Model UsbTrace.Library UsbTrace.Interface

/-! ## The last sequence number -/

/-- The last sequence number the program has seen, from the state of a queue. -/
def seenSequence (st : Vb2Qstate) : Option UInt32 :=
  if st.haveLastSeq then some st.lastSequence else none

def lastSequence (m : UvcMaps) (q : UInt64) : Option UInt32 :=
  (m.vb2Queues.lookup q).bind seenSequence

theorem lastSequence_eq (m : UvcMaps) (q : UInt64) :
    lastSequence m q = seenSequence (queueAt m q) := by
  unfold lastSequence queueAt
  cases m.vb2Queues.lookup q <;> rfl

/-- The queues the program keeps, in its two maps, are in `S`. -/
structure KnownQueues (S : Finset UInt64) (m : UvcMaps) : Prop where
  state : ∀ q st, m.vb2Queues.lookup q = some st → q ∈ S
  filed : ∀ key q, m.vb2DevQueue.lookup key = some q → q ∈ S

theorem KnownQueues.mono {S T : Finset UInt64} {m : UvcMaps} (h : KnownQueues S m)
    (hST : S ⊆ T) : KnownQueues T m :=
  ⟨fun q st hq => hST (h.state q st hq), fun key q hq => hST (h.filed key q hq)⟩

/-- No queue of `S` has lost its last sequence number from `m` to `m'`. -/
structure KeepsSequences (S : Finset UInt64) (m m' : UvcMaps) : Prop where
  known : KnownQueues S m → KnownQueues S m'
  sequence : ∀ q, lastSequence m' q = lastSequence m q

theorem KeepsSequences.refl (S : Finset UInt64) (m : UvcMaps) : KeepsSequences S m m :=
  ⟨id, fun _ => rfl⟩

theorem KeepsSequences.trans {S : Finset UInt64} {m m' m'' : UvcMaps}
    (h : KeepsSequences S m m') (h' : KeepsSequences S m' m'') : KeepsSequences S m m'' :=
  ⟨h'.known ∘ h.known, fun q => (h'.sequence q).trans (h.sequence q)⟩

/-- A fresh entry has seen no sequence number. -/
theorem uvcVb2Qstate_keeps {S : Finset UInt64} (m : UvcMaps) {q : UInt64} (hq : q ∈ S) :
    KeepsSequences S m (uvcVb2Qstate m q).1 := by
  constructor
  · intro h
    refine ⟨fun q' st hst => ?_, h.filed⟩
    rcases BoundedMap.lookupOrInit_cases m.vb2Queues q {} q' with hsame | ⟨hq', -, -⟩
    · exact h.state q' st (hsame ▸ hst)
    · exact hq' ▸ hq
  · intro q'
    rw [lastSequence_eq, lastSequence_eq, uvcVb2Qstate_queueAt]

/-- So does an entry with its last sequence number as before. -/
theorem keeps_of_update {S : Finset UInt64} {m : UvcMaps} {q : UInt64} {st : Vb2Qstate}
    (hst : m.vb2Queues.lookup q = some st) (st' : Vb2Qstate)
    (hseen : seenSequence st' = seenSequence st) :
    KeepsSequences S m { m with vb2Queues := m.vb2Queues.update q st' } := by
  constructor
  · intro h
    refine ⟨fun q' st'' hst'' => ?_, h.filed⟩
    rcases BoundedMap.lookup_update_cases hst'' with ⟨rfl, -⟩ | hold
    · exact h.state q' st hst
    · exact h.state q' st'' hold
  · intro q'
    rw [lastSequence_eq, lastSequence_eq, queueAt_update hst]
    split
    · next hq =>
      rw [hq, queueAt_of_lookup hst]
      exact hseen
    · rfl

/-- A submission files a queue. -/
theorem uvcVb2Submit_keeps {S : Finset UInt64} (ctx : HookCtx) (m : UvcMaps) {q : UInt64}
    (hq : q ∈ S) (b : Option Vb2Buffer) (op state starved : UInt8) (now : UInt64) (seq : UInt32)
    (seqGap : UInt8) (interval wire : UInt32) :
    KeepsSequences S m
      (uvcVb2Submit ctx m q b op state starved now seq seqGap interval wire).1 := by
  have hbind : ∀ bus dev, KeepsSequences S m (uvcVb2BindDev m q bus dev) := by
    intro bus dev
    unfold uvcVb2BindDev
    split
    · exact KeepsSequences.refl S m
    · refine ⟨fun h => ⟨h.state, fun key q' hq' => ?_⟩, fun _ => rfl⟩
      rcases BoundedMap.lookup_update_cases hq' with ⟨-, rfl⟩ | hold
      · exact hq
      · exact h.filed key q' hold
  unfold uvcVb2Submit
  dsimp only
  split
  · exact hbind _ _
  · exact KeepsSequences.refl S m

/-- A starvation check leaves the sequence numbers alone. -/
theorem uvcCheckStarvation_keeps {S : Finset UInt64} (ctx : HookCtx) {m : UvcMaps}
    (hm : KnownQueues S m) (bus dev : UInt16) (now : UInt64) :
    KeepsSequences S m (uvcCheckStarvation ctx m bus dev now).1 := by
  unfold uvcCheckStarvation
  split
  · exact KeepsSequences.refl S m
  · split
    · exact KeepsSequences.refl S m
    · next q hq =>
      have hmem : q ∈ S := hm.filed _ q hq
      have hstate := uvcVb2Qstate_keeps m hmem
      split
      · exact KeepsSequences.refl S m
      · dsimp only
        split
        · exact KeepsSequences.refl S m
        · split
          · next m' heq =>
            rw [heq] at hstate
            exact hstate
          · next m' st heq =>
            split
            · rw [heq] at hstate
              exact hstate
            · have hst := uvcVb2Qstate_lookup heq
              rw [heq] at hstate
              exact (hstate.trans (keeps_of_update hst { st with lastStarveNs := now } rfl)).trans
                (uvcVb2Submit_keeps ctx _ hmem ..)

/-- A completion of packets leaves the sequence numbers alone. -/
theorem onVideoComplete_keeps {S : Finset UInt64} (cfg : FilterConfig) (ctx : HookCtx)
    {m : UvcMaps} (hm : KnownQueues S m) (dev : UsbDevice) (urb : Urb) :
    KeepsSequences S m (onVideoComplete cfg ctx m dev urb).1 := by
  rw [(onVideoComplete_frames cfg ctx m dev urb).2]
  refine uvcParseFrames_induct (I := fun m' _ => KeepsSequences S m m') cfg (fun s eof hs => ?_)
    (fun _ _ _ h => ⟨fun hk => ⟨(h.known hk).state, (h.known hk).filed⟩, h.sequence⟩)
    (KeepsSequences.refl S m)
  have hnote : KeepsSequences S s.maps (uvcNoteWireFrame s.maps (uvcSource dev urb).bus
      (uvcSource dev urb).devnum (uvcSource dev urb).vid (uvcSource dev urb).pid s.st.curBytes
      ctx.now) := ⟨fun h => ⟨h.state, h.filed⟩, fun _ => rfl⟩
  have hknown := hnote.known (hs.known hm)
  exact (hs.trans hnote).trans (uvcCheckStarvation_keeps ctx hknown ..)

/-! ## Completed buffers -/

/-- The gap a sequence number makes after the last one; none where either is unknown. -/
def gapAfter : Option UInt32 → Option UInt32 → UInt8
  | some last, some cur => vb2SeqGap last cur
  | _, _ => 0

@[simp] theorem gapAfter_none (last : Option UInt32) : gapAfter last none = 0 := by
  cases last <;> rfl

/-- What a completion leaves in the state of its queue. -/
theorem vb2NoteDone_spec (st : Vb2Qstate) (sequence : Option UInt32) (now : UInt64) :
    (vb2NoteDone st sequence now).2.1 = gapAfter (seenSequence st) sequence ∧
      seenSequence (vb2NoteDone st sequence now).2.2.2 = sequence.or (seenSequence st) := by
  unfold vb2NoteDone seenSequence
  cases sequence with
  | none => cases st.haveLastSeq <;> exact ⟨rfl, rfl⟩
  | some seq => cases st.haveLastSeq <;> exact ⟨rfl, rfl⟩

/-- **A completed buffer** of a plausible size, on a queue with a place: its event has the gap
after the last sequence number seen, and its number is the last one seen from then on. -/
theorem bufDone_spec (ctx : HookCtx) {m : UvcMaps} {b : Vb2Buffer}
    (hrep : vb2Reports (.bufDone b) = true) (hroom : m.vb2Queues.HasRoom b.vb2Queue) :
    let r := vb2Step ctx m (.bufDone b)
    (∃ e, vb2Of r.2 = [e] ∧ e.seqGap = gapAfter (lastSequence m b.vb2Queue) b.sequence) ∧
      lastSequence r.1 b.vb2Queue = b.sequence.or (lastSequence m b.vb2Queue) ∧
      ∀ q ≠ b.vb2Queue, lastSequence r.1 q = lastSequence m q := by
  intro r
  obtain ⟨st, e, hst, hout, -, hgap, -, hqueues⟩ := uvcEmitVb2Done_recorded ctx ⟨hrep, hroom⟩
  obtain ⟨hafter, hseen⟩ := vb2NoteDone_spec st b.sequence ctx.now
  have hlast : lastSequence m b.vb2Queue = seenSequence st := by
    rw [lastSequence_eq, ← hst]
    rfl
  refine ⟨⟨e, congrArg vb2Of hout, by rw [hgap, hafter, hlast]⟩, ?_, fun q hne => ?_⟩
  · have hself := congrArg seenSequence ((hqueues b.vb2Queue).trans (if_pos rfl))
    rw [lastSequence_eq, hlast, ← hseen]
    exact hself
  · rw [lastSequence_eq, lastSequence_eq]
    exact congrArg seenSequence ((hqueues q).trans (if_neg hne))

/-! ## Runs -/

/-- The queue an operation reports. -/
def reportedQueue : UvcOp → Option UInt64
  | .vb2 _ call => if vb2Reports call then some (vb2Queue call) else none
  | .complete .. => none

/-- The queues of a run. -/
def runQueues (ops : List UvcOp) : Finset UInt64 := (ops.filterMap reportedQueue).toFinset

/-- The sequence number of a completed buffer of the queue, where the program looks at it. -/
def doneSequence (q : UInt64) : UvcOp → Option UInt32
  | .vb2 _ (.bufDone b) =>
      if b.vb2Queue = q ∧ vb2Reports (.bufDone b) = true then b.sequence else none
  | _ => none

/-- The sequence numbers the program sees on a queue in a run. -/
def doneSequences (q : UInt64) (ops : List UvcOp) : List UInt32 := ops.filterMap (doneSequence q)

/-- No event of a completed buffer of the queue tells of a gap. -/
def NoGap (q : UInt64) (m : UvcMaps) : UvcOp → Prop
  | .vb2 ctx (.bufDone b) =>
      b.vb2Queue = q → ∀ e ∈ vb2Of (vb2Step ctx m (.bufDone b)).2, e.seqGap ≠ 1
  | _ => True

/-- The map has a place for the state of the queue an operation reports. -/
def QueueHasRoom (m : UvcMaps) (op : UvcOp) : Prop :=
  ∀ q ∈ reportedQueue op, m.vb2Queues.HasRoom q

/-- A sequence number that follows another: the same, or the one after it (modulo `2^32`). -/
def InOrder (last cur : UInt32) : Prop := cur = last ∨ cur = last + 1

instance (last cur : UInt32) : Decidable (InOrder last cur) :=
  inferInstanceAs (Decidable (_ ∨ _))

theorem vb2SeqGap_iff (last cur : UInt32) : vb2SeqGap last cur ≠ 1 ↔ InOrder last cur := by
  unfold vb2SeqGap InOrder
  by_cases heq : cur = last
  · simp [heq]
  · have hwrap : (if last = 0xffffffff then 0 else last + 1) = last + 1 := by
      split
      · next h =>
        rw [h]
        rfl
      · rfl
    simp [heq, hwrap]

/-- A transfer of a buffer leaves the sequence numbers alone. -/
theorem uvcEmitVb2Xact_keeps {S : Finset UInt64} (ctx : HookCtx) (m : UvcMaps) {q : UInt64}
    {b : Vb2Buffer} (hq : (q ≠ 0 && vb2IsCapture b) = true → q ∈ S) (op state : UInt8) :
    KeepsSequences S m (uvcEmitVb2Xact ctx m q b op state).1 := by
  unfold uvcEmitVb2Xact
  by_cases h : q = 0 ∨ (!vb2IsCapture b) = true
  · rw [if_pos h]
    exact KeepsSequences.refl S m
  · rw [if_neg h]
    exact uvcVb2Submit_keeps ctx m (hq (by simpa [not_or] using h)) ..

/-- **One operation** adds its own queue to those known. -/
theorem uvcStep_known {S : Finset UInt64} (cfg : FilterConfig) {m : UvcMaps}
    (hm : KnownQueues S m) {op : UvcOp} (hop : ∀ q ∈ reportedQueue op, q ∈ S) :
    KnownQueues S (uvcStep cfg m op).1 := by
  cases op with
  | complete ctx dev urb => exact (onVideoComplete_keeps cfg ctx hm dev urb).known hm
  | vb2 ctx call =>
    have hcall : vb2Reports call = true → vb2Queue call ∈ S :=
      fun hrep => hop _ (if_pos hrep)
    cases call with
    | bufDone b =>
      simp only [uvcStep, vb2Step]
      rw [uvcEmitVb2Done_eq]
      split
      · next hrep =>
        have hq : b.vb2Queue ∈ S := hcall hrep
        have hkeep := uvcVb2Qstate_keeps m hq
        split
        · next m' heq =>
          rw [heq] at hkeep
          exact hkeep.known hm
        · next m' st heq =>
          rw [heq] at hkeep
          have hm' := hkeep.known hm
          refine (uvcVb2Submit_keeps ctx _ hq ..).known ⟨fun q st' hst' => ?_, hm'.filed⟩
          rcases BoundedMap.lookup_update_cases hst' with ⟨rfl, -⟩ | hold
          · exact hq
          · exact hm'.state q st' hold
      · exact hm
    | bufQueue q b => exact (uvcEmitVb2Xact_keeps ctx m hcall _ _).known hm
    | qbuf q b => exact (uvcEmitVb2Xact_keeps ctx m hcall _ _).known hm
    | dqbuf q b => exact (uvcEmitVb2Xact_keeps ctx m hcall _ _).known hm

/-- **One operation** and the sequence numbers of a queue. -/
theorem uvcStep_sequence {S : Finset UInt64} (cfg : FilterConfig) {m : UvcMaps}
    (hm : KnownQueues S m) {op : UvcOp} (hroom : QueueHasRoom m op) (q : UInt64) :
    lastSequence (uvcStep cfg m op).1 q = (doneSequence q op).or (lastSequence m q) ∧
      (NoGap q m op ↔ gapAfter (lastSequence m q) (doneSequence q op) ≠ 1) := by
  have hquiet : ∀ o : Option UInt32, gapAfter o none ≠ 1 := by
    intro o
    rw [gapAfter_none]
    decide
  cases op with
  | complete ctx dev urb =>
    exact ⟨(onVideoComplete_keeps cfg ctx hm dev urb).sequence q,
      iff_of_true trivial (hquiet _)⟩
  | vb2 ctx call =>
    cases call with
    | bufDone b =>
      cases hrep : vb2Reports (.bufDone b) with
      | false =>
        have hstep := (vb2Step_cases ctx m (.bufDone b)).2 hrep
        have hnone : doneSequence q (.vb2 ctx (.bufDone b)) = none := if_neg (by simp [hrep])
        rw [uvcStep, hnone, hstep]
        refine ⟨rfl, iff_of_true (fun _ e he => ?_) (hquiet _)⟩
        rw [hstep] at he
        exact absurd he List.not_mem_nil
      | true =>
        obtain ⟨⟨e, hout, hgap⟩, hself, hother⟩ :=
          bufDone_spec ctx hrep (hroom b.vb2Queue (if_pos hrep))
        by_cases hq : b.vb2Queue = q
        · have hsome : doneSequence q (.vb2 ctx (.bufDone b)) = b.sequence := if_pos ⟨hq, hrep⟩
          rw [hsome]
          subst hq
          refine ⟨hself, ?_⟩
          rw [NoGap, hout]
          simp only [List.mem_singleton, forall_eq, true_imp_iff, hgap]
        · have hnone : doneSequence q (.vb2 ctx (.bufDone b)) = none := if_neg (by simp [hq])
          rw [hnone]
          exact ⟨hother q (Ne.symm hq), iff_of_true (fun h => absurd h hq) (hquiet _)⟩
    | bufQueue q' b =>
      exact ⟨(uvcEmitVb2Xact_keeps (S := {q'}) ctx m (fun _ => Finset.mem_singleton_self _)
        _ _).sequence q, iff_of_true trivial (hquiet _)⟩
    | qbuf q' b =>
      exact ⟨(uvcEmitVb2Xact_keeps (S := {q'}) ctx m (fun _ => Finset.mem_singleton_self _)
        _ _).sequence q, iff_of_true trivial (hquiet _)⟩
    | dqbuf q' b =>
      exact ⟨(uvcEmitVb2Xact_keeps (S := {q'}) ctx m (fun _ => Finset.mem_singleton_self _)
        _ _).sequence q, iff_of_true trivial (hquiet _)⟩

/-- In every run the program knows the queues of the run. -/
theorem run_known (cfg : FilterConfig) (ops : List UvcOp) :
    KnownQueues (runQueues ops) (finalState (uvcStep cfg) UvcMaps.empty ops) := by
  induction ops using List.reverseRecOn with
  | nil => exact ⟨fun q st h => (Option.some_ne_none st h.symm).elim,
      fun key q h => (Option.some_ne_none q h.symm).elim⟩
  | append_singleton ops op ih =>
    rw [finalState_concat]
    refine uvcStep_known cfg (ih.mono fun q hq => ?_) fun q hq => ?_
    · simp only [runQueues, List.mem_toFinset, List.filterMap_append, List.mem_append] at hq ⊢
      exact Or.inl hq
    · simp only [runQueues, List.mem_toFinset, List.filterMap_append, List.mem_append]
      exact Or.inr (List.mem_filterMap.mpr ⟨op, by simp, hq⟩)

/-- **With at most 64 queues** there is a place for the state of each. -/
theorem queues_haveRoom {cfg : FilterConfig} {ops : List UvcOp} (h : (runQueues ops).card ≤ 64) :
    EveryStep (uvcStep cfg) QueueHasRoom UvcMaps.empty ops := by
  refine everyStep_iff.mpr fun pre op post heq q hq => ?_
  refine BoundedMap.hasRoom_of_card h (fun q' st hst => ?_) ?_
  · have hmem := (run_known cfg pre).state q' st hst
    simp only [runQueues, List.mem_toFinset, heq, List.filterMap_append, List.mem_append] at hmem ⊢
    exact Or.inl hmem
  · simp only [runQueues, List.mem_toFinset]
    exact List.mem_filterMap.mpr ⟨op, by simp [heq], hq⟩

/-- The last sequence number of a queue, over a run. -/
theorem run_lastSequence {cfg : FilterConfig} {ops : List UvcOp}
    (h : EveryStep (uvcStep cfg) QueueHasRoom UvcMaps.empty ops) (q : UInt64) :
    lastSequence (finalState (uvcStep cfg) UvcMaps.empty ops) q =
      lastOf (doneSequence q) ops := by
  induction ops using List.reverseRecOn with
  | nil => rfl
  | append_singleton ops op ih =>
    obtain ⟨hpre, hop⟩ := everyStep_concat.mp h
    rw [finalState_concat, (uvcStep_sequence cfg (run_known cfg ops) hop q).1, ih hpre,
      lastOf_concat]

/-- **Gaps are in the sequence seen.**  Over every run with at most 64 queues, no event of a
completed buffer of the queue tells of a gap exactly when the sequence numbers of the buffers
the program looks at, those of a plausible size, follow one another.
SOURCE: uvc.bpf.c:72-120, 338-380 -/
theorem no_gap_iff (cfg : FilterConfig) (ops : List UvcOp) (hcard : (runQueues ops).card ≤ 64)
    (q : UInt64) :
    EveryStep (uvcStep cfg) (NoGap q) UvcMaps.empty ops ↔
      (doneSequences q ops).IsChain InOrder := by
  have hroom : EveryStep (uvcStep cfg) QueueHasRoom UvcMaps.empty ops := queues_haveRoom hcard
  clear hcard
  induction ops using List.reverseRecOn with
  | nil => exact iff_of_true trivial List.IsChain.nil
  | append_singleton ops op ih =>
    obtain ⟨hpre, hop⟩ := everyStep_concat.mp hroom
    obtain ⟨-, hgap⟩ := uvcStep_sequence cfg (run_known cfg ops) hop q
    refine everyStep_concat.trans ((and_congr (ih hpre) hgap).trans ?_)
    rw [run_lastSequence hpre, lastOf, doneSequences, doneSequences, List.filterMap_append,
      List.isChain_append]
    cases hd : doneSequence q op with
    | none => simp [List.filterMap, hd]
    | some cur =>
      cases hl : (List.filterMap (doneSequence q) ops).getLast? with
      | none => simp [List.filterMap, hd, gapAfter]
      | some last => simp [List.filterMap, hd, gapAfter, vb2SeqGap_iff]

/-! ## Two gaps without a loss -/

instance (q : UInt64) (m : UvcMaps) : (op : UvcOp) → Decidable (NoGap q m op)
  | .vb2 _ (.bufDone _) => inferInstanceAs (Decidable (_ → ∀ e ∈ _, _))
  | .vb2 _ (.bufQueue ..) => inferInstanceAs (Decidable True)
  | .vb2 _ (.qbuf ..) => inferInstanceAs (Decidable True)
  | .vb2 _ (.dqbuf ..) => inferInstanceAs (Decidable True)
  | .complete .. => inferInstanceAs (Decidable True)

/-- The sequence numbers of all buffers the kernel completes on a queue. -/
def deliveredSequences (q : UInt64) (ops : List UvcOp) : List UInt32 :=
  ops.filterMap fun op => match op with
    | .vb2 _ (.bufDone b) => if b.vb2Queue = q then b.sequence else none
    | _ => none

/-- A buffer with `bytesused` bytes is completed on the queue at `0x50`. -/
def sampleBuffer (sequence bytesused : UInt32) : UvcOp :=
  .vb2 {} (.bufDone { vb2Queue := 0x50, bytesused := bytesused, sequence := some sequence })

theorem no_gap_sample :
    EveryStep (uvcStep {}) (NoGap 0x50) UvcMaps.empty
      [sampleBuffer 0 614400, sampleBuffer 1 614400, sampleBuffer 2 614400] :=
  (no_gap_iff {} [sampleBuffer 0 614400, sampleBuffer 1 614400, sampleBuffer 2 614400]
    (by decide) 0x50).mpr (by decide)

/-- **No loss, and a gap**: after a buffer of 50000 bytes, which the size filter drops, and
after a restart. -/
theorem gap_without_loss :
    (deliveredSequences 0x50 [sampleBuffer 0 614400, sampleBuffer 1 50000,
          sampleBuffer 2 614400] = [0, 1, 2] ∧
        ¬EveryStep (uvcStep {}) (NoGap 0x50) UvcMaps.empty
          [sampleBuffer 0 614400, sampleBuffer 1 50000, sampleBuffer 2 614400]) ∧
      deliveredSequences 0x50 [sampleBuffer 0 614400, sampleBuffer 1 614400,
          sampleBuffer 0 614400] = [0, 1, 0] ∧
        ¬EveryStep (uvcStep {}) (NoGap 0x50) UvcMaps.empty
          [sampleBuffer 0 614400, sampleBuffer 1 614400, sampleBuffer 0 614400] := by
  refine ⟨⟨?_, ?_⟩, ?_, ?_⟩ <;> decide +kernel

end UsbTrace.Analysis

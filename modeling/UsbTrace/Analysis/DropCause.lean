import UsbTrace.Model.Driver
import UsbTrace.Interface.DeviceFilter
import UsbTrace.Library.Run
import Mathlib.Data.List.Infix

/-!
# Reasons of dropped buffers

One hook of the driver gathers the causes of a drop, another takes them at the buffer's
completion.  Over any interleaving of the calls, for buffers of cameras that pass the filter,
a buffer is reported as dropped exactly when the driver drops it, and its reason is that of
this frame alone: what was decoded into the buffer since its last completion, and its size
(`drop_reason`).
-/

set_option autoImplicit false

namespace UsbTrace.Analysis

open UsbTrace.Model UsbTrace.Library UsbTrace.Interface

/-! ## Calls -/

/-- A call on a video buffer of a camera that passes the filter, with the pointers on the way
there; the driver sets the error of a buffer to 0 or 1. -/
def DriverCall (cfg : FilterConfig) : DriverOp → Prop
  | .queueNext .. => True
  | .decodeIsoc (some uvcUrb) (some buf) =>
      uvcBufIsVideo buf = true ∧
        (uvcUrb.stream.bind UvcStreaming.udev).any (passes cfg) = true
  | .decodeIsoc .. => False
  | .queueComplete _ (some buf) =>
      uvcBufIsVideo buf = true ∧
        (buf.queue.bind fun q => q.stream.udev).any (passes cfg) = true ∧
        (buf.error = 0 ∨ buf.error = 1)
  | .queueComplete _ none => False

instance (cfg : FilterConfig) : (op : DriverOp) → Decidable (DriverCall cfg op)
  | .queueNext .. => inferInstanceAs (Decidable True)
  | .decodeIsoc (some _) (some _) => inferInstanceAs (Decidable (_ ∧ _))
  | .decodeIsoc (some _) none => inferInstanceAs (Decidable False)
  | .decodeIsoc none _ => inferInstanceAs (Decidable False)
  | .queueComplete _ (some _) => inferInstanceAs (Decidable (_ ∧ _ ∧ _))
  | .queueComplete _ none => inferInstanceAs (Decidable False)

/-- One of the first 32 packets of the URB has a negative status. -/
def LosesPacket (urb : Urb) : Prop :=
  ∃ d : IsoPacket, some d ∈ urb.isoFrameDesc.take (min 32 urb.numberOfPackets.toInt.toNat) ∧
    d.status < 0

/-- An URB that lost a packet is decoded into the buffer. -/
def DecodesLoss (b : UInt64) : DriverOp → Prop
  | .decodeIsoc (some uvcUrb) (some buf) => buf.ptr = b ∧ ∃ urb ∈ uvcUrb.urb, LosesPacket urb
  | _ => False

/-- The buffer is completed. -/
def Completes (b : UInt64) : DriverOp → Prop
  | .queueComplete _ (some buf) => buf.ptr = b
  | _ => False

/-- Since the last completion of the buffer, an URB that lost a packet was decoded into it. -/
def LossSince (b : UInt64) (ops : List DriverOp) : Prop :=
  ∃ pre op post, ops = pre ++ op :: post ∧ DecodesLoss b op ∧ ∀ c ∈ post, ¬Completes b c

/-- The buffers with a pending cause, one call on. -/
def causesAfter (S : Finset UInt64) : DriverOp → Finset UInt64
  | .decodeIsoc (some uvcUrb) (some buf) =>
      if uvcUrb.urb.any isocLost then insert buf.ptr S else S
  | .queueComplete _ (some buf) => S.erase buf.ptr
  | _ => S

/-- The buffers with a pending cause after the calls. -/
def pendingCauses (ops : List DriverOp) : Finset UInt64 := ops.foldl causesAfter ∅

/-- At no moment more than 64 buffers have a pending cause. -/
def FewPending (ops : List DriverOp) : Prop := ∀ pre ∈ ops.inits, (pendingCauses pre).card ≤ 64

instance (ops : List DriverOp) : Decidable (FewPending ops) :=
  List.decidableBAll (fun pre => (pendingCauses pre).card ≤ 64) ops.inits

/-! ## Pending causes -/

theorem pendingCauses_concat (ops : List DriverOp) (op : DriverOp) :
    pendingCauses (ops ++ [op]) = causesAfter (pendingCauses ops) op := by
  rw [pendingCauses, List.foldl_append]
  rfl

/-- A cause is pending after a call that sets it, or if it was before and the buffer is not
completed. -/
theorem lossSince_concat (b : UInt64) (ops : List DriverOp) (op : DriverOp) :
    LossSince b (ops ++ [op]) ↔ DecodesLoss b op ∨ LossSince b ops ∧ ¬Completes b op := by
  constructor
  · rintro ⟨pre, op', post, heq, hloss, hpost⟩
    rcases List.eq_nil_or_concat' post with rfl | ⟨post', c, rfl⟩
    · obtain ⟨-, hop⟩ := List.append_inj' heq rfl
      rw [List.singleton_inj.mp hop]
      exact Or.inl hloss
    · rw [← List.cons_append, ← List.append_assoc] at heq
      obtain ⟨hops, hop⟩ := List.append_inj' heq rfl
      rw [List.singleton_inj.mp hop]
      refine Or.inr ⟨⟨pre, op', post', hops, hloss, fun c' hc' => ?_⟩, ?_⟩
      · exact hpost c' (List.mem_append_left _ hc')
      · exact hpost c (List.mem_append_right _ (List.mem_singleton_self c))
  · rintro (hloss | ⟨⟨pre, op', post, rfl, hloss, hpost⟩, hop⟩)
    · exact ⟨ops, op, [], rfl, hloss, fun c hc => absurd hc List.not_mem_nil⟩
    · refine ⟨pre, op', post ++ [op], by simp, hloss, fun c hc => ?_⟩
      rcases List.mem_append.mp hc with hc | hc
      · exact hpost c hc
      · rwa [List.mem_singleton.mp hc]

/-- The loop finds a lost packet where there is one. -/
theorem isocLost_iff (urb : Urb) : isocLost urb = true ↔ LosesPacket urb := by
  unfold isocLost LosesPacket
  rw [List.any_eq_true]
  constructor
  · rintro ⟨d, hd, hlost⟩
    cases d with
    | none => cases hlost
    | some d => exact ⟨d, hd, of_decide_eq_true hlost⟩
  · rintro ⟨d, hd, hlost⟩
    exact ⟨some d, hd, decide_eq_true hlost⟩

theorem any_isocLost_iff (o : Option Urb) :
    o.any isocLost = true ↔ ∃ urb ∈ o, LosesPacket urb := by
  cases o with
  | none => simp
  | some urb => simp [isocLost_iff]

/-- **The pending buffers** are those with a loss since their last completion. -/
theorem mem_pendingCauses (b : UInt64) (ops : List DriverOp) :
    b ∈ pendingCauses ops ↔ LossSince b ops := by
  induction ops using List.reverseRecOn with
  | nil =>
    refine iff_of_false (Finset.notMem_empty b) ?_
    rintro ⟨pre, op, post, heq, -⟩
    simp at heq
  | append_singleton ops op ih =>
    rw [pendingCauses_concat, lossSince_concat, ← ih]
    cases op with
    | queueNext now queue buf => simp [causesAfter, DecodesLoss, Completes]
    | decodeIsoc uvcUrb buf =>
      cases uvcUrb with
      | none => simp [causesAfter, DecodesLoss, Completes]
      | some uvcUrb =>
        cases buf with
        | none => simp [causesAfter, DecodesLoss, Completes]
        | some buf =>
          simp only [causesAfter, DecodesLoss, Completes, not_false_eq_true, and_true,
            ← any_isocLost_iff]
          split
          · next h => simp [h, eq_comm]
          · next h => simp [h]
    | queueComplete now ref =>
      cases ref with
      | none => simp [causesAfter, DecodesLoss, Completes]
      | some buf =>
        simp only [causesAfter, DecodesLoss, Completes, false_or, Finset.mem_erase]
        rw [and_comm, ne_eq, eq_comm]

/-! ## The map of causes -/

/-- The map holds the cause of the pending buffers, and of no others. -/
def HoldsCauses (S : Finset UInt64) (m : DropCauses) : Prop :=
  ∀ b, m.lookup b = if b ∈ S then some uvcDropIso else none

theorem holdsCauses_empty : HoldsCauses ∅ BoundedMap.empty := fun b => by simp

/-- A cause is set, where there is a place for it. -/
theorem HoldsCauses.add {S : Finset UInt64} {m : DropCauses} (h : HoldsCauses S m) {buf : UInt64}
    (hcard : (insert buf S).card ≤ 64) :
    HoldsCauses (insert buf S) (uvcDropCauseAdd m buf uvcDropIso) := by
  have hroom : m.HasRoom buf := by
    refine BoundedMap.hasRoom_of_card hcard (fun b v hb => ?_) (Finset.mem_insert_self buf S)
    rw [h b] at hb
    split at hb
    · next hmem => exact Finset.mem_insert_of_mem hmem
    · cases hb
  have hadd : uvcDropCauseAdd m buf uvcDropIso = m.update buf uvcDropIso := by
    unfold uvcDropCauseAdd
    rw [h buf]
    split
    · next cur hcur =>
      split at hcur
      · rw [← Option.some.inj hcur]
        rfl
      · cases hcur
    · rfl
  intro b
  rw [hadd]
  by_cases hb : b = buf
  · rw [hb, BoundedMap.lookup_update_self hroom, if_pos (Finset.mem_insert_self buf S)]
  · rw [BoundedMap.lookup_update_of_ne m hb, h b]
    simp [hb]

/-- What is taken is the pending cause, and it is gone then. -/
theorem uvcDropCauseTake_spec (m : DropCauses) (buf : UInt64) :
    (uvcDropCauseTake m buf).2 = (m.lookup buf).getD 0 ∧
      ∀ b, (uvcDropCauseTake m buf).1.lookup b = if b = buf then none else m.lookup b := by
  unfold uvcDropCauseTake
  cases hm : m.lookup buf with
  | none =>
    refine ⟨rfl, fun b => ?_⟩
    change m.lookup b = _
    by_cases hb : b = buf
    · rw [if_pos hb, hb, hm]
    · rw [if_neg hb]
  | some val => exact ⟨rfl, BoundedMap.lookup_delete m buf⟩

theorem HoldsCauses.take {S : Finset UInt64} {m : DropCauses} (h : HoldsCauses S m)
    (buf : UInt64) : HoldsCauses (S.erase buf) (uvcDropCauseTake m buf).1 := by
  intro b
  rw [(uvcDropCauseTake_spec m buf).2 b, h b]
  by_cases hb : b = buf <;> simp [hb]

/-! ## One call -/

/-- A stream of a camera that passes has its ids. -/
theorem uvcStreamUsb_of_passes {cfg : FilterConfig} {stream : Option UvcStreaming}
    (h : (stream.bind UvcStreaming.udev).any (passes cfg) = true) :
    ∃ ids, uvcStreamUsb cfg stream = some ids := by
  unfold uvcStreamUsb
  cases hdev : stream.bind UvcStreaming.udev with
  | none =>
    rw [hdev] at h
    cases h
  | some dev =>
    rw [hdev] at h
    dsimp only
    rw [devMatch_of_passes h]
    exact ⟨_, rfl⟩

/-- What the probes do at a completion. -/
theorem onQueueComplete_eq {cfg : FilterConfig} (m : DropCauses) {now : UInt64} {buf : UvcBuffer}
    (h : DriverCall cfg (.queueComplete now (some buf))) :
    ∃ queue ids, buf.queue = some queue ∧
      onQueueComplete cfg {} m (some buf) now =
        ((uvcDropCauseTake m buf.ptr).1,
          if queue.flags &&& uvcQueueDropCorrupted ≠ 0 ∧ buf.error ≠ 0 then
            [uvcDrvEmit uvcDrvDrop
              (dropReason queue.stream buf (uvcDropCauseTake m buf.ptr).2) ids now]
          else []) := by
  obtain ⟨hvideo, hpass, herror⟩ := h
  cases hq : buf.queue with
  | none =>
    rw [hq] at hpass
    cases hpass
  | some queue =>
    rw [hq] at hpass
    obtain ⟨ids, hids⟩ := @uvcStreamUsb_of_passes cfg (some queue.stream) hpass
    have herr : buf.error.toUInt8 = 0 ↔ buf.error = 0 := by
      rcases herror with herror | herror <;> simp [herror]
    refine ⟨queue, ids, rfl, ?_⟩
    unfold onQueueComplete uvcBufFromRef uvcBufVideoQueue
    simp only [if_true, hvideo, Bool.not_true, Bool.false_eq_true, if_false, hq, hids, herr]
    by_cases hdrop : queue.flags &&& uvcQueueDropCorrupted = 0 ∨ buf.error = 0
    · rw [if_pos hdrop, if_neg (by tauto)]
    · rw [if_neg hdrop, if_pos (by tauto)]

/-- A decoded frame is reported as received. -/
theorem onQueueNext_recv {cfg : FilterConfig} {offs : UvcOffsets} {queue : Option UvcVideoQueue}
    {buf : Option UvcBuffer} {now : UInt64} :
    ∀ e ∈ onQueueNext cfg offs queue buf now, e.drvOp = uvcDrvRecv := by
  intro e he
  unfold onQueueNext at he
  split at he
  · split at he
    · cases he
    · split at he
      · cases he
      · split at he
        · cases he
        · rw [List.mem_singleton.mp he]
          rfl
  · cases he

/-- **One call** keeps the causes that are pending. -/
theorem driverStep_causes {cfg : FilterConfig} {S : Finset UInt64} {m : DropCauses}
    (h : HoldsCauses S m) {op : DriverOp} (hop : DriverCall cfg op)
    (hcard : (causesAfter S op).card ≤ 64) :
    HoldsCauses (causesAfter S op) (driverStep cfg {} m op).1 := by
  cases op with
  | queueNext now queue buf => exact h
  | decodeIsoc uvcUrb buf =>
    cases uvcUrb with
    | none => exact hop.elim
    | some uvcUrb =>
      cases buf with
      | none => exact hop.elim
      | some buf =>
        obtain ⟨hvideo, hpass⟩ := hop
        obtain ⟨ids, hids⟩ := uvcStreamUsb_of_passes hpass
        simp only [driverStep, onDecodeIsoc, hvideo, hids, causesAfter] at hcard ⊢
        cases hurb : uvcUrb.urb with
        | none => exact h
        | some urb =>
          rw [hurb] at hcard
          simp only [Bool.not_true, Bool.false_eq_true, if_false, Option.any_some] at hcard ⊢
          by_cases hlost : isocLost urb = true
          · rw [if_pos hlost] at hcard ⊢
            rw [if_pos hlost]
            exact h.add hcard
          · rw [if_neg hlost, if_neg hlost]
            exact h
  | queueComplete now ref =>
    cases ref with
    | none => exact hop.elim
    | some buf =>
      obtain ⟨queue, ids, -, heq⟩ := onQueueComplete_eq m hop
      simp only [driverStep, heq]
      exact h.take buf.ptr

/-- **Every run** has the pending causes in its map. -/
theorem run_causes {cfg : FilterConfig} {ops : List DriverOp}
    (hops : ∀ op ∈ ops, DriverCall cfg op) (hfew : FewPending ops) :
    HoldsCauses (pendingCauses ops) (finalState (driverStep cfg {}) BoundedMap.empty ops) := by
  induction ops using List.reverseRecOn with
  | nil => exact holdsCauses_empty
  | append_singleton ops op ih =>
    have hpre : FewPending ops := fun pre hmem =>
      hfew pre ((List.mem_inits _ _).mpr
        (((List.mem_inits _ _).mp hmem).trans (List.prefix_append ops [op])))
    have hlast := hfew (ops ++ [op]) ((List.mem_inits _ _).mpr (List.prefix_refl _))
    rw [pendingCauses_concat] at hlast ⊢
    rw [finalState_concat]
    exact driverStep_causes (ih (fun op' hop' => hops op' (List.mem_append_left _ hop')) hpre)
      (hops op (by simp)) hlast

/-! ## Reasons -/

/-- The format of the stream is not a compressed one. -/
def Uncompressed (stream : UvcStreaming) : Prop :=
  ∀ flags ∈ stream.curFormat, flags &&& uvcFmtFlagCompressed = 0

/-- The buffer has not the size of a frame of its stream. -/
def ShortBuffer (stream : UvcStreaming) (buf : UvcBuffer) : Prop :=
  Uncompressed stream ∧ stream.maxVideoFrameSize ≠ 0 ∧
    buf.bytesused ≠ stream.maxVideoFrameSize

/-- What a completion of the buffer reports and leaves, after the calls before it. -/
structure CompletionRight (before : List DriverOp) (buf : UvcBuffer) (queue : UvcVideoQueue)
    (r : DropCauses × List UvcDrvEvent) : Prop where
  dropped : r.2.map UvcDrvEvent.drvOp =
    if queue.flags &&& uvcQueueDropCorrupted ≠ 0 ∧ buf.error ≠ 0 then [uvcDrvDrop] else []
  iso : ∀ e ∈ r.2, e.reason &&& uvcDropIso ≠ 0 ↔ LossSince buf.ptr before
  short : ∀ e ∈ r.2, e.reason &&& uvcDropShort ≠ 0 ↔ ShortBuffer queue.stream buf
  other : ∀ e ∈ r.2, e.reason &&& uvcDropOther ≠ 0 ↔
    ¬LossSince buf.ptr before ∧ ¬ShortBuffer queue.stream buf
  cleared : r.1.lookup buf.ptr = none

/-- What a call reports and leaves, after the calls before it: only completions report
drops. -/
def CallRight (before : List DriverOp) (op : DriverOp) (r : DropCauses × List UvcDrvEvent) :
    Prop :=
  match op with
  | .queueComplete _ (some buf) =>
      ∃ queue ∈ buf.queue, CompletionRight before buf queue r
  | _ => ∀ e ∈ r.2, e.drvOp ≠ uvcDrvDrop

theorem shortFrame_iff (stream : UvcStreaming) (buf : UvcBuffer) :
    shortFrame stream buf = true ↔ ShortBuffer stream buf := by
  have hformat : stream.curFormat.getD 0 &&& uvcFmtFlagCompressed = 0 ↔ Uncompressed stream := by
    unfold Uncompressed
    cases stream.curFormat <;> simp
  unfold shortFrame ShortBuffer
  simp only [Bool.and_eq_true, decide_eq_true_eq, hformat, and_assoc]

/-- The bits of a reason, from whether a loss is pending and the buffer is short. -/
theorem dropReason_bits {stream : UvcStreaming} {buf : UvcBuffer} {loss : Prop} [Decidable loss]
    {cause : UInt8} (hcause : cause = if loss then uvcDropIso else 0) :
    (dropReason stream buf cause &&& uvcDropIso ≠ 0 ↔ loss) ∧
      (dropReason stream buf cause &&& uvcDropShort ≠ 0 ↔ ShortBuffer stream buf) ∧
      (dropReason stream buf cause &&& uvcDropOther ≠ 0 ↔ ¬loss ∧ ¬ShortBuffer stream buf) := by
  rw [← shortFrame_iff, hcause, dropReason]
  by_cases hloss : loss <;> cases shortFrame stream buf <;> simp only [hloss] <;> decide

/-- **Drops and their reasons.**  Over every interleaving of the driver's calls on video
buffers of cameras that pass the filter, with at most 64 buffers with a pending cause at a
time: a drop is reported at the completions the driver drops, and at no other call; its
reason names a lost packet exactly when one was decoded into the buffer since its last
completion, a short frame exactly when the buffer is one, and another cause exactly when
neither is so; and no cause stays pending.
SOURCE: uvc.bpf.c:709-743, 789-899 -/
theorem drop_reason (cfg : FilterConfig) (ops : List DriverOp)
    (hops : ∀ op ∈ ops, DriverCall cfg op) (hfew : FewPending ops) :
    ∀ before op after, ops = before ++ op :: after →
      CallRight before op
        (driverStep cfg {} (finalState (driverStep cfg {}) BoundedMap.empty before) op) := by
  intro before op after heq
  have hcall : DriverCall cfg op := hops op (by simp [heq])
  have hcauses := @run_causes cfg before
    (fun op' hop' => hops op' (by simp [heq, hop'])) fun pre hpre => hfew pre
      ((List.mem_inits _ _).mpr (((List.mem_inits _ _).mp hpre).trans ⟨op :: after, heq.symm⟩))
  generalize hm : finalState (driverStep cfg {}) BoundedMap.empty before = m at hcauses
  cases op with
  | queueNext now queue buf =>
    intro e he
    rw [onQueueNext_recv e he]
    decide
  | decodeIsoc uvcUrb buf => exact fun e he => absurd he List.not_mem_nil
  | queueComplete now ref =>
    cases ref with
    | none => exact hcall.elim
    | some buf =>
      obtain ⟨queue, ids, hqueue, hcomplete⟩ := onQueueComplete_eq m hcall
      obtain ⟨htake, hgone⟩ := uvcDropCauseTake_spec m buf.ptr
      have hcause : (uvcDropCauseTake m buf.ptr).2 =
          if buf.ptr ∈ pendingCauses before then uvcDropIso else 0 := by
        rw [htake, hcauses buf.ptr]
        split <;> rfl
      obtain ⟨hiso, hshort, hother⟩ := @dropReason_bits queue.stream buf _ _ _ hcause
      rw [mem_pendingCauses] at hiso hother
      have hevent : ∀ e ∈ (driverStep cfg {} m (.queueComplete now (some buf))).2,
          e.reason = dropReason queue.stream buf (uvcDropCauseTake m buf.ptr).2 := by
        intro e he
        simp only [driverStep, hcomplete] at he
        split at he
        · rw [List.mem_singleton.mp he]
          rfl
        · exact absurd he List.not_mem_nil
      refine ⟨queue, hqueue, ?_, fun e he => ?_, fun e he => ?_, fun e he => ?_, ?_⟩
      · simp only [driverStep, hcomplete]
        split <;> rfl
      · rw [hevent e he]
        exact hiso
      · rw [hevent e he]
        exact hshort
      · rw [hevent e he]
        exact hother
      · simp only [driverStep, hcomplete]
        rw [hgone, if_pos rfl]

/-- A stream of frames of 614400 bytes. -/
def sampleStream : UvcStreaming :=
  { udev := some { busnum := 1, devnum := 5 }, maxVideoFrameSize := 614400,
    curFormat := some 0 }

/-- A buffer of the stream, with an error, on a queue that drops such buffers. -/
def sampleDropped (bytesused : UInt32) : UvcBuffer :=
  { ptr := 0x50, type := 1, error := 1, bytesused := bytesused,
    queue := some { flags := 2, stream := sampleStream } }

/-- An URB that lost a packet is decoded into the buffer. -/
def sampleLoss : DriverOp :=
  .decodeIsoc
    (some { stream := some sampleStream,
            urb := some { numberOfPackets := 1, isoFrameDesc := [some { status := -18 }] } })
    (some (sampleDropped 0))

/-- The buffer is dropped twice: short and with a loss, then for another reason. -/
def sampleDriverCalls : List DriverOp :=
  [sampleLoss, .queueComplete 20 (some (sampleDropped 1000)),
    .queueComplete 30 (some (sampleDropped 614400))]

theorem drop_reason_sample :
    CallRight [sampleLoss] (.queueComplete 20 (some (sampleDropped 1000)))
      (driverStep {} {} (finalState (driverStep {} {}) BoundedMap.empty [sampleLoss])
        (.queueComplete 20 (some (sampleDropped 1000)))) :=
  drop_reason {} sampleDriverCalls (by decide) (by decide) [sampleLoss] _
    [.queueComplete 30 (some (sampleDropped 614400))] rfl

example : (outputs (driverStep {} {}) BoundedMap.empty sampleDriverCalls).map
    (fun e => (e.drvOp, e.reason)) = [(1, 3), (1, 4)] := by decide +kernel

end UsbTrace.Analysis

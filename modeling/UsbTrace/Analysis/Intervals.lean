import UsbTrace.Analysis.StreamRuns
import UsbTrace.Interface.Vb2
import Mathlib.Data.List.Chain

/-!
# Intervals

A frame is reported with the time since the end of the frame before it on its stream, and a
completed buffer with the time since the one before it on its queue.  Both are differences of
64-bit times kept in 32 bits: an event tells the pause before it exactly when the pause is
shorter than `2^32` ns, some 4.3 seconds (`interval_iff`), and a longer pause is told as a
short one (`interval_wraps`).
-/

set_option autoImplicit false

namespace UsbTrace.Analysis

open UsbTrace.Model UsbTrace.Library UsbTrace.Interface

/-! ## A pause in 32 bits -/

/-- When an event was recorded, and the interval it tells. -/
structure Tick where
  ts : UInt64
  interval : UInt32

def frameTick (e : UvcFrameEvent) : Tick := ⟨e.hdr.tsNs, e.intervalNs⟩

def doneTick (e : UvcVb2Event) : Tick := ⟨e.hdr.tsNs, e.intervalNs⟩

/-- The interval of an event is the time since the one before it. -/
def TellsPause (before t : Tick) : Prop :=
  (t.interval.toNat : ℤ) = t.ts.toNat - before.ts.toNat

instance (before t : Tick) : Decidable (TellsPause before t) :=
  inferInstanceAs (Decidable (_ = _))

/-- The time since the event before is less than `2^32` ns; at the time 0, which stands for
no event, it is 0. -/
def ShortPause (before t : Tick) : Prop :=
  if before.ts = 0 then t.ts = 0
  else before.ts.toNat ≤ t.ts.toNat ∧ t.ts.toNat - before.ts.toNat < 2 ^ 32

instance (before t : Tick) : Decidable (ShortPause before t) :=
  inferInstanceAs (Decidable (ite _ _ _))

/-- The interval after the last event, as the program subtracts. -/
def intervalAfter (last now : UInt64) : UInt32 := if last ≠ 0 then (now - last).toUInt32 else 0

/-- An event goes on from the one before it. -/
def GoesOn (before t : Tick) : Prop := t.interval = intervalAfter before.ts t.ts

/-- **Which pauses are told.** -/
theorem GoesOn.tellsPause_iff {before t : Tick} (h : GoesOn before t) :
    TellsPause before t ↔ ShortPause before t := by
  unfold TellsPause ShortPause
  rw [h, intervalAfter]
  have hlt := before.ts.toNat_lt
  have hlt' := t.ts.toNat_lt
  by_cases h0 : before.ts = 0
  · rw [if_neg (not_not.mpr h0), if_pos h0, h0, ← UInt64.toNat_inj]
    change (0 : ℤ) = t.ts.toNat - 0 ↔ t.ts.toNat = 0
    omega
  · rw [if_pos h0, if_neg h0, UInt64.toNat_toUInt32, UInt64.toNat_sub]
    omega

/-! ## Frames -/

theorem uvcMarkStatus_lastEnd (st : UvcStreamState) (d : IsoPacket) :
    (uvcMarkStatus st d).lastFrameEndTs = st.lastFrameEndTs := by
  unfold uvcMarkStatus
  split <;> rfl

theorem uvcCountPacket_lastEnd (st : UvcStreamState) (d : IsoPacket) (hdr : List UInt8) :
    (uvcCountPacket st d hdr).lastFrameEndTs = st.lastFrameEndTs := by
  unfold uvcCountPacket uvcNoteScr uvcNotePts uvcNoteErr uvcAddPayload
  split <;> split <;> split <;> rfl

/-- The last end of a frame, where the packet at hand is counted. -/
theorem placePacket_lastEnd (st : UvcStreamState) (fid : UInt8) (now : UInt64) :
    (placePacket st fid now).lastFrameEndTs =
      if fidToggled st fid then now else st.lastFrameEndTs := by
  unfold placePacket
  cases fidToggled st fid with
  | false =>
    simp only [Bool.false_eq_true, if_false]
    split <;> rfl
  | true => rfl

/-- The stream remembers when its last frame ended. -/
def AfterFrame (last : Option UvcFrameEvent) (st : UvcStreamState) : Prop :=
  st.lastFrameEndTs = (last.map fun e => e.hdr.tsNs).getD 0

/-- A frame of a stream that remembers its last one goes on from it. -/
theorem AfterFrame.chain {last : Option UvcFrameEvent} {st st' : UvcStreamState}
    (h : AfterFrame last st) (hst : st'.lastFrameEndTs = st.lastFrameEndTs) (ctx : HookCtx)
    (src : UvcSource) (eof : Bool) :
    (last.toList ++ [uvcFrameRecord ctx src st' eof]).IsChain
      (fun a b => GoesOn (frameTick a) (frameTick b)) := by
  cases last with
  | none => exact List.isChain_singleton _
  | some e =>
    refine List.isChain_pair.mpr ?_
    have hlast : st'.lastFrameEndTs = e.hdr.tsNs := hst.trans h
    exact congrArg (intervalAfter · ctx.now) hlast

/-- **One packet**: the frames it completes go on from the last one. -/
theorem streamStep_ticks {last : Option UvcFrameEvent} {st : UvcStreamState} (p : StreamPacket)
    (h : AfterFrame last st) :
    (last.toList ++ (streamStep st p).2).IsChain
        (fun a b => GoesOn (frameTick a) (frameTick b)) ∧
      AfterFrame ((streamStep st p).2.getLast?.or last) (streamStep st p).1 := by
  have hquiet : (last.toList ++ []).IsChain
      (fun a b : UvcFrameEvent => GoesOn (frameTick a) (frameTick b)) := by
    cases last <;> simp
  unfold streamStep
  cases p.desc with
  | none => exact ⟨hquiet, h⟩
  | some d =>
    have hmark := uvcMarkStatus_lastEnd st d
    dsimp only
    cases uvcPayloadHeader p.tblen d with
    | none => exact ⟨hquiet, hmark.trans h⟩
    | some hdr =>
      have hplace := placePacket_lastEnd (uvcMarkStatus st d) (hdr.getD 1 0 &&& uvcFid) p.ctx.now
      have hcount : (countPacket st d hdr p.ctx.now).lastFrameEndTs =
          if fidToggled (uvcMarkStatus st d) (hdr.getD 1 0 &&& uvcFid) then p.ctx.now
          else st.lastFrameEndTs := by
        rw [countPacket, uvcCountPacket_lastEnd, hplace, hmark]
      unfold lostFrame
      dsimp only
      cases htog : fidToggled (uvcMarkStatus st d) (hdr.getD 1 0 &&& uvcFid) with
      | false =>
        rw [htog] at hcount
        simp only [Bool.false_eq_true, if_false, List.nil_append] at hcount ⊢
        split
        · exact ⟨h.chain hcount _ _ _, rfl⟩
        · exact ⟨hquiet, hcount.trans h⟩
      | true =>
        rw [htog] at hcount
        simp only [if_true] at hcount ⊢
        have hlost := h.chain hmark p.ctx p.src false
        split
        · refine ⟨?_, rfl⟩
          rw [← List.append_assoc]
          refine List.isChain_append.mpr ⟨hlost, List.isChain_singleton _, ?_⟩
          intro x hx y hy
          obtain rfl : uvcFrameRecord p.ctx p.src (uvcMarkStatus st d) false = x := by
            simpa using hx
          obtain rfl : uvcFrameRecord p.ctx p.src (countPacket st d hdr p.ctx.now) true = y := by
            simpa using hy
          exact congrArg (intervalAfter · p.ctx.now) hcount
        · exact ⟨hlost, hcount⟩

/-- **The frames of a stream** go on from one another, over every run of the module. -/
theorem streamFrames_ticks (cfg : FilterConfig) {ops : List UvcOp}
    (hops : ∀ op ∈ ops, ByteDevnum op) {k : StreamId} (hk : k.devnum.toNat < 256) :
    ((streamFrames k (outputs (uvcStep cfg) UvcMaps.empty ops)).map frameTick).IsChain GoesOn := by
  have hfresh : AfterFrame none {} := rfl
  rw [streamFrames_assembled cfg UvcMaps.empty hops hk, List.isChain_map]
  exact chain_run (fun _ _ p h => streamStep_ticks p h) hfresh _

/-! ## Completed buffers -/

/-- An operation, with the done events it records of a queue. -/
def queueStep (cfg : FilterConfig) (q : UInt64) (m : UvcMaps) (op : UvcOp) :
    UvcMaps × List UvcVb2Event :=
  ((uvcStep cfg m op).1, match op with
    | .vb2 _ (.bufDone b) => if b.vb2Queue = q then vb2Of (uvcStep cfg m op).2 else []
    | _ => [])

/-- The done events recorded of a queue in a run. -/
def queueDones (cfg : FilterConfig) (q : UInt64) (ops : List UvcOp) : List UvcVb2Event :=
  outputs (queueStep cfg q) UvcMaps.empty ops

/-- The queue remembers when its last done event was recorded. -/
def AfterDone (q : UInt64) (last : Option UvcVb2Event) (m : UvcMaps) : Prop :=
  (queueAt m q).lastDoneNs = (last.map fun e => e.hdr.tsNs).getD 0

/-- What a completion leaves in the state of its queue, and tells of it. -/
theorem vb2NoteDone_interval (st : Vb2Qstate) (sequence : Option UInt32) (now : UInt64) :
    (vb2NoteDone st sequence now).2.2.1 = intervalAfter st.lastDoneNs now ∧
      (vb2NoteDone st sequence now).2.2.2.lastDoneNs = now := by
  unfold vb2NoteDone
  cases sequence <;> exact ⟨rfl, rfl⟩

/-- **One operation**: a done event of the queue goes on from its last one. -/
theorem queueStep_ticks (cfg : FilterConfig) (q : UInt64) {last : Option UvcVb2Event}
    {m : UvcMaps} (op : UvcOp) (h : AfterDone q last m) :
    (last.toList ++ (queueStep cfg q m op).2).IsChain
        (fun a b => GoesOn (doneTick a) (doneTick b)) ∧
      AfterDone q ((queueStep cfg q m op).2.getLast?.or last) (queueStep cfg q m op).1 := by
  have hquiet : (last.toList ++ []).IsChain
      (fun a b : UvcVb2Event => GoesOn (doneTick a) (doneTick b)) := by
    cases last <;> simp
  have hsame : ∀ {m' : UvcMaps}, queueAt m' q = queueAt m q → AfterDone q last m' := by
    intro m' heq
    unfold AfterDone
    rw [heq]
    exact h
  cases op with
  | complete ctx dev urb => exact ⟨hquiet, hsame (onVideoComplete_queueAt cfg ctx m dev urb q)⟩
  | vb2 ctx call =>
    cases call with
    | bufQueue q' b => exact ⟨hquiet, hsame (uvcEmitVb2Xact_queueAt ctx m q' b _ _ q)⟩
    | qbuf q' b => exact ⟨hquiet, hsame (uvcEmitVb2Xact_queueAt ctx m q' b _ _ q)⟩
    | dqbuf q' b => exact ⟨hquiet, hsame (uvcEmitVb2Xact_queueAt ctx m q' b _ _ q)⟩
    | bufDone b =>
      simp only [queueStep, uvcStep, vb2Step]
      by_cases hrec : Recorded m b
      · obtain ⟨st, e, hst, hout, hts, -, hinterval, hqueues⟩ := uvcEmitVb2Done_recorded ctx hrec
        obtain ⟨hafter, hlast⟩ := vb2NoteDone_interval st b.sequence ctx.now
        rw [hout, vb2Of_vb2, vb2Of_nil]
        by_cases hq : b.vb2Queue = q
        · subst hq
          rw [if_pos rfl]
          refine ⟨?_, ?_⟩
          · cases last with
            | none => exact List.isChain_singleton _
            | some e' =>
              refine List.isChain_pair.mpr ?_
              have hremembered : st.lastDoneNs = e'.hdr.tsNs :=
                (congrArg Vb2Qstate.lastDoneNs hst).trans h
              unfold GoesOn doneTick
              rw [hinterval, hafter, hremembered, hts]
          · have hself := (hqueues b.vb2Queue).trans (if_pos rfl)
            exact ((congrArg Vb2Qstate.lastDoneNs hself).trans hlast).trans hts.symm
        · rw [if_neg hq]
          exact ⟨hquiet, hsame ((hqueues q).trans (if_neg (Ne.symm hq)))⟩
      · obtain ⟨hout, hqueues⟩ := uvcEmitVb2Done_dropped ctx hrec
        rw [hout, vb2Of_nil, ite_self]
        exact ⟨hquiet, hsame (hqueues q)⟩

/-- **The done events of a queue** go on from one another, over every run of the module. -/
theorem queueDones_ticks (cfg : FilterConfig) (q : UInt64) (ops : List UvcOp) :
    ((queueDones cfg q ops).map doneTick).IsChain GoesOn := by
  have hfresh : AfterDone q none UvcMaps.empty := rfl
  rw [queueDones, List.isChain_map]
  exact chain_run (fun _ _ op h => queueStep_ticks cfg q op h) hfresh _

/-! ## Which intervals are right -/

/-- Of the events that follow one another, those after a short pause tell it, and no others;
so all of them do where every pause is short, and only there. -/
def ToldIffShort (ticks : List Tick) : Prop :=
  ticks.IsChain (fun a b => TellsPause a b ↔ ShortPause a b) ∧
    (ticks.IsChain TellsPause ↔ ticks.IsChain ShortPause)

/-- A list goes on as one relation demands where, pair by pair, it does as another. -/
theorem isChain_congr {α : Type} {R S : α → α → Prop} {l : List α}
    (h : l.IsChain fun a b => R a b ↔ S a b) : l.IsChain R ↔ l.IsChain S := by
  induction l with
  | nil => exact iff_of_true List.IsChain.nil List.IsChain.nil
  | cons a l ih =>
    cases l with
    | nil => exact iff_of_true (List.isChain_singleton a) (List.isChain_singleton a)
    | cons b l =>
      obtain ⟨hab, hrest⟩ := List.isChain_cons_cons.mp h
      rw [List.isChain_cons_cons, List.isChain_cons_cons]
      exact and_congr hab (ih hrest)

/-- **Pauses below `2^32` ns are told, and no others.**  Over every run, an event of a stream
or a queue tells the time since the one before it exactly when that is less than `2^32` ns; so
all of them do exactly when no pause is longer.
SOURCE: uvc.bpf.c:363-379, 465-510 -/
theorem interval_iff (cfg : FilterConfig) (ops : List UvcOp) (hops : ∀ op ∈ ops, ByteDevnum op) :
    (∀ k : StreamId, k.devnum.toNat < 256 →
      ToldIffShort ((streamFrames k (outputs (uvcStep cfg) UvcMaps.empty ops)).map frameTick)) ∧
      ∀ q : UInt64, ToldIffShort ((queueDones cfg q ops).map doneTick) := by
  have hchain : ∀ ticks : List Tick, ticks.IsChain GoesOn → ToldIffShort ticks := by
    intro ticks h
    have heach := h.imp fun _ _ hgo => hgo.tellsPause_iff
    exact ⟨heach, isChain_congr heach⟩
  exact ⟨fun k hk => hchain _ (streamFrames_ticks cfg hops hk),
    fun q => hchain _ (queueDones_ticks cfg q ops)⟩

/-- A completion of camera 5 with one packet, which is a frame. -/
def wholeFrame (now : UInt64) : UvcOp := sampleCompletion 5 now [samplePacket 2 0]

/-- A buffer is completed on the queue at `0x50`. -/
def doneAt (now : UInt64) : UvcOp := .vb2 { now := now } (.bufDone { vb2Queue := 0x50 })

/-- Two frames, and a buffer between them. -/
def sampleEvents : List UvcOp := [wholeFrame 1000, doneAt 1500, wholeFrame 2000, doneAt 2500]

theorem interval_sample :
    ToldIffShort ((streamFrames ⟨1, 5, 0⟩
        (outputs (uvcStep {}) UvcMaps.empty sampleEvents)).map frameTick) ∧
      ToldIffShort ((queueDones {} 0x50 sampleEvents).map doneTick) :=
  ⟨(interval_iff {} sampleEvents (by decide)).1 ⟨1, 5, 0⟩ (by decide),
    (interval_iff {} sampleEvents (by decide)).2 0x50⟩

/-- **A longer pause, a shorter interval.**  After 33 ms a frame and a buffer tell 33 ms; after
`2^32 + 1` ns they tell 1 ns. -/
theorem interval_wraps :
    let frames := [wholeFrame 1000, wholeFrame 33001000, wholeFrame 4327968297]
    let dones := [doneAt 1000, doneAt 33001000, doneAt 4327968297]
    (streamFrames ⟨1, 5, 0⟩ (outputs (uvcStep {}) UvcMaps.empty frames)).map
        (fun e => (e.hdr.tsNs, e.intervalNs)) =
          [(1000, 0), (33001000, 33000000), (4327968297, 1)] ∧
      (queueDones {} 0x50 dones).map (fun e => (e.hdr.tsNs, e.intervalNs)) =
          [(1000, 0), (33001000, 33000000), (4327968297, 1)] ∧
      ¬((streamFrames ⟨1, 5, 0⟩ (outputs (uvcStep {}) UvcMaps.empty frames)).map
          frameTick).IsChain TellsPause ∧
      ¬((queueDones {} 0x50 dones).map doneTick).IsChain TellsPause := by
  refine ⟨?_, ?_, ?_, ?_⟩ <;> decide +kernel

end UsbTrace.Analysis

import UsbTrace.Model.Records

/-!
# Normalization against the records

`Record.stored` says which integer a record carries under which field name of the rule
language.  `normalize` accepts exactly the byte strings that hold a record of one of the
eight kinds, and what rules then read is what the record stores, with one exception:
`latency_ns` is 64 bits wide in the urb record and 32 in the normalized event
(`normalize_faithful`).
-/

set_option autoImplicit false

namespace UsbTrace.Model

/-- The integer a record stores under a field of the rule language, if it carries that
field.  A urb record carries `brequest` and `wvalue` when it has a setup packet. -/
def Record.stored : Record → DiagField → Option ℤ
  | .urb e, .kind => some e.hdr.kind.toNat
  | .urb e, .isSubmit => some e.isSubmit.toNat
  | .urb e, .status => some e.status.toInt
  | .urb e, .xferType => some e.xferType.toNat
  | .urb e, .dirIn => some e.dirIn.toNat
  | .urb e, .ep => some e.ep.toNat
  | .urb e, .latencyNs => some e.latencyNs.toNat
  | .urb e, .actual => some e.actual.toNat
  | .urb e, .length => some e.length.toNat
  | .urb e, .brequest => if e.hasSetup ≠ 0 then some (e.setup.getD 1 0).toNat else none
  | .urb e, .wvalue =>
    if e.hasSetup ≠ 0 then
      some ((e.setup.getD 2 0).toNat + 256 * (e.setup.getD 3 0).toNat)
    else none
  | .enum e, .kind => some e.hdr.kind.toNat
  | .enum e, .status => some e.status.toInt
  | .enum e, .oldState => some e.oldState.toNat
  | .enum e, .newState => some e.newState.toNat
  | .enum e, .step => some e.step.toNat
  | .power e, .kind => some e.hdr.kind.toNat
  | .power e, .action => some e.action.toNat
  | .lifecycle e, .kind => some e.hdr.kind.toNat
  | .lifecycle e, .action => some e.action.toNat
  | .lifecycle e, .resetResume => some e.resetResume.toNat
  | .hub e, .kind => some e.hdr.kind.toNat
  | .hub e, .action => some e.action.toNat
  | .classUrb e, .kind => some e.hdr.kind.toNat
  | .classUrb e, .status => some e.status.toInt
  | .classUrb e, .errorCount => some e.errorCount.toInt
  | .classUrb e, .actual => some e.actualLength.toNat
  | .classUrb e, .length => some e.actualLength.toNat
  | .classUrb e, .xferType => some e.xferType.toNat
  | .classUrb e, .dirIn => some e.dirIn.toNat
  | .classUrb e, .ep => some e.ep.toNat
  | .classUrb e, .cls => some e.klass.toNat
  | .uvcFrame e, .kind => some e.hdr.kind.toNat
  | .uvcFrame e, .ep => some e.ep.toNat
  | .uvcFrame e, .actual => some e.bytes.toNat
  | .uvcFrame e, .frameBytes => some e.bytes.toNat
  | .uvcFrame e, .frameInterval => some e.intervalNs.toNat
  | .uvcFrame e, .frameErrored => some e.errored.toNat
  | .uvcVb2 e, .kind => some e.hdr.kind.toNat
  | .uvcVb2 e, .actual => some e.bytesused.toNat
  | .uvcVb2 e, .vb2Sequence => some e.sequence.toNat
  | .uvcVb2 e, .vb2SeqGap => some e.seqGap.toNat
  | .uvcVb2 e, .vb2Bytesused => some e.bytesused.toNat
  | .uvcVb2 e, .vb2Interval => some e.intervalNs.toNat
  | .uvcVb2 e, .wireToVb2Ns => some e.wireToVb2Ns.toNat
  | .uvcVb2 e, .vb2Op => some e.vb2Op.toNat
  | .uvcVb2 e, .vb2Starved => some e.starved.toNat
  | .uvcVb2 e, .vb2NumBuffers => some e.numBuffers.toNat
  | .uvcVb2 e, .vb2Queued => some e.queued.toNat
  | .uvcVb2 e, .vb2DrvOwned => some e.drvOwned.toNat
  | _, _ => none

/-- A urb latency of 2³² ns (4.3 s) or more. -/
def Record.longLatency : Record → Prop
  | .urb e => 2 ^ 32 ≤ e.latencyNs.toNat
  | _ => False

end UsbTrace.Model

namespace UsbTrace.Analysis

open UsbTrace.Model UsbTrace.Library

/-- The byte string holds the record: the header names its kind and the string is at
least as long as its struct. -/
inductive Holds (data : List UInt8) : Record → Prop
  | urb (hkind : (usbtraceEventHdr.of data).kind = evtUrb)
      (hlen : urbEvent.sizeof ≤ data.length) : Holds data (.urb (urbEvent.of data))
  | enum (hkind : (usbtraceEventHdr.of data).kind = evtEnum)
      (hlen : enumEvent.sizeof ≤ data.length) : Holds data (.enum (enumEvent.of data))
  | power (hkind : (usbtraceEventHdr.of data).kind = evtPower)
      (hlen : powerRec.sizeof ≤ data.length) : Holds data (.power (powerRec.of data))
  | lifecycle (hkind : (usbtraceEventHdr.of data).kind = evtLifecycle)
      (hlen : lifecycleEvent.sizeof ≤ data.length) :
      Holds data (.lifecycle (lifecycleEvent.of data))
  | hub (hkind : (usbtraceEventHdr.of data).kind = evtHub)
      (hlen : hubEvent.sizeof ≤ data.length) : Holds data (.hub (hubEvent.of data))
  | classUrb (hkind : (usbtraceEventHdr.of data).kind = evtClass)
      (hlen : classUrbEvent.sizeof ≤ data.length) :
      Holds data (.classUrb (classUrbEvent.of data))
  | uvcFrame (hkind : (usbtraceEventHdr.of data).kind = evtUvcFrame)
      (hlen : uvcFrameEvent.sizeof ≤ data.length) :
      Holds data (.uvcFrame (uvcFrameEvent.of data))
  | uvcVb2 (hkind : (usbtraceEventHdr.of data).kind = evtUvcVb2)
      (hlen : uvcVb2Event.sizeof ≤ data.length) : Holds data (.uvcVb2 (uvcVb2Event.of data))

/-! ## Field by field -/

/-- The setup packet's `wValue` is the little-endian number of its two bytes.
SOURCE: diag.c:192-193 -/
theorem setupWvalue_toNat (setup : List UInt8) :
    (setupWvalue setup).toNat = (setup.getD 2 0).toNat + 256 * (setup.getD 3 0).toNat := by
  have hlo := (setup.getD 2 0).toNat_lt
  have hhi := (setup.getD 3 0).toNat_lt
  have hshift : (setup.getD 3 0).toNat <<< 8 < 2 ^ 16 := by
    rw [Nat.shiftLeft_eq]
    omega
  simp only [setupWvalue, UInt16.toNat_or, UInt16.toNat_shiftLeft, UInt8.toNat_toUInt16]
  rw [show (8 : UInt16).toNat % 16 = 8 from rfl, Nat.mod_eq_of_lt hshift, Nat.or_comm,
    ← Nat.shiftLeft_add_eq_or_of_lt hlo, Nat.shiftLeft_eq]
  omega

/-- What rules read of a normalized urb record is what it stores, but for a latency of
more than 32 bits. -/
theorem urb_field (e : UrbEvent) {f : DiagField} {v : ℤ}
    (h : (Record.urb e).stored f = some v) :
    evField (Record.urb e).event f = v ↔
      ¬(f = .latencyNs ∧ (Record.urb e).longLatency) := by
  cases f
  case latencyNs =>
    simp only [Record.stored, Option.some.injEq] at h
    subst h
    have hlt := e.latencyNs.toNat_lt
    simp only [evField, Record.event, normalizeUrb, Record.longLatency,
      UInt64.toNat_toUInt32, true_and]
    omega
  case brequest =>
    by_cases hs : e.hasSetup = 0
    · simp [Record.stored, hs] at h
    · simp only [Record.stored, ne_eq, hs, not_false_eq_true, if_true,
        Option.some.injEq] at h
      simp [evField, Record.event, normalizeUrb, hs, ← h]
  case wvalue =>
    by_cases hs : e.hasSetup = 0
    · simp [Record.stored, hs] at h
    · simp only [Record.stored, ne_eq, hs, not_false_eq_true, if_true,
        Option.some.injEq] at h
      simp [evField, Record.event, normalizeUrb, hs, ← h, setupWvalue_toNat]
  all_goals
    simp only [Record.stored, Option.some.injEq, reduceCtorEq] at h <;>
      simp [evField, Record.event, Record.hdr, normalizeUrb, ← h]

/-- What rules read of a normalized record is what the record stores, but for the latency
of a urb record. -/
theorem event_field (rec : Record) {f : DiagField} {v : ℤ} (h : rec.stored f = some v) :
    evField rec.event f = v ↔ ¬(f = .latencyNs ∧ rec.longLatency) := by
  cases rec with
  | urb e => exact urb_field e h
  | enum e => ?_
  | power e => ?_
  | lifecycle e => ?_
  | hub e => ?_
  | classUrb e => ?_
  | uvcFrame e => ?_
  | uvcVb2 e => ?_
  -- every other field is copied into one of its own width
  all_goals
    refine iff_of_true ?_ (fun hc => hc.2)
    cases f <;> simp only [Record.stored, Option.some.injEq, reduceCtorEq] at h <;>
      rw [← h] <;> rfl

/-! ## Acceptance -/

/-- A record's struct begins with the common header. -/
theorem Holds.hdr_eq {data : List UInt8} {rec : Record} (h : Holds data rec) :
    rec.hdr = usbtraceEventHdr.of data := by
  cases h <;> rfl

/-- Every struct is at least as long as the header. -/
theorem Holds.hdr_le {data : List UInt8} {rec : Record} (h : Holds data rec) :
    usbtraceEventHdr.sizeof ≤ data.length := by
  cases h with
  | urb _ hlen => exact le_trans (by decide) hlen
  | enum _ hlen => exact le_trans (by decide) hlen
  | power _ hlen => exact le_trans (by decide) hlen
  | lifecycle _ hlen => exact le_trans (by decide) hlen
  | hub _ hlen => exact le_trans (by decide) hlen
  | classUrb _ hlen => exact le_trans (by decide) hlen
  | uvcFrame _ hlen => exact le_trans (by decide) hlen
  | uvcVb2 _ hlen => exact le_trans (by decide) hlen

/-- **A byte string that holds a record is accepted**, and stands for the record's event.
SOURCE: diag.c:163-340 -/
theorem normalize_holds {data : List UInt8} {rec : Record} (h : Holds data rec) :
    Model.normalize data = some rec.event := by
  have hview := usbtraceEventHdr.view_eq_some h.hdr_le
  simp only [Model.normalize, hview, Record.event, h.hdr_eq]
  cases h with
  | urb hkind hlen => simp only [hkind, Decode.view_eq_some _ hlen]; rfl
  | enum hkind hlen => simp only [hkind, Decode.view_eq_some _ hlen]; rfl
  | power hkind hlen => simp only [hkind, Decode.view_eq_some _ hlen]; rfl
  | lifecycle hkind hlen => simp only [hkind, Decode.view_eq_some _ hlen]; rfl
  | hub hkind hlen => simp only [hkind, Decode.view_eq_some _ hlen]; rfl
  | classUrb hkind hlen => simp only [hkind, Decode.view_eq_some _ hlen]; rfl
  | uvcFrame hkind hlen => simp only [hkind, Decode.view_eq_some _ hlen]; rfl
  | uvcVb2 hkind hlen => simp only [hkind, Decode.view_eq_some _ hlen]; rfl

/-- A record of its kind that is not there in full is not seen. -/
theorem map_view_eq_none {α β : Type} {d : Decode α} {data : List UInt8} (g : α → β)
    (h : ¬d.sizeof ≤ data.length) : (d.view data).map g = none := by
  rw [Decode.view_eq_none d (by omega)]
  rfl

/-- **Anything else is rejected**: a string too short for its kind's struct, and every
other kind.
SOURCE: diag.c:163-340 -/
theorem normalize_rejects {data : List UInt8} (h : ∀ rec, ¬Holds data rec) :
    Model.normalize data = none := by
  unfold Model.normalize
  split
  · rfl
  · next hd hview =>
    have hhd : hd = usbtraceEventHdr.of data := by
      unfold Decode.view at hview
      split at hview
      · cases hview
      · exact (Option.some.inj hview).symm
    subst hhd
    simp only
    split
    · next hk => exact map_view_eq_none _ fun hl => h _ (.urb hk hl)
    split
    · next hk => exact map_view_eq_none _ fun hl => h _ (.enum hk hl)
    split
    · next hk => exact map_view_eq_none _ fun hl => h _ (.power hk hl)
    split
    · next hk => exact map_view_eq_none _ fun hl => h _ (.lifecycle hk hl)
    split
    · next hk => exact map_view_eq_none _ fun hl => h _ (.hub hk hl)
    split
    · next hk => exact map_view_eq_none _ fun hl => h _ (.classUrb hk hl)
    split
    · next hk => exact map_view_eq_none _ fun hl => h _ (.uvcFrame hk hl)
    split
    · next hk => exact map_view_eq_none _ fun hl => h _ (.uvcVb2 hk hl)
    · rfl

/-- A record followed by other bytes is the same record. -/
theorem Holds.append {data : List UInt8} {rec : Record} (h : Holds data rec)
    (extra : List UInt8) : Holds (data ++ extra) rec := by
  have hhdr := usbtraceEventHdr.of_append extra (le_trans (by decide) h.hdr_le)
  have hlong : ∀ {n : ℕ}, n ≤ data.length → n ≤ (data ++ extra).length := by
    intro n hn
    rw [List.length_append]
    omega
  cases h with
  | urb hk hl =>
    rw [← urbEvent.of_append extra (le_trans (by decide) hl)]
    exact .urb (by rw [hhdr, hk]) (hlong hl)
  | enum hk hl =>
    rw [← enumEvent.of_append extra (le_trans (by decide) hl)]
    exact .enum (by rw [hhdr, hk]) (hlong hl)
  | power hk hl =>
    rw [← powerRec.of_append extra (le_trans (by decide) hl)]
    exact .power (by rw [hhdr, hk]) (hlong hl)
  | lifecycle hk hl =>
    rw [← lifecycleEvent.of_append extra (le_trans (by decide) hl)]
    exact .lifecycle (by rw [hhdr, hk]) (hlong hl)
  | hub hk hl =>
    rw [← hubEvent.of_append extra (le_trans (by decide) hl)]
    exact .hub (by rw [hhdr, hk]) (hlong hl)
  | classUrb hk hl =>
    rw [← classUrbEvent.of_append extra (le_trans (by decide) hl)]
    exact .classUrb (by rw [hhdr, hk]) (hlong hl)
  | uvcFrame hk hl =>
    rw [← uvcFrameEvent.of_append extra (le_trans (by decide) hl)]
    exact .uvcFrame (by rw [hhdr, hk]) (hlong hl)
  | uvcVb2 hk hl =>
    rw [← uvcVb2Event.of_append extra (le_trans (by decide) hl)]
    exact .uvcVb2 (by rw [hhdr, hk]) (hlong hl)

/-- **No byte past a record is looked at.** -/
theorem normalize_append {data : List UInt8} {rec : Record} (h : Holds data rec)
    (extra : List UInt8) : Model.normalize (data ++ extra) = Model.normalize data := by
  rw [normalize_holds h, normalize_holds (h.append extra)]

/-- **Normalization is faithful but for long latencies.**  A byte string is accepted
exactly when it holds a record of one of the eight kinds, and a field rules read of the
event is the integer the record stores, unless it is the latency of a urb record and does
not fit in 32 bits.
SOURCE: diag.c:163-340, engine.c:118-154 -/
theorem normalize_faithful (data : List UInt8) :
    (Model.normalize data = none ↔ ∀ rec, ¬Holds data rec) ∧
      ∀ rec, Holds data rec → ∃ e, Model.normalize data = some e ∧
        ∀ f v, rec.stored f = some v →
          (evFieldVal e f = v ↔ ¬(f = .latencyNs ∧ rec.longLatency)) := by
  refine ⟨⟨fun hnone rec hrec => ?_, normalize_rejects⟩, fun rec hrec => ?_⟩
  · rw [normalize_holds hrec] at hnone
    cases hnone
  · refine ⟨rec.event, normalize_holds hrec, fun f v hv => ?_⟩
    rw [evFieldVal_eq]
    exact event_field rec hv

/-- A urb record of 80 bytes, completed 2³² + 5 ns after its submission. -/
def slowUrb : List UInt8 :=
  [1, 0, 0, 0, 80, 0, 0, 0, 0, 0, 0, 0, 0, 0, 0, 0, 5, 0, 0, 0, 1, 0, 0, 0] ++
    List.replicate 56 0

/-- **A long latency is truncated**: the record stores 4294967301 ns, and rules read 5. -/
theorem normalize_truncates :
    ¬∀ (data : List UInt8) (rec : Record) (e : DiagEvent), Holds data rec →
      Model.normalize data = some e → ∀ f v, rec.stored f = some v → evFieldVal e f = v := by
  intro h
  have hholds : Holds slowUrb (.urb (urbEvent.of slowUrb)) := .urb (by decide) (by decide)
  have hread := h slowUrb _ _ hholds (normalize_holds hholds) .latencyNs 4294967301 (by decide)
  exact absurd hread (by decide)

/-- The places of a normalized event no rule names: its time, its device and its ids. -/
theorem event_identity (rec : Record) :
    rec.event.kind = rec.hdr.kind ∧ rec.event.tsNs = rec.hdr.tsNs ∧
      (rec.event.vid, rec.event.pid, diagEventKey rec.event) =
        match rec with
        | .urb e => (e.vid, e.product, ⟨e.busnum, e.devnum⟩)
        | .enum e => (e.vid, e.product, ⟨e.busnum, e.devnum⟩)
        | .power e => (e.vid, e.product, ⟨e.busnum, e.devnum⟩)
        | .lifecycle e => (e.vid, e.product, ⟨e.busnum, e.devnum⟩)
        | .hub e => (e.vid, e.product, ⟨e.busnum, e.devnum⟩)
        | .classUrb e => (e.vid, e.product, ⟨e.busnum, e.devnum⟩)
        | .uvcFrame e => (e.vid, e.product, ⟨e.busnum, e.devnum⟩)
        | .uvcVb2 e => (e.vid, e.product, ⟨e.busnum, e.devnum⟩) := by
  cases rec <;> exact ⟨rfl, rfl, rfl⟩

end UsbTrace.Analysis

import UsbTrace.Interface.LineFormat
import UsbTrace.Model.ClassStream

/-!
# Sessions of the class modules

A module reads a record of a kind where the header names the kind and the record is there in
full (`recordOf`); what it says of it is a line that reads back as an object (`ReadsAs`).
-/

set_option autoImplicit false

namespace UsbTrace.Interface

open UsbTrace.Model UsbTrace.Library UsbTrace.Library.Json

/-- The line is JSON, and its members, read back, are these. -/
def ReadsAs (line : CStr) (ms : List Member) : Prop :=
  IsLine line ∧ readObject line = some (ms, ['\n'])

/-- The record of a kind that some bytes hold in full. -/
def recordOf {α : Type} (kind : EventKind) (d : Decode α) (data : List UInt8) : Option α :=
  if (usbtraceEventHdr.of data).kind = kind ∧ d.sizeof ≤ data.length then some (d.of data)
  else none

variable {α : Type} {kind : EventKind} {d : Decode α} {data : List UInt8}

theorem recordOf_of_kind (hkind : (usbtraceEventHdr.of data).kind = kind) :
    recordOf kind d data = d.view data := by
  rw [recordOf, Decode.view]
  by_cases hlen : d.sizeof ≤ data.length
  · rw [if_pos ⟨hkind, hlen⟩, if_neg (by omega)]
  · rw [if_neg fun h => hlen h.2, if_pos (by omega)]

theorem recordOf_of_ne (hkind : (usbtraceEventHdr.of data).kind ≠ kind) :
    recordOf kind d data = none := if_neg fun h => hkind h.1

theorem recordOf_of_short (hd : usbtraceEventHdr.sizeof ≤ d.sizeof)
    (h : usbtraceEventHdr.view data = none) : recordOf kind d data = none := by
  refine if_neg fun hfull => ?_
  rw [Decode.view_eq_some _ (hd.trans hfull.2)] at h
  cases h

/-- A header that is there is the one the bytes begin with. -/
theorem hdr_of_view {h : UsbtraceEventHdr} (hview : usbtraceEventHdr.view data = some h) :
    h = usbtraceEventHdr.of data := by
  rw [Decode.view] at hview
  split at hview
  · cases hview
  · exact (Option.some.inj hview).symm

/-! ## The shared consumer -/

/-- The class record of some bytes. -/
def classRecord (data : List UInt8) : Option ClassUrbEvent :=
  (recordOf evtClass classUrbEvent data).map (ClassUrbEvent.readTexts data)

/-- **The shared consumer** reads class records and nothing else.
SOURCE: class_stream.c:90-112 -/
theorem classStreamOnEvent_eq (c : ClassStreamCtx) (data : List UInt8) :
    classStreamOnEvent c data = match classRecord data with
      | none => (c, [])
      | some e =>
        ({ c with stats := c.stats.note e },
          if c.all || classAnomaly e then [classPrintJson e] else []) := by
  rw [classStreamOnEvent, classRecord]
  cases hview : usbtraceEventHdr.view data with
  | none =>
    rw [recordOf_of_short (by decide) hview]
    rfl
  | some h =>
    obtain rfl := hdr_of_view hview
    dsimp only
    by_cases hkind : (usbtraceEventHdr.of data).kind = evtClass
    · rw [recordOf_of_kind hkind]
      refine (if_neg (not_not.mpr hkind)).trans ?_
      cases classUrbEvent.view data <;> rfl
    · rw [if_pos hkind, recordOf_of_ne hkind]
      rfl

/-- The counts of some class records. -/
def classTotals (es : List ClassUrbEvent) : ClassStats where
  urbs := ULong.ofNat es.length
  isocErr := ULong.ofNat (es.countP fun e => e.errorCount > 0)
  statusErr := ULong.ofNat (es.countP fun e => e.status ≠ 0)
  bytes := UInt64.ofNat (es.map fun e => e.actualLength.toNat).sum

theorem classTotals_concat (es : List ClassUrbEvent) (e : ClassUrbEvent) :
    classTotals (es ++ [e]) = (classTotals es).note e := by
  rw [classTotals, ULong.ofNat_length_concat, ULong.ofNat_countP_concat,
    ULong.ofNat_countP_concat, ofNat_sum_concat]
  rfl

end UsbTrace.Interface

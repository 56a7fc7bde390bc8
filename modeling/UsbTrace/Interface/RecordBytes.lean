import UsbTrace.Model.RecordBytes
import UsbTrace.Analysis.Normalize

/-!
# Records read back

The decoder of every record reads back the members the record was stored with, as long as its
arrays have the sizes the structs give them (`WellSized`).
-/

set_option autoImplicit false

namespace UsbTrace.Interface

open UsbTrace.Model UsbTrace.Library

/-- The arrays of a record have the sizes their structs give them. -/
def WellSized : Record → Prop
  | .urb e => e.comm.length = usbtraceCommLen ∧ e.setup.length = 8
  | .enum e => e.devpath.length = 16 ∧ e.comm.length = usbtraceCommLen ∧ e.pad.length = 3
  | .power e => e.devpath.length = 16 ∧ e.comm.length = usbtraceCommLen
  | .lifecycle e => e.devpath.length = 16 ∧ e.comm.length = usbtraceCommLen
  | .hub e => e.devpath.length = 16 ∧ e.comm.length = usbtraceCommLen
  | .classUrb e => e.comm.length = usbtraceCommLen
  | .uvcFrame e => e.comm.length = usbtraceCommLen
  | .uvcVb2 e => e.comm.length = usbtraceCommLen

theorem hdr_stores (h : UsbtraceEventHdr) : Stores usbtraceEventHdr h.fields h :=
  (((Stores.pure UsbtraceEventHdr.mk).u32 h.kind).u32 h.size).u64 h.tsNs

/-! ## Record by record -/

theorem urbEvent_stores {e : UrbEvent} (hsize : WellSized (.urb e)) :
    Stores urbEvent e.fields e := by
  have h := ((hdr_stores e.hdr).map UrbEvent.mk).u64 e.latencyNs |>.u32 e.pid |>.u32 e.length
    |>.u32 e.actual |>.s32 e.status |>.u16 e.vid |>.u16 e.product |>.u16 e.busnum |>.u16 e.devnum
    |>.u8 e.ep |>.u8 e.dirIn |>.u8 e.xferType |>.u8 e.isSubmit |>.bytes hsize.1 |>.u8 e.hasSetup
    |>.bytes hsize.2
  simp only [List.append_assoc, List.cons_append, List.nil_append] at h
  exact h

theorem enumEvent_stores {e : EnumEvent} (hsize : WellSized (.enum e)) :
    Stores enumEvent e.fields e := by
  have h := ((hdr_stores e.hdr).map EnumEvent.mk).u32 e.pid |>.u16 e.vid |>.u16 e.product
    |>.u16 e.busnum |>.u16 e.devnum |>.u8 e.oldState |>.u8 e.newState |>.u8 e.speed
    |>.u8 e.portnum |>.bytes hsize.1 |>.bytes hsize.2.1 |>.s32 e.status |>.u8 e.step
    |>.bytes hsize.2.2
  simp only [List.append_assoc, List.cons_append, List.nil_append] at h
  exact h

theorem powerRec_stores {e : PowerRec} (hsize : WellSized (.power e)) :
    Stores powerRec e.fields e := by
  have h := ((hdr_stores e.hdr).map PowerRec.mk).u32 e.pid |>.u16 e.vid |>.u16 e.product
    |>.u16 e.busnum |>.u16 e.devnum |>.u8 e.action |>.u8 e.speed |>.u8 e.portnum |>.u8 e.pad
    |>.bytes hsize.1 |>.bytes hsize.2
  simp only [List.append_assoc, List.cons_append, List.nil_append] at h
  exact h

theorem lifecycleEvent_stores {e : LifecycleEvent} (hsize : WellSized (.lifecycle e)) :
    Stores lifecycleEvent e.fields e := by
  have h := ((hdr_stores e.hdr).map LifecycleEvent.mk).u32 e.pid |>.u16 e.vid |>.u16 e.product
    |>.u16 e.busnum |>.u16 e.devnum |>.u8 e.action |>.u8 e.speed |>.u8 e.portnum
    |>.u8 e.resetResume |>.bytes hsize.1 |>.bytes hsize.2
  simp only [List.append_assoc, List.cons_append, List.nil_append] at h
  exact h

theorem hubEvent_stores {e : HubEvent} (hsize : WellSized (.hub e)) :
    Stores hubEvent e.fields e := by
  have h := ((hdr_stores e.hdr).map HubEvent.mk).u32 e.pid |>.u32 e.ocCount |>.u16 e.vid
    |>.u16 e.product |>.u16 e.busnum |>.u16 e.devnum |>.u8 e.action |>.u8 e.speed
    |>.u8 e.portnum |>.u8 e.warm |>.bytes hsize.1 |>.bytes hsize.2
  simp only [List.append_assoc, List.cons_append, List.nil_append] at h
  exact h

theorem classUrbEvent_stores {e : ClassUrbEvent} (hsize : WellSized (.classUrb e)) :
    Stores classUrbEvent e.fields e := by
  have h := ((hdr_stores e.hdr).map ClassUrbEvent.mk).s32 e.status |>.s32 e.errorCount
    |>.u32 e.numberOfPackets |>.u32 e.actualLength |>.s32 e.startFrame |>.u32 e.pid |>.u16 e.vid
    |>.u16 e.product |>.u16 e.busnum |>.u16 e.devnum |>.u8 e.klass |>.u8 e.ep |>.u8 e.dirIn
    |>.u8 e.xferType |>.bytes hsize
  simp only [List.append_assoc, List.cons_append, List.nil_append] at h
  exact h

theorem uvcFrameEvent_stores {e : UvcFrameEvent} (hsize : WellSized (.uvcFrame e)) :
    Stores uvcFrameEvent e.fields e := by
  have h := ((hdr_stores e.hdr).map UvcFrameEvent.mk).u32 e.bytes |>.u32 e.packets
    |>.u32 e.errPackets |>.u32 e.durationNs |>.u32 e.intervalNs |>.u32 e.pts |>.u32 e.scrStc
    |>.u16 e.scrSof |>.u16 e.vid |>.u16 e.product |>.u16 e.busnum |>.u16 e.devnum |>.u8 e.ep
    |>.u8 e.errored |>.u8 e.eof |>.u8 e.fid |>.bytes hsize
  simp only [List.append_assoc, List.cons_append, List.nil_append] at h
  exact h

theorem uvcVb2Event_stores {e : UvcVb2Event} (hsize : WellSized (.uvcVb2 e)) :
    Stores uvcVb2Event e.fields e := by
  have h := ((hdr_stores e.hdr).map UvcVb2Event.mk).u32 e.sequence |>.u32 e.bytesused
    |>.u64 e.vb2Timestamp |>.u8 e.state |>.u32 e.intervalNs |>.u8 e.bufIndex |>.u8 e.seqGap
    |>.u8 e.vb2Op |>.u8 e.starved |>.u16 e.numBuffers |>.u16 e.queued |>.u16 e.drvOwned
    |>.u32 e.wireToVb2Ns |>.u16 e.vid |>.u16 e.product |>.u16 e.busnum |>.u16 e.devnum
    |>.bytes hsize
  simp only [List.append_assoc, List.cons_append, List.nil_append] at h
  exact h

theorem uvcDrvEvent_stores (e : UvcDrvEvent) : Stores uvcDrvEvent e.fields e := by
  have h := ((hdr_stores e.hdr).map UvcDrvEvent.mk).u8 e.drvOp |>.u8 e.reason |>.u16 e.vid
    |>.u16 e.product |>.u16 e.busnum |>.u16 e.devnum
  simp only [List.append_assoc, List.cons_append, List.nil_append] at h
  exact h

end UsbTrace.Interface

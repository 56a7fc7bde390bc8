import UsbTrace.Library.StructBytes
import UsbTrace.Model.Driver

/-!
# Records in the ring buffer

A hook fills in the struct of its record in memory the kernel reserved for it; what a consumer is
handed is that memory.  The members stand in source order; what lies between them is whatever
the memory held.
-/

set_option autoImplicit false

namespace UsbTrace.Model

open UsbTrace.Library

def UsbtraceEventHdr.fields (h : UsbtraceEventHdr) : List Field :=
  [.int 4 h.kind.toNat, .int 4 h.size.toNat, .int 8 h.tsNs.toNat]

def UrbEvent.fields (e : UrbEvent) : List Field :=
  e.hdr.fields ++ [
    .int 8 e.latencyNs.toNat, .int 4 e.pid.toNat, .int 4 e.length.toNat, .int 4 e.actual.toNat,
    .int 4 e.status.toUInt32.toNat, .int 2 e.vid.toNat, .int 2 e.product.toNat,
    .int 2 e.busnum.toNat, .int 2 e.devnum.toNat, .int 1 e.ep.toNat, .int 1 e.dirIn.toNat,
    .int 1 e.xferType.toNat, .int 1 e.isSubmit.toNat, .bytes e.comm, .int 1 e.hasSetup.toNat,
    .bytes e.setup]

def EnumEvent.fields (e : EnumEvent) : List Field :=
  e.hdr.fields ++ [
    .int 4 e.pid.toNat, .int 2 e.vid.toNat, .int 2 e.product.toNat, .int 2 e.busnum.toNat,
    .int 2 e.devnum.toNat, .int 1 e.oldState.toNat, .int 1 e.newState.toNat,
    .int 1 e.speed.toNat, .int 1 e.portnum.toNat, .bytes e.devpath, .bytes e.comm,
    .int 4 e.status.toUInt32.toNat, .int 1 e.step.toNat, .bytes e.pad]

def PowerRec.fields (e : PowerRec) : List Field :=
  e.hdr.fields ++ [
    .int 4 e.pid.toNat, .int 2 e.vid.toNat, .int 2 e.product.toNat, .int 2 e.busnum.toNat,
    .int 2 e.devnum.toNat, .int 1 e.action.toNat, .int 1 e.speed.toNat, .int 1 e.portnum.toNat,
    .int 1 e.pad.toNat, .bytes e.devpath, .bytes e.comm]

def LifecycleEvent.fields (e : LifecycleEvent) : List Field :=
  e.hdr.fields ++ [
    .int 4 e.pid.toNat, .int 2 e.vid.toNat, .int 2 e.product.toNat, .int 2 e.busnum.toNat,
    .int 2 e.devnum.toNat, .int 1 e.action.toNat, .int 1 e.speed.toNat, .int 1 e.portnum.toNat,
    .int 1 e.resetResume.toNat, .bytes e.devpath, .bytes e.comm]

def HubEvent.fields (e : HubEvent) : List Field :=
  e.hdr.fields ++ [
    .int 4 e.pid.toNat, .int 4 e.ocCount.toNat, .int 2 e.vid.toNat, .int 2 e.product.toNat,
    .int 2 e.busnum.toNat, .int 2 e.devnum.toNat, .int 1 e.action.toNat, .int 1 e.speed.toNat,
    .int 1 e.portnum.toNat, .int 1 e.warm.toNat, .bytes e.devpath, .bytes e.comm]

def ClassUrbEvent.fields (e : ClassUrbEvent) : List Field :=
  e.hdr.fields ++ [
    .int 4 e.status.toUInt32.toNat, .int 4 e.errorCount.toUInt32.toNat,
    .int 4 e.numberOfPackets.toNat, .int 4 e.actualLength.toNat,
    .int 4 e.startFrame.toUInt32.toNat, .int 4 e.pid.toNat, .int 2 e.vid.toNat,
    .int 2 e.product.toNat, .int 2 e.busnum.toNat, .int 2 e.devnum.toNat, .int 1 e.klass.toNat,
    .int 1 e.ep.toNat, .int 1 e.dirIn.toNat, .int 1 e.xferType.toNat, .bytes e.comm]

def UvcFrameEvent.fields (e : UvcFrameEvent) : List Field :=
  e.hdr.fields ++ [
    .int 4 e.bytes.toNat, .int 4 e.packets.toNat, .int 4 e.errPackets.toNat,
    .int 4 e.durationNs.toNat, .int 4 e.intervalNs.toNat, .int 4 e.pts.toNat,
    .int 4 e.scrStc.toNat, .int 2 e.scrSof.toNat, .int 2 e.vid.toNat, .int 2 e.product.toNat,
    .int 2 e.busnum.toNat, .int 2 e.devnum.toNat, .int 1 e.ep.toNat, .int 1 e.errored.toNat,
    .int 1 e.eof.toNat, .int 1 e.fid.toNat, .bytes e.comm]

def UvcVb2Event.fields (e : UvcVb2Event) : List Field :=
  e.hdr.fields ++ [
    .int 4 e.sequence.toNat, .int 4 e.bytesused.toNat, .int 8 e.vb2Timestamp.toNat,
    .int 1 e.state.toNat, .int 4 e.intervalNs.toNat, .int 1 e.bufIndex.toNat,
    .int 1 e.seqGap.toNat, .int 1 e.vb2Op.toNat, .int 1 e.starved.toNat,
    .int 2 e.numBuffers.toNat, .int 2 e.queued.toNat, .int 2 e.drvOwned.toNat,
    .int 4 e.wireToVb2Ns.toNat, .int 2 e.vid.toNat, .int 2 e.product.toNat,
    .int 2 e.busnum.toNat, .int 2 e.devnum.toNat, .bytes e.comm]

def UvcDrvEvent.fields (e : UvcDrvEvent) : List Field :=
  e.hdr.fields ++ [
    .int 1 e.drvOp.toNat, .int 1 e.reason.toNat, .int 2 e.vid.toNat, .int 2 e.product.toNat,
    .int 2 e.busnum.toNat, .int 2 e.devnum.toNat]

/-- The members of a record. -/
def Record.fields : Record → List Field
  | .urb e => e.fields
  | .enum e => e.fields
  | .power e => e.fields
  | .lifecycle e => e.fields
  | .hub e => e.fields
  | .classUrb e => e.fields
  | .uvcFrame e => e.fields
  | .uvcVb2 e => e.fields

/-- A record in memory that held `fill` before. -/
def Record.inMemory (fill : ℕ → UInt8) (rec : Record) : List UInt8 := structBytes fill rec.fields

end UsbTrace.Model

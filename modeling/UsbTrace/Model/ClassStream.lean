import UsbTrace.Library.CLong
import UsbTrace.Library.Run
import UsbTrace.Model.EventLines

/-!
# The consumer of class records

`class_stream_on_event` and `class_stream_summary` (class_stream.c:90-134) in JSON mode, which
uac and storage run as they are, and hid and uvc beside their own consumers.  A summary shows
what the counts are on a target with a `long` of some width.
-/

set_option autoImplicit false

namespace UsbTrace.Model

open UsbTrace.Library

/-- `struct class_stats` (class_stream.h). -/
structure ClassStats where
  urbs : ULong := 0
  isocErr : ULong := 0
  statusErr : ULong := 0
  bytes : UInt64 := 0
deriving DecidableEq, Repr

/-- `struct class_stream_ctx` (class_stream.h). -/
structure ClassStreamCtx where
  all : Bool := false
  stats : ClassStats := {}
deriving DecidableEq, Repr

/-- An URB that is printed without `--all`. -/
def classAnomaly (e : ClassUrbEvent) : Bool := e.status ≠ 0 || e.errorCount > 0

/-- The tally of one URB (class_stream.c:101-107). -/
def ClassStats.note (st : ClassStats) (e : ClassUrbEvent) : ClassStats where
  urbs := st.urbs + 1
  isocErr := if e.errorCount > 0 then st.isocErr + 1 else st.isocErr
  statusErr := if e.status ≠ 0 then st.statusErr + 1 else st.statusErr
  bytes := st.bytes + e.actualLength.toUInt64

/-- `class_stream_on_event` (class_stream.c:90-112). -/
def classStreamOnEvent (c : ClassStreamCtx) (data : List UInt8) : ClassStreamCtx × List CStr :=
  match usbtraceEventHdr.view data with
  | none => (c, [])
  | some h =>
    if h.kind ≠ evtClass then (c, [])
    else match (classUrbEvent.view data).map (ClassUrbEvent.readTexts data) with
      | none => (c, [])
      | some e =>
        ({ c with stats := c.stats.note e },
          if c.all || classAnomaly e then [classPrintJson e] else [])

/-- `class_stream_summary` (class_stream.c:114-122). -/
def classStreamSummary (long : LongWidth) (modname : CStr) (st : ClassStats) : CStr :=
  printf ("\x7b\"event\":\"%s_summary\",\"urbs\":%lu,\"isoc_err\":%lu," ++
      "\"status_err\":%lu,\"bytes\":%llu\x7d\n")
    [.str modname, .num (st.urbs.toNat long), .num (st.isocErr.toNat long),
      .num (st.statusErr.toNat long), .num st.bytes.toNat]

/-- The modules that are nothing but the shared consumer (uac.c, storage.c). -/
inductive PlainModule where
  | uac | storage
deriving DecidableEq, Repr

def PlainModule.name : PlainModule → CStr
  | .uac => "uac".toList
  | .storage => "storage".toList

/-- What a session of such a module prints for the records its map hands on, `on_stop` included
(uac.c:48-51, storage.c:48-51). -/
def classSession (long : LongWidth) (m : PlainModule) (all : Bool) (records : List (List UInt8)) :
    List CStr :=
  outputs classStreamOnEvent { all := all } records ++
    [classStreamSummary long m.name (finalState classStreamOnEvent { all := all } records).stats]

end UsbTrace.Model

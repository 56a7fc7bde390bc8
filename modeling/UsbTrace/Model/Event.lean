import Mathlib.Tactic.NormNum
import Mathlib.Tactic.Linarith

/-!
# The normalized event and the fields rules read

`DiagEvent` is `struct diag_event` (diag.h:20-77), the one record shape every
tracing module's record is flattened into.  `evFieldVal` is the selector a rule reads
it through (engine.c:118-154): every field, whatever its width and signedness, is
returned as a C `long`.

The integer types are the source's own.  A C `long` is an integer in the range of its
width: `evFieldValOn` takes the width, and the engine is modelled with that of the 64-bit
targets, where no field is cut (`evFieldVal_eq`).
-/

set_option autoImplicit false

namespace UsbTrace.Model

/-- `enum usbtrace_event_kind` (common.h:22-34), as it stands in a record's header. -/
abbrev EventKind := UInt32

def evtUrb : EventKind := 1
def evtEnum : EventKind := 2
def evtPower : EventKind := 3
def evtLifecycle : EventKind := 4
def evtClass : EventKind := 5
def evtUvcFrame : EventKind := 6
def evtUvcVb2 : EventKind := 7
def evtUvcDrv : EventKind := 8
def evtHub : EventKind := 9

/-- `ENUM_STEP_STATE` (enum.h): a `usb_set_device_state` transition. -/
def enumStepState : UInt8 := 0

/-- `LIFECYCLE_DISCONNECT` (lifecycle.h). -/
def lifecycleDisconnect : UInt8 := 1

/-- `USBTRACE_CLASS_VIDEO` (class.h). -/
def usbtraceClassVideo : UInt8 := 0

/-- `struct diag_devkey`: only (bus,dev) is stable across modules and across an
enumeration (diag.h:79-89). -/
structure DiagDevkey where
  busnum : UInt16 := 0
  devnum : UInt16 := 0
deriving DecidableEq, Repr

/-- `struct diag_event` (diag.h:20-77).  The defaults are those of `memset`. -/
structure DiagEvent where
  kind : EventKind := 0
  tsNs : UInt64 := 0
  vid : UInt16 := 0
  pid : UInt16 := 0
  busnum : UInt16 := 0
  devnum : UInt16 := 0
  speed : UInt8 := 0
  portnum : UInt8 := 0
  status : Int32 := 0
  latencyNs : UInt32 := 0
  actual : UInt32 := 0
  length : UInt32 := 0
  errorCount : Int32 := 0
  xferType : UInt8 := 0
  dirIn : UInt8 := 0
  ep : UInt8 := 0
  isSubmit : UInt8 := 0
  cls : UInt8 := 0
  frameBytes : UInt32 := 0
  frameIntervalNs : UInt32 := 0
  frameErrored : UInt8 := 0
  vb2Sequence : UInt32 := 0
  vb2Bytesused : UInt32 := 0
  vb2IntervalNs : UInt32 := 0
  wireToVb2Ns : UInt32 := 0
  vb2SeqGap : UInt8 := 0
  vb2Op : UInt8 := 0
  vb2Starved : UInt8 := 0
  vb2NumBuffers : UInt16 := 0
  vb2Queued : UInt16 := 0
  vb2DrvOwned : UInt16 := 0
  oldState : UInt8 := 0
  newState : UInt8 := 0
  action : UInt8 := 0
  resetResume : UInt8 := 0
  step : UInt8 := 0
  hasSetup : UInt8 := 0
  brequest : UInt8 := 0
  wvalue : UInt16 := 0
  comm : List UInt8 := []
  devpath : List UInt8 := []
deriving DecidableEq, Repr

/-- `diag_event_key` (diag.h:91-96). -/
def diagEventKey (e : DiagEvent) : DiagDevkey := ⟨e.busnum, e.devnum⟩

/-- `enum diag_field` (engine.h:24-57): the fields the rule language can name. -/
inductive DiagField where
  | none | kind | isSubmit | status | xferType | dirIn | ep | action | oldState | newState
  | latencyNs | actual | length | errorCount | cls | frameBytes | frameInterval
  | frameErrored | vb2Sequence | vb2SeqGap | vb2Bytesused | vb2Interval | wireToVb2Ns
  | vb2Op | vb2Starved | vb2NumBuffers | vb2Queued | vb2DrvOwned | step | brequest
  | wvalue | resetResume
deriving DecidableEq, Repr

/-- The integer `ev_field_val` selects, before it is converted to `long`. -/
def evField (e : DiagEvent) : DiagField → ℤ
  | .kind => e.kind.toNat
  | .isSubmit => e.isSubmit.toNat
  | .status => e.status.toInt
  | .xferType => e.xferType.toNat
  | .dirIn => e.dirIn.toNat
  | .ep => e.ep.toNat
  | .action => e.action.toNat
  | .oldState => e.oldState.toNat
  | .newState => e.newState.toNat
  | .latencyNs => e.latencyNs.toNat
  | .actual => e.actual.toNat
  | .length => e.length.toNat
  | .errorCount => e.errorCount.toInt
  | .cls => e.cls.toNat
  | .frameBytes => e.frameBytes.toNat
  | .frameInterval => e.frameIntervalNs.toNat
  | .frameErrored => e.frameErrored.toNat
  | .vb2Sequence => e.vb2Sequence.toNat
  | .vb2SeqGap => e.vb2SeqGap.toNat
  | .vb2Bytesused => e.vb2Bytesused.toNat
  | .vb2Interval => e.vb2IntervalNs.toNat
  | .wireToVb2Ns => e.wireToVb2Ns.toNat
  | .vb2Op => e.vb2Op.toNat
  | .vb2Starved => e.vb2Starved.toNat
  | .vb2NumBuffers => e.vb2NumBuffers.toNat
  | .vb2Queued => e.vb2Queued.toNat
  | .vb2DrvOwned => e.vb2DrvOwned.toNat
  | .step => e.step.toNat
  | .brequest => if e.hasSetup ≠ 0 then e.brequest.toNat else -1
  | .wvalue => if e.hasSetup ≠ 0 then e.wvalue.toNat else -1
  | .resetResume => e.resetResume.toNat
  | .none => 0

/-- The conversion of an integer to a C `long` of `bits` bits (two's complement). -/
def toLong (bits : ℕ) (v : ℤ) : ℤ := v.bmod (2 ^ bits)

/-- `ev_field_val` on a target whose `long` has `bits` bits (engine.c:118-154). -/
def evFieldValOn (bits : ℕ) (e : DiagEvent) (f : DiagField) : ℤ := toLong bits (evField e f)

/-- `ev_field_val` on the 64-bit targets. -/
def evFieldVal (e : DiagEvent) (f : DiagField) : ℤ := evFieldValOn 64 e f

/-- Every field the selector reads fits a signed integer of 33 bits. -/
theorem evField_range (e : DiagEvent) (f : DiagField) :
    -2 ^ 31 ≤ evField e f ∧ evField e f < 2 ^ 32 := by
  have h8 (x : UInt8) : -2 ^ 31 ≤ (x.toNat : ℤ) ∧ (x.toNat : ℤ) < 2 ^ 32 := by
    have := x.toNat_lt
    omega
  have h16 (x : UInt16) : -2 ^ 31 ≤ (x.toNat : ℤ) ∧ (x.toNat : ℤ) < 2 ^ 32 := by
    have := x.toNat_lt
    omega
  have h32 (x : UInt32) : -2 ^ 31 ≤ (x.toNat : ℤ) ∧ (x.toNat : ℤ) < 2 ^ 32 := by
    have := x.toNat_lt
    omega
  have hs (x : Int32) : -2 ^ 31 ≤ x.toInt ∧ x.toInt < 2 ^ 32 := by
    have h₁ := x.le_toInt
    have h₂ := x.toInt_lt
    omega
  cases f
  case brequest | wvalue =>
    simp only [evField]
    split
    · first | exact h8 _ | exact h16 _
    · norm_num
  all_goals first | exact h8 _ | exact h16 _ | exact h32 _ | exact hs _ | norm_num [evField]

/-- On a 64-bit target the conversion to `long` loses nothing. -/
theorem evFieldVal_eq (e : DiagEvent) (f : DiagField) : evFieldVal e f = evField e f := by
  obtain ⟨h₁, h₂⟩ := evField_range e f
  unfold evFieldVal evFieldValOn toLong
  exact Int.bmod_eq_of_le (by norm_num; omega) (by norm_num; omega)

end UsbTrace.Model

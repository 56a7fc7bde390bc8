import Mathlib.Data.Int.Log
import Mathlib.Data.Rat.Floor
import UsbTrace.Model.Engine
import UsbTrace.Library.Strtol

/-!
# The lines of JSON mode

The model of what `print_finding` and `diag_engine_report` write when `usbtrace_json` is
set (engine.c:269-395, 663-675) and of `usbtrace_json_escape` (usbtrace_cli.c:74-117).  A
line is the characters written, its newline included; a `double` is the rational it stands
for, rounded where the C code computes with it.
-/

set_option autoImplicit false

namespace UsbTrace.Model

open UsbTrace.Library

/-! ## printf -/

/-- What `snprintf` leaves in a buffer of `size` bytes: the text, cut for the terminator. -/
def snprintf (size : ℕ) (s : CStr) : CStr := s.take (size - 1)

def padZero (width : ℕ) (ds : CStr) : CStr := List.replicate (width - ds.length) '0' ++ ds

/-- `%04x`. -/
def hex4 (n : ℕ) : CStr := padZero 4 (Nat.toDigits 16 n)

/-- The nearest integer, the even one of two. -/
def roundEven (q : ℚ) : ℤ :=
  if q - ⌊q⌋ < 1 / 2 then ⌊q⌋
  else if q - ⌊q⌋ > 1 / 2 then ⌊q⌋ + 1
  else if ⌊q⌋ % 2 = 0 then ⌊q⌋ else ⌊q⌋ + 1

/-- The `double` nearest to a nonnegative rational in the range of its normal numbers: 53
significant bits. -/
def toDouble (q : ℚ) : ℚ :=
  if q = 0 then 0
  else roundEven (q / 2 ^ (Int.log 2 q - 52)) * 2 ^ (Int.log 2 q - 52)

/-- `%.<prec>f` of a nonnegative `double`, `prec` positive. -/
def fixed (prec : ℕ) (q : ℚ) : CStr :=
  let k := (roundEven (q * 10 ^ prec)).toNat
  Nat.toDigits 10 (k / 10 ^ prec) ++ '.' :: padZero prec (Nat.toDigits 10 (k % 10 ^ prec))

/-- `1e9 / ns` where `ns` is not 0, else 0.0. -/
def fpsOf (ns : UInt32) : ℚ := if ns ≠ 0 then toDouble (10 ^ 9 / ns.toNat) else 0

/-- `ns / 1e6`. -/
def msOf (ns : UInt32) : ℚ := toDouble (ns.toNat / 10 ^ 6)

/-- The records of a loop that prints `i ? "," : ""` before each. -/
def commaSeparated (records : List CStr) : CStr :=
  (records.zipIdx.map fun p => (if p.2 ≠ 0 then ",".toList else []) ++ p.1).flatten

/-! ## Labels -/

/-- `sev_str` (engine.c:64-71). -/
def sevStr : DiagSeverity → CStr
  | .error => "error".toList
  | .warn => "warn".toList
  | .info => "info".toList

/-- `vb2_op_label` (engine.c:73-82). -/
def vb2OpLabel (op : UInt8) : CStr :=
  if op = 1 then "queue".toList
  else if op = 2 then "qbuf".toList
  else if op = 3 then "dqbuf".toList
  else if op = 4 then "STARVE".toList
  else "done".toList

/-- `power_action_str` (engine.c:84-93). -/
def powerActionStr (a : UInt8) : CStr :=
  if a = 0 then "autosuspend".toList
  else if a = 1 then "autoresume".toList
  else if a = 2 then "port_suspend".toList
  else if a = 3 then "port_resume".toList
  else "?".toList

/-- `kind_str` (engine.c:95-108). -/
def kindStr (k : EventKind) : CStr :=
  if k = 1 then "urb".toList
  else if k = 2 then "enum".toList
  else if k = 3 then "power".toList
  else if k = 4 then "lifecycle".toList
  else if k = 5 then "class".toList
  else if k = 6 then "uvc_frame".toList
  else if k = 7 then "uvc_vb2".toList
  else if k = evtHub then "hub".toList
  else "?".toList

/-! ## Templates and escapes -/

/-- The bytes of a `comm` up to its terminator. -/
def commStr (comm : List UInt8) : CStr :=
  (comm.takeWhile fun b => b ≠ 0).map fun b => Char.ofNat b.toNat

/-- The text of `{key}` (engine.c:286-309); an unknown key stands for itself. -/
def expandKey (f : Finding) (key : CStr) : CStr :=
  snprintf 64 <|
    if key = "vid".toList then hex4 f.vid.toNat
    else if key = "pid".toList then hex4 f.pid.toNat
    else if key = "bus".toList then decimal f.key.busnum.toNat
    else if key = "dev".toList then decimal f.key.devnum.toNat
    else if key = "count".toList then decimal f.count
    else if key = "window".toList then decimal f.windowMs
    else if key = "comm".toList then (f.comm.map commStr).getD []
    else '{' :: (key ++ ['}'])

/-- The key after an opening brace, if the brace closes and the key fits its buffer
(engine.c:277-285). -/
def templateKey (p : CStr) : Option CStr :=
  let key := p.takeWhile fun c => c ≠ '}'
  if key.length < p.length ∧ key.length < 16 then some key else none

/-- The loop of `expand` (engine.c:275-319): `skip` characters of the template are behind
`p` already, and `out` is what has been written.  A write that does not fit fills the
buffer, which ends the loop. -/
def expandLoop (f : Finding) (outsz : ℕ) : ℕ → CStr → CStr → CStr
  | _, [], out => out
  | skip + 1, _ :: p, out => expandLoop f outsz skip p out
  | 0, c :: p, out =>
    if out.length + 1 < outsz then
      match if c = '{' then templateKey p else none with
      | some key =>
        expandLoop f outsz (key.length + 1) p (snprintf outsz (out ++ expandKey f key))
      | none => expandLoop f outsz 0 p (out ++ [c])
    else out

/-- `expand` (engine.c:269-320). -/
def expand (f : Finding) (tmpl : Option CStr) (outsz : ℕ) : CStr :=
  expandLoop f outsz 0 (tmpl.getD []) []

/-- The loop of `usbtrace_json_escape` (usbtrace_cli.c:81-112). -/
def jsonEscapeLoop (dstsz : ℕ) : CStr → CStr → CStr
  | [], dst => dst
  | c :: src, dst =>
    if dst.length + 2 < dstsz then
      if c = '"' ∨ c = '\\' then jsonEscapeLoop dstsz src (dst ++ ['\\', c])
      else if c = '\n' then jsonEscapeLoop dstsz src (dst ++ ['\\', 'n'])
      else if c = '\t' then jsonEscapeLoop dstsz src (dst ++ ['\\', 't'])
      else if c = '\r' then jsonEscapeLoop dstsz src (dst ++ ['\\', 'r'])
      else if c.toNat < 0x20 then
        -- \uXXXX needs 6 bytes plus the NUL
        if dst.length + 6 ≥ dstsz then dst
        else jsonEscapeLoop dstsz src (dst ++ '\\' :: 'u' :: hex4 c.toNat)
      else jsonEscapeLoop dstsz src (dst ++ [c])
    else dst

/-- `usbtrace_json_escape` (usbtrace_cli.c:74-117). -/
def usbtraceJsonEscape (src : CStr) (dstsz : ℕ) : CStr := jsonEscapeLoop dstsz src []

/-! ## Findings -/

/-- A rule's id where it is printed; the loader accepts no rule without one. -/
def ruleId (r : DiagRule) : CStr := r.id.getD "(null)".toList

/-- `(double)(ref_ns - x->ts_ns) / 1e6`. -/
def dtMs (refNs : UInt64) (x : DiagEvent) : ℚ :=
  toDouble (toDouble (refNs - x.tsNs).toNat / 10 ^ 6)

/-- One record of the evidence list (engine.c:350-389). -/
def evidenceRecord (refNs : UInt64) (x : DiagEvent) : CStr :=
  if x.kind = evtUvcFrame then
    "\x7b\"dt_ms\":".toList ++ fixed 1 (dtMs refNs x) ++ ",\"kind\":\"uvc_frame\",".toList ++
    "\"fps\":".toList ++ fixed 1 (fpsOf x.frameIntervalNs) ++
    ",\"interval_ms\":".toList ++ fixed 1 (msOf x.frameIntervalNs) ++
    ",\"bytes\":".toList ++ decimal x.frameBytes.toNat ++
    ",\"errored\":".toList ++ decimal x.frameErrored.toNat ++ "\x7d".toList
  else if x.kind = evtUvcVb2 then
    "\x7b\"dt_ms\":".toList ++ fixed 1 (dtMs refNs x) ++ ",\"kind\":\"uvc_vb2\",".toList ++
    "\"op\":\"".toList ++ vb2OpLabel x.vb2Op ++
    "\",\"seq\":".toList ++ decimal x.vb2Sequence.toNat ++
    ",\"seq_gap\":".toList ++ decimal x.vb2SeqGap.toNat ++
    ",\"starved\":".toList ++ decimal x.vb2Starved.toNat ++
    ",\"pool\":".toList ++ decimal x.vb2NumBuffers.toNat ++
    ",\"queued\":".toList ++ decimal x.vb2Queued.toNat ++
    ",\"drv_owned\":".toList ++ decimal x.vb2DrvOwned.toNat ++
    ",\"fps\":".toList ++ fixed 1 (fpsOf x.vb2IntervalNs) ++
    ",\"interval_ms\":".toList ++ fixed 1 (msOf x.vb2IntervalNs) ++
    ",\"bytes\":".toList ++ decimal x.vb2Bytesused.toNat ++
    ",\"wire_to_vb2_ms\":".toList ++ fixed 3 (msOf x.wireToVb2Ns) ++ "\x7d".toList
  else if x.kind = evtPower then
    "\x7b\"dt_ms\":".toList ++ fixed 1 (dtMs refNs x) ++ ",\"kind\":\"power\",".toList ++
    "\"action\":\"".toList ++ powerActionStr x.action ++ "\"\x7d".toList
  else
    "\x7b\"dt_ms\":".toList ++ fixed 1 (dtMs refNs x) ++
    ",\"kind\":\"".toList ++ kindStr x.kind ++
    "\",\"status\":".toList ++ decimal x.status.toInt ++ "\x7d".toList

/-- `print_finding` in JSON mode (engine.c:327-395). -/
def printFinding (r : DiagRule) (f : Finding) : CStr :=
  let concl := expand f r.conclusion 512
  let fix := expand f r.fix 512
  "\x7b\"event\":\"diag\",\"severity\":\"".toList ++ sevStr r.severity ++
  "\",\"rule\":\"".toList ++ ruleId r ++ "\",".toList ++
  "\"vid\":\"0x".toList ++ hex4 f.vid.toNat ++ "\",\"pid\":\"0x".toList ++ hex4 f.pid.toNat ++
  "\",\"bus\":".toList ++ decimal f.key.busnum.toNat ++
  ",\"dev\":".toList ++ decimal f.key.devnum.toNat ++ ",".toList ++
  "\"count\":".toList ++ decimal f.count ++
  ",\"conclusion\":\"".toList ++ usbtraceJsonEscape concl 1024 ++ "\",".toList ++
  "\"fix\":\"".toList ++ usbtraceJsonEscape fix 1024 ++ "\",\"evidence\":[".toList ++
  commaSeparated (f.evidence.map (evidenceRecord f.refNs)) ++ "]\x7d\n".toList

/-- `diag_engine_report` in JSON mode (engine.c:663-675), with `%lu` for the counters. -/
def diagEngineReport (long : LongWidth) (e : DiagEngine) : CStr :=
  "\x7b\"event\":\"diag_summary\",\"total\":".toList ++ decimal (e.totalFired.toNat long) ++
  ",\"rules\":[".toList ++
  commaSeparated (e.rules.zipIdx.map fun p =>
    "\x7b\"rule\":\"".toList ++ ruleId p.1 ++ "\",\"hits\":".toList ++
      decimal ((e.fireCount p.2).toNat long) ++ "\x7d".toList) ++
  "]\x7d\n".toList

/-- The lines written in JSON mode by the operations `ops` and a report after them. -/
def jsonLines (long : LongWidth) (rules : List DiagRule) (ops : List EngineOp) : List CStr :=
  (engineFindings rules ops).map (fun f => printFinding (rules.getD f.ridx {}) f) ++
    [diagEngineReport long (engineAfter rules ops)]

end UsbTrace.Model

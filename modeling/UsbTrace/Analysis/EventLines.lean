import Mathlib.Tactic.FinCases
import UsbTrace.Interface.LineFormat
import UsbTrace.Model.EventLines
import UsbTrace.Analysis.Normalize

/-!
# Event lines are JSON objects of their records

In JSON mode every module prints, for each record of its kind and for nothing else, one line:
a JSON object whose members, read back, are the fields of the record, in a fixed order
(`eventLine_reads`).  This is so where the texts of the record end in their arrays, as those the
probes write do.
-/

set_option autoImplicit false

namespace UsbTrace.Analysis

open UsbTrace.Model UsbTrace.Library UsbTrace.Library.Json UsbTrace.Interface

/-! ## Members -/

/-- The members of a urb line, its setup packet aside. -/
def urbMembers (e : UrbEvent) : List Member := [
  ("event", .str (if e.isSubmit ≠ 0 then "submit".toList else "complete".toList)),
  ("type", .str (xferStr e.xferType)), ("ep", natDatum e.ep.toNat), ("dir", dirDatum e.dirIn),
  ("actual", natDatum e.actual.toNat), ("length", natDatum e.length.toNat),
  ("status", intDatum e.status.toInt),
  ("latency_us", .bare (fixed 1 (toDouble (toDouble e.latencyNs.toNat / 1000)))),
  ("vid", idDatum e.vid), ("pid", idDatum e.product), ("bus", natDatum e.busnum.toNat),
  ("dev", natDatum e.devnum.toNat), ("comm", escapedDatum e.comm 33)]

/-- What a setup packet adds. -/
def setupMembers (s : SetupPacket) : List Member := [
  ("bmRequestType", .str ('0' :: 'x' :: hex2 (setupRequestType s).toNat)),
  ("bRequest", natDatum (setupRequest s).toNat), ("wValue", natDatum (setupValue s).toNat),
  ("wIndex", natDatum (setupIndex s).toNat), ("wLength", natDatum (setupLength s).toNat),
  ("request", .str (usbtraceJsonEscape (formatSetup s reqSize) 193))]

/-- The members of an enum line. -/
def enumMembers (e : EnumEvent) : List Member := [
  ("event", .str ['e', 'n', 'u', 'm']), ("step", .str (stepStr e.step)),
  ("from", .str (stateStr e.oldState)), ("to", .str (stateStr e.newState)),
  ("status", intDatum e.status.toInt), ("speed", .str (usbtraceSpeedStr e.speed)),
  ("vid", idDatum e.vid), ("pid", idDatum e.product), ("bus", natDatum e.busnum.toNat),
  ("dev", natDatum e.devnum.toNat), ("port", natDatum e.portnum.toNat),
  ("path", escapedDatum e.devpath 33), ("comm", escapedDatum e.comm 33)]

/-- The members of a hub line. -/
def hubMembers (e : HubEvent) : List Member := [
  ("event", .str ['h', 'u', 'b']), ("action", .str (hubActionStr e.action)),
  ("speed", .str (usbtraceSpeedStr e.speed)), ("vid", idDatum e.vid), ("pid", idDatum e.product),
  ("bus", natDatum e.busnum.toNat), ("dev", natDatum e.devnum.toNat),
  ("port", natDatum e.portnum.toNat), ("oc_count", natDatum e.ocCount.toNat),
  ("warm", natDatum e.warm.toNat), ("path", escapedDatum e.devpath 33),
  ("comm", escapedDatum e.comm 33)]

/-- The members of a power line. -/
def powerMembers (e : PowerRec) : List Member := [
  ("event", .str ['p', 'o', 'w', 'e', 'r']), ("action", .str (powerActionName e.action)),
  ("speed", .str (usbtraceSpeedStr e.speed)), ("vid", idDatum e.vid), ("pid", idDatum e.product),
  ("bus", natDatum e.busnum.toNat), ("dev", natDatum e.devnum.toNat),
  ("port", natDatum e.portnum.toNat), ("path", escapedDatum e.devpath 33),
  ("comm", escapedDatum e.comm 33)]

/-- The members of a lifecycle line. -/
def lifecycleMembers (e : LifecycleEvent) : List Member := [
  ("event", .str ['l', 'i', 'f', 'e', 'c', 'y', 'c', 'l', 'e']),
  ("action", .str (lifecycleActionStr e.action)), ("speed", .str (usbtraceSpeedStr e.speed)),
  ("vid", idDatum e.vid), ("pid", idDatum e.product), ("bus", natDatum e.busnum.toNat),
  ("dev", natDatum e.devnum.toNat), ("port", natDatum e.portnum.toNat),
  ("reset_resume", natDatum e.resetResume.toNat), ("path", escapedDatum e.devpath 33),
  ("comm", escapedDatum e.comm 33)]

/-- The members of a class line. -/
def classMembers (e : ClassUrbEvent) : List Member := [
  ("event", .str ['c', 'l', 'a', 's', 's']), ("class", .str (usbtraceClassStr e.klass)),
  ("xfer", .str (xferStr e.xferType)), ("ep", natDatum e.ep.toNat), ("dir", dirDatum e.dirIn),
  ("status", intDatum e.status.toInt), ("error_count", intDatum e.errorCount.toInt),
  ("packets", natDatum e.numberOfPackets.toNat), ("bytes", natDatum e.actualLength.toNat),
  ("start_frame", intDatum e.startFrame.toInt), ("vid", idDatum e.vid), ("pid", idDatum e.product),
  ("bus", natDatum e.busnum.toNat), ("dev", natDatum e.devnum.toNat),
  ("comm", escapedDatum e.comm 33)]

/-! ## Well formed -/

theorem xferStr_body (v : UInt8) : StrBody (xferStr v) := by
  refine label_body (fun n hn => ?_) v
  fin_cases hn <;> exact plain_body String.toList_ofList rfl

theorem usbtraceClassStr_body (v : UInt8) : StrBody (usbtraceClassStr v) := by
  refine label_body (fun n hn => ?_) v
  fin_cases hn <;> exact plain_body String.toList_ofList rfl

theorem usbtraceSpeedStr_body (v : UInt8) : StrBody (usbtraceSpeedStr v) := by
  refine label_body (fun n hn => ?_) v
  fin_cases hn <;> exact plain_body String.toList_ofList rfl

theorem stateStr_body (v : UInt8) : StrBody (stateStr v) := by
  refine label_body (fun n hn => ?_) v
  fin_cases hn <;> exact plain_body String.toList_ofList rfl

theorem stepStr_body (v : UInt8) : StrBody (stepStr v) := by
  refine label_body (fun n hn => ?_) v
  fin_cases hn <;> exact plain_body String.toList_ofList rfl

theorem hubActionStr_body (v : UInt8) : StrBody (hubActionStr v) := by
  refine label_body (fun n hn => ?_) v
  fin_cases hn <;> exact plain_body String.toList_ofList rfl

theorem powerActionName_body (v : UInt8) : StrBody (powerActionName v) := by
  refine label_body (fun n hn => ?_) v
  fin_cases hn <;> exact plain_body String.toList_ofList rfl

theorem lifecycleActionStr_body (v : UInt8) : StrBody (lifecycleActionStr v) := by
  refine label_body (fun n hn => ?_) v
  fin_cases hn <;> exact plain_body String.toList_ofList rfl

/-! ## Lines -/

set_option maxRecDepth 10000 in
theorem enumPrintJson_line (e : EnumEvent) :
    IsLine (enumPrintJson e) ∧ readObject (enumPrintJson e) = some (enumMembers e, ['\n']) := by
  rw [enumPrintJson, printf_eq (.more (.more (.more (.more .lit))))]
  refine LineFormat.line ⟨rfl, rfl⟩ rfl (List.cons_ne_nil _ _) ?_
  simp only [enumMembers, List.forall_mem_cons, List.not_mem_nil, false_imp_iff, implies_true,
    and_true]
  exact ⟨.ofPlain rfl, stepStr_body _, stateStr_body _, stateStr_body _, intDatum_ok _,
    usbtraceSpeedStr_body _, idDatum_ok _, idDatum_ok _, natDatum_ok _, natDatum_ok _,
    natDatum_ok _, escapedDatum_ok _ _, escapedDatum_ok _ _⟩

set_option maxRecDepth 10000 in
theorem hubPrintJson_line (e : HubEvent) :
    IsLine (hubPrintJson e) ∧ readObject (hubPrintJson e) = some (hubMembers e, ['\n']) := by
  rw [hubPrintJson, printf_eq (.more (.more (.more .lit)))]
  refine LineFormat.line ⟨rfl, rfl⟩ rfl (List.cons_ne_nil _ _) ?_
  simp only [hubMembers, List.forall_mem_cons, List.not_mem_nil, false_imp_iff, implies_true,
    and_true]
  exact ⟨.ofPlain rfl, hubActionStr_body _, usbtraceSpeedStr_body _, idDatum_ok _, idDatum_ok _,
    natDatum_ok _, natDatum_ok _, natDatum_ok _, natDatum_ok _, natDatum_ok _,
    escapedDatum_ok _ _, escapedDatum_ok _ _⟩

set_option maxRecDepth 10000 in
theorem powerPrintJson_line (e : PowerRec) :
    IsLine (powerPrintJson e) ∧ readObject (powerPrintJson e) = some (powerMembers e, ['\n']) := by
  rw [powerPrintJson, printf_eq (.more (.more (.more .lit)))]
  refine LineFormat.line ⟨rfl, rfl⟩ rfl (List.cons_ne_nil _ _) ?_
  simp only [powerMembers, List.forall_mem_cons, List.not_mem_nil, false_imp_iff, implies_true,
    and_true]
  exact ⟨.ofPlain rfl, powerActionName_body _, usbtraceSpeedStr_body _, idDatum_ok _,
    idDatum_ok _, natDatum_ok _, natDatum_ok _, natDatum_ok _, escapedDatum_ok _ _,
    escapedDatum_ok _ _⟩

set_option maxRecDepth 10000 in
theorem lifecyclePrintJson_line (e : LifecycleEvent) :
    IsLine (lifecyclePrintJson e) ∧
      readObject (lifecyclePrintJson e) = some (lifecycleMembers e, ['\n']) := by
  rw [lifecyclePrintJson, printf_eq (.more (.more (.more .lit)))]
  refine LineFormat.line ⟨rfl, rfl⟩ rfl (List.cons_ne_nil _ _) ?_
  simp only [lifecycleMembers, List.forall_mem_cons, List.not_mem_nil, false_imp_iff,
    implies_true, and_true]
  exact ⟨.ofPlain rfl, lifecycleActionStr_body _, usbtraceSpeedStr_body _, idDatum_ok _,
    idDatum_ok _, natDatum_ok _, natDatum_ok _, natDatum_ok _, natDatum_ok _,
    escapedDatum_ok _ _, escapedDatum_ok _ _⟩

set_option maxRecDepth 10000 in
theorem classPrintJson_line (e : ClassUrbEvent) :
    IsLine (classPrintJson e) ∧ readObject (classPrintJson e) = some (classMembers e, ['\n']) := by
  rw [classPrintJson, printf_eq (.more (.more (.more (.more .lit))))]
  refine LineFormat.line ⟨rfl, rfl⟩ rfl (List.cons_ne_nil _ _) ?_
  simp only [classMembers, List.forall_mem_cons, List.not_mem_nil, false_imp_iff, implies_true,
    and_true]
  exact ⟨.ofPlain rfl, usbtraceClassStr_body _, xferStr_body _, natDatum_ok _, dirDatum_ok _,
    intDatum_ok _, intDatum_ok _, natDatum_ok _, natDatum_ok _, intDatum_ok _, idDatum_ok _,
    idDatum_ok _, natDatum_ok _, natDatum_ok _, escapedDatum_ok _ _⟩

theorem urbMembers_ok (e : UrbEvent) : ∀ m ∈ urbMembers e, m.2.Ok := by
  have hevent : StrBody (if e.isSubmit ≠ 0 then "submit".toList else "complete".toList) := by
    split <;> exact plain_body String.toList_ofList rfl
  simp only [urbMembers, List.forall_mem_cons, List.not_mem_nil, false_imp_iff, implies_true,
    and_true]
  exact ⟨hevent, xferStr_body _, natDatum_ok _, dirDatum_ok _, natDatum_ok _, natDatum_ok _,
    intDatum_ok _, isBare_fixed _ _, idDatum_ok _, idDatum_ok _, natDatum_ok _, natDatum_ok _,
    escapedDatum_ok _ _⟩

theorem setupMembers_ok (s : SetupPacket) : ∀ m ∈ setupMembers s, m.2.Ok := by
  simp only [setupMembers, List.forall_mem_cons, List.not_mem_nil, false_imp_iff, implies_true,
    and_true]
  exact ⟨prefixed_body (hex2_body _), natDatum_ok _, natDatum_ok _, natDatum_ok _, natDatum_ok _,
    usbtraceJsonEscape_body _ _⟩

/-- The members of a whole urb line. -/
def urbLineMembers (e : UrbEvent) : List Member :=
  urbMembers e ++ if e.hasSetup ≠ 0 then setupMembers e.packet else []

set_option maxRecDepth 10000 in
/-- A urb line is written in two calls, or in three where the record has a setup packet. -/
theorem urbPrintJson_line (e : UrbEvent) :
    IsLine (urbPrintJson e) ∧ readObject (urbPrintJson e) = some (urbLineMembers e, ['\n']) := by
  rw [urbPrintJson, urbLineMembers]
  by_cases hsetup : e.hasSetup ≠ 0
  · simp only [if_pos hsetup]
    rw [printSetup, printf_eq (.more (.more (.more .lit))), printf_eq (.more (.more .lit)),
      printf_eq .lit, ← renderPieces_append (by rfl), ← renderPieces_append (by rfl)]
    refine LineFormat.line ⟨rfl, rfl⟩ rfl (List.cons_ne_nil _ _) ?_
    exact List.forall_mem_append.mpr ⟨urbMembers_ok e, setupMembers_ok e.packet⟩
  · simp only [if_neg hsetup]
    rw [printf_eq (.more (.more (.more .lit))), printf_eq .lit, List.append_nil,
      ← renderPieces_append (by rfl)]
    refine LineFormat.line ⟨rfl, rfl⟩ rfl (List.cons_ne_nil _ _) ?_
    rw [List.append_nil]
    exact urbMembers_ok e

/-! ## Modules -/

/-- The kind of a module's records. -/
def moduleKind : EventModule → EventKind
  | .urb => evtUrb
  | .enum => evtEnum
  | .hub => evtHub
  | .power => evtPower
  | .lifecycle => evtLifecycle

/-- The members of the line of a record. -/
def lineMembers : Record → List Member
  | .urb e => urbLineMembers e
  | .enum e => enumMembers e
  | .hub e => hubMembers e
  | .power e => powerMembers e
  | .lifecycle e => lifecycleMembers e
  | .classUrb e => classMembers e
  | .uvcFrame _ | .uvcVb2 _ => []

/-- The texts of a record end in their arrays. -/
def Terminated : Record → Prop
  | .urb e => 0 ∈ e.comm
  | .enum e => 0 ∈ e.devpath ∧ 0 ∈ e.comm
  | .hub e => 0 ∈ e.devpath ∧ 0 ∈ e.comm
  | .power e => 0 ∈ e.devpath ∧ 0 ∈ e.comm
  | .lifecycle e => 0 ∈ e.devpath ∧ 0 ∈ e.comm
  | .classUrb e => 0 ∈ e.comm
  | .uvcFrame e => 0 ∈ e.comm
  | .uvcVb2 e => 0 ∈ e.comm

/-- What a prefix of a list begins with, where it ends in the prefix. -/
theorem takeWhile_take_of_end {α : Type} {p : α → Bool} {l : List α} {n : ℕ}
    (h : ∃ x ∈ l.take n, p x = false) : (l.take n).takeWhile p = l.takeWhile p := by
  induction l generalizing n with
  | nil => rw [List.take_nil]
  | cons y l ih =>
    cases n with
    | zero => simp at h
    | succ n =>
      rw [List.take_succ_cons] at h ⊢
      cases hy : p y with
      | false =>
        have hstop : ¬p y = true := by rw [hy]; exact Bool.false_ne_true
        rw [List.takeWhile_cons_of_neg hstop, List.takeWhile_cons_of_neg hstop]
      | true =>
        rw [List.takeWhile_cons_of_pos hy, List.takeWhile_cons_of_pos hy, ih]
        obtain ⟨x, hx, hpx⟩ := h
        rcases List.mem_cons.mp hx with rfl | hx
        · rw [hy] at hpx
          cases hpx
        · exact ⟨x, hx, hpx⟩

/-- A text that ends in its array is what the array holds up to its NUL. -/
theorem commStr_textAt {data bytes : List UInt8} (off : ℕ) {n : ℕ}
    (harray : bytes = (data.drop off).take n) (hend : 0 ∈ bytes) :
    commStr (textAt data off) = commStr bytes := by
  subst harray
  have hstop : ∃ b ∈ (data.drop off).take n, decide (b ≠ 0) = false := ⟨0, hend, rfl⟩
  rw [commStr, commStr, takeWhile_take_of_end hstop, textAt, List.takeWhile_takeWhile]
  simp only [and_self, Bool.decide_eq_true]

/-- The members of a line depend on what is read of the texts only. -/
theorem escapedDatum_congr {a b : List UInt8} (h : commStr a = commStr b) (size : ℕ) :
    escapedDatum a size = escapedDatum b size := by
  rw [escapedDatum, h, escapedDatum]

theorem urbLineMembers_readTexts {data : List UInt8}
    (hend : Terminated (.urb (urbEvent.of data))) :
    urbLineMembers ((urbEvent.of data).readTexts data) = urbLineMembers (urbEvent.of data) := by
  have hcomm := escapedDatum_congr (commStr_textAt 52 rfl hend) 33
  rw [urbLineMembers, urbMembers, UrbEvent.readTexts, hcomm]
  rfl

theorem hubMembers_readTexts {data : List UInt8} (hend : Terminated (.hub (hubEvent.of data))) :
    hubMembers ((hubEvent.of data).readTexts data) = hubMembers (hubEvent.of data) := by
  have hpath := escapedDatum_congr (commStr_textAt 36 rfl hend.1) 33
  have hcomm := escapedDatum_congr (commStr_textAt 52 rfl hend.2) 33
  rw [hubMembers, HubEvent.readTexts, hpath, hcomm]
  rfl

theorem powerMembers_readTexts {data : List UInt8}
    (hend : Terminated (.power (powerRec.of data))) :
    powerMembers ((powerRec.of data).readTexts data) = powerMembers (powerRec.of data) := by
  have hpath := escapedDatum_congr (commStr_textAt 32 rfl hend.1) 33
  have hcomm := escapedDatum_congr (commStr_textAt 48 rfl hend.2) 33
  rw [powerMembers, PowerRec.readTexts, hpath, hcomm]
  rfl

theorem lifecycleMembers_readTexts {data : List UInt8}
    (hend : Terminated (.lifecycle (lifecycleEvent.of data))) :
    lifecycleMembers ((lifecycleEvent.of data).readTexts data) =
      lifecycleMembers (lifecycleEvent.of data) := by
  have hpath := escapedDatum_congr (commStr_textAt 32 rfl hend.1) 33
  have hcomm := escapedDatum_congr (commStr_textAt 48 rfl hend.2) 33
  rw [lifecycleMembers, LifecycleEvent.readTexts, hpath, hcomm]
  rfl

theorem enumMembers_readTexts {data : List UInt8}
    (hend : Terminated (.enum (enumEvent.of data))) :
    enumMembers ((enumEvent.of data).readTexts data) = enumMembers (enumEvent.of data) := by
  have hpath := escapedDatum_congr (commStr_textAt 32 rfl hend.1) 33
  have hcomm := escapedDatum_congr (commStr_textAt 48 rfl hend.2) 33
  rw [enumMembers, EnumEvent.readTexts, hpath, hcomm]
  rfl

theorem usbtraceEventHdr_sizeof_le {α : Type} {d : Decode α} {data : List UInt8}
    (hd : usbtraceEventHdr.sizeof ≤ d.sizeof) (h : d.sizeof ≤ data.length) :
    usbtraceEventHdr.view data = some (usbtraceEventHdr.of data) :=
  usbtraceEventHdr.view_eq_some (hd.trans h)

/-- A handler prints a record of its kind that is there in full. -/
theorem handleEvent_eq {α : Type} {kind : EventKind} {d : Decode α}
    (texts : List UInt8 → α → α) (print : α → CStr)
    (hd : usbtraceEventHdr.sizeof ≤ d.sizeof) {data : List UInt8}
    (hkind : (usbtraceEventHdr.of data).kind = kind) (h : d.sizeof ≤ data.length) :
    Model.handleEvent kind d texts print data = some (print (texts data (d.of data))) := by
  rw [Model.handleEvent, usbtraceEventHdr_sizeof_le hd h]
  dsimp only
  rw [if_neg (not_not.mpr hkind), d.view_eq_some h]
  rfl

/-- **A module prints the records of its kind**: the line of such a record, whose texts end in
their arrays, has the members of the record. -/
theorem moduleLine_reads (m : EventModule) {data : List UInt8} {rec : Record}
    (hholds : Holds data rec) (hkind : rec.hdr.kind = moduleKind m) (hend : Terminated rec) :
    ∃ line, m.handleEvent data = some line ∧
      IsLine line ∧ readObject line = some (lineMembers rec, ['\n']) := by
  rw [hholds.hdr_eq] at hkind
  cases m with
  | urb =>
    cases hholds with
    | urb _ hlen =>
      have hline := urbPrintJson_line ((urbEvent.of data).readTexts data)
      rw [urbLineMembers_readTexts hend] at hline
      exact ⟨_, handleEvent_eq _ _ (by decide) hkind hlen, hline⟩
    | _ hother _ => exact absurd (hother.symm.trans hkind) (by decide)
  | enum =>
    cases hholds with
    | enum _ hlen =>
      have hline := enumPrintJson_line ((enumEvent.of data).readTexts data)
      rw [enumMembers_readTexts hend] at hline
      exact ⟨_, handleEvent_eq _ _ (by decide) hkind hlen, hline⟩
    | _ hother _ => exact absurd (hother.symm.trans hkind) (by decide)
  | hub =>
    cases hholds with
    | hub _ hlen =>
      have hline := hubPrintJson_line ((hubEvent.of data).readTexts data)
      rw [hubMembers_readTexts hend] at hline
      exact ⟨_, handleEvent_eq _ _ (by decide) hkind hlen, hline⟩
    | _ hother _ => exact absurd (hother.symm.trans hkind) (by decide)
  | power =>
    cases hholds with
    | power _ hlen =>
      have hline := powerPrintJson_line ((powerRec.of data).readTexts data)
      rw [powerMembers_readTexts hend] at hline
      exact ⟨_, handleEvent_eq _ _ (by decide) hkind hlen, hline⟩
    | _ hother _ => exact absurd (hother.symm.trans hkind) (by decide)
  | lifecycle =>
    cases hholds with
    | lifecycle _ hlen =>
      have hline := lifecyclePrintJson_line ((lifecycleEvent.of data).readTexts data)
      rw [lifecycleMembers_readTexts hend] at hline
      exact ⟨_, handleEvent_eq _ _ (by decide) hkind hlen, hline⟩
    | _ hother _ => exact absurd (hother.symm.trans hkind) (by decide)

end UsbTrace.Analysis

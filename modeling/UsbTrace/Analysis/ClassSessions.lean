import UsbTrace.Analysis.EventLines
import UsbTrace.Interface.ModuleSession

/-!
# What a class module prints in a session

Over a whole session the shared consumer prints one line for each class record that is out of
order, or for each with `--all`, and a summary that counts all of them; every line is a JSON
object that reads back as the record, or as the counts (`classSession_reads`).
-/

set_option autoImplicit false

namespace UsbTrace.Analysis

open UsbTrace.Model UsbTrace.Library UsbTrace.Library.Json UsbTrace.Interface

/-- What is said of some bytes. -/
def classObjects (all : Bool) (data : List UInt8) : List (List Member) :=
  ((classRecord data).filter fun e => all || classAnomaly e).toList.map classMembers

/-- The members of a summary. -/
def classSummaryMembers (long : LongWidth) (modname : CStr) (st : ClassStats) : List Member := [
  ("event", .str (modname ++ "_summary".toList)), ("urbs", natDatum (st.urbs.toNat long)),
  ("isoc_err", natDatum (st.isocErr.toNat long)),
  ("status_err", natDatum (st.statusErr.toNat long)), ("bytes", natDatum st.bytes.toNat)]

set_option maxRecDepth 10000 in
theorem classStreamSummary_line (long : LongWidth) {modname : CStr} (hname : StrBody modname)
    (st : ClassStats) :
    ReadsAs (classStreamSummary long modname st) (classSummaryMembers long modname st) := by
  have hbody : StrBody (modname ++ "_summary".toList) :=
    hname.append (plain_body String.toList_ofList rfl)
  rw [ReadsAs, classStreamSummary, printf_eq (.more .lit)]
  refine LineFormat.line ⟨rfl, rfl⟩ rfl (List.cons_ne_nil _ _) ?_
  simp only [classSummaryMembers, List.forall_mem_cons, List.not_mem_nil, false_imp_iff,
    implies_true, and_true]
  exact ⟨hbody, natDatum_ok _, natDatum_ok _, natDatum_ok _, natDatum_ok _⟩

/-- The consumer after it has read some class records. -/
def ClassRead (all : Bool) (c : ClassStreamCtx) (seen : List ClassUrbEvent) : Prop :=
  c = { all := all, stats := classTotals seen }

/-- **One record.** -/
theorem classStream_step {all : Bool} {c : ClassStreamCtx} {seen : List ClassUrbEvent}
    (h : ClassRead all c seen) (data : List UInt8) :
    ClassRead all (classStreamOnEvent c data).1 (seen ++ (classRecord data).toList) ∧
      List.Forall₂ ReadsAs (classStreamOnEvent c data).2 (classObjects all data) := by
  obtain rfl := h
  rw [classStreamOnEvent_eq, classObjects]
  cases classRecord data with
  | none => exact ⟨by rw [Option.toList_none, List.append_nil]; rfl, List.Forall₂.nil⟩
  | some e =>
    refine ⟨?_, ?_⟩
    · rw [Option.toList_some, ClassRead, classTotals_concat]
    · rw [Option.filter_some]
      dsimp only
      split
      · exact List.Forall₂.cons (classPrintJson_line e) List.Forall₂.nil
      · exact List.Forall₂.nil

/-- **A session of uac or storage** prints, in order, the object of each class record it was
handed that is out of order, or of each with `--all`, and then the counts of all of them, each
modulo the range of its type.
SOURCE: class_stream.c:63-122, uac.c:48-51, storage.c:48-51 -/
theorem classSession_reads (long : LongWidth) (m : PlainModule) (all : Bool)
    (records : List (List UInt8)) :
    List.Forall₂ ReadsAs (classSession long m all records)
      (records.flatMap (classObjects all) ++
        [classSummaryMembers long m.name (classTotals (records.filterMap classRecord))]) := by
  have hname : StrBody m.name := by
    cases m <;> exact plain_body String.toList_ofList rfl
  obtain ⟨hstats, hlines⟩ := collect_run (R := ClassRead all)
    (fun _ _ data h => classStream_step h data) (s := { all := all }) rfl records
  rw [← List.filterMap_eq_flatMap_toList] at hstats
  rw [classSession, hstats]
  exact List.rel_append hlines
    (List.Forall₂.cons (classStreamSummary_line long hname _) List.Forall₂.nil)

end UsbTrace.Analysis

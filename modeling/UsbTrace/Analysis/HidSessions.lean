import UsbTrace.Analysis.UvcSessions
import UsbTrace.Model.HidReport

/-!
# What the hid module prints in a session

A session of the hid module is two reports in one: the lines of the windows its meter flushes,
and those of the shared consumer with the summaries.  Every line is a JSON object, each report
is whole and in its order, and neither depends on the other (`hidSession_reads`).
-/

set_option autoImplicit false

namespace UsbTrace.Analysis

open UsbTrace.Model UsbTrace.Library UsbTrace.Library.Json UsbTrace.Interface

/-! ## Members -/

/-- A line of a window, by its event. -/
def isRateLine (ms : List Member) : Bool := ms.head? = some ("event", .str "hid_rate".toList)

/-- The lines read as two reports, each in its order. -/
def TwoReports (lines : List CStr) (rates others : List (List Member)) : Prop :=
  ∃ objects, List.Forall₂ ReadsAs lines objects ∧ objects.filter isRateLine = rates ∧
    objects.filter (fun ms => !isRateLine ms) = others

theorem TwoReports.append {lines lines' : List CStr}
    {rates rates' others others' : List (List Member)}
    (h : TwoReports lines rates others) (h' : TwoReports lines' rates' others') :
    TwoReports (lines ++ lines') (rates ++ rates') (others ++ others') := by
  obtain ⟨objects, hread, rfl, rfl⟩ := h
  obtain ⟨objects', hread', rfl, rfl⟩ := h'
  exact ⟨objects ++ objects', List.rel_append hread hread', List.filter_append _ _,
    List.filter_append _ _⟩

end UsbTrace.Analysis

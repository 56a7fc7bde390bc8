import Mathlib.Algebra.Order.BigOperators.Group.List
import Mathlib.Data.Finset.Dedup
import UsbTrace.Interface.RateSlots
import UsbTrace.Library.Increments
import UsbTrace.Library.Wrapping

/-!
# The totals of the rate meter

The reports of an endpoint and the increases from each report to the next determine its
totals, whatever other endpoints do and whenever a window is flushed (`SlotHolds`).  The
windows are pieces of the totals.  All of them are counted modulo 2⁶⁴; while what is counted
fits 64 bits, they give the equations of the meter after every run (`rate_totals`), and
reports that are not in the order of their times can make the sum of their intervals wrap
(`sum_wraps`).
-/

set_option autoImplicit false

namespace UsbTrace.Analysis

open UsbTrace.Model UsbTrace.Interface UsbTrace.Library

/-! ## The records of an endpoint -/

/-- The endpoints of the IN records. -/
def endpointsOf (ops : List RateOp) : List RateKey := ops.filterMap inKey

/-- The time of a report: an IN record that succeeded. -/
def reportTime (k : RateKey) : RateOp → Option ℕ
  | .record e =>
    if inKey (.record e) = some k ∧ e.status = 0 then some e.hdr.tsNs.toNat else none
  | .stop => none

def reportTimes (k : RateKey) (ops : List RateOp) : List ℕ := ops.filterMap (reportTime k)

/-- An IN record that failed. -/
def isFailure (k : RateKey) : RateOp → Bool
  | .record e => inKey (.record e) = some k ∧ e.status ≠ 0
  | .stop => false

def failures (k : RateKey) (ops : List RateOp) : ℕ := ops.countP (isFailure k)

/-- The increases of a sequence that are too long for an interval, and the others. -/
def isGap (iv : ℕ) : Bool := 50000000 < iv
def gaps (ts : List ℕ) : List ℕ := (increments ts).filter isGap
def intervals (ts : List ℕ) : List ℕ := (increments ts).filter fun iv => !isGap iv

/-- The counts of the current window, and of the whole run. -/
def windowCounts (s : HidRateSlot) : ℕ × ℕ × ℕ × ℕ :=
  (s.winCount.toNat, s.winIvCount.toNat, s.winSumIvNs.toNat, s.winGaps.toNat)
def totalCounts (s : HidRateSlot) : ℕ × ℕ × ℕ × ℕ :=
  (s.totalCount.toNat, s.totalIvCount.toNat, s.totalSumIvNs.toNat, s.totalGaps.toNat)

/-- The counts of an endpoint in the window of some slots. -/
def slotCounts (k : RateKey) (slots : BoundedMap RateKey HidRateSlot 16) : ℕ × ℕ × ℕ × ℕ :=
  ((slots.lookup k).map windowCounts).getD 0

/-- The counts of an endpoint in a flushed window. -/
def countsIn (k : RateKey) (w : RateWindow) : ℕ × ℕ × ℕ × ℕ := slotCounts k w.slots

/-- What there is to count of some reports. -/
def countsOf (ts : List ℕ) : ℕ × ℕ × ℕ × ℕ :=
  (ts.length, (intervals ts).length, (intervals ts).sum, (gaps ts).length)

/-- What counters of 64 bits hold of it. -/
def wrapped : ℕ × ℕ × ℕ × ℕ → ℕ × ℕ × ℕ × ℕ :=
  Prod.map (· % 2 ^ 64) (Prod.map (· % 2 ^ 64) (Prod.map (· % 2 ^ 64) (· % 2 ^ 64)))

theorem wraps_wrapped : Wraps wrapped :=
  have hmod : Wraps (· % 2 ^ 64) := Wraps.mod (Nat.two_pow_pos 64)
  hmod.prod (hmod.prod (hmod.prod hmod))

theorem wrapped_windowCounts (s : HidRateSlot) : wrapped (windowCounts s) = windowCounts s := by
  simp only [wrapped, windowCounts, Prod.map_apply, Nat.mod_eq_of_lt (UInt64.toNat_lt _)]

theorem wrapped_totalCounts (s : HidRateSlot) : wrapped (totalCounts s) = totalCounts s := by
  simp only [wrapped, totalCounts, Prod.map_apply, Nat.mod_eq_of_lt (UInt64.toNat_lt _)]

/-! ## A slot -/

/-- The slot of an endpoint with reports at the times `ts` and `errs` failed records. -/
structure SlotHolds (s : HidRateSlot) (ts : List ℕ) (errs : ℕ) : Prop where
  errs : s.errUrbs = UInt64.ofNat errs
  last : s.lastTsNs.toNat = ts.getLast?.getD 0
  counts : totalCounts s = wrapped (countsOf ts)
  least : ∀ iv ∈ intervals ts, s.totalMinIvNs.toNat ≤ iv
  unset : s.totalMinIvNs = 0 → intervals ts = []
  greatest : ∀ iv ∈ intervals ts, iv ≤ s.totalMaxIvNs.toNat
  greatest_le : s.totalMaxIvNs.toNat ≤ 50000000

theorem slotHolds_new (vid product : UInt16) :
    SlotHolds { vid := vid, product := product } [] 0 where
  errs := rfl
  last := rfl
  counts := rfl
  least := fun _ h => absurd h List.not_mem_nil
  unset := fun _ => rfl
  greatest := fun _ h => absurd h List.not_mem_nil
  greatest_le := Nat.zero_le _

theorem lowerMin_spec (m : UInt32) {iv : UInt64} (hpos : 0 < iv.toNat)
    (hle : iv.toNat ≤ 50000000) :
    (lowerMin m iv).toNat ≤ iv.toNat ∧ (m ≠ 0 → (lowerMin m iv).toNat ≤ m.toNat) ∧
      lowerMin m iv ≠ 0 := by
  have hiv : iv.toUInt32.toNat = iv.toNat := by
    rw [UInt64.toNat_toUInt32, Nat.mod_eq_of_lt (by omega)]
  have hne : iv.toUInt32 ≠ 0 := by
    rw [ne_eq, ← UInt32.toNat_inj, hiv]
    exact hpos.ne'
  unfold lowerMin
  split_ifs with h
  · rw [hiv]
    refine ⟨le_rfl, ?_, hne⟩
    intro hm
    exact (UInt64.lt_iff_toNat_lt.mp (h.resolve_left hm)).le
  · rw [not_or, UInt64.not_lt] at h
    exact ⟨UInt64.le_iff_toNat_le.mp h.2, fun _ => le_rfl, h.1⟩

theorem raiseMax_spec (m : UInt32) {iv : UInt64} (hle : iv.toNat ≤ 50000000) :
    iv.toNat ≤ (raiseMax m iv).toNat ∧ m.toNat ≤ (raiseMax m iv).toNat ∧
      (m.toNat ≤ 50000000 → (raiseMax m iv).toNat ≤ 50000000) := by
  have hiv : iv.toUInt32.toNat = iv.toNat := by
    rw [UInt64.toNat_toUInt32, Nat.mod_eq_of_lt (by omega)]
  unfold raiseMax
  split_ifs with h
  · rw [hiv]
    exact ⟨le_rfl, (UInt64.lt_iff_toNat_lt.mp h).le, fun _ => hle⟩
  · exact ⟨UInt64.le_iff_toNat_le.mp (UInt64.not_lt.mp h), le_rfl, id⟩

/-- A failed record is counted, and nothing else. -/
theorem SlotHolds.failure {s : HidRateSlot} {ts : List ℕ} {errs : ℕ} (h : SlotHolds s ts errs) :
    SlotHolds { s with errUrbs := s.errUrbs + 1 } ts (errs + 1) :=
  { h with errs := by rw [UInt64.ofNat_add, ← h.errs]; rfl }

theorem SlotHolds.increments_same {s : HidRateSlot} {ts : List ℕ} {errs : ℕ}
    (h : SlotHolds s ts errs) (hpos : ∀ t ∈ ts, 0 < t) {t : UInt64}
    (ht : s.lastTsNs = 0 ∨ t ≤ s.lastTsNs) :
    increments (ts ++ [t.toNat]) = increments ts := by
  have hlast := h.last
  rw [increments_concat]
  cases hget : ts.getLast? with
  | none => exact List.append_nil _
  | some a =>
    rw [hget, Option.getD_some] at hlast
    have ha : 0 < a := hpos a (List.mem_of_getLast? hget)
    have hle : ¬a < t.toNat := by
      rcases ht with h0 | hle
      · rw [h0] at hlast
        exact absurd hlast ha.ne
      · rw [← hlast]
        exact not_lt.mpr (UInt64.le_iff_toNat_le.mp hle)
    rw [incrementTo, if_neg hle, List.append_nil]

theorem SlotHolds.increments_more {s : HidRateSlot} {ts : List ℕ} {errs : ℕ}
    (h : SlotHolds s ts errs) {t : UInt64} (hset : s.lastTsNs ≠ 0)
    (hlt : s.lastTsNs.toNat < t.toNat) :
    increments (ts ++ [t.toNat]) = increments ts ++ [t.toNat - s.lastTsNs.toNat] := by
  have hlast := h.last
  rw [increments_concat]
  cases hget : ts.getLast? with
  | none =>
    rw [hget] at hlast
    exact absurd (UInt64.toNat_inj.mp hlast) hset
  | some a =>
    rw [hget, Option.getD_some] at hlast
    rw [incrementTo, ← hlast, if_pos hlt]

/-- **The interval before a report**, in the slot and among the times. -/
theorem SlotHolds.interval_cases {s : HidRateSlot} {ts : List ℕ} {errs : ℕ}
    (h : SlotHolds s ts errs) (hpos : ∀ t ∈ ts, 0 < t) (t : UInt64) :
    (noteInterval s t = s ∧ gaps (ts ++ [t.toNat]) = gaps ts ∧
      intervals (ts ++ [t.toNat]) = intervals ts) ∨
    (∃ iv, noteInterval s t = noteGap s ∧ gaps (ts ++ [t.toNat]) = gaps ts ++ [iv] ∧
      intervals (ts ++ [t.toNat]) = intervals ts) ∨
    ∃ iv : UInt64, 0 < iv.toNat ∧ iv.toNat ≤ 50000000 ∧ noteInterval s t = noteSample s iv ∧
      gaps (ts ++ [t.toNat]) = gaps ts ∧
      intervals (ts ++ [t.toNat]) = intervals ts ++ [iv.toNat] := by
  rcases noteInterval_cases s t with ⟨ht, hnote⟩ | ⟨hset, hlt, hsub, ⟨hgap, hnote⟩ | ⟨hle, hnote⟩⟩
  · have hincr := h.increments_same hpos ht
    refine .inl ⟨hnote, ?_, ?_⟩
    · exact congrArg (List.filter isGap) hincr
    · exact congrArg (List.filter fun iv => !isGap iv) hincr
  · have hincr := h.increments_more hset hlt
    have hkind : isGap (t - s.lastTsNs).toNat = true := decide_eq_true hgap
    rw [← hsub] at hincr
    refine .inr (.inl ⟨(t - s.lastTsNs).toNat, hnote, ?_, ?_⟩)
    · rw [gaps, hincr, List.filter_append, List.filter_cons_of_pos hkind]
      rfl
    · rw [intervals, hincr, List.filter_append, List.filter_cons_of_neg (by rw [hkind]; decide)]
      exact List.append_nil _
  · have hincr := h.increments_more hset hlt
    have hkind : isGap (t - s.lastTsNs).toNat = false := decide_eq_false (not_lt.mpr hle)
    have hiv : 0 < (t - s.lastTsNs).toNat := by omega
    rw [← hsub] at hincr
    refine .inr (.inr ⟨t - s.lastTsNs, hiv, hle, hnote, ?_, ?_⟩)
    · rw [gaps, hincr, List.filter_append, List.filter_cons_of_neg (by rw [hkind]; decide)]
      exact List.append_nil _
    · rw [intervals, hincr, List.filter_append, List.filter_cons_of_pos (by rw [hkind]; rfl)]
      rfl

/-- A slot counts what there is more to count, in the window and in total. -/
def Grows (s s' : HidRateSlot) (ts ts' : List ℕ) : Prop :=
  ∃ d, countsOf ts' = countsOf ts + d ∧ windowCounts s' = wrapped (windowCounts s + d) ∧
    totalCounts s' = wrapped (totalCounts s + d)

theorem Grows.counts {s s' : HidRateSlot} {ts ts' : List ℕ} (h : Grows s s' ts ts')
    (hs : totalCounts s = wrapped (countsOf ts)) : totalCounts s' = wrapped (countsOf ts') := by
  obtain ⟨d, hwhole, -, htotal⟩ := h
  rw [htotal, hs, wraps_wrapped.add, hwhole]

/-- A failed record changes no count of reports. -/
theorem failure_grows (s : HidRateSlot) (ts : List ℕ) :
    Grows s { s with errUrbs := s.errUrbs + 1 } ts ts := by
  refine ⟨0, (add_zero _).symm, ?_, ?_⟩
  · rw [add_zero, wrapped_windowCounts]
    rfl
  · rw [add_zero, wrapped_totalCounts]
    rfl

/-- **A report is counted.** -/
theorem SlotHolds.report_grows {s : HidRateSlot} {ts : List ℕ} {errs : ℕ}
    (h : SlotHolds s ts errs) (hpos : ∀ t ∈ ts, 0 < t) (t : UInt64) (len : UInt32) :
    Grows s (slotNoteReport s t len) ts (ts ++ [t.toNat]) := by
  have hone : ∀ n : UInt64, (n + 1).toNat = (n.toNat + 1) % 2 ^ 64 := fun n => UInt64.toNat_add n 1
  obtain ⟨role, mouse, kbd, other, heq⟩ := slotNoteReport_eq s t len
  rw [Grows, heq]
  rcases h.interval_cases hpos t with ⟨hnote, hgaps, hivs⟩ | ⟨iv, hnote, hgaps, hivs⟩ |
    ⟨iv, -, -, hnote, hgaps, hivs⟩
  · refine ⟨(1, 0, 0, 0), ?_, ?_, ?_⟩
    · rw [countsOf, hgaps, hivs, List.length_append]
      rfl
    · simp [hnote, windowCounts, wrapped, hone]
    · simp [hnote, totalCounts, wrapped, hone]
  · refine ⟨(1, 0, 0, 1), ?_, ?_, ?_⟩
    · rw [countsOf, hgaps, hivs, List.length_append, List.length_append]
      rfl
    · simp [hnote, noteGap, windowCounts, wrapped, hone]
    · simp [hnote, noteGap, totalCounts, wrapped, hone]
  · refine ⟨(1, 1, iv.toNat, 0), ?_, ?_, ?_⟩
    · rw [countsOf, hgaps, hivs, List.length_append, List.length_append, List.sum_append,
        List.sum_singleton]
      rfl
    · simp [hnote, noteSample, windowCounts, wrapped, hone]
    · simp [hnote, noteSample, totalCounts, wrapped, hone]

/-- **A report** is one more time. -/
theorem SlotHolds.report {s : HidRateSlot} {ts : List ℕ} {errs : ℕ} (h : SlotHolds s ts errs)
    (hpos : ∀ t ∈ ts, 0 < t) (t : UInt64) (len : UInt32) :
    SlotHolds (slotNoteReport s t len) (ts ++ [t.toNat]) errs := by
  have hcounts := (h.report_grows hpos t len).counts h.counts
  have hlast : t.toNat = (ts ++ [t.toNat]).getLast?.getD 0 := by
    rw [List.getLast?_concat]
    rfl
  obtain ⟨role, mouse, kbd, other, heq⟩ := slotNoteReport_eq s t len
  rw [heq] at hcounts ⊢
  rcases h.interval_cases hpos t with ⟨hnote, -, hivs⟩ | ⟨-, hnote, -, hivs⟩ |
    ⟨iv, hiv, hle, hnote, -, hivs⟩
  · rw [hnote] at hcounts ⊢
    exact
      { errs := h.errs, last := hlast, counts := hcounts
        least := by rw [hivs]; exact h.least
        unset := by rw [hivs]; exact h.unset
        greatest := by rw [hivs]; exact h.greatest
        greatest_le := h.greatest_le }
  · rw [hnote] at hcounts ⊢
    exact
      { errs := h.errs, last := hlast, counts := hcounts
        least := by rw [hivs]; exact h.least
        unset := by rw [hivs]; exact h.unset
        greatest := by rw [hivs]; exact h.greatest
        greatest_le := h.greatest_le }
  · obtain ⟨hmin, hmin', hmin0⟩ := lowerMin_spec s.totalMinIvNs hiv hle
    obtain ⟨hmax, hmax', hmax50⟩ := raiseMax_spec s.totalMaxIvNs hle
    rw [hnote] at hcounts ⊢
    exact
      { errs := h.errs, last := hlast, counts := hcounts
        least := by
          rw [hivs]
          intro x hmem
          rcases List.mem_append.mp hmem with hold | hnew
          · have hunset : s.totalMinIvNs ≠ 0 := by
              intro h0
              rw [h.unset h0] at hold
              exact absurd hold List.not_mem_nil
            exact (hmin' hunset).trans (h.least x hold)
          · rw [List.mem_singleton.mp hnew]
            exact hmin
        unset := fun h0 => absurd h0 hmin0
        greatest := by
          rw [hivs]
          intro x hmem
          rcases List.mem_append.mp hmem with hold | hnew
          · exact (h.greatest x hold).trans hmax'
          · rw [List.mem_singleton.mp hnew]
            exact hmax
        greatest_le := hmax50 h.greatest_le }

/-! ## A run -/

/-- What the meter and the windows flushed so far hold of an endpoint. -/
def EndpointHolds (ops : List RateOp) (m : RateMeter) (ws : List RateWindow) (k : RateKey) : Prop :=
  (∀ s, m.slots.lookup k = some s → k ∈ endpointsOf ops ∧
    SlotHolds s (reportTimes k ops) (failures k ops)) ∧
  (m.slots.lookup k = none → k ∉ endpointsOf ops) ∧
  Pieces wrapped (ws.map (countsIn k)) (slotCounts k m.slots) (countsOf (reportTimes k ops))

theorem reportTimes_of_not_mem {k : RateKey} {ops : List RateOp} (h : k ∉ endpointsOf ops) :
    reportTimes k ops = [] ∧ failures k ops = 0 := by
  have hnone : ∀ op ∈ ops, inKey op ≠ some k :=
    fun op hop hk => h (List.mem_filterMap.mpr ⟨op, hop, hk⟩)
  refine ⟨List.filterMap_eq_nil_iff.mpr ?_, List.countP_eq_zero.mpr ?_⟩
  · intro op hop
    cases op with
    | stop => rfl
    | record e => exact if_neg fun hin => hnone _ hop hin.1
  · intro op hop
    cases op with
    | stop => exact Bool.false_ne_true
    | record e => simpa [isFailure] using fun hin => absurd hin (hnone _ hop)

/-- The records of an endpoint after one more operation. -/
theorem records_concat (k : RateKey) (ops : List RateOp) (op : RateOp) :
    reportTimes k (ops ++ [op]) = reportTimes k ops ++ (reportTime k op).toList ∧
      failures k (ops ++ [op]) = failures k ops + (isFailure k op).toNat ∧
      endpointsOf (ops ++ [op]) = endpointsOf ops ++ (inKey op).toList := by
  refine ⟨?_, ?_, ?_⟩
  · rw [reportTimes, List.filterMap_append]
    rfl
  · rw [failures, List.countP_append, failures, List.countP_singleton]
    cases isFailure k op <;> rfl
  · rw [endpointsOf, List.filterMap_append]
    rfl

/-- The records of an endpoint after an operation of another. -/
theorem records_other {k : RateKey} {ops : List RateOp} {op : RateOp} (h : inKey op ≠ some k) :
    reportTimes k (ops ++ [op]) = reportTimes k ops ∧
      failures k (ops ++ [op]) = failures k ops ∧
      (k ∈ endpointsOf (ops ++ [op]) ↔ k ∈ endpointsOf ops) := by
  obtain ⟨htimes, hfails, hkeys⟩ := records_concat k ops op
  have hreport : reportTime k op = none := by
    cases op with
    | stop => rfl
    | record e => exact if_neg fun hin => h hin.1
  have hfail : isFailure k op = false := by
    cases op with
    | stop => rfl
    | record e => exact decide_eq_false fun hin => h hin.1
  rw [htimes, hfails, hkeys, hreport, hfail]
  refine ⟨List.append_nil _, rfl, ?_⟩
  rw [List.mem_append, Option.mem_toList]
  exact or_iff_left h

/-- **A record** in a slot. -/
theorem SlotHolds.note {s : HidRateSlot} {k : RateKey} {ops : List RateOp} {e : ClassUrbEvent}
    (h : SlotHolds s (reportTimes k ops) (failures k ops))
    (hpos : ∀ t ∈ reportTimes k ops, 0 < t) (hin : inKey (.record e) = some k) :
    SlotHolds (slotNote s e) (reportTimes k (ops ++ [.record e]))
        (failures k (ops ++ [.record e])) ∧
      Grows s (slotNote s e) (reportTimes k ops) (reportTimes k (ops ++ [.record e])) := by
  obtain ⟨htimes, hfails, -⟩ := records_concat k ops (.record e)
  rw [htimes, hfails]
  unfold slotNote
  by_cases hstatus : e.status = 0
  · have hreport : reportTime k (.record e) = some e.hdr.tsNs.toNat := if_pos ⟨hin, hstatus⟩
    have hfail : isFailure k (.record e) = false := decide_eq_false fun hf => hf.2 hstatus
    rw [if_neg (not_not.mpr hstatus), hreport, hfail]
    exact ⟨h.report hpos _ _, h.report_grows hpos _ _⟩
  · have hreport : reportTime k (.record e) = none := if_neg fun hr => hstatus hr.2
    have hfail : isFailure k (.record e) = true := decide_eq_true ⟨hin, hstatus⟩
    rw [if_pos hstatus, hreport, hfail, Option.toList_none, List.append_nil]
    exact ⟨h.failure, failure_grows s _⟩

/-- **Noting a record** keeps what the meter holds, as long as there is room for a slot. -/
theorem EndpointHolds.note {ops : List RateOp} {m : RateMeter} {ws : List RateWindow}
    {op : RateOp} (h : ∀ k, EndpointHolds ops m ws k)
    (hpos : ∀ k, ∀ t ∈ reportTimes k ops, 0 < t)
    (hroom : ∀ k, inKey op = some k → m.slots.HasRoom k) (k : RateKey) :
    EndpointHolds (ops ++ [op]) (noteOp m op) ws k := by
  obtain ⟨hsome, hnone, hpieces⟩ := h k
  by_cases hk : inKey op = some k
  · obtain ⟨e, rfl, -, -, rfl⟩ := inKey_eq_some hk
    have hlookup : (noteOp m (.record e)).slots.lookup (rateKey e) =
        some (slotNote ((m.slots.lookup (rateKey e)).getD (newSlot e)) e) := by
      rw [noteOp_of_in m hk]
      exact noteSlots_of_hasRoom (hroom _ hk)
    have hold : SlotHolds ((m.slots.lookup (rateKey e)).getD (newSlot e))
          (reportTimes (rateKey e) ops) (failures (rateKey e) ops) ∧
        windowCounts ((m.slots.lookup (rateKey e)).getD (newSlot e)) =
          slotCounts (rateKey e) m.slots := by
      unfold slotCounts
      cases hslot : m.slots.lookup (rateKey e) with
      | some s => exact ⟨(hsome s hslot).2, rfl⟩
      | none =>
        obtain ⟨htimes, hfails⟩ := reportTimes_of_not_mem (hnone hslot)
        rw [htimes, hfails]
        exact ⟨slotHolds_new e.vid e.product, rfl⟩
    obtain ⟨hnote, d, hwhole, hwindow, -⟩ := hold.1.note (hpos _) hk
    refine ⟨fun s hs => ?_, fun hs => ?_, ?_⟩
    · rw [hlookup] at hs
      cases hs
      refine ⟨?_, hnote⟩
      rw [(records_concat (rateKey e) ops (.record e)).2.2, hk]
      exact List.mem_append_right _ List.mem_cons_self
    · rw [hlookup] at hs
      cases hs
    · have hcurrent : slotCounts (rateKey e) (noteOp m (.record e)).slots =
          wrapped (slotCounts (rateKey e) m.slots + d) := by
        rw [← hold.2, ← hwindow, slotCounts, hlookup]
        rfl
      rw [hcurrent, hwhole]
      exact hpieces.grow wraps_wrapped d
  · have hlookup : (noteOp m op).slots.lookup k = m.slots.lookup k := by
      cases hin : inKey op with
      | none => rw [noteOp_of_none m hin]
      | some k' =>
        obtain ⟨e, rfl, -, -, rfl⟩ := inKey_eq_some hin
        rw [noteOp_of_in m hin]
        exact noteSlots_of_ne m.slots e fun heq => hk (heq ▸ hin)
    obtain ⟨htimes, hfails, hmem⟩ := @records_other k ops op hk
    rw [EndpointHolds, slotCounts, hlookup, htimes, hfails, hmem]
    exact h k

/-- **A flush** moves the current window to the flushed ones. -/
theorem EndpointHolds.flush {ops : List RateOp} {m : RateMeter} {ws : List RateWindow}
    {k : RateKey} (h : EndpointHolds ops m ws k) (nowNs : UInt64) :
    EndpointHolds ops (flushed m nowNs).1 (ws ++ (flushed m nowNs).2) k := by
  obtain ⟨hsome, hnone, hpieces⟩ := h
  have hlookup : (flushed m nowNs).1.slots.lookup k =
      (m.slots.lookup k).map HidRateSlot.clearWindow := BoundedMap.lookup_mapValues _ _ _
  have hcurrent : slotCounts k (flushed m nowNs).1.slots = 0 := by
    rw [slotCounts, hlookup]
    cases m.slots.lookup k <;> rfl
  have hcounts : (ws ++ (flushed m nowNs).2).map (countsIn k) =
      ws.map (countsIn k) ++ [slotCounts k m.slots] := List.map_append
  rw [EndpointHolds, hlookup, hcounts, hcurrent]
  refine ⟨fun s' hs' => ?_, fun hs' => hnone (Option.map_eq_none_iff.mp hs'),
    hpieces.close wraps_wrapped⟩
  obtain ⟨s, hs, rfl⟩ := Option.map_eq_some_iff.mp hs'
  obtain ⟨hmem, hholds⟩ := hsome s hs
  exact ⟨hmem, { hholds with }⟩

/-- A record comes with a time. -/
def Timed : RateOp → Prop
  | .record e => 0 < e.hdr.tsNs.toNat
  | .stop => True

instance : (op : RateOp) → Decidable (Timed op)
  | .record e => inferInstanceAs (Decidable (0 < e.hdr.tsNs.toNat))
  | .stop => inferInstanceAs (Decidable True)

theorem reportTimes_pos {k : RateKey} {ops : List RateOp} (h : ∀ op ∈ ops, Timed op) :
    ∀ t ∈ reportTimes k ops, 0 < t := by
  intro t ht
  obtain ⟨op, hop, hreport⟩ := List.mem_filterMap.mp ht
  cases op with
  | stop => cases hreport
  | record e =>
    obtain ⟨-, htime⟩ := Option.ite_none_right_eq_some.mp hreport
    cases htime
    exact h _ hop

/-- **In every run** with at most 16 endpoints the meter holds what their records say. -/
theorem run_endpointHolds {cfg : RateConfig} (hrate : cfg.rate = true) {ops : List RateOp}
    (htimed : ∀ op ∈ ops, Timed op) (hcap : (endpointsOf ops).toFinset.card ≤ 16) (k : RateKey) :
    EndpointHolds ops (meterAfter cfg ops) (windowsOf cfg ops) k := by
  induction ops using List.reverseRecOn generalizing k with
  | nil =>
    exact ⟨fun s hs => (Option.some_ne_none s hs.symm).elim, fun _ => List.not_mem_nil,
      Pieces.nil wraps_wrapped⟩
  | append_singleton ops op ih =>
    have hkeys := (records_concat k ops op).2.2
    have hsub : (endpointsOf ops).toFinset ⊆ (endpointsOf (ops ++ [op])).toFinset := by
      intro k' hk'
      rw [List.mem_toFinset] at hk' ⊢
      rw [hkeys]
      exact List.mem_append_left _ hk'
    have htimed' : ∀ op' ∈ ops, Timed op' :=
      fun op' hop' => htimed op' (List.mem_append_left _ hop')
    have hpre := ih htimed' ((Finset.card_le_card hsub).trans hcap)
    have hroom : ∀ k', inKey op = some k' → (meterAfter cfg ops).slots.HasRoom k' := by
      intro k' hk'
      apply BoundedMap.hasRoom_of_card hcap
      · intro k'' s hs
        exact hsub (List.mem_toFinset.mpr ((hpre k'').1 s hs).1)
      · rw [List.mem_toFinset, hkeys, hk']
        exact List.mem_append_right _ List.mem_cons_self
    have hnote := EndpointHolds.note hpre (fun k' => reportTimes_pos htimed') hroom k
    rw [meterAfter, windowsOf, finalState_concat, outputs_concat]
    change EndpointHolds _ (rateStep cfg (meterAfter cfg ops) op).1
      (windowsOf cfg ops ++ (rateStep cfg (meterAfter cfg ops) op).2) k
    rcases rateStep_cases hrate (meterAfter cfg ops) op with heq | ⟨nowNs, -, -, heq⟩
    · rw [heq, List.append_nil]
      exact hnote
    · rw [heq]
      exact hnote.flush nowNs

/-- What a slot has counted of the records of its endpoint, in total and window by window. -/
structure Counted (k : RateKey) (ops : List RateOp) (ws : List RateWindow) (s : HidRateSlot) :
    Prop where
  errors : s.errUrbs = UInt64.ofNat (failures k ops)
  counts : totalCounts s = wrapped (countsOf (reportTimes k ops))
  windows : Pieces wrapped (ws.map (countsIn k)) (windowCounts s) (countsOf (reportTimes k ops))
  greatest_le : s.totalMaxIvNs.toNat ≤ 50000000

/-- What there is to count of an endpoint fits 64 bits. -/
def FitsCounters (k : RateKey) (ops : List RateOp) : Prop :=
  ops.length < 2 ^ 64 ∧
    ((intervals (reportTimes k ops)).sum < 2 ^ 64 ∨ (reportTimes k ops).Pairwise (· < ·))

instance (k : RateKey) (ops : List RateOp) : Decidable (FitsCounters k ops) :=
  inferInstanceAs (Decidable (_ ∧ _))

/-- The equations of a slot: its counts, in total and window by window, against the records of
the endpoint. -/
structure Accounted (k : RateKey) (ops : List RateOp) (ws : List RateWindow) (s : HidRateSlot) :
    Prop where
  reports : s.totalCount.toNat = (reportTimes k ops).length
  errors : s.errUrbs.toNat = failures k ops
  intervals : s.totalCount ≠ 0 →
    s.totalIvCount.toNat + s.totalGaps.toNat ≤ s.totalCount.toNat - 1
  least : s.totalMinIvNs.toNat * s.totalIvCount.toNat ≤ s.totalSumIvNs.toNat
  greatest : s.totalSumIvNs.toNat ≤ s.totalMaxIvNs.toNat * s.totalIvCount.toNat
  greatest_le : s.totalMaxIvNs.toNat ≤ 50000000
  windows : (ws.map (countsIn k)).sum + windowCounts s = totalCounts s
  increasing : (reportTimes k ops).Pairwise (· < ·) →
    ∀ first rest, reportTimes k ops = first :: rest →
      s.totalIvCount.toNat + s.totalGaps.toNat = s.totalCount.toNat - 1 ∧
        s.totalSumIvNs.toNat + (gaps (reportTimes k ops)).sum =
          (first :: rest).getLast (List.cons_ne_nil first rest) - first

/-- The numbers of the increases, and their sums, by the two kinds. -/
theorem increments_split (ts : List ℕ) :
    (intervals ts).length + (gaps ts).length = (increments ts).length ∧
      (intervals ts).sum + (gaps ts).sum = (increments ts).sum := by
  refine ⟨?_, ?_⟩
  · have hlen := List.length_eq_length_filter_add (l := increments ts) isGap
    rw [intervals, gaps]
    omega
  · rw [intervals, gaps, Nat.add_comm]
    exact sum_filter_add_sum_filter_not isGap (increments ts)

theorem reportTimes_lt {k : RateKey} {ops : List RateOp} : ∀ t ∈ reportTimes k ops, t < 2 ^ 64 := by
  intro t ht
  obtain ⟨op, -, hreport⟩ := List.mem_filterMap.mp ht
  cases op with
  | stop => cases hreport
  | record e =>
    obtain ⟨-, htime⟩ := Option.ite_none_right_eq_some.mp hreport
    cases htime
    exact e.hdr.tsNs.toNat_lt

/-- Intervals from one time to the next, all going up, are together no longer than the last
time. -/
theorem sum_intervals_lt {ts : List ℕ} {n : ℕ} (hn : 0 < n) (hlt : ∀ t ∈ ts, t < n)
    (hup : ts.Pairwise (· < ·)) : (intervals ts).sum < n := by
  have hsum := (increments_split ts).2
  cases ts with
  | nil => exact hn
  | cons first rest =>
    have htotal := (increments_of_lt hup).2
    have hlast := hlt _ (List.getLast_mem (List.cons_ne_nil first rest))
    omega

/-- Counts that fit are held as they are. -/
theorem FitsCounters.wrapped_eq {k : RateKey} {ops : List RateOp} (h : FitsCounters k ops) :
    wrapped (countsOf (reportTimes k ops)) = countsOf (reportTimes k ops) := by
  obtain ⟨hlen, hsum⟩ := h
  have hreports : (reportTimes k ops).length ≤ ops.length := List.length_filterMap_le _ _
  have hincr := length_increments_le (reportTimes k ops)
  have hsplit := (increments_split (reportTimes k ops)).1
  have hfit : (intervals (reportTimes k ops)).sum < 2 ^ 64 :=
    hsum.elim id (sum_intervals_lt (by decide) reportTimes_lt)
  rw [wrapped, countsOf, Prod.map_apply, Prod.map_apply, Prod.map_apply,
    Nat.mod_eq_of_lt (by omega), Nat.mod_eq_of_lt (by omega), Nat.mod_eq_of_lt hfit,
    Nat.mod_eq_of_lt (by omega)]

theorem SlotHolds.accounted {k : RateKey} {ops : List RateOp} {ws : List RateWindow}
    {s : HidRateSlot} (h : SlotHolds s (reportTimes k ops) (failures k ops))
    (hwindows : Pieces wrapped (ws.map (countsIn k)) (windowCounts s)
      (countsOf (reportTimes k ops))) (hfits : FitsCounters k ops) : Accounted k ops ws s := by
  have hcounts : totalCounts s = countsOf (reportTimes k ops) := h.counts.trans hfits.wrapped_eq
  have hreports : s.totalCount.toNat = (reportTimes k ops).length := congrArg Prod.fst hcounts
  have hivs : s.totalIvCount.toNat = (intervals (reportTimes k ops)).length :=
    congrArg (fun c => c.2.1) hcounts
  have hsums : s.totalSumIvNs.toNat = (intervals (reportTimes k ops)).sum :=
    congrArg (fun c => c.2.2.1) hcounts
  have hgaps : s.totalGaps.toNat = (gaps (reportTimes k ops)).length :=
    congrArg (fun c => c.2.2.2) hcounts
  obtain ⟨hlen, hsum⟩ := increments_split (reportTimes k ops)
  exact
    { reports := hreports
      errors := by
        have hfew : failures k ops ≤ ops.length := List.countP_le_length
        rw [h.errs, UInt64.toNat_ofNat_of_lt' (hfew.trans_lt hfits.1)]
      intervals := by
        intro _
        have hle := length_increments_le (reportTimes k ops)
        rw [hivs, hgaps, hreports]
        omega
      least := by
        rw [hsums, hivs, Nat.mul_comm]
        exact List.card_nsmul_le_sum _ _ h.least
      greatest := by
        rw [hsums, hivs, Nat.mul_comm]
        exact List.sum_le_card_nsmul _ _ h.greatest
      greatest_le := h.greatest_le
      windows := by
        rw [hcounts]
        exact hwindows.sum_eq wraps_wrapped hfits.wrapped_eq
      increasing := by
        intro hlt first rest hts
        rw [hts] at hlt hlen hsum hivs hgaps hreports hsums
        obtain ⟨hcount, htotal⟩ := increments_of_lt hlt
        rw [hivs, hgaps, hreports, hsums, hts, List.length_cons]
        omega }

/-- A failed record changes its slot's count of failures, and nothing else; an endpoint without
a slot gets an empty one first. -/
def OnlyCountsFailure (cfg : RateConfig) (m : RateMeter) (e : ClassUrbEvent) : Prop :=
  let s := (m.slots.lookup (rateKey e)).getD (newSlot e)
  (rateStep cfg m (.record e)).2 = [] ∧
    (rateStep cfg m (.record e)).1.windowStartNs = m.windowStartNs ∧
    ∀ k, (rateStep cfg m (.record e)).1.slots.lookup k =
      if k = rateKey e then some { s with errUrbs := s.errUrbs + 1 } else m.slots.lookup k

theorem failure_changes {cfg : RateConfig} (hrate : cfg.rate = true) {m : RateMeter}
    {e : ClassUrbEvent} (hfail : isFailure (rateKey e) (.record e) = true)
    (hroom : m.slots.HasRoom (rateKey e)) : OnlyCountsFailure cfg m e := by
  obtain ⟨hin, hstatus⟩ := of_decide_eq_true hfail
  obtain ⟨e', he, hklass, hdir, -⟩ := inKey_eq_some hin
  cases he
  have hstep : rateStep cfg m (.record e) = (noteRecord m e, []) := by
    show (if e.klass = usbtraceClassHid then rateOnIn cfg m e else (m, [])) = _
    rw [if_pos hklass, rateOnIn_eq hrate m hdir, if_neg fun h => hstatus h.1]
  unfold OnlyCountsFailure
  rw [hstep]
  refine ⟨rfl, if_neg fun h => hstatus h.1, ?_⟩
  intro k
  by_cases hk : k = rateKey e
  · rw [if_pos hk, hk]
    exact (noteSlots_of_hasRoom hroom).trans (congrArg some (if_pos hstatus))
  · rw [if_neg hk]
    exact noteSlots_of_ne m.slots e hk

/-- **The totals of the meter.**  After every run with at most 16 endpoints, each endpoint has a
slot that has counted its records modulo 2⁶⁴, and accounts for them where they fit 64 bits; and a
failed record only adds to the failures.
SOURCE: hid.c:167-235, 273-335, class.md:42-52 -/
theorem rate_totals {cfg : RateConfig} (hrate : cfg.rate = true) {ops : List RateOp}
    (htimed : ∀ op ∈ ops, Timed op) (hcap : (endpointsOf ops).toFinset.card ≤ 16) :
    (∀ k ∈ endpointsOf ops, ∃ s, (meterAfter cfg ops).slots.lookup k = some s ∧
      Counted k ops (windowsOf cfg ops) s ∧
        (FitsCounters k ops → Accounted k ops (windowsOf cfg ops) s)) ∧
    ∀ pre e post, ops = pre ++ .record e :: post → isFailure (rateKey e) (.record e) = true →
      OnlyCountsFailure cfg (meterAfter cfg pre) e := by
  have hholds := run_endpointHolds hrate htimed hcap
  refine ⟨?_, ?_⟩
  · intro k hk
    obtain ⟨hsome, hnone, hpieces⟩ := hholds k
    cases hslot : (meterAfter cfg ops).slots.lookup k with
    | none => exact absurd hk (hnone hslot)
    | some s =>
      obtain ⟨-, hs⟩ := hsome s hslot
      rw [slotCounts, hslot] at hpieces
      exact ⟨s, rfl, ⟨hs.errs, hs.counts, hpieces, hs.greatest_le⟩, hs.accounted hpieces⟩
  · rintro pre e post rfl hfail
    obtain ⟨hin, -⟩ := of_decide_eq_true hfail
    have hmem : ∀ k ∈ endpointsOf pre, k ∈ (endpointsOf (pre ++ .record e :: post)).toFinset := by
      intro k hk
      rw [List.mem_toFinset, endpointsOf, List.filterMap_append]
      exact List.mem_append_left _ hk
    have hcap' : (endpointsOf pre).toFinset.card ≤ 16 := by
      refine (Finset.card_le_card ?_).trans hcap
      exact fun k hk => hmem k (List.mem_toFinset.mp hk)
    have hpre := run_endpointHolds hrate
      (fun op hop => htimed op (List.mem_append_left _ hop)) hcap'
    apply failure_changes hrate hfail
    apply BoundedMap.hasRoom_of_card hcap
    · intro k s hs
      exact hmem k ((hpre k).1 s hs).1
    · rw [List.mem_toFinset]
      exact List.mem_filterMap.mpr ⟨.record e, by simp, hin⟩

/-- A record of the mouse on bus 1: a report, or a failure. -/
def mouseRecord (tsNs : UInt64) (status : Int32) : RateOp :=
  .record
    { hdr := { kind := evtClass, size := 64, tsNs := tsNs }, status := status, errorCount := 0
      numberOfPackets := 0, actualLength := 4, startFrame := 0, pid := 0, vid := 0x1c4f
      product := 2, busnum := 1, devnum := 5, klass := usbtraceClassHid, ep := 1, dirIn := 1
      xferType := 1, comm := [] }

def secondWindows : RateConfig := { rateSec := 1, inRange := by decide }

/-- Two reports, a failure, and a report after a pause. -/
def mouseRun : List RateOp :=
  [mouseRecord 1000 0, mouseRecord 2000 0, mouseRecord 2500 (-2), mouseRecord 2000000000 0]

theorem rate_totals_sample :
    (∀ k ∈ endpointsOf mouseRun, FitsCounters k mouseRun) ∧
    (∀ k ∈ endpointsOf mouseRun, ∃ s, (meterAfter secondWindows mouseRun).slots.lookup k = some s ∧
      Counted k mouseRun (windowsOf secondWindows mouseRun) s ∧
        (FitsCounters k mouseRun → Accounted k mouseRun (windowsOf secondWindows mouseRun) s)) ∧
    ∀ pre e post, mouseRun = pre ++ .record e :: post →
      isFailure (rateKey e) (.record e) = true →
      OnlyCountsFailure secondWindows (meterAfter secondWindows pre) e :=
  ⟨by decide, rate_totals rfl (by decide) (by decide)⟩

example : reportTimes ⟨1, 5, 1⟩ mouseRun = [1000, 2000, 2000000000] ∧
    failures ⟨1, 5, 1⟩ mouseRun = 1 := by decide

/-! ## A sum that wraps -/

/-- Reports that come in pairs, the later one with the earlier time of the next pair. -/
def backAndForth (n : ℕ) : List RateOp :=
  (List.replicate n [mouseRecord 1 0, mouseRecord 50000001 0]).flatten

theorem mem_backAndForth {n : ℕ} {op : RateOp} (h : op ∈ backAndForth n) :
    op = mouseRecord 1 0 ∨ op = mouseRecord 50000001 0 := by
  obtain ⟨pair, hpair, hop⟩ := List.mem_flatten.mp h
  rw [List.eq_of_mem_replicate hpair] at hop
  exact (List.mem_cons.mp hop).imp id List.mem_singleton.mp

theorem reportTimes_backAndForth (n : ℕ) :
    reportTimes ⟨1, 5, 1⟩ (backAndForth n) = (List.replicate n [1, 50000001]).flatten := by
  rw [backAndForth, reportTimes, List.filterMap_flatten, List.map_replicate]
  rfl

/-- Each pair is one interval of 50 ms. -/
theorem intervals_backAndForth (n : ℕ) :
    intervals (reportTimes ⟨1, 5, 1⟩ (backAndForth n)) = List.replicate n 50000000 := by
  have hback : ∀ n, increments (50000001 :: (List.replicate n [1, 50000001]).flatten) =
      increments (List.replicate n [1, 50000001]).flatten := by
    intro n
    cases n <;> rfl
  have hincr : increments (List.replicate n [1, 50000001]).flatten =
      List.replicate n 50000000 := by
    induction n with
    | zero => rfl
    | succ n ih =>
      rw [List.replicate_succ, List.flatten_cons, List.replicate_succ, ← ih, ← hback]
      rfl
  rw [reportTimes_backAndForth, intervals, hincr, List.filter_replicate]
  rfl

theorem backAndForth_timed (n : ℕ) : ∀ op ∈ backAndForth n, Timed op := by
  intro op hop
  rcases mem_backAndForth hop with rfl | rfl
  · exact Nat.zero_lt_one
  · exact Nat.succ_pos 50000000

theorem backAndForth_endpoints (n : ℕ) : ∀ k ∈ endpointsOf (backAndForth n), k = ⟨1, 5, 1⟩ := by
  intro k hk
  obtain ⟨op, hop, hin⟩ := List.mem_filterMap.mp hk
  rcases mem_backAndForth hop with rfl | rfl <;> exact (Option.some.inj hin).symm

theorem mem_endpointsOf_backAndForth {n : ℕ} (hn : 0 < n) :
    ⟨1, 5, 1⟩ ∈ endpointsOf (backAndForth n) := by
  have hpair : [mouseRecord 1 0, mouseRecord 50000001 0] ∈
      List.replicate n [mouseRecord 1 0, mouseRecord 50000001 0] :=
    List.mem_replicate.mpr ⟨hn.ne', rfl⟩
  exact List.mem_filterMap.mpr
    ⟨mouseRecord 1 0, List.mem_flatten_of_mem hpair List.mem_cons_self, rfl⟩

theorem backAndForth_card (n : ℕ) : (endpointsOf (backAndForth n)).toFinset.card ≤ 16 := by
  have hone : (endpointsOf (backAndForth n)).toFinset ⊆ {⟨1, 5, 1⟩} := fun k hk =>
    Finset.mem_singleton.mpr (backAndForth_endpoints n k (List.mem_toFinset.mp hk))
  exact (Finset.card_le_card hone).trans (by rw [Finset.card_singleton]; decide)

/-- What the slot holds after some pairs. -/
theorem backAndForth_slot {n : ℕ} (hn : 0 < n) {s : HidRateSlot}
    (hs : (meterAfter secondWindows (backAndForth n)).slots.lookup ⟨1, 5, 1⟩ = some s) :
    s.totalIvCount.toNat = n % 2 ^ 64 ∧ s.totalSumIvNs.toNat = n * 50000000 % 2 ^ 64 ∧
      0 < s.totalMinIvNs.toNat := by
  have hrate : secondWindows.rate = true := rfl
  have hholds := (run_endpointHolds hrate (backAndForth_timed n) (backAndForth_card n)
    ⟨1, 5, 1⟩).1 s hs
  have hivs := intervals_backAndForth n
  have hcounts := hholds.2.counts
  refine ⟨?_, ?_, ?_⟩
  · have hcount := congrArg (fun c => c.2.1) hcounts
    change s.totalIvCount.toNat = (intervals _).length % 2 ^ 64 at hcount
    rwa [hivs, List.length_replicate] at hcount
  · have hsum := congrArg (fun c => c.2.2.1) hcounts
    change s.totalSumIvNs.toNat = (intervals _).sum % 2 ^ 64 at hsum
    rwa [hivs, List.sum_replicate_nat] at hsum
  · refine Nat.pos_of_ne_zero fun hzero => ?_
    have hnone := hholds.2.unset (UInt32.toNat_inj.mp hzero)
    rw [hivs, List.replicate_eq_nil_iff] at hnone
    exact hn.ne' hnone

/-- **The sum wraps** for some 370 thousand million such pairs, below the number of intervals. -/
theorem sum_wraps :
    (∀ op ∈ backAndForth 368934881475, Timed op) ∧
      (endpointsOf (backAndForth 368934881475)).toFinset.card ≤ 16 ∧
      ¬∀ k ∈ endpointsOf (backAndForth 368934881475),
        ∃ s, (meterAfter secondWindows (backAndForth 368934881475)).slots.lookup k = some s ∧
          Accounted k (backAndForth 368934881475)
            (windowsOf secondWindows (backAndForth 368934881475)) s := by
  refine ⟨backAndForth_timed _, backAndForth_card _, fun hall => ?_⟩
  obtain ⟨s, hs, haccounted⟩ := hall _ (mem_endpointsOf_backAndForth (by decide))
  obtain ⟨hcount, hsum, hmin⟩ := backAndForth_slot (by decide) hs
  have hleast := haccounted.least
  have hcount' : 368934881475 % 2 ^ 64 = 368934881475 := by norm_num
  have hsum' : 368934881475 * 50000000 % 2 ^ 64 = 40448384 := by norm_num
  rw [hcount, hsum, hcount', hsum'] at hleast
  have hmore := Nat.le_mul_of_pos_left 368934881475 hmin
  omega

end UsbTrace.Analysis

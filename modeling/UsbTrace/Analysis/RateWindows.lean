import UsbTrace.Analysis.RateTotals

/-!
# The windows of a periodic endpoint

A window is closed by a report, and the next one opens with the same report.  Where one
endpoint reports at a fixed period, the open window has counted the reports after the one it
opened with; only the first window has counted that one too (`WindowsHold`).
-/

set_option autoImplicit false

namespace UsbTrace.Analysis

open UsbTrace.Model UsbTrace.Interface UsbTrace.Library

/-- A run before the end of the session in which `k` is the only active endpoint, with a
report every `p` from `t0` on. -/
structure PeriodicRun (k : RateKey) (t0 p : ℕ) (ops : List RateOp) : Prop where
  running : RateOp.stop ∉ ops
  only : ∀ k' ∈ endpointsOf ops, k' = k
  start_pos : 0 < t0
  period_pos : 0 < p
  times : ∀ i t, (reportTimes k ops)[i]? = some t → t = t0 + i * p

/-- Every line of a window counts the reports after its start up to its end. -/
def WindowExact (k : RateKey) (p : ℕ) (ops : List RateOp) (w : RateWindow) : Prop :=
  ∀ line ∈ w.lines,
    line.2.winCount.toNat =
        ((reportTimes k ops).filter fun t => w.start.toNat < t ∧ t ≤ w.stop.toNat).length ∧
      line.2.winCount.toNat * p = w.stop.toNat - w.start.toNat

instance (k : RateKey) (p : ℕ) (ops : List RateOp) (w : RateWindow) :
    Decidable (WindowExact k p ops w) :=
  inferInstanceAs (Decidable (∀ line ∈ w.lines, _))

/-! ## The open window and the closed ones -/

def windowCount (k : RateKey) (slots : BoundedMap RateKey HidRateSlot 16) : ℕ :=
  ((slots.lookup k).map fun s => s.winCount.toNat).getD 0

def OnlySlot (k : RateKey) (slots : BoundedMap RateKey HidRateSlot 16) : Prop :=
  ∀ k' s, slots.lookup k' = some s → k' = k

/-- How often a window counts the report it opens with. -/
def opening (i : ℕ) : ℕ := if i = 0 then 1 else 0

/-- The window number `i` after `n` reports, from a report `a` to a report `b`. -/
structure Closed (k : RateKey) (t0 p n i : ℕ) (w : RateWindow) : Prop where
  only : OnlySlot k w.slots
  ends : ∃ a b, a < b ∧ b < n ∧ w.start.toNat = t0 + a * p ∧ w.stop.toNat = t0 + b * p ∧
    windowCount k w.slots = b - a + opening i

/-- The meter after `n` reports. -/
structure WindowsHold (k : RateKey) (t0 p n : ℕ) (m : RateMeter) (ws : List RateWindow) :
    Prop where
  only : OnlySlot k m.slots
  idle : n = 0 → m.windowStartNs = 0 ∧ ws = [] ∧ windowCount k m.slots = 0
  opened : 0 < n → ∃ a < n, m.windowStartNs.toNat = t0 + a * p ∧
    windowCount k m.slots + a + 1 = n + opening ws.length
  closed : ∀ i w, ws[i]? = some w → Closed k t0 p n i w

theorem OnlySlot.hasRoom {k : RateKey} {slots : BoundedMap RateKey HidRateSlot 16}
    (h : OnlySlot k slots) : slots.HasRoom k := by
  apply BoundedMap.hasRoom_of_card (S := {k})
  · rw [Finset.card_singleton]
    omega
  · intro k' s hs
    exact Finset.mem_singleton.mpr (h k' s hs)
  · exact Finset.mem_singleton_self k

theorem OnlySlot.note {slots : BoundedMap RateKey HidRateSlot 16} {e : ClassUrbEvent}
    (h : OnlySlot (rateKey e) slots) : OnlySlot (rateKey e) (noteSlots slots e) := by
  intro k' s hs
  by_contra hk'
  rw [noteSlots_of_ne slots e hk'] at hs
  exact hk' (h k' s hs)

theorem OnlySlot.clear {k : RateKey} {slots : BoundedMap RateKey HidRateSlot 16}
    (h : OnlySlot k slots) : OnlySlot k (slots.mapValues HidRateSlot.clearWindow) := by
  intro k' s hs
  rw [BoundedMap.lookup_mapValues] at hs
  obtain ⟨s', hs', -⟩ := Option.map_eq_some_iff.mp hs
  exact h k' s' hs'

theorem windowCount_noteSlots {slots : BoundedMap RateKey HidRateSlot 16} {e : ClassUrbEvent}
    (h : slots.HasRoom (rateKey e)) :
    ∃ s, s.winCount.toNat = windowCount (rateKey e) slots ∧
      windowCount (rateKey e) (noteSlots slots e) = (slotNote s e).winCount.toNat := by
  refine ⟨(slots.lookup (rateKey e)).getD (newSlot e), ?_, ?_⟩
  · unfold windowCount
    cases slots.lookup (rateKey e) <;> rfl
  · rw [windowCount, noteSlots_of_hasRoom h]
    rfl

/-- A failed record is not counted in the open window. -/
theorem windowCount_failure {slots : BoundedMap RateKey HidRateSlot 16} {e : ClassUrbEvent}
    (h : slots.HasRoom (rateKey e)) (hstatus : e.status ≠ 0) :
    windowCount (rateKey e) (noteSlots slots e) = windowCount (rateKey e) slots := by
  obtain ⟨s, hold, hnew⟩ := windowCount_noteSlots h
  rw [hnew, slotNote, if_pos hstatus]
  exact hold

/-- A report is. -/
theorem windowCount_report {slots : BoundedMap RateKey HidRateSlot 16} {e : ClassUrbEvent}
    (h : slots.HasRoom (rateKey e)) (hstatus : e.status = 0)
    (hfew : windowCount (rateKey e) slots + 1 < 2 ^ 64) :
    windowCount (rateKey e) (noteSlots slots e) = windowCount (rateKey e) slots + 1 := by
  obtain ⟨s, hold, hnew⟩ := windowCount_noteSlots h
  obtain ⟨role, mouse, kbd, other, hreport⟩ := slotNoteReport_eq s e.hdr.tsNs e.actualLength
  rw [hnew, slotNote, if_neg (not_not.mpr hstatus), hreport, ← hold]
  rw [← hold] at hfew
  show (s.winCount + 1).toNat = s.winCount.toNat + 1
  rw [UInt64.toNat_add, UInt64.toNat_one, Nat.mod_eq_of_lt hfew]

theorem windowCount_clear (k : RateKey) (slots : BoundedMap RateKey HidRateSlot 16) :
    windowCount k (slots.mapValues HidRateSlot.clearWindow) = 0 := by
  rw [windowCount, BoundedMap.lookup_mapValues]
  cases slots.lookup k <;> rfl

theorem Closed.mono {k : RateKey} {t0 p n i : ℕ} {w : RateWindow} (h : Closed k t0 p n i w) :
    Closed k t0 p (n + 1) i w := by
  obtain ⟨a, b, hab, hb, hrest⟩ := h.ends
  exact ⟨h.only, a, b, hab, Nat.lt_succ_of_lt hb, hrest⟩

/-! ## The steps -/

theorem WindowsHold.failure {t0 p n : ℕ} {m : RateMeter} {ws : List RateWindow}
    {e : ClassUrbEvent} (h : WindowsHold (rateKey e) t0 p n m ws) (hstatus : e.status ≠ 0) :
    WindowsHold (rateKey e) t0 p n (noteRecord m e) ws := by
  have hstart : (noteRecord m e).windowStartNs = m.windowStartNs :=
    if_neg fun hs => hstatus hs.1
  have hcount : windowCount (rateKey e) (noteRecord m e).slots =
      windowCount (rateKey e) m.slots := by
    rw [noteRecord, windowCount_failure h.only.hasRoom hstatus]
  constructor
  · exact h.only.note
  · rw [hstart, hcount]
    exact h.idle
  · rw [hstart, hcount]
    exact h.opened
  · exact h.closed

/-- The open window has counted no more than there are reports. -/
theorem WindowsHold.windowCount_le {k : RateKey} {t0 p n : ℕ} {m : RateMeter}
    {ws : List RateWindow} (h : WindowsHold k t0 p n m ws) : windowCount k m.slots ≤ n := by
  rcases Nat.eq_zero_or_pos n with hn | hn
  · rw [(h.idle hn).2.2]
    exact Nat.zero_le n
  · obtain ⟨a, -, -, hcounted⟩ := h.opened hn
    have hopening : opening ws.length ≤ 1 := by
      unfold opening
      split <;> decide
    omega

/-- **A report** is counted; the first one opens the first window. -/
theorem WindowsHold.report {t0 p n : ℕ} {m : RateMeter} {ws : List RateWindow}
    {e : ClassUrbEvent} (h : WindowsHold (rateKey e) t0 p n m ws) (hstatus : e.status = 0)
    (hpos : 0 < t0) (hp : 0 < p) (htime : e.hdr.tsNs.toNat = t0 + n * p) :
    WindowsHold (rateKey e) t0 p (n + 1) (noteRecord m e) ws := by
  -- the counter cannot wrap: the times of the reports before this one fit 64 bits
  have hfew : windowCount (rateKey e) m.slots + 1 < 2 ^ 64 := by
    have hle := h.windowCount_le
    have hn : n ≤ n * p := Nat.le_mul_of_pos_right n hp
    have hlt := e.hdr.tsNs.toNat_lt
    omega
  have hcount : windowCount (rateKey e) (noteRecord m e).slots =
      windowCount (rateKey e) m.slots + 1 := by
    rw [noteRecord, windowCount_report h.only.hasRoom hstatus hfew]
  have hstart : (noteRecord m e).windowStartNs =
      if m.windowStartNs = 0 then e.hdr.tsNs else m.windowStartNs := by
    simp only [noteRecord, hstatus, h.only.hasRoom, true_and]
  constructor
  · exact h.only.note
  · intro hn
    cases hn
  · intro _
    rw [hcount, hstart]
    rcases Nat.eq_zero_or_pos n with hn | hn
    · obtain ⟨hzero, hws, hnone⟩ := h.idle hn
      rw [if_pos hzero, hws, hnone, hn]
      refine ⟨0, Nat.zero_lt_one, ?_, rfl⟩
      rw [htime, hn]
    · obtain ⟨a, ha, hopen, hcounted⟩ := h.opened hn
      have hne : m.windowStartNs ≠ 0 := by
        intro hzero
        rw [hzero, UInt64.toNat_zero] at hopen
        omega
      rw [if_neg hne]
      refine ⟨a, Nat.lt_succ_of_lt ha, hopen, ?_⟩
      omega
  · intro i w hw
    exact (h.closed i w hw).mono

/-- **A flush** at the latest report closes the window and opens the next one. -/
theorem WindowsHold.flush {k : RateKey} {t0 p n : ℕ} {m : RateMeter} {ws : List RateWindow}
    (h : WindowsHold k t0 p (n + 1) m ws) {nowNs : UInt64} (hnow : nowNs.toNat = t0 + n * p)
    (hlt : m.windowStartNs < nowNs) :
    WindowsHold k t0 p (n + 1) (flushed m nowNs).1 (ws ++ (flushed m nowNs).2) := by
  obtain ⟨a, -, hopen, hcounted⟩ := h.opened (Nat.succ_pos n)
  have han : a < n := by
    rw [UInt64.lt_iff_toNat_lt, hopen, hnow] at hlt
    exact Nat.lt_of_mul_lt_mul_right (Nat.lt_of_add_lt_add_left hlt)
  constructor
  · exact h.only.clear
  · intro hn
    cases hn
  · intro _
    refine ⟨n, Nat.lt_succ_self n, hnow, ?_⟩
    have hlen : (ws ++ (flushed m nowNs).2).length = ws.length + 1 := List.length_append
    show windowCount k (m.slots.mapValues HidRateSlot.clearWindow) + n + 1 = _
    rw [windowCount_clear, hlen, opening, if_neg (Nat.succ_ne_zero _), Nat.zero_add, Nat.add_zero]
  · intro i w hw
    rcases Nat.lt_or_ge i ws.length with hi | hi
    · rw [List.getElem?_append_left hi] at hw
      exact h.closed i w hw
    · rw [List.getElem?_append_right hi] at hw
      change [(⟨m.windowStartNs, nowNs, m.slots⟩ : RateWindow)][i - ws.length]? = some w at hw
      rw [List.getElem?_singleton] at hw
      obtain ⟨hlast, hwindow⟩ := Option.ite_none_right_eq_some.mp hw
      have hi' : i = ws.length := by omega
      rw [hi', ← Option.some.inj hwindow]
      refine ⟨h.only, a, n, han, Nat.lt_succ_self n, hopen, hnow, ?_⟩
      show windowCount k m.slots = _
      omega

theorem PeriodicRun.of_prefix {k : RateKey} {t0 p : ℕ} {ops : List RateOp} {op : RateOp}
    (h : PeriodicRun k t0 p (ops ++ [op])) : PeriodicRun k t0 p ops := by
  obtain ⟨htimes, -, hkeys⟩ := records_concat k ops op
  constructor
  · intro hmem
    exact h.running (List.mem_append_left _ hmem)
  · intro k' hk'
    apply h.only
    rw [(records_concat k' ops op).2.2]
    exact List.mem_append_left _ hk'
  · exact h.start_pos
  · exact h.period_pos
  · intro i t ht
    apply h.times
    rw [htimes]
    obtain ⟨hi, -⟩ := List.getElem?_eq_some_iff.mp ht
    rwa [List.getElem?_append_left hi]

/-- **A record** of a periodic run. -/
theorem WindowsHold.record {cfg : RateConfig} (hrate : cfg.rate = true) {k : RateKey}
    {t0 p : ℕ} {ops : List RateOp} {e : ClassUrbEvent} {m : RateMeter} {ws : List RateWindow}
    (hrun : PeriodicRun k t0 p (ops ++ [.record e]))
    (h : WindowsHold k t0 p (reportTimes k ops).length m ws) :
    WindowsHold k t0 p (reportTimes k (ops ++ [.record e])).length
      (rateStep cfg m (.record e)).1 (ws ++ (rateStep cfg m (.record e)).2) := by
  cases hin : inKey (.record e) with
  | none =>
    have hother : inKey (.record e) ≠ some k := by
      rw [hin]
      exact (Option.some_ne_none k).symm
    rcases recordStep_cases hrate m e with hstep | ⟨hkey, -⟩
    · rw [hstep, noteOp_of_none m hin, (records_other hother).1, List.append_nil]
      exact h
    · rw [hin] at hkey
      cases hkey
  | some k' =>
    obtain ⟨e', he, -, -, hkey⟩ := inKey_eq_some hin
    cases he
    have hk : rateKey e = k := by
      apply hrun.only
      rw [(records_concat k ops (.record e)).2.2, hin, hkey]
      exact List.mem_append_right _ List.mem_cons_self
    subst hk
    rw [← hkey] at hin
    have htimes := (records_concat (rateKey e) ops (.record e)).1
    by_cases hstatus : e.status = 0
    · have hreport : reportTime (rateKey e) (.record e) = some e.hdr.tsNs.toNat :=
        if_pos ⟨hin, hstatus⟩
      rw [hreport] at htimes
      have htime : e.hdr.tsNs.toNat = t0 + (reportTimes (rateKey e) ops).length * p := by
        apply hrun.times
        rw [htimes]
        exact List.getElem?_concat_length
      have hnote := h.report hstatus hrun.start_pos hrun.period_pos htime
      rw [← noteOp_of_in m hin] at hnote
      rw [htimes, Option.toList_some, List.length_append, List.length_singleton]
      rcases recordStep_cases hrate m e with hstep | ⟨-, -, -, hlt, hstep⟩
      · rw [hstep, List.append_nil]
        exact hnote
      · rw [hstep]
        exact hnote.flush htime hlt
    · have hreport : reportTime (rateKey e) (.record e) = none := if_neg fun hr => hstatus hr.2
      rw [hreport, Option.toList_none, List.append_nil] at htimes
      rcases recordStep_cases hrate m e with hstep | ⟨-, hsuccess, -⟩
      · rw [hstep, htimes, noteOp_of_in m hin, List.append_nil]
        exact h.failure hstatus
      · exact absurd hsuccess hstatus

/-- **In every run** of the endpoint the meter holds the open window and the closed ones. -/
theorem run_windowsHold {cfg : RateConfig} (hrate : cfg.rate = true) {k : RateKey} {t0 p : ℕ}
    {ops : List RateOp} (h : PeriodicRun k t0 p ops) :
    WindowsHold k t0 p (reportTimes k ops).length (meterAfter cfg ops) (windowsOf cfg ops) := by
  induction ops using List.reverseRecOn with
  | nil =>
    constructor
    · intro k' s hs
      cases hs
    · intro _
      exact ⟨rfl, rfl, rfl⟩
    · intro hn
      cases hn
    · intro i w hw
      cases hw
  | append_singleton ops op ih =>
    rw [meterAfter, windowsOf, finalState_concat, outputs_concat]
    cases op with
    | stop => exact absurd (List.mem_append_right _ List.mem_cons_self) h.running
    | record e => exact WindowsHold.record hrate h (ih h.of_prefix)

/-! ## The lines of a window -/

/-- The numbers after one and up to another. -/
theorem length_filter_range {a b n : ℕ} (hb : b < n) :
    ((List.range n).filter fun i => a < i ∧ i ≤ b).length = b - a := by
  have hcount : ((List.range n).filter fun i => a < i ∧ i ≤ b).length =
      min n (b + 1) - (a + 1) := by
    clear hb
    induction n with
    | zero => simp
    | succ n ih =>
      rw [List.range_succ, List.filter_append, List.length_append, ih, List.filter_singleton]
      by_cases hn : a < n ∧ n ≤ b
      · rw [decide_eq_true hn, cond_true, List.length_singleton]
        omega
      · rw [decide_eq_false hn, cond_false, List.length_nil]
        omega
  rw [hcount]
  omega

theorem PeriodicRun.reportTimes_eq {k : RateKey} {t0 p : ℕ} {ops : List RateOp}
    (h : PeriodicRun k t0 p ops) :
    reportTimes k ops = (List.range (reportTimes k ops).length).map fun i => t0 + i * p := by
  apply List.ext_getElem
  · rw [List.length_map, List.length_range]
  · intro i hi _
    rw [List.getElem_map, List.getElem_range]
    exact h.times i _ (List.getElem?_eq_getElem hi)

/-- The reports after the report `a` up to the report `b`. -/
theorem PeriodicRun.length_reports {k : RateKey} {t0 p : ℕ} {ops : List RateOp}
    (h : PeriodicRun k t0 p ops) {a b : ℕ} (hb : b < (reportTimes k ops).length) :
    ((reportTimes k ops).filter fun t => t0 + a * p < t ∧ t ≤ t0 + b * p).length = b - a := by
  rw [h.reportTimes_eq, List.filter_map, List.length_map, ← length_filter_range hb]
  congr 1
  apply List.filter_congr
  intro i _
  have hafter : t0 + a * p < t0 + i * p ↔ a < i := by
    rw [Nat.add_lt_add_iff_left]
    exact Nat.mul_lt_mul_right h.period_pos
  have hupTo : t0 + i * p ≤ t0 + b * p ↔ i ≤ b := by
    rw [Nat.add_le_add_iff_left]
    exact Nat.mul_le_mul_right_iff h.period_pos
  exact decide_eq_decide.mpr (and_congr hafter hupTo)

/-- The lines of a window are those of the endpoint. -/
theorem Closed.line {k : RateKey} {t0 p n i : ℕ} {w : RateWindow} (h : Closed k t0 p n i w)
    {line : RateKey × HidRateSlot} (hline : line ∈ w.lines) :
    line.2.winCount.toNat = windowCount k w.slots := by
  obtain ⟨hmem, -⟩ := List.mem_filter.mp hline
  have hslot := BoundedMap.mem_entries_iff.mp (List.mem_reverse.mp hmem)
  rw [h.only _ _ hslot] at hslot
  rw [windowCount, hslot]
  rfl

theorem Closed.exists_line {k : RateKey} {t0 p n i : ℕ} {w : RateWindow}
    (h : Closed k t0 p n i w) : ∃ line, line ∈ w.lines := by
  obtain ⟨a, b, hab, -, -, -, hcount⟩ := h.ends
  cases hslot : w.slots.lookup k with
  | none =>
    rw [windowCount, hslot] at hcount
    change 0 = b - a + opening i at hcount
    omega
  | some s =>
    have hs : s.winCount.toNat = b - a + opening i := by
      rw [windowCount, hslot] at hcount
      exact hcount
    refine ⟨(k, s), List.mem_filter.mpr ⟨?_, ?_⟩⟩
    · exact List.mem_reverse.mpr (BoundedMap.mem_entries_iff.mpr hslot)
    · apply decide_eq_true
      show s.winCount ≠ 0
      intro hzero
      rw [hzero, UInt64.toNat_zero] at hs
      omega

/-- **The lines of a periodic endpoint.**  In every run in which one endpoint reports at a fixed
period and no other is active, and for every interval, the lines of a window that is not the
last are exact if and only if another window came before it: the first window also counts
the report it opens with.
SOURCE: hid.c:302-335, 237-300 -/
theorem window_exact_iff {cfg : RateConfig} (hrate : cfg.rate = true) {k : RateKey} {t0 p : ℕ}
    {ops : List RateOp} (h : PeriodicRun k t0 p ops) {i : ℕ} {w : RateWindow}
    (hw : (windowsOf cfg ops)[i]? = some w) : WindowExact k p ops w ↔ i ≠ 0 := by
  have hclosed := (run_windowsHold hrate h).closed i w hw
  obtain ⟨a, b, hab, hb, hstart, hstop, hcount⟩ := hclosed.ends
  have hreports := h.length_reports (a := a) hb
  rw [← hstart, ← hstop] at hreports
  have hspan : w.stop.toNat - w.start.toNat = (b - a) * p := by
    rw [hstart, hstop, Nat.add_sub_add_left, Nat.sub_mul]
  constructor
  · rintro hexact rfl
    obtain ⟨line, hline⟩ := hclosed.exists_line
    have hsame := (hexact line hline).1
    rw [hclosed.line hline, hreports, hcount, opening, if_pos rfl] at hsame
    omega
  · intro hi line hline
    rw [hclosed.line hline, hreports, hcount, opening, if_neg hi, Nat.add_zero]
    exact ⟨rfl, hspan.symm⟩

/-- A mouse that reports every 50 ms, for two seconds. -/
def steadyRun : List RateOp :=
  (List.range 41).map fun i => mouseRecord (UInt64.ofNat (1000 + i * 50000000)) 0

theorem steadyRun_periodic : PeriodicRun ⟨1, 5, 1⟩ 1000 50000000 steadyRun := by
  have htimes : reportTimes ⟨1, 5, 1⟩ steadyRun =
      (List.range 41).map fun i => 1000 + i * 50000000 := by decide +kernel
  constructor
  · intro hmem
    obtain ⟨i, -, hstop⟩ := List.mem_map.mp hmem
    cases hstop
  · decide +kernel
  · decide
  · decide
  · intro i t ht
    rw [htimes, List.getElem?_map] at ht
    obtain ⟨j, hj, rfl⟩ := Option.map_eq_some_iff.mp ht
    obtain ⟨hi, rfl⟩ := List.getElem?_eq_some_iff.mp hj
    rw [List.getElem_range]

theorem window_exact_sample :
    ∃ w, (windowsOf secondWindows steadyRun)[1]? = some w ∧
      (WindowExact ⟨1, 5, 1⟩ 50000000 steadyRun w ↔ 1 ≠ 0) := by
  have hlen : 1 < (windowsOf secondWindows steadyRun).length := by decide +kernel
  have hw := List.getElem?_eq_getElem hlen
  exact ⟨_, hw, window_exact_iff rfl steadyRun_periodic hw⟩

/-- **The first window** of the mouse counts 21 reports in the time of 20. -/
theorem first_window_counts_more :
    PeriodicRun ⟨1, 5, 1⟩ 1000 50000000 steadyRun ∧
      (windowsOf secondWindows steadyRun).map (fun w => w.lines.map fun line =>
        (line.2.winCount, w.stop.toNat - w.start.toNat)) =
        [[(21, 20 * 50000000)], [(20, 20 * 50000000)]] ∧
      ¬∀ w ∈ windowsOf secondWindows steadyRun, WindowExact ⟨1, 5, 1⟩ 50000000 steadyRun w :=
  ⟨steadyRun_periodic, by decide +kernel, by decide +kernel⟩

end UsbTrace.Analysis

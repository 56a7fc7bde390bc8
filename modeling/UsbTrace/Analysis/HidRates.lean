import UsbTrace.Analysis.HidSessions
import UsbTrace.Interface.Doubles
import UsbTrace.Interface.RateRun
import UsbTrace.Library.Samples

/-!
# The numbers of the rate lines

What a slot holds of its intervals are running statistics (`slotSampled_rule`), the count and the
sum modulo 2⁶⁴, so that every rate line and every line of the summary has its average between its
extremes, and no gap in any of them (`hid_rates`).
-/

set_option autoImplicit false

namespace UsbTrace.Analysis

open UsbTrace.Model UsbTrace.Library UsbTrace.Interface

/-! ## Intervals -/

/-- The times of the successful reports. -/
def reportNs (es : List ClassUrbEvent) : List ℕ :=
  (es.filter fun e => e.status = 0).map fun e => e.hdr.tsNs.toNat

/-- The interval from a report to the next, unless the first has no time or it is a gap. -/
def meteredTo (b a : ℕ) : List ℕ := if a ≠ 0 ∧ a < b ∧ b - a ≤ 50000000 then [b - a] else []

/-- The intervals between reports that are measured. -/
def metered : List ℕ → List ℕ
  | a :: b :: l => meteredTo b a ++ metered (b :: l)
  | _ => []

theorem metered_concat (l : List ℕ) (b : ℕ) :
    metered (l ++ [b]) = metered l ++ meteredTo b (l.getLast?.getD 0) := by
  induction l with
  | nil => rfl
  | cons a l ih =>
    cases l with
    | nil => exact List.append_nil _
    | cons a' l =>
      show _ ++ metered (a' :: l ++ [b]) = (_ ++ metered (a' :: l)) ++ _
      rw [ih, List.append_assoc, List.getLast?_cons_cons]

theorem mem_metered {l : List ℕ} : ∀ v ∈ metered l, 0 < v ∧ v ≤ 50000000 := by
  induction l using List.reverseRecOn with
  | nil => exact fun v hv => absurd hv List.not_mem_nil
  | append_singleton l b ih =>
    rw [metered_concat]
    refine List.forall_mem_append.mpr ⟨ih, fun v hv => ?_⟩
    rw [meteredTo] at hv
    split at hv
    · rw [List.mem_singleton.mp hv]
      omega
    · cases hv

/-! ## Statistics -/

/-- The counters of a slot hold the statistics of some intervals. -/
structure Held (count sum : UInt64) (least most : UInt32) (vs : List ℕ) : Prop where
  count : count = UInt64.ofNat vs.length
  sum : sum = UInt64.ofNat vs.sum
  least : least.toNat = (Samples.ofList vs).least
  most : most.toNat = (Samples.ofList vs).most

def WindowHeld (s : HidRateSlot) (vs : List ℕ) : Prop :=
  Held s.winIvCount s.winSumIvNs s.winMinIvNs s.winMaxIvNs vs

def TotalHeld (s : HidRateSlot) (vs : List ℕ) : Prop :=
  Held s.totalIvCount s.totalSumIvNs s.totalMinIvNs s.totalMaxIvNs vs

/-- What a slot holds of the records of its endpoint: in total all intervals that are measured, in
the window the latest of them. -/
structure SlotSampled (s : HidRateSlot) (es : List ClassUrbEvent) : Prop where
  last : s.lastTsNs.toNat = (reportNs es).getLast?.getD 0
  window : ∃ vs, vs <:+ metered (reportNs es) ∧ WindowHeld s vs
  total : TotalHeld s (metered (reportNs es))

theorem held_nil : Held 0 0 0 0 [] := ⟨rfl, rfl, rfl, rfl⟩

/-- The updates of the extremes, in numbers. -/
theorem lowerMin_toNat (m : UInt32) {iv : UInt64} (hle : iv.toNat ≤ 50000000) :
    (lowerMin m iv).toNat = if m.toNat = 0 ∨ iv.toNat < m.toNat then iv.toNat else m.toNat := by
  have hiv : iv.toUInt32.toNat = iv.toNat := by
    rw [UInt64.toNat_toUInt32, Nat.mod_eq_of_lt (by omega)]
  have hzero : m = 0 ↔ m.toNat = 0 := UInt32.toNat_inj.symm
  rw [lowerMin, apply_ite UInt32.toNat, hiv]
  simp only [hzero, UInt64.lt_iff_toNat_lt, UInt32.toNat_toUInt64]

theorem raiseMax_toNat (m : UInt32) {iv : UInt64} (hle : iv.toNat ≤ 50000000) :
    (raiseMax m iv).toNat = if iv.toNat > m.toNat then iv.toNat else m.toNat := by
  have hiv : iv.toUInt32.toNat = iv.toNat := by
    rw [UInt64.toNat_toUInt32, Nat.mod_eq_of_lt (by omega)]
  rw [raiseMax, apply_ite UInt32.toNat, hiv]
  simp only [gt_iff_lt, UInt64.lt_iff_toNat_lt, UInt32.toNat_toUInt64]

/-- **One more interval.** -/
theorem Held.note {count sum : UInt64} {least most : UInt32} {vs : List ℕ}
    (h : Held count sum least most vs) (hpos : ∀ v ∈ vs, 0 < v) {iv : UInt64}
    (hle : iv.toNat ≤ 50000000) :
    Held (count + 1) (sum + iv) (lowerMin least iv) (raiseMax most iv) (vs ++ [iv.toNat]) where
  count := by
    rw [List.length_append, UInt64.ofNat_add, ← h.count]
    rfl
  sum := by rw [List.sum_append, List.sum_singleton, UInt64.ofNat_add, ← h.sum, UInt64.ofNat_toNat]
  least := by
    rw [Samples.ofList_concat hpos, lowerMin_toNat _ hle, h.least]
    rfl
  most := by
    rw [Samples.ofList_concat hpos, raiseMax_toNat _ hle, h.most]
    rfl

/-- **The interval before a report** is one more to measure, or a gap, or none. -/
theorem SlotSampled.interval {s : HidRateSlot} {es : List ClassUrbEvent} (h : SlotSampled s es)
    (ts : UInt64) :
    (∃ vs, vs <:+ metered (reportNs es ++ [ts.toNat]) ∧ WindowHeld (noteInterval s ts) vs) ∧
      TotalHeld (noteInterval s ts) (metered (reportNs es ++ [ts.toNat])) := by
  obtain ⟨vs, hsuffix, hwindow⟩ := h.window
  rw [metered_concat, ← h.last]
  rcases noteInterval_cases s ts with ⟨hnone, heq⟩ | ⟨hset, hlt, hsub, ⟨hgap, heq⟩ | ⟨hle, heq⟩⟩
  · have hsame : meteredTo ts.toNat s.lastTsNs.toNat = [] := by
      refine if_neg fun hm => ?_
      rcases hnone with hzero | hback
      · exact hm.1 (by rw [hzero]; rfl)
      · exact hm.2.1.not_ge (UInt64.le_iff_toNat_le.mp hback)
    rw [heq, hsame, List.append_nil]
    exact ⟨⟨vs, hsuffix, hwindow⟩, h.total⟩
  · have hsame : meteredTo ts.toNat s.lastTsNs.toNat = [] := if_neg fun hm => by omega
    rw [heq, hsame, List.append_nil]
    exact ⟨⟨vs, hsuffix, hwindow⟩, h.total⟩
  · have hmore : meteredTo ts.toNat s.lastTsNs.toNat = [(ts - s.lastTsNs).toNat] := by
      rw [hsub] at hle ⊢
      exact if_pos ⟨fun hzero => hset (UInt64.toNat_inj.mp hzero), hlt, hle⟩
    rw [heq, hmore]
    obtain ⟨old, hold⟩ := hsuffix
    refine ⟨⟨vs ++ [(ts - s.lastTsNs).toNat], ⟨old, by rw [← List.append_assoc, hold]⟩, ?_⟩, ?_⟩
    · refine hwindow.note (fun v hv => ?_) hle
      have hmem : v ∈ metered (reportNs es) := hold ▸ List.mem_append_right old hv
      exact (mem_metered v hmem).1
    · exact h.total.note (fun v hv => (mem_metered v hv).1) hle

/-- **A slot's statistics** are kept by records and flushes. -/
theorem slotSampled_rule : SlotRule SlotSampled where
  fresh _ := ⟨rfl, ⟨[], List.suffix_rfl, held_nil⟩, held_nil⟩
  note s es e h := by
    have hns : reportNs (es ++ [e]) =
        reportNs es ++ if e.status = 0 then [e.hdr.tsNs.toNat] else [] := by
      rw [reportNs, List.filter_append, List.map_append, List.filter_singleton]
      by_cases hstatus : e.status = 0
      · rw [decide_eq_true hstatus, if_pos hstatus]
        rfl
      · rw [decide_eq_false hstatus, if_neg hstatus]
        rfl
    rw [slotNote]
    by_cases hstatus : e.status = 0
    · obtain ⟨role, mouse, kbd, other, heq⟩ := slotNoteReport_eq s e.hdr.tsNs e.actualLength
      obtain ⟨hwindow, htotal⟩ := h.interval e.hdr.tsNs
      rw [if_pos hstatus] at hns
      rw [if_neg (not_not.mpr hstatus), heq]
      refine ⟨?_, ?_, ?_⟩
      · rw [hns, List.getLast?_concat]
        rfl
      · rw [hns]
        exact hwindow
      · rw [hns]
        exact htotal
    · rw [if_neg hstatus, List.append_nil] at hns
      rw [if_pos hstatus]
      exact ⟨hns ▸ h.last, hns ▸ h.window, hns ▸ h.total⟩
  clear s es h := ⟨h.last, ⟨[], List.nil_suffix, held_nil⟩, h.total⟩

/-! ## Numbers -/

/-- The numbers of a line: 0 without an interval; else the average lies between the extremes, as
long as the intervals together stay below 2⁵³ ns, and the greatest is no gap. -/
structure NumbersRight (vs : List ℕ) (n : RateNumbers) : Prop where
  none : vs = [] → n.avgUs = 0 ∧ n.minUs = 0 ∧ n.maxUs = 0
  order : vs ≠ [] → vs.sum < 2 ^ 53 → 0 < n.minUs ∧ n.minUs ≤ n.avgUs ∧ n.avgUs ≤ n.maxUs
  limit : n.maxUs ≤ 50000

/-- Microseconds keep the order. -/
theorem micros_mono {x y : ℚ} (hx : 0 ≤ x) (hxy : x ≤ y) :
    toDouble (x / 1000) ≤ toDouble (y / 1000) :=
  toDouble_mono (div_nonneg hx (by norm_num)) (div_le_div_of_nonneg_right hxy (by norm_num))

/-- Counts of intervals that are together below 2⁵³ ns do not wrap. -/
theorem Held.exact {count sum : UInt64} {least most : UInt32} {vs : List ℕ}
    (h : Held count sum least most vs) (hpos : ∀ v ∈ vs, 0 < v) (hsum : vs.sum < 2 ^ 53) :
    count.toNat = vs.length ∧ sum.toNat = vs.sum := by
  have hlen : vs.length ≤ vs.sum := List.length_le_sum_of_one_le vs hpos
  have hfits : vs.sum < UInt64.size := hsum.trans (by decide)
  rw [h.count, h.sum]
  exact ⟨UInt64.toNat_ofNat_of_lt' (hlen.trans_lt hfits), UInt64.toNat_ofNat_of_lt' hfits⟩

/-- **The numbers of a line**, from its statistics. -/
theorem numbersRight {count sum : UInt64} {least most : UInt32} {vs : List ℕ}
    (h : Held count sum least most vs) (hvs : ∀ v ∈ vs, 0 < v ∧ v ≤ 50000000) {n : RateNumbers}
    (havg : n.avgUs = avgUsOf sum.toNat count.toNat) (hmin : n.minUs = ivUs least)
    (hmax : n.maxUs = ivUs most) : NumbersRight vs n := by
  have hmost : (Samples.ofList vs).most ≤ 50000000 := by
    by_cases hne : vs = []
    · rw [hne]
      exact Nat.zero_le _
    · exact (hvs _ (Samples.most_mem hne)).2
  rw [ivUs, h.least] at hmin
  rw [ivUs, h.most] at hmax
  refine ⟨fun hnil => ?_, fun hne hsum => ?_, ?_⟩
  · have hzero : toDouble (((0 : ℕ) : ℚ) / 1000) = 0 := by
      rw [Nat.cast_zero, zero_div, toDouble_eq, roundTo_zero]
    rw [hnil] at hmin hmax
    rw [havg, hmin, hmax, h.count, hnil]
    exact ⟨rfl, hzero, hzero⟩
  · obtain ⟨hcount, htotal⟩ := h.exact (fun v hv => (hvs v hv).1) hsum
    have hcount' : vs.length ≠ 0 := fun hlen => hne (List.length_eq_zero_iff.mp hlen)
    have hpos : 0 < (Samples.ofList vs).least := (hvs _ (Samples.least_mem hne)).1
    have hmean := toDouble_mean hpos (Samples.count_mul_least_le vs) (Samples.sum_le_count_mul vs)
      (Nat.pos_of_ne_zero hcount') hsum (hmost.trans_lt (by norm_num))
    rw [havg, hmin, hmax, hcount, htotal, avgUsOf, if_pos hcount']
    refine ⟨toDouble_pos (div_pos (Nat.cast_pos.mpr hpos) (by norm_num)), ?_, ?_⟩
    · exact micros_mono (Nat.cast_nonneg _) hmean.1
    · exact micros_mono ((Nat.cast_nonneg _).trans hmean.1) hmean.2
  · have hbound : ((Samples.ofList vs).most : ℚ) ≤ 50000000 := by exact_mod_cast hmost
    have hnonneg : (0 : ℚ) ≤ (Samples.ofList vs).most := Nat.cast_nonneg _
    have hlimit := micros_mono hnonneg hbound
    have hexact : toDouble ((50000000 : ℚ) / 1000) = 50000 := by
      rw [show (50000000 : ℚ) / 1000 = ((50000 : ℕ) : ℚ) by norm_num,
        toDouble_natCast (by norm_num)]
      norm_num
    rw [hmax]
    exact hlimit.trans_eq hexact

/-- The rate of the summary: that of the average interval, which is none of a silence. -/
theorem totalNumbers_hz {s : HidRateSlot} {vs : List ℕ} (hne : vs ≠ []) (hsum : vs.sum < 2 ^ 53)
    (h : NumbersRight vs (totalNumbers s)) : 20 ≤ (totalNumbers s).hz := by
  obtain ⟨hmin, hlow, hhigh⟩ := h.order hne hsum
  have hpos : 0 < (totalNumbers s).avgUs := hmin.trans_le hlow
  have hhz : (totalNumbers s).hz = toDouble (10 ^ 6 / (totalNumbers s).avgUs) := if_pos hpos
  have hratio : ((20 : ℕ) : ℚ) ≤ 10 ^ 6 / (totalNumbers s).avgUs := by
    rw [le_div_iff₀ hpos]
    have := hhigh.trans h.limit
    push_cast
    linarith
  calc (20 : ℚ) = toDouble ((20 : ℕ) : ℚ) := (toDouble_natCast (by norm_num)).symm
    _ ≤ (totalNumbers s).hz := hhz ▸ toDouble_mono (Nat.cast_nonneg _) hratio

/-- **The rates of a session are in order**: in every line of every window the meter flushes,
for the latest measured intervals of its endpoint, and in every line of its summary, for all of
them, the average interval lies between the least and the greatest, none of which is longer than
the 50 ms of a gap; so that the rate of the summary is at least 20 Hz, where it is one.
SOURCE: hid.c:212-262, 302-371 -/
theorem hid_rates (cfg : RateConfig) (ops : List RateOp) :
    (∀ w ∈ windowsOf cfg ops, ∃ seen, seen <+: ops ∧ ∀ e ∈ w.lines,
      ∃ vs, vs <:+ metered (reportNs (recordsAt e.1 seen)) ∧ WindowHeld e.2 vs ∧
        NumbersRight vs (windowNumbers w.seconds e.2)) ∧
    ∀ k s, (meterAfter cfg ops).slots.lookup k = some s →
      NumbersRight (metered (reportNs (recordsAt k ops))) (totalNumbers s) ∧
        (metered (reportNs (recordsAt k ops)) ≠ [] →
          (metered (reportNs (recordsAt k ops))).sum < 2 ^ 53 → 20 ≤ (totalNumbers s).hz) := by
  constructor
  · intro w hw
    obtain ⟨seen, hseen, hslots⟩ := window_slots slotSampled_rule cfg ops hw
    refine ⟨seen, hseen, fun e he => ?_⟩
    have hentry : w.slots.lookup e.1 = some e.2 :=
      BoundedMap.mem_entries_iff.mp (List.mem_reverse.mp (List.mem_filter.mp he).1)
    obtain ⟨vs, hsuffix, hheld⟩ := (hslots e.1 e.2 hentry).window
    exact ⟨vs, hsuffix, hheld,
      numbersRight hheld (fun v hv => mem_metered v (hsuffix.subset hv)) rfl rfl rfl⟩
  · intro k s hs
    have hright : NumbersRight (metered (reportNs (recordsAt k ops))) (totalNumbers s) :=
      numbersRight (run_slots slotSampled_rule cfg ops hs).total mem_metered rfl rfl rfl
    exact ⟨hright, fun hne hsum => totalNumbers_hz hne hsum hright⟩

end UsbTrace.Analysis

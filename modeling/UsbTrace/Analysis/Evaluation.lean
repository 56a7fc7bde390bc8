import UsbTrace.Analysis.Lookback
import UsbTrace.Analysis.Matching
import UsbTrace.Library.Cluster
import UsbTrace.Library.Fold

/-!
# What one lookback condition returns

`eval_when` goes over the events of the window newest first.  An event the condition does
not count leaves every local alone, so the loop is a loop over the counted events
(`evalLoop_filter`).  Without `cluster_ms` each of them is counted and kept as evidence
(`evalWhen_window`).  With `cluster_ms` the count is that of the runs of their timestamps
in window order, which is that of the groups in time order only when the runs end at the
first events of the groups (`clusterCount_iff`).
-/

set_option autoImplicit false

namespace UsbTrace.Analysis

open UsbTrace.Model UsbTrace.Library

/-! ## The loop over the counted events -/

/-- What the loop does for an event the condition counts. -/
def noteCounted (clus : UInt64) (a : EvalAcc) (x : DiagEvent) : EvalAcc :=
  let take : Bool := clus = 0 || a.nclus = 0 || a.prevTs - x.tsNs > clus
  { cnt := a.cnt + 1
    oldest := if x.tsNs < a.oldest then x.tsNs else a.oldest
    newest := if x.tsNs > a.newest then x.tsNs else a.newest
    nclus := if clus = 0 then a.nclus else if take then a.nclus + 1 else a.nclus
    prevTs := if clus = 0 then a.prevTs else x.tsNs
    ev := if take && a.ev.length < maxEvidence then a.ev ++ [x] else a.ev }

theorem evalStep_eq (c : DiagCond) (refNs : UInt64) (a : EvalAcc) (x : DiagEvent) :
    evalStep c refNs a x =
      if counts c refNs x = true then noteCounted (clusterNs c) a x else a := by
  unfold evalStep counts
  cases inLookback c refNs x
  · rfl
  · cases condEventPred c x
    · rfl
    · simp only [Bool.not_true, Bool.false_eq_true, if_false, Bool.and_self, if_true, noteCounted]
      by_cases hclus : clusterNs c = 0
      · simp only [hclus, decide_true, Bool.true_or, Bool.true_and, if_true]
        split <;> rfl
      · simp only [hclus, decide_false, Bool.false_or, if_false]
        split <;> rfl

/-- **The loop is over the counted events.**
SOURCE: engine.c:496-522 -/
theorem evalLoop_filter (c : DiagCond) (refNs : UInt64) (xs : List DiagEvent) (a : EvalAcc) :
    xs.foldl (evalStep c refNs) a =
      (xs.filter (counts c refNs)).foldl (noteCounted (clusterNs c)) a := by
  rw [List.foldl_filter]
  congr 1
  funext a x
  exact evalStep_eq c refNs a x

@[simp] theorem noteCounted_cnt (clus : UInt64) (a : EvalAcc) (x : DiagEvent) :
    (noteCounted clus a x).cnt = a.cnt + 1 := rfl

/-- The count grows by one with every event. -/
theorem noteLoop_cnt (clus : UInt64) (xs : List DiagEvent) (a : EvalAcc) :
    (xs.foldl (noteCounted clus) a).cnt = a.cnt + xs.length := by
  induction xs generalizing a with
  | nil => simp
  | cons x xs ih =>
    rw [List.foldl_cons, ih, noteCounted_cnt, List.length_cons]
    push_cast
    omega

/-- The evidence list takes events until it is full. -/
theorem noteLoop_ev (xs : List DiagEvent) (a : EvalAcc) (ha : a.ev.length ≤ maxEvidence) :
    (xs.foldl (noteCounted 0) a).ev = a.ev ++ xs.take (maxEvidence - a.ev.length) := by
  induction xs generalizing a with
  | nil => simp
  | cons x xs ih =>
    by_cases hroom : a.ev.length < maxEvidence
    · have hev : (noteCounted 0 a x).ev = a.ev ++ [x] := by simp [noteCounted, hroom]
      have hleft : maxEvidence - a.ev.length = maxEvidence - (a.ev.length + 1) + 1 := by omega
      rw [List.foldl_cons, ih _ (by simp [hev]; omega), hev, List.length_append,
        List.length_singleton, hleft, List.take_succ_cons, List.append_assoc,
        List.singleton_append]
    · have hev : (noteCounted 0 a x).ev = a.ev := by simp [noteCounted, hroom]
      have hfull : maxEvidence - a.ev.length = 0 := by omega
      rw [List.foldl_cons, ih _ (by rw [hev]; exact ha), hev, hfull, List.take_zero,
        List.take_zero]

/-- `oldest` ends at the least timestamp, where an event has been seen. -/
theorem noteLoop_oldest (clus : UInt64) (xs : List DiagEvent) (a : EvalAcc) :
    let b := xs.foldl (noteCounted clus) a
    b.oldest ≤ a.oldest ∧ (∀ x ∈ xs, b.oldest ≤ x.tsNs) ∧
      (b.oldest = a.oldest ∨ ∃ x ∈ xs, b.oldest = x.tsNs) := by
  intro b
  have hb : xs.foldl (fun o x => if x.tsNs < o then x.tsNs else o) a.oldest = b.oldest :=
    List.foldl_hom EvalAcc.oldest fun _ _ => rfl
  have h := foldl_extreme (fun s t : UInt64 => s < t) (fun _ => UInt64.lt_irrefl _)
    (fun _ _ _ h₁ h₂ => UInt64.not_lt.mpr (UInt64.le_trans (UInt64.not_lt.mp h₁)
      (UInt64.not_lt.mp h₂))) (fun _ _ => UInt64.lt_asymm) DiagEvent.tsNs xs a.oldest
  rw [hb] at h
  simpa only [UInt64.not_lt] using h

/-- `newest` ends at the greatest timestamp, where an event has been seen. -/
theorem noteLoop_newest (clus : UInt64) (xs : List DiagEvent) (a : EvalAcc) :
    let b := xs.foldl (noteCounted clus) a
    a.newest ≤ b.newest ∧ (∀ x ∈ xs, x.tsNs ≤ b.newest) ∧
      (b.newest = a.newest ∨ ∃ x ∈ xs, b.newest = x.tsNs) := by
  intro b
  have hb : xs.foldl (fun n x => if x.tsNs > n then x.tsNs else n) a.newest = b.newest :=
    List.foldl_hom EvalAcc.newest fun _ _ => rfl
  have h := foldl_extreme (fun s t : UInt64 => s > t) (fun _ => UInt64.lt_irrefl _)
    (fun _ _ _ h₁ h₂ => UInt64.not_lt.mpr (UInt64.le_trans (UInt64.not_lt.mp h₂)
      (UInt64.not_lt.mp h₁))) (fun _ _ => UInt64.lt_asymm) DiagEvent.tsNs xs a.newest
  rw [hb] at h
  simpa only [gt_iff_lt, UInt64.not_lt] using h

/-! ## Conditions without clusters -/

/-- What a condition asks of an event, seen from a reference time: not newer, at most
`within_ms` older, of its kind, within every match constraint, with one of its statuses.
SOURCE: docs/diag.md:93-103 -/
def Relevant (c : DiagCond) (refNs : UInt64) (x : DiagEvent) : Prop :=
  x.tsNs.toNat ≤ refNs.toNat ∧
    (∀ ms ∈ c.withinMs, (refNs.toNat : ℤ) - x.tsNs.toNat ≤ ms * 1000000) ∧
    (c.kind = none ∨ c.kind = some x.kind) ∧
    (∀ m ∈ c.matchList, Compares m.op (evField x m.field) m.value) ∧
    (c.statusIn = [] ∨ x.status.toInt ∈ c.statusIn)

instance (c : DiagCond) (refNs : UInt64) : DecidablePred (Relevant c refNs) := fun _ =>
  inferInstanceAs (Decidable (_ ∧ _ ∧ _ ∧ _ ∧ _))

/-- A number of milliseconds that is not negative and whose nanoseconds fit 64 bits. -/
def MsFits (ms : ℤ) : Prop := 0 ≤ ms ∧ ms * 1000000 < 2 ^ 64

theorem msToNs_of_fits {ms : ℤ} (h : MsFits ms) : ((msToNs ms).toNat : ℤ) = ms * 1000000 := by
  obtain ⟨hpos, hlt⟩ := h
  rw [msToNs_toNat_emod]
  exact Int.emod_eq_of_lt (by omega) hlt

/-- The predicate on single events, spelt out. -/
theorem condEventPred_iff (c : DiagCond) (x : DiagEvent) :
    condEventPred c x = true ↔
      (c.kind = none ∨ c.kind = some x.kind) ∧
        (∀ m ∈ c.matchList, Compares m.op (evField x m.field) m.value) ∧
        (c.statusIn = [] ∨ x.status.toInt ∈ c.statusIn) := by
  have hkind : kindOk c x = true ↔ c.kind = none ∨ c.kind = some x.kind := by
    unfold kindOk
    cases c.kind <;> simp [eq_comm]
  have hmatch : matchFields c x = true ↔
      ∀ m ∈ c.matchList, Compares m.op (evField x m.field) m.value := by
    simp only [matchFields, List.all_eq_true, evFieldVal_eq, matchOne_compares]
  have hstatus : statusOk c x = true ↔ c.statusIn = [] ∨ x.status.toInt ∈ c.statusIn := by
    unfold statusOk
    by_cases hnil : c.statusIn = []
    · simp [hnil]
    · simp [hnil]
  rw [← hkind, ← hmatch, ← hstatus]
  unfold condEventPred
  cases kindOk c x <;> cases matchFields c x <;> cases statusOk c x <;> simp

/-- The timestamp tests, when `within_ms` fits. -/
theorem inLookback_iff {c : DiagCond} (hwithin : ∀ ms ∈ c.withinMs, MsFits ms) (refNs : UInt64)
    (x : DiagEvent) :
    inLookback c refNs x = true ↔ x.tsNs.toNat ≤ refNs.toNat ∧
      ∀ ms ∈ c.withinMs, (refNs.toNat : ℤ) - x.tsNs.toNat ≤ ms * 1000000 := by
  unfold inLookback
  by_cases hgt : x.tsNs > refNs
  · have hnat := UInt64.lt_iff_toNat_lt.mp hgt
    rw [if_pos hgt]
    exact iff_of_false (by simp) fun h => by omega
  · have hle : x.tsNs ≤ refNs := UInt64.not_lt.mp hgt
    have hnat := UInt64.le_iff_toNat_le.mp hle
    rw [if_neg hgt]
    cases hms : c.withinMs with
    | none => simp [hnat]
    | some ms =>
      have hns := msToNs_of_fits (hwithin ms hms)
      simp only [Option.mem_some_iff, forall_eq', hnat, true_and, Bool.not_eq_true',
        decide_eq_false_iff_not, gt_iff_lt, UInt64.lt_iff_toNat_lt,
        UInt64.toNat_sub_of_le _ _ hle]
      omega

/-- **The loop counts the relevant events.** -/
theorem counts_iff {c : DiagCond} (hwithin : ∀ ms ∈ c.withinMs, MsFits ms) (refNs : UInt64)
    (x : DiagEvent) : counts c refNs x = true ↔ Relevant c refNs x := by
  rw [counts, Bool.and_eq_true, inLookback_iff hwithin, condEventPred_iff, Relevant, and_assoc]

/-- The events a condition finds after the pushes: the relevant ones of the last 1024, in
reverse push order. -/
def foundEvents (c : DiagCond) (refNs : UInt64) (pushes : List DiagEvent) : List DiagEvent :=
  (pushes.reverse.take winMaxEvents).filter (Relevant c refNs)

/-- A condition's demand on the span of the events it found: at least two, the newest at
least `min_span_ms` after the oldest. -/
def SpanOk (c : DiagCond) (found : List DiagEvent) : Prop :=
  ∀ ms ∈ c.minSpanMs, 2 ≤ found.length ∧
    ∃ newest ∈ found, ∃ oldest ∈ found,
      (∀ x ∈ found, oldest.tsNs.toNat ≤ x.tsNs.toNat ∧ x.tsNs.toNat ≤ newest.tsNs.toNat) ∧
        ms * 1000000 ≤ (newest.tsNs.toNat : ℤ) - oldest.tsNs.toNat

instance (c : DiagCond) (found : List DiagEvent) : Decidable (SpanOk c found) :=
  inferInstanceAs (Decidable (∀ ms ∈ c.minSpanMs, _ ∧ _))

/-- A window that has only been pushed to is bounded and holds the last 1024 events. -/
theorem pushes_winEvents (k : DiagDevkey) (pushes : List DiagEvent) :
    RingBounded (pushes.foldl winPush (freshWin k)) ∧
      winEvents (pushes.foldl winPush (freshWin k)) = pushes.reverse.take winMaxEvents := by
  induction pushes using List.reverseRecOn with
  | nil =>
    have hempty : RingBounded (freshWin k) := RingBuffer.bounded_empty _ (by decide)
    exact ⟨hempty, rfl⟩
  | append_singleton pushes x ih =>
    obtain ⟨hbounded, hevents⟩ := ih
    rw [List.foldl_append, List.foldl_cons, List.foldl_nil, List.reverse_append,
      List.reverse_singleton, List.singleton_append]
    refine ⟨?_, ?_⟩
    · unfold RingBounded
      rw [ringOf_winPush]
      exact hbounded.push x
    · have htake : ∀ l : List DiagEvent,
          (x :: l.take winMaxEvents).take winMaxEvents = (x :: l).take winMaxEvents := by
        intro l
        simp [winMaxEvents, List.take_take]
      rw [winEvents_winPush hbounded, hevents, htake]

/-- The two extremes of a loop over events are the timestamps of two of them. -/
theorem noteLoop_extremes (clus : UInt64) (ev : List DiagEvent) {found : List DiagEvent}
    (h : found ≠ []) :
    let b := found.foldl (noteCounted clus) { ev := ev }
    ∃ newest ∈ found, ∃ oldest ∈ found, b.newest = newest.tsNs ∧ b.oldest = oldest.tsNs ∧
      ∀ x ∈ found, oldest.tsNs.toNat ≤ x.tsNs.toNat ∧ x.tsNs.toNat ≤ newest.tsNs.toNat := by
  intro b
  obtain ⟨-, hlo, hlo'⟩ := noteLoop_oldest clus found { ev := ev }
  obtain ⟨-, hhi, hhi'⟩ := noteLoop_newest clus found { ev := ev }
  obtain ⟨y, hy⟩ := List.exists_mem_of_ne_nil found h
  -- the values the locals start with are only kept where an event has them too
  have hold : ∃ x ∈ found, b.oldest = x.tsNs := by
    rcases hlo' with heq | hmem
    · refine ⟨y, hy, UInt64.le_antisymm (hlo y hy) ?_⟩
      have hmax := y.tsNs.toNat_lt
      rw [UInt64.le_iff_toNat_le, heq]
      simpa using Nat.le_pred_of_lt hmax
    · exact hmem
  have hnew : ∃ x ∈ found, b.newest = x.tsNs := by
    rcases hhi' with heq | hmem
    · refine ⟨y, hy, UInt64.le_antisymm ?_ (hhi y hy)⟩
      rw [UInt64.le_iff_toNat_le, heq]
      exact Nat.zero_le _
    · exact hmem
  obtain ⟨oldest, hold, heqold⟩ := hold
  obtain ⟨newest, hnew, heqnew⟩ := hnew
  refine ⟨newest, hnew, oldest, hold, heqnew, heqold, fun x hx => ⟨?_, ?_⟩⟩
  · rw [← heqold]
    exact UInt64.le_iff_toNat_le.mp (hlo x hx)
  · rw [← heqnew]
    exact UInt64.le_iff_toNat_le.mp (hhi x hx)

/-- The span test of the code, on the events found. -/
theorem spanTest_iff {c : DiagCond} {ms : ℤ} (hc : c.minSpanMs = some ms) (hms : MsFits ms)
    (clus : UInt64) (ev found : List DiagEvent) :
    (decide ((found.length : ℤ) < 2) ||
        decide ((found.foldl (noteCounted clus) { ev := ev }).newest -
          (found.foldl (noteCounted clus) { ev := ev }).oldest < msToNs ms)) = true ↔
      ¬SpanOk c found := by
  simp only [SpanOk, hc, Option.mem_some_iff, forall_eq', Bool.or_eq_true, decide_eq_true_eq]
  by_cases h2 : found.length < 2
  · exact iff_of_true (Or.inl (by omega)) fun h => by omega
  obtain ⟨newest, hnew, oldest, hold, heqnew, heqold, hall⟩ :=
    noteLoop_extremes clus ev (List.ne_nil_of_length_pos (l := found) (by omega))
  have hns := msToNs_of_fits hms
  have hle := (hall newest hnew).1
  rw [heqnew, heqold, UInt64.lt_iff_toNat_lt,
    UInt64.toNat_sub_of_le _ _ (UInt64.le_iff_toNat_le.mpr hle)]
  constructor
  · rintro hshort ⟨-, newest', hnew', oldest', hold', -, hspan⟩
    have hn := (hall newest' hnew').2
    have ho := (hall oldest' hold').1
    omega
  · intro hspan
    by_contra hlong
    exact hspan ⟨by omega, newest, hnew, oldest, hold, hall, by omega⟩

/-- **What a condition without `cluster_ms` returns** for a window after any pushes: the
number of relevant events among the last 1024, the first of which join the evidence while
it has room; or 0 and no evidence, where `min_span_ms` rejects them.
SOURCE: engine.c:485-533, docs/diag.md:93-103 -/
theorem evalWhen_window (k : DiagDevkey) (pushes : List DiagEvent) (c : DiagCond)
    (refNs : UInt64) (ev : List DiagEvent) (hclus : c.clusterMs = none)
    (hwithin : ∀ ms ∈ c.withinMs, MsFits ms) (hspan : ∀ ms ∈ c.minSpanMs, MsFits ms)
    (hev : ev.length ≤ maxEvidence) :
    evalWhen (pushes.foldl winPush (freshWin k)) c refNs ev =
      if SpanOk c (foundEvents c refNs pushes) then
        (((foundEvents c refNs pushes).length : ℤ),
          ev ++ (foundEvents c refNs pushes).take
            (min (maxEvidence - ev.length) (foundEvents c refNs pushes).length))
      else (0, ev) := by
  have hclus : clusterNs c = 0 := by simp [clusterNs, hclus]
  have hfound : (winEvents (pushes.foldl winPush (freshWin k))).filter (counts c refNs) =
      foundEvents c refNs pushes := by
    rw [(pushes_winEvents k pushes).2, foundEvents]
    refine List.filter_congr fun x _ => ?_
    rw [Bool.eq_iff_iff, counts_iff hwithin, decide_eq_true_iff]
  have hcnt := noteLoop_cnt 0 (foundEvents c refNs pushes) { ev := ev }
  have hevidence := noteLoop_ev (foundEvents c refNs pushes) { ev := ev } hev
  simp only [evalWhen, evalLoop_filter, hfound, hclus, ne_eq, not_true_eq_false, if_false]
  rw [hcnt, hevidence, ← List.take_eq_take_min]
  generalize foundEvents c refNs pushes = found
  simp only [Int.zero_add, List.take_left']
  cases hms : c.minSpanMs with
  | none => exact (if_pos fun ms hms' => absurd hms' (by simp [hms])).symm
  | some ms =>
    simp only [spanTest_iff hms (hspan ms hms) 0 ev found, ite_not]

/-- Two errors of endpoint 2 ten milliseconds apart pass a span of five milliseconds, and join
the one event that is evidence already; an error of another endpoint is not counted. -/
theorem evalWhen_window_sample :
    evalWhen (([{ tsNs := 10000000, status := -71, ep := 2 }, { tsNs := 15000000, ep := 2 },
        { tsNs := 18000000, status := -71 },
        { tsNs := 20000000, status := -71, ep := 2 }] : List DiagEvent).foldl
          winPush (freshWin {}))
      { statusIn := [-71], matchList := [⟨.ep, 2, .eq⟩], withinMs := some 100,
        minSpanMs := some 5 } 30000000 [{}] =
        (2, [{}, { tsNs := 20000000, status := -71, ep := 2 },
          { tsNs := 10000000, status := -71, ep := 2 }]) :=
  (evalWhen_window {} _
    { statusIn := [-71], matchList := [⟨.ep, 2, .eq⟩], withinMs := some 100, minSpanMs := some 5 }
    _ _ rfl (by simp [MsFits]) (by simp [MsFits]) (by decide)).trans (by decide)

/-! ## Conditions with clusters -/

/-- The timestamps of the events a condition counts, in window order. -/
def countedTimes (w : Devwin) (c : DiagCond) (refNs : UInt64) : List ℕ :=
  ((winEvents w).filter (counts c refNs)).map fun x => x.tsNs.toNat

/-- One event of the loop ends a run, or goes on with it, while its timestamp and the gap
together fit the clock. -/
theorem noteCounted_nclus {clus : UInt64} (hclus : clus ≠ 0) {a : EvalAcc} (ha : a.nclus ≠ 0)
    {x : DiagEvent} (hx : x.tsNs.toNat + clus.toNat < 2 ^ 64) :
    (noteCounted clus a x).nclus = a.nclus +
      if x.tsNs.toNat ≤ a.prevTs.toNat ∧ a.prevTs.toNat - x.tsNs.toNat ≤ clus.toNat then 0
      else 1 := by
  have htake : a.prevTs - x.tsNs > clus ↔
      ¬(x.tsNs.toNat ≤ a.prevTs.toNat ∧ a.prevTs.toNat - x.tsNs.toNat ≤ clus.toNat) := by
    rw [gt_iff_lt, UInt64.lt_iff_toNat_lt, UInt64.toNat_sub]
    have hprev := a.prevTs.toNat_lt
    omega
  by_cases hrun : x.tsNs.toNat ≤ a.prevTs.toNat ∧ a.prevTs.toNat - x.tsNs.toNat ≤ clus.toNat
  · have hstay : ¬(a.prevTs - x.tsNs > clus) := fun h => htake.mp h hrun
    simp [noteCounted, hclus, ha, hrun, UInt64.not_lt.mp hstay]
  · have hcut : a.prevTs - x.tsNs > clus := htake.mpr hrun
    simp only [noteCounted, hclus, ha, hcut, if_neg hrun, decide_true, Bool.or_true, if_true,
      if_false]

/-- The clusters counted from an event on are the runs from its timestamp on. -/
theorem noteLoop_nclus {clus : UInt64} (hclus : clus ≠ 0) (xs : List DiagEvent)
    (hxs : ∀ x ∈ xs, x.tsNs.toNat + clus.toNat < 2 ^ 64) (a : EvalAcc) (ha : 0 < a.nclus) :
    (xs.foldl (noteCounted clus) a).nclus + 1 =
      a.nclus + (runEnds clus.toNat (a.prevTs.toNat :: xs.map fun x => x.tsNs.toNat)).length := by
  induction xs generalizing a with
  | nil => simp [runEnds]
  | cons x xs ih =>
    have hstep := noteCounted_nclus hclus (by omega) (hxs x List.mem_cons_self) (a := a)
    have hprev : (noteCounted clus a x).prevTs = x.tsNs := by simp [noteCounted, hclus]
    rw [List.foldl_cons, ih (fun y hy => hxs y (List.mem_cons_of_mem x hy)) _
      (by rw [hstep]; split <;> omega), hprev, hstep, List.map_cons, runEnds]
    split
    · omega
    · rw [List.length_cons]
      push_cast
      omega

/-- **The count of a condition with `cluster_ms`** is that of the runs of the timestamps in
window order.
SOURCE: engine.c:514-524 -/
theorem evalWhen_runs {c : DiagCond} {ms : ℤ} (hc : c.clusterMs = some ms) (hms : 0 < ms)
    (hspan : c.minSpanMs = none) (w : Devwin) (refNs : UInt64) (ev : List DiagEvent)
    (hclock : refNs.toNat + (ms * 1000000).toNat < 2 ^ 64) :
    (evalWhen w c refNs ev).1 =
      (runEnds (ms * 1000000).toNat (countedTimes w c refNs)).length := by
  have hns : (clusterNs c).toNat = (ms * 1000000).toNat := by
    have := msToNs_of_fits (show MsFits ms from ⟨by omega, by omega⟩)
    rw [clusterNs, hc]
    show (if ms > 0 then msToNs ms else 0).toNat = _
    rw [if_pos hms]
    omega
  have hclus : clusterNs c ≠ 0 := by
    intro hzero
    rw [hzero] at hns
    have : (0 : UInt64).toNat = 0 := rfl
    omega
  have hle : ∀ x ∈ (winEvents w).filter (counts c refNs),
      x.tsNs.toNat + (clusterNs c).toNat < 2 ^ 64 := by
    intro x hx
    have hcounts := (List.mem_filter.mp hx).2
    have hlook := (Bool.and_eq_true_iff.mp hcounts).1
    have hnot : ¬x.tsNs > refNs := by
      intro hgt
      simp [inLookback, hgt] at hlook
    have := UInt64.le_iff_toNat_le.mp (UInt64.not_lt.mp hnot)
    omega
  simp only [evalWhen, hspan, evalLoop_filter, hclus, ne_eq, not_false_eq_true, if_true,
    countedTimes, ← hns]
  generalize (winEvents w).filter (counts c refNs) = xs at hle ⊢
  cases xs with
  | nil => rfl
  | cons x xs =>
    have hfirst : (noteCounted (clusterNs c) { ev := ev } x).nclus = 1 ∧
        (noteCounted (clusterNs c) { ev := ev } x).prevTs = x.tsNs := by
      simp [noteCounted, hclus]
    have hrest := noteLoop_nclus hclus xs (fun y hy => hle y (List.mem_cons_of_mem x hy))
      (noteCounted (clusterNs c) { ev := ev } x) (by rw [hfirst.1]; omega)
    rw [hfirst.1, hfirst.2] at hrest
    rw [List.foldl_cons, List.map_cons]
    omega

/-- **Runs are not groups**: while the clock and the gap fit 64 bits, a condition with
`cluster_ms` counts the groups of events closer than that exactly when the runs of the
window end at distinct timestamps that are first of their group.
SOURCE: engine.h:103-106, docs/diag.md:102-103 -/
theorem clusterCount_iff (w : Devwin) (c : DiagCond) (ms : ℤ) (refNs : UInt64)
    (ev : List DiagEvent) (hc : c.clusterMs = some ms) (hms : 0 < ms)
    (hspan : c.minSpanMs = none) (hclock : refNs.toNat + (ms * 1000000).toNat < 2 ^ 64) :
    (evalWhen w c refNs ev).1 = groupCount (ms * 1000000).toNat (countedTimes w c refNs) ↔
      (runEnds (ms * 1000000).toNat (countedTimes w c refNs)).Nodup ∧
        ∀ t ∈ runEnds (ms * 1000000).toNat (countedTimes w c refNs),
          FirstOfGroup (ms * 1000000).toNat (countedTimes w c refNs) t := by
  rw [evalWhen_runs hc hms hspan w refNs ev hclock, Int.natCast_inj]
  exact runs_eq_groupCount_iff _

/-- The window of a device after two errors one millisecond apart arrived in the order of
`first` and `second`. -/
def stormWindow (first second : UInt64) : Devwin :=
  [{ tsNs := first, status := -71 }, { tsNs := second, status := -71 }].foldl winPush
    (freshWin {})

/-- Counts errors less than ten milliseconds apart as one. -/
def stormCond : DiagCond := { statusIn := [-71], clusterMs := some 10 }

/-- In order the two errors end one run, at the first of them. -/
theorem clusterCount_sample :
    (evalWhen (stormWindow 1000000 2000000) stormCond 3000000 []).1 =
      groupCount 10000000 (countedTimes (stormWindow 1000000 2000000) stormCond 3000000) :=
  (clusterCount_iff (stormWindow 1000000 2000000) stormCond 10 3000000 [] rfl (by decide) rfl
    (by decide)).mpr (by decide)

/-- **The order of arrival matters**: the same two errors are one episode when they arrive
in order, and two when they do not. -/
theorem clusterCount_order_matters :
    (winEvents (stormWindow 1000000 2000000)).Perm (winEvents (stormWindow 2000000 1000000)) ∧
      (evalWhen (stormWindow 1000000 2000000) stormCond 3000000 []).1 = 1 ∧
      (evalWhen (stormWindow 2000000 1000000) stormCond 3000000 []).1 = 2 ∧
      groupCount 10000000 (countedTimes (stormWindow 2000000 1000000) stormCond 3000000) = 1 := by
  refine ⟨?_, by decide, by decide, by decide⟩
  exact List.Perm.swap _ _ []

/-- Events that arrived in the order of their timestamps are counted by groups. -/
theorem clusterCount_inOrder {c : DiagCond} {ms : ℤ} (hc : c.clusterMs = some ms) (hms : 0 < ms)
    (hspan : c.minSpanMs = none) {w : Devwin} {refNs : UInt64} (ev : List DiagEvent)
    (hclock : refNs.toNat + (ms * 1000000).toNat < 2 ^ 64)
    (horder : (countedTimes w c refNs).Pairwise (· ≥ ·)) :
    (evalWhen w c refNs ev).1 =
      groupCount (ms * 1000000).toNat (countedTimes w c refNs) := by
  rw [evalWhen_runs hc hms hspan w refNs ev hclock, runs_eq_groupCount horder]

end UsbTrace.Analysis

import UsbTrace.Analysis.Lookback
import UsbTrace.Interface.Device
import Mathlib.Algebra.BigOperators.Group.Finset.Basic

/-!
# The cooldown of event rules

The stamp of a rule in a device's window is the clock reading of the rule's last finding
there (`engineAfter_stamps`), so the check against it is a statement about the findings
themselves: a rule an event satisfies is reported unless it was reported less than 2 s ago.
The counters of the summary are the numbers of findings, as `unsigned long`.
-/

set_option autoImplicit false

namespace UsbTrace.Analysis

open UsbTrace.Model UsbTrace.Library UsbTrace.Interface

/-- The clock is positive and does not go back from one ingest to a later one. -/
def ClockRuns (ops : List EngineOp) : Prop :=
  (∀ evt clock, EngineOp.ingest evt clock ∈ ops → ∀ i, clock i ≠ 0) ∧
    ∀ pre evt clock, pre ++ [EngineOp.ingest evt clock] <+: ops →
      ∀ evt' clock', EngineOp.ingest evt' clock' ∈ pre → ∀ i j, clock' i ≤ clock j

/-- What one ingest adds to the log of device `k`: the rules reported, each with the clock
reading it was reported at.  The log begins anew with the device's window. -/
def firesStep (k : DiagDevkey) (e : DiagEngine) (log : List (ℕ × UInt64)) :
    EngineOp → List (ℕ × UInt64)
  | .ingest evt clock =>
    if diagEventKey evt = k then
      (if (devLookup e.devs k).isSome then log else []) ++
        (diagEngineIngest e evt clock).2.map fun f => (f.ridx, clock f.ridx)
    else log
  | .tick _ => log

/-- The event-rule findings of device `k` since its window was created. -/
def firesAfter (rules : List DiagRule) (k : DiagDevkey) (ops : List EngineOp) :
    List (ℕ × UInt64) :=
  history engineStep (firesStep k) (diagEngineCreate rules) [] ops

/-- The times rule `ri` was reported for the present window of device `k`. -/
def fireTimes (rules : List DiagRule) (k : DiagDevkey) (ri : ℕ) (ops : List EngineOp) :
    List UInt64 :=
  if (devLookup (engineAfter rules ops).devs k).isSome then
    ((firesAfter rules k ops).filter fun p => p.1 = ri).map Prod.snd
  else []

/-- The window an ingest of an event of device `k` evaluates the rules on. -/
def notedWin (e : DiagEngine) (k : DiagDevkey) (evt : DiagEvent) : Devwin :=
  noteEvent ((devLookup e.devs k).getD (freshWin k)) evt

/-! ## The log of a device's findings -/

/-- An ingest of the device's event logs the rules it reports. -/
theorem fireTimes_ingest (rules : List DiagRule) {k : DiagDevkey} (ri : ℕ)
    (ops : List EngineOp) {evt : DiagEvent} (hk : diagEventKey evt = k) (clock : ℕ → UInt64) :
    fireTimes rules k ri (ops ++ [.ingest evt clock]) = fireTimes rules k ri ops ++
      (if ri ∈ (diagEngineIngest (engineAfter rules ops) evt clock).2.map Finding.ridx then
        [clock ri] else []) := by
  subst hk
  have hsome : (devLookup (engineAfter rules (ops ++ [.ingest evt clock])).devs
      (diagEventKey evt)).isSome := by
    rw [engineAfter_concat, engineStep_lookup_own (engineAfter_keysUnique rules ops)]
    rfl
  have hlog : firesAfter rules (diagEventKey evt) (ops ++ [.ingest evt clock]) =
      (if (devLookup (engineAfter rules ops).devs (diagEventKey evt)).isSome then
        firesAfter rules (diagEventKey evt) ops else []) ++
        (diagEngineIngest (engineAfter rules ops) evt clock).2.map
          fun f => (f.ridx, clock f.ridx) := by
    rw [firesAfter, history_concat]
    exact if_pos rfl
  -- the rules reported are distinct, so rule `ri` is logged at most once
  have hnew : (((diagEngineIngest (engineAfter rules ops) evt clock).2.map
        fun f => (f.ridx, clock f.ridx)).filter fun p => p.1 = ri).map Prod.snd =
      if ri ∈ (diagEngineIngest (engineAfter rules ops) evt clock).2.map Finding.ridx then
        [clock ri] else [] := by
    have hnd : ((diagEngineIngest (engineAfter rules ops) evt clock).2.map
        Finding.ridx).Nodup := by
      rw [diagEngineIngest_snd]
      exact ingestWin_ridx_nodup ..
    have hmap : (((diagEngineIngest (engineAfter rules ops) evt clock).2.map
          fun f => (f.ridx, clock f.ridx)).filter fun p => p.1 = ri).map Prod.snd =
        (((diagEngineIngest (engineAfter rules ops) evt clock).2.map Finding.ridx).filter
          (· = ri)).map clock := by
      simp only [List.filter_map, List.map_map]
      rfl
    rw [hmap, List.filter_eq, hnd.count]
    split <;> rfl
  rw [fireTimes, if_pos hsome, hlog, List.filter_append, List.map_append, hnew, fireTimes]
  split <;> rfl

/-- Other operations leave the log, or end it with the window. -/
theorem fireTimes_other (rules : List DiagRule) {k : DiagDevkey} (ri : ℕ)
    (ops : List EngineOp) {op : EngineOp}
    (hop : ∀ evt clock, op = .ingest evt clock → diagEventKey evt ≠ k) :
    fireTimes rules k ri (ops ++ [op]) =
      if (devLookup (engineAfter rules (ops ++ [op])).devs k).isSome then
        fireTimes rules k ri ops else [] := by
  have hlog : firesAfter rules k (ops ++ [op]) = firesAfter rules k ops := by
    rw [firesAfter, history_concat]
    cases op with
    | ingest evt clock => exact if_neg (hop evt clock rfl)
    | tick nowNs => rfl
  unfold fireTimes
  split
  · next hsome =>
    rw [engineAfter_concat] at hsome
    rw [if_pos (engineStep_lookup_isSome (engineAfter_keysUnique rules ops) hop hsome), hlog]
  · rfl

/-- Every logged time is a clock reading of the run. -/
theorem fireTimes_mem (rules : List DiagRule) (k : DiagDevkey) (ri : ℕ) (ops : List EngineOp) :
    ∀ t ∈ fireTimes rules k ri ops, ∃ evt clock, EngineOp.ingest evt clock ∈ ops ∧
      t = clock ri := by
  induction ops using List.reverseRecOn with
  | nil => simp [fireTimes, firesAfter, history]
  | append_singleton ops op ih =>
    have hold : ∀ t ∈ fireTimes rules k ri ops, ∃ evt clock,
        EngineOp.ingest evt clock ∈ ops ++ [op] ∧ t = clock ri := by
      intro t ht
      obtain ⟨evt, clock, hmem, hclock⟩ := ih t ht
      exact ⟨evt, clock, List.mem_append_left _ hmem, hclock⟩
    intro t ht
    by_cases hop : ∃ evt clock, op = .ingest evt clock ∧ diagEventKey evt = k
    · obtain ⟨evt, clock, rfl, hk⟩ := hop
      rw [fireTimes_ingest rules ri ops hk clock] at ht
      rcases List.mem_append.mp ht with ht | ht
      · exact hold t ht
      · split at ht
        · exact ⟨evt, clock, by simp, by simpa using ht⟩
        · cases ht
    · rw [fireTimes_other rules ri ops (fun evt clock h hk => hop ⟨evt, clock, h, hk⟩)] at ht
      split at ht
      · exact hold t ht
      · cases ht

/-! ## The cooldown check -/

/-- Times at least 2 s apart, in order. -/
def Spaced (ts : List UInt64) : Prop :=
  ts.Pairwise fun t t' => t.toNat + 2000000000 ≤ t'.toNat

/-- **The check against the last time is a check against all of them.**
SOURCE: engine.c:535-542 -/
theorem cooldown_iff {ts : List UInt64} (hsp : Spaced ts) {now : UInt64}
    (hts : ∀ t ∈ ts, t ≠ 0 ∧ t ≤ now) :
    ¬(ts.getLast?.getD 0 ≠ 0 ∧ now - ts.getLast?.getD 0 < cooldownNs) ↔
      ∀ t ∈ ts, t.toNat + 2000000000 ≤ now.toNat := by
  rcases List.eq_nil_or_concat ts with rfl | ⟨us, u, rfl⟩
  · simp
  · rw [List.concat_eq_append] at hsp hts ⊢
    have hu := hts u (by simp)
    have hle := UInt64.le_iff_toNat_le.mp hu.2
    have hlast : (us ++ [u]).getLast?.getD 0 = u := by simp
    have hcheck : ¬(u ≠ 0 ∧ now - u < cooldownNs) ↔ u.toNat + 2000000000 ≤ now.toNat := by
      rw [UInt64.lt_iff_toNat_lt, UInt64.toNat_sub_of_le _ _ hu.2,
        show cooldownNs.toNat = 2000000000 from rfl]
      simp only [hu.1, ne_eq, not_false_eq_true, true_and]
      omega
    rw [hlast, hcheck]
    constructor
    · intro hlu t ht
      rcases List.mem_append.mp ht with ht | ht
      · have h := (List.pairwise_append.mp hsp).2.2 t ht u (by simp)
        omega
      · rwa [List.mem_singleton.mp ht]
    · exact fun h => h u (by simp)

/-- A prefix of a run under a running clock has one. -/
theorem ClockRuns.of_prefix {pre ops : List EngineOp} (h : ClockRuns ops) (hpre : pre <+: ops) :
    ClockRuns pre :=
  ⟨fun evt clock hmem => h.1 evt clock (hpre.subset hmem),
    fun p evt clock hp => h.2 p evt clock (hp.trans hpre)⟩

/-- The logged times before an ingest are positive and not later than its readings. -/
theorem fireTimes_le {rules : List DiagRule} {k : DiagDevkey} {ri : ℕ} {ops : List EngineOp}
    {evt : DiagEvent} {clock : ℕ → UInt64} (h : ClockRuns (ops ++ [.ingest evt clock])) :
    ∀ t ∈ fireTimes rules k ri ops, t ≠ 0 ∧ t ≤ clock ri := by
  intro t ht
  obtain ⟨evt', clock', hmem, rfl⟩ := fireTimes_mem rules k ri ops t ht
  exact ⟨h.1 evt' clock' (List.mem_append_left _ hmem) ri,
    h.2 ops evt clock (List.prefix_refl _) evt' clock' hmem ri ri⟩

/-- The stamp an ingest finds, in a window the device had or in a new one. -/
theorem base_lastFireNs {rules : List DiagRule} {k : DiagDevkey} {ri : ℕ}
    {ops : List EngineOp}
    (h : ∀ w, devLookup (engineAfter rules ops).devs k = some w →
      w.lastFireNs ri = (fireTimes rules k ri ops).getLast?.getD 0) :
    ((devLookup (engineAfter rules ops).devs k).getD (freshWin k)).lastFireNs ri =
      (fireTimes rules k ri ops).getLast?.getD 0 := by
  cases hd : devLookup (engineAfter rules ops).devs k with
  | none => simp [fireTimes, hd, freshWin]
  | some w => exact h w hd

/-- **The stamp of a rule is its last finding**, in every reachable engine, and a rule's
findings for one window are 2 s apart. -/
theorem engineAfter_stamps (rules : List DiagRule) (k : DiagDevkey) (ri : ℕ)
    (ops : List EngineOp) (hclock : ClockRuns ops) :
    Spaced (fireTimes rules k ri ops) ∧
      ∀ w, devLookup (engineAfter rules ops).devs k = some w →
        w.lastFireNs ri = (fireTimes rules k ri ops).getLast?.getD 0 := by
  induction ops using List.reverseRecOn with
  | nil =>
    refine ⟨by simp [fireTimes, firesAfter, history, Spaced], fun w hw => ?_⟩
    exact absurd hw (by simp [engineAfter, devLookup_create])
  | append_singleton ops op ih =>
    obtain ⟨hsp, hstamp⟩ := ih (hclock.of_prefix (List.prefix_append _ _))
    have hu := engineAfter_keysUnique rules ops
    by_cases hop : ∃ evt clock, op = .ingest evt clock ∧ diagEventKey evt = k
    · obtain ⟨evt, clock, rfl, rfl⟩ := hop
      have hle : ∀ t ∈ fireTimes rules (diagEventKey evt) ri ops, t ≠ 0 ∧ t ≤ clock ri :=
        fireTimes_le hclock
      have hbase := base_lastFireNs hstamp
      rw [fireTimes_ingest rules ri ops rfl clock, diagEngineIngest_snd, engineAfter_rules]
      refine ⟨?_, fun w hw => ?_⟩
      · split
        · next hrep =>
          obtain ⟨-, -, -, hcool⟩ := (ingestWin_reports ..).mp hrep
          rw [hbase, cooldown_iff hsp hle] at hcool
          refine List.pairwise_append.mpr ⟨hsp, List.pairwise_singleton _ _, ?_⟩
          intro t ht t' ht'
          rw [List.mem_singleton.mp ht']
          exact hcool t ht
        · rwa [List.append_nil]
      · rw [engineAfter_concat, engineStep_lookup_own hu, engineAfter_rules,
          Option.some.injEq] at hw
        rw [← hw, ingestWin_lastFireNs]
        split
        · simp
        · rw [hbase, List.append_nil]
    · have hother : ∀ evt clock, op = .ingest evt clock → diagEventKey evt ≠ k :=
        fun evt clock h hk => hop ⟨evt, clock, h, hk⟩
      rw [fireTimes_other rules ri ops hother]
      refine ⟨?_, fun w hw => ?_⟩
      · split
        · exact hsp
        · exact List.Pairwise.nil
      · rw [hw, Option.isSome_some, if_pos rfl]
        -- other devices' events and ticks leave the stamps alone
        rw [engineAfter_concat] at hw
        rcases engineStep_lookup hu k op with hl | ⟨-, -, hl⟩
        · rw [hl] at hw
          cases op with
          | ingest evt clock =>
            simp only [deviceStep, if_neg (hother evt clock rfl)] at hw
            exact hstamp w hw
          | tick nowNs =>
            cases hd : devLookup (engineAfter rules ops).devs k with
            | none => simp [deviceStep, hd] at hw
            | some w₀ =>
              simp only [deviceStep, hd] at hw
              split at hw
              · simp only [Option.some.injEq] at hw
                rw [← hw, tickWin_eq _ _ _ (SlotTable.lookup_some hd).1]
                exact hstamp w₀ hd
              · cases hw
        · rw [hl] at hw
          cases hw

/-! ## The counters -/

/-- The counters are those of some findings. -/
structure CountersOf (e : DiagEngine) (fs : List Finding) : Prop where
  fireCount : ∀ ri, e.fireCount ri = ULong.ofNat (fs.countP fun f => f.ridx = ri)
  totalFired : e.totalFired = ULong.ofNat fs.length

/-- One more finding. -/
theorem CountersOf.emit {e : DiagEngine} {fs : List Finding} (h : CountersOf e fs) (f : Finding) :
    CountersOf (emit e f) (fs ++ [f]) where
  fireCount ri := by
    rw [List.countP_append, List.countP_singleton, ULong.ofNat_add, ← h.fireCount]
    by_cases hri : f.ridx = ri
    · subst hri
      simp only [Model.emit, Function.update_self, decide_true, if_true]
      rfl
    · simp only [Model.emit, Function.update_of_ne (Ne.symm hri), hri, decide_false,
        Bool.false_eq_true, if_false]
      rw [h.fireCount, ← ULong.ofNat_add, Nat.add_zero]
  totalFired := by
    rw [List.length_append, List.length_singleton, ULong.ofNat_succ, ← h.totalFired]
    rfl

/-- Emitting moves the counters by the findings emitted. -/
theorem CountersOf.foldl {e : DiagEngine} {fs : List Finding} (h : CountersOf e fs)
    (gs : List Finding) : CountersOf (gs.foldl Model.emit e) (fs ++ gs) := by
  induction gs generalizing e fs with
  | nil => simpa using h
  | cons g gs ih => simpa using ih (h.emit g)

/-- One operation moves the counters by the findings it prints. -/
theorem CountersOf.step {e : DiagEngine} {fs : List Finding} (h : CountersOf e fs)
    (op : EngineOp) : CountersOf (engineStep e op).1 (fs ++ (engineStep e op).2) := by
  cases op with
  | ingest evt clock =>
    obtain ⟨i, devs', hget, -⟩ := winGet_cases e.devs (diagEventKey evt)
    simp only [engineStep, diagEngineIngest, hget]
    have hread : CountersOf
        { e with devs := Function.update devs' i (ingestWin e.rules (devs' i) evt clock).1 } fs :=
      ⟨h.fireCount, h.totalFired⟩
    exact hread.foldl _
  | tick nowNs =>
    simp only [engineStep, diagEngineTick]
    have hread : CountersOf { e with devs := fun i => (tickWin e.rules nowNs (e.devs i)).1 } fs :=
      ⟨h.fireCount, h.totalFired⟩
    exact hread.foldl _

/-- Every finding names a rule of the engine. -/
theorem engineStep_ridx (e : DiagEngine) (op : EngineOp) :
    ∀ f ∈ (engineStep e op).2, f.ridx < e.rules.length := by
  intro f hf
  cases op with
  | ingest evt clock =>
    rw [engineStep, diagEngineIngest_snd] at hf
    obtain ⟨r, hr, -⟩ := (ingestWin_reports ..).mp (List.mem_map_of_mem hf)
    exact (List.getElem?_eq_some_iff.mp hr).1
  | tick nowNs =>
    simp only [engineStep, diagEngineTick, List.mem_flatMap] at hf
    obtain ⟨i, -, hf⟩ := hf
    cases hi : (e.devs i).used with
    | false => simp [tickWin_unused e.rules nowNs _ hi] at hf
    | true =>
      obtain ⟨r, hr, -⟩ := (tickWin_reports e.rules nowNs _ hi f.ridx).mp ⟨f, hf, rfl⟩
      exact (List.getElem?_eq_some_iff.mp hr).1

/-- **The counters count the findings**, in every reachable engine.
SOURCE: engine.c:544-551 -/
theorem engineAfter_counters (rules : List DiagRule) (ops : List EngineOp) :
    CountersOf (engineAfter rules ops) (engineFindings rules ops) ∧
      ∀ f ∈ engineFindings rules ops, f.ridx < rules.length := by
  induction ops using List.reverseRecOn with
  | nil => exact ⟨⟨fun ri => rfl, rfl⟩, by simp [engineFindings]⟩
  | append_singleton ops op ih =>
    obtain ⟨hcount, hridx⟩ := ih
    have hout : engineFindings rules (ops ++ [op]) =
        engineFindings rules ops ++ (engineStep (engineAfter rules ops) op).2 :=
      outputs_concat ..
    rw [engineAfter_concat, hout]
    refine ⟨hcount.step op, fun f hf => ?_⟩
    rcases List.mem_append.mp hf with hf | hf
    · exact hridx f hf
    · have h := engineStep_ridx (engineAfter rules ops) op f hf
      rwa [engineAfter_rules] at h

/-- The findings are the sum of those of the rules. -/
theorem sum_countP_ridx {n : ℕ} {fs : List Finding} (h : ∀ f ∈ fs, f.ridx < n) :
    ∑ ri ∈ Finset.range n, (fs.countP fun f => f.ridx = ri) = fs.length := by
  have hcards : ∑ ri ∈ Finset.range n, (fs.map Finding.ridx : Multiset ℕ).count ri =
      fs.length := by
    rw [Multiset.sum_count_eq_card]
    · simp
    · intro ri hri
      obtain ⟨f, hf, rfl⟩ := List.mem_map.mp (Multiset.mem_coe.mp hri)
      exact Finset.mem_range.mpr (h f hf)
  rw [← hcards]
  refine Finset.sum_congr rfl fun ri _ => ?_
  rw [Multiset.coe_count, List.count, List.countP_map]
  rfl

/-- Counters that have not wrapped are the numbers themselves. -/
theorem CountersOf.toNat {e : DiagEngine} {fs : List Finding} (h : CountersOf e fs) {n : ℕ}
    (hridx : ∀ f ∈ fs, f.ridx < n) {w : LongWidth} (hw : fs.length < 2 ^ w.bits) :
    (∀ i, (e.fireCount i).toNat w = fs.countP fun f => f.ridx = i) ∧
      e.totalFired.toNat w = ∑ i ∈ Finset.range n, (e.fireCount i).toNat w := by
  have hcount : ∀ i, (e.fireCount i).toNat w = fs.countP fun f => f.ridx = i := by
    intro i
    rw [h.fireCount, ULong.toNat_ofNat_of_lt (List.countP_le_length.trans_lt hw)]
  refine ⟨hcount, ?_⟩
  rw [h.totalFired, ULong.toNat_ofNat_of_lt hw, ← sum_countP_ridx hridx]
  exact Finset.sum_congr rfl fun i _ => (hcount i).symm

/-! ## The cooldown over a run -/

/-- **A rule an event satisfies is reported unless it was reported less than 2 s ago.**  The
findings of a rule for one window are 2 s apart, its stamp is the last of them, and the
counters are the numbers of findings, and of all of them together, modulo the range of an
`unsigned long`.
SOURCE: engine.c:535-551, 588-616 -/
theorem event_cooldown (rules : List DiagRule) (k : DiagDevkey) (ri : ℕ) (ops : List EngineOp)
    (hclock : ClockRuns ops) :
    (∀ pre evt clock, pre ++ [EngineOp.ingest evt clock] <+: ops → diagEventKey evt = k →
      ((∃ f ∈ (engineStep (engineAfter rules pre) (.ingest evt clock)).2, f.ridx = ri) ↔
        (∃ r, rules[ri]? = some r ∧
          SatisfiesRule (notedWin (engineAfter rules pre) k evt) r evt) ∧
        ∀ t ∈ fireTimes rules k ri pre, t.toNat + 2000000000 ≤ (clock ri).toNat)) ∧
      Spaced (fireTimes rules k ri ops) ∧
      (∀ w, devLookup (engineAfter rules ops).devs k = some w →
        w.lastFireNs ri = (fireTimes rules k ri ops).getLast?.getD 0) ∧
      (∀ i, (engineAfter rules ops).fireCount i =
        ULong.ofNat ((engineFindings rules ops).countP fun f => f.ridx = i)) ∧
      (engineAfter rules ops).totalFired = ULong.ofNat (∑ i ∈ Finset.range rules.length,
        (engineFindings rules ops).countP fun f => f.ridx = i) ∧
      ∀ w : LongWidth, (engineFindings rules ops).length < 2 ^ w.bits →
        (∀ i, ((engineAfter rules ops).fireCount i).toNat w =
          (engineFindings rules ops).countP fun f => f.ridx = i) ∧
        ((engineAfter rules ops).totalFired).toNat w =
          ∑ i ∈ Finset.range rules.length, ((engineAfter rules ops).fireCount i).toNat w := by
  obtain ⟨hsp, hstamp⟩ := engineAfter_stamps rules k ri ops hclock
  obtain ⟨hcount, hridx⟩ := engineAfter_counters rules ops
  refine ⟨fun pre evt clock hpre hk => ?_, hsp, hstamp, hcount.fireCount, ?_, fun w hw =>
    hcount.toNat hridx hw⟩
  · subst hk
    have hrun := hclock.of_prefix hpre
    obtain ⟨hsp', hstamp'⟩ := engineAfter_stamps rules (diagEventKey evt) ri pre
      (hrun.of_prefix (List.prefix_append _ _))
    have hbase := base_lastFireNs hstamp'
    have hmem : (∃ f ∈ (engineStep (engineAfter rules pre) (.ingest evt clock)).2,
        f.ridx = ri) ↔
        ri ∈ (ingestWin rules ((devLookup (engineAfter rules pre).devs (diagEventKey evt)).getD
          (freshWin (diagEventKey evt))) evt clock).2.map Finding.ridx := by
      rw [engineStep, diagEngineIngest_snd, engineAfter_rules, List.mem_map]
    rw [hmem, ingestWin_reports, hbase, cooldown_iff hsp' (fireTimes_le hrun)]
    constructor
    · rintro ⟨r, hr, hv, hcool⟩
      exact ⟨⟨r, hr, (evalRule_satisfies _ _ _).mp hv⟩, hcool⟩
    · rintro ⟨⟨r, hr, hv⟩, hcool⟩
      exact ⟨r, hr, (evalRule_satisfies _ _ _).mpr hv, hcool⟩
  · rw [hcount.totalFired, sum_countP_ridx hridx]

/-- Ingests at one reading each run under the clock when the readings are in order. -/
theorem clockRuns_of_sorted {ι : Type*} (xs : List ι) (f : ι → DiagEvent × UInt64)
    (hpos : ∀ x ∈ xs, (f x).2 ≠ 0) (hsort : xs.Pairwise fun x y => (f x).2 ≤ (f y).2) :
    ClockRuns (xs.map fun x => .ingest (f x).1 fun _ => (f x).2) := by
  refine ⟨fun evt clock hmem i => ?_, fun pre evt clock hpre evt' clock' hmem i j => ?_⟩
  · obtain ⟨x, hx, heq⟩ := List.mem_map.mp hmem
    cases heq
    exact hpos x hx
  · obtain ⟨rest, hrest⟩ := hpre
    obtain ⟨xs', ys, rfl, hpre, -⟩ := List.map_eq_append_iff.mp hrest.symm
    obtain ⟨us, vs, rfl, rfl, hlast⟩ := List.map_eq_append_iff.mp hpre
    obtain ⟨y, rfl, heq⟩ := List.map_eq_singleton_iff.mp hlast
    obtain ⟨x, hx, heq'⟩ := List.mem_map.mp hmem
    cases heq
    cases heq'
    exact (List.pairwise_append.mp (List.pairwise_append.mp hsort).1).2.2 x hx y (by simp)

/-- A rule on the second transfer within 10 s. -/
def sampleRepeat : DiagRule :=
  { trigger := { kind := some evtUrb },
    whenList := [{ kind := some evtUrb, countGte := some 2, withinMs := some 10000 }] }

/-- Four transfers of one device, ingested at 4, 5, 6 and 7 s. -/
def repeatedTransfers : List EngineOp :=
  [4, 5, 6, 7].map fun s =>
    .ingest { kind := evtUrb, tsNs := s, busnum := 1, devnum := 2 } fun _ => s * 1000000000

/-- The first transfer is alone, the second is reported, the third follows too soon, and the
fourth is reported again. -/
theorem event_cooldown_sample :
    let k : DiagDevkey := ⟨1, 2⟩
    let rules := [sampleRepeat]
    let ops := repeatedTransfers
    (∀ pre evt clock, pre ++ [EngineOp.ingest evt clock] <+: ops → diagEventKey evt = k →
      ((∃ f ∈ (engineStep (engineAfter rules pre) (.ingest evt clock)).2, f.ridx = 0) ↔
        (∃ r, rules[0]? = some r ∧
          SatisfiesRule (notedWin (engineAfter rules pre) k evt) r evt) ∧
        ∀ t ∈ fireTimes rules k 0 pre, t.toNat + 2000000000 ≤ (clock 0).toNat)) ∧
      fireTimes rules k 0 ops = [5000000000, 7000000000] ∧
      (engineFindings rules ops).map Finding.count = [2, 4] ∧
      ((engineAfter rules ops).fireCount 0).toNat .long32 = 2 := by
  intro k rules ops
  have hclock : ClockRuns ops := by
    refine clockRuns_of_sorted [4, 5, 6, 7]
      (fun s => ({ kind := evtUrb, tsNs := s, busnum := 1, devnum := 2 }, s * 1000000000)) ?_ ?_
    · simp
    · simp
  have hfindings : (engineFindings rules ops).map Finding.count = [2, 4] := by decide +kernel
  obtain ⟨hcool, -, -, -, -, hexact⟩ := event_cooldown rules k 0 ops hclock
  refine ⟨hcool, by decide +kernel, hfindings, ?_⟩
  have hlen : (engineFindings rules ops).length = 2 := by
    rw [← List.length_map (f := Finding.count), hfindings]
    rfl
  rw [(hexact .long32 (by rw [hlen]; decide)).1 0]
  decide +kernel

end UsbTrace.Analysis

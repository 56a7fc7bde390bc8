import UsbTrace.Analysis.DeviceTable
import UsbTrace.Interface.RuleBounds
import UsbTrace.Library.Fold
import UsbTrace.Model.Checked

/-!
# Every index is within bounds

Started with a bounded rule array, the engine with checked indices does on every run what
the engine does: no access fails.  The indices into a rule are bounded by the loader's
limits, those into the ring by the ring's own invariant, and the states of an event or a
deadline by the tests in front of the access.

`index_safety` joins the loader's promise to the engine's runs.
-/

set_option autoImplicit false

namespace UsbTrace.Analysis

open UsbTrace.Model UsbTrace.Interface UsbTrace.Library

/-! ## Predicates -/

theorem matchFieldsChecked_eq {c : DiagCond} (hc : BoundedCond c) (e : DiagEvent) :
    matchFieldsChecked c e = some (matchFields c e) :=
  allM_entries hc.matches_le fun m => matchOne m (evFieldVal e m.field)

theorem statusOkChecked_eq {c : DiagCond} (hc : BoundedCond c) (e : DiagEvent) :
    statusOkChecked c e = some (statusOk c e) := by
  unfold statusOkChecked statusOk
  split
  · rfl
  · exact anyM_entries hc.statuses_le fun s => decide (e.status.toInt = s)

theorem condEventPredChecked_eq {c : DiagCond} (hc : BoundedCond c) (e : DiagEvent) :
    condEventPredChecked c e = some (condEventPred c e) := by
  unfold condEventPredChecked condEventPred
  simp only [matchFieldsChecked_eq hc, statusOkChecked_eq hc]
  cases kindOk c e <;> cases matchFields c e <;> cases statusOk c e <;> rfl

theorem triggerMatchChecked_eq {c : DiagCond} (hc : BoundedCond c) (e : DiagEvent) :
    triggerMatchChecked c e = some (triggerMatch c e) := by
  unfold triggerMatchChecked triggerMatch
  split
  · rfl
  · exact matchFieldsChecked_eq hc e

/-! ## The ring -/

theorem winPushChecked_eq {w : Devwin} (hw : RingBounded w) (ev : DiagEvent) :
    winPushChecked w ev = some (winPush w ev) := by
  have hhead : w.head < winMaxEvents := hw.head_lt
  simp only [winPushChecked, writeAt_nat hhead]
  rfl

/-- The position of an event in use lies in the ring, also where C's remainder is taken of
an index behind the head. -/
theorem winAtChecked_eq {w : Devwin} (hw : RingBounded w) {idx : ℕ} (hidx : idx < w.count) :
    winAtChecked w idx = some (winAt w idx) := by
  have hhead : w.head < winMaxEvents := hw.head_lt
  have hcount : w.count ≤ winMaxEvents := hw.count_le
  have hnonneg : 0 ≤ (w.head : ℤ) - 1 - idx + 2 * winMaxEvents := by
    simp only [winMaxEvents] at hhead hcount ⊢
    omega
  have hpos : (winMaxEvents : ℤ) > 0 := by decide
  exact readAt_eq (Int.tmod_nonneg _ hnonneg) (Int.tmod_lt_of_pos _ hpos)

/-! ## Evaluation -/

/-- The step that adds evidence, for any accumulator: it fits where the source's test of
the length passes. -/
theorem takeEvidence_eq (take : Bool) (a : EvalAcc) (x : DiagEvent) :
    (if take && a.ev.length < maxEvidence then
      (appendAt maxEvidence a.ev x).bind fun ev => some { a with ev := ev }
    else some a) =
      some (if take && a.ev.length < maxEvidence then { a with ev := a.ev ++ [x] } else a) := by
  split
  · next htake =>
    have hroom : a.ev.length < maxEvidence := of_decide_eq_true (Bool.and_eq_true_iff.mp htake).2
    rw [appendAt_eq hroom]
    rfl
  · rfl

theorem takeEvidence_le (take : Bool) {a : EvalAcc} (ha : a.ev.length ≤ maxEvidence)
    (x : DiagEvent) :
    (if take && a.ev.length < maxEvidence then { a with ev := a.ev ++ [x] } else a).ev.length ≤
      maxEvidence := by
  split
  · next htake =>
    have hroom : a.ev.length < maxEvidence := of_decide_eq_true (Bool.and_eq_true_iff.mp htake).2
    rw [List.length_append, List.length_singleton]
    omega
  · exact ha

/-- One turn of the lookback loop: no access fails, and the evidence stays in its array. -/
theorem evalStepChecked_eq {c : DiagCond} (hc : BoundedCond c) (refNs : UInt64) {a : EvalAcc}
    (ha : a.ev.length ≤ maxEvidence) (x : DiagEvent) :
    evalStepChecked c refNs a x = some (evalStep c refNs a x) ∧
      (evalStep c refNs a x).ev.length ≤ maxEvidence := by
  unfold evalStepChecked evalStep
  split
  · exact ⟨rfl, ha⟩
  · simp only [condEventPredChecked_eq hc]
    cases condEventPred c x with
    | false => exact ⟨rfl, ha⟩
    | true =>
      refine ⟨takeEvidence_eq _ _ x, takeEvidence_le _ ?_ x⟩
      split <;> exact ha

/-- **A lookback**: it stays within the ring, the condition and the evidence list. -/
theorem evalWhenChecked_eq {w : Devwin} (hw : RingBounded w) {c : DiagCond}
    (hc : BoundedCond c) (refNs : UInt64) {ev : List DiagEvent}
    (hev : ev.length ≤ maxEvidence) :
    evalWhenChecked w c refNs ev = some (evalWhen w c refNs ev) ∧
      (evalWhen w c refNs ev).2.length ≤ maxEvidence := by
  have hturn : ∀ a : EvalAcc, a.ev.length ≤ maxEvidence → ∀ i ∈ List.range w.count,
      (winAtChecked w i).bind (evalStepChecked c refNs a) =
          some (evalStep c refNs a (winAt w i)) ∧
        (evalStep c refNs a (winAt w i)).ev.length ≤ maxEvidence := by
    intro a ha i hi
    rw [winAtChecked_eq hw (List.mem_range.mp hi)]
    exact evalStepChecked_eq hc refNs ha _
  have hstart : ({ ev := ev } : EvalAcc).ev.length ≤ maxEvidence := hev
  obtain ⟨hrun, hlen⟩ := foldlM_eq_some _ _ (fun a : EvalAcc => a.ev.length ≤ maxEvidence)
    hturn hstart
  rw [← List.foldl_map] at hrun hlen
  simp only [evalWhenChecked, hrun, Option.bind_eq_bind, Option.bind_some, evalWhen, winEvents]
  cases c.minSpanMs with
  | none => exact ⟨rfl, hlen⟩
  | some ms =>
    refine ⟨(apply_ite some _ _ _).symm, ?_⟩
    exact iteInduction (motive := fun r : ℤ × List DiagEvent => r.2.length ≤ maxEvidence)
      (fun _ => (List.length_take_le _ _).trans hev) fun _ => hlen

theorem cooldownOkChecked_eq (w : Devwin) {ridx : ℕ} (hridx : ridx < diagMaxRules)
    (now : UInt64) : cooldownOkChecked w ridx now = some (cooldownOk w ridx now) := by
  simp only [cooldownOkChecked, cooldownOk, readAt_nat hridx, writeAt_nat hridx,
    Option.bind_eq_bind, Option.bind_some]
  exact (apply_ite some _ _ _).symm

/-- **The when loop**, from condition `j` on. -/
theorem evalWhensChecked_eq {w : Devwin} (hw : RingBounded w) (refNs : UInt64)
    {conds : List DiagCond} (hlen : conds.length ≤ diagMaxWhen)
    (hconds : ∀ c ∈ conds, BoundedCond c) :
    ∀ (todo j : ℕ) (v : Verdict), j + todo = conds.length → v.evidence.length ≤ maxEvidence →
      evalWhensChecked w refNs conds todo j v = some (evalWhens w refNs (conds.drop j) v) ∧
        ∀ v', evalWhens w refNs (conds.drop j) v = some v' →
          v'.evidence.length ≤ maxEvidence := by
  intro todo
  induction todo with
  | zero =>
    intro j v hj hv
    rw [List.drop_of_length_le (by omega)]
    exact ⟨rfl, fun v' hv' => Option.some.inj hv' ▸ hv⟩
  | succ todo ih =>
    intro j v hj hv
    have hjlt : j < conds.length := by omega
    have hcond : BoundedCond conds[j] := hconds _ (List.getElem_mem hjlt)
    obtain ⟨hwhen, hev⟩ := evalWhenChecked_eq hw hcond refNs hv
    rw [List.drop_eq_getElem_cons hjlt]
    simp only [evalWhensChecked, evalWhens, entryAt_eq hlen hjlt, hwhen, Option.bind_eq_bind,
      Option.bind_some]
    split
    · exact ⟨rfl, fun v' hv' => absurd hv'.symm (Option.some_ne_none v')⟩
    · exact ih (j + 1) _ (by omega) hev

/-- **An event rule**: its trigger and its conditions are within their arrays. -/
theorem evalRuleChecked_eq {w : Devwin} (hw : RingBounded w) {r : DiagRule} (hr : BoundedRule r)
    (evt : DiagEvent) :
    evalRuleChecked w r evt = some (evalRule w r evt) ∧
      ∀ v, evalRule w r evt = some v → v.evidence.length ≤ maxEvidence := by
  unfold evalRuleChecked evalRule
  split
  · exact ⟨rfl, fun v hv => absurd hv.symm (Option.some_ne_none v)⟩
  · simp only [triggerMatchChecked_eq hr.trigger, Option.bind_eq_bind, Option.bind_some]
    split
    · exact ⟨rfl, fun v hv => absurd hv.symm (Option.some_ne_none v)⟩
    · exact evalWhensChecked_eq hw evt.tsNs hr.whens_le hr.whens _ 0 {} (Nat.zero_add _)
        (Nat.zero_le _)

/-! ## Ingest -/

/-- A finding that names a rule of the array and fits the evidence list. -/
def FindingBounded (rules : List DiagRule) (f : Finding) : Prop :=
  f.ridx < rules.length ∧ f.evidence.length ≤ maxEvidence

/-- What holds in the rule loops: the ring is bounded, and so is every finding so far. -/
def LoopBounded (rules : List DiagRule) (s : Devwin × List Finding) : Prop :=
  RingBounded s.1 ∧ ∀ f ∈ s.2, FindingBounded rules f

theorem ruleStepChecked_eq {rules : List DiagRule} (hrules : BoundedRules rules)
    (evt : DiagEvent) (clock : ℕ → UInt64) {s : Devwin × List Finding}
    (hs : LoopBounded rules s) {p : DiagRule × ℕ} (hp : p ∈ rules.zipIdx) :
    ruleStepChecked evt clock s p = some (ruleStep evt clock s p) ∧
      LoopBounded rules (ruleStep evt clock s p) := by
  obtain ⟨hring, hfindings⟩ := hs
  have hget : rules[p.2]? = some p.1 := List.mem_zipIdx_iff_getElem?.mp hp
  obtain ⟨hlt, heq⟩ := List.getElem?_eq_some_iff.mp hget
  have hridx : p.2 < diagMaxRules := lt_of_lt_of_le hlt hrules.length_le
  have hrule : BoundedRule p.1 := hrules.rule _ (heq ▸ List.getElem_mem hlt)
  obtain ⟨heval, hev⟩ := evalRuleChecked_eq hring hrule evt
  unfold ruleStepChecked ruleStep
  rw [heval]
  cases hv : evalRule s.1 p.1 evt with
  | none => exact ⟨rfl, hring, hfindings⟩
  | some v =>
    simp only [Option.bind_eq_bind, Option.bind_some, cooldownOkChecked_eq s.1 hridx]
    cases hcool : cooldownOk s.1 p.2 (clock p.2) with
    | none => exact ⟨rfl, hring, hfindings⟩
    | some w =>
      refine ⟨rfl, ?_, ?_⟩
      · -- the stamp is outside the ring
        unfold cooldownOk at hcool
        split at hcool
        · cases hcool
        · cases hcool
          exact hring
      · simpa using fun f hf => hf.elim (hfindings f) fun h => h ▸ ⟨hlt, hev v hv⟩

/-- A state below 9 has its time stamp. -/
theorem stampStateChecked_eq (w : Devwin) {evt : DiagEvent} (hstate : evt.newState < 9) :
    stampStateChecked w evt = some { w with
      seenStates := w.seenStates ||| (1#16 <<< evt.newState.toNat)
      stateTs := if w.stateTs evt.newState.toNat = 0 then
          Function.update w.stateTs evt.newState.toNat evt.tsNs
        else w.stateTs } := by
  have hlt : evt.newState.toNat < stateTsLen := hstate
  simp only [stampStateChecked, readAt_nat hlt, writeAt_nat hlt, Option.bind_eq_bind,
    Option.bind_some]
  split <;> rfl

theorem noteStateChecked_eq (w : Devwin) (evt : DiagEvent) :
    noteStateChecked w evt = some (noteState w evt) := by
  unfold noteStateChecked noteState
  by_cases henum : evt.kind = evtEnum ∧ evt.step = enumStepState
  · rw [if_pos henum, if_pos henum]
    by_cases hstate : evt.newState < 9
    · simp only [if_pos hstate, stampStateChecked_eq _ hstate]
    · simp only [if_neg hstate]
  · rw [if_neg henum, if_neg henum]
    split <;> rfl

/-- **An ingest on a window**: no access fails, and what it leaves is bounded. -/
theorem ingestWinChecked_eq {rules : List DiagRule} (hrules : BoundedRules rules) {w : Devwin}
    (hw : RingBounded w) (evt : DiagEvent) (clock : ℕ → UInt64) :
    ingestWinChecked rules w evt clock = some (ingestWin rules w evt clock) ∧
      LoopBounded rules (ingestWin rules w evt clock) := by
  have hpush := winPushChecked_eq (w := { w with
    lastSeenNs := evt.tsNs
    vid := if evt.vid ≠ 0 then evt.vid else w.vid
    pid := if evt.pid ≠ 0 then evt.pid else w.pid }) hw evt
  have hnoted : LoopBounded rules (noteEvent w evt, []) := by
    refine ⟨?_, by simp⟩
    unfold RingBounded
    rw [ringOf_noteEvent]
    exact hw.push evt
  obtain ⟨hrun, hbounded⟩ := foldlM_eq_some (ruleStep evt clock) (ruleStepChecked evt clock)
    (LoopBounded rules) (fun s hs p hp => ruleStepChecked_eq hrules evt clock hs hp) hnoted
  refine ⟨?_, hbounded⟩
  simp only [ingestWinChecked, hpush, Option.bind_eq_bind, Option.bind_some,
    noteStateChecked_eq]
  rw [foldlM_entries hrules.length_le]
  exact hrun

/-! ## The engine -/

/-- A bounded finding is emitted within the counters and its evidence list. -/
theorem emitChecked_eq {e : DiagEngine} (hrules : BoundedRules e.rules) {f : Finding}
    (hf : FindingBounded e.rules f) : emitChecked e f = some (emit e f) := by
  have hridx : f.ridx < diagMaxRules := lt_of_lt_of_le hf.1 hrules.length_le
  simp only [emitChecked, emit, entryAt_eq hrules.length_le hf.1,
    allM_entries hf.2 fun _ => true, readAt_nat hridx, writeAt_nat hridx, Option.bind_eq_bind,
    Option.bind_some]
  rfl

/-- Bounded findings are emitted one after the other. -/
theorem foldlM_emitChecked_eq {rules : List DiagRule} (hrules : BoundedRules rules)
    {fs : List Finding} (hfs : ∀ f ∈ fs, FindingBounded rules f) {e : DiagEngine}
    (he : e.rules = rules) : fs.foldlM emitChecked e = some (fs.foldl emit e) := by
  refine (foldlM_eq_some emit emitChecked (fun e => e.rules = rules) ?_ he).1
  intro e he f hf
  subst he
  exact ⟨emitChecked_eq hrules (hfs f hf), rfl⟩

/-- **An ingest** forms no index out of bounds. -/
theorem diagEngineIngestChecked_eq {e : DiagEngine} (hrules : BoundedRules e.rules)
    (hrings : RingsBounded e.devs) (evt : DiagEvent) (clock : ℕ → UInt64) :
    diagEngineIngestChecked e evt clock = some (diagEngineIngest e evt clock) := by
  obtain ⟨i, devs', hget, hcase⟩ := winGet_cases e.devs (diagEventKey evt)
  have hring : RingBounded (devs' i) := by
    rcases hcase with ⟨-, rfl⟩ | ⟨-, rfl, -⟩
    · exact hrings i
    · rw [Function.update_self]
      exact ringBounded_fresh _
  obtain ⟨hwin, -, hfs⟩ := ingestWinChecked_eq hrules hring evt clock
  simp only [diagEngineIngestChecked, diagEngineIngest, hget, hwin, Option.bind_eq_bind,
    Option.bind_some]
  rw [foldlM_emitChecked_eq hrules hfs]
  · rfl
  · rfl

theorem deadlineDueChecked_eq (w : Devwin) (r : DiagRule) (nowNs : UInt64) :
    deadlineDueChecked w r nowNs = some (deadlineDue w r nowNs) := by
  unfold deadlineDueChecked deadlineDue
  by_cases htype : r.type ≠ .deadline
  · rw [if_pos htype, if_pos htype]
  rw [if_neg htype, if_neg htype]
  by_cases hrange : r.dlReachedState < 0 ∨ r.dlReachedState > 8
  · rw [if_pos hrange, if_pos hrange]
  rw [if_neg hrange, if_neg hrange]
  -- the range test stands in front of the access
  have h0 : 0 ≤ r.dlReachedState := by omega
  have hlt : r.dlReachedState < stateTsLen := by
    simp only [stateTsLen]
    omega
  rw [readAt_eq h0 hlt, Option.bind_eq_bind, Option.bind_some]
  simp only [apply_ite some]
  rfl

theorem deadlineStepChecked_eq {rules : List DiagRule} (hrules : BoundedRules rules)
    (nowNs : UInt64) {s : Devwin × List Finding} (hs : ∀ f ∈ s.2, FindingBounded rules f)
    {p : DiagRule × ℕ} (hp : p ∈ rules.zipIdx) :
    deadlineStepChecked nowNs s p = some (deadlineStep nowNs s p) ∧
      ∀ f ∈ (deadlineStep nowNs s p).2, FindingBounded rules f := by
  have hget : rules[p.2]? = some p.1 := List.mem_zipIdx_iff_getElem?.mp hp
  obtain ⟨hlt, -⟩ := List.getElem?_eq_some_iff.mp hget
  have hridx : p.2 < diagMaxRules := lt_of_lt_of_le hlt hrules.length_le
  simp only [deadlineStepChecked, deadlineStep, deadlineDueChecked_eq, readAt_nat hridx,
    writeAt_nat hridx, Option.bind_eq_bind, Option.bind_some]
  cases deadlineDue s.1 p.1 nowNs with
  | false => exact ⟨rfl, hs⟩
  | true =>
    cases s.1.dlFired p.2 with
    | true => exact ⟨rfl, hs⟩
    | false =>
      refine ⟨rfl, ?_⟩
      simpa using fun f hf => hf.elim (hs f) fun h => h ▸ ⟨hlt, Nat.zero_le _⟩

/-- **A tick on a window**: no access fails, and every finding is bounded. -/
theorem tickWinChecked_eq {rules : List DiagRule} (hrules : BoundedRules rules)
    (nowNs : UInt64) (w : Devwin) :
    tickWinChecked rules nowNs w = some (tickWin rules nowNs w) ∧
      ∀ f ∈ (tickWin rules nowNs w).2, FindingBounded rules f := by
  unfold tickWinChecked tickWin
  split
  · exact ⟨rfl, by simp⟩
  · obtain ⟨hrun, hfs⟩ := foldlM_eq_some (deadlineStep nowNs) (deadlineStepChecked nowNs)
      (fun s : Devwin × List Finding => ∀ f ∈ s.2, FindingBounded rules f)
      (fun s hs p hp => deadlineStepChecked_eq hrules nowNs hs hp) (s := (w, [])) (by simp)
    rw [foldlM_entries hrules.length_le, hrun]
    exact ⟨rfl, hfs⟩

/-- **A tick** forms no index out of bounds. -/
theorem diagEngineTickChecked_eq {e : DiagEngine} (hrules : BoundedRules e.rules)
    (nowNs : UInt64) : diagEngineTickChecked e nowNs = some (diagEngineTick e nowNs) := by
  have hslots := foldlM_slots (f := tickWinChecked e.rules nowNs) (g := tickWin e.rules nowNs)
    (List.nodup_finRange winMaxDevs) e.devs [] fun i _ => (tickWinChecked_eq hrules nowNs _).1
  have hfs : ∀ f ∈ (List.finRange winMaxDevs).flatMap
      fun i => (tickWin e.rules nowNs (e.devs i)).2, FindingBounded e.rules f := by
    intro f hf
    obtain ⟨i, -, hi⟩ := List.mem_flatMap.mp hf
    exact (tickWinChecked_eq hrules nowNs _).2 f hi
  simp only [List.mem_finRange, if_true, List.nil_append] at hslots
  simp only [diagEngineTickChecked, diagEngineTick, hslots, Option.bind_eq_bind,
    Option.bind_some]
  rw [foldlM_emitChecked_eq hrules hfs]
  · rfl
  · rfl

/-! ## Runs -/

/-- **A run** from bounded rings forms no index out of bounds. -/
theorem engineRunChecked_eq {e : DiagEngine} (hrules : BoundedRules e.rules)
    (hrings : RingsBounded e.devs) (ops : List EngineOp) :
    engineRunChecked e ops = some (finalState engineStep e ops, outputs engineStep e ops) := by
  induction ops generalizing e with
  | nil => rfl
  | cons op ops ih =>
    have hstep : engineStepChecked e op = some (engineStep e op) := by
      cases op with
      | ingest evt clock => exact diagEngineIngestChecked_eq hrules hrings evt clock
      | tick nowNs => exact diagEngineTickChecked_eq hrules nowNs
    have hrest := ih (e := (engineStep e op).1) (by rw [engineStep_rules]; exact hrules)
      (engineStep_ringsBounded e op hrings)
    simp only [engineRunChecked, hstep, hrest, Option.bind_eq_bind, Option.bind_some]
    rfl

/--
**Every index is within bounds.**  Whatever the document is, the loader fails without an
array or returns at most 64 rules within their limits; and started with any such array the
engine with checked indices completes every run, with the results of the engine.

SOURCE: engine.c:167-264, engine.c:485-661, rules.c:164-526.
-/
theorem index_safety :
    (∀ long alloc load, ParseBounded (diagRulesParse long alloc load)) ∧
    ∀ rules, BoundedRules rules → ∀ ops,
      engineRunChecked (diagEngineCreate rules) ops =
        some (engineAfter rules ops, engineFindings rules ops) := by
  refine ⟨diagRulesParse_bounded, fun rules hrules ops => ?_⟩
  exact engineRunChecked_eq hrules (ringsBounded_create rules) ops

/-- A rule of each type, as the loader returns them. -/
def boundedSample : List DiagRule := [
  { id := some "disconnect".toList
    trigger := { kind := some 4, matchList := [⟨.action, 1, .eq⟩] }
    whenList := [{ kind := some 1, statusIn := [-71, -84], withinMs := some 2000 }] },
  { id := some "stall".toList, type := .deadline, dlReachedState := 6, dlWithoutState := 7
    dlTimeoutMs := 3000 }]

theorem boundedSample_bounded : BoundedRules boundedSample := by
  refine ⟨by decide, ?_⟩
  intro r hr
  simp only [boundedSample, List.mem_cons, List.not_mem_nil, or_false] at hr
  rcases hr with rfl | rfl
  · refine ⟨by simp, ⟨by decide, by decide⟩, by decide, ?_, by simp⟩
    simp only [List.mem_singleton, forall_eq]
    exact ⟨by decide, by decide⟩
  · exact ⟨by simp, ⟨by decide, by decide⟩, by decide, by simp, by simp⟩

/-- A device reaches ADDRESS, and a tick comes four seconds later. -/
def boundedSampleOps : List EngineOp :=
  [.ingest { kind := evtEnum, newState := 6, tsNs := 5 } (fun _ => 7), .tick 4000000000]

theorem index_safety_sample :
    engineRunChecked (diagEngineCreate boundedSample) boundedSampleOps =
      some (engineAfter boundedSample boundedSampleOps,
        engineFindings boundedSample boundedSampleOps) :=
  index_safety.2 boundedSample boundedSample_bounded boundedSampleOps

end UsbTrace.Analysis

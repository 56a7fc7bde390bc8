import UsbTrace.Analysis.Window

/-!
# What the lookback counts

For a condition without `cluster_ms` and `min_span_ms` the loop of `eval_when` counts the
events of the window that satisfy the condition's predicate and lie in its lookback
(`evalWhen_count`), so a rule made of such conditions holds exactly when every count
reaches `count_gte` (`evalRule_isSome`).  With any conditions a rule holds when each finds its
number, whatever the ones before it left as evidence (`evalRule_satisfies`).
-/

set_option autoImplicit false

namespace UsbTrace.Analysis

open UsbTrace.Model UsbTrace.Library

/-- A condition that counts events one by one over any span of time. -/
def Plain (c : DiagCond) : Prop := c.clusterMs = none ∧ c.minSpanMs = none

/-- The events a condition counts, seen from a reference time. -/
def counts (c : DiagCond) (refNs : UInt64) (x : DiagEvent) : Bool :=
  inLookback c refNs x && condEventPred c x

/-- One turn of the lookback loop adds one to the count for an event the condition counts. -/
theorem evalStep_cnt (c : DiagCond) (refNs : UInt64) (a : EvalAcc) (x : DiagEvent) :
    (evalStep c refNs a x).cnt = a.cnt + if counts c refNs x then 1 else 0 := by
  unfold evalStep counts
  cases inLookback c refNs x <;> cases condEventPred c x
  · simp
  · simp
  · simp
  · -- the branches on the cluster and on the evidence leave the count alone
    simp only [Bool.not_true, Bool.false_eq_true, if_false, Bool.and_self, if_true,
      apply_ite EvalAcc.cnt, ite_self]

/-- The count at the end of the lookback loop. -/
theorem evalLoop_cnt (c : DiagCond) (refNs : UInt64) (xs : List DiagEvent) (a : EvalAcc) :
    (xs.foldl (evalStep c refNs) a).cnt = a.cnt + (xs.countP (counts c refNs) : ℕ) := by
  induction xs generalizing a with
  | nil => simp
  | cons x xs ih =>
    rw [List.foldl_cons, ih, evalStep_cnt, List.countP_cons]
    split <;> push_cast <;> omega

/-- **The count of a plain condition.**
SOURCE: engine.c:485-533 -/
theorem evalWhen_count {c : DiagCond} (hc : Plain c) (w : Devwin) (refNs : UInt64)
    (ev : List DiagEvent) :
    (evalWhen w c refNs ev).1 = ((winEvents w).countP (counts c refNs) : ℕ) := by
  have hclus : clusterNs c = 0 := by simp [clusterNs, hc.1]
  simp only [evalWhen, hc.2, hclus, ne_eq, not_true_eq_false, if_false, evalLoop_cnt]
  simp

/-! ## Evidence does not count -/

/-- One turn of the lookback loop moves its other locals the same, whatever the evidence. -/
theorem evalStep_evidence (c : DiagCond) (refNs : UInt64) (a : EvalAcc) (ev : List DiagEvent)
    (x : DiagEvent) :
    ∃ ev', evalStep c refNs { a with ev := ev } x = { evalStep c refNs a x with ev := ev' } := by
  unfold evalStep
  cases inLookback c refNs x
  · exact ⟨ev, rfl⟩
  · cases condEventPred c x
    · exact ⟨ev, rfl⟩
    · -- only the list of events itself depends on the events that are there
      simp only [Bool.not_true, Bool.false_eq_true, if_false]
      refine ⟨_, EvalAcc.ext ?_ ?_ ?_ ?_ ?_ rfl⟩ <;>
        simp only [apply_ite EvalAcc.cnt, apply_ite EvalAcc.nclus, apply_ite EvalAcc.oldest,
          apply_ite EvalAcc.newest, apply_ite EvalAcc.prevTs, ite_self]

theorem evalLoop_evidence (c : DiagCond) (refNs : UInt64) (xs : List DiagEvent) (a : EvalAcc)
    (ev : List DiagEvent) :
    ∃ ev', xs.foldl (evalStep c refNs) { a with ev := ev } =
      { xs.foldl (evalStep c refNs) a with ev := ev' } := by
  induction xs generalizing a ev with
  | nil => exact ⟨ev, rfl⟩
  | cons x xs ih =>
    obtain ⟨ev₁, hstep⟩ := evalStep_evidence c refNs a ev x
    rw [List.foldl_cons, List.foldl_cons, hstep]
    exact ih _ _

/-- **The number a condition finds** does not depend on the evidence it is given. -/
theorem evalWhen_evidence (w : Devwin) (c : DiagCond) (refNs : UInt64) (ev : List DiagEvent) :
    (evalWhen w c refNs ev).1 = (evalWhen w c refNs []).1 := by
  obtain ⟨ev', hloop⟩ := evalLoop_evidence c refNs (winEvents w) { ev := [] } ev
  simp only [evalWhen]
  rw [hloop]
  cases c.minSpanMs with
  | none => rfl
  | some ms => simp only [apply_ite Prod.fst]

/-- The loop over conditions succeeds exactly when each finds its number. -/
theorem evalWhens_isSome (cs : List DiagCond) (w : Devwin) (refNs : UInt64) (v : Verdict) :
    (evalWhens w refNs cs v).isSome ↔
      ∀ c ∈ cs, c.countGte.getD 1 ≤ (evalWhen w c refNs []).1 := by
  induction cs generalizing v with
  | nil => simp [evalWhens]
  | cons c cs ih =>
    have hc := evalWhen_evidence w c refNs v.evidence
    simp only [evalWhens, hc, List.forall_mem_cons]
    split
    · next hlt =>
      refine iff_of_false (by simp) fun h => ?_
      omega
    · next hge =>
      rw [ih]
      exact ⟨fun h => ⟨by omega, h⟩, fun h => h.2⟩

/-- The event satisfies the rule, in the window it has been noted in: it matches the trigger,
and each condition finds as many events as it asks for. -/
def SatisfiesRule (w : Devwin) (r : DiagRule) (evt : DiagEvent) : Prop :=
  r.type = .event ∧ triggerMatch r.trigger evt = true ∧
    ∀ c ∈ r.whenList, c.countGte.getD 1 ≤ (evalWhen w c evt.tsNs []).1

/-- **A rule holds** exactly when the event satisfies it.
SOURCE: engine.c:594-612 -/
theorem evalRule_satisfies (w : Devwin) (r : DiagRule) (evt : DiagEvent) :
    (evalRule w r evt).isSome ↔ SatisfiesRule w r evt := by
  unfold evalRule SatisfiesRule
  by_cases htype : r.type = .event
  · cases htrig : triggerMatch r.trigger evt with
    | false => simp [htype]
    | true => simp [htype, evalWhens_isSome]
  · simp [htype]

/-- **A rule of plain conditions holds** exactly when its trigger matches and each
condition's count over the window reaches `count_gte`.
SOURCE: engine.c:594-612 -/
theorem evalRule_isSome {r : DiagRule} (hr : ∀ c ∈ r.whenList, Plain c) (w : Devwin)
    (evt : DiagEvent) :
    (evalRule w r evt).isSome ↔
      r.type = .event ∧ triggerMatch r.trigger evt = true ∧
        ∀ c ∈ r.whenList,
          c.countGte.getD 1 ≤ ((winEvents w).countP (counts c evt.tsNs) : ℕ) := by
  rw [evalRule_satisfies]
  refine and_congr_right fun _ => and_congr_right fun _ => forall₂_congr fun c hc => ?_
  rw [evalWhen_count (hr c hc)]

end UsbTrace.Analysis

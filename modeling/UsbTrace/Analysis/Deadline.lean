import Mathlib.Data.List.Find
import UsbTrace.Interface.Episode

/-!
# Deadline rules against the event history

A tick reports a deadline rule for a device exactly when the rule's alarm is due on the
device's current episode (`deadline_alarm`).  The latch makes that once per episode, and
the entries into `reached_state` bound the reports of the whole run: each entry arms the
rule at most once, and each report disarms it.
-/

set_option autoImplicit false

namespace UsbTrace.Analysis

open UsbTrace.Model UsbTrace.Library UsbTrace.Interface

/-- Timestamps are positive, and a tick is not earlier than anything ingested before it. -/
def WellTimed (ops : List EngineOp) : Prop :=
  (∀ evt clock, EngineOp.ingest evt clock ∈ ops → evt.tsNs ≠ 0) ∧
    ∀ pre nowNs, pre ++ [EngineOp.tick nowNs] <+: ops →
      ∀ evt clock, EngineOp.ingest evt clock ∈ pre → evt.tsNs ≤ nowNs

/-- The device enters state `s` with this operation. -/
def entering (k : DiagDevkey) (s : ℕ) : EngineOp → Bool
  | .ingest evt _ => decide (diagEventKey evt = k) && entersState s evt
  | .tick _ => false

/-- Findings of rule `ri` for device `k`. -/
def ofRule (k : DiagDevkey) (ri : ℕ) (f : Finding) : Bool := decide (f.key = k ∧ f.ridx = ri)

/-! ## The clock -/

/-- A nonnegative number of milliseconds below the range, in nanoseconds. -/
theorem msToNs_toNat {ms : ℤ} (h0 : 0 ≤ ms) (h : ms * 1000000 < 2 ^ 64) :
    ((msToNs ms).toNat : ℤ) = ms * 1000000 := by
  rw [msToNs_toNat_emod, Int.emod_eq_of_lt (by omega) h]

/-- A timestamp is at least `ms` old, in C's unsigned arithmetic. -/
theorem age_not_lt {now ts : UInt64} {ms : ℤ} (h0 : 0 ≤ ms) (h : ms * 1000000 < 2 ^ 64)
    (hts : ts ≤ now) :
    ¬(now - ts < msToNs ms) ↔ (ts.toNat : ℤ) + ms * 1000000 ≤ now.toNat := by
  have hms := msToNs_toNat h0 h
  have hle := UInt64.le_iff_toNat_le.mp hts
  rw [UInt64.lt_iff_toNat_lt, UInt64.toNat_sub_of_le _ _ hts]
  omega

/-! ## One tick -/

/-- With positive timestamps the stamp of a state is the time it was first entered. -/
theorem episodeInv_stamp {ep : Episode} {w : Devwin} (h : EpisodeInv ep w)
    (hpos : ∀ x ∈ ep.events, x.tsNs ≠ 0) {s : ℕ} (hs : s < 9) {x : DiagEvent}
    (hx : ep.events.find? (entersState s) = some x) : w.stateTs s = x.tsNs := by
  have hsame : (ep.events.find? fun y => entersState s y && decide (y.tsNs ≠ 0)) =
      ep.events.find? (entersState s) := by
    refine List.find?_congr fun y hy => ?_
    simp [hpos y hy]
  rw [h.stamp s hs, hsame, hx]
  rfl

/-- **A deadline rule is due for a window** exactly when, on the episode the window stands
for, the first entry into `reached_state` is `timeout_ms` old and `without_state` was not
entered.
SOURCE: engine.c:634-650 -/
theorem deadlineDue_iff {ep : Episode} {w : Devwin} (h : EpisodeInv ep w) {r : DiagRule}
    (htype : r.type = .deadline) (hlo : 0 ≤ r.dlReachedState) (hhi : r.dlReachedState ≤ 8)
    (ht0 : 0 ≤ r.dlTimeoutMs) (ht64 : r.dlTimeoutMs * 1000000 < 2 ^ 64) {nowNs : UInt64}
    (hts : ∀ x ∈ ep.events, x.tsNs ≠ 0 ∧ x.tsNs ≤ nowNs) :
    deadlineDue w r nowNs = true ↔
      (∃ x, ep.events.find? (entersState r.dlReachedState.toNat) = some x ∧
        (x.tsNs.toNat : ℤ) + r.dlTimeoutMs * 1000000 ≤ nowNs.toNat) ∧
      (0 ≤ r.dlWithoutState → r.dlWithoutState ≤ 8 →
        ∀ x ∈ ep.events, entersState r.dlWithoutState.toNat x = false) := by
  have hr9 : r.dlReachedState.toNat < 9 := by omega
  have hrange : ¬(r.dlReachedState < 0 ∨ r.dlReachedState > 8) := by omega
  -- the two bit tests, read on the events
  have hseen : w.seenStates &&& (1#16 <<< r.dlReachedState.toNat) = 0 ↔
      ep.events.find? (entersState r.dlReachedState.toNat) = none := by
    rw [bitTest_eq_zero _ hr9, h.seen _ hr9, List.find?_eq_none, List.any_eq_false]
  have hwithout : (r.dlWithoutState ≥ 0 ∧ r.dlWithoutState ≤ 8 ∧
      w.seenStates &&& (1#16 <<< r.dlWithoutState.toNat) ≠ 0) ↔
      ¬(0 ≤ r.dlWithoutState → r.dlWithoutState ≤ 8 →
        ∀ x ∈ ep.events, entersState r.dlWithoutState.toNat x = false) := by
    by_cases hw : 0 ≤ r.dlWithoutState ∧ r.dlWithoutState ≤ 8
    · have hw9 : r.dlWithoutState.toNat < 9 := by omega
      rw [Ne, bitTest_eq_zero _ hw9, h.seen _ hw9, List.any_eq_false]
      simp [hw.1, hw.2]
    · have hleft : ¬(r.dlWithoutState ≥ 0 ∧ r.dlWithoutState ≤ 8 ∧
          w.seenStates &&& (1#16 <<< r.dlWithoutState.toNat) ≠ 0) := fun hc => hw ⟨hc.1, hc.2.1⟩
      have hright : 0 ≤ r.dlWithoutState → r.dlWithoutState ≤ 8 →
          ∀ x ∈ ep.events, entersState r.dlWithoutState.toNat x = false :=
        fun ha hb => absurd ⟨ha, hb⟩ hw
      exact iff_of_false hleft (not_not_intro hright)
  simp only [deadlineDue, htype, ne_eq, not_true_eq_false, if_false, hrange]
  cases hf : ep.events.find? (entersState r.dlReachedState.toNat) with
  | none => simp [hseen.mpr hf]
  | some x =>
    have hmem := List.mem_of_find?_eq_some hf
    have hstamp := episodeInv_stamp h (fun y hy => (hts y hy).1) hr9 hf
    rw [if_neg (by rw [hseen, hf]; simp), hstamp]
    by_cases hwo : r.dlWithoutState ≥ 0 ∧ r.dlWithoutState ≤ 8 ∧
        w.seenStates &&& (1#16 <<< r.dlWithoutState.toNat) ≠ 0
    · rw [if_pos hwo]
      exact iff_of_false (by simp) fun hc => hwithout.mp hwo hc.2
    · rw [if_neg hwo]
      have hold := age_not_lt ht0 ht64 (hts x hmem).2
      have hclear := not_not.mp fun hc => hwo (hwithout.mpr hc)
      by_cases hage : nowNs - x.tsNs < msToNs r.dlTimeoutMs
      · rw [if_pos hage]
        refine iff_of_false (by simp) fun hc => ?_
        obtain ⟨⟨y, hy, hyold⟩, -⟩ := hc
        obtain rfl := Option.some.inj hy
        exact hold.mpr hyold hage
      · rw [if_neg hage]
        exact iff_of_true rfl ⟨⟨x, rfl, hold.mp hage⟩, hclear⟩

/-- **A tick reports a rule for a device** exactly when its alarm is due on the episode.
SOURCE: engine.c:619-661 -/
theorem tick_reports_iff (rules : List DiagRule) (k : DiagDevkey) {ri : ℕ} {r : DiagRule}
    (hr : rules[ri]? = some r) (htype : r.type = .deadline)
    (hlo : 0 ≤ r.dlReachedState) (hhi : r.dlReachedState ≤ 8)
    (ht0 : 0 ≤ r.dlTimeoutMs) (ht64 : r.dlTimeoutMs * 1000000 < 2 ^ 64)
    {pre : List EngineOp} {nowNs : UInt64}
    (hts : ∀ evt clock, EngineOp.ingest evt clock ∈ pre → evt.tsNs ≠ 0 ∧ evt.tsNs ≤ nowNs)
    (hwin : (devLookup (engineAfter rules pre).devs k).isSome) :
    (∃ f ∈ (engineStep (engineAfter rules pre) (.tick nowNs)).2, f.key = k ∧ f.ridx = ri) ↔
      AlarmDue (episodeAfter rules k pre) r ri nowNs := by
  obtain ⟨w, hw⟩ := Option.isSome_iff_exists.mp hwin
  have hinv := (engineAfter_episodeInv rules k pre).2 w hw
  have hfs := engineStep_findings (engineAfter_keysUnique rules pre) k (.tick nowNs)
  simp only [hw, deviceStep, engineAfter_rules] at hfs
  have hmem : (∃ f ∈ (engineStep (engineAfter rules pre) (.tick nowNs)).2,
      f.key = k ∧ f.ridx = ri) ↔ ∃ f ∈ (tickWin rules nowNs w).2, f.ridx = ri := by
    rw [← hfs]
    simp only [List.mem_filter, ofDevice, decide_eq_true_eq, and_assoc]
  have hevents : ∀ x ∈ (episodeAfter rules k pre).events, x.tsNs ≠ 0 ∧ x.tsNs ≤ nowNs := by
    intro x hx
    obtain ⟨-, clock, hop⟩ := episodeAfter_events_mem rules k pre x hx
    exact hts x clock hop
  have hdue := deadlineDue_iff hinv htype hlo hhi ht0 ht64 hevents
  have hlatch : w.dlFired ri = false ↔ ri ∉ (episodeAfter rules k pre).fired := by
    rw [← hinv.fired ri, Bool.not_eq_true]
  rw [hmem, tickWin_reports rules nowNs w (SlotTable.lookup_some hw).1]
  constructor
  · rintro ⟨r', hr', hd, hl⟩
    obtain rfl := Option.some.inj (hr.symm.trans hr')
    exact ⟨(hdue.mp hd).1, (hdue.mp hd).2, hlatch.mp hl⟩
  · rintro ⟨hfirst, hnone, hnew⟩
    exact ⟨r, hr, hdue.mpr ⟨hfirst, hnone⟩, hlatch.mpr hnew⟩

/-! ## Whole runs -/

/-- A rule is armed in an episode: its state was entered and it was not reported. -/
def armed (ep : Episode) (s ri : ℕ) : Bool :=
  ep.events.any (entersState s) && decide (ri ∉ ep.fired)

/-- One more event arms a rule only by entering its state. -/
theorem armed_note (ep : Episode) (evt : DiagEvent) (s ri : ℕ) :
    (armed (ep.note evt) s ri).toNat ≤ (armed ep s ri).toNat + (entersState s evt).toNat := by
  by_cases hd : isDisconnect evt = true
  · simp [armed, Episode.note, hd]
  · by_cases h0 : entersState 0 evt = true
    · simp [armed, Episode.note, hd, h0]
    · cases hs : entersState s evt <;> cases he : ep.events.any (entersState s) <;>
        by_cases hf : ri ∈ ep.fired <;> simp [armed, Episode.note, hd, h0, hs, he, hf]

/-- What a tick reports is disarmed, the rest is as it was. -/
theorem armed_report (ep : Episode) (s ri : ℕ) (ris : List ℕ) :
    armed { ep with fired := ep.fired ++ ris } s ri = (armed ep s ri && decide (ri ∉ ris)) := by
  cases he : ep.events.any (entersState s) <;> by_cases hf : ri ∈ ep.fired <;>
    by_cases hr : ri ∈ ris <;> simp [armed, he, hf, hr]

/-- An ingest reports no deadline rule. -/
theorem ingestWin_no_deadline {rules : List DiagRule} {ri : ℕ} {r : DiagRule}
    (hr : rules[ri]? = some r) (htype : r.type = .deadline) (w : Devwin) (evt : DiagEvent)
    (clock : ℕ → UInt64) : ∀ f ∈ (ingestWin rules w evt clock).2, f.ridx ≠ ri := by
  intro f hf hri
  rw [ingestWin_snd, List.mem_filterMap] at hf
  obtain ⟨⟨r', i⟩, hp, hcell⟩ := hf
  obtain ⟨⟨t, f'⟩, hbody, rfl⟩ := Option.map_eq_some_iff.mp hcell
  have hi : i = ri := by rw [← hri, (ruleCell_some hbody).2.1]
  subst hi
  obtain rfl := Option.some.inj (hr.symm.trans (List.mem_zipIdx_iff_getElem?.mp hp))
  simp [ruleCell, evalRule, htype] at hbody

/-- The findings of a rule for a device, counted in the device's own output. -/
theorem countP_ofRule (k : DiagDevkey) (ri : ℕ) (fs : List Finding) :
    fs.countP (ofRule k ri) =
      ((fs.filter (ofDevice k)).map Finding.ridx).count ri := by
  rw [List.count, List.countP_map, List.countP_filter]
  refine List.countP_congr fun f _ => ?_
  simp [ofRule, ofDevice, and_comm]

/-- A rule a tick reports had its state entered in the episode, and was not reported. -/
theorem tick_reported {rules : List DiagRule} {ri : ℕ} {ep : Episode} {w : Devwin}
    (hw : w.used = true) (hinv : EpisodeInv ep w) {nowNs : UInt64}
    (hrep : ri ∈ (tickWin rules nowNs w).2.map Finding.ridx) :
    ∃ r, rules[ri]? = some r ∧ armed ep r.dlReachedState.toNat ri = true := by
  obtain ⟨r, hr, hdue, hlatch⟩ :=
    (tickWin_reports rules nowNs w hw ri).mp (List.mem_map.mp hrep)
  refine ⟨r, hr, ?_⟩
  have hrange : ¬(r.dlReachedState < 0 ∨ r.dlReachedState > 8) := by
    intro h
    simp [deadlineDue, h] at hdue
  have hr9 : r.dlReachedState.toNat < 9 := by omega
  have hbit : w.seenStates.getLsbD r.dlReachedState.toNat = true := by
    by_contra hb
    have hz := (bitTest_eq_zero w.seenStates hr9).mpr (by simpa using hb)
    simp [deadlineDue, hz] at hdue
  have hnew : ri ∉ ep.fired := by
    rw [← hinv.fired ri, hlatch]
    simp
  simp [armed, ← hinv.seen _ hr9, hbit, hnew]

/-- **One operation pays for its reports**: a report disarms the rule, and only an entry
into `reached_state` arms it. -/
theorem step_reports_le {rules : List DiagRule} {k : DiagDevkey} {ri : ℕ} {r : DiagRule}
    (hr : rules[ri]? = some r) (htype : r.type = .deadline)
    (ops : List EngineOp) (op : EngineOp) :
    (engineStep (engineAfter rules ops) op).2.countP (ofRule k ri) +
        (armed (episodeAfter rules k (ops ++ [op])) r.dlReachedState.toNat ri).toNat ≤
      (armed (episodeAfter rules k ops) r.dlReachedState.toNat ri).toNat +
        (entering k r.dlReachedState.toNat op).toNat := by
  have hep : episodeAfter rules k (ops ++ [op]) =
      episodeStep k (engineAfter rules ops) (episodeAfter rules k ops) op :=
    history_concat ..
  have hfs := engineStep_findings (engineAfter_keysUnique rules ops) k op
  rw [engineAfter_rules] at hfs
  rw [countP_ofRule, hep, hfs]
  cases op with
  | ingest evt clock =>
    by_cases hk : diagEventKey evt = k
    · have hnone : (((ingestWin rules ((devLookup (engineAfter rules ops).devs k).getD
          (freshWin k)) evt clock).2).map Finding.ridx).count ri = 0 := by
        rw [List.count_eq_zero, List.mem_map]
        rintro ⟨f, hf, hfi⟩
        exact ingestWin_no_deadline hr htype _ evt clock f hf hfi
      have hfresh : armed {} r.dlReachedState.toNat ri = false := rfl
      simp only [deviceStep, hk, if_true, hnone, episodeStep, entering, decide_true,
        Bool.true_and, Nat.zero_add]
      split
      · exact armed_note _ evt _ ri
      · have h := armed_note {} evt r.dlReachedState.toNat ri
        rw [hfresh] at h
        exact h.trans (by simp)
    · simp [deviceStep, hk, episodeStep, entering]
  | tick nowNs =>
    have htick : (diagEngineTick (engineAfter rules ops) nowNs).2.filter (ofDevice k) = _ := hfs
    simp only [episodeStep, entering, Bool.toNat_false, Nat.add_zero, htick, armed_report]
    cases hw : devLookup (engineAfter rules ops).devs k with
    | none => simp [deviceStep]
    | some w =>
      simp only [deviceStep]
      by_cases hrep : ri ∈ (tickWin rules nowNs w).2.map Finding.ridx
      · have hone : ((tickWin rules nowNs w).2.map Finding.ridx).count ri ≤ 1 :=
          (List.nodup_iff_count_le_one.mp (tickWin_ridx_nodup rules nowNs w)) ri
        obtain ⟨r', hr', harmed⟩ := tick_reported (SlotTable.lookup_some hw).1
          ((engineAfter_episodeInv rules k ops).2 w hw) hrep
        obtain rfl := Option.some.inj (hr.symm.trans hr')
        simpa [harmed, hrep] using hone
      · rw [List.count_eq_zero.mpr hrep]
        simp [hrep]

/-- **Reports of a rule never outnumber the entries into its state**, over a whole run. -/
theorem reports_le_entries {rules : List DiagRule} (k : DiagDevkey) {ri : ℕ} {r : DiagRule}
    (hr : rules[ri]? = some r) (htype : r.type = .deadline) (ops : List EngineOp) :
    (engineFindings rules ops).countP (ofRule k ri) +
        (armed (episodeAfter rules k ops) r.dlReachedState.toNat ri).toNat ≤
      ops.countP (entering k r.dlReachedState.toNat) := by
  induction ops using List.reverseRecOn with
  | nil => simp [engineFindings, episodeAfter, history, armed]
  | append_singleton ops op ih =>
    have hstep := step_reports_le (k := k) hr htype ops op
    have hone : List.countP (entering k r.dlReachedState.toNat) [op] =
        (entering k r.dlReachedState.toNat op).toNat := by
      cases h : entering k r.dlReachedState.toNat op <;> simp [h]
    rw [engineFindings, outputs_concat, List.countP_append, List.countP_append, hone]
    simp only [engineFindings] at ih
    simp only [engineAfter] at hstep
    omega

/-- **Deadline alarms are exactly those of the event history.**  In a well-timed run, a
tick reports a deadline rule for a device with a window iff the rule's alarm is due on the
device's episode; the rule is reported at most once per episode, and never more often than
its state was entered.
SOURCE: engine.c:555-586, 619-661 -/
theorem deadline_alarm (rules : List DiagRule) (k : DiagDevkey) (ri : ℕ) (r : DiagRule)
    (hr : rules[ri]? = some r) (htype : r.type = .deadline)
    (hlo : 0 ≤ r.dlReachedState) (hhi : r.dlReachedState ≤ 8)
    (ht0 : 0 ≤ r.dlTimeoutMs) (ht64 : r.dlTimeoutMs * 1000000 < 2 ^ 64)
    (ops : List EngineOp) (hrun : WellTimed ops) :
    (∀ pre nowNs, pre ++ [EngineOp.tick nowNs] <+: ops →
      (devLookup (engineAfter rules pre).devs k).isSome →
        ((∃ f ∈ (engineStep (engineAfter rules pre) (.tick nowNs)).2,
            f.key = k ∧ f.ridx = ri) ↔
          AlarmDue (episodeAfter rules k pre) r ri nowNs)) ∧
      (episodeAfter rules k ops).fired.count ri ≤ 1 ∧
      (engineFindings rules ops).countP (ofRule k ri) ≤
        ops.countP (entering k r.dlReachedState.toNat) := by
  refine ⟨fun pre nowNs hpre hwin => ?_, ?_, ?_⟩
  · refine tick_reports_iff rules k hr htype hlo hhi ht0 ht64 (fun evt clock hop => ?_) hwin
    have hmem : EngineOp.ingest evt clock ∈ ops :=
      hpre.subset (List.mem_append_left _ hop)
    exact ⟨hrun.1 evt clock hmem, hrun.2 pre nowNs hpre evt clock hop⟩
  · exact List.nodup_iff_count_le_one.mp (engineAfter_episodeInv rules k ops).1 ri
  · have h := reports_le_entries k hr htype ops
    omega

/-- A device that stops at ADDRESS, asked about 1.5 s and 3.2 s later. -/
theorem deadline_alarm_sample :
    let r : DiagRule := { type := .deadline, dlReachedState := 6, dlWithoutState := 7,
                          dlTimeoutMs := 3000 }
    let evt : DiagEvent := { kind := evtEnum, tsNs := 1000000000, busnum := 1, devnum := 2,
                             newState := 6 }
    let ops : List EngineOp := [.ingest evt (fun _ => 1), .tick 2500000000, .tick 4200000000]
    (∀ pre nowNs, pre ++ [EngineOp.tick nowNs] <+: ops →
      (devLookup (engineAfter [r] pre).devs ⟨1, 2⟩).isSome →
        ((∃ f ∈ (engineStep (engineAfter [r] pre) (.tick nowNs)).2,
            f.key = ⟨1, 2⟩ ∧ f.ridx = 0) ↔
          AlarmDue (episodeAfter [r] ⟨1, 2⟩ pre) r 0 nowNs)) ∧
      (episodeAfter [r] ⟨1, 2⟩ ops).fired.count 0 ≤ 1 ∧
      (engineFindings [r] ops).countP (ofRule ⟨1, 2⟩ 0) ≤ ops.countP (entering ⟨1, 2⟩ 6) := by
  intro r evt ops
  refine deadline_alarm [r] ⟨1, 2⟩ 0 r rfl rfl (by decide) (by decide) (by decide) (by decide)
    ops ⟨?_, ?_⟩
  · intro e clock he
    simp only [ops, List.mem_cons, EngineOp.ingest.injEq, reduceCtorEq, List.not_mem_nil,
      or_false] at he
    rw [he.1]
    decide
  · intro pre nowNs hpre e clock he
    have hmem : EngineOp.ingest e clock ∈ ops := hpre.subset (List.mem_append_left _ he)
    have htick : EngineOp.tick nowNs ∈ ops :=
      hpre.subset (List.mem_append_right _ (List.mem_singleton_self _))
    simp only [ops, List.mem_cons, EngineOp.ingest.injEq, EngineOp.tick.injEq, reduceCtorEq,
      List.not_mem_nil, or_false, false_or] at hmem htick
    rw [hmem.1]
    rcases htick with rfl | rfl <;> decide

end UsbTrace.Analysis

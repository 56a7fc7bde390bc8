import UsbTrace.Analysis.Deadline
import UsbTrace.Analysis.Isolation

/-!
# Stalled devices and the retention time

A device that stalls in `reached_state` sends nothing more, so the tick that would report
it finds a window last seen when the stall began.  While the ticks find it no more than
10 s idle the alarm is kept, and where the device enters the state once it comes in no other
run (`alarm_kept`); a `timeout_ms` within the retention time never meets the other case
(`staysFresh_of_timeout_le`), a longer one loses the alarm with the window (`alarm_lost`).
-/

set_option autoImplicit false

namespace UsbTrace.Analysis

open UsbTrace.Model UsbTrace.Library UsbTrace.Interface

/-- The operation recycles the slot of device `k`. -/
def LosesSlot (k : DiagDevkey) (e : DiagEngine) (op : EngineOp) : Prop :=
  Recycles e.devs op ∧ devLookup e.devs k ≠ none ∧ devLookup (engineStep e op).1.devs k = none

/-- The operation leaves device `k` its window, if it has one. -/
def KeepsWindow (k : DiagDevkey) (e : DiagEngine) (op : EngineOp) : Prop :=
  devLookup e.devs k ≠ none → devLookup (engineStep e op).1.devs k ≠ none

/-- The event begins nothing new for rule `r`: it enters neither `without_state` nor
NOTATTACHED and is no disconnect. -/
def Uneventful (r : DiagRule) (x : DiagEvent) : Prop :=
  entersState 0 x = false ∧ isDisconnect x = false ∧
    (0 ≤ r.dlWithoutState → r.dlWithoutState ≤ 8 →
      entersState r.dlWithoutState.toNat x = false)

/-- After `pre`, device `k` enters the state of rule `r` with `evt`, for the first time in
its window.  Nothing in `post` ends the stall or takes the slot away, and the tick `nowNs`
after it is the first at which the stall is `timeout_ms` old. -/
structure StalledRun (rules : List DiagRule) (k : DiagDevkey) (r : DiagRule)
    (pre : List EngineOp) (evt : DiagEvent) (clock : ℕ → UInt64) (post : List EngineOp)
    (nowNs : UInt64) : Prop where
  own : diagEventKey evt = k
  enters : entersState r.dlReachedState.toNat evt = true
  first : devLookup (engineAfter rules pre).devs k ≠ none →
    ∀ x ∈ (episodeAfter rules k pre).window, entersState r.dlReachedState.toNat x = false
  quiet : ∀ x c, EngineOp.ingest x c ∈ post → diagEventKey x = k → Uneventful r x
  kept : EveryStep engineStep (fun e op => ¬LosesSlot k e op)
    (engineAfter rules (pre ++ [.ingest evt clock])) post
  early : ∀ t, EngineOp.tick t ∈ post →
    (t.toNat : ℤ) < evt.tsNs.toNat + r.dlTimeoutMs * 1000000
  due : (evt.tsNs.toNat : ℤ) + r.dlTimeoutMs * 1000000 ≤ nowNs.toNat

/-- Rule `ri` is reported for device `k` after the entry `evt`, by `nowNs` at the latest. -/
def AlarmEmitted (rules : List DiagRule) (k : DiagDevkey) (ri : ℕ) (pre : List EngineOp)
    (evt : DiagEvent) (clock : ℕ → UInt64) (post : List EngineOp) (nowNs : UInt64) : Prop :=
  ∃ f ∈ outputs engineStep (engineAfter rules (pre ++ [.ingest evt clock]))
    (post ++ [.tick nowNs]), f.key = k ∧ f.ridx = ri

/-- Every tick comes at most 10 s after the device's latest event, `last` to begin with. -/
def StaysFresh (k : DiagDevkey) : UInt64 → List EngineOp → Prop
  | _, [] => True
  | last, .ingest x _ :: ops => StaysFresh k (if diagEventKey x = k then x.tsNs else last) ops
  | last, .tick t :: ops => t - last ≤ retentionNs ∧ StaysFresh k last ops

/-- Nothing the device sends enters the state of rule `r`. -/
def EntersNoMore (k : DiagDevkey) (r : DiagRule) (ops : List EngineOp) : Prop :=
  ∀ x c, EngineOp.ingest x c ∈ ops → diagEventKey x = k →
    entersState r.dlReachedState.toNat x = false

theorem EntersNoMore.tail {k : DiagDevkey} {r : DiagRule} {op : EngineOp} {ops : List EngineOp}
    (h : EntersNoMore k r (op :: ops)) : EntersNoMore k r ops :=
  fun x c hx => h x c (List.mem_cons_of_mem _ hx)

/-- Rule `ri` can still be reported in the episode: `without_state` has not been entered and
the rule has not been reported. -/
structure Rearmed (ep : Episode) (r : DiagRule) (ri : ℕ) : Prop where
  clear : 0 ≤ r.dlWithoutState → r.dlWithoutState ≤ 8 →
    ∀ x ∈ ep.events, entersState r.dlWithoutState.toNat x = false
  unlatched : ri ∉ ep.fired

/-! ## The window of a stalled device -/

/-- The window of a device that waits in `reached_state` since `t0`. -/
structure Waiting (r : DiagRule) (t0 : UInt64) (w : Devwin) : Prop where
  seen : w.seenStates.getLsbD r.dlReachedState.toNat = true
  clear : 0 ≤ r.dlWithoutState → r.dlWithoutState ≤ 8 →
    w.seenStates.getLsbD r.dlWithoutState.toNat = false
  stamp : w.stateTs r.dlReachedState.toNat = t0

/-- An uneventful event of the device keeps it waiting, and sets no latch. -/
theorem Waiting.ingestWin {r : DiagRule} {t0 : UInt64} {w : Devwin}
    (h : Waiting r t0 w) (hhi : r.dlReachedState ≤ 8) {x : DiagEvent}
    (hstamp : t0 ≠ 0 ∨ entersState r.dlReachedState.toNat x = false)
    (hx : Uneventful r x) (rules : List DiagRule) (clock : ℕ → UInt64) :
    Waiting r t0 (ingestWin rules w x clock).1 ∧
      (ingestWin rules w x clock).1.dlFired = w.dlFired := by
  obtain ⟨h0, hdisc, hwithout⟩ := hx
  have hr9 : r.dlReachedState.toNat < 9 := by omega
  obtain ⟨lf, hw⟩ := ingestWin_fst rules w x clock
  rw [hw]
  refine ⟨⟨?_, fun ha hb => ?_, ?_⟩, ?_⟩
  · show (noteEvent w x).seenStates.getLsbD _ = true
    rw [noteEvent, noteState_seenStates _ _ hr9]
    simp [hdisc, h0, winPush, h.seen]
  · show (noteEvent w x).seenStates.getLsbD _ = false
    rw [noteEvent, noteState_seenStates _ _ (by omega)]
    simp [hdisc, h0, winPush, h.clear ha hb, hwithout ha hb]
  · show (noteEvent w x).stateTs _ = t0
    have hkept : ¬(entersState r.dlReachedState.toNat x = true ∧ t0 = 0) := by
      rintro ⟨henters, rfl⟩
      rcases hstamp with hne | hno
      · exact hne rfl
      · rw [hno] at henters
        cases henters
    rw [noteEvent, noteState_stateTs _ _ hr9]
    simp only [hdisc, h0, winPush, h.stamp, Bool.false_eq_true, if_false, if_neg hkept]
  · show (noteEvent w x).dlFired = w.dlFired
    rw [noteEvent, noteState_dlFired]
    simp [hdisc, h0, winPush]

/-- A tick leaves it waiting. -/
theorem Waiting.tickWin {r : DiagRule} {t0 : UInt64} {w : Devwin} (h : Waiting r t0 w)
    (hw : w.used = true) (rules : List DiagRule) (t : UInt64) :
    Waiting r t0 (tickWin rules t w).1 := by
  rw [tickWin_eq rules t w hw]
  exact ⟨h.seen, h.clear, h.stamp⟩

/-- A rule is due for a device that has waited `timeout_ms`. -/
theorem Waiting.due {r : DiagRule} {t0 : UInt64} {w : Devwin} (h : Waiting r t0 w)
    (htype : r.type = .deadline) (hlo : 0 ≤ r.dlReachedState) (hhi : r.dlReachedState ≤ 8)
    (ht0 : 0 ≤ r.dlTimeoutMs) (ht64 : r.dlTimeoutMs * 1000000 < 2 ^ 64) {nowNs : UInt64}
    (hnow : (t0.toNat : ℤ) + r.dlTimeoutMs * 1000000 ≤ nowNs.toNat) :
    deadlineDue w r nowNs = true := by
  have hr9 : r.dlReachedState.toNat < 9 := by omega
  have hrange : ¬(r.dlReachedState < 0 ∨ r.dlReachedState > 8) := by omega
  have hseen : ¬(w.seenStates &&& (1#16 <<< r.dlReachedState.toNat) = 0) := by
    rw [bitTest_eq_zero _ hr9, h.seen]
    simp
  have hclear : ¬(r.dlWithoutState ≥ 0 ∧ r.dlWithoutState ≤ 8 ∧
      w.seenStates &&& (1#16 <<< r.dlWithoutState.toNat) ≠ 0) := by
    rintro ⟨ha, hb, hbit⟩
    exact hbit ((bitTest_eq_zero _ (by omega)).mpr (h.clear ha hb))
  have hle : t0 ≤ nowNs := UInt64.le_iff_toNat_le.mpr (by omega)
  have hage := (age_not_lt ht0 ht64 hle).mpr hnow
  simp only [deadlineDue, htype, ne_eq, not_true_eq_false, if_false, if_neg hrange, if_neg hseen,
    if_neg hclear, h.stamp, if_neg hage]

/-! ## The run after the entry -/

/-- What a tick reports for a device's window it prints. -/
theorem tick_prints {e : DiagEngine} (hu : KeysUnique e.devs) {k : DiagDevkey} {w : Devwin}
    (hw : devLookup e.devs k = some w) {t : UInt64} {ri : ℕ}
    (h : ∃ f ∈ (tickWin e.rules t w).2, f.ridx = ri) :
    ∃ f ∈ (engineStep e (.tick t)).2, f.key = k ∧ f.ridx = ri := by
  obtain ⟨f, hf, hfi⟩ := h
  have hfs := engineStep_findings hu k (.tick t)
  simp only [deviceStep, hw] at hfs
  rw [← hfs, List.mem_filter] at hf
  exact ⟨f, hf.1, by simpa [ofDevice] using hf.2, hfi⟩

/-- The window a device has after an operation that keeps it. -/
theorem keepsWindow_lookup {k : DiagDevkey} {e : DiagEngine} (hu : KeysUnique e.devs) {w : Devwin}
    (hw : devLookup e.devs k = some w) {op : EngineOp} (hkeep : KeepsWindow k e op) :
    ∃ w', devLookup (engineStep e op).1.devs k = some w' ∧
      (deviceStep e.rules k (some w) op).1 = some w' := by
  obtain ⟨w', hw'⟩ := Option.ne_none_iff_exists'.mp (hkeep (by simp [hw]))
  refine ⟨w', hw', ?_⟩
  rcases engineStep_lookup hu k op with hl | ⟨-, -, hl⟩
  · rw [← hw, ← hl, hw']
  · rw [hl] at hw'
    cases hw'

/-- While the ticks find its window fresh, a device keeps it. -/
theorem staysFresh_keepsWindow {k : DiagDevkey} (post : List EngineOp) {e : DiagEngine}
    (hu : KeysUnique e.devs) {w : Devwin} (hw : devLookup e.devs k = some w) {last : UInt64}
    (hlast : w.lastSeenNs = last) (hfresh : StaysFresh k last post)
    (hkept : EveryStep engineStep (fun e op => ¬LosesSlot k e op) e post) :
    EveryStep engineStep (KeepsWindow k) e post := by
  induction post generalizing e w last with
  | nil => trivial
  | cons op post ih =>
    have hu' := engineStep_keysUnique e op hu
    obtain ⟨hkeep, hkept'⟩ := hkept
    have hlookup : devLookup (engineStep e op).1.devs k =
        (deviceStep e.rules k (some w) op).1 := by
      rcases engineStep_lookup hu k op with hl | hlost
      · rw [hl, hw]
      · exact absurd hlost hkeep
    have hnext : ∀ {w' : Devwin} {last' : UInt64},
        (deviceStep e.rules k (some w) op).1 = some w' → w'.lastSeenNs = last' →
        StaysFresh k last' post → EveryStep engineStep (KeepsWindow k) e (op :: post) := by
      intro w' last' hw' hlast' hfresh'
      rw [hw'] at hlookup
      refine ⟨fun _ => ?_, ih hu' hlookup hlast' hfresh' hkept'⟩
      rw [hlookup]
      exact Option.some_ne_none w'
    cases op with
    | ingest x clock =>
      by_cases hk : diagEventKey x = k
      · simp only [StaysFresh, if_pos hk] at hfresh
        have hown : (deviceStep e.rules k (some w) (.ingest x clock)).1 =
            some (ingestWin e.rules w x clock).1 := by
          simp only [deviceStep, if_pos hk, Option.getD_some]
        exact hnext hown (ingestWin_lastSeenNs ..) hfresh
      · simp only [StaysFresh, if_neg hk] at hfresh
        exact hnext (by simp only [deviceStep, if_neg hk]) hlast hfresh
    | tick t =>
      have hused := (SlotTable.lookup_some hw).1
      have hstill : ¬(t - w.lastSeenNs > retentionNs) := by
        rw [hlast, gt_iff_lt, UInt64.not_lt]
        exact hfresh.1
      have hused' : (tickWin e.rules t w).1.used = true := by
        rw [tickWin_eq e.rules t w hused]
        simp only [decide_eq_false hstill, Bool.not_false]
      refine hnext (if_pos hused') ?_ hfresh.2
      rw [tickWin_eq e.rules t w hused]
      exact hlast

/-- **A waiting device is reported**: while it keeps its window it waits on with the rule not
latched, or the rule has just been reported. -/
theorem waiting_reports {k : DiagDevkey} {ri : ℕ} {r : DiagRule} (htype : r.type = .deadline)
    (hlo : 0 ≤ r.dlReachedState) (hhi : r.dlReachedState ≤ 8)
    (ht0 : 0 ≤ r.dlTimeoutMs) (ht64 : r.dlTimeoutMs * 1000000 < 2 ^ 64)
    {t0 nowNs : UInt64} (hnow : (t0.toNat : ℤ) + r.dlTimeoutMs * 1000000 ≤ nowNs.toNat)
    (post : List EngineOp) (hstamp : t0 ≠ 0 ∨ EntersNoMore k r post)
    {e : DiagEngine} (hu : KeysUnique e.devs) (hr : e.rules[ri]? = some r) {w : Devwin}
    (hw : devLookup e.devs k = some w) (hwait : Waiting r t0 w) (hlatch : w.dlFired ri = false)
    (hquiet : ∀ x c, EngineOp.ingest x c ∈ post → diagEventKey x = k → Uneventful r x)
    (hkeeps : EveryStep engineStep (KeepsWindow k) e post) :
    ∃ f ∈ outputs engineStep e (post ++ [.tick nowNs]), f.key = k ∧ f.ridx = ri := by
  induction post generalizing e w with
  | nil =>
    have hdue := hwait.due htype hlo hhi ht0 ht64 hnow
    have hrep := (tickWin_reports e.rules nowNs w (SlotTable.lookup_some hw).1 ri).mpr
      ⟨r, hr, hdue, hlatch⟩
    simpa using tick_prints hu hw hrep
  | cons op post ih =>
    have hu' := engineStep_keysUnique e op hu
    have hr' : (engineStep e op).1.rules[ri]? = some r := by
      rw [engineStep_rules]
      exact hr
    obtain ⟨hkeep, hkeeps'⟩ := hkeeps
    obtain ⟨w', hw', hown⟩ := keepsWindow_lookup hu hw hkeep
    have hquiet' : ∀ x c, EngineOp.ingest x c ∈ post → diagEventKey x = k → Uneventful r x :=
      fun x c hx => hquiet x c (List.mem_cons_of_mem _ hx)
    have hstamp' : t0 ≠ 0 ∨ EntersNoMore k r post :=
      hstamp.imp_right EntersNoMore.tail
    simp only [List.cons_append, outputs_cons, List.mem_append, or_and_right, exists_or]
    cases op with
    | ingest x clock =>
      right
      by_cases hk : diagEventKey x = k
      · obtain ⟨hwait', hdl⟩ := hwait.ingestWin hhi
          (hstamp.imp_right fun hno => hno x clock (List.mem_cons_self ..) hk)
          (hquiet x clock (List.mem_cons_self ..) hk) e.rules clock
        simp only [deviceStep, if_pos hk, Option.getD_some, Option.some.injEq] at hown
        rw [hown] at hwait' hdl
        exact ih hstamp' hu' hr' hw' hwait' (by rw [hdl]; exact hlatch) hquiet' hkeeps'
      · simp only [deviceStep, if_neg hk, Option.some.injEq] at hown
        rw [hown] at hwait hlatch
        exact ih hstamp' hu' hr' hw' hwait hlatch hquiet' hkeeps'
    | tick t =>
      have hused := (SlotTable.lookup_some hw).1
      have hwait' := hwait.tickWin hused e.rules t
      have hkept : (tickWin e.rules t w).1 = w' := by
        simp only [deviceStep] at hown
        split at hown
        · exact Option.some.inj hown
        · cases hown
      by_cases hrep : ∃ f ∈ (tickWin e.rules t w).2, f.ridx = ri
      · left
        exact tick_prints hu hw hrep
      · right
        have hstill : (tickWin e.rules t w).1.dlFired ri = false := by
          rw [← Bool.not_eq_true, tickWin_dlFired e.rules t w hused ri]
          rintro (hl | hl)
          · rw [hlatch] at hl
            cases hl
          · exact hrep hl
        rw [hkept] at hwait' hstill
        exact ih hstamp' hu' hr' hw' hwait' hstill hquiet' hkeeps'

/-- A rule reported in an episode had its state entered in that episode. -/
theorem episodeAfter_fired (rules : List DiagRule) (k : DiagDevkey) (ops : List EngineOp) :
    ∀ ri ∈ (episodeAfter rules k ops).fired, ∃ r, rules[ri]? = some r ∧
      (episodeAfter rules k ops).events.any (entersState r.dlReachedState.toNat) = true := by
  induction ops using List.reverseRecOn with
  | nil => simp [episodeAfter, history]
  | append_singleton ops op ih =>
    have hep : episodeAfter rules k (ops ++ [op]) =
        episodeStep k (engineAfter rules ops) (episodeAfter rules k ops) op :=
      history_concat ..
    intro ri hri
    rw [hep] at hri ⊢
    cases op with
    | ingest evt clock =>
      by_cases hk : diagEventKey evt = k
      · simp only [episodeStep, if_pos hk] at hri ⊢
        by_cases hnew : isDisconnect evt = true ∨ entersState 0 evt = true
        · simp [Episode.note, hnew] at hri
        · obtain ⟨hd, h0⟩ := not_or.mp hnew
          cases hsome : (devLookup (engineAfter rules ops).devs k).isSome with
          | false => simp [Episode.note, hsome] at hri
          | true =>
            simp only [Episode.note, hsome, if_true, if_neg hnew] at hri
            obtain ⟨r, hr, hany⟩ := ih ri hri
            refine ⟨r, hr, ?_⟩
            simp [Episode.note, hd, h0, hany]
      · simp only [episodeStep, if_neg hk] at hri ⊢
        exact ih ri hri
    | tick nowNs =>
      simp only [episodeStep, List.mem_append] at hri ⊢
      rcases hri with hri | hri
      · exact ih ri hri
      · have hfs := engineStep_findings (engineAfter_keysUnique rules ops) k (.tick nowNs)
        simp only [engineStep] at hfs
        rw [hfs, engineAfter_rules] at hri
        cases hw : devLookup (engineAfter rules ops).devs k with
        | none => simp [deviceStep, hw] at hri
        | some w =>
          simp only [deviceStep, hw] at hri
          obtain ⟨r, hr, harmed⟩ := tick_reported (SlotTable.lookup_some hw).1
            ((engineAfter_episodeInv rules k ops).2 w hw) hri
          simp only [armed, Bool.and_eq_true] at harmed
          exact ⟨r, hr, harmed.1⟩

/-- The window of a device after one of its events. -/
theorem engineAfter_own {k : DiagDevkey} {evt : DiagEvent} (hown : diagEventKey evt = k)
    (rules : List DiagRule) (pre : List EngineOp) (clock : ℕ → UInt64) :
    ∃ w, devLookup (engineAfter rules (pre ++ [.ingest evt clock])).devs k = some w ∧
      w.lastSeenNs = evt.tsNs := by
  have hstep := engineStep_lookup_own (engineAfter_keysUnique rules pre) evt clock
  rw [hown, engineAfter_rules, ← engineAfter_concat] at hstep
  exact ⟨_, hstep, ingestWin_lastSeenNs ..⟩

/-- The episode of a device after one of its events. -/
theorem episodeAfter_own {k : DiagDevkey} {evt : DiagEvent} (hown : diagEventKey evt = k)
    (rules : List DiagRule) (pre : List EngineOp) (clock : ℕ → UInt64) :
    episodeAfter rules k (pre ++ [.ingest evt clock]) =
      (if (devLookup (engineAfter rules pre).devs k).isSome then episodeAfter rules k pre
        else {}).note evt := by
  rw [episodeAfter, history_concat]
  exact if_pos hown

/-- An event that enters a state belongs to the episode it is noted in. -/
theorem Episode.mem_note {s : ℕ} {evt : DiagEvent} (henters : entersState s evt = true)
    (ep : Episode) : evt ∈ (ep.note evt).events := by
  have hstate : isDisconnect evt = false := by
    simp only [entersState, decide_eq_true_eq] at henters
    exact isDisconnect_of_state henters.1
  simp only [Episode.note, hstate, Bool.false_eq_true, if_false]
  split
  · exact List.mem_singleton_self evt
  · exact List.mem_append_right _ (List.mem_singleton_self evt)

theorem entry_mem {k : DiagDevkey} {s : ℕ} {evt : DiagEvent} (hown : diagEventKey evt = k)
    (henters : entersState s evt = true) (rules : List DiagRule) (pre : List EngineOp)
    (clock : ℕ → UInt64) : evt ∈ (episodeAfter rules k (pre ++ [.ingest evt clock])).events := by
  rw [episodeAfter_own hown]
  exact Episode.mem_note henters _

/-- **The entry into `reached_state` leaves the device waiting** in an episode in which the
rule can still be reported, since an entry no later than this one, which has a timestamp if this
one has. -/
theorem entry_waiting {rules : List DiagRule} {k : DiagDevkey} {ri : ℕ} {r : DiagRule}
    (hlo : 0 ≤ r.dlReachedState) (hhi : r.dlReachedState ≤ 8)
    {pre : List EngineOp} {evt : DiagEvent} {clock : ℕ → UInt64} (hown : diagEventKey evt = k)
    (henters : entersState r.dlReachedState.toNat evt = true)
    (hinOrder : ∀ x ∈ (episodeAfter rules k (pre ++ [.ingest evt clock])).events,
      entersState r.dlReachedState.toNat x = true → x.tsNs ≤ evt.tsNs)
    (hrearmed : Rearmed (episodeAfter rules k (pre ++ [.ingest evt clock])) r ri) :
    ∃ w t0, devLookup (engineAfter rules (pre ++ [.ingest evt clock])).devs k = some w ∧
      w.lastSeenNs = evt.tsNs ∧ (evt.tsNs ≠ 0 → t0 ≠ 0) ∧ t0 ≤ evt.tsNs ∧ Waiting r t0 w ∧
      w.dlFired ri = false := by
  have hr9 : r.dlReachedState.toNat < 9 := by omega
  obtain ⟨w, hlookup, hlast⟩ := engineAfter_own hown rules pre clock
  have hrun := engineAfter_episodeInv rules k (pre ++ [.ingest evt clock])
  have hinv := hrun.2 w hlookup
  have hmem := entry_mem hown henters rules pre clock
  -- the stamp is that of the first entry of the episode that has a timestamp
  have hstamp : (evt.tsNs ≠ 0 → w.stateTs r.dlReachedState.toNat ≠ 0) ∧
      w.stateTs r.dlReachedState.toNat ≤ evt.tsNs := by
    rw [hinv.stamp _ hr9]
    cases hx : (episodeAfter rules k (pre ++ [.ingest evt clock])).events.find?
        fun x => entersState r.dlReachedState.toNat x && decide (x.tsNs ≠ 0) with
    | none =>
      refine ⟨fun hpos => ?_, UInt64.le_iff_toNat_le.mpr (Nat.zero_le _)⟩
      have hnot := List.find?_eq_none.mp hx evt hmem
      simp [henters, hpos] at hnot
    | some x =>
      have hfound := List.find?_some hx
      simp only [Bool.and_eq_true, decide_eq_true_eq] at hfound
      exact ⟨fun _ => hfound.2, hinOrder x (List.mem_of_find?_eq_some hx) hfound.1⟩
  refine ⟨w, _, hlookup, hlast, hstamp.1, hstamp.2, ⟨?_, ?_, rfl⟩, ?_⟩
  · rw [hinv.seen _ hr9]
    exact List.any_eq_true.mpr ⟨evt, hmem, henters⟩
  · intro ha hb
    rw [hinv.seen _ (by omega), List.any_eq_false]
    intro y hy
    rw [hrearmed.clear ha hb y hy]
    exact Bool.false_ne_true
  · rw [← Bool.not_eq_true, hinv.fired ri]
    exact hrearmed.unlatched

/-- The first entry in the device's window is the first of its episode, in which the rule
has not been reported. -/
theorem StalledRun.first_entry {rules : List DiagRule} {k : DiagDevkey} {ri : ℕ} {r : DiagRule}
    (hr : rules[ri]? = some r) {pre : List EngineOp} {evt : DiagEvent} {clock : ℕ → UInt64}
    {post : List EngineOp} {nowNs : UInt64} (h : StalledRun rules k r pre evt clock post nowNs) :
    (∀ x ∈ (episodeAfter rules k (pre ++ [.ingest evt clock])).events,
      entersState r.dlReachedState.toNat x = true → x = evt) ∧
      ri ∉ (episodeAfter rules k (pre ++ [.ingest evt clock])).fired := by
  have hbefore : ∀ x ∈ (if (devLookup (engineAfter rules pre).devs k).isSome then
      episodeAfter rules k pre else {}).events, entersState r.dlReachedState.toNat x = false := by
    intro x hx
    cases hl : devLookup (engineAfter rules pre).devs k with
    | none => simp [hl] at hx
    | some w =>
      simp only [hl, Option.isSome_some, if_true] at hx
      have hsub := ((engineAfter_episodeInv rules k pre).2 w hl).sub x hx
      exact h.first (by simp [hl]) x hsub
  rw [episodeAfter_own h.own]
  constructor
  · intro x hx hxs
    simp only [Episode.note] at hx
    split at hx
    · cases hx
    · split at hx
      · exact List.mem_singleton.mp hx
      · rcases List.mem_append.mp hx with hx | hx
        · rw [hbefore x hx] at hxs
          cases hxs
        · exact List.mem_singleton.mp hx
  · -- a report would mean an earlier entry in this episode
    intro hfired
    simp only [Episode.note] at hfired
    split at hfired
    · cases hfired
    · cases hl : devLookup (engineAfter rules pre).devs k with
      | none => simp [hl] at hfired
      | some w =>
        simp only [hl, Option.isSome_some, if_true] at hfired hbefore
        obtain ⟨r', hr', hany⟩ := episodeAfter_fired rules k pre ri hfired
        obtain rfl := Option.some.inj (hr.symm.trans hr')
        obtain ⟨x, hx, hxs⟩ := List.any_eq_true.mp hany
        rw [hbefore x hx] at hxs
        cases hxs

/-- The state is stamped with its time. -/
theorem StalledRun.stamp {rules : List DiagRule} {k : DiagDevkey} {ri : ℕ} {r : DiagRule}
    (hr : rules[ri]? = some r) (hhi : r.dlReachedState ≤ 8) {pre : List EngineOp} {evt : DiagEvent}
    {clock : ℕ → UInt64} {post : List EngineOp} {nowNs : UInt64}
    (h : StalledRun rules k r pre evt clock post nowNs) {w : Devwin}
    (hw : devLookup (engineAfter rules (pre ++ [.ingest evt clock])).devs k = some w) :
    w.stateTs r.dlReachedState.toNat = evt.tsNs := by
  have hinv := (engineAfter_episodeInv rules k (pre ++ [.ingest evt clock])).2 w hw
  have hmem := entry_mem h.own h.enters rules pre clock
  rw [hinv.stamp _ (by omega)]
  cases hx : (episodeAfter rules k (pre ++ [.ingest evt clock])).events.find?
      fun x => entersState r.dlReachedState.toNat x && decide (x.tsNs ≠ 0) with
  | none =>
    have hnot := List.find?_eq_none.mp hx evt hmem
    simp only [h.enters, Bool.true_and, decide_eq_true_eq, not_not] at hnot
    exact hnot.symm
  | some x =>
    have hfound := List.find?_some hx
    simp only [Bool.and_eq_true, decide_eq_true_eq] at hfound
    obtain rfl := (h.first_entry hr).1 x (List.mem_of_find?_eq_some hx) hfound.1
    rfl

/-! ## Runs without an alarm -/

/-- What the engine reports of a rule for a device, read in the device's own machine. -/
theorem step_silent {e : DiagEngine} (hu : KeysUnique e.devs) {k : DiagDevkey} {ri : ℕ}
    {op : EngineOp} (h : ∀ f ∈ (deviceStep e.rules k (devLookup e.devs k) op).2, f.ridx ≠ ri) :
    ∀ f ∈ (engineStep e op).2, f.key = k → f.ridx ≠ ri := by
  intro f hf hk
  apply h
  rw [← engineStep_findings hu k op]
  exact List.mem_filter.mpr ⟨hf, decide_eq_true hk⟩

/-- An event reports no deadline rule. -/
theorem ingest_silent {rules : List DiagRule} {ri : ℕ} {r : DiagRule} (hr : rules[ri]? = some r)
    (htype : r.type = .deadline) (k : DiagDevkey) (win : Option Devwin) (x : DiagEvent)
    (clock : ℕ → UInt64) : ∀ f ∈ (deviceStep rules k win (.ingest x clock)).2, f.ridx ≠ ri := by
  rw [deviceStep]
  split
  · exact ingestWin_no_deadline hr htype _ x clock
  · exact fun f hf => absurd hf List.not_mem_nil

/-- A tick reports no rule that is not due or has been reported. -/
theorem tick_silent {rules : List DiagRule} {ri : ℕ} {r : DiagRule} (hr : rules[ri]? = some r)
    {w : Devwin} (hused : w.used = true) {nowNs : UInt64}
    (h : deadlineDue w r nowNs = false ∨ w.dlFired ri = true) (k : DiagDevkey) :
    ∀ f ∈ (deviceStep rules k (some w) (.tick nowNs)).2, f.ridx ≠ ri := by
  intro f hf hri
  obtain ⟨r', hr', hdue, hlatch⟩ := (tickWin_reports rules nowNs w hused ri).mp ⟨f, hf, hri⟩
  obtain rfl := Option.some.inj (hr.symm.trans hr')
  rcases h with h | h
  · rw [h] at hdue
    cases hdue
  · rw [h] at hlatch
    cases hlatch

theorem EntersNoMore.append_tick {k : DiagDevkey} {r : DiagRule} {ops : List EngineOp}
    (h : EntersNoMore k r ops) (nowNs : UInt64) : EntersNoMore k r (ops ++ [.tick nowNs]) := by
  intro x c hx hk
  rcases List.mem_append.mp hx with hx | hx
  · exact h x c hx hk
  · cases List.mem_singleton.mp hx

/-- The window, if there is one, has not seen the state of rule `r`. -/
def Unseen (r : DiagRule) (win : Option Devwin) : Prop :=
  ∀ w ∈ win, w.seenStates.getLsbD r.dlReachedState.toNat = false

/-- A rule whose state was not seen is not due. -/
theorem deadlineDue_unseen {r : DiagRule} (hlo : 0 ≤ r.dlReachedState) (hhi : r.dlReachedState ≤ 8)
    {w : Devwin} (h : w.seenStates.getLsbD r.dlReachedState.toNat = false) (nowNs : UInt64) :
    deadlineDue w r nowNs = false := by
  have hr9 : r.dlReachedState.toNat < 9 := by omega
  have hseen : w.seenStates &&& (1#16 <<< r.dlReachedState.toNat) = 0 :=
    (bitTest_eq_zero _ hr9).mpr h
  unfold deadlineDue
  rw [if_pos hseen, ite_self, ite_self]

/-- An event that does not enter the state leaves it unseen. -/
theorem Unseen.ingestWin {r : DiagRule} (hhi : r.dlReachedState ≤ 8) {win : Option Devwin}
    (h : Unseen r win) {x : DiagEvent} (hx : entersState r.dlReachedState.toNat x = false)
    (rules : List DiagRule) (k : DiagDevkey) (clock : ℕ → UInt64) :
    Unseen r (some (ingestWin rules (win.getD (freshWin k)) x clock).1) := by
  intro w hw
  obtain rfl := Option.some.inj hw
  have hfrom : (win.getD (freshWin k)).seenStates.getLsbD r.dlReachedState.toNat = false := by
    cases win with
    | none => simp [freshWin]
    | some w => exact h w rfl
  obtain ⟨lf, heq⟩ := ingestWin_fst rules (win.getD (freshWin k)) x clock
  rw [heq]
  show (noteEvent _ x).seenStates.getLsbD _ = false
  rw [noteEvent, noteState_seenStates _ _ (by omega)]
  split
  · rfl
  · split
    · next h0 =>
      apply decide_eq_false
      intro hzero
      rw [hzero, h0] at hx
      cases hx
    · simp only [winPush, hx, Bool.or_false]
      exact hfrom

/-- A window that has not seen the state stays so, and nothing is reported for it. -/
theorem Unseen.deviceStep {rules : List DiagRule} {k : DiagDevkey} {ri : ℕ} {r : DiagRule}
    (hr : rules[ri]? = some r) (htype : r.type = .deadline)
    (hlo : 0 ≤ r.dlReachedState) (hhi : r.dlReachedState ≤ 8) {win : Option Devwin}
    (hused : ∀ w ∈ win, w.used = true) (h : Unseen r win) {op : EngineOp} {ops : List EngineOp}
    (hno : EntersNoMore k r (op :: ops)) :
    Unseen r (deviceStep rules k win op).1 ∧ ∀ f ∈ (deviceStep rules k win op).2, f.ridx ≠ ri := by
  cases op with
  | ingest x clock =>
    refine ⟨?_, ingest_silent hr htype k win x clock⟩
    by_cases hk : diagEventKey x = k
    · simp only [Interface.deviceStep, if_pos hk]
      exact h.ingestWin hhi (hno x clock (List.mem_cons_self ..) hk) rules k clock
    · simp only [Interface.deviceStep, if_neg hk]
      exact h
  | tick t =>
    cases win with
    | none => exact ⟨h, fun f hf => absurd hf List.not_mem_nil⟩
    | some w =>
      refine ⟨fun w' hw' => ?_, tick_silent hr (hused w rfl)
        (.inl (deadlineDue_unseen hlo hhi (h w rfl) t)) k⟩
      simp only [Interface.deviceStep, Option.mem_def] at hw'
      split at hw'
      · obtain rfl := Option.some.inj hw'
        rw [tickWin_eq rules t w (hused w rfl)]
        exact h w rfl
      · cases hw'

/-- **A device that is not in the state is not reported.** -/
theorem unseen_silent {k : DiagDevkey} {ri : ℕ} {r : DiagRule} (htype : r.type = .deadline)
    (hlo : 0 ≤ r.dlReachedState) (hhi : r.dlReachedState ≤ 8) (ops : List EngineOp)
    (hno : EntersNoMore k r ops) {e : DiagEngine} (hu : KeysUnique e.devs)
    (hr : e.rules[ri]? = some r) (h : Unseen r (devLookup e.devs k)) :
    ∀ f ∈ outputs engineStep e ops, f.key = k → f.ridx ≠ ri := by
  induction ops generalizing e with
  | nil => exact fun f hf => absurd hf List.not_mem_nil
  | cons op ops ih =>
    obtain ⟨hunseen, hsilent⟩ := h.deviceStep hr htype hlo hhi
      (fun w hw => (SlotTable.lookup_some hw).1) hno
    intro f hf
    rw [outputs_cons] at hf
    rcases List.mem_append.mp hf with hf | hf
    · exact step_silent hu hsilent f hf
    · refine ih hno.tail (engineStep_keysUnique e op hu) ?_ ?_ f hf
      · rw [engineStep_rules]
        exact hr
      · rcases engineStep_lookup hu k op with hl | ⟨-, -, hl⟩
        · rw [hl]
          exact hunseen
        · rw [hl]
          exact fun w hw => absurd hw (Option.not_mem_none w)

/-- A rule is not due before its timeout. -/
theorem Waiting.not_due {r : DiagRule} (ht0 : 0 ≤ r.dlTimeoutMs)
    (ht64 : r.dlTimeoutMs * 1000000 < 2 ^ 64) {t0 nowNs : UInt64} {w : Devwin}
    (h : Waiting r t0 w) (hafter : t0 ≤ nowNs)
    (hearly : (nowNs.toNat : ℤ) < t0.toNat + r.dlTimeoutMs * 1000000) :
    deadlineDue w r nowNs = false := by
  have hyoung : nowNs - t0 < msToNs r.dlTimeoutMs := by
    by_contra hold
    have := (age_not_lt ht0 ht64 hafter).mp hold
    omega
  unfold deadlineDue
  rw [h.stamp, if_pos hyoung, ite_self, ite_self, ite_self, ite_self]

/-- **A device that a tick finds idle before the deadline is not reported**: the tick drops its
window. -/
theorem idle_silent {k : DiagDevkey} {ri : ℕ} {r : DiagRule} (htype : r.type = .deadline)
    (hlo : 0 ≤ r.dlReachedState) (hhi : r.dlReachedState ≤ 8)
    (ht0 : 0 ≤ r.dlTimeoutMs) (ht64 : r.dlTimeoutMs * 1000000 < 2 ^ 64)
    {t0 nowNs : UInt64} (post : List EngineOp)
    (htimes : ∀ t, EngineOp.tick t ∈ post →
      t0 ≤ t ∧ (t.toNat : ℤ) < t0.toNat + r.dlTimeoutMs * 1000000)
    (hquiet : ∀ x c, EngineOp.ingest x c ∈ post → diagEventKey x = k → Uneventful r x)
    (hno : EntersNoMore k r post) {e : DiagEngine} (hu : KeysUnique e.devs)
    (hr : e.rules[ri]? = some r) {w : Devwin} (hw : devLookup e.devs k = some w)
    (hwait : Waiting r t0 w) {last : UInt64} (hlast : w.lastSeenNs = last)
    (hidle : ¬StaysFresh k last post) :
    ∀ f ∈ outputs engineStep e (post ++ [.tick nowNs]), f.key = k → f.ridx ≠ ri := by
  induction post generalizing e w last with
  | nil => exact absurd trivial hidle
  | cons op post ih =>
    have hu' := engineStep_keysUnique e op hu
    have hr' : (engineStep e op).1.rules[ri]? = some r := by
      rw [engineStep_rules]
      exact hr
    have htimes' : ∀ t, EngineOp.tick t ∈ post →
        t0 ≤ t ∧ (t.toNat : ℤ) < t0.toNat + r.dlTimeoutMs * 1000000 :=
      fun t ht => htimes t (List.mem_cons_of_mem _ ht)
    have hquiet' : ∀ x c, EngineOp.ingest x c ∈ post → diagEventKey x = k → Uneventful r x :=
      fun x c hx => hquiet x c (List.mem_cons_of_mem _ hx)
    -- without a window it is silent from here on
    have hdropped : devLookup (engineStep e op).1.devs k = none →
        ∀ f ∈ outputs engineStep (engineStep e op).1 (post ++ [.tick nowNs]),
          f.key = k → f.ridx ≠ ri := by
      intro hl
      apply unseen_silent htype hlo hhi _ (hno.tail.append_tick nowNs) hu' hr'
      rw [hl]
      exact fun w hw => absurd hw (Option.not_mem_none w)
    have hlookup := engineStep_lookup hu k op
    rw [hw] at hlookup
    have hsilent : ∀ f ∈ (deviceStep e.rules k (devLookup e.devs k) op).2, f.ridx ≠ ri := by
      rw [hw]
      cases op with
      | ingest x clock => exact ingest_silent hr htype k _ x clock
      | tick t =>
        obtain ⟨hafter, hearly⟩ := htimes t (List.mem_cons_self ..)
        exact tick_silent hr (SlotTable.lookup_some hw).1
          (.inl (hwait.not_due ht0 ht64 hafter hearly)) k
    intro f hf
    rw [List.cons_append, outputs_cons] at hf
    rcases List.mem_append.mp hf with hf | hf
    · exact step_silent hu hsilent f hf
    rcases hlookup with hl | ⟨-, -, hl⟩
    · cases op with
      | ingest x clock =>
        by_cases hk : diagEventKey x = k
        · simp only [deviceStep, if_pos hk, Option.getD_some] at hl
          simp only [StaysFresh, if_pos hk] at hidle
          have hwait' := (hwait.ingestWin hhi (.inr (hno x clock (List.mem_cons_self ..) hk))
            (hquiet x clock (List.mem_cons_self ..) hk) e.rules clock).1
          exact ih htimes' hquiet' hno.tail hu' hr' hl hwait' (ingestWin_lastSeenNs ..) hidle f hf
        · simp only [deviceStep, if_neg hk] at hl
          simp only [StaysFresh, if_neg hk] at hidle
          exact ih htimes' hquiet' hno.tail hu' hr' hl hwait hlast hidle f hf
      | tick t =>
        have hused := (SlotTable.lookup_some hw).1
        simp only [deviceStep] at hl
        split at hl
        · next hstill =>
          rw [tickWin_eq e.rules t w hused, Bool.not_eq_true', decide_eq_false_iff_not,
            gt_iff_lt, UInt64.not_lt, hlast] at hstill
          have hidle' : ¬StaysFresh k last post := fun hfresh => hidle ⟨hstill, hfresh⟩
          have hlast' : (tickWin e.rules t w).1.lastSeenNs = last := by
            rw [tickWin_eq e.rules t w hused]
            exact hlast
          exact ih htimes' hquiet' hno.tail hu' hr' hl (hwait.tickWin hused e.rules t) hlast'
            hidle' f hf
        · exact hdropped hl f hf
    · exact hdropped hl f hf

/-- **No alarm is lost while the window stays fresh**, and where the device enters the state
once and no tick is earlier than that, none is emitted otherwise.
SOURCE: engine.c:619-661 -/
theorem alarm_kept (rules : List DiagRule) (k : DiagDevkey) (ri : ℕ) (r : DiagRule)
    (hr : rules[ri]? = some r) (htype : r.type = .deadline)
    (hlo : 0 ≤ r.dlReachedState) (hhi : r.dlReachedState ≤ 8)
    (ht0 : 0 ≤ r.dlTimeoutMs) (ht64 : r.dlTimeoutMs * 1000000 < 2 ^ 64)
    (pre : List EngineOp) (evt : DiagEvent) (clock : ℕ → UInt64) (post : List EngineOp)
    (nowNs : UInt64) (hrun : StalledRun rules k r pre evt clock post nowNs)
    (hnot : 0 ≤ r.dlWithoutState → r.dlWithoutState ≤ 8 →
      ∀ x ∈ (episodeAfter rules k (pre ++ [.ingest evt clock])).events,
        entersState r.dlWithoutState.toNat x = false) :
    (evt.tsNs ≠ 0 ∨ EntersNoMore k r post → StaysFresh k evt.tsNs post →
        AlarmEmitted rules k ri pre evt clock post nowNs) ∧
      (EntersNoMore k r post → (∀ t, EngineOp.tick t ∈ post → evt.tsNs ≤ t) →
        (AlarmEmitted rules k ri pre evt clock post nowNs ↔ StaysFresh k evt.tsNs post)) := by
  obtain ⟨honly, hnew⟩ := hrun.first_entry hr
  have hinOrder : ∀ x ∈ (episodeAfter rules k (pre ++ [.ingest evt clock])).events,
      entersState r.dlReachedState.toNat x = true → x.tsNs ≤ evt.tsNs := by
    intro x hx hxs
    rw [honly x hx hxs]
    exact UInt64.le_refl _
  obtain ⟨w, t0, hw, hlast, hpos, hle, hwait, hlatch⟩ :=
    entry_waiting hlo hhi hrun.own hrun.enters hinOrder ⟨hnot, hnew⟩
  have hu := engineAfter_keysUnique rules (pre ++ [.ingest evt clock])
  have hr' : (engineAfter rules (pre ++ [.ingest evt clock])).rules[ri]? = some r := by
    rw [engineAfter_rules]
    exact hr
  have hdue : (t0.toNat : ℤ) + r.dlTimeoutMs * 1000000 ≤ nowNs.toNat := by
    have h₁ := UInt64.le_iff_toNat_le.mp hle
    have h₂ := hrun.due
    omega
  have hkept : evt.tsNs ≠ 0 ∨ EntersNoMore k r post → StaysFresh k evt.tsNs post →
      AlarmEmitted rules k ri pre evt clock post nowNs := fun hstamp hfresh =>
    waiting_reports htype hlo hhi ht0 ht64 hdue post (hstamp.imp_left hpos) hu hr' hw hwait hlatch
      hrun.quiet (staysFresh_keepsWindow post hu hw hlast hfresh hrun.kept)
  refine ⟨hkept, fun hno hafter => ⟨fun hemitted => ?_, hkept (.inr hno)⟩⟩
  by_contra hidle
  obtain ⟨f, hf, hfk, hri⟩ := hemitted
  obtain rfl : t0 = evt.tsNs := hwait.stamp.symm.trans (hrun.stamp hr hhi hw)
  exact idle_silent htype hlo hhi ht0 ht64 post
    (fun t ht => ⟨hafter t ht, hrun.early t ht⟩) hrun.quiet hno hu hr' hw hwait hlast hidle f hf
    hfk hri

/-- **A timeout within the retention time is never lost to it**: the ticks before the
deadline find a device seen at `t0` or later no more than 10 s idle. -/
theorem staysFresh_of_timeout_le {k : DiagDevkey} {ms : ℤ} (hms : ms ≤ 10000) {t0 : UInt64}
    (post : List EngineOp) {last : UInt64} (hlast : t0 ≤ last)
    (hown : ∀ x c, EngineOp.ingest x c ∈ post → diagEventKey x = k → t0 ≤ x.tsNs)
    (hafter : ∀ a t, a ++ [EngineOp.tick t] <+: post →
      last ≤ t ∧ ∀ x c, EngineOp.ingest x c ∈ a → x.tsNs ≤ t)
    (hearly : ∀ t, EngineOp.tick t ∈ post → (t.toNat : ℤ) < t0.toNat + ms * 1000000) :
    StaysFresh k last post := by
  induction post generalizing last with
  | nil => trivial
  | cons op post ih =>
    have hown' : ∀ x c, EngineOp.ingest x c ∈ post → diagEventKey x = k → t0 ≤ x.tsNs :=
      fun x c hx => hown x c (List.mem_cons_of_mem _ hx)
    have hearly' : ∀ t, EngineOp.tick t ∈ post → (t.toNat : ℤ) < t0.toNat + ms * 1000000 :=
      fun t ht => hearly t (List.mem_cons_of_mem _ ht)
    have hafter' : ∀ a t, a ++ [EngineOp.tick t] <+: post →
        last ≤ t ∧ ∀ x c, EngineOp.ingest x c ∈ op :: a → x.tsNs ≤ t := by
      intro a t ha
      exact hafter (op :: a) t (by simpa using ha)
    cases op with
    | ingest x clock =>
      simp only [StaysFresh]
      split
      · next hk =>
        refine ih (hown x clock (List.mem_cons_self ..) hk) hown' (fun a t ha => ?_) hearly'
        obtain ⟨-, hx⟩ := hafter' a t ha
        exact ⟨hx x clock (List.mem_cons_self ..),
          fun y c hy => hx y c (List.mem_cons_of_mem _ hy)⟩
      · refine ih hlast hown' (fun a t ha => ?_) hearly'
        obtain ⟨hl, hx⟩ := hafter' a t ha
        exact ⟨hl, fun y c hy => hx y c (List.mem_cons_of_mem _ hy)⟩
    | tick t =>
      refine ⟨?_, ih hlast hown' (fun a t' ha => ?_) hearly'⟩
      · have hle : last ≤ t := (hafter [] t (by simp)).1
        have hsoon := hearly t (List.mem_cons_self ..)
        have hl := UInt64.le_iff_toNat_le.mp hlast
        have ht := UInt64.le_iff_toNat_le.mp hle
        rw [UInt64.le_iff_toNat_le, UInt64.toNat_sub_of_le _ _ hle,
          show retentionNs.toNat = 10000000000 from rfl]
        omega
      · obtain ⟨hl, hx⟩ := hafter' a t' ha
        exact ⟨hl, fun y c hy => hx y c (List.mem_cons_of_mem _ hy)⟩

/-- A device that stalls at ADDRESS: under a 3 s deadline the alarm comes with the tick after
it, under a 20 s one a tick 11 s later takes it away. -/
theorem alarm_kept_sample :
    let r (ms : ℤ) : DiagRule := { type := .deadline, dlReachedState := 6, dlWithoutState := 7,
                                   dlTimeoutMs := ms }
    let evt : DiagEvent := { kind := evtEnum, tsNs := 1000000000, busnum := 1, devnum := 2,
                             newState := 6 }
    AlarmEmitted [r 3000] ⟨1, 2⟩ 0 [] evt (fun _ => 1) [.tick 2500000000] 4200000000 ∧
      ¬AlarmEmitted [r 20000] ⟨1, 2⟩ 0 [] evt (fun _ => 1) [.tick 12000000000] 21000000000 := by
  intro r evt
  have hrun : ∀ (ms : ℤ) (t nowNs : UInt64),
      (t.toNat : ℤ) < evt.tsNs.toNat + (r ms).dlTimeoutMs * 1000000 →
      (evt.tsNs.toNat : ℤ) + (r ms).dlTimeoutMs * 1000000 ≤ nowNs.toNat →
      StalledRun [r ms] ⟨1, 2⟩ (r ms) [] evt (fun _ => 1) [.tick t] nowNs := by
    intro ms t nowNs ht hnow
    refine ⟨rfl, rfl, fun h => absurd (devLookup_create [r ms] _) h, ?_, ⟨fun h => h.1, trivial⟩,
      ?_, hnow⟩
    · intro x c hx
      simp at hx
    · intro t' ht'
      simp only [List.mem_singleton, EngineOp.tick.injEq] at ht'
      rw [ht']
      exact ht
  have hnot : ∀ ms : ℤ, 0 ≤ (r ms).dlWithoutState → (r ms).dlWithoutState ≤ 8 →
      ∀ x ∈ (episodeAfter [r ms] ⟨1, 2⟩ [.ingest evt (fun _ => 1)]).events,
        entersState (r ms).dlWithoutState.toNat x = false := by
    intro ms _ _ x hx
    obtain ⟨-, c, hop⟩ := episodeAfter_events_mem [r ms] ⟨1, 2⟩ _ x hx
    simp only [List.mem_singleton, EngineOp.ingest.injEq] at hop
    rw [hop.1]
    rfl
  constructor
  · apply (alarm_kept [r 3000] ⟨1, 2⟩ 0 (r 3000) rfl rfl (by decide) (by decide) (by decide)
      (by decide) [] evt (fun _ => 1) [.tick 2500000000] 4200000000
      (hrun 3000 2500000000 4200000000 (by decide) (by decide)) (hnot 3000)).1
    · exact .inl (by decide)
    · exact ⟨by decide, trivial⟩
  · rw [(alarm_kept [r 20000] ⟨1, 2⟩ 0 (r 20000) rfl rfl (by decide) (by decide) (by decide)
      (by decide) [] evt (fun _ => 1) [.tick 12000000000] 21000000000
      (hrun 20000 12000000000 21000000000 (by decide) (by decide)) (hnot 20000)).2 ?_ ?_]
    · exact fun h => absurd h.1 (by decide)
    · intro x c hx
      simp at hx
    · intro t ht
      simp only [List.mem_singleton, EngineOp.tick.injEq] at ht
      rw [ht]
      decide

/-- No alarm is emitted in a run in which the device's own machine prints nothing. -/
theorem not_alarmEmitted {rules : List DiagRule} {k : DiagDevkey} {ri : ℕ} {pre : List EngineOp}
    {evt : DiagEvent} {clock : ℕ → UInt64} {post : List EngineOp} {nowNs : UInt64}
    (hno : NoRecycling rules (pre ++ [EngineOp.ingest evt clock] ++ (post ++ [.tick nowNs])))
    (hsilent : outputs (deviceStep rules k) none
      ((pre ++ [EngineOp.ingest evt clock] ++ (post ++ [EngineOp.tick nowNs])).filter
        (concerns k)) = []) :
    ¬AlarmEmitted rules k ri pre evt clock post nowNs := by
  rintro ⟨f, hf, hfk, -⟩
  have hmem : f ∈ (engineFindings rules
      (pre ++ [EngineOp.ingest evt clock] ++ (post ++ [.tick nowNs]))).filter (ofDevice k) := by
    refine List.mem_filter.mpr ⟨?_, by simpa [ofDevice] using hfk⟩
    rw [engineFindings, outputs_append]
    exact List.mem_append_right _ hf
  rw [(engineAfter_project rules k _ hno).2, hsilent] at hmem
  cases hmem

/-- **With a longer timeout the alarm can be lost**: the device stalls at ADDRESS under a
20 s deadline, a tick 11 s later drops its window as idle, and the tick at 21 s has
nothing left to report. -/
theorem alarm_lost :
    ¬∀ (rules : List DiagRule) (k : DiagDevkey) (ri : ℕ) (r : DiagRule),
      rules[ri]? = some r → r.type = .deadline → 0 ≤ r.dlTimeoutMs →
      r.dlTimeoutMs * 1000000 < 2 ^ 64 →
      ∀ (pre : List EngineOp) (evt : DiagEvent) (clock : ℕ → UInt64) (post : List EngineOp)
        (nowNs : UInt64), StalledRun rules k r pre evt clock post nowNs →
        AlarmEmitted rules k ri pre evt clock post nowNs := by
  intro h
  let r : DiagRule := { type := .deadline, dlReachedState := 6, dlWithoutState := 7,
                        dlTimeoutMs := 20000 }
  let evt : DiagEvent := { kind := evtEnum, tsNs := 1000000000, busnum := 1, devnum := 2,
                           newState := 6 }
  have hrun : StalledRun [r] ⟨1, 2⟩ r [] evt (fun _ => 1) [.tick 12000000000] 21000000000 := by
    refine ⟨rfl, rfl, fun h => absurd (devLookup_create [r] _) h, ?_,
      ⟨fun h => h.1, trivial⟩, ?_, by decide⟩
    · intro x c hx
      simp at hx
    · intro t ht
      simp only [List.mem_singleton, EngineOp.tick.injEq] at ht
      rw [ht]
      decide
  -- the device's own machine prints nothing in the whole run
  refine not_alarmEmitted ?_ ?_ (h [r] ⟨1, 2⟩ 0 r rfl rfl (by decide) (by decide) [] evt
    (fun _ => 1) [.tick 12000000000] 21000000000 hrun)
  · exact ⟨fun h => absurd (h.2 ⟨1, by decide⟩) (by decide), fun h => h, fun h => h, trivial⟩
  · decide

end UsbTrace.Analysis

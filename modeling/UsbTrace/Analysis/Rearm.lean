import UsbTrace.Analysis.Stall

/-!
# Deadline rules when a device enumerates again

The states a device has entered, and the rules reported for it, are kept until it enters
NOTATTACHED or disconnects.  A device that is enumerated again without either, as after
`usb_reset_device`, is reported in its second bring-up exactly when it had not entered
`without_state` and the rule had not been reported since the last time these were cleared
(`bringUp_alarm_iff`): one that was CONFIGURED and now stops at ADDRESS is not
(`reenumeration_missed`).
-/

set_option autoImplicit false

namespace UsbTrace.Analysis

open UsbTrace.Model UsbTrace.Library UsbTrace.Interface

/-- After `pre`, device `k` enters the state of rule `r` with `evt`.  Nothing in `post` ends
the stall that follows or takes the device's window away, and the tick `nowNs` after it is
the first at which `timeout_ms` have passed.  The clock runs forward: the device's earlier
entries carry no later timestamp. -/
structure BringUp (rules : List DiagRule) (k : DiagDevkey) (r : DiagRule)
    (pre : List EngineOp) (evt : DiagEvent) (clock : ℕ → UInt64) (post : List EngineOp)
    (nowNs : UInt64) : Prop where
  own : diagEventKey evt = k
  enters : entersState r.dlReachedState.toNat evt = true
  positive : evt.tsNs ≠ 0
  inOrder : ∀ x ∈ (episodeAfter rules k (pre ++ [.ingest evt clock])).events,
    entersState r.dlReachedState.toNat x = true → x.tsNs ≤ evt.tsNs
  quiet : ∀ x c, EngineOp.ingest x c ∈ post → diagEventKey x = k → Uneventful r x
  keeps : EveryStep engineStep (KeepsWindow k)
    (engineAfter rules (pre ++ [.ingest evt clock])) post
  early : ∀ t, EngineOp.tick t ∈ post →
    (t.toNat : ℤ) < evt.tsNs.toNat + r.dlTimeoutMs * 1000000
  due : (evt.tsNs.toNat : ℤ) + r.dlTimeoutMs * 1000000 ≤ nowNs.toNat

/-! ## Windows that cannot report a rule -/

/-- The window has seen `without_state`, or its latch for the rule is set. -/
def Blocked (r : DiagRule) (ri : ℕ) (w : Devwin) : Prop :=
  (0 ≤ r.dlWithoutState ∧ r.dlWithoutState ≤ 8 ∧
    w.seenStates.getLsbD r.dlWithoutState.toNat = true) ∨ w.dlFired ri = true

/-- An event that begins no episode leaves it so. -/
theorem Blocked.ingestWin {r : DiagRule} {ri : ℕ} {w : Devwin} (h : Blocked r ri w)
    {x : DiagEvent} (hx : Uneventful r x) (rules : List DiagRule) (clock : ℕ → UInt64) :
    Blocked r ri (ingestWin rules w x clock).1 := by
  obtain ⟨h0, hdisc, -⟩ := hx
  obtain ⟨lf, hw⟩ := ingestWin_fst rules w x clock
  rw [hw]
  rcases h with ⟨hlo, hhi, hbit⟩ | hlatch
  · left
    refine ⟨hlo, hhi, ?_⟩
    show (noteEvent w x).seenStates.getLsbD _ = true
    rw [noteEvent, noteState_seenStates _ _ (by omega)]
    simp [hdisc, h0, winPush, hbit]
  · right
    show (noteEvent w x).dlFired ri = true
    rw [noteEvent, noteState_dlFired]
    simp [hdisc, h0, winPush, hlatch]

/-- So does a tick. -/
theorem Blocked.tickWin {r : DiagRule} {ri : ℕ} {w : Devwin} (h : Blocked r ri w)
    (hw : w.used = true) (rules : List DiagRule) (t : UInt64) :
    Blocked r ri (tickWin rules t w).1 := by
  rcases h with hseen | hlatch
  · left
    rw [tickWin_eq rules t w hw]
    exact hseen
  · right
    exact (tickWin_dlFired rules t w hw ri).mpr (Or.inl hlatch)

/-- The rule is not due for it, or has been reported. -/
theorem Blocked.not_due {r : DiagRule} {ri : ℕ} {w : Devwin} (h : Blocked r ri w)
    (nowNs : UInt64) : deadlineDue w r nowNs = false ∨ w.dlFired ri = true := by
  refine h.imp_left fun ⟨hlo, hhi, hbit⟩ => ?_
  have hseen : ¬(w.seenStates &&& (1#16 <<< r.dlWithoutState.toNat) = 0) := by
    rw [bitTest_eq_zero _ (by omega), hbit]
    exact Bool.false_ne_true.symm
  unfold deadlineDue
  rw [if_pos (⟨hlo, hhi, hseen⟩ : _ ∧ _ ∧ _), ite_self, ite_self, ite_self]

/-- **A blocked window stays silent** for as long as the device keeps it and begins no new
episode. -/
theorem blocked_silent {k : DiagDevkey} {ri : ℕ} {r : DiagRule} (htype : r.type = .deadline)
    (ops : List EngineOp) {e : DiagEngine} (hu : KeysUnique e.devs)
    (hr : e.rules[ri]? = some r) {w : Devwin} (hw : devLookup e.devs k = some w)
    (hblocked : Blocked r ri w)
    (hquiet : ∀ x c, EngineOp.ingest x c ∈ ops → diagEventKey x = k → Uneventful r x)
    (hkeeps : EveryStep engineStep (KeepsWindow k) e ops.dropLast) :
    ∀ f ∈ outputs engineStep e ops, f.key = k → f.ridx ≠ ri := by
  induction ops generalizing e w with
  | nil => exact fun f hf => absurd hf List.not_mem_nil
  | cons op ops ih =>
    have hused := (SlotTable.lookup_some hw).1
    have hsilent : ∀ f ∈ (deviceStep e.rules k (devLookup e.devs k) op).2, f.ridx ≠ ri := by
      rw [hw]
      cases op with
      | ingest x clock => exact ingest_silent hr htype k _ x clock
      | tick t => exact tick_silent hr hused (hblocked.not_due t) k
    intro f hf
    rcases List.mem_append.mp hf with hf | hf
    · exact step_silent hu hsilent f hf
    · cases ops with
      | nil => cases hf
      | cons op' ops =>
        obtain ⟨hkeep, hkeeps'⟩ := hkeeps
        obtain ⟨w', hw', hstep⟩ := keepsWindow_lookup hu hw hkeep
        have hblocked' : Blocked r ri w' := by
          cases op with
          | ingest x clock =>
            simp only [deviceStep] at hstep
            split at hstep
            · next hk =>
              rw [← Option.some.inj hstep]
              exact hblocked.ingestWin (hquiet x clock (List.mem_cons_self ..) hk) e.rules clock
            · rwa [← Option.some.inj hstep]
          | tick t =>
            simp only [deviceStep] at hstep
            split at hstep
            · rw [← Option.some.inj hstep]
              exact hblocked.tickWin hused e.rules t
            · cases hstep
        refine ih (engineStep_keysUnique e op hu) ?_ hw' hblocked' ?_ hkeeps' f hf
        · rw [engineStep_rules]
          exact hr
        · exact fun x c hx => hquiet x c (List.mem_cons_of_mem _ hx)

/-! ## Bring-ups -/

/-- **The alarm of a bring-up** has been emitted by the first tick at which it is due exactly
when, since the device's state was last cleared, it has not entered `without_state` and the
rule has not been reported.
SOURCE: engine.c:553-586, 629-655 -/
theorem bringUp_alarm_iff (rules : List DiagRule) (k : DiagDevkey) (ri : ℕ) (r : DiagRule)
    (hr : rules[ri]? = some r) (htype : r.type = .deadline)
    (hlo : 0 ≤ r.dlReachedState) (hhi : r.dlReachedState ≤ 8)
    (ht0 : 0 ≤ r.dlTimeoutMs) (ht64 : r.dlTimeoutMs * 1000000 < 2 ^ 64)
    (pre : List EngineOp) (evt : DiagEvent) (clock : ℕ → UInt64) (post : List EngineOp)
    (nowNs : UInt64) (hrun : BringUp rules k r pre evt clock post nowNs) :
    AlarmEmitted rules k ri pre evt clock post nowNs ↔
      Rearmed (episodeAfter rules k (pre ++ [.ingest evt clock])) r ri := by
  have hu := engineAfter_keysUnique rules (pre ++ [.ingest evt clock])
  have hr' : (engineAfter rules (pre ++ [.ingest evt clock])).rules[ri]? = some r := by
    rw [engineAfter_rules]
    exact hr
  constructor
  · rintro ⟨f, hf, hfk⟩
    obtain ⟨w, hw, -⟩ := engineAfter_own hrun.own rules pre clock
    have hinvs := engineAfter_episodeInv rules k (pre ++ [.ingest evt clock])
    have hinv := hinvs.2 w hw
    have hopen : ¬Blocked r ri w := by
      intro hblocked
      refine blocked_silent htype (post ++ [.tick nowNs]) hu hr' hw hblocked ?_ ?_ f hf hfk.1 hfk.2
      · intro x c hx
        rcases List.mem_append.mp hx with hx | hx
        · exact hrun.quiet x c hx
        · simp at hx
      · rw [List.dropLast_concat]
        exact hrun.keeps
    refine ⟨fun ha hb x hx => ?_, fun hfired => hopen (Or.inr ((hinv.fired ri).mpr hfired))⟩
    by_contra hentered
    rw [Bool.not_eq_false] at hentered
    refine hopen (Or.inl ⟨ha, hb, ?_⟩)
    rw [hinv.seen _ (by omega)]
    exact List.any_eq_true.mpr ⟨x, hx, hentered⟩
  · intro hrearmed
    obtain ⟨w, t0, hw, -, ht0pos, hle, hwait, hlatch⟩ :=
      entry_waiting hlo hhi hrun.own hrun.enters hrun.inOrder hrearmed
    have hdue : (t0.toNat : ℤ) + r.dlTimeoutMs * 1000000 ≤ nowNs.toNat := by
      have h₁ := UInt64.le_iff_toNat_le.mp hle
      have h₂ := hrun.due
      omega
    exact waiting_reports htype hlo hhi ht0 ht64 hdue post (.inl (ht0pos hrun.positive)) hu hr' hw
      hwait hlatch hrun.quiet hrun.keeps

/-- A rule for devices that stop between ADDRESS and CONFIGURED, and the state events of a
device. -/
def addressRule : DiagRule :=
  { type := .deadline, dlReachedState := 6, dlWithoutState := 7, dlTimeoutMs := 3000 }

def stateEvent (state : UInt8) (tsNs : UInt64) : DiagEvent :=
  { kind := evtEnum, tsNs := tsNs, busnum := 1, devnum := 2, newState := state }

/-- A device was CONFIGURED, disconnects, and stalls at ADDRESS when it is enumerated again; an
URB of its control endpoint and a tick come before the 3 s are over. -/
theorem bringUp_alarm_sample :
    AlarmEmitted [addressRule] ⟨1, 2⟩ 0
      [.ingest (stateEvent 6 1000000000) fun _ => 1, .ingest (stateEvent 7 1100000000) fun _ => 1,
        .ingest (stateEvent 0 1500000000) fun _ => 1]
      (stateEvent 6 2000000000) (fun _ => 1)
      [.ingest { kind := evtUrb, tsNs := 2500000000, busnum := 1, devnum := 2, status := -71 }
        fun _ => 1, .tick 3000000000] 5000000000 := by
  have hepisode : ∀ x ∈ (episodeAfter [addressRule] ⟨1, 2⟩
      [.ingest (stateEvent 6 1000000000) fun _ => 1, .ingest (stateEvent 7 1100000000) fun _ => 1,
        .ingest (stateEvent 0 1500000000) fun _ => 1,
        .ingest (stateEvent 6 2000000000) fun _ => 1]).events,
      (entersState 6 x = true → x.tsNs ≤ 2000000000) ∧ entersState 7 x = false := by
    decide +kernel
  apply (bringUp_alarm_iff [addressRule] ⟨1, 2⟩ 0 addressRule rfl rfl (by decide) (by decide)
    (by decide) (by decide) _ _ _ _ _ ⟨rfl, rfl, by decide, ?_, ?_, ?_, ?_, by decide⟩).mpr
  · exact ⟨fun _ _ x hx => (hepisode x hx).2, by decide +kernel⟩
  · exact fun x hx => (hepisode x hx).1
  · intro x c hx _
    simp only [List.mem_cons, List.not_mem_nil, or_false, EngineOp.ingest.injEq, reduceCtorEq]
      at hx
    rw [hx.1]
    exact ⟨rfl, rfl, fun _ _ => rfl⟩
  · have hown : diagEventKey (stateEvent 6 2000000000) = ⟨1, 2⟩ := rfl
    obtain ⟨w, hw, hlast⟩ := engineAfter_own hown
      [addressRule] [.ingest (stateEvent 6 1000000000) fun _ => 1,
        .ingest (stateEvent 7 1100000000) fun _ => 1,
        .ingest (stateEvent 0 1500000000) fun _ => 1] fun _ => 1
    apply staysFresh_keepsWindow _ (engineAfter_keysUnique _ _) hw hlast
    · exact ⟨by decide, trivial⟩
    · exact ⟨fun h => h.2.1 h.1.1, fun h => h.1, trivial⟩
  · intro t ht
    simp only [List.mem_cons, List.not_mem_nil, or_false, EngineOp.tick.injEq, reduceCtorEq,
      false_or] at ht
    rw [ht]
    decide

/-- **A second bring-up without a new episode is not watched**: the device is CONFIGURED, is
reset, and stops at ADDRESS; 3 s later nothing is reported. -/
theorem reenumeration_missed :
    ¬∀ (rules : List DiagRule) (k : DiagDevkey) (ri : ℕ) (r : DiagRule),
      rules[ri]? = some r → r.type = .deadline → r.dlReachedState ≠ r.dlWithoutState →
      0 ≤ r.dlReachedState → r.dlReachedState ≤ 8 →
      0 ≤ r.dlTimeoutMs → r.dlTimeoutMs * 1000000 < 2 ^ 64 →
      ∀ (pre : List EngineOp) (evt : DiagEvent) (clock : ℕ → UInt64) (post : List EngineOp)
        (nowNs : UInt64), BringUp rules k r pre evt clock post nowNs →
        AlarmEmitted rules k ri pre evt clock post nowNs := by
  intro h
  let pre : List EngineOp := [.ingest (stateEvent 6 1000000000) (fun _ => 1),
    .ingest (stateEvent 7 1100000000) (fun _ => 1)]
  have hrun : BringUp [addressRule] ⟨1, 2⟩ addressRule pre (stateEvent 6 2000000000) (fun _ => 1)
      [] 5000000000 := by
    refine ⟨rfl, rfl, by decide, ?_, ?_, trivial, ?_, by decide⟩
    · intro x hx _
      obtain ⟨-, c, hop⟩ := episodeAfter_events_mem [addressRule] ⟨1, 2⟩ _ x hx
      simp only [pre, List.cons_append, List.nil_append, List.mem_cons, List.not_mem_nil,
        or_false, EngineOp.ingest.injEq] at hop
      rcases hop with hop | hop | hop
      all_goals
        rw [hop.1]
        decide
    · exact fun x c hx => absurd hx List.not_mem_nil
    · exact fun t ht => absurd ht List.not_mem_nil
  -- the device's own machine prints nothing in the whole run
  refine not_alarmEmitted ?_ ?_ (h [addressRule] ⟨1, 2⟩ 0 addressRule rfl rfl (by decide)
    (by decide) (by decide) (by decide) (by decide) pre (stateEvent 6 2000000000) (fun _ => 1)
    [] 5000000000 hrun)
  · refine ⟨?_, ?_, ?_, fun h => h, trivial⟩
    all_goals exact fun h => absurd (h.2 ⟨1, by decide⟩) (by decide)
  · decide

end UsbTrace.Analysis

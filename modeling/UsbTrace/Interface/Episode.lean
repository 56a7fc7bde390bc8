import UsbTrace.Interface.Device

/-!
# Enumeration episodes

What deadline rules are about, stated on the event history instead of on bit masks and
latches.  The episode of a device begins with its window, and again with each enum
state event to NOTATTACHED (that event included) and each disconnect.  An `Episode`
lists the device's events since the window began and since the episode began, and the
rules that fired in the episode; `AlarmDue` is the meaning of a deadline rule on it.

`EpisodeInv` ties an episode to the window that stands for it, and
`engineAfter_episodeInv` is the tie over whole runs.
-/

set_option autoImplicit false

namespace UsbTrace.Interface

open UsbTrace.Model UsbTrace.Library UsbTrace.Analysis

/-- The enum state event that takes the device into state `s`. -/
def entersState (s : ℕ) (evt : DiagEvent) : Bool :=
  decide (evt.kind = evtEnum ∧ evt.step = enumStepState ∧ evt.newState.toNat = s)

/-- The lifecycle event of a disconnect. -/
def isDisconnect (evt : DiagEvent) : Bool :=
  decide (evt.kind = evtLifecycle ∧ evt.action = lifecycleDisconnect)

/-- The history of a device, oldest event first: its events since its window was
created, those since its enumeration episode began, and the rules ticks reported since
then. -/
structure Episode where
  window : List DiagEvent := []
  events : List DiagEvent := []
  fired : List ℕ := []

/-- The episode after one more event of the device. -/
def Episode.note (ep : Episode) (evt : DiagEvent) : Episode where
  window := ep.window ++ [evt]
  events :=
    if isDisconnect evt then []
    else if entersState 0 evt then [evt]
    else ep.events ++ [evt]
  fired := if isDisconnect evt ∨ entersState 0 evt then [] else ep.fired

/-- An event only ever empties the list of rules reported. -/
theorem Episode.note_fired_nodup {ep : Episode} (h : ep.fired.Nodup) (evt : DiagEvent) :
    (ep.note evt).fired.Nodup := by
  show (if _ then [] else ep.fired).Nodup
  split
  · exact List.nodup_nil
  · exact h

/-- How one operation on the engine continues the episode of device `k`: an event that
finds no window creates one and begins an episode. -/
def episodeStep (k : DiagDevkey) (e : DiagEngine) (ep : Episode) : EngineOp → Episode
  | .ingest evt _ =>
    if diagEventKey evt = k then
      (if (devLookup e.devs k).isSome then ep else {}).note evt
    else ep
  | .tick nowNs =>
    { ep with fired := ep.fired ++
        ((diagEngineTick e nowNs).2.filter (ofDevice k)).map Finding.ridx }

/-- The current episode of device `k` after the operations `ops`. -/
def episodeAfter (rules : List DiagRule) (k : DiagDevkey) (ops : List EngineOp) : Episode :=
  history engineStep (episodeStep k) (diagEngineCreate rules) {} ops

/-- **The meaning of deadline rule `ri` on an episode**: the device entered
`reached_state`, its first entry is at least `timeout_ms` old, it did not enter
`without_state`, and the rule has not fired.
SOURCE: docs/diag.md:72-91 -/
def AlarmDue (ep : Episode) (r : DiagRule) (ri : ℕ) (nowNs : UInt64) : Prop :=
  (∃ x, ep.events.find? (entersState r.dlReachedState.toNat) = some x ∧
    (x.tsNs.toNat : ℤ) + r.dlTimeoutMs * 1000000 ≤ nowNs.toNat) ∧
  (0 ≤ r.dlWithoutState → r.dlWithoutState ≤ 8 →
    ∀ x ∈ ep.events, entersState r.dlWithoutState.toNat x = false) ∧
  ri ∉ ep.fired

/-! ## The enumeration state of a window -/

/-- A bit test in C's style reads one bit. -/
theorem bitTest_eq_zero (x : BitVec 16) {s : ℕ} (hs : s < 9) :
    x &&& (1#16 <<< s) = 0 ↔ x.getLsbD s = false := by
  constructor
  · intro h
    have hbit := congrArg (fun y : BitVec 16 => y.getLsbD s) h
    have hs16 : s < 16 := by omega
    simpa [hs16] using hbit
  · intro h
    ext i hi
    by_cases his : i = s
    · subst his
      have hx : x[i] = false := by simpa [BitVec.getLsbD_eq_getElem hi] using h
      simp [hx]
    · have : ¬(i - s = 0 ∧ s ≤ i) := by omega
      simp
      omega

/-- Setting a bit in C's style sets one bit. -/
theorem getLsbD_setBit (x : BitVec 16) {s t : ℕ} (ht : t < 9) :
    (x ||| (1#16 <<< s)).getLsbD t = (x.getLsbD t || decide (t = s)) := by
  have ht16 : t < 16 := by omega
  by_cases hts : t = s
  · subst hts
    simp [ht16]
  · have : ¬(t - s = 0 ∧ s ≤ t) := by omega
    simp [ht16, hts]
    omega

/-- A state event is no disconnect. -/
theorem isDisconnect_of_state {evt : DiagEvent} (h : evt.kind = evtEnum) :
    isDisconnect evt = false := by
  simp [isDisconnect, h, evtEnum, evtLifecycle]

/-- The bit of state `s` after an event has been noted.
SOURCE: engine.c:575-586 -/
theorem noteState_seenStates (w : Devwin) (evt : DiagEvent) {s : ℕ} (hs : s < 9) :
    (noteState w evt).seenStates.getLsbD s =
      if isDisconnect evt then false
      else if entersState 0 evt then decide (s = 0)
      else (w.seenStates.getLsbD s || entersState s evt) := by
  by_cases hst : evt.kind = evtEnum ∧ evt.step = enumStepState
  · have hzero : evt.newState = 0 ↔ evt.newState.toNat = 0 := by
      rw [← UInt8.toNat_inj]; rfl
    have hlt : evt.newState < 9 ↔ evt.newState.toNat < 9 := UInt8.lt_iff_toNat_lt
    simp only [noteState, hst, and_self, if_true, isDisconnect_of_state hst.1,
      Bool.false_eq_true, if_false, entersState, true_and, decide_eq_true_eq]
    by_cases h0 : evt.newState.toNat = 0
    · simp [hzero, hlt, h0, devResetEnum, show s < 16 by omega]
    · by_cases h9 : evt.newState.toNat < 9
      · simp only [hzero, hlt, h0, h9, if_true, if_false]
        rw [getLsbD_setBit _ hs]
        simp [eq_comm]
      · have hne : evt.newState.toNat ≠ s := by omega
        simp [hzero, hlt, h0, h9, hne]
  · have henters : ∀ t, entersState t evt = false := by
      intro t
      simp only [entersState, decide_eq_false_iff_not]
      exact fun h => hst ⟨h.1, h.2.1⟩
    simp only [noteState, hst, if_false, henters, Bool.or_false, Bool.false_eq_true,
      isDisconnect, decide_eq_true_eq]
    split
    · simp [devResetEnum]
    · rfl

/-- The first-seen stamp of state `s` after an event has been noted.
SOURCE: engine.c:575-586 -/
theorem noteState_stateTs (w : Devwin) (evt : DiagEvent) {s : ℕ} (hs : s < 9) :
    (noteState w evt).stateTs s =
      if isDisconnect evt then 0
      else if entersState 0 evt then (if s = 0 then evt.tsNs else 0)
      else if entersState s evt ∧ w.stateTs s = 0 then evt.tsNs else w.stateTs s := by
  by_cases hst : evt.kind = evtEnum ∧ evt.step = enumStepState
  · have hzero : evt.newState = 0 ↔ evt.newState.toNat = 0 := by
      rw [← UInt8.toNat_inj]; rfl
    have hlt : evt.newState < 9 ↔ evt.newState.toNat < 9 := UInt8.lt_iff_toNat_lt
    simp only [noteState, hst, and_self, if_true, isDisconnect_of_state hst.1,
      Bool.false_eq_true, if_false, entersState, true_and, decide_eq_true_eq]
    by_cases h0 : evt.newState.toNat = 0
    · simp [hzero, hlt, h0, devResetEnum, Function.update_apply]
    · by_cases h9 : evt.newState.toNat < 9
      · simp only [hzero, hlt, h0, h9, if_true, if_false]
        by_cases hns : evt.newState.toNat = s
        · subst hns
          by_cases hts : w.stateTs evt.newState.toNat = 0 <;> simp [hts]
        · have hsn : s ≠ evt.newState.toNat := fun h => hns h.symm
          by_cases hts : w.stateTs evt.newState.toNat = 0 <;> simp [hts, hns, hsn]
      · have hne : evt.newState.toNat ≠ s := by omega
        simp [hzero, hlt, h0, h9, hne]
  · have henters : ∀ t, entersState t evt = false := by
      intro t
      simp only [entersState, decide_eq_false_iff_not]
      exact fun h => hst ⟨h.1, h.2.1⟩
    simp only [noteState, hst, if_false, henters, Bool.false_eq_true, false_and,
      isDisconnect, decide_eq_true_eq]
    split
    · rfl
    · rfl

/-- The latches after an event has been noted: all cleared when an episode begins.
SOURCE: engine.c:555-586 -/
theorem noteState_dlFired (w : Devwin) (evt : DiagEvent) :
    (noteState w evt).dlFired =
      if isDisconnect evt ∨ entersState 0 evt then fun _ => false else w.dlFired := by
  by_cases hst : evt.kind = evtEnum ∧ evt.step = enumStepState
  · have hzero : evt.newState = 0 ↔ evt.newState.toNat = 0 := by
      rw [← UInt8.toNat_inj]; rfl
    simp only [noteState, hst, and_self, if_true, isDisconnect_of_state hst.1,
      Bool.false_eq_true, entersState, true_and, decide_eq_true_eq, false_or]
    by_cases h0 : evt.newState.toNat = 0
    · simp only [hzero, h0, if_true]
      split <;> rfl
    · simp only [hzero, h0, if_false]
      split <;> rfl
  · have henters : entersState 0 evt = false := by
      simp only [entersState, decide_eq_false_iff_not]
      exact fun h => hst ⟨h.1, h.2.1⟩
    simp only [noteState, hst, if_false, henters, Bool.false_eq_true, or_false,
      isDisconnect, decide_eq_true_eq]
    split <;> rfl

/-! ## The window stands for the episode -/

/-- The enumeration state of a window is that of its episode.  A stamp of 0 reads as
"not entered yet", so it is the first entry with a timestamp other than 0 that counts. -/
structure EpisodeInv (ep : Episode) (w : Devwin) : Prop where
  sub : ∀ x ∈ ep.events, x ∈ ep.window
  seen : ∀ s < 9, w.seenStates.getLsbD s = ep.events.any (entersState s)
  stamp : ∀ s < 9, w.stateTs s =
    ((ep.events.find? fun x => entersState s x && decide (x.tsNs ≠ 0)).map DiagEvent.tsNs).getD 0
  fired : ∀ ri, w.dlFired ri = true ↔ ri ∈ ep.fired

/-- An empty window stands for an empty episode. -/
theorem episodeInv_fresh (k : DiagDevkey) : EpisodeInv {} (freshWin k) where
  sub := by simp
  seen := by simp [freshWin]
  stamp := by simp [freshWin]
  fired := by simp [freshWin]

/-- **Noting an event keeps the window in step with the episode.** -/
theorem EpisodeInv.note {ep : Episode} {w : Devwin} (h : EpisodeInv ep w) (evt : DiagEvent) :
    EpisodeInv (ep.note evt) (noteState w evt) := by
  by_cases hd : isDisconnect evt = true
  · -- a disconnect: the episode is empty and the state is cleared
    refine ⟨?_, fun s hs => ?_, fun s hs => ?_, fun ri => ?_⟩
    · simp [Episode.note, hd]
    · simp [noteState_seenStates w evt hs, Episode.note, hd]
    · simp [noteState_stateTs w evt hs, Episode.note, hd]
    · simp [noteState_dlFired, Episode.note, hd]
  · by_cases h0 : entersState 0 evt = true
    · -- NOTATTACHED: the episode is that event alone
      have hs0 : ∀ s, entersState s evt = decide (s = 0) := by
        intro s
        simp only [entersState, decide_eq_true_eq] at h0
        simp only [entersState, h0, true_and, eq_comm]
      refine ⟨?_, fun s hs => ?_, fun s hs => ?_, fun ri => ?_⟩
      · simp [Episode.note, hd, h0]
      · simp [noteState_seenStates w evt hs, Episode.note, hd, h0, hs0]
      · rw [noteState_stateTs w evt hs]
        by_cases hz : s = 0 <;> by_cases ht : evt.tsNs = 0 <;>
          simp [Episode.note, hd, h0, hs0, hz, ht]
      · simp [noteState_dlFired, Episode.note, hd, h0]
    · refine ⟨?_, fun s hs => ?_, fun s hs => ?_, fun ri => ?_⟩
      · intro x hx
        simp only [Episode.note, hd, h0, Bool.false_eq_true, if_false, List.mem_append,
          List.mem_singleton] at hx ⊢
        exact hx.imp (h.sub x) id
      · simp [noteState_seenStates w evt hs, Episode.note, hd, h0, h.seen s hs]
      · have hstamp := h.stamp s hs
        simp only [noteState_stateTs w evt hs, Episode.note, hd, h0, Bool.false_eq_true,
          if_false, List.find?_append, hstamp]
        cases hf : ep.events.find? fun x => entersState s x && decide (x.tsNs ≠ 0) with
        | none =>
          cases he : entersState s evt <;> by_cases ht : evt.tsNs = 0 <;> simp [he, ht]
        | some x =>
          -- the state has been stamped before: its stamp is kept
          have hx : x.tsNs ≠ 0 := by
            have := List.find?_some hf
            simp only [Bool.and_eq_true, decide_eq_true_eq] at this
            exact this.2
          simp [hx]
      · simpa [noteState_dlFired, Episode.note, hd, h0] using h.fired ri

/-- An ingest keeps the window in step with the episode. -/
theorem EpisodeInv.ingestWin {ep : Episode} {w : Devwin} (h : EpisodeInv ep w)
    (rules : List DiagRule) (evt : DiagEvent) (clock : ℕ → UInt64) :
    EpisodeInv (ep.note evt) (ingestWin rules w evt clock).1 := by
  obtain ⟨lf, hw⟩ := ingestWin_fst rules w evt clock
  have hnoted : EpisodeInv (ep.note evt) (noteEvent w evt) := by
    refine EpisodeInv.note (w := winPush _ evt) ?_ evt
    exact ⟨h.sub, h.seen, h.stamp, h.fired⟩
  rw [hw]
  exact ⟨hnoted.sub, hnoted.seen, hnoted.stamp, hnoted.fired⟩

/-- A tick keeps the window in step with the episode: what it latches it reports. -/
theorem EpisodeInv.tickWin {ep : Episode} {w : Devwin} (h : EpisodeInv ep w)
    (rules : List DiagRule) (nowNs : UInt64) (hw : w.used = true) :
    EpisodeInv { ep with fired := ep.fired ++ (tickWin rules nowNs w).2.map Finding.ridx }
      (tickWin rules nowNs w).1 := by
  obtain ⟨dl, hfst⟩ : ∃ dl, (UsbTrace.Model.tickWin rules nowNs w).1 = { w with
      dlFired := dl
      used := (UsbTrace.Model.tickWin rules nowNs w).1.used } := by
    rw [tickWin_eq rules nowNs w hw]
    exact ⟨_, rfl⟩
  refine ⟨h.sub, ?_, ?_, fun ri => ?_⟩
  · rw [hfst]
    exact h.seen
  · rw [hfst]
    exact h.stamp
  · rw [tickWin_dlFired rules nowNs w hw ri, h.fired ri, List.mem_append, List.mem_map]

/-- A rule is reported at most once by one tick on one window. -/
theorem tickWin_ridx_nodup (rules : List DiagRule) (nowNs : UInt64) (w : Devwin) :
    ((tickWin rules nowNs w).2.map Finding.ridx).Nodup := by
  cases hw : w.used with
  | false => simp [tickWin_unused rules nowNs w hw]
  | true =>
    rw [tickWin_snd rules nowNs w hw]
    refine (filterMap_map_sublist _ Finding.ridx Prod.snd ?_ _).nodup (zipIdx_nodup rules)
    intro p f hf
    obtain ⟨⟨b, f'⟩, hcell, rfl⟩ := Option.map_eq_some_iff.mp hf
    exact (deadlineCell_some hcell).2.2.2.1

/-- **Over every run, a device's window stands for its current episode**, and no rule is
reported twice in an episode. -/
theorem engineAfter_episodeInv (rules : List DiagRule) (k : DiagDevkey)
    (ops : List EngineOp) :
    (episodeAfter rules k ops).fired.Nodup ∧
      ∀ w, devLookup (engineAfter rules ops).devs k = some w →
        EpisodeInv (episodeAfter rules k ops) w := by
  let R : Episode → DiagEngine → Prop := fun ep e =>
    (KeysUnique e.devs ∧ e.rules = rules) ∧ ep.fired.Nodup ∧
      ∀ w, devLookup e.devs k = some w → EpisodeInv ep w
  have hstep : ∀ e ep op, True → R ep e → R (episodeStep k e ep op) (engineStep e op).1 := by
    rintro e ep op - ⟨⟨hu, rfl⟩, hnd, hinv⟩
    refine ⟨⟨engineStep_keysUnique e op hu, engineStep_rules e op⟩, ?_, fun w hw => ?_⟩
    · cases op with
      | ingest evt clock =>
        simp only [episodeStep]
        split
        · refine Episode.note_fired_nodup ?_ evt
          split
          · exact hnd
          · exact List.nodup_nil
        · exact hnd
      | tick nowNs =>
        have hfs := engineStep_findings hu k (.tick nowNs)
        simp only [engineStep] at hfs
        simp only [episodeStep, hfs]
        cases hd : devLookup e.devs k with
        | none => simpa [deviceStep] using hnd
        | some w₀ =>
          -- what this tick reports was not latched, hence not reported before
          have hused := (SlotTable.lookup_some hd).1
          refine List.Nodup.append hnd (tickWin_ridx_nodup e.rules nowNs w₀) ?_
          intro ri hri hnew
          obtain ⟨f, hf, rfl⟩ := List.mem_map.mp hnew
          obtain ⟨r, -, -, hlatch⟩ :=
            (tickWin_reports e.rules nowNs w₀ hused f.ridx).mp ⟨f, hf, rfl⟩
          rw [((hinv w₀ hd).fired f.ridx).mpr hri] at hlatch
          cases hlatch
    rcases engineStep_lookup hu k op with hl | ⟨-, -, hl⟩
    swap
    · rw [hl] at hw
      cases hw
    rw [hl] at hw
    cases op with
    | ingest evt clock =>
      by_cases hk : diagEventKey evt = k
      · simp only [deviceStep, if_pos hk, Option.some.injEq] at hw
        simp only [episodeStep, if_pos hk, ← hw]
        cases hd : devLookup e.devs k with
        | none => exact (episodeInv_fresh k).ingestWin e.rules evt clock
        | some w₀ => exact (hinv w₀ hd).ingestWin e.rules evt clock
      · simp only [deviceStep, if_neg hk] at hw
        simp only [episodeStep, if_neg hk]
        exact hinv w hw
    | tick nowNs =>
      have hfs := engineStep_findings hu k (.tick nowNs)
      simp only [engineStep] at hfs
      simp only [episodeStep, hfs]
      cases hd : devLookup e.devs k with
      | none => simp [deviceStep, hd] at hw
      | some w₀ =>
        simp only [deviceStep, hd] at hw ⊢
        split at hw
        · simp only [Option.some.injEq] at hw
          rw [← hw]
          exact (hinv w₀ hd).tickWin e.rules nowNs (SlotTable.lookup_some hd).1
        · cases hw
  have h0 : R {} (diagEngineCreate rules) :=
    ⟨⟨keysUnique_create rules, rfl⟩, List.nodup_nil, fun w hw => by
      rw [devLookup_create] at hw
      cases hw⟩
  exact (history_induct hstep h0 (fun _ _ => trivial)).2

/-- The events of an episode are events of the run. -/
theorem episodeAfter_events_mem (rules : List DiagRule) (k : DiagDevkey)
    (ops : List EngineOp) :
    ∀ x ∈ (episodeAfter rules k ops).events,
      diagEventKey x = k ∧ ∃ clock, EngineOp.ingest x clock ∈ ops := by
  have hstep : ∀ e ep (op : EngineOp), op ∈ ops →
      (∀ x ∈ Episode.events ep, diagEventKey x = k ∧ ∃ clock, EngineOp.ingest x clock ∈ ops) →
      ∀ x ∈ (episodeStep k e ep op).events,
        diagEventKey x = k ∧ ∃ clock, EngineOp.ingest x clock ∈ ops := by
    intro e ep op hop hep
    cases op with
    | ingest evt clock =>
      by_cases hk : diagEventKey evt = k
      · have hevt : diagEventKey evt = k ∧ ∃ clock, EngineOp.ingest evt clock ∈ ops :=
          ⟨hk, clock, hop⟩
        simp only [episodeStep, if_pos hk, Episode.note]
        intro x hx
        split at hx
        · cases hx
        · split at hx
          · rw [List.mem_singleton.mp hx]
            exact hevt
          · rcases List.mem_append.mp hx with hx | hx
            · split at hx
              · exact hep x hx
              · cases hx
            · rw [List.mem_singleton.mp hx]
              exact hevt
      · simpa only [episodeStep, if_neg hk] using hep
    | tick nowNs => simpa only [episodeStep] using hep
  exact history_induct (R := fun ep _ => ∀ x ∈ Episode.events ep,
    diagEventKey x = k ∧ ∃ clock, EngineOp.ingest x clock ∈ ops) hstep (by simp) fun _ h => h

end UsbTrace.Interface

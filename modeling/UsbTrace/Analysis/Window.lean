import UsbTrace.Model.Engine
import UsbTrace.Library.Ring
import UsbTrace.Library.CellLoop

/-!
# What one operation does to one device window

Step lemmas for the functions of the engine that work on a single window.  The rule
loop of an ingest only writes cooldown stamps (`ingestWin_eq`); the deadline loop of a
tick only writes latches (`tickWin_eq`); the event ring keeps the newest 1024 events
(`winEvents_winPush`).  Every later proof about windows uses these and never unfolds
the loops again.
-/

set_option autoImplicit false

namespace UsbTrace.Analysis

open UsbTrace.Model UsbTrace.Library

/-! ## Milliseconds -/

/-- A number of milliseconds in nanoseconds, in C's unsigned arithmetic. -/
theorem msToNs_toNat_emod (ms : ℤ) : ((msToNs ms).toNat : ℤ) = ms * 1000000 % 2 ^ 64 := by
  have hlt : (ms % 2 ^ 64).toNat < 2 ^ 64 := by omega
  rw [msToNs, UInt64.ofInt, UInt64.toNat_mul, UInt64.toNat_ofNat_of_lt' hlt,
    show (1000000 : UInt64).toNat = 1000000 from rfl]
  omega

/-! ## The event ring -/

/-- The ring of a window, as the library sees it. -/
def ringOf (w : Devwin) : RingBuffer DiagEvent := ⟨w.ev, w.head, w.count⟩

/-- A window whose ring indices are those of an array of 1024 events. -/
def RingBounded (w : Devwin) : Prop := (ringOf w).Bounded winMaxEvents

theorem ringOf_winPush (w : Devwin) (evt : DiagEvent) :
    ringOf (winPush w evt) = (ringOf w).push winMaxEvents evt := rfl

/-- `win_at` reads the position the library's ring reads.
SOURCE: engine.c:259-264 -/
theorem winAt_eq {w : Devwin} (hw : RingBounded w) {idx : ℕ} (hidx : idx < w.count) :
    winAt w idx = (ringOf w).nth winMaxEvents idx := by
  have hh := hw.head_lt
  have hc := hw.count_le
  simp only [ringOf, winMaxEvents] at hh hc
  have hpos : ((w.head : ℤ) - 1 - idx + 2 * (winMaxEvents : ℕ)).tmod (winMaxEvents : ℕ) =
      ((w.head + 2 * winMaxEvents - 1 - idx) % winMaxEvents : ℕ) := by
    simp only [winMaxEvents]
    rw [Int.tmod_eq_emod_of_nonneg (by omega)]
    omega
  simp only [winAt, hpos, Int.toNat_natCast, RingBuffer.nth, RingBuffer.pos, ringOf]

/-- The lookback loop visits what the ring stands for. -/
theorem winEvents_eq {w : Devwin} (hw : RingBounded w) :
    winEvents w = (ringOf w).toList winMaxEvents := by
  refine List.map_congr_left fun idx hidx => winAt_eq hw ?_
  simpa using hidx

/-- **A push keeps the newest 1024 events.**
SOURCE: engine.c:250-264 -/
theorem winEvents_winPush {w : Devwin} (hw : RingBounded w) (evt : DiagEvent) :
    winEvents (winPush w evt) = (evt :: winEvents w).take winMaxEvents := by
  have hw' : RingBounded (winPush w evt) := by
    unfold RingBounded
    rw [ringOf_winPush]
    exact hw.push evt
  rw [winEvents_eq hw', ringOf_winPush, RingBuffer.toList_push hw, winEvents_eq hw]

/-- Two windows with the same ring are visited alike. -/
theorem winEvents_congr {w w' : Devwin} (h : ringOf w' = ringOf w) :
    winEvents w' = winEvents w := by
  simp only [ringOf, RingBuffer.mk.injEq] at h
  obtain ⟨hev, hhead, hcount⟩ := h
  have hat : winAt w' = winAt w := by
    funext idx
    simp only [winAt, hev, hhead]
  simp only [winEvents, hat, hcount]

/-! ## Noting an event -/

/-- `noteState` touches the enumeration state alone. -/
theorem noteState_frame (w : Devwin) (evt : DiagEvent) :
    (noteState w evt).used = w.used ∧ (noteState w evt).key = w.key ∧
      (noteState w evt).vid = w.vid ∧ (noteState w evt).pid = w.pid ∧
      (noteState w evt).lastSeenNs = w.lastSeenNs ∧ ringOf (noteState w evt) = ringOf w ∧
      (noteState w evt).lastFireNs = w.lastFireNs := by
  unfold noteState devResetEnum
  split
  · split <;> split <;> exact ⟨rfl, rfl, rfl, rfl, rfl, rfl, rfl⟩
  · split <;> exact ⟨rfl, rfl, rfl, rfl, rfl, rfl, rfl⟩

@[simp] theorem noteEvent_used (w : Devwin) (evt : DiagEvent) :
    (noteEvent w evt).used = w.used := (noteState_frame _ evt).1

@[simp] theorem noteEvent_key (w : Devwin) (evt : DiagEvent) :
    (noteEvent w evt).key = w.key := (noteState_frame _ evt).2.1

@[simp] theorem noteEvent_lastSeenNs (w : Devwin) (evt : DiagEvent) :
    (noteEvent w evt).lastSeenNs = evt.tsNs := (noteState_frame _ evt).2.2.2.2.1

@[simp] theorem noteEvent_lastFireNs (w : Devwin) (evt : DiagEvent) :
    (noteEvent w evt).lastFireNs = w.lastFireNs := (noteState_frame _ evt).2.2.2.2.2.2

/-- The ring after an event has been noted is the ring after the push. -/
theorem ringOf_noteEvent (w : Devwin) (evt : DiagEvent) :
    ringOf (noteEvent w evt) = (ringOf w).push winMaxEvents evt :=
  (noteState_frame _ evt).2.2.2.2.2.1

/-- The events visited after an event has been noted. -/
theorem winEvents_noteEvent {w : Devwin} (hw : RingBounded w) (evt : DiagEvent) :
    winEvents (noteEvent w evt) = (evt :: winEvents w).take winMaxEvents := by
  rw [← winEvents_winPush hw evt]
  exact winEvents_congr (ringOf_noteEvent w evt)

/-! ## The rule loop of an ingest -/

/-- A rule's verdict does not depend on the cooldown stamps.
SOURCE: engine.c:485-533 -/
theorem evalRule_lastFireNs (w : Devwin) (lf : ℕ → UInt64) (r : DiagRule) (evt : DiagEvent) :
    evalRule { w with lastFireNs := lf } r evt = evalRule w r evt := by
  have hwhens : ∀ (ref : UInt64) (cs : List DiagCond) (v : Verdict),
      evalWhens { w with lastFireNs := lf } ref cs v = evalWhens w ref cs v := by
    intro ref cs
    induction cs with
    | nil => intro v; rfl
    | cons c cs ih =>
      intro v
      have hc : evalWhen { w with lastFireNs := lf } c ref v.evidence =
          evalWhen w c ref v.evidence := rfl
      simp only [evalWhens, hc, ih]
  simp only [evalRule, hwhens]

/-- The body of the rule loop on the cooldown stamp of one rule: a rule that holds and
is not cooling down takes the clock reading as its stamp and is reported. -/
def ruleCell (w : Devwin) (evt : DiagEvent) (clock : ℕ → UInt64) (r : DiagRule) (ri : ℕ)
    (stamp : UInt64) : Option (UInt64 × Finding) :=
  match evalRule w r evt with
  | none => none
  | some v =>
    if stamp ≠ 0 ∧ clock ri - stamp < cooldownNs then none
    else some (clock ri,
      { ridx := ri, key := w.key, vid := w.vid, pid := w.pid, refNs := evt.tsNs,
        count := v.count, windowMs := v.windowMs, comm := some evt.comm,
        evidence := v.evidence })

/-- **The rule loop owns one stamp per turn**; the rest of the window is as it was.
SOURCE: engine.c:588-616 -/
theorem ruleLoop_eq (evt : DiagEvent) (clock : ℕ → UInt64) (ps : List (DiagRule × ℕ))
    (w : Devwin) (lf : ℕ → UInt64) (fs : List Finding) :
    ps.foldl (ruleStep evt clock) ({ w with lastFireNs := lf }, fs) =
      ({ w with lastFireNs := (cellLoop (ruleCell w evt clock) ps (lf, fs)).1 },
        (cellLoop (ruleCell w evt clock) ps (lf, fs)).2) := by
  induction ps generalizing lf fs with
  | nil => rfl
  | cons p ps ih =>
    obtain ⟨r, ri⟩ := p
    rw [List.foldl_cons, cellLoop_cons]
    have hstep : ruleStep evt clock ({ w with lastFireNs := lf }, fs) (r, ri) =
        ({ w with lastFireNs := (cellStep (ruleCell w evt clock) (lf, fs) (r, ri)).1 },
          (cellStep (ruleCell w evt clock) (lf, fs) (r, ri)).2) := by
      simp only [ruleStep, cellStep, ruleCell, evalRule_lastFireNs, cooldownOk]
      cases evalRule w r evt with
      | none => rfl
      | some v =>
        by_cases hc : lf ri ≠ 0 ∧ clock ri - lf ri < cooldownNs
        · simp only [if_pos hc]
        · simp only [if_neg hc]
    rw [hstep]
    exact ih _ _

/-- An ingest, as a loop over the stamps of the noted window. -/
theorem ingestWin_eq (rules : List DiagRule) (w : Devwin) (evt : DiagEvent)
    (clock : ℕ → UInt64) :
    ingestWin rules w evt clock =
      ({ noteEvent w evt with
          lastFireNs := (cellLoop (ruleCell (noteEvent w evt) evt clock) rules.zipIdx
            (w.lastFireNs, [])).1 },
        (cellLoop (ruleCell (noteEvent w evt) evt clock) rules.zipIdx (w.lastFireNs, [])).2) := by
  have h := ruleLoop_eq evt clock rules.zipIdx (noteEvent w evt) w.lastFireNs []
  have hsame : { noteEvent w evt with lastFireNs := w.lastFireNs } = noteEvent w evt := by
    rw [← noteEvent_lastFireNs w evt]
  rw [hsame] at h
  exact h

/-- An ingest leaves the noted window but for its cooldown stamps. -/
theorem ingestWin_fst (rules : List DiagRule) (w : Devwin) (evt : DiagEvent)
    (clock : ℕ → UInt64) :
    ∃ lf, (ingestWin rules w evt clock).1 = { noteEvent w evt with lastFireNs := lf } :=
  ⟨_, congrArg Prod.fst (ingestWin_eq rules w evt clock)⟩

@[simp] theorem ingestWin_used (rules : List DiagRule) (w : Devwin) (evt : DiagEvent)
    (clock : ℕ → UInt64) : (ingestWin rules w evt clock).1.used = w.used := by
  obtain ⟨lf, h⟩ := ingestWin_fst rules w evt clock
  rw [h]
  exact noteEvent_used w evt

@[simp] theorem ingestWin_key (rules : List DiagRule) (w : Devwin) (evt : DiagEvent)
    (clock : ℕ → UInt64) : (ingestWin rules w evt clock).1.key = w.key := by
  obtain ⟨lf, h⟩ := ingestWin_fst rules w evt clock
  rw [h]
  exact noteEvent_key w evt

@[simp] theorem ingestWin_lastSeenNs (rules : List DiagRule) (w : Devwin) (evt : DiagEvent)
    (clock : ℕ → UInt64) : (ingestWin rules w evt clock).1.lastSeenNs = evt.tsNs := by
  obtain ⟨lf, h⟩ := ingestWin_fst rules w evt clock
  rw [h]
  exact noteEvent_lastSeenNs w evt

/-- The ring after an ingest is the ring after the push. -/
theorem ringOf_ingestWin (rules : List DiagRule) (w : Devwin) (evt : DiagEvent)
    (clock : ℕ → UInt64) :
    ringOf (ingestWin rules w evt clock).1 = (ringOf w).push winMaxEvents evt := by
  obtain ⟨lf, h⟩ := ingestWin_fst rules w evt clock
  rw [h]
  exact ringOf_noteEvent w evt

/-- **What an ingest prints**: one finding for every rule that holds and is not cooling
down, in rule order. -/
theorem ingestWin_snd (rules : List DiagRule) (w : Devwin) (evt : DiagEvent)
    (clock : ℕ → UInt64) :
    (ingestWin rules w evt clock).2 = rules.zipIdx.filterMap fun p =>
      (ruleCell (noteEvent w evt) evt clock p.1 p.2 (w.lastFireNs p.2)).map Prod.snd := by
  rw [ingestWin_eq]
  simpa using cellLoop_out _ rules.zipIdx (w.lastFireNs, []) (zipIdx_nodup rules)

/-- A reported rule names itself and the window's device. -/
theorem ruleCell_some {w : Devwin} {evt : DiagEvent} {clock : ℕ → UInt64} {r : DiagRule}
    {ri : ℕ} {stamp t : UInt64} {f : Finding}
    (h : ruleCell w evt clock r ri stamp = some (t, f)) :
    t = clock ri ∧ f.ridx = ri ∧ f.key = w.key := by
  unfold ruleCell at h
  split at h
  · cases h
  · split at h
    · cases h
    · cases h
      exact ⟨rfl, rfl, rfl⟩

/-- Every finding of an ingest carries the window's key. -/
theorem ingestWin_finding_key (rules : List DiagRule) (w : Devwin) (evt : DiagEvent)
    (clock : ℕ → UInt64) : ∀ f ∈ (ingestWin rules w evt clock).2, f.key = w.key := by
  intro f hf
  rw [ingestWin_snd, List.mem_filterMap] at hf
  obtain ⟨p, -, hp⟩ := hf
  obtain ⟨⟨t, f'⟩, hcell, rfl⟩ := Option.map_eq_some_iff.mp hp
  rw [(ruleCell_some hcell).2.2, noteEvent_key]

/-- A rule is reported at most once by one ingest. -/
theorem ingestWin_ridx_nodup (rules : List DiagRule) (w : Devwin) (evt : DiagEvent)
    (clock : ℕ → UInt64) : ((ingestWin rules w evt clock).2.map Finding.ridx).Nodup := by
  rw [ingestWin_snd]
  refine (filterMap_map_sublist _ Finding.ridx Prod.snd ?_ _).nodup (zipIdx_nodup rules)
  intro p f hf
  obtain ⟨⟨t, f'⟩, hcell, rfl⟩ := Option.map_eq_some_iff.mp hf
  exact (ruleCell_some hcell).2.1

/-- **An ingest reports a rule** exactly when the rule holds for the noted window and is
not cooling down.
SOURCE: engine.c:588-616 -/
theorem ingestWin_reports (rules : List DiagRule) (w : Devwin) (evt : DiagEvent)
    (clock : ℕ → UInt64) (ri : ℕ) :
    ri ∈ (ingestWin rules w evt clock).2.map Finding.ridx ↔
      ∃ r, rules[ri]? = some r ∧ (evalRule (noteEvent w evt) r evt).isSome ∧
        ¬(w.lastFireNs ri ≠ 0 ∧ clock ri - w.lastFireNs ri < cooldownNs) := by
  rw [ingestWin_snd, List.mem_map]
  constructor
  · rintro ⟨f, hf, rfl⟩
    obtain ⟨⟨r, i⟩, hp, hcell⟩ := List.mem_filterMap.mp hf
    obtain ⟨⟨t, f'⟩, hbody, rfl⟩ := Option.map_eq_some_iff.mp hcell
    obtain ⟨-, hi, -⟩ := ruleCell_some hbody
    rw [hi]
    refine ⟨r, List.mem_zipIdx_iff_getElem?.mp hp, ?_⟩
    simp only [ruleCell] at hbody
    cases hv : evalRule (noteEvent w evt) r evt with
    | none => simp [hv] at hbody
    | some v =>
      simp only [hv] at hbody
      split at hbody
      · cases hbody
      · next hcool => exact ⟨rfl, hcool⟩
  · rintro ⟨r, hr, hv, hcool⟩
    obtain ⟨v, hv⟩ := Option.isSome_iff_exists.mp hv
    obtain ⟨f, hcell, hf⟩ : ∃ f, ruleCell (noteEvent w evt) evt clock r ri (w.lastFireNs ri) =
        some (clock ri, f) ∧ f.ridx = ri := by
      simp only [ruleCell, hv, if_neg hcool]
      exact ⟨_, rfl, rfl⟩
    refine ⟨f, List.mem_filterMap.mpr ⟨(r, ri), List.mem_zipIdx_iff_getElem?.mpr hr, ?_⟩, hf⟩
    simp [hcell]

/-- **The stamp of a rule** after an ingest: the clock reading if the rule was reported,
else as it was.  An evaluation that fails or is suppressed leaves it alone.
SOURCE: engine.c:535-542 -/
theorem ingestWin_lastFireNs (rules : List DiagRule) (w : Devwin) (evt : DiagEvent)
    (clock : ℕ → UInt64) (ri : ℕ) :
    (ingestWin rules w evt clock).1.lastFireNs ri =
      if ri ∈ (ingestWin rules w evt clock).2.map Finding.ridx then clock ri
      else w.lastFireNs ri := by
  simp only [ingestWin_reports]
  rw [ingestWin_eq]
  cases hr : rules[ri]? with
  | none =>
    have hri : ri ∉ rules.zipIdx.map Prod.snd := by
      intro h
      obtain ⟨⟨r, i⟩, hp, rfl⟩ := List.mem_map.mp h
      rw [List.mem_zipIdx_iff_getElem?.mp hp] at hr
      cases hr
    simp [cellLoop_other _ _ _ hri]
  | some r =>
    have hp : (r, ri) ∈ rules.zipIdx := List.mem_zipIdx_iff_getElem?.mpr hr
    have hcell := cellLoop_cell (ruleCell (noteEvent w evt) evt clock) rules.zipIdx
      (w.lastFireNs, []) (zipIdx_nodup rules) hp
    simp only [hcell, ruleCell, Option.some.injEq, exists_eq_left']
    cases evalRule (noteEvent w evt) r evt with
    | none => simp
    | some v =>
      by_cases hcool : w.lastFireNs ri ≠ 0 ∧ clock ri - w.lastFireNs ri < cooldownNs
      · simp [hcool]
      · simp [hcool]

/-! ## The deadline loop of a tick -/

/-- Whether a deadline rule is due does not depend on the latches. -/
theorem deadlineDue_dlFired (w : Devwin) (dl : ℕ → Bool) (r : DiagRule) (nowNs : UInt64) :
    deadlineDue { w with dlFired := dl } r nowNs = deadlineDue w r nowNs := rfl

/-- The body of the deadline loop on the latch of one rule: a rule that is due and not
latched is latched and reported. -/
def deadlineCell (w : Devwin) (nowNs : UInt64) (r : DiagRule) (ri : ℕ) (fired : Bool) :
    Option (Bool × Finding) :=
  if deadlineDue w r nowNs ∧ fired = false then
    some (true,
      { ridx := ri, key := w.key, vid := w.vid, pid := w.pid, refNs := nowNs, count := 0,
        windowMs := r.dlTimeoutMs, comm := none, evidence := [] })
  else none

/-- **The deadline loop owns one latch per turn**; the rest of the window is as it was.
SOURCE: engine.c:630-655 -/
theorem deadlineLoop_eq (nowNs : UInt64) (ps : List (DiagRule × ℕ)) (w : Devwin)
    (dl : ℕ → Bool) (fs : List Finding) :
    ps.foldl (deadlineStep nowNs) ({ w with dlFired := dl }, fs) =
      ({ w with dlFired := (cellLoop (deadlineCell w nowNs) ps (dl, fs)).1 },
        (cellLoop (deadlineCell w nowNs) ps (dl, fs)).2) := by
  induction ps generalizing dl fs with
  | nil => rfl
  | cons p ps ih =>
    obtain ⟨r, ri⟩ := p
    rw [List.foldl_cons, cellLoop_cons]
    have hstep : deadlineStep nowNs ({ w with dlFired := dl }, fs) (r, ri) =
        ({ w with dlFired := (cellStep (deadlineCell w nowNs) (dl, fs) (r, ri)).1 },
          (cellStep (deadlineCell w nowNs) (dl, fs) (r, ri)).2) := by
      simp only [deadlineStep, cellStep, deadlineCell, deadlineDue_dlFired]
      cases deadlineDue w r nowNs <;> cases dl ri <;> rfl
    rw [hstep]
    exact ih _ _

/-- A tick on a used window, as a loop over its latches; an idle window is dropped.
SOURCE: engine.c:626-659 -/
theorem tickWin_eq (rules : List DiagRule) (nowNs : UInt64) (w : Devwin)
    (hw : w.used = true) :
    tickWin rules nowNs w =
      ({ w with
          dlFired := (cellLoop (deadlineCell w nowNs) rules.zipIdx (w.dlFired, [])).1
          used := !decide (nowNs - w.lastSeenNs > retentionNs) },
        (cellLoop (deadlineCell w nowNs) rules.zipIdx (w.dlFired, [])).2) := by
  have hloop : rules.zipIdx.foldl (deadlineStep nowNs) (w, []) = _ :=
    deadlineLoop_eq nowNs rules.zipIdx w w.dlFired []
  simp only [tickWin, hw, Bool.not_true, Bool.false_eq_true, if_false, hloop]
  by_cases hidle : nowNs - w.lastSeenNs > retentionNs
  · simp only [if_pos hidle, decide_eq_true hidle, Bool.not_true]
  · simp only [if_neg hidle, decide_eq_false hidle, Bool.not_false]

/-- A tick leaves an unused slot alone. -/
theorem tickWin_unused (rules : List DiagRule) (nowNs : UInt64) (w : Devwin)
    (hw : w.used = false) : tickWin rules nowNs w = (w, []) := by
  simp [tickWin, hw]

@[simp] theorem tickWin_key (rules : List DiagRule) (nowNs : UInt64) (w : Devwin) :
    (tickWin rules nowNs w).1.key = w.key := by
  cases hw : w.used with
  | false => rw [tickWin_unused rules nowNs w hw]
  | true =>
    rw [tickWin_eq rules nowNs w hw]

/-- A slot used after a tick was used before it. -/
theorem tickWin_used {rules : List DiagRule} {nowNs : UInt64} {w : Devwin}
    (h : (tickWin rules nowNs w).1.used = true) : w.used = true := by
  cases hw : w.used with
  | true => rfl
  | false => rw [tickWin_unused rules nowNs w hw, hw] at h; exact h

/-- A tick leaves the ring alone. -/
theorem ringOf_tickWin (rules : List DiagRule) (nowNs : UInt64) (w : Devwin) :
    ringOf (tickWin rules nowNs w).1 = ringOf w := by
  cases hw : w.used with
  | false => rw [tickWin_unused rules nowNs w hw]
  | true =>
    rw [tickWin_eq rules nowNs w hw]
    rfl

/-- **What a tick prints for a used window**: one finding for every deadline rule that is
due and not latched, in rule order. -/
theorem tickWin_snd (rules : List DiagRule) (nowNs : UInt64) (w : Devwin)
    (hw : w.used = true) :
    (tickWin rules nowNs w).2 = rules.zipIdx.filterMap fun p =>
      (deadlineCell w nowNs p.1 p.2 (w.dlFired p.2)).map Prod.snd := by
  rw [tickWin_eq rules nowNs w hw]
  simpa using cellLoop_out _ rules.zipIdx (w.dlFired, []) (zipIdx_nodup rules)

/-- A reported deadline rule is due, was not latched, and names itself and the window's
device. -/
theorem deadlineCell_some {w : Devwin} {nowNs : UInt64} {r : DiagRule} {ri : ℕ}
    {fired b : Bool} {f : Finding} (h : deadlineCell w nowNs r ri fired = some (b, f)) :
    deadlineDue w r nowNs = true ∧ fired = false ∧ b = true ∧ f.ridx = ri ∧ f.key = w.key := by
  unfold deadlineCell at h
  split at h
  · next hdue =>
    cases h
    exact ⟨hdue.1, hdue.2, rfl, rfl, rfl⟩
  · cases h

/-- **A tick reports a rule** of a used window exactly when the rule is a deadline rule
that is due and not latched. -/
theorem tickWin_reports (rules : List DiagRule) (nowNs : UInt64) (w : Devwin)
    (hw : w.used = true) (ri : ℕ) :
    (∃ f ∈ (tickWin rules nowNs w).2, f.ridx = ri) ↔
      ∃ r, rules[ri]? = some r ∧ deadlineDue w r nowNs = true ∧ w.dlFired ri = false := by
  rw [tickWin_snd rules nowNs w hw]
  constructor
  · rintro ⟨f, hf, rfl⟩
    obtain ⟨⟨r, i⟩, hp, hcell⟩ := List.mem_filterMap.mp hf
    obtain ⟨⟨b, f'⟩, hbody, rfl⟩ := Option.map_eq_some_iff.mp hcell
    obtain ⟨hdue, hlatch, -, hi, -⟩ := deadlineCell_some hbody
    rw [hi]
    exact ⟨r, List.mem_zipIdx_iff_getElem?.mp hp, hdue, hlatch⟩
  · rintro ⟨r, hr, hdue, hlatch⟩
    obtain ⟨f, hcell, hf⟩ : ∃ f, deadlineCell w nowNs r ri false = some (true, f) ∧
        f.ridx = ri := by
      simp [deadlineCell, hdue]
    refine ⟨f, List.mem_filterMap.mpr ⟨(r, ri), List.mem_zipIdx_iff_getElem?.mpr hr, ?_⟩, hf⟩
    simp [hlatch, hcell]

/-- The latches after a tick: those set before, and those of the rules reported. -/
theorem tickWin_dlFired (rules : List DiagRule) (nowNs : UInt64) (w : Devwin)
    (hw : w.used = true) (ri : ℕ) :
    (tickWin rules nowNs w).1.dlFired ri = true ↔
      w.dlFired ri = true ∨ ∃ f ∈ (tickWin rules nowNs w).2, f.ridx = ri := by
  rw [tickWin_reports rules nowNs w hw ri, tickWin_eq rules nowNs w hw]
  cases hr : rules[ri]? with
  | none =>
    have hri : ri ∉ rules.zipIdx.map Prod.snd := by
      intro h
      obtain ⟨⟨r, i⟩, hp, rfl⟩ := List.mem_map.mp h
      rw [List.mem_zipIdx_iff_getElem?.mp hp] at hr
      cases hr
    simp [cellLoop_other _ _ _ hri]
  | some r =>
    have hp : (r, ri) ∈ rules.zipIdx := List.mem_zipIdx_iff_getElem?.mpr hr
    have hcell := cellLoop_cell (deadlineCell w nowNs) rules.zipIdx (w.dlFired, [])
      (zipIdx_nodup rules) hp
    simp only [hcell, deadlineCell, Option.some.injEq, exists_eq_left']
    by_cases hdue : deadlineDue w r nowNs = true <;> by_cases hf : w.dlFired ri = true <;>
      simp [hdue, hf]

/-- Every finding of a tick on a window carries its key. -/
theorem tickWin_finding_key (rules : List DiagRule) (nowNs : UInt64) (w : Devwin) :
    ∀ f ∈ (tickWin rules nowNs w).2, f.key = w.key := by
  intro f hf
  cases hw : w.used with
  | false =>
    rw [tickWin_unused rules nowNs w hw] at hf
    cases hf
  | true =>
    rw [tickWin_snd rules nowNs w hw, List.mem_filterMap] at hf
    obtain ⟨p, -, hp⟩ := hf
    obtain ⟨⟨b, f'⟩, hcell, rfl⟩ := Option.map_eq_some_iff.mp hp
    exact (deadlineCell_some hcell).2.2.2.2

end UsbTrace.Analysis

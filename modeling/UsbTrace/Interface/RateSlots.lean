import UsbTrace.Model.HidRate

/-!
# What an operation does to the meter

An operation of the meter first notes a record in its slot, and then may flush the window
(`rateStep_cases`).  `slotNoteReport_eq` and `noteInterval_cases` say what a report changes
in its slot.
-/

set_option autoImplicit false

namespace UsbTrace.Interface

open UsbTrace.Model UsbTrace.Library

/-- The endpoint of an IN record of the class. -/
def inKey : RateOp → Option RateKey
  | .record e => if e.klass = usbtraceClassHid ∧ e.dirIn ≠ 0 then some (rateKey e) else none
  | .stop => none

/-- A record in its slot. -/
def slotNote (s : HidRateSlot) (e : ClassUrbEvent) : HidRateSlot :=
  if e.status ≠ 0 then { s with errUrbs := s.errUrbs + 1 }
  else slotNoteReport s e.hdr.tsNs e.actualLength

def newSlot (e : ClassUrbEvent) : HidRateSlot := { vid := e.vid, product := e.product }

/-- The slots with a record in its place. -/
def noteSlots (slots : BoundedMap RateKey HidRateSlot 16) (e : ClassUrbEvent) :
    BoundedMap RateKey HidRateSlot 16 :=
  match slots.lookupOrInit (rateKey e) (newSlot e) with
  | (_, none) => slots
  | (slots, some s) => slots.update (rateKey e) (slotNote s e)

/-- The meter with an IN record noted. -/
def noteRecord (m : RateMeter) (e : ClassUrbEvent) : RateMeter where
  slots := noteSlots m.slots e
  windowStartNs :=
    if e.status = 0 ∧ m.slots.HasRoom (rateKey e) ∧ m.windowStartNs = 0 then e.hdr.tsNs
    else m.windowStartNs

/-- The meter with the record of an operation noted. -/
def noteOp (m : RateMeter) : RateOp → RateMeter
  | .record e => if (inKey (.record e)).isSome then noteRecord m e else m
  | .stop => m

theorem inKey_eq_some {op : RateOp} {k : RateKey} (h : inKey op = some k) :
    ∃ e, op = .record e ∧ e.klass = usbtraceClassHid ∧ e.dirIn ≠ 0 ∧ rateKey e = k := by
  cases op with
  | stop => cases h
  | record e =>
    obtain ⟨hin, hk⟩ := Option.ite_none_right_eq_some.mp h
    exact ⟨e, rfl, hin.1, hin.2, Option.some.inj hk⟩

theorem inKey_of_in {e : ClassUrbEvent} (hklass : e.klass = usbtraceClassHid)
    (hin : e.dirIn ≠ 0) : inKey (.record e) = some (rateKey e) := if_pos ⟨hklass, hin⟩

theorem inKey_of_not_in {e : ClassUrbEvent} (h : e.klass ≠ usbtraceClassHid ∨ e.dirIn = 0) :
    inKey (.record e) = none :=
  if_neg fun hin => h.elim (fun hk => hk hin.1) fun hd => hin.2 hd

theorem noteOp_of_in (m : RateMeter) {e : ClassUrbEvent} {k : RateKey}
    (h : inKey (.record e) = some k) : noteOp m (.record e) = noteRecord m e :=
  if_pos (by rw [h]; rfl)

theorem noteOp_of_none (m : RateMeter) {op : RateOp} (h : inKey op = none) :
    noteOp m op = m := by
  cases op with
  | stop => rfl
  | record e => exact if_neg (by rw [h]; decide)

/-- A flush. -/
def flushed (m : RateMeter) (nowNs : UInt64) : RateMeter × List RateWindow :=
  ({ slots := m.slots.mapValues HidRateSlot.clearWindow, windowStartNs := nowNs },
    [⟨m.windowStartNs, nowNs, m.slots⟩])

/-! ## The slots -/

theorem noteSlots_of_hasRoom {slots : BoundedMap RateKey HidRateSlot 16} {e : ClassUrbEvent}
    (h : slots.HasRoom (rateKey e)) :
    (noteSlots slots e).lookup (rateKey e) =
      some (slotNote ((slots.lookup (rateKey e)).getD (newSlot e)) e) := by
  obtain ⟨hsnd, hfst⟩ := BoundedMap.lookupOrInit_of_hasRoom h (newSlot e)
  unfold noteSlots
  rcases hl : slots.lookupOrInit (rateKey e) (newSlot e) with ⟨slots', s⟩
  rw [hl] at hsnd hfst
  dsimp only at hsnd hfst
  rw [hsnd]
  exact BoundedMap.lookup_update_self (BoundedMap.hasRoom_of_lookup hfst) _

theorem noteSlots_of_not_hasRoom {slots : BoundedMap RateKey HidRateSlot 16} {e : ClassUrbEvent}
    (h : ¬slots.HasRoom (rateKey e)) : noteSlots slots e = slots := by
  unfold noteSlots
  rw [BoundedMap.lookupOrInit_of_not_hasRoom h]

theorem noteSlots_of_ne (slots : BoundedMap RateKey HidRateSlot 16) (e : ClassUrbEvent)
    {k : RateKey} (hk : k ≠ rateKey e) : (noteSlots slots e).lookup k = slots.lookup k := by
  have hother := BoundedMap.lookupOrInit_of_ne slots hk (newSlot e)
  unfold noteSlots
  rcases hl : slots.lookupOrInit (rateKey e) (newSlot e) with ⟨slots', s⟩
  rw [hl] at hother
  cases s with
  | none => rfl
  | some s =>
    dsimp only
    rw [BoundedMap.lookup_update_of_ne _ hk, hother]

/-! ## One operation -/

/-- **A record** is noted; a flush follows a report that ends the window. -/
theorem rateOnIn_eq {cfg : RateConfig} (hrate : cfg.rate = true) (m : RateMeter)
    {e : ClassUrbEvent} (hin : e.dirIn ≠ 0) :
    rateOnIn cfg m e =
      if e.status = 0 ∧ m.slots.HasRoom (rateKey e) ∧
          e.hdr.tsNs - (noteRecord m e).windowStartNs ≥ cfg.windowNs then
        rateFlushWindow cfg (noteRecord m e) e.hdr.tsNs false
      else (noteRecord m e, []) := by
  unfold rateOnIn
  dsimp only
  rw [if_neg (by simp [hrate, hin])]
  by_cases hroom : m.slots.HasRoom (rateKey e)
  · obtain ⟨hsnd, -⟩ := BoundedMap.lookupOrInit_of_hasRoom hroom (newSlot e)
    rcases hl : m.slots.lookupOrInit (rateKey e) (newSlot e) with ⟨slots', s⟩
    have hl' : m.slots.lookupOrInit (rateKey e) { vid := e.vid, product := e.product } =
        (slots', s) := hl
    rw [hl] at hsnd
    dsimp only at hsnd
    have hslots : noteSlots m.slots e =
        slots'.update (rateKey e) (slotNote ((m.slots.lookup (rateKey e)).getD (newSlot e)) e) := by
      unfold noteSlots
      rw [hl, hsnd]
    rw [hl', hsnd]
    dsimp only
    unfold noteRecord
    rw [hslots]
    by_cases hstatus : e.status = 0
    · simp only [hstatus, hroom, slotNote, ne_eq, not_true_eq_false, if_false, true_and]
    · simp only [hstatus, slotNote, ne_eq, not_false_eq_true, if_true, false_and, if_false]
  · have hl := BoundedMap.lookupOrInit_of_not_hasRoom hroom (newSlot e)
    have hl' : m.slots.lookupOrInit (rateKey e) { vid := e.vid, product := e.product } =
        (m.slots, none) := hl
    have hnote : noteRecord m e = m := by
      unfold noteRecord
      rw [noteSlots_of_not_hasRoom hroom, if_neg fun h => hroom h.2.1]
    rw [hl', hnote]
    dsimp only
    rw [if_neg fun h => hroom h.2.1]

/-- A flush that takes place is one. -/
theorem rateFlushWindow_cases (cfg : RateConfig) (m : RateMeter) (nowNs : UInt64) (final : Bool) :
    rateFlushWindow cfg m nowNs final = (m, []) ∨
      (m.windowStartNs ≠ 0 ∧ m.windowStartNs < nowNs ∧
        rateFlushWindow cfg m nowNs final = flushed m nowNs) := by
  unfold rateFlushWindow
  split_ifs with hstart hshort
  · exact .inl rfl
  · exact .inl rfl
  · rw [not_or] at hstart
    exact .inr ⟨hstart.1, UInt64.not_le.mp hstart.2, rfl⟩

/-- **A record** is noted, and a flush that follows it is at the time of a report. -/
theorem recordStep_cases {cfg : RateConfig} (hrate : cfg.rate = true) (m : RateMeter)
    (e : ClassUrbEvent) :
    rateStep cfg m (.record e) = (noteOp m (.record e), []) ∨
      (inKey (.record e) = some (rateKey e) ∧ e.status = 0 ∧
        (noteOp m (.record e)).windowStartNs ≠ 0 ∧
        (noteOp m (.record e)).windowStartNs < e.hdr.tsNs ∧
        rateStep cfg m (.record e) = flushed (noteOp m (.record e)) e.hdr.tsNs) := by
  have hstep : rateStep cfg m (.record e) =
      if e.klass = usbtraceClassHid then rateOnIn cfg m e else (m, []) := rfl
  rw [hstep]
  by_cases hklass : e.klass = usbtraceClassHid
  · rw [if_pos hklass]
    by_cases hin : e.dirIn = 0
    · rw [noteOp_of_none m (inKey_of_not_in (.inr hin))]
      exact .inl (if_pos (.inr hin))
    · have hkey := inKey_of_in hklass hin
      rw [noteOp_of_in m hkey, rateOnIn_eq hrate m hin]
      split_ifs with hflush
      · apply (rateFlushWindow_cases cfg (noteRecord m e) e.hdr.tsNs false).imp id
        intro h
        exact ⟨hkey, hflush.1, h⟩
      · exact .inl rfl
  · rw [if_neg hklass, noteOp_of_none m (inKey_of_not_in (.inl hklass))]
    exact .inl rfl

/-- **An operation** notes its record, and may flush the window then. -/
theorem rateStep_cases {cfg : RateConfig} (hrate : cfg.rate = true) (m : RateMeter)
    (op : RateOp) :
    rateStep cfg m op = (noteOp m op, []) ∨
      ∃ nowNs, (noteOp m op).windowStartNs ≠ 0 ∧ (noteOp m op).windowStartNs < nowNs ∧
        rateStep cfg m op = flushed (noteOp m op) nowNs := by
  cases op with
  | stop =>
    have hnote : noteOp m .stop = m := rfl
    have hstep : rateStep cfg m .stop =
        if cfg.rate ∧ m.windowStartNs ≠ 0 ∧ lastReport m > m.windowStartNs then
          rateFlushWindow cfg m (lastReport m) true
        else (m, []) := rfl
    rw [hnote, hstep]
    split_ifs
    · exact (rateFlushWindow_cases cfg m (lastReport m) true).imp id fun h => ⟨_, h⟩
    · exact .inl rfl
  | record e =>
    apply (recordStep_cases hrate m e).imp id
    intro h
    exact ⟨_, h.2.2⟩

/-! ## A report -/

/-- The slot with the interval before a report noted. -/
def noteInterval (s : HidRateSlot) (ts : UInt64) : HidRateSlot :=
  if s.lastTsNs ≠ 0 ∧ ts > s.lastTsNs then slotNoteInterval s (ts - s.lastTsNs) else s

/-- The slot with a gap, and with an interval that is none. -/
def noteGap (s : HidRateSlot) : HidRateSlot :=
  { s with winGaps := s.winGaps + 1, totalGaps := s.totalGaps + 1 }
def noteSample (s : HidRateSlot) (iv : UInt64) : HidRateSlot :=
  { s with
    winIvCount := s.winIvCount + 1
    totalIvCount := s.totalIvCount + 1
    winSumIvNs := s.winSumIvNs + iv
    totalSumIvNs := s.totalSumIvNs + iv
    winMinIvNs := lowerMin s.winMinIvNs iv
    winMaxIvNs := raiseMax s.winMaxIvNs iv
    totalMinIvNs := lowerMin s.totalMinIvNs iv
    totalMaxIvNs := raiseMax s.totalMaxIvNs iv }

theorem slotNoteLen_eq (s : HidRateSlot) (len : UInt32) :
    ∃ role mouse kbd other, slotNoteLen s len =
      { s with role := role, lenMouse := mouse, lenKbd := kbd, lenOther := other } := by
  have hvote : ∃ mouse kbd other,
      (if len = 4 then { s with lenMouse := s.lenMouse + 1 }
        else if len = 8 ∨ len = 9 ∨ len = 17 then { s with lenKbd := s.lenKbd + 1 }
        else { s with lenOther := s.lenOther + 1 }) =
      { s with lenMouse := mouse, lenKbd := kbd, lenOther := other } := by
    split_ifs
    · exact ⟨_, _, _, rfl⟩
    · exact ⟨_, _, _, rfl⟩
    · exact ⟨_, _, _, rfl⟩
  obtain ⟨mouse, kbd, other, hvote⟩ := hvote
  rw [slotNoteLen, hvote]
  dsimp only
  split_ifs <;> exact ⟨_, mouse, kbd, other, rfl⟩

/-- **A report** is counted with the interval before it. -/
theorem slotNoteReport_eq (s : HidRateSlot) (ts : UInt64) (len : UInt32) :
    ∃ role mouse kbd other, slotNoteReport s ts len =
      { noteInterval s ts with
        role := role, lenMouse := mouse, lenKbd := kbd, lenOther := other, lastTsNs := ts
        winCount := s.winCount + 1, totalCount := s.totalCount + 1 } := by
  obtain ⟨role, mouse, kbd, other, hlen⟩ := slotNoteLen_eq s len
  refine ⟨role, mouse, kbd, other, ?_⟩
  unfold slotNoteReport noteInterval slotNoteInterval
  rw [hlen]
  dsimp only
  split_ifs <;> rfl

/-- **The interval** before a report: none, a gap, or one that is counted. -/
theorem noteInterval_cases (s : HidRateSlot) (ts : UInt64) :
    ((s.lastTsNs = 0 ∨ ts ≤ s.lastTsNs) ∧ noteInterval s ts = s) ∨
    (s.lastTsNs ≠ 0 ∧ s.lastTsNs.toNat < ts.toNat ∧
      (ts - s.lastTsNs).toNat = ts.toNat - s.lastTsNs.toNat ∧
      ((50000000 < (ts - s.lastTsNs).toNat ∧ noteInterval s ts = noteGap s) ∨
        ((ts - s.lastTsNs).toNat ≤ 50000000 ∧
          noteInterval s ts = noteSample s (ts - s.lastTsNs)))) := by
  unfold noteInterval
  by_cases hiv : s.lastTsNs ≠ 0 ∧ ts > s.lastTsNs
  · right
    have hlt : s.lastTsNs.toNat < ts.toNat := UInt64.lt_iff_toNat_lt.mp hiv.2
    have hsub : (ts - s.lastTsNs).toNat = ts.toNat - s.lastTsNs.toNat :=
      UInt64.toNat_sub_of_le ts s.lastTsNs (UInt64.le_iff_toNat_le.mpr hlt.le)
    have hpos : ts - s.lastTsNs ≠ 0 := by
      rw [ne_eq, ← UInt64.toNat_inj, hsub]
      show ¬ts.toNat - s.lastTsNs.toNat = 0
      omega
    have hgap : ts - s.lastTsNs > hidRateGapNs ↔ 50000000 < (ts - s.lastTsNs).toNat :=
      UInt64.lt_iff_toNat_lt
    refine ⟨hiv.1, hlt, hsub, ?_⟩
    rw [if_pos hiv, slotNoteInterval, if_neg hpos]
    by_cases hlong : ts - s.lastTsNs > hidRateGapNs
    · exact .inl ⟨hgap.mp hlong, if_pos hlong⟩
    · exact .inr ⟨not_lt.mp fun h => hlong (hgap.mpr h), if_neg hlong⟩
  · left
    rw [not_and_or, not_not] at hiv
    exact ⟨hiv.imp id UInt64.not_lt.mp, if_neg (by rw [not_and_or, not_not]; exact hiv)⟩

end UsbTrace.Interface

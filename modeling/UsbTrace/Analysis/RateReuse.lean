import UsbTrace.Analysis.RateTotals

/-!
# The slots of the rate meter across plug and unplug cycles

The meter knows devices by their numbers and never gives a slot back.  Over any run its
slots are those of the first 16 endpoint numbers with an IN record (`run_serves`), whatever
is attached when.
-/

set_option autoImplicit false

namespace UsbTrace.Analysis

open UsbTrace.Model UsbTrace.Interface UsbTrace.Library

variable {Device : Type}

/-! ## The buses -/

/-- A device that is plugged in, with the numbers it is given. -/
structure Attachment (Device : Type) where
  device : Device
  busnum : UInt16
  devnum : UInt16
  inEndpoints : List UInt8

inductive BusOp (Device : Type) where
  | plug (a : Attachment Device)
  | unplug (d : Device)
  | record (d : Device) (e : ClassUrbEvent)

/-- The devices on the buses, and the meter. -/
structure Bench (Device : Type) where
  attached : List (Attachment Device)
  meter : RateMeter

def Bench.empty : Bench Device := ⟨[], RateMeter.empty⟩

section Runs

variable [DecidableEq Device]

def benchStep (cfg : RateConfig) (s : Bench Device) :
    BusOp Device → Bench Device × List RateWindow
  | .plug a => ({ s with attached := a :: s.attached }, [])
  | .unplug d => ({ s with attached := s.attached.filter fun a => a.device ≠ d }, [])
  | .record _ e =>
    ({ s with meter := (rateStep cfg s.meter (.record e)).1 },
      (rateStep cfg s.meter (.record e)).2)

def benchAfter (cfg : RateConfig) (ops : List (BusOp Device)) : Bench Device :=
  finalState (benchStep cfg) Bench.empty ops

/-- What can happen next on buses with at most 16 live IN endpoints: numbers are given once at
a time, and records come from live endpoints. -/
def Allowed (s : Bench Device) : BusOp Device → Prop
  | .plug a =>
    (∀ b ∈ s.attached, b.device ≠ a.device ∧ ¬(b.busnum = a.busnum ∧ b.devnum = a.devnum)) ∧
      a.inEndpoints.Nodup ∧ ((a :: s.attached).map fun b => b.inEndpoints.length).sum ≤ 16
  | .unplug d => ∃ a ∈ s.attached, a.device = d
  | .record d e =>
    ∃ a ∈ s.attached, a.device = d ∧ a.busnum = e.busnum ∧ a.devnum = e.devnum ∧
      (e.dirIn ≠ 0 → e.ep ∈ a.inEndpoints)

instance (s : Bench Device) : (op : BusOp Device) → Decidable (Allowed s op)
  | .plug _ => inferInstanceAs (Decidable (_ ∧ _))
  | .unplug d => inferInstanceAs (Decidable (∃ a ∈ s.attached, a.device = d))
  | .record _ _ => inferInstanceAs (Decidable (∃ a ∈ s.attached, _))

/-! ## Whose records a slot holds -/

/-- The reports and the failures entered in the slot of an endpoint. -/
def entered (m : RateMeter) (k : RateKey) : UInt64 × UInt64 :=
  ((m.slots.lookup k).map fun s => (s.totalCount, s.errUrbs)).getD (0, 0)

/-- What the meter has entered for an endpoint after a run. -/
def enteredAfter (cfg : RateConfig) (ops : List (BusOp Device)) (k : RateKey) : UInt64 × UInt64 :=
  entered (benchAfter cfg ops).meter k

def IsReport (e : ClassUrbEvent) : Prop :=
  inKey (.record e) = some (rateKey e) ∧ e.status = 0

/-- Every report is counted in a slot, and in that slot nothing is entered for another
device. -/
def MeteredAlone (cfg : RateConfig) (ops : List (BusOp Device)) : Prop :=
  ∀ pre d e post, ops = pre ++ .record d e :: post → IsReport e →
    ∃ k, enteredAfter cfg (pre ++ [.record d e]) k = enteredAfter cfg pre k + (1, 0) ∧
      ∀ pre' d' e' post', ops = pre' ++ .record d' e' :: post' →
        enteredAfter cfg (pre' ++ [.record d' e']) k ≠ enteredAfter cfg pre' k → d' = d

/-- The endpoint numbers of the IN records of a run. -/
def busKey : BusOp Device → Option RateKey
  | .record _ e => inKey (.record e)
  | _ => none

def busKeys (ops : List (BusOp Device)) : List RateKey := ops.filterMap busKey

end Runs

/-! ## One record -/

/-- What a record is entered as. -/
def entry (e : ClassUrbEvent) : UInt64 × UInt64 := if e.status = 0 then (1, 0) else (0, 1)

theorem entry_ne_zero (e : ClassUrbEvent) : entry e ≠ (0, 0) := by
  unfold entry
  split <;> decide

theorem entered_add_zero (a : UInt64 × UInt64) : a + (0, 0) = a :=
  Prod.ext (UInt64.add_zero a.1) (UInt64.add_zero a.2)

/-- Nothing is entered only where a count stays, also where it wraps. -/
theorem entered_add_eq (a b : UInt64 × UInt64) : a + b = a ↔ b = (0, 0) := by
  rw [Prod.ext_iff, Prod.ext_iff]
  exact and_congr UInt64.add_eq_left UInt64.add_eq_left

theorem slotNote_entry (s : HidRateSlot) (e : ClassUrbEvent) :
    ((slotNote s e).totalCount, (slotNote s e).errUrbs) =
      (s.totalCount, s.errUrbs) + entry e := by
  unfold slotNote entry
  by_cases hstatus : e.status = 0
  · obtain ⟨role, mouse, kbd, other, hreport⟩ :=
      slotNoteReport_eq s e.hdr.tsNs e.actualLength
    have herr : (noteInterval s e.hdr.tsNs).errUrbs = s.errUrbs := by
      rcases noteInterval_cases s e.hdr.tsNs with ⟨-, heq⟩ | ⟨-, -, -, ⟨-, heq⟩ | ⟨-, heq⟩⟩ <;>
        rw [heq] <;> rfl
    rw [if_neg (not_not.mpr hstatus), if_pos hstatus, hreport]
    exact Prod.ext rfl (herr.trans (UInt64.add_zero _).symm)
  · rw [if_pos hstatus, if_neg hstatus]
    exact Prod.ext (UInt64.add_zero _).symm rfl

theorem entered_noteRecord (m : RateMeter) (e : ClassUrbEvent) (k : RateKey) :
    entered (noteRecord m e) k =
      entered m k + if rateKey e = k ∧ m.slots.HasRoom k then entry e else (0, 0) := by
  have hslots : (noteRecord m e).slots = noteSlots m.slots e := rfl
  by_cases hk : rateKey e = k
  · subst hk
    by_cases hroom : m.slots.HasRoom (rateKey e)
    · have hold : entered m (rateKey e) =
          (((m.slots.lookup (rateKey e)).getD (newSlot e)).totalCount,
            ((m.slots.lookup (rateKey e)).getD (newSlot e)).errUrbs) := by
        unfold entered
        cases m.slots.lookup (rateKey e) <;> rfl
      rw [if_pos ⟨rfl, hroom⟩, hold, ← slotNote_entry, entered, hslots, noteSlots_of_hasRoom hroom]
      rfl
    · rw [if_neg fun h => hroom h.2, entered_add_zero, entered, entered, hslots,
        noteSlots_of_not_hasRoom hroom]
  · have hother := noteSlots_of_ne m.slots e fun h => hk h.symm
    rw [if_neg fun h => hk h.1, entered_add_zero, entered, entered, hslots, hother]

theorem entered_flushed (m : RateMeter) (nowNs : UInt64) (k : RateKey) :
    entered (flushed m nowNs).1 k = entered m k := by
  have hlookup : (flushed m nowNs).1.slots.lookup k =
      (m.slots.lookup k).map HidRateSlot.clearWindow := BoundedMap.lookup_mapValues _ _ _
  rw [entered, entered, hlookup]
  cases m.slots.lookup k <;> rfl

/-- **A record** is entered in the slot of its numbers, if there is room for one. -/
theorem entered_rateStep {cfg : RateConfig} (hrate : cfg.rate = true) (m : RateMeter)
    (e : ClassUrbEvent) (k : RateKey) :
    entered (rateStep cfg m (.record e)).1 k =
      entered m k + if inKey (.record e) = some k ∧ m.slots.HasRoom k then entry e else (0, 0) := by
  have hnote : entered (rateStep cfg m (.record e)).1 k = entered (noteOp m (.record e)) k := by
    rcases recordStep_cases hrate m e with hstep | ⟨-, -, -, -, hstep⟩
    · rw [hstep]
    · rw [hstep, entered_flushed]
  rw [hnote]
  cases hin : inKey (.record e) with
  | none =>
    rw [noteOp_of_none m hin, if_neg fun h => (Option.some_ne_none k) h.1.symm,
      entered_add_zero]
  | some k' =>
    obtain ⟨e', he, -, -, hkey⟩ := inKey_eq_some hin
    cases he
    simp only [noteOp_of_in m hin, entered_noteRecord, hkey, Option.some.injEq]

theorem serves_noteSlots {slots : BoundedMap RateKey HidRateSlot 16} {l : List RateKey}
    (h : slots.Serves l) (e : ClassUrbEvent) : (noteSlots slots e).Serves (l ++ [rateKey e]) := by
  have hupdate := h.update (rateKey e) (newSlot e)
  have hkeys : (noteSlots slots e).keys = (slots.update (rateKey e) (newSlot e)).keys := by
    have hinit := BoundedMap.keys_lookupOrInit slots (rateKey e) (newSlot e)
    have hsnd := BoundedMap.lookupOrInit_snd slots (rateKey e) (newSlot e)
    by_cases hroom : slots.HasRoom (rateKey e)
    · obtain ⟨hvalue, -⟩ := BoundedMap.lookupOrInit_of_hasRoom hroom (newSlot e)
      unfold noteSlots
      rcases hl : slots.lookupOrInit (rateKey e) (newSlot e) with ⟨slots', s⟩
      rw [hl] at hinit hsnd hvalue
      dsimp only at hinit hsnd hvalue
      rw [hvalue] at hsnd ⊢
      show (slots'.update (rateKey e) _).keys = _
      rw [BoundedMap.keys_update, if_pos (BoundedMap.mem_keys_iff.mpr (by rw [← hsnd]; rfl)), hinit]
    · rw [noteSlots_of_not_hasRoom hroom, BoundedMap.update_of_not_hasRoom hroom]
  unfold BoundedMap.Serves at hupdate ⊢
  rw [hkeys, hupdate]

/-! ## Every run -/

section Runs

variable [DecidableEq Device]

theorem benchAfter_concat (cfg : RateConfig) (ops : List (BusOp Device)) (op : BusOp Device) :
    benchAfter cfg (ops ++ [op]) = (benchStep cfg (benchAfter cfg ops) op).1 :=
  finalState_concat _ _ _ _

/-- **In every run** the slots are those of the first 16 endpoint numbers. -/
theorem run_serves {cfg : RateConfig} (hrate : cfg.rate = true) (ops : List (BusOp Device)) :
    (benchAfter cfg ops).meter.slots.Serves (busKeys ops) := by
  induction ops using List.reverseRecOn with
  | nil => exact BoundedMap.serves_empty
  | append_singleton ops op ih =>
    have hkeys : busKeys (ops ++ [op]) = busKeys ops ++ (busKey op).toList := by
      rw [busKeys, List.filterMap_append, busKeys, List.filterMap_cons]
      cases busKey op <;> rfl
    rw [benchAfter_concat, hkeys]
    cases op with
    | plug a =>
      show (benchAfter cfg ops).meter.slots.Serves (busKeys ops ++ [])
      rw [List.append_nil]
      exact ih
    | unplug d =>
      show (benchAfter cfg ops).meter.slots.Serves (busKeys ops ++ [])
      rw [List.append_nil]
      exact ih
    | record d e =>
      show (rateStep cfg (benchAfter cfg ops).meter (.record e)).1.slots.Serves
        (busKeys ops ++ (inKey (.record e)).toList)
      have hnote : (noteOp (benchAfter cfg ops).meter (.record e)).slots.Serves
          (busKeys ops ++ (inKey (.record e)).toList) := by
        cases hin : inKey (.record e) with
        | none =>
          rw [noteOp_of_none _ hin, Option.toList_none, List.append_nil]
          exact ih
        | some k =>
          obtain ⟨e', he, -, -, hkey⟩ := inKey_eq_some hin
          cases he
          rw [noteOp_of_in _ hin, ← hkey]
          exact serves_noteSlots ih e
      rcases recordStep_cases hrate (benchAfter cfg ops).meter e with hstep | ⟨-, -, -, -, hstep⟩
      · rw [hstep]
        exact hnote
      · rw [hstep]
        unfold BoundedMap.Serves at hnote ⊢
        rw [← hnote]
        exact congrArg List.reverse (BoundedMap.keys_mapValues _ _)

/-- **A record of a run** is entered if its numbers are among the first 16. -/
theorem enteredAfter_record {cfg : RateConfig} (hrate : cfg.rate = true)
    {ops pre post : List (BusOp Device)} {d : Device} {e : ClassUrbEvent}
    (hops : ops = pre ++ .record d e :: post) (k : RateKey) :
    enteredAfter cfg (pre ++ [.record d e]) k =
      enteredAfter cfg pre k +
        if inKey (.record e) = some k ∧ k ∈ BoundedMap.served 16 (busKeys ops) then entry e
        else (0, 0) := by
  have hstep := entered_rateStep hrate (benchAfter cfg pre).meter e k
  rw [enteredAfter, benchAfter_concat]
  show entered (rateStep cfg (benchAfter cfg pre).meter (.record e)).1 k = _
  rw [hstep]
  congr 2
  apply propext
  apply and_congr_right
  intro hin
  have hkeys : busKeys ops = (busKeys pre ++ [k]) ++ busKeys post := by
    have hkey : busKey (.record d e) = some k := hin
    rw [hops, busKeys, List.filterMap_append, List.filterMap_cons_some hkey, List.append_assoc]
    rfl
  rw [(run_serves hrate pre).hasRoom_iff k (newSlot e), hkeys]
  exact (BoundedMap.mem_served_append (List.mem_append_right _ List.mem_cons_self)).symm

theorem enteredAfter_ne_iff {cfg : RateConfig} (hrate : cfg.rate = true)
    {ops pre post : List (BusOp Device)} {d : Device} {e : ClassUrbEvent}
    (hops : ops = pre ++ .record d e :: post) (k : RateKey) :
    enteredAfter cfg (pre ++ [.record d e]) k ≠ enteredAfter cfg pre k ↔
      inKey (.record e) = some k ∧ k ∈ BoundedMap.served 16 (busKeys ops) := by
  rw [enteredAfter_record hrate hops, ne_eq, entered_add_eq]
  split
  · next h => exact iff_of_true (entry_ne_zero e) h
  · next h => exact iff_of_false (fun hne => hne rfl) h

/-- What a meter that keeps the devices apart says of the run. -/
theorem MeteredAlone.report {cfg : RateConfig} (hrate : cfg.rate = true)
    {ops : List (BusOp Device)} (halone : MeteredAlone cfg ops) {d : Device} {e : ClassUrbEvent}
    (hmem : .record d e ∈ ops) (hreport : IsReport e) :
    rateKey e ∈ BoundedMap.served 16 (busKeys ops) ∧
      ∀ d' e', .record d' e' ∈ ops → inKey (.record e') = some (rateKey e) → d' = d := by
  obtain ⟨pre, post, hops⟩ := List.append_of_mem hmem
  obtain ⟨k, hcount, hothers⟩ := halone pre d e post hops hreport
  have hentered : enteredAfter cfg (pre ++ [.record d e]) k ≠ enteredAfter cfg pre k := by
    rw [hcount, ne_eq, entered_add_eq]
    decide
  obtain ⟨hin, hserved⟩ := (enteredAfter_ne_iff hrate hops k).mp hentered
  have hk : rateKey e = k := by
    rw [hreport.1] at hin
    exact Option.some.inj hin
  rw [hk]
  refine ⟨hserved, ?_⟩
  intro d' e' hmem' hin'
  obtain ⟨pre', post', hops'⟩ := List.append_of_mem hmem'
  apply hothers pre' d' e' post' hops'
  exact (enteredAfter_ne_iff hrate hops' k).mpr ⟨hin', hserved⟩

/-- **The meter across plug and unplug cycles.**  In every run each report is counted in a slot
of its device alone if and only if each reporting endpoint has numbers among the first 16 that
an IN record came with, and no IN record of another device came with the same numbers.
SOURCE: hid.c:167-210, 302-335 -/
theorem metered_alone_iff {cfg : RateConfig} (hrate : cfg.rate = true)
    (ops : List (BusOp Device)) :
    MeteredAlone cfg ops ↔
      ∀ d e, .record d e ∈ ops → IsReport e →
        rateKey e ∈ BoundedMap.served 16 (busKeys ops) ∧
          ∀ d' e', .record d' e' ∈ ops → inKey (.record e') = some (rateKey e) → d' = d := by
  constructor
  · intro halone d e hmem hreport
    exact halone.report hrate hmem hreport
  · intro hcond pre d e post hops hreport
    have hmem : .record d e ∈ ops := by
      rw [hops]
      exact List.mem_append_right _ List.mem_cons_self
    obtain ⟨hserved, hothers⟩ := hcond d e hmem hreport
    refine ⟨rateKey e, ?_, ?_⟩
    · rw [enteredAfter_record hrate hops, if_pos ⟨hreport.1, hserved⟩, entry, if_pos hreport.2]
    · intro pre' d' e' post' hops' hentered
      obtain ⟨hin', -⟩ := (enteredAfter_ne_iff hrate hops' (rateKey e)).mp hentered
      apply hothers d' e' _ hin'
      rw [hops']
      exact List.mem_append_right _ List.mem_cons_self

end Runs

/-- A report of a mouse on bus 1. -/
def mouseReport (devnum : UInt16) (tsNs : UInt64) : ClassUrbEvent where
  hdr := { kind := evtClass, size := 64, tsNs := tsNs }
  status := 0
  errorCount := 0
  numberOfPackets := 0
  actualLength := 4
  startFrame := 0
  pid := 0
  vid := 0x1c4f
  product := 2
  busnum := 1
  devnum := devnum
  klass := usbtraceClassHid
  ep := 1
  dirIn := 1
  xferType := 1
  comm := []

/-- A mouse that is plugged in, reports once, and is unplugged. -/
def shortVisit (d : ℕ) (devnum : UInt16) (tsNs : UInt64) : List (BusOp ℕ) :=
  [.plug ⟨d, 1, devnum, [1]⟩, .record d (mouseReport devnum tsNs), .unplug d]

theorem metered_alone_sample :
    MeteredAlone secondWindows (shortVisit 0 5 1000) ↔
      ∀ d e, .record d e ∈ shortVisit 0 5 1000 → IsReport e →
        rateKey e ∈ BoundedMap.served 16 (busKeys (shortVisit 0 5 1000)) ∧
          ∀ d' e', .record d' e' ∈ shortVisit 0 5 1000 →
            inKey (.record e') = some (rateKey e) → d' = d :=
  metered_alone_iff rfl (shortVisit 0 5 1000)

/-- Seventeen mice, one at a time; and two that are given the same numbers. -/
def manyVisits : List (BusOp ℕ) :=
  (List.range 17).flatMap fun d => shortVisit d (UInt16.ofNat (d + 1)) (UInt64.ofNat (d + 1))
def sameNumbers : List (BusOp ℕ) := shortVisit 0 5 1000 ++ shortVisit 1 5 2000

/-- **The last mouse** finds no slot in the one run, and in the other the slot of the first
mouse. -/
theorem slots_not_given_back :
    (EveryStep (benchStep secondWindows) Allowed Bench.empty manyVisits ∧
      ¬MeteredAlone secondWindows manyVisits) ∧
    EveryStep (benchStep secondWindows) Allowed Bench.empty sameNumbers ∧
      ¬MeteredAlone secondWindows sameNumbers := by
  refine ⟨⟨?_, ?_⟩, ?_, ?_⟩
  · decide +kernel
  · intro halone
    have hmem : .record 16 (mouseReport 17 17) ∈ manyVisits :=
      List.mem_flatMap.mpr ⟨16, by decide, List.mem_cons_of_mem _ List.mem_cons_self⟩
    have hserved := (halone.report rfl hmem ⟨by decide, by decide⟩).1
    revert hserved
    decide +kernel
  · decide +kernel
  · intro halone
    have hfirst : .record 0 (mouseReport 5 1000) ∈ sameNumbers :=
      List.mem_append_left _ (List.mem_cons_of_mem _ List.mem_cons_self)
    have hlast : .record 1 (mouseReport 5 2000) ∈ sameNumbers :=
      List.mem_append_right _ (List.mem_cons_of_mem _ List.mem_cons_self)
    have hsame := (halone.report rfl hlast ⟨by decide, by decide⟩).2 0 _ hfirst (by decide)
    cases hsame

end UsbTrace.Analysis

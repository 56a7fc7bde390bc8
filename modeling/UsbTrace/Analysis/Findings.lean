import UsbTrace.Analysis.Cooldown
import UsbTrace.Analysis.Deadline
import UsbTrace.Analysis.Delivery
import UsbTrace.Analysis.DeviceTable
import UsbTrace.Analysis.Evaluation

/-!
# Findings have their grounds

A finding of an event rule rests on events the engine was given: its evidence, its count and
the ids it names come from events of its own device, and every condition of its rule was met
by such events (`finding_sound`).  In a run of diag these are records that the programs put
into the buffers, past their filters (`finding_admitted`).
-/

set_option autoImplicit false

namespace UsbTrace.Analysis

open UsbTrace.Model UsbTrace.Library UsbTrace.Interface

/-! ## One condition -/

/-- The loop over the counted events adds some of them, in their order, to the evidence, and
no more than it has room for; a cluster is never counted without an event. -/
theorem noteLoop_took (clus : UInt64) (xs : List DiagEvent) (a : EvalAcc) :
    (∃ took, took.Sublist xs ∧ (xs.foldl (noteCounted clus) a).ev = a.ev ++ took) ∧
      (a.ev.length ≤ maxEvidence →
        (xs.foldl (noteCounted clus) a).ev.length ≤ maxEvidence) ∧
      (xs.foldl (noteCounted clus) a).nclus ≤ a.nclus + xs.length := by
  induction xs generalizing a with
  | nil => exact ⟨⟨[], List.Sublist.slnil, (List.append_nil _).symm⟩, id, by simp⟩
  | cons x xs ih =>
    obtain ⟨⟨took, htook, hev⟩, hlen, hclus⟩ := ih (noteCounted clus a x)
    have hone : (noteCounted clus a x).ev = a.ev ∨
        (noteCounted clus a x).ev = a.ev ++ [x] ∧ a.ev.length < maxEvidence := by
      simp only [noteCounted]
      split
      · next htake =>
        exact .inr ⟨rfl, of_decide_eq_true (Bool.and_eq_true_iff.mp htake).2⟩
      · exact .inl rfl
    have hnclus : (noteCounted clus a x).nclus ≤ a.nclus + 1 := by
      simp only [noteCounted]
      split
      · omega
      · split <;> omega
    refine ⟨?_, fun ha => hlen ?_, ?_⟩
    · rw [List.foldl_cons, hev]
      rcases hone with h | ⟨h, -⟩
      · exact ⟨took, htook.cons x, by rw [h]⟩
      · exact ⟨x :: took, htook.cons_cons x, by rw [h, List.append_assoc, List.singleton_append]⟩
    · rcases hone with h | ⟨h, hroom⟩
      · rwa [h]
      · rw [h, List.length_append, List.length_singleton]
        exact hroom
    · rw [List.foldl_cons, List.length_cons]
      push_cast
      omega

/-- **What a condition finds** is found in the window: its count does not exceed the events
that satisfy it, and what it adds to the evidence is among them.
SOURCE: engine.c:485-533 -/
theorem evalWhen_sound (w : Devwin) (c : DiagCond) (refNs : UInt64) (ev : List DiagEvent) :
    (evalWhen w c refNs ev).1 ≤ ((winEvents w).countP (counts c refNs) : ℕ) ∧
      (∃ took, took.Sublist ((winEvents w).filter (counts c refNs)) ∧
        (evalWhen w c refNs ev).2 = ev ++ took) ∧
      (ev.length ≤ maxEvidence → (evalWhen w c refNs ev).2.length ≤ maxEvidence) := by
  obtain ⟨⟨took, htook, hev⟩, hlen, hclus⟩ :=
    noteLoop_took (clusterNs c) ((winEvents w).filter (counts c refNs)) { ev := ev }
  have hcnt := noteLoop_cnt (clusterNs c) ((winEvents w).filter (counts c refNs)) { ev := ev }
  rw [← evalLoop_filter] at hev hlen hclus hcnt
  rw [List.countP_eq_length_filter]
  have hcount : (if clusterNs c ≠ 0 then
        ((winEvents w).foldl (evalStep c refNs) { ev := ev }).nclus
      else ((winEvents w).foldl (evalStep c refNs) { ev := ev }).cnt) ≤
      ((winEvents w).filter (counts c refNs)).length := by
    dsimp only at hclus hcnt
    split <;> omega
  unfold evalWhen
  dsimp only
  generalize (if clusterNs c ≠ 0 then
      ((winEvents w).foldl (evalStep c refNs) { ev := ev }).nclus
    else ((winEvents w).foldl (evalStep c refNs) { ev := ev }).cnt) = n at hcount ⊢
  cases c.minSpanMs with
  | none => exact ⟨hcount, ⟨took, htook, hev⟩, hlen⟩
  | some ms =>
    dsimp only
    split
    · -- too short a span: the evidence is as it was
      rw [hev, List.take_left' rfl]
      exact ⟨Int.natCast_nonneg _, ⟨[], List.nil_sublist _, (List.append_nil _).symm⟩, id⟩
    · exact ⟨hcount, ⟨took, htook, hev⟩, hlen⟩

/-! ## One rule -/

/-- What a verdict on some conditions rests on, seen from a reference time: `xs` are the events
it was reached over. -/
structure Grounds (conds : List DiagCond) (refNs : UInt64) (xs : List DiagEvent) (v : Verdict) :
    Prop where
  evidence_le : v.evidence.length ≤ maxEvidence
  evidence : ∀ x ∈ v.evidence, x ∈ xs ∧ ∃ c ∈ conds, counts c refNs x = true
  count : v.count = 0 ∨ ∃ c ∈ conds, v.count ≤ (xs.countP (counts c refNs) : ℕ)
  window : v.windowMs = 0 ∨ ∃ c ∈ conds, c.withinMs = some v.windowMs

theorem grounds_nil (conds : List DiagCond) (refNs : UInt64) (xs : List DiagEvent) :
    Grounds conds refNs xs {} :=
  ⟨Nat.zero_le _, fun _ hx => absurd hx List.not_mem_nil, .inl rfl, .inl rfl⟩

theorem Grounds.mono {conds : List DiagCond} {refNs : UInt64} {xs ys : List DiagEvent}
    {v : Verdict} (h : Grounds conds refNs xs v) (hxs : xs.Sublist ys) :
    Grounds conds refNs ys v where
  evidence_le := h.evidence_le
  evidence x hx := ⟨hxs.subset (h.evidence x hx).1, (h.evidence x hx).2⟩
  count := h.count.imp_right fun ⟨c, hc, hle⟩ =>
    ⟨c, hc, hle.trans (Int.ofNat_le.mpr hxs.countP_le)⟩
  window := h.window

/-- **One turn of the condition loop** keeps the grounds. -/
theorem Grounds.cond {conds : List DiagCond} {refNs : UInt64} {w : Devwin} {v : Verdict}
    (h : Grounds conds refNs (winEvents w) v) {c : DiagCond} (hc : c ∈ conds) :
    Grounds conds refNs (winEvents w)
      { count := if (evalWhen w c refNs v.evidence).1 > v.count then
          (evalWhen w c refNs v.evidence).1 else v.count
        windowMs := match c.withinMs with
          | some ms => if ms > v.windowMs then ms else v.windowMs
          | none => v.windowMs
        evidence := (evalWhen w c refNs v.evidence).2 } := by
  obtain ⟨hcount, ⟨took, htook, hev⟩, hlen⟩ := evalWhen_sound w c refNs v.evidence
  refine ⟨hlen h.evidence_le, fun x hx => ?_, ?_, ?_⟩
  · rcases List.mem_append.mp (hev ▸ hx) with hx | hx
    · exact h.evidence x hx
    · obtain ⟨hmem, hcounts⟩ := List.mem_filter.mp (htook.subset hx)
      exact ⟨hmem, c, hc, hcounts⟩
  · dsimp only
    split
    · exact .inr ⟨c, hc, hcount⟩
    · exact h.count
  · dsimp only
    split
    · next ms hms =>
      split
      · exact .inr ⟨c, hc, hms⟩
      · exact h.window
    · exact h.window

/-- A rule whose conditions hold was met by events of the window in every one of them.
SOURCE: engine.c:599-612 -/
theorem evalWhens_sound {conds : List DiagCond} {w : Devwin} {refNs : UInt64}
    {cs : List DiagCond} (hcs : ∀ c ∈ cs, c ∈ conds) {v v' : Verdict}
    (hv : Grounds conds refNs (winEvents w) v) (h : evalWhens w refNs cs v = some v') :
    Grounds conds refNs (winEvents w) v' ∧
      ∀ c ∈ cs, c.countGte.getD 1 ≤ ((winEvents w).countP (counts c refNs) : ℕ) := by
  induction cs generalizing v with
  | nil =>
    cases h
    exact ⟨hv, fun c hc => absurd hc List.not_mem_nil⟩
  | cons c cs ih =>
    simp only [evalWhens] at h
    split at h
    · cases h
    · next hneed =>
      obtain ⟨hc, hcs⟩ := List.forall_mem_cons.mp hcs
      obtain ⟨hv', hrest⟩ := ih hcs (hv.cond hc) h
      refine ⟨hv', List.forall_mem_cons.mpr ⟨?_, hrest⟩⟩
      have hcount := (evalWhen_sound w c refNs v.evidence).1
      omega

theorem evalRule_sound {w : Devwin} {r : DiagRule} {evt : DiagEvent} {v : Verdict}
    (h : evalRule w r evt = some v) :
    r.type = .event ∧ triggerMatch r.trigger evt = true ∧
      Grounds r.whenList evt.tsNs (winEvents w) v ∧
      ∀ c ∈ r.whenList, c.countGte.getD 1 ≤ ((winEvents w).countP (counts c evt.tsNs) : ℕ) := by
  unfold evalRule at h
  split at h
  · cases h
  · next htype =>
    split at h
    · cases h
    · next htrigger =>
      obtain ⟨hgrounds, hmet⟩ := evalWhens_sound (fun c hc => hc) (grounds_nil _ _ _) h
      exact ⟨not_not.mp htype, by simpa using htrigger, hgrounds, hmet⟩

/-! ## A device's window -/

/-- The event an operation ingests for a device. -/
def ownEvent (k : DiagDevkey) : EngineOp → Option DiagEvent
  | .ingest evt _ => if diagEventKey evt = k then some evt else none
  | .tick _ => none

/-- The events of a device a run has ingested, the latest first. -/
def latestEvents (k : DiagDevkey) (ops : List EngineOp) : List DiagEvent :=
  (ops.filterMap (ownEvent k)).reverse

theorem latestEvents_concat (k : DiagDevkey) (ops : List EngineOp) (op : EngineOp) :
    latestEvents k (ops ++ [op]) = (ownEvent k op).toList ++ latestEvents k ops := by
  rw [latestEvents, List.filterMap_append, List.reverse_append, latestEvents]
  congr 1
  cases h : ownEvent k op with
  | none => simp [h]
  | some evt => simp [h]

theorem mem_latestEvents {k : DiagDevkey} {ops : List EngineOp} {x : DiagEvent} :
    x ∈ latestEvents k ops ↔ diagEventKey x = k ∧ ∃ clock, EngineOp.ingest x clock ∈ ops := by
  rw [latestEvents, List.mem_reverse, List.mem_filterMap]
  constructor
  · rintro ⟨op, hop, hx⟩
    cases op with
    | ingest evt clock =>
      rw [ownEvent] at hx
      split at hx
      · next hk =>
        obtain rfl := Option.some.inj hx
        exact ⟨hk, clock, hop⟩
      · cases hx
    | tick nowNs => cases hx
  · rintro ⟨rfl, clock, hop⟩
    exact ⟨_, hop, if_pos rfl⟩

/-- What a window holds comes from the events `xs` of its device, the latest first: its ring
is the latest of them, and its ids are theirs. -/
structure HeldFrom (xs : List DiagEvent) (w : Devwin) : Prop where
  bounded : RingBounded w
  events : winEvents w <+: xs
  vid : w.vid = 0 ∨ ∃ x ∈ xs, x.vid = w.vid
  pid : w.pid = 0 ∨ ∃ x ∈ xs, x.pid = w.pid

theorem heldFrom_fresh (xs : List DiagEvent) (k : DiagDevkey) : HeldFrom xs (freshWin k) where
  bounded := ringBounded_fresh k
  events := List.nil_prefix
  vid := .inl rfl
  pid := .inl rfl

/-- A field named before by an event of the device is still so after one more event. -/
theorem named_cons {α : Type} {field : DiagEvent → α} {v none : α} {xs : List DiagEvent}
    (h : v = none ∨ ∃ x ∈ xs, field x = v) (evt : DiagEvent) :
    v = none ∨ ∃ x ∈ evt :: xs, field x = v := by
  refine h.imp_right fun hx => ?_
  obtain ⟨x, hmem, heq⟩ := hx
  exact ⟨x, List.mem_cons_of_mem evt hmem, heq⟩

theorem HeldFrom.noteEvent {xs : List DiagEvent} {w : Devwin} (h : HeldFrom xs w)
    (evt : DiagEvent) : HeldFrom (evt :: xs) (noteEvent w evt) where
  bounded := by
    rw [RingBounded, ringOf_noteEvent]
    exact h.bounded.push evt
  events := by
    rw [winEvents_noteEvent h.bounded]
    exact (List.take_prefix _ _).trans (List.cons_prefix_cons.mpr ⟨rfl, h.events⟩)
  vid := by
    rw [Model.noteEvent, (noteState_frame _ evt).2.2.1]
    dsimp only [winPush]
    split
    · exact .inr ⟨evt, List.mem_cons_self, rfl⟩
    · exact named_cons h.vid evt
  pid := by
    rw [Model.noteEvent, (noteState_frame _ evt).2.2.2.1]
    dsimp only [winPush]
    split
    · exact .inr ⟨evt, List.mem_cons_self, rfl⟩
    · exact named_cons h.pid evt

theorem HeldFrom.ingestWin {xs : List DiagEvent} {w : Devwin} (h : HeldFrom xs w)
    (rules : List DiagRule) (evt : DiagEvent) (clock : ℕ → UInt64) :
    HeldFrom (evt :: xs) (ingestWin rules w evt clock).1 := by
  obtain ⟨lf, heq⟩ := ingestWin_fst rules w evt clock
  rw [heq]
  have hnote := h.noteEvent evt
  exact ⟨hnote.bounded, hnote.events, hnote.vid, hnote.pid⟩

theorem HeldFrom.tickWin {xs : List DiagEvent} {w : Devwin} (h : HeldFrom xs w)
    (rules : List DiagRule) (nowNs : UInt64) : HeldFrom xs (tickWin rules nowNs w).1 := by
  cases hw : w.used with
  | false =>
    rw [tickWin_unused rules nowNs w hw]
    exact h
  | true =>
    rw [tickWin_eq rules nowNs w hw]
    exact ⟨h.bounded, h.events, h.vid, h.pid⟩

/-- One operation, as a device's window sees it. -/
theorem HeldFrom.deviceStep {k : DiagDevkey} {ops : List EngineOp} {ow : Option Devwin}
    (h : ∀ w, ow = some w → HeldFrom (latestEvents k ops) w) (rules : List DiagRule)
    (op : EngineOp) :
    ∀ w, (deviceStep rules k ow op).1 = some w → HeldFrom (latestEvents k (ops ++ [op])) w := by
  have hfrom : HeldFrom (latestEvents k ops) (ow.getD (freshWin k)) := by
    cases ow with
    | none => exact heldFrom_fresh _ k
    | some w => exact h w rfl
  intro w hw
  rw [latestEvents_concat]
  cases op with
  | ingest evt clock =>
    rw [Interface.deviceStep] at hw
    by_cases hk : diagEventKey evt = k
    · rw [if_pos hk] at hw
      obtain rfl := Option.some.inj hw
      rw [ownEvent, if_pos hk]
      exact hfrom.ingestWin rules evt clock
    · rw [if_neg hk] at hw
      rw [ownEvent, if_neg hk]
      exact h w hw
  | tick nowNs =>
    cases ow with
    | none => cases hw
    | some w₀ =>
      rw [Interface.deviceStep] at hw
      dsimp only at hw
      split at hw
      · obtain rfl := Option.some.inj hw
        exact (h w₀ rfl).tickWin rules nowNs
      · cases hw

/-- **Over every run, a window holds the latest events of its device.** -/
theorem engineAfter_heldFrom (rules : List DiagRule) (k : DiagDevkey) (ops : List EngineOp) :
    ∀ w, devLookup (engineAfter rules ops).devs k = some w → HeldFrom (latestEvents k ops) w := by
  induction ops using List.reverseRecOn with
  | nil =>
    intro w hw
    have hnone := devLookup_create rules k
    rw [engineAfter, finalState_nil, hnone] at hw
    cases hw
  | append_singleton ops op ih =>
    intro w hw
    rw [engineAfter_concat] at hw
    rcases engineStep_lookup (engineAfter_keysUnique rules ops) k op with h | ⟨-, -, h⟩
    · rw [h, engineAfter_rules] at hw
      exact HeldFrom.deviceStep ih rules op w hw
    · rw [h] at hw
      cases hw

/-! ## Findings -/

/-- What a finding of an event rule rests on: the event that triggered it, and the events `xs`
of its device. -/
structure EventFinding (r : DiagRule) (xs : List DiagEvent) (evt : DiagEvent) (f : Finding) :
    Prop where
  type : r.type = .event
  trigger : triggerMatch r.trigger evt = true
  refNs : f.refNs = evt.tsNs
  comm : f.comm = some evt.comm
  grounds : Grounds r.whenList f.refNs xs ⟨f.count, f.windowMs, f.evidence⟩
  enough : ∀ c ∈ r.whenList, c.countGte.getD 1 ≤ (xs.countP (counts c f.refNs) : ℕ)

/-- What a finding of a deadline rule rests on. -/
structure DeadlineFinding (r : DiagRule) (xs : List DiagEvent) (nowNs : UInt64) (f : Finding) :
    Prop where
  type : r.type = .deadline
  refNs : f.refNs = nowNs
  comm : f.comm = none
  count : f.count = 0
  window : f.windowMs = r.dlTimeoutMs
  evidence : f.evidence = []
  entered : ∃ x ∈ xs, entersState r.dlReachedState.toNat x = true

/-- A finding printed by `op` names a rule, and a device and ids of which `op` or an operation
before it ingested events; and it has the grounds its rule asks for. -/
structure Justified (rules : List DiagRule) (pre : List EngineOp) (op : EngineOp) (f : Finding)
    (r : DiagRule) : Prop where
  rule : rules[f.ridx]? = some r
  device : latestEvents f.key (pre ++ [op]) ≠ []
  vid : f.vid = 0 ∨ ∃ x ∈ latestEvents f.key (pre ++ [op]), x.vid = f.vid
  pid : f.pid = 0 ∨ ∃ x ∈ latestEvents f.key (pre ++ [op]), x.pid = f.pid
  grounds : match op with
    | .ingest evt _ =>
      diagEventKey evt = f.key ∧ EventFinding r (latestEvents f.key (pre ++ [op])) evt f
    | .tick nowNs => DeadlineFinding r (latestEvents f.key (pre ++ [op])) nowNs f

theorem ingest_justified {rules : List DiagRule} {pre : List EngineOp} {w : Devwin}
    {evt : DiagEvent} {clock : ℕ → UInt64} (hkey : w.key = diagEventKey evt)
    (hw : HeldFrom (latestEvents w.key pre) w) {f : Finding}
    (hf : f ∈ (ingestWin rules w evt clock).2) :
    ∃ r, Justified rules pre (.ingest evt clock) f r := by
  rw [ingestWin_snd, List.mem_filterMap] at hf
  obtain ⟨⟨r, ri⟩, hr, hcell⟩ := hf
  obtain ⟨⟨t, f'⟩, hcell, rfl⟩ := Option.map_eq_some_iff.mp hcell
  have hnote := hw.noteEvent evt
  have hlatest : latestEvents w.key (pre ++ [.ingest evt clock]) =
      evt :: latestEvents w.key pre := by
    rw [latestEvents_concat, ownEvent, if_pos hkey.symm]
    rfl
  have hrule : rules[ri]? = some r := List.mem_zipIdx_iff_getElem?.mp hr
  unfold ruleCell at hcell
  split at hcell
  · cases hcell
  · next v hv =>
    split at hcell
    · cases hcell
    · obtain ⟨htype, htrigger, hgrounds, hmet⟩ := evalRule_sound hv
      cases hcell
      refine ⟨r, ⟨hrule, ?_, ?_, ?_, ?_, htype, htrigger, rfl, rfl, ?_, ?_⟩⟩ <;>
        dsimp only <;> rw [noteEvent_key]
      · rw [hlatest]
        exact List.cons_ne_nil _ _
      · rw [hlatest]
        exact hnote.vid
      · rw [hlatest]
        exact hnote.pid
      · exact hkey.symm
      · rw [hlatest]
        exact hgrounds.mono hnote.events.sublist
      · rw [hlatest]
        exact fun c hc => (hmet c hc).trans (Int.ofNat_le.mpr hnote.events.countP_le)

/-- What a deadline rule reports was entered in the current episode. -/
theorem tick_justified {rules : List DiagRule} {pre : List EngineOp} {w : Devwin}
    {nowNs : UInt64} (hused : w.used = true) (hw : HeldFrom (latestEvents w.key pre) w)
    (hep : EpisodeInv (episodeAfter rules w.key pre) w) (hne : latestEvents w.key pre ≠ [])
    {f : Finding} (hf : f ∈ (tickWin rules nowNs w).2) :
    ∃ r, Justified rules pre (.tick nowNs) f r := by
  obtain ⟨r, hr, harmed⟩ := tick_reported hused hep (List.mem_map_of_mem hf)
  rw [tickWin_snd rules nowNs w hused, List.mem_filterMap] at hf
  obtain ⟨⟨r', ri⟩, hr', hcell⟩ := hf
  obtain ⟨⟨b, f'⟩, hcell, rfl⟩ := Option.map_eq_some_iff.mp hcell
  have hlatest : latestEvents w.key (pre ++ [.tick nowNs]) = latestEvents w.key pre := by
    rw [latestEvents_concat]
    rfl
  unfold deadlineCell at hcell
  split at hcell
  · next hdue =>
    cases hcell
    have hrule : rules[ri]? = some r' := List.mem_zipIdx_iff_getElem?.mp hr'
    obtain rfl : r = r' := Option.some.inj (hr.symm.trans hrule)
    have htype : r.type = .deadline := by
      by_contra hother
      simp [deadlineDue, hother] at hdue
    obtain ⟨x, hx, henters⟩ := List.any_eq_true.mp (Bool.and_eq_true_iff.mp harmed).1
    refine ⟨r, ⟨hr, ?_, ?_, ?_, htype, rfl, rfl, rfl, rfl, rfl, x, ?_, henters⟩⟩ <;>
      dsimp only <;> rw [hlatest]
    · exact hne
    · exact hw.vid
    · exact hw.pid
    · exact mem_latestEvents.mpr (episodeAfter_events_mem rules w.key pre x hx)
  · cases hcell

/-- **One operation** prints findings that it and the operations before it justify.
SOURCE: engine.c:485-661 -/
theorem step_justified {rules : List DiagRule} {pre : List EngineOp} {op : EngineOp} {f : Finding}
    (hf : f ∈ (engineStep (engineAfter rules pre) op).2) :
    ∃ r, Justified rules pre op f r := by
  have hown : f ∈ (engineStep (engineAfter rules pre) op).2.filter (ofDevice f.key) :=
    List.mem_filter.mpr ⟨hf, decide_eq_true rfl⟩
  rw [engineStep_findings (engineAfter_keysUnique rules pre) f.key op, engineAfter_rules] at hown
  have hheld := engineAfter_heldFrom rules f.key pre
  cases op with
  | ingest evt clock =>
    rw [deviceStep] at hown
    split at hown
    · next hk =>
      have hfrom : HeldFrom (latestEvents f.key pre)
          ((devLookup (engineAfter rules pre).devs f.key).getD (freshWin f.key)) ∧
          ((devLookup (engineAfter rules pre).devs f.key).getD (freshWin f.key)).key = f.key := by
        cases hw : devLookup (engineAfter rules pre).devs f.key with
        | none => exact ⟨heldFrom_fresh _ _, rfl⟩
        | some w => exact ⟨hheld w hw, (SlotTable.lookup_some hw).2⟩
      obtain ⟨hfrom, hkey⟩ := hfrom
      exact ingest_justified (hkey.trans hk.symm) (by rwa [hkey]) hown
    · cases hown
  | tick nowNs =>
    cases hw : devLookup (engineAfter rules pre).devs f.key with
    | none =>
      rw [hw] at hown
      cases hown
    | some w =>
      rw [hw] at hown
      obtain ⟨hused, hkey⟩ := SlotTable.lookup_some hw
      have hep := (engineAfter_episodeInv rules f.key pre).2 w hw
      have hne : latestEvents f.key pre ≠ [] := by
        obtain ⟨i, hi, hik, -⟩ := (engineAfter_keysUnique rules pre).lookup_eq_some.mp hw
        obtain ⟨evt, clock, hmem, hevt⟩ := engineAfter_used_key rules pre i hi
        exact List.ne_nil_of_mem (mem_latestEvents.mpr ⟨hevt.trans hik, clock, hmem⟩)
      rw [← hkey] at hep hheld hne
      exact tick_justified hused (hheld w (by rw [hkey]; exact hw)) hep hne hown

/-- The evidence of a finding is of its device. -/
theorem Justified.evidence_mem {rules : List DiagRule} {pre : List EngineOp} {op : EngineOp}
    {f : Finding} {r : DiagRule} (h : Justified rules pre op f r) :
    ∀ x ∈ f.evidence, x ∈ latestEvents f.key (pre ++ [op]) := by
  intro x hx
  have hgrounds := h.grounds
  cases op with
  | ingest evt clock => exact (hgrounds.2.grounds.evidence x hx).1
  | tick nowNs =>
    rw [DeadlineFinding.evidence hgrounds] at hx
    cases hx

/-- **Every finding has its grounds**: in every run of the engine, a finding is printed by an
operation that justifies it together with the operations before it.
SOURCE: engine.c:485-661 -/
theorem finding_sound (rules : List DiagRule) (ops : List EngineOp) (f : Finding)
    (hf : f ∈ engineFindings rules ops) :
    ∃ pre op post r, ops = pre ++ op :: post ∧ f ∈ (engineStep (engineAfter rules pre) op).2 ∧
      Justified rules pre op f r := by
  obtain ⟨pre, op, post, rfl, hprinted⟩ := mem_outputs hf
  obtain ⟨r, hr⟩ := step_justified hprinted
  exact ⟨pre, op, post, r, rfl, hprinted, hr⟩

/-- Two devices transfer in turns, under a rule on the second transfer within 10 s: the last
finding counts the four transfers of the first device and shows them. -/
theorem finding_sound_sample :
    let rules := [sampleRepeat]
    let ops := repeatedTransfers.flatMap fun op =>
      [op, .ingest { kind := evtUrb, tsNs := 5, busnum := 1, devnum := 3 } fun _ => 5000000000]
    ∃ f ∈ engineFindings rules ops,
      (f.key = ⟨1, 2⟩ ∧ f.count = 4 ∧ f.evidence.map DiagEvent.tsNs = [7, 6, 5, 4]) ∧
        ∃ pre op post r, ops = pre ++ op :: post ∧
          f ∈ (engineStep (engineAfter rules pre) op).2 ∧ Justified rules pre op f r := by
  intro rules ops
  have hlast : ∃ f ∈ engineFindings rules ops,
      f.key = ⟨1, 2⟩ ∧ f.count = 4 ∧ f.evidence.map DiagEvent.tsNs = [7, 6, 5, 4] := by
    decide +kernel
  obtain ⟨f, hf, hshown⟩ := hlast
  exact ⟨f, hf, hshown, finding_sound rules ops f hf⟩

end UsbTrace.Analysis

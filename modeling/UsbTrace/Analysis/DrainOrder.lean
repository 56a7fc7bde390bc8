import UsbTrace.Analysis.DeviceTable
import UsbTrace.Analysis.Isolation
import UsbTrace.Analysis.Lookback
import UsbTrace.Library.Interleave
import Mathlib.Data.Finset.Card
import Mathlib.Data.Fintype.Card

/-!
# Drain order

The probes' event maps are drained into one loop with no order between them, and a rule is
evaluated when its trigger is ingested.  What a trigger sees is therefore what was drained
before it (`fires_iff`), unless a tick of the same loop has dropped the window of a device
silent for ten seconds: a rule never fires that the timestamps do not justify, and it
fires exactly as they say in every drain order that delivers a trigger's lookback first
(`drain_meaning`).  In the other orders the verdict depends on the order
(`drain_order_matters`).
-/

set_option autoImplicit false

namespace UsbTrace.Analysis

open UsbTrace.Model UsbTrace.Library UsbTrace.Interface

/-- An event drained from a source, with the clock readings its ingest makes. -/
structure Drained (ι : Type) where
  source : ι
  event : DiagEvent
  clock : ℕ → UInt64

variable {ι : Type}

/-- What the loop does next: it ingests a drained event, or it ticks (diag.c:503-524). -/
inductive LoopOp (ι : Type) where
  | event (x : Drained ι)
  | tick (nowNs : UInt64)

/-- A turn of the loop, as the engine sees it (diag.c:342-350). -/
def LoopOp.engineOp : LoopOp ι → EngineOp
  | .event x => .ingest x.event x.clock
  | .tick nowNs => .tick nowNs

/-- The event a turn of the loop drains. -/
def LoopOp.drained : LoopOp ι → Option (Drained ι)
  | .event x => some x
  | .tick _ => none

/-- A drain, as the engine sees it. -/
def drainOps (d : List (LoopOp ι)) : List EngineOp := d.map LoopOp.engineOp

/-- The events of a drain, in order. -/
def drainEvents (d : List (LoopOp ι)) : List DiagEvent :=
  (d.filterMap LoopOp.drained).map Drained.event

/-- The events of one device among those of a drain. -/
def ownEvents (k : DiagDevkey) (d : List (LoopOp ι)) : List DiagEvent :=
  (drainEvents d).filter fun x => diagEventKey x = k

/-- The rule is cooling down for the device whose event is ingested. -/
def CoolingDown (ri : ℕ) (e : DiagEngine) : EngineOp → Prop
  | .ingest evt clock => ∃ w, devLookup e.devs (diagEventKey evt) = some w ∧
      w.lastFireNs ri ≠ 0 ∧ clock ri - w.lastFireNs ri < cooldownNs
  | .tick _ => False

/-- No tick comes more than 10 s after the latest event of the device, in the engine's
unsigned difference (engine.c:658). -/
def TicksFresh (k : DiagDevkey) (d : List (LoopOp ι)) : Prop :=
  ∀ pre nowNs post, d = pre ++ .tick nowNs :: post →
    ∀ z ∈ (ownEvents k pre).getLast?, nowNs - z.tsNs ≤ retentionNs

/-- No tick finds a device silent for more than 10 s whose next event is still to come. -/
def NoEviction (d : List (LoopOp ι)) : Prop :=
  ∀ pre x post, d = pre ++ .event x :: post → TicksFresh (diagEventKey x.event) pre

/-- A drain of `sources` of at most 1024 events per device and at most 128 devices, with
ticks anywhere in it, in which no device still to be heard of is evicted and rule `ri` never
cools down. -/
structure DrainOf [DecidableEq ι] (rules : List DiagRule) (ri : ℕ)
    (sources : ι → List DiagEvent) (d : List (LoopOp ι)) : Prop where
  interleaves : Interleaves Drained.source Drained.event sources (d.filterMap LoopOp.drained)
  events_le : ∀ k, (drainEvents d).countP (fun x => diagEventKey x = k) ≤ winMaxEvents
  devices_le : ((drainEvents d).map diagEventKey).toFinset.card ≤ winMaxDevs
  noEviction : NoEviction d
  noCooldown : EveryStep engineStep (fun e op => ¬CoolingDown ri e op) (diagEngineCreate rules)
    (drainOps d)

/-- Rule `ri` fires for the trigger `x`, drained after `pre`. -/
def FiresAt (rules : List DiagRule) (ri : ℕ) (pre : List (LoopOp ι)) (x : Drained ι) : Prop :=
  ∃ f ∈ (engineStep (engineAfter rules (drainOps pre)) (.ingest x.event x.clock)).2,
    f.key = diagEventKey x.event ∧ f.ridx = ri

/-- The findings of rule `ri` in a drain: the device and the trigger. -/
def drainFindings (rules : List DiagRule) (ri : ℕ) (d : List (LoopOp ι)) :
    Set (DiagDevkey × DiagEvent) :=
  {p | ∃ pre x post, d = pre ++ .event x :: post ∧ FiresAt rules ri pre x ∧
    p = (diagEventKey x.event, x.event)}

/-! ## The timestamp meaning of a rule -/

/-- The timestamp of `x` lies in `[t.ts - within_ms, t.ts]`, with `within_ms` in unsigned
nanoseconds. -/
def inSpan (c : DiagCond) (t x : DiagEvent) : Bool :=
  decide (x.tsNs.toNat ≤ t.tsNs.toNat) &&
    match c.withinMs with
    | none => true
    | some ms => decide ((t.tsNs.toNat : ℤ) - x.tsNs.toNat ≤ ms * 1000000 % 2 ^ 64)

/-- The event is one a condition is about, for the trigger `t`: of the trigger's device, in
the span, and matching. -/
def isAbout (c : DiagCond) (t x : DiagEvent) : Bool :=
  decide (diagEventKey x = diagEventKey t) && (inSpan c t x && condEventPred c x)

/-- The events among `xs` that a condition is about. -/
def spanCount (c : DiagCond) (t : DiagEvent) (xs : List DiagEvent) : ℕ := xs.countP (isAbout c t)

/-- **The timestamp meaning of an event rule** for a trigger among the events `xs`.
SOURCE: docs/diag.md:72-103 -/
def RuleMeaning (r : DiagRule) (t : DiagEvent) (xs : List DiagEvent) : Prop :=
  r.type = .event ∧ triggerMatch r.trigger t = true ∧
    ∀ c ∈ r.whenList, c.countGte.getD 1 ≤ (spanCount c t xs : ℤ)

instance (r : DiagRule) (t : DiagEvent) (xs : List DiagEvent) : Decidable (RuleMeaning r t xs) :=
  inferInstanceAs (Decidable (_ ∧ _ ∧ _))

/-- Every event that a condition of the rule is about, for a trigger, is drained before it. -/
def LookbackFirst (r : DiagRule) (d : List (LoopOp ι)) : Prop :=
  (drainEvents d).Pairwise fun t x => triggerMatch r.trigger t = true →
    ∀ c ∈ r.whenList, isAbout c t x = false

/-- The engine's timestamp tests are membership in the span. -/
theorem inLookback_eq (c : DiagCond) (t x : DiagEvent) :
    inLookback c t.tsNs x = inSpan c t x := by
  unfold inLookback inSpan
  by_cases hgt : x.tsNs > t.tsNs
  · have hnat : ¬(x.tsNs.toNat ≤ t.tsNs.toNat) := by
      have := UInt64.lt_iff_toNat_lt.mp hgt
      omega
    simp [hgt, hnat]
  · have hle : x.tsNs ≤ t.tsNs := by rwa [gt_iff_lt, UInt64.not_lt] at hgt
    have hnat := UInt64.le_iff_toNat_le.mp hle
    simp only [hgt, if_false, hnat, decide_true, Bool.true_and]
    cases c.withinMs with
    | none => rfl
    | some ms =>
      have hms := msToNs_toNat_emod ms
      have hiff : ¬(t.tsNs - x.tsNs > msToNs ms) ↔
          (t.tsNs.toNat : ℤ) - x.tsNs.toNat ≤ ms * 1000000 % 2 ^ 64 := by
        rw [gt_iff_lt, UInt64.lt_iff_toNat_lt, UInt64.toNat_sub_of_le _ _ hle]
        omega
      show (!decide _) = decide _
      rw [← decide_not]
      exact decide_eq_decide.mpr hiff

/-! ## What a trigger sees -/

/-- The events of a drain with one event in the middle. -/
theorem drainEvents_split (pre post : List (LoopOp ι)) (x : Drained ι) :
    drainEvents (pre ++ .event x :: post) = drainEvents pre ++ x.event :: drainEvents post := by
  simp [drainEvents, LoopOp.drained]

/-- The events of a drain that ends with an event. -/
theorem drainEvents_concat (pre : List (LoopOp ι)) (x : Drained ι) :
    drainEvents (pre ++ [.event x]) = drainEvents pre ++ [x.event] :=
  drainEvents_split pre [] x

/-- What was drained up to an event comes before the rest of the drain. -/
theorem drainEvents_upTo {d pre post : List (LoopOp ι)} {x : Drained ι}
    (hd : d = pre ++ .event x :: post) :
    drainEvents d = drainEvents (pre ++ [.event x]) ++ drainEvents post := by
  rw [hd, drainEvents_split, drainEvents_concat, List.append_assoc, List.singleton_append]

/-- The operations of a drain before one of them. -/
theorem drainOps_split {d : List (LoopOp ι)} {pre post : List EngineOp} {op : EngineOp}
    (h : drainOps d = pre ++ op :: post) :
    ∃ a x b, d = a ++ x :: b ∧ pre = drainOps a ∧ op = x.engineOp := by
  obtain ⟨a, rest, rfl, ha, hrest⟩ := List.map_eq_append_iff.mp h
  obtain ⟨x, b, rfl, hx, -⟩ := List.map_eq_cons_iff.mp hrest
  exact ⟨a, x, b, rfl, ha.symm, hx.symm⟩

/-- A window in use after a drain belongs to a device of the drain. -/
theorem drain_used_key (rules : List DiagRule) (d : List (LoopOp ι)) (i : Fin winMaxDevs)
    (hi : ((engineAfter rules (drainOps d)).devs i).used = true) :
    ((engineAfter rules (drainOps d)).devs i).key ∈ (drainEvents d).map diagEventKey := by
  obtain ⟨evt, clock, hmem, hkey⟩ := engineAfter_used_key rules (drainOps d) i hi
  obtain ⟨y, hy, hye⟩ := List.mem_map.mp hmem
  cases y with
  | tick nowNs => cases hye
  | event x =>
    simp only [LoopOp.engineOp, EngineOp.ingest.injEq] at hye
    rw [← hkey, ← hye.1]
    refine List.mem_map_of_mem (List.mem_map_of_mem ?_)
    exact List.mem_filterMap.mpr ⟨_, hy, rfl⟩

/-- A table of 128 windows has room for the devices of a drain of at most 128. -/
theorem noRecycling_of_devices {rules : List DiagRule} {d : List (LoopOp ι)}
    (h : ((drainEvents d).map diagEventKey).toFinset.card ≤ winMaxDevs) :
    NoRecycling rules (drainOps d) := by
  refine everyStep_iff.mpr fun pre op post hsplit hrec => ?_
  obtain ⟨a, y, b, rfl, rfl, rfl⟩ := drainOps_split hsplit
  obtain ⟨x, rfl⟩ : ∃ x, y = .event x := by
    cases y with
    | event x => exact ⟨x, rfl⟩
    | tick nowNs => exact hrec.elim
  obtain ⟨hnone, hfull⟩ := hrec
  -- 128 windows of distinct devices, none of them the device of `x`
  let keys := ((drainEvents (a ++ .event x :: b)).map diagEventKey).toFinset
  have hx : diagEventKey x.event ∈ keys := by
    simp [keys, drainEvents_split]
  have hmaps : ∀ i ∈ Finset.univ (α := Fin winMaxDevs),
      ((engineAfter rules (drainOps a)).devs i).key ∈ keys.erase (diagEventKey x.event) := by
    intro i _
    refine Finset.mem_erase.mpr ⟨SlotTable.lookup_eq_none.mp hnone i (hfull i), ?_⟩
    have hmem := drain_used_key rules a i (hfull i)
    simp only [keys, drainEvents_split, List.map_append, List.mem_toFinset, List.mem_append]
    exact Or.inl hmem
  have hinj : Set.InjOn (fun i => ((engineAfter rules (drainOps a)).devs i).key)
      (Finset.univ (α := Fin winMaxDevs)) := fun i _ j _ hij =>
    engineAfter_keysUnique rules (drainOps a) i j (hfull i) (hfull j) hij
  have hcard := Finset.card_le_card_of_injOn _ hmaps hinj
  rw [Finset.card_univ, Fintype.card_fin, Finset.card_erase_of_mem hx] at hcard
  have hpos := Finset.card_pos.mpr ⟨_, hx⟩
  have hkeys : keys.card ≤ winMaxDevs := h
  omega

/-- The own events of a drain that ends with one. -/
theorem ownEvents_concat (d : List (LoopOp ι)) (x : Drained ι) :
    ownEvents (diagEventKey x.event) (d ++ [.event x]) =
      ownEvents (diagEventKey x.event) d ++ [x.event] := by
  simp [ownEvents, drainEvents_concat]

/-- Another device's event, or a tick, is no own event. -/
theorem ownEvents_concat_other {k : DiagDevkey} (d : List (LoopOp ι)) {y : LoopOp ι}
    (h : ∀ x, y = .event x → diagEventKey x.event ≠ k) :
    ownEvents k (d ++ [y]) = ownEvents k d := by
  cases y with
  | event x => simp [ownEvents, drainEvents_concat, h x rfl]
  | tick nowNs => simp [ownEvents, drainEvents, LoopOp.drained]

/-- Keeping the newest events of a list that has already been cut changes nothing. -/
theorem take_cons_take {α : Type} {n : ℕ} (hn : 0 < n) (x : α) (l : List α) :
    (x :: l.take n).take n = (x :: l).take n := by
  rw [List.take_cons hn, List.take_cons hn, List.take_take, Nat.min_eq_left (Nat.sub_le n 1)]

/-- A device's window holds its newest 1024 events `xs`, and when it was last seen. -/
structure WindowHolds (k : DiagDevkey) (ow : Option Devwin) (xs : List DiagEvent) : Prop where
  events : winEvents (ow.getD (freshWin k)) = xs.reverse.take winMaxEvents
  lastSeen : ∀ w, ow = some w → ∃ z ∈ xs.getLast?, w.lastSeenNs = z.tsNs

/-- The window goes on holding the device's events through an event of its own. -/
theorem WindowHolds.ingest {rules : List DiagRule} {k : DiagDevkey} {ow : Option Devwin}
    {xs : List DiagEvent} (h : WindowHolds k ow xs) (hb : RingBounded (ow.getD (freshWin k)))
    (evt : DiagEvent) (clock : ℕ → UInt64) :
    WindowHolds k (some (ingestWin rules (ow.getD (freshWin k)) evt clock).1) (xs ++ [evt]) where
  events := by
    have hring := ringOf_ingestWin rules (ow.getD (freshWin k)) evt clock
    rw [← ringOf_winPush] at hring
    rw [Option.getD_some, winEvents_congr hring, winEvents_winPush hb, h.events,
      take_cons_take (by decide), List.reverse_append, List.reverse_singleton,
      List.singleton_append]
  lastSeen := by
    intro w hw
    rw [← Option.some.inj hw]
    exact ⟨evt, by simp, ingestWin_lastSeenNs ..⟩

/-- The window goes on holding the device's events through a tick that finds it fresh. -/
theorem WindowHolds.tick {rules : List DiagRule} {k : DiagDevkey} {ow : Option Devwin}
    {xs : List DiagEvent} (h : WindowHolds k ow xs) (hused : ∀ w, ow = some w → w.used = true)
    {nowNs : UInt64} (hfresh : ∀ z ∈ xs.getLast?, nowNs - z.tsNs ≤ retentionNs) :
    WindowHolds k (deviceStep rules k ow (.tick nowNs)).1 xs := by
  cases ow with
  | none => exact h
  | some w =>
    obtain ⟨z, hz, hlast⟩ := h.lastSeen w rfl
    have hstill : ¬(nowNs - w.lastSeenNs > retentionNs) := by
      rw [hlast, gt_iff_lt, UInt64.not_lt]
      exact hfresh z hz
    have hkept : (tickWin rules nowNs w).1.used = true := by
      rw [tickWin_eq rules nowNs w (hused w rfl)]
      simpa using hstill
    have hseen : (tickWin rules nowNs w).1.lastSeenNs = w.lastSeenNs := by
      rw [tickWin_eq rules nowNs w (hused w rfl)]
    simp only [deviceStep, hkept, if_true]
    refine ⟨?_, ?_⟩
    · rw [Option.getD_some, winEvents_congr (ringOf_tickWin rules nowNs w)]
      exact h.events
    · rintro w' hw'
      obtain rfl := Option.some.inj hw'
      exact ⟨z, hz, hseen.trans hlast⟩

/-- **A device's window after a drain** holds its newest 1024 events, in drain order, as long
as no tick finds the device silent for more than 10 s. -/
theorem drain_winEvents (rules : List DiagRule) (k : DiagDevkey) (d : List (LoopOp ι))
    (hno : NoRecycling rules (drainOps d)) (hfresh : TicksFresh k d) :
    WindowHolds k (devLookup (engineAfter rules (drainOps d)).devs k) (ownEvents k d) := by
  induction d using List.reverseRecOn with
  | nil =>
    have hnone : devLookup (engineAfter rules (drainOps ([] : List (LoopOp ι)))).devs k = none :=
      devLookup_create rules k
    rw [hnone]
    exact ⟨by simp [ownEvents, drainEvents, winEvents, freshWin], fun w hw => by cases hw⟩
  | append_singleton d y ih =>
    have hops : drainOps (d ++ [y]) = drainOps d ++ [y.engineOp] := by
      simp [drainOps]
    rw [hops] at hno ⊢
    obtain ⟨hno', hlast⟩ := everyStep_concat.mp hno
    have hheld := ih hno' fun pre nowNs post hd => hfresh pre nowNs (post ++ [y]) (by simp [hd])
    have hu := engineAfter_keysUnique rules (drainOps d)
    have hstep : devLookup (engineAfter rules (drainOps d ++ [y.engineOp])).devs k =
        (deviceStep rules k (devLookup (engineAfter rules (drainOps d)).devs k)
          y.engineOp).1 := by
      rw [engineAfter_concat]
      rcases engineStep_lookup hu k y.engineOp with hl | ⟨hrec, -, -⟩
      · rw [hl, engineAfter_rules]
      · exact absurd hrec hlast
    rw [hstep]
    cases y with
    | event x =>
      by_cases hk : diagEventKey x.event = k
      · subst hk
        simp only [LoopOp.engineOp, deviceStep, if_true, ownEvents_concat]
        exact hheld.ingest (engineAfter_window_bounded rules (drainOps d) _) x.event x.clock
      · rw [ownEvents_concat_other d (fun x' h => by cases h; exact hk)]
        simp only [LoopOp.engineOp, deviceStep, if_neg hk]
        exact hheld
    | tick nowNs =>
      rw [ownEvents_concat_other d (fun x' h => by cases h)]
      exact hheld.tick (fun w hw => (SlotTable.lookup_some hw).1) (hfresh d nowNs [] rfl)

/-- **What a trigger sees**: all of its device's events drained up to it. -/
theorem trigger_sees (rules : List DiagRule) (pre : List (LoopOp ι)) (x : Drained ι)
    (hno : NoRecycling rules (drainOps pre)) (hfresh : TicksFresh (diagEventKey x.event) pre)
    (hle : (ownEvents (diagEventKey x.event) (pre ++ [.event x])).length ≤ winMaxEvents) :
    winEvents (noteEvent ((devLookup (engineAfter rules (drainOps pre)).devs
        (diagEventKey x.event)).getD (freshWin (diagEventKey x.event))) x.event) =
      (ownEvents (diagEventKey x.event) (pre ++ [.event x])).reverse := by
  have hb := engineAfter_window_bounded rules (drainOps pre) (diagEventKey x.event)
  rw [winEvents_noteEvent hb, (drain_winEvents rules _ pre hno hfresh).events,
    take_cons_take (by decide)]
  have hrev : x.event :: (ownEvents (diagEventKey x.event) pre).reverse =
      (ownEvents (diagEventKey x.event) (pre ++ [.event x])).reverse := by
    rw [ownEvents_concat, List.reverse_append, List.reverse_singleton, List.singleton_append]
  rw [hrev]
  exact List.take_of_length_le (by rwa [List.length_reverse])

/-- Counting a device's own events is counting all of them by device. -/
theorem countP_ownEvents (c : DiagCond) (t : DiagEvent) (d : List (LoopOp ι)) :
    (ownEvents (diagEventKey t) d).countP (counts c t.tsNs) = spanCount c t (drainEvents d) := by
  rw [ownEvents, List.countP_filter, spanCount]
  refine List.countP_congr fun x _ => ?_
  simp only [counts, isAbout, inLookback_eq, Bool.and_comm]

/-- **When a rule fires for a trigger**: exactly when the events drained up to the trigger
satisfy the rule's timestamp meaning.
SOURCE: engine.c:485-533, 588-616 -/
theorem fires_iff {rules : List DiagRule} {ri : ℕ} {r : DiagRule} (hr : rules[ri]? = some r)
    (hplain : ∀ c ∈ r.whenList, Plain c) {d pre post : List (LoopOp ι)} {x : Drained ι}
    (hd : d = pre ++ .event x :: post) (hno : NoRecycling rules (drainOps d))
    (hle : ∀ k, (drainEvents d).countP (fun x => diagEventKey x = k) ≤ winMaxEvents)
    (hkeep : NoEviction d)
    (hcool : EveryStep engineStep (fun e op => ¬CoolingDown ri e op) (diagEngineCreate rules)
      (drainOps d)) :
    FiresAt rules ri pre x ↔ RuleMeaning r x.event (drainEvents (pre ++ [.event x])) := by
  have hsplit : drainOps d = drainOps pre ++ .ingest x.event x.clock :: drainOps post := by
    rw [hd]
    simp [drainOps, LoopOp.engineOp]
  have hno' : NoRecycling rules (drainOps pre) := by
    unfold NoRecycling at hno
    rw [hsplit] at hno
    exact (everyStep_append.mp hno).1
  have hown : (ownEvents (diagEventKey x.event) (pre ++ [.event x])).length ≤ winMaxEvents := by
    refine le_trans ?_ (hle (diagEventKey x.event))
    rw [ownEvents, ← List.countP_eq_length_filter, drainEvents_upTo hd, List.countP_append]
    exact Nat.le_add_right _ _
  have hwarm : ¬CoolingDown ri (engineAfter rules (drainOps pre)) (.ingest x.event x.clock) :=
    everyStep_iff.mp hcool _ _ _ hsplit
  have hbase : ¬(((devLookup (engineAfter rules (drainOps pre)).devs
      (diagEventKey x.event)).getD (freshWin (diagEventKey x.event))).lastFireNs ri ≠ 0 ∧
        x.clock ri - ((devLookup (engineAfter rules (drainOps pre)).devs
          (diagEventKey x.event)).getD (freshWin (diagEventKey x.event))).lastFireNs ri <
            cooldownNs) := by
    cases hl : devLookup (engineAfter rules (drainOps pre)).devs (diagEventKey x.event) with
    | none => simp [freshWin]
    | some w => exact fun h => hwarm ⟨w, hl, h⟩
  have hmem : FiresAt rules ri pre x ↔ ri ∈ (ingestWin rules
      ((devLookup (engineAfter rules (drainOps pre)).devs (diagEventKey x.event)).getD
        (freshWin (diagEventKey x.event))) x.event x.clock).2.map Finding.ridx := by
    have hkeys : ∀ f ∈ (diagEngineIngest (engineAfter rules (drainOps pre)) x.event
        x.clock).2, f.key = diagEventKey x.event := by
      obtain ⟨i, w₀, -, hfs, -, hkey, -⟩ :=
        diagEngineIngest_cases (engineAfter rules (drainOps pre)) x.event x.clock
      intro f hf
      rw [hfs] at hf
      rw [ingestWin_finding_key _ _ _ _ f hf, hkey]
    have hsnd := diagEngineIngest_snd (engineAfter rules (drainOps pre)) x.event x.clock
    rw [engineAfter_rules] at hsnd
    rw [← hsnd, List.mem_map]
    exact ⟨fun ⟨f, hf, _, hi⟩ => ⟨f, hf, hi⟩, fun ⟨f, hf, hi⟩ => ⟨f, hf, hkeys f hf, hi⟩⟩
  have hsees : ∀ c, (winEvents (noteEvent ((devLookup (engineAfter rules (drainOps pre)).devs
      (diagEventKey x.event)).getD (freshWin (diagEventKey x.event))) x.event)).countP
        (counts c x.event.tsNs) = spanCount c x.event (drainEvents (pre ++ [.event x])) := by
    intro c
    rw [trigger_sees rules pre x hno' (hkeep pre x post hd) hown, List.countP_reverse,
      countP_ownEvents]
  rw [hmem, ingestWin_reports]
  constructor
  · rintro ⟨r', hr', hv, -⟩
    obtain rfl := Option.some.inj (hr.symm.trans hr')
    simpa only [hsees, RuleMeaning] using (evalRule_isSome hplain _ _).mp hv
  · intro hmean
    refine ⟨r, hr, (evalRule_isSome hplain _ _).mpr ?_, hbase⟩
    simpa only [hsees, RuleMeaning] using hmean

/-! ## Drain orders compared -/

/-- The meaning of a rule depends on which events there are, not on their order. -/
theorem ruleMeaning_perm {xs ys : List DiagEvent} (h : xs.Perm ys) (r : DiagRule)
    (t : DiagEvent) : RuleMeaning r t xs ↔ RuleMeaning r t ys := by
  simp only [RuleMeaning, spanCount, h.countP_eq]

/-- More events satisfy what fewer satisfy. -/
theorem RuleMeaning.mono {r : DiagRule} {t : DiagEvent} {xs : List DiagEvent}
    (h : RuleMeaning r t xs) (ys : List DiagEvent) : RuleMeaning r t (xs ++ ys) := by
  refine ⟨h.1, h.2.1, fun c hc => (h.2.2 c hc).trans ?_⟩
  simp only [spanCount, List.countP_append]
  omega

/-- With the lookback drained first, what was drained up to the trigger says it all. -/
theorem ruleMeaning_lookbackFirst {r : DiagRule} {d : List (LoopOp ι)}
    (hfirst : LookbackFirst r d) {pre post : List (LoopOp ι)} {x : Drained ι}
    (hd : d = pre ++ .event x :: post) :
    RuleMeaning r x.event (drainEvents (pre ++ [.event x])) ↔
      RuleMeaning r x.event (drainEvents d) := by
  rw [drainEvents_upTo hd]
  constructor
  · exact fun h => h.mono _
  · rintro ⟨htype, htrig, hcounts⟩
    refine ⟨htype, htrig, fun c hc => ?_⟩
    have hnone : spanCount c x.event (drainEvents post) = 0 := by
      unfold LookbackFirst at hfirst
      rw [hd, drainEvents_split, List.pairwise_append, List.pairwise_cons] at hfirst
      refine List.countP_eq_zero.mpr fun y hy => ?_
      simp [hfirst.2.1.1 y hy htrig c hc]
    have h := hcounts c hc
    rw [spanCount, List.countP_append] at h
    rw [spanCount] at hnone ⊢
    rw [hnone] at h
    simpa using h

/-- The findings of a drain whose lookback comes first, read off the events. -/
theorem mem_drainFindings {rules : List DiagRule} {ri : ℕ} {r : DiagRule}
    {d : List (LoopOp ι)}
    (hfires : ∀ pre x post, d = pre ++ .event x :: post →
      (FiresAt rules ri pre x ↔ RuleMeaning r x.event (drainEvents d)))
    (p : DiagDevkey × DiagEvent) :
    p ∈ drainFindings rules ri d ↔
      p.2 ∈ drainEvents d ∧ p.1 = diagEventKey p.2 ∧ RuleMeaning r p.2 (drainEvents d) := by
  constructor
  · rintro ⟨pre, x, post, hd, hx, rfl⟩
    refine ⟨?_, rfl, (hfires pre x post hd).mp hx⟩
    rw [hd, drainEvents_split]
    simp
  · rintro ⟨hmem, hkey, hmean⟩
    obtain ⟨x, hx, hxe⟩ := List.mem_map.mp hmem
    obtain ⟨y, hy, hyx⟩ := List.mem_filterMap.mp hx
    cases y with
    | tick nowNs => cases hyx
    | event x' =>
      obtain rfl := Option.some.inj hyx
      obtain ⟨pre, post, hd⟩ := List.append_of_mem hy
      rw [← hxe] at hmean hkey
      exact ⟨pre, x', post, hd, (hfires pre x' post hd).mpr hmean, Prod.ext hkey hxe.symm⟩

/-- **What the drain order does and does not change.**  A rule fires for a trigger exactly
when the events drained up to it satisfy its meaning, hence never without the timestamps'
support.  In drain orders that deliver the lookback first it fires exactly as the
timestamps say, and the findings are the same.
SOURCE: engine.c:485-533, 562-617, 657-659; diag.c:470-491, 503-524 -/
theorem drain_meaning [DecidableEq ι] (rules : List DiagRule) (ri : ℕ) (r : DiagRule)
    (hr : rules[ri]? = some r) (hplain : ∀ c ∈ r.whenList, Plain c)
    (sources : ι → List DiagEvent) (d₁ d₂ : List (LoopOp ι))
    (h₁ : DrainOf rules ri sources d₁) (h₂ : DrainOf rules ri sources d₂) :
    (∀ pre x post, d₁ = pre ++ .event x :: post →
      (FiresAt rules ri pre x ↔ RuleMeaning r x.event (drainEvents (pre ++ [.event x]))) ∧
        (FiresAt rules ri pre x → RuleMeaning r x.event (drainEvents d₁))) ∧
      (LookbackFirst r d₁ → LookbackFirst r d₂ →
        (∀ pre x post, d₁ = pre ++ .event x :: post →
          (FiresAt rules ri pre x ↔ RuleMeaning r x.event (drainEvents d₁))) ∧
        drainFindings rules ri d₁ = drainFindings rules ri d₂) := by
  have hfires : ∀ d, DrainOf rules ri sources d → ∀ pre x post, d = pre ++ .event x :: post →
      (FiresAt rules ri pre x ↔ RuleMeaning r x.event (drainEvents (pre ++ [.event x]))) :=
    fun d h pre x post hd => fires_iff hr hplain hd (noRecycling_of_devices h.devices_le)
      h.events_le h.noEviction h.noCooldown
  have hfirst : ∀ d, DrainOf rules ri sources d → LookbackFirst r d →
      ∀ pre x post, d = pre ++ .event x :: post →
        (FiresAt rules ri pre x ↔ RuleMeaning r x.event (drainEvents d)) :=
    fun d h hl pre x post hd => (hfires d h pre x post hd).trans (ruleMeaning_lookbackFirst hl hd)
  refine ⟨fun pre x post hd => ⟨hfires d₁ h₁ pre x post hd, fun hx => ?_⟩, fun hl₁ hl₂ =>
    ⟨hfirst d₁ h₁ hl₁, ?_⟩⟩
  · rw [drainEvents_upTo hd]
    exact ((hfires d₁ h₁ pre x post hd).mp hx).mono _
  · have hperm : (drainEvents d₁).Perm (drainEvents d₂) := h₁.interleaves.perm h₂.interleaves
    ext p
    rw [mem_drainFindings (hfirst d₁ h₁ hl₁) p, mem_drainFindings (hfirst d₂ h₂ hl₂) p,
      hperm.mem_iff, ruleMeaning_perm hperm]

/-! ## Small drains -/

/-- A cooldown stamp is a clock reading of an event drained before. -/
theorem drain_lastFireNs (rules : List DiagRule) (ri : ℕ) (k : DiagDevkey)
    (d : List (LoopOp ι)) {w : Devwin}
    (hw : devLookup (engineAfter rules (drainOps d)).devs k = some w) :
    w.lastFireNs ri = 0 ∨ ∃ x ∈ d.filterMap LoopOp.drained, w.lastFireNs ri = x.clock ri := by
  induction d using List.reverseRecOn generalizing w with
  | nil =>
    rw [show drainOps ([] : List (LoopOp ι)) = [] from rfl,
      show engineAfter rules [] = diagEngineCreate rules from rfl, devLookup_create] at hw
    cases hw
  | append_singleton d y ih =>
    have hops : drainOps (d ++ [y]) = drainOps d ++ [y.engineOp] := by
      simp [drainOps]
    rw [hops, engineAfter_concat] at hw
    have hold : ∀ {w₀ : Devwin}, devLookup (engineAfter rules (drainOps d)).devs k = some w₀ →
        w.lastFireNs ri = w₀.lastFireNs ri → w.lastFireNs ri = 0 ∨
          ∃ x ∈ (d ++ [y]).filterMap LoopOp.drained, w.lastFireNs ri = x.clock ri := by
      intro w₀ hw₀ hsame
      refine (ih hw₀).imp (hsame.trans ·) fun ⟨x, hx, hread⟩ => ?_
      exact ⟨x, by rw [List.filterMap_append]; exact List.mem_append_left _ hx,
        hsame.trans hread⟩
    rcases engineStep_lookup (engineAfter_keysUnique rules (drainOps d)) k y.engineOp with
      hl | ⟨-, -, hl⟩
    · rw [hl, engineAfter_rules] at hw
      cases y with
      | event x =>
        by_cases hk : diagEventKey x.event = k
        · simp only [LoopOp.engineOp, deviceStep, if_pos hk, Option.some.injEq] at hw
          subst hw
          rw [ingestWin_lastFireNs]
          split
          · exact Or.inr ⟨x, by simp [LoopOp.drained], rfl⟩
          · next hquiet =>
            have hsame := ingestWin_lastFireNs rules
              ((devLookup (engineAfter rules (drainOps d)).devs k).getD (freshWin k)) x.event
              x.clock ri
            rw [if_neg hquiet] at hsame
            rw [hsame] at hold
            cases hw₀ : devLookup (engineAfter rules (drainOps d)).devs k with
            | none => exact Or.inl rfl
            | some w₀ =>
              rw [hw₀] at hold
              exact hold rfl rfl
        · simp only [LoopOp.engineOp, deviceStep, if_neg hk] at hw
          exact hold hw rfl
      | tick nowNs =>
        cases hw₀ : devLookup (engineAfter rules (drainOps d)).devs k with
        | none => simp [LoopOp.engineOp, deviceStep, hw₀] at hw
        | some w₀ =>
          simp only [LoopOp.engineOp, deviceStep, hw₀] at hw
          split at hw
          · refine hold hw₀ ?_
            rw [← Option.some.inj hw, tickWin_eq rules nowNs w₀ (SlotTable.lookup_some hw₀).1]
          · cases hw
    · rw [hl] at hw
      cases hw

/-- Clock readings at least 2 s apart meet no cooldown. -/
theorem noCooldown_of_spaced (rules : List DiagRule) (ri : ℕ) (d : List (LoopOp ι))
    (h : (d.filterMap LoopOp.drained).Pairwise fun x y => ¬(y.clock ri - x.clock ri < cooldownNs)) :
    EveryStep engineStep (fun e op => ¬CoolingDown ri e op) (diagEngineCreate rules)
      (drainOps d) := by
  refine everyStep_iff.mpr fun pre op post hsplit hcool => ?_
  obtain ⟨a, y, b, rfl, rfl, rfl⟩ := drainOps_split hsplit
  cases y with
  | tick nowNs => exact hcool
  | event x =>
    obtain ⟨w, hw, hstamp, hlt⟩ := hcool
    rcases drain_lastFireNs rules ri _ a hw with h0 | ⟨z, hz, hread⟩
    · exact hstamp h0
    · rw [List.filterMap_append, List.pairwise_append] at h
      refine h.2.2 z hz x (by simp [LoopOp.drained]) ?_
      rwa [← hread]

/-- A later tick comes at most 10 s after an event. -/
def LoopOp.prompt : LoopOp ι → LoopOp ι → Bool
  | .event x, .tick nowNs => decide (nowNs - x.event.tsNs ≤ retentionNs)
  | _, _ => true

/-- Ticks that come at most 10 s after every event before them evict no device. -/
theorem noEviction_of_prompt {d : List (LoopOp ι)} (h : d.Pairwise fun a b => a.prompt b) :
    NoEviction d := by
  rintro pre x post rfl pre' nowNs post' rfl z hz
  have hz' := List.mem_of_mem_getLast? hz
  obtain ⟨y, hy, rfl⟩ := List.mem_map.mp (List.mem_filter.mp hz').1
  obtain ⟨op, hop, hdrained⟩ := List.mem_filterMap.mp hy
  rw [List.append_assoc, List.pairwise_append] at h
  cases op with
  | event x' =>
    obtain rfl := Option.some.inj hdrained
    exact of_decide_eq_true (h.2.2 _ hop (.tick nowNs) (by simp))
  | tick t => cases hdrained

/-- A drain of at most 128 events, spaced and prompt. -/
theorem drainOf_small [DecidableEq ι] {rules : List DiagRule} {ri : ℕ}
    {sources : ι → List DiagEvent} {d : List (LoopOp ι)}
    (h : Interleaves Drained.source Drained.event sources (d.filterMap LoopOp.drained))
    (hlen : (drainEvents d).length ≤ winMaxDevs) (hkeep : NoEviction d)
    (hclock : (d.filterMap LoopOp.drained).Pairwise fun x y =>
      ¬(y.clock ri - x.clock ri < cooldownNs)) :
    DrainOf rules ri sources d where
  interleaves := h
  events_le _ := List.countP_le_length.trans (hlen.trans (by decide))
  devices_le := (List.toFinset_card_le _).trans (by simpa using hlen)
  noEviction := hkeep
  noCooldown := noCooldown_of_spaced rules ri d hclock

/-! ## The order matters -/

/-- A rule on disconnects that follow a transfer within 2 s. -/
def afterTransfer : DiagRule where
  trigger := { kind := some evtLifecycle }
  whenList := [{ kind := some evtUrb, withinMs := some 2000, countGte := some 1 }]

/-- A connect, from one source. -/
def connect : Drained Bool where
  source := true
  event := { kind := evtLifecycle, tsNs := 4000000000, busnum := 1, devnum := 2 }
  clock := fun _ => 8000000000

/-- A transfer 1 s after it, from another. -/
def transfer : Drained Bool where
  source := false
  event := { kind := evtUrb, tsNs := 5000000000, busnum := 1, devnum := 2 }
  clock := fun _ => 10000000000

/-- The disconnect 1 s later, from the source of the connect. -/
def disconnect : Drained Bool where
  source := true
  event := { kind := evtLifecycle, tsNs := 6000000000, busnum := 1, devnum := 2, action := 1 }
  clock := fun _ => 12000000000

/-- Transfers and connects of a device, each source in timestamp order. -/
def pairSources : Bool → List DiagEvent
  | false => [transfer.event]
  | true => [connect.event, disconnect.event]

/-- The drain in timestamp order, with a tick in it. -/
def inOrder : List (LoopOp Bool) :=
  [.event connect, .event transfer, .tick 5500000000, .event disconnect]

/-- The drain with the transfer first. -/
def transferFirst : List (LoopOp Bool) :=
  [.event { transfer with clock := connect.clock }, .tick 5500000000,
    .event { connect with clock := transfer.clock }, .event disconnect]

/-- The drain with the transfer last. -/
def transferLast : List (LoopOp Bool) :=
  [.event connect, .event { disconnect with clock := transfer.clock },
    .event { transfer with clock := disconnect.clock }]

theorem drainOf_inOrder : DrainOf [afterTransfer] 0 pairSources inOrder :=
  drainOf_small (fun s => by cases s <;> rfl) (by decide) (noEviction_of_prompt (by decide))
    (by decide)

theorem drainOf_transferFirst : DrainOf [afterTransfer] 0 pairSources transferFirst :=
  drainOf_small (fun s => by cases s <;> rfl) (by decide) (noEviction_of_prompt (by decide))
    (by decide)

theorem drainOf_transferLast : DrainOf [afterTransfer] 0 pairSources transferLast :=
  drainOf_small (fun s => by cases s <;> rfl) (by decide) (noEviction_of_prompt (by decide))
    (by decide)

/-- **The verdict depends on the drain order.**  With the disconnect drained before the
transfer that precedes it in time, the rule the timestamps justify does not fire; in
timestamp order it does.  So neither the timestamps alone decide when a rule fires, nor
are the findings of two drains of the same sources the same. -/
theorem drain_order_matters :
    (¬∀ (rules : List DiagRule) (ri : ℕ) (r : DiagRule), rules[ri]? = some r →
      (∀ c ∈ r.whenList, Plain c) → ∀ sources : Bool → List DiagEvent,
      (∀ s, (sources s).Pairwise fun a b => a.tsNs ≤ b.tsNs) →
      ∀ d, DrainOf rules ri sources d → ∀ pre x post, d = pre ++ .event x :: post →
        (FiresAt rules ri pre x ↔ RuleMeaning r x.event (drainEvents d))) ∧
    ¬∀ (rules : List DiagRule) (ri : ℕ) (r : DiagRule), rules[ri]? = some r →
      (∀ c ∈ r.whenList, Plain c) → ∀ sources : Bool → List DiagEvent,
      (∀ s, (sources s).Pairwise fun a b => a.tsNs ≤ b.tsNs) →
      ∀ d₁ d₂, DrainOf rules ri sources d₁ → DrainOf rules ri sources d₂ →
        drainFindings rules ri d₁ = drainFindings rules ri d₂ := by
  have hplain : ∀ c ∈ afterTransfer.whenList, Plain c := by
    simp [afterTransfer, Plain]
  have hsorted : ∀ s, (pairSources s).Pairwise fun a b => a.tsNs ≤ b.tsNs := by
    intro s
    cases s <;> decide
  have hfires : ∀ d, DrainOf [afterTransfer] 0 pairSources d → ∀ pre x post,
      d = pre ++ .event x :: post →
        (FiresAt [afterTransfer] 0 pre x ↔
          RuleMeaning afterTransfer x.event (drainEvents (pre ++ [.event x]))) :=
    fun d h pre x post hd => fires_iff rfl hplain hd (noRecycling_of_devices h.devices_le)
      h.events_le h.noEviction h.noCooldown
  -- drained before it, the disconnect does not see the transfer
  have hsilent : ¬FiresAt [afterTransfer] 0 [.event connect]
      { disconnect with clock := transfer.clock } := by
    rw [hfires _ drainOf_transferLast [.event connect] _ _ rfl]
    decide
  constructor
  · intro h
    have hclaim := h [afterTransfer] 0 afterTransfer rfl hplain pairSources hsorted _
      drainOf_transferLast [.event connect] _ _ rfl
    exact hsilent (hclaim.mpr (by decide))
  · intro h
    have hsame := h [afterTransfer] 0 afterTransfer rfl hplain pairSources hsorted _ _
      drainOf_inOrder drainOf_transferLast
    have hin : (diagEventKey disconnect.event, disconnect.event) ∈
        drainFindings [afterTransfer] 0 inOrder :=
      ⟨[.event connect, .event transfer, .tick 5500000000], disconnect, [], rfl,
        (hfires _ drainOf_inOrder _ disconnect [] rfl).mpr (by decide), rfl⟩
    rw [hsame] at hin
    obtain ⟨pre, x, post, hd, hx, hp⟩ := hin
    -- of the three events only the disconnect could be meant
    rcases pre with _ | ⟨y, _ | ⟨z, _ | ⟨u, pre⟩⟩⟩
    · simp only [transferLast, List.nil_append, List.cons.injEq, LoopOp.event.injEq] at hd
      rw [← hd.1] at hp
      exact absurd (congrArg Prod.snd hp) (by decide)
    · simp only [transferLast, List.cons_append, List.nil_append, List.cons.injEq,
        LoopOp.event.injEq] at hd
      rw [← hd.1, ← hd.2.1] at hx
      exact hsilent hx
    · simp only [transferLast, List.cons_append, List.nil_append, List.cons.injEq,
        LoopOp.event.injEq] at hd
      rw [← hd.2.2.1] at hp
      exact absurd (congrArg Prod.snd hp) (by decide)
    · simp [transferLast] at hd

/-- Two drains that deliver the transfer before the disconnect, one of them not in timestamp
order, with a tick at different places. -/
theorem drain_meaning_sample :
    (inOrder ≠ transferFirst ∧ LookbackFirst afterTransfer inOrder ∧
      LookbackFirst afterTransfer transferFirst) ∧
      (∀ pre x post, inOrder = pre ++ .event x :: post →
        (FiresAt [afterTransfer] 0 pre x ↔
          RuleMeaning afterTransfer x.event (drainEvents (pre ++ [.event x]))) ∧
          (FiresAt [afterTransfer] 0 pre x →
            RuleMeaning afterTransfer x.event (drainEvents inOrder))) ∧
      (∀ pre x post, inOrder = pre ++ .event x :: post →
        (FiresAt [afterTransfer] 0 pre x ↔
          RuleMeaning afterTransfer x.event (drainEvents inOrder))) ∧
      RuleMeaning afterTransfer disconnect.event (drainEvents inOrder) ∧
      drainFindings [afterTransfer] 0 inOrder = drainFindings [afterTransfer] 0 transferFirst := by
  have hin : LookbackFirst afterTransfer inOrder := by
    unfold LookbackFirst
    decide
  have hfirst : LookbackFirst afterTransfer transferFirst := by
    unfold LookbackFirst
    decide
  have hdiffer : inOrder ≠ transferFirst := by
    intro h
    have hevents := congrArg (fun d => (drainEvents d).map DiagEvent.tsNs) h
    revert hevents
    decide
  have h := drain_meaning [afterTransfer] 0 afterTransfer rfl (by simp [afterTransfer, Plain])
    pairSources _ _ drainOf_inOrder drainOf_transferFirst
  exact ⟨⟨hdiffer, hin, hfirst⟩, h.1, (h.2 hin hfirst).1, by decide, (h.2 hin hfirst).2⟩

end UsbTrace.Analysis

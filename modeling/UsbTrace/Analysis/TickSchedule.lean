import UsbTrace.Analysis.Stall
import UsbTrace.Library.Thinning
import UsbTrace.Model.DiagRun

/-!
# When diag ticks, and how late an alarm can be

The poll loop looks at the clock after every poll that was not interrupted, and ticks when
half a second has passed since the last tick: its ticks are a greedy thinning of the times it
looks (`tickTimes_loopActions`, `tick_schedule`).  So a device that stalls is reported at the
latest by the first look half a second after its deadline (`stall_reported`).
-/

set_option autoImplicit false

namespace UsbTrace.Analysis

open UsbTrace.Model UsbTrace.Library UsbTrace.Interface

/-- The clock does not run backwards. -/
def ClockMonotone (start : UInt64) (turns : List PollTurn) : Prop :=
  (start.toNat :: turns.map fun t => t.now.toNat).Pairwise (· ≤ ·)

/-- Records carry a timestamp, and none from the future. -/
def Stamped (turns : List PollTurn) : Prop :=
  ∀ t ∈ turns, ∀ p ∈ t.delivered, p.record.event.tsNs ≠ 0 ∧ p.record.event.tsNs ≤ t.now

/-- The times at which the loop looks at the clock: after each poll that is not interrupted,
up to an error. -/
def lookTimes : List PollTurn → List ℕ
  | [] => []
  | t :: ts =>
    if t.ret < 0 then if transient t.ret then lookTimes ts else []
    else t.now.toNat :: lookTimes ts

/-- The time of an action, if it is a tick. -/
def tickTime : LoopAction → Option ℕ
  | .tick nowNs => some nowNs.toNat
  | .deliver _ => none

def tickTimes (acts : List LoopAction) : List ℕ := acts.filterMap tickTime

theorem clockMonotone_cons {start : UInt64} {t : PollTurn} {ts : List PollTurn}
    (h : ClockMonotone start (t :: ts)) :
    start.toNat ≤ t.now.toNat ∧ ClockMonotone t.now ts ∧ ClockMonotone start ts := by
  obtain ⟨hstart, hrest⟩ := List.pairwise_cons.mp h
  refine ⟨hstart _ List.mem_cons_self, hrest, List.pairwise_cons.mpr ⟨fun x hx => ?_, ?_⟩⟩
  · exact hstart x (List.mem_cons_of_mem _ hx)
  · exact (List.pairwise_cons.mp hrest).2

theorem lookTimes_sublist (turns : List PollTurn) :
    (lookTimes turns).Sublist (turns.map fun t => t.now.toNat) := by
  induction turns with
  | nil => exact List.Sublist.refl _
  | cons t ts ih =>
    rw [lookTimes, List.map_cons]
    split
    · split
      · exact ih.cons _
      · exact List.nil_sublist _
    · exact ih.cons_cons _

/-! ## The ticks -/

@[simp] theorem tickTimes_append (as bs : List LoopAction) :
    tickTimes (as ++ bs) = tickTimes as ++ tickTimes bs := List.filterMap_append

@[simp] theorem tickTimes_deliver (ws : List Buffered) :
    tickTimes (ws.map LoopAction.deliver) = [] := by
  induction ws with
  | nil => rfl
  | cons w ws ih => exact ih

/-- A loop that has left does nothing more. -/
theorem outputs_broken {s : LoopState} (h : s.broken = true) (turns : List PollTurn) :
    outputs loopTurn s turns = [] := by
  induction turns with
  | nil => rfl
  | cons t ts ih =>
    have hstep : loopTurn s t = (s, []) := by rw [loopTurn, if_pos h]
    rw [outputs_cons, hstep]
    exact ih

/-- The time since the last tick, in C's unsigned arithmetic. -/
theorem tick_due_iff {last now : UInt64} (h : last.toNat ≤ now.toNat) :
    now - last ≥ tickIntervalNs ↔ tickIntervalNs.toNat ≤ now.toNat - last.toNat := by
  rw [ge_iff_le, UInt64.le_iff_toNat_le, UInt64.toNat_sub_of_le _ _ (UInt64.le_iff_toNat_le.mpr h)]

/-- The ticks of a loop that has not left, from its last tick on. -/
theorem tickTimes_outputs {s : LoopState} (hs : s.broken = false) {turns : List PollTurn}
    (h : ClockMonotone s.lastTick turns) :
    tickTimes (outputs loopTurn s turns) =
      thin tickIntervalNs.toNat s.lastTick.toNat (lookTimes turns) := by
  induction turns generalizing s with
  | nil => rfl
  | cons t ts ih =>
    obtain ⟨hle, hnow, hlast⟩ := clockMonotone_cons h
    have hopen : ¬(s.broken = true) := by rw [hs]; exact Bool.false_ne_true
    rw [outputs_cons, tickTimes_append, lookTimes, loopTurn, if_neg hopen]
    dsimp only
    split
    · split
      · rw [tickTimes_deliver]
        exact ih hs hlast
      · rw [tickTimes_deliver, outputs_broken rfl]
        rfl
    · rw [thin]
      by_cases hdue : t.now - s.lastTick ≥ tickIntervalNs
      · rw [if_pos hdue, if_pos ((tick_due_iff hle).mp hdue), tickTimes_append,
          tickTimes_deliver]
        exact congrArg (t.now.toNat :: ·) (ih hs hnow)
      · rw [if_neg hdue, if_neg (mt (tick_due_iff hle).mpr hdue), tickTimes_deliver]
        exact ih hs hlast

/-- **The ticks are the looks, thinned to one in half a second.**
SOURCE: diag.c:503-524 -/
theorem tickTimes_loopActions {start : UInt64} {turns : List PollTurn}
    (h : ClockMonotone start turns) :
    tickTimes (loopActions start turns) =
      thin tickIntervalNs.toNat start.toNat (lookTimes turns) := tickTimes_outputs rfl h

/-- **The tick schedule**: ticks are at least half a second apart; where the loop looks at the
clock at least every `p`, they are less than half a second and `p` apart; and at every look the
last tick, or the start, is less than half a second ago.
SOURCE: diag.c:48, 503-524 -/
theorem tick_schedule (start : UInt64) (turns : List PollTurn) (h : ClockMonotone start turns) :
    (start.toNat :: tickTimes (loopActions start turns)).IsChain (fun a b => a + 500000000 ≤ b) ∧
      (∀ p, (start.toNat :: lookTimes turns).IsChain (fun a b => b ≤ a + p) →
        (start.toNat :: tickTimes (loopActions start turns)).IsChain
          fun a b => b < a + 500000000 + p) ∧
      (lookTimes turns).getLastD start.toNat <
        (tickTimes (loopActions start turns)).getLastD start.toNat + 500000000 := by
  rw [tickTimes_loopActions h]
  have hd : tickIntervalNs.toNat = 500000000 := rfl
  have hpos : 0 < tickIntervalNs.toNat := by decide
  have hstart : start.toNat < start.toNat + tickIntervalNs.toNat := by omega
  refine ⟨?_, fun p hp => ?_, ?_⟩
  · exact thin_spaced (List.Pairwise.sublist ((lookTimes_sublist turns).cons_cons _) h)
  · exact thin_gap hpos hstart hp
  · exact thin_recent hpos hstart _

/-- A loop that polls every 200 ms, is interrupted once, and ticks at the third look. -/
theorem tick_schedule_sample :
    let turns : List PollTurn := [⟨[], 0, 200000000⟩, ⟨[], 0, 400000000⟩, ⟨[], -eintr, 500000000⟩,
      ⟨[], 0, 600000000⟩]
    ((0 : UInt64).toNat :: tickTimes (loopActions 0 turns)).IsChain (fun a b => a + 500000000 ≤ b) ∧
      (∀ p, ((0 : UInt64).toNat :: lookTimes turns).IsChain (fun a b => b ≤ a + p) →
        ((0 : UInt64).toNat :: tickTimes (loopActions 0 turns)).IsChain
          fun a b => b < a + 500000000 + p) ∧
      (lookTimes turns).getLastD (0 : UInt64).toNat <
        (tickTimes (loopActions 0 turns)).getLastD (0 : UInt64).toNat + 500000000 :=
  tick_schedule 0 _ (by unfold ClockMonotone; decide)

/-! ## Order of the engine's operations -/

/-- What a turn does: nothing, or it hands the records on and may tick. -/
theorem loopTurn_cases (s : LoopState) (t : PollTurn) :
    (loopTurn s t).2 = [] ∨ (loopTurn s t).2 = t.delivered.map LoopAction.deliver ∨
      (loopTurn s t).2 = t.delivered.map LoopAction.deliver ++ [.tick t.now] := by
  rw [loopTurn]
  split
  · exact .inl rfl
  · right
    dsimp only
    split
    · split <;> exact .inl rfl
    · split
      · exact .inr rfl
      · exact .inl rfl

/-- What the loop does comes from one of its turns. -/
theorem mem_loopTurn {s : LoopState} {t : PollTurn} {a : LoopAction} (h : a ∈ (loopTurn s t).2) :
    (∃ p ∈ t.delivered, a = .deliver p) ∨ a = .tick t.now := by
  have hdeliver : a ∈ t.delivered.map LoopAction.deliver → ∃ p ∈ t.delivered, a = .deliver p := by
    intro hmem
    obtain ⟨p, hp, heq⟩ := List.mem_map.mp hmem
    exact ⟨p, hp, heq.symm⟩
  rcases loopTurn_cases s t with heq | heq | heq
  · rw [heq] at h
    cases h
  · rw [heq] at h
    exact .inl (hdeliver h)
  · rw [heq] at h
    rcases List.mem_append.mp h with h | h
    · exact .inl (hdeliver h)
    · exact .inr (List.mem_singleton.mp h)

theorem mem_loopOutputs {s : LoopState} {turns : List PollTurn} {a : LoopAction}
    (h : a ∈ outputs loopTurn s turns) :
    ∃ t ∈ turns, (∃ p ∈ t.delivered, a = .deliver p) ∨ a = .tick t.now := by
  obtain ⟨pre, t, post, rfl, ha⟩ := mem_outputs h
  exact ⟨t, List.mem_append_right pre List.mem_cons_self, mem_loopTurn ha⟩

/-- No tick is earlier than a record handed on before it. -/
def RecordsBefore (a b : LoopAction) : Prop :=
  ∀ p now, a = .deliver p → b = .tick now → p.record.event.tsNs ≤ now

theorem loopTurn_ordered {t : PollTurn}
    (h : ∀ p ∈ t.delivered, p.record.event.tsNs ≤ t.now) (s : LoopState) :
    (loopTurn s t).2.Pairwise RecordsBefore := by
  have hmap : (t.delivered.map LoopAction.deliver).Pairwise RecordsBefore := by
    refine List.pairwise_map.mpr (List.pairwise_of_forall fun p q => ?_)
    intro _ _ _ htick
    cases htick
  rcases loopTurn_cases s t with heq | heq | heq
  · rw [heq]
    exact List.Pairwise.nil
  · rw [heq]
    exact hmap
  · rw [heq]
    refine List.pairwise_append.mpr ⟨hmap, List.pairwise_singleton _ _, ?_⟩
    intro a ha b hb p now hp hnow
    obtain rfl := List.mem_singleton.mp hb
    obtain rfl := LoopAction.tick.inj hnow
    obtain ⟨q, hq, rfl⟩ := List.mem_map.mp ha
    obtain rfl := LoopAction.deliver.inj hp
    exact h q hq

theorem loopOutputs_ordered {start : UInt64} {turns : List PollTurn}
    (hmono : ClockMonotone start turns) (hstamped : Stamped turns) (s : LoopState) :
    (outputs loopTurn s turns).Pairwise RecordsBefore := by
  induction turns generalizing s start with
  | nil => exact List.Pairwise.nil
  | cons t ts ih =>
    obtain ⟨-, hnow, -⟩ := clockMonotone_cons hmono
    have hown : ∀ p ∈ t.delivered, p.record.event.tsNs ≤ t.now := fun p hp =>
      (hstamped t List.mem_cons_self p hp).2
    have hrest : Stamped ts := fun t' ht' => hstamped t' (List.mem_cons_of_mem t ht')
    refine List.pairwise_append.mpr ⟨loopTurn_ordered hown s, ih hnow hrest _, ?_⟩
    intro a ha b hb p now hp htick
    -- the record came in this turn, the tick in a later one
    have hle : p.record.event.tsNs ≤ t.now := by
      rcases mem_loopTurn ha with ⟨q, hq, heq⟩ | heq
      · rw [hp] at heq
        obtain rfl := LoopAction.deliver.inj heq
        exact hown p hq
      · rw [hp] at heq
        cases heq
    obtain ⟨t', ht', ⟨q, -, heq⟩ | heq⟩ := mem_loopOutputs hb
    · rw [htick] at heq
      cases heq
    · rw [htick] at heq
      obtain rfl := LoopAction.tick.inj heq
      have hlater := (List.pairwise_cons.mp hnow).1 _ (List.mem_map.mpr ⟨t', ht', rfl⟩)
      exact UInt64.le_trans hle (UInt64.le_iff_toNat_le.mpr hlater)

/-- **In the engine's operations a tick is not earlier than what was ingested before it**, and
what is ingested carries a timestamp.
SOURCE: diag.c:342-350, 503-524 -/
theorem loopActions_wellTimed {start : UInt64} {turns : List PollTurn}
    (hmono : ClockMonotone start turns) (hstamped : Stamped turns) :
    WellTimed ((loopActions start turns).map LoopAction.op) := by
  constructor
  · intro evt clock h
    obtain ⟨a, ha, hop⟩ := List.mem_map.mp h
    obtain ⟨t, ht, ⟨p, hp, rfl⟩ | rfl⟩ := mem_loopOutputs ha
    · obtain ⟨rfl, -⟩ := EngineOp.ingest.inj hop
      exact (hstamped t ht p hp).1
    · cases hop
  · rintro pre now ⟨post, heq⟩ evt clock h
    obtain ⟨as, bs, hacts, hpre, -⟩ := List.map_eq_append_iff.mp heq.symm
    obtain ⟨as', cs, rfl, rfl, htick⟩ := List.map_eq_append_iff.mp hpre
    obtain ⟨b, hb⟩ := List.map_eq_singleton_iff.mp htick
    obtain ⟨a, ha, hop⟩ := List.mem_map.mp h
    have hordered := loopOutputs_ordered hmono hstamped { lastTick := start }
    change (loopActions start turns).Pairwise RecordsBefore at hordered
    rw [hacts, hb.1] at hordered
    have hab := (List.pairwise_append.mp (List.pairwise_append.mp hordered).1).2.2 a ha b
      (List.mem_singleton_self b)
    cases a with
    | tick t => cases hop
    | deliver p =>
      cases b with
      | deliver q => cases hb.2
      | tick t =>
        obtain ⟨rfl, -⟩ := EngineOp.ingest.inj hop
        obtain rfl := EngineOp.tick.inj hb.2
        exact hab p t rfl rfl

/-! ## Alarms -/

/-- After `pre`, device `k` enters the state of rule `ri` with `evt`, in an episode in which the
rule can still be reported and that entered the state no later, and stays there: nothing in
`post` ends the stall or takes its slot away, and what the device still sends is not older. -/
structure Stall (rules : List DiagRule) (k : DiagDevkey) (ri : ℕ) (r : DiagRule)
    (pre : List EngineOp) (evt : DiagEvent) (clock : ℕ → UInt64) (post : List EngineOp) :
    Prop where
  own : diagEventKey evt = k
  enters : entersState r.dlReachedState.toNat evt = true
  inOrder : ∀ x ∈ (episodeAfter rules k (pre ++ [.ingest evt clock])).events,
    entersState r.dlReachedState.toNat x = true → x.tsNs ≤ evt.tsNs
  rearmed : Rearmed (episodeAfter rules k (pre ++ [.ingest evt clock])) r ri
  quiet : ∀ x c, EngineOp.ingest x c ∈ post → diagEventKey x = k → Uneventful r x
  notOlder : ∀ x c, EngineOp.ingest x c ∈ post → diagEventKey x = k → evt.tsNs ≤ x.tsNs
  kept : EveryStep engineStep (fun e op => ¬LosesSlot k e op)
    (engineAfter rules (pre ++ [.ingest evt clock])) post

/-- The tick at which the stall is old enough for rule `r`. -/
def alarmTick (r : DiagRule) (evt : DiagEvent) : EngineOp → Bool
  | .tick now => decide ((evt.tsNs.toNat : ℤ) + r.dlTimeoutMs * 1000000 ≤ now.toNat)
  | .ingest _ _ => false

/-- **A stall is reported in a well-timed run** that comes to a tick late enough.
SOURCE: engine.c:619-661 -/
theorem Stall.reported {rules : List DiagRule} {k : DiagDevkey} {ri : ℕ} {r : DiagRule}
    (hr : rules[ri]? = some r) (htype : r.type = .deadline)
    (hlo : 0 ≤ r.dlReachedState) (hhi : r.dlReachedState ≤ 8)
    (ht0 : 0 ≤ r.dlTimeoutMs) (hret : r.dlTimeoutMs ≤ 10000)
    {pre : List EngineOp} {evt : DiagEvent} {clock : ℕ → UInt64} {post : List EngineOp}
    (h : Stall rules k ri r pre evt clock post)
    (htimed : WellTimed (pre ++ .ingest evt clock :: post))
    (htick : ∃ op ∈ post, alarmTick r evt op = true) :
    ∃ f ∈ outputs engineStep (engineAfter rules (pre ++ [.ingest evt clock])) post,
      f.key = k ∧ f.ridx = ri := by
  -- the run up to the first tick that is late enough
  obtain ⟨op, hop⟩ := Option.isSome_iff_exists.mp (List.find?_isSome.mpr htick)
  obtain ⟨hdue, post', rest, rfl, hearly⟩ := List.find?_eq_some_iff_append.mp hop
  obtain ⟨now, rfl⟩ : ∃ now, op = .tick now := by
    cases op with
    | tick now => exact ⟨now, rfl⟩
    | ingest x c => cases hdue
  have hdue' : (evt.tsNs.toNat : ℤ) + r.dlTimeoutMs * 1000000 ≤ now.toNat := of_decide_eq_true hdue
  have hbefore : ∀ t, EngineOp.tick t ∈ post' →
      (t.toNat : ℤ) < evt.tsNs.toNat + r.dlTimeoutMs * 1000000 := by
    intro t ht
    have hnot : alarmTick r evt (.tick t) = false := by simpa using hearly _ ht
    have := of_decide_eq_false hnot
    omega
  have hpos : evt.tsNs ≠ 0 := htimed.1 evt clock (by simp)
  -- no tick of the run is older than what the device sent, so the window stays fresh
  have hafter : ∀ a t, a ++ [EngineOp.tick t] <+: post' →
      evt.tsNs ≤ t ∧ ∀ x c, EngineOp.ingest x c ∈ a → x.tsNs ≤ t := by
    rintro a t ⟨b, rfl⟩
    have hprefix : (pre ++ .ingest evt clock :: a) ++ [EngineOp.tick t] <+:
        pre ++ .ingest evt clock :: (a ++ [.tick t] ++ b ++ .tick now :: rest) :=
      ⟨b ++ .tick now :: rest, by simp⟩
    refine ⟨htimed.2 _ t hprefix evt clock (by simp), fun x c hx => ?_⟩
    exact htimed.2 _ t hprefix x c (by simp [hx])
  have hfresh : StaysFresh k evt.tsNs post' :=
    staysFresh_of_timeout_le hret post' (UInt64.le_refl _)
      (fun x c hx => h.notOlder x c (List.mem_append_left _ hx)) hafter hbefore
  have hkept := (everyStep_append.mp h.kept).1
  obtain ⟨w, t0, hw, hlast, ht0pos, hle, hwait, hlatch⟩ :=
    entry_waiting hlo hhi h.own h.enters h.inOrder h.rearmed
  have hu := engineAfter_keysUnique rules (pre ++ [.ingest evt clock])
  have hage : (t0.toNat : ℤ) + r.dlTimeoutMs * 1000000 ≤ now.toNat := by
    have h₁ := UInt64.le_iff_toNat_le.mp hle
    omega
  obtain ⟨f, hf, hfk⟩ := waiting_reports htype hlo hhi ht0 (by omega) hage post'
    (.inl (ht0pos hpos)) hu (by rw [engineAfter_rules]; exact hr) hw hwait hlatch
    (fun x c hx => h.quiet x c (List.mem_append_left _ hx))
    (staysFresh_keepsWindow post' hu hw hlast hfresh hkept)
  refine ⟨f, ?_, hfk⟩
  rw [show post' ++ EngineOp.tick now :: rest = (post' ++ [.tick now]) ++ rest by simp,
    outputs_append]
  exact List.mem_append_left _ hf

/-- The ticks among the engine's operations are those of the loop. -/
theorem mem_tickTimes {acts : List LoopAction} {x : ℕ} (h : x ∈ tickTimes acts) :
    ∃ now : UInt64, now.toNat = x ∧ EngineOp.tick now ∈ acts.map LoopAction.op := by
  obtain ⟨a, ha, htime⟩ := List.mem_filterMap.mp h
  cases a with
  | deliver p => cases htime
  | tick now => exact ⟨now, Option.some.inj htime, List.mem_map.mpr ⟨_, ha, rfl⟩⟩

/-- **A stalled device is reported within half a second of its deadline**, at the next look:
once the loop has looked at the clock half a second after the deadline and after what the
engine did before the stall was ingested, a deadline rule with a timeout of at most 10 s has
been reported for the device.
SOURCE: diag.c:503-524, engine.c:619-661 -/
theorem stall_reported (rules : List DiagRule) (k : DiagDevkey) (ri : ℕ) (r : DiagRule)
    (hr : rules[ri]? = some r) (htype : r.type = .deadline)
    (hlo : 0 ≤ r.dlReachedState) (hhi : r.dlReachedState ≤ 8)
    (ht0 : 0 ≤ r.dlTimeoutMs) (hret : r.dlTimeoutMs ≤ 10000)
    (start : UInt64) (turns : List PollTurn) (hmono : ClockMonotone start turns)
    (hstamped : Stamped turns) (pre : List EngineOp) (evt : DiagEvent) (clock : ℕ → UInt64)
    (post : List EngineOp)
    (hops : (loopActions start turns).map LoopAction.op = pre ++ .ingest evt clock :: post)
    (hstall : Stall rules k ri r pre evt clock post) (look : ℕ)
    (hlook : look = (lookTimes turns).getLastD start.toNat)
    (hdue : (evt.tsNs.toNat : ℤ) + r.dlTimeoutMs * 1000000 + 500000000 ≤ look)
    (hstart : start.toNat + 500000000 ≤ look)
    (hticks : ∀ now, EngineOp.tick now ∈ pre → now.toNat + 500000000 ≤ look) :
    ∃ f ∈ outputs engineStep (engineAfter rules (pre ++ [.ingest evt clock])) post,
      f.key = k ∧ f.ridx = ri := by
  have htimed := loopActions_wellTimed hmono hstamped
  rw [hops] at htimed
  refine hstall.reported hr htype hlo hhi ht0 hret htimed ?_
  -- the last tick is less than half a second before the look, so it comes after the stall
  have hpos : 0 < tickIntervalNs.toNat := by decide
  have hrecent := thin_recent hpos (Nat.lt_add_of_pos_right hpos : start.toNat < _)
    (lookTimes turns)
  rw [← tickTimes_loopActions hmono, ← hlook, show tickIntervalNs.toNat = 500000000 from rfl]
    at hrecent
  have hmem : (tickTimes (loopActions start turns)).getLastD start.toNat ∈
      start.toNat :: tickTimes (loopActions start turns) := List.getLastD_mem_cons
  rcases List.mem_cons.mp hmem with hlast | hlast
  · rw [hlast] at hrecent
    omega
  · obtain ⟨now, hnow, hmem⟩ := mem_tickTimes hlast
    rw [← hnow] at hrecent
    rw [hops] at hmem
    rcases List.mem_append.mp hmem with hmem | hmem
    · have := hticks now hmem
      omega
    · rcases List.mem_cons.mp hmem with heq | hmem
      · cases heq
      · exact ⟨.tick now, hmem, decide_eq_true (by omega)⟩

/-- A state change of a device of bus 1, as it waits in the buffer. -/
def stateRead (devnum : UInt16) (oldState newState : UInt8) (tsNs : UInt64) : Buffered where
  source := .enum
  record := .enum
    { hdr := ⟨evtEnum, 72, tsNs⟩, pid := 0, vid := 0, product := 0, busnum := 1, devnum := devnum
      oldState := oldState, newState := newState, speed := 0, portnum := 1, devpath := []
      comm := [], status := 0, step := 0, pad := [] }
  clock := fun _ => tsNs
  cpu := 0

/-- Device 2 reaches ADDRESS, is lost and reaches ADDRESS again at 1 s, where it stalls; an
interrupted poll hands on a record of device 3, a later one a step back of device 2, and the
loop looks at 4.6 s. -/
def stalledTurns : List PollTurn :=
  [⟨[stateRead 2 5 6 200000000, stateRead 2 6 0 300000000], 2, 400000000⟩,
   ⟨[stateRead 2 5 6 1000000000], 1, 1100000000⟩,
   ⟨[stateRead 3 5 6 1900000000], -eintr, 2000000000⟩,
   ⟨[stateRead 2 6 5 2500000000], 1, 3000000000⟩,
   ⟨[], 0, 4600000000⟩]

/-- A 3 s deadline reports it. -/
theorem stall_reported_sample :
    let r : DiagRule := { type := .deadline, dlReachedState := 6, dlWithoutState := 7,
                          dlTimeoutMs := 3000 }
    let acts := (loopActions 0 stalledTurns).map LoopAction.op
    ∃ f ∈ outputs engineStep (engineAfter [r] (acts.take 3)) (acts.drop 3),
      f.key = ⟨1, 2⟩ ∧ f.ridx = 0 := by
  intro r acts
  let evt : DiagEvent := (stateRead 2 5 6 1000000000).record.event
  have hmem : ∀ x c, EngineOp.ingest x c ∈ acts.drop 3 → diagEventKey x = ⟨1, 2⟩ →
      x = (stateRead 2 6 5 2500000000).record.event := by
    intro x c hx hk
    rw [show acts.drop 3 = [.tick 1100000000, (stateRead 3 5 6 1900000000).ingest,
      (stateRead 2 6 5 2500000000).ingest, .tick 3000000000, .tick 4600000000] from rfl] at hx
    simp only [List.mem_cons, List.not_mem_nil, or_false, reduceCtorEq, false_or] at hx
    rcases hx with hx | hx
    · rw [(EngineOp.ingest.inj hx).1] at hk
      cases hk
    · exact (EngineOp.ingest.inj hx).1
  -- the episode began at the disconnect
  have hepisode : (episodeAfter [r] ⟨1, 2⟩ (acts.take 2 ++ [.ingest evt fun _ => 1000000000])) =
      episodeAfter [r] ⟨1, 2⟩ (acts.take 3) := rfl
  have hevents : ∀ x ∈ (episodeAfter [r] ⟨1, 2⟩ (acts.take 3)).events,
      (entersState 6 x = true → x.tsNs ≤ evt.tsNs) ∧ entersState 7 x = false := by
    decide +kernel
  refine stall_reported [r] ⟨1, 2⟩ 0 r rfl rfl (by decide) (by decide) (by decide) (by decide)
    0 stalledTurns (by unfold ClockMonotone; decide) (by unfold Stamped; decide) (acts.take 2) evt
    (fun _ => 1000000000) (acts.drop 3) rfl ⟨rfl, rfl, ?_, ⟨?_, ?_⟩, ?_, ?_, ?_⟩
    4600000000 rfl (by decide) (by decide) ?_
  · rw [hepisode]
    exact fun x hx => (hevents x hx).1
  · rw [hepisode]
    exact fun _ _ x hx => (hevents x hx).2
  · rw [hepisode]
    decide +kernel
  · intro x c hx hk
    rw [hmem x c hx hk]
    exact ⟨rfl, rfl, fun _ _ => rfl⟩
  · intro x c hx hk
    rw [hmem x c hx hk]
    decide
  · -- the table has free slots
    refine ⟨fun h => h.1, fun h => ?_, fun h => ?_, fun h => h.1, fun h => h.1, trivial⟩
    · exact absurd (h.1.2 ⟨5, by decide⟩) (by decide +kernel)
    · exact absurd (h.1.2 ⟨5, by decide⟩) (by decide +kernel)
  · intro now hnow
    rw [show acts.take 2 = [(stateRead 2 5 6 200000000).ingest,
      (stateRead 2 6 0 300000000).ingest] from rfl] at hnow
    simp only [List.mem_cons, List.not_mem_nil, or_false] at hnow
    rcases hnow with hnow | hnow <;> cases hnow

end UsbTrace.Analysis

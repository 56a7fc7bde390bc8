import UsbTrace.Interface.DeviceFilter
import UsbTrace.Library.Run

/-!
# Submissions and completions

A completion finds the time of its submission in a map by the URB's address.  An address is
used again and again, a submission may fail after its time is kept, and the map may be full;
still a latency is never taken from an older submission (`giveback_latency`).  The map is
not rid of the times of submissions that failed, though, and such a submission overwrites the
time of an URB in flight: the entries are those of URBs in flight, with the times they were
put in flight, exactly as long as no failing submission writes one (`entries_inFlight_iff`,
`failed_submission_stays`).
-/

set_option autoImplicit false

namespace UsbTrace.Analysis

open UsbTrace.Model UsbTrace.Library UsbTrace.Interface

/-! ## One hook -/

/-- The URB passes the filter, and is a control URB where only those are looked at. -/
def urbPasses (cfg : UrbConfig) (dev : UsbDevice) (urb : Urb) : Bool :=
  (!cfg.ctrlOnly || urbIsControl urb) && passes cfg.toFilterConfig dev

/-- **A submission** keeps its time, if the URB passes. -/
theorem urbStep_submit (cfg : UrbConfig) (m : StartTs) (ctx : HookCtx) (dev : UsbDevice)
    (urb : Urb) (ret : Int32) :
    (urbStep cfg m (.submit ctx dev urb ret)).1 =
      if urbPasses cfg dev urb then m.update urb.ptr ctx.now else m := by
  unfold urbStep onSubmit urbPasses
  dsimp only
  by_cases hctrl : cfg.ctrlOnly = true ∧ (!urbIsControl urb) = true
  · rw [if_pos hctrl, if_neg (by simp_all)]
  · have hkind : (!cfg.ctrlOnly || urbIsControl urb) = true := by
      cases hc : cfg.ctrlOnly <;> simp_all
    rw [if_neg hctrl, hkind, Bool.true_and]
    cases hp : passes cfg.toFilterConfig dev with
    | false =>
      rw [devMatch_of_not_passes hp]
      rfl
    | true =>
      rw [devMatch_of_passes hp]
      dsimp only
      split <;> rfl

/-- **A completion** removes the entry; if the URB passes, it is recorded once, with the
latency the entry gives. -/
theorem urbStep_giveback (cfg : UrbConfig) (m : StartTs) (ctx : HookCtx) (dev : UsbDevice)
    (urb : Urb) (status : Int32) :
    (urbStep cfg m (.giveback ctx dev urb status)).1 = m.delete urb.ptr ∧
      (urbPasses cfg dev urb = true →
        ∃ e, (urbStep cfg m (.giveback ctx dev urb status)).2 = [e] ∧ e.isSubmit = 0 ∧
          e.hdr.tsNs = ctx.now ∧
          e.latencyNs = ((m.lookup urb.ptr).map (ctx.now - ·)).getD 0) := by
  unfold urbStep onGiveback urbPasses
  dsimp only
  by_cases hctrl : cfg.ctrlOnly = true ∧ (!urbIsControl urb) = true
  · rw [if_pos hctrl]
    exact ⟨rfl, fun h => by simp_all⟩
  · rw [if_neg hctrl]
    cases hp : passes cfg.toFilterConfig dev with
    | false =>
      rw [devMatch_of_not_passes hp]
      exact ⟨rfl, fun h => by simp at h⟩
    | true =>
      rw [devMatch_of_passes hp]
      refine ⟨rfl, fun _ => ⟨_, rfl, rfl, rfl, ?_⟩⟩
      simp only [fillCommon]
      cases m.lookup urb.ptr <;> rfl

/-! ## The latest submission -/

/-- A submission of an URB. -/
structure Submission where
  dev : UsbDevice
  urb : Urb
  ts : UInt64

/-- The submission an operation is, of the URB at `p`. -/
def submission (p : UInt64) : UrbOp → Option Submission
  | .submit ctx dev urb _ => if urb.ptr = p then some ⟨dev, urb, ctx.now⟩ else none
  | .giveback .. => none

/-- The latest submission of the URB at `p`, successful or not. -/
def latestSubmission (p : UInt64) (ops : List UrbOp) : Option Submission :=
  lastOf (submission p) ops

theorem latestSubmission_concat (p : UInt64) (ops : List UrbOp) (op : UrbOp) :
    latestSubmission p (ops ++ [op]) = (submission p op).or (latestSubmission p ops) :=
  lastOf_concat (submission p) ops op

/-- The map after a run. -/
def startTsAfter (cfg : UrbConfig) (ops : List UrbOp) : StartTs :=
  finalState (urbStep cfg) BoundedMap.empty ops

/-- The time kept for a pointer is that of its latest submission, if that one passed. -/
def KeepsLatest (cfg : UrbConfig) (ops : List UrbOp) : Prop :=
  ∀ p ts, (startTsAfter cfg ops).lookup p = some ts →
    ∃ sub, latestSubmission p ops = some sub ∧
      (urbPasses cfg sub.dev sub.urb = true → sub.ts = ts)

/-- **In every run** the times kept are those of the latest submissions. -/
theorem run_keepsLatest (cfg : UrbConfig) (ops : List UrbOp) : KeepsLatest cfg ops := by
  induction ops using List.reverseRecOn with
  | nil => exact fun p ts h => (Option.some_ne_none ts h.symm).elim
  | append_singleton ops op ih =>
    intro p ts h
    rw [startTsAfter, finalState_concat] at h
    rw [latestSubmission_concat]
    change (urbStep cfg (startTsAfter cfg ops) op).1.lookup p = some ts at h
    cases op with
    | giveback ctx dev urb status =>
      rw [(urbStep_giveback cfg _ ctx dev urb status).1] at h
      by_cases hp : p = urb.ptr
      · rw [hp, BoundedMap.lookup_delete_self] at h
        cases h
      · rw [BoundedMap.lookup_delete_of_ne _ hp] at h
        exact ih p ts h
    | submit ctx dev urb ret =>
      rw [urbStep_submit] at h
      by_cases hp : urb.ptr = p
      · have hsub : submission p (.submit ctx dev urb ret) = some ⟨dev, urb, ctx.now⟩ := if_pos hp
        rw [hsub]
        refine ⟨_, rfl, fun hpass => ?_⟩
        rw [if_pos hpass, hp] at h
        exact (BoundedMap.eq_of_lookup_update h).symm
      · have hsub : submission p (.submit ctx dev urb ret) = none := if_neg hp
        rw [hsub]
        refine ih p ts ?_
        split at h
        · rwa [BoundedMap.lookup_update_of_ne _ (Ne.symm hp)] at h
        · exact h

/-- Whether an URB passes does not change between its latest submission and its completion:
its device passes the filter at both or at neither, and its pipe is the same. -/
def KeepsVerdict (cfg : UrbConfig) (ops : List UrbOp) : Prop :=
  ∀ pre ctx dev urb status post, ops = pre ++ .giveback ctx dev urb status :: post →
    ∀ sub ∈ latestSubmission urb.ptr pre,
      passes cfg.toFilterConfig sub.dev = passes cfg.toFilterConfig dev ∧ sub.urb.pipe = urb.pipe

/-- **Latencies.**  In every run each completion that passes is recorded once; its latency is 0
where no submission is recorded, and else the time since the latest submission of the URB at
that address.
SOURCE: urb.bpf.c:101-189 -/
theorem giveback_latency (cfg : UrbConfig) (ops : List UrbOp) (h : KeepsVerdict cfg ops) :
    ∀ pre ctx dev urb status post, ops = pre ++ .giveback ctx dev urb status :: post →
      urbPasses cfg dev urb = true →
      ∃ e, (urbStep cfg (startTsAfter cfg pre) (.giveback ctx dev urb status)).2 = [e] ∧
        e.isSubmit = 0 ∧ e.hdr.tsNs = ctx.now ∧
        ((startTsAfter cfg pre).lookup urb.ptr = none ∧ e.latencyNs = 0 ∨
          ∃ sub, latestSubmission urb.ptr pre = some sub ∧
            (startTsAfter cfg pre).lookup urb.ptr = some sub.ts ∧
            e.latencyNs = ctx.now - sub.ts) := by
  intro pre ctx dev urb status post heq hpass
  obtain ⟨e, hout, hsubmit, hts, hlat⟩ :=
    (urbStep_giveback cfg (startTsAfter cfg pre) ctx dev urb status).2 hpass
  refine ⟨e, hout, hsubmit, hts, ?_⟩
  cases hl : (startTsAfter cfg pre).lookup urb.ptr with
  | none =>
    rw [hl] at hlat
    exact Or.inl ⟨rfl, hlat⟩
  | some ts =>
    right
    obtain ⟨sub, hsub, hlatest⟩ := run_keepsLatest cfg pre urb.ptr ts hl
    obtain ⟨hfilter, hpipe⟩ := h pre ctx dev urb status post heq sub hsub
    have hpass' : urbPasses cfg sub.dev sub.urb = true := by
      unfold urbPasses urbIsControl at hpass ⊢
      rwa [hfilter, hpipe]
    obtain rfl := hlatest hpass'
    rw [hl] at hlat
    exact ⟨sub, hsub, rfl, hlat⟩

/-- A control URB at `0x1000`. -/
def sampleUrb : Urb := { ptr := 0x1000, pipe := 0x80000000 }

/-- A submission of it that fails, one that succeeds, and its completion. -/
def sampleSubmissions : List UrbOp :=
  [.submit { now := 10 } {} sampleUrb (-19), .submit { now := 20 } {} sampleUrb 0]

theorem giveback_latency_sample :
    ∃ e, (urbStep {} (startTsAfter {} sampleSubmissions)
          (.giveback { now := 50 } {} sampleUrb 0)).2 = [e] ∧
      e.isSubmit = 0 ∧ e.hdr.tsNs = 50 ∧
      ((startTsAfter {} sampleSubmissions).lookup sampleUrb.ptr = none ∧ e.latencyNs = 0 ∨
        ∃ sub, latestSubmission sampleUrb.ptr sampleSubmissions = some sub ∧
          (startTsAfter {} sampleSubmissions).lookup sampleUrb.ptr = some sub.ts ∧
          e.latencyNs = 50 - sub.ts) := by
  refine giveback_latency {} (sampleSubmissions ++ [.giveback { now := 50 } {} sampleUrb 0]) ?_
    sampleSubmissions { now := 50 } {} sampleUrb 0 [] rfl (by decide)
  intro pre ctx dev urb status post heq sub hsub
  match pre, heq with
  | [], heq => cases heq
  | [_], heq => cases heq
  | [_, _], heq =>
    cases heq
    cases hsub
    exact ⟨rfl, rfl⟩
  | _ :: _ :: _ :: pre, heq => simp [sampleSubmissions] at heq

example : ((urbStep {} (startTsAfter {} sampleSubmissions)
    (.giveback { now := 50 } {} sampleUrb 0)).2.map UrbEvent.latencyNs) = [30] := by decide

/-! ## URBs in flight -/

/-- The URBs in flight after an operation. -/
def flight (s : Finset UInt64) : UrbOp → Finset UInt64
  | .submit _ _ urb ret => if ret = 0 then insert urb.ptr s else s
  | .giveback _ _ urb _ => s.erase urb.ptr

/-- The URBs in flight after a run: submitted successfully, and not given back since. -/
def inFlight (ops : List UrbOp) : Finset UInt64 := ops.foldl flight ∅

theorem inFlight_concat (ops : List UrbOp) (op : UrbOp) :
    inFlight (ops ++ [op]) = flight (inFlight ops) op := by
  rw [inFlight, inFlight, List.foldl_append]
  rfl

/-- No more URBs are in flight than operations have been. -/
theorem card_inFlight_le (ops : List UrbOp) : (inFlight ops).card ≤ ops.length := by
  induction ops using List.reverseRecOn with
  | nil => exact Nat.le_refl 0
  | append_singleton ops op ih =>
    rw [inFlight_concat, List.length_append, List.length_singleton]
    cases op with
    | submit ctx dev urb ret =>
      rw [flight]
      split
      · exact le_trans (Finset.card_insert_le _ _) (Nat.add_le_add_right ih 1)
      · exact Nat.le_succ_of_le ih
    | giveback ctx dev urb status =>
      exact le_trans Finset.card_erase_le (Nat.le_succ_of_le ih)

/-- The entries of the map are for URBs in flight. -/
def OnlyInFlight (cfg : UrbConfig) (ops : List UrbOp) : Prop :=
  ∀ p ts, (startTsAfter cfg ops).lookup p = some ts → p ∈ inFlight ops

/-- The operation is no failing submission that would leave an entry: such a submission does
not pass the filter, or is of an URB in flight, or finds the map full. -/
def LeavesNothing (cfg : UrbConfig) (pre : List UrbOp) : UrbOp → Prop
  | .submit _ dev urb ret => ret ≠ 0 → urbPasses cfg dev urb = true →
      urb.ptr ∈ inFlight pre ∨ ¬(startTsAfter cfg pre).HasRoom urb.ptr
  | .giveback .. => True

/-- **One hook** keeps the entries to URBs in flight, iff it leaves nothing. -/
theorem onlyInFlight_concat (cfg : UrbConfig) {ops : List UrbOp} (h : OnlyInFlight cfg ops)
    (op : UrbOp) : OnlyInFlight cfg (ops ++ [op]) ↔ LeavesNothing cfg ops op := by
  unfold OnlyInFlight
  rw [startTsAfter, finalState_concat, inFlight_concat]
  change (∀ p ts, (urbStep cfg (startTsAfter cfg ops) op).1.lookup p = some ts →
    p ∈ flight (inFlight ops) op) ↔ _
  cases op with
  | giveback ctx dev urb status =>
    refine iff_of_true (fun p ts hp => ?_) trivial
    rw [(urbStep_giveback cfg _ ctx dev urb status).1] at hp
    by_cases hne : p = urb.ptr
    · rw [hne, BoundedMap.lookup_delete_self] at hp
      cases hp
    · rw [BoundedMap.lookup_delete_of_ne _ hne] at hp
      exact Finset.mem_erase.mpr ⟨hne, h p ts hp⟩
  | submit ctx dev urb ret =>
    rw [urbStep_submit]
    cases hpass : urbPasses cfg dev urb with
    | false =>
      refine iff_of_true (fun p ts hp => ?_) fun _ hp => absurd (hpass ▸ hp) Bool.false_ne_true
      have hmem : p ∈ inFlight ops := h p ts hp
      rw [flight]
      split
      · exact Finset.mem_insert_of_mem hmem
      · exact hmem
    | true =>
      rw [if_pos rfl]
      by_cases hret : ret = 0
      · refine iff_of_true (fun p ts hp => ?_) fun hne => absurd hret hne
        rw [flight, if_pos hret]
        rcases BoundedMap.lookup_update_cases hp with ⟨rfl, -⟩ | hold
        · exact Finset.mem_insert_self _ _
        · exact Finset.mem_insert_of_mem (h p ts hold)
      · rw [flight, if_neg hret]
        constructor
        · intro hall _ _
          by_cases hroom : (startTsAfter cfg ops).HasRoom urb.ptr
          · exact Or.inl (hall _ _ (BoundedMap.lookup_update_self hroom ctx.now))
          · exact Or.inr hroom
        · intro hleaves p ts hp
          rcases hleaves hret hpass with hin | hfull
          · rcases BoundedMap.lookup_update_cases hp with ⟨rfl, -⟩ | hold
            · exact hin
            · exact h p ts hold
          · rw [BoundedMap.update_of_not_hasRoom hfull] at hp
            exact h p ts hp

/-- The submission an operation is, of the URB at `p`, if it succeeds. -/
def started (p : UInt64) : UrbOp → Option Submission
  | .submit ctx dev urb ret => if ret = 0 ∧ urb.ptr = p then some ⟨dev, urb, ctx.now⟩ else none
  | .giveback .. => none

/-- The submission that put the URB at `p` in flight: its latest successful one. -/
def startedBy (p : UInt64) (ops : List UrbOp) : Option Submission := lastOf (started p) ops

theorem startedBy_concat (p : UInt64) (ops : List UrbOp) (op : UrbOp) :
    startedBy p (ops ++ [op]) = (started p op).or (startedBy p ops) :=
  lastOf_concat (started p) ops op

/-- The time of each URB in flight is recorded, if the submission that put it in flight
passed. -/
def RecordedInFlight (cfg : UrbConfig) (ops : List UrbOp) : Prop :=
  ∀ p ∈ inFlight ops, ∀ sub ∈ startedBy p ops,
    urbPasses cfg sub.dev sub.urb = true → (startTsAfter cfg ops).lookup p = some sub.ts

/-- The operation is no failing submission that would write an entry: such a submission does
not pass the filter, or finds the map full, or is of an URB in flight whose own submission did
not pass, or came at the same time. -/
def WritesNothing (cfg : UrbConfig) (pre : List UrbOp) : UrbOp → Prop
  | .submit ctx dev urb ret => ret ≠ 0 → urbPasses cfg dev urb = true →
      (urb.ptr ∈ inFlight pre ∧ ∀ sub ∈ startedBy urb.ptr pre,
        urbPasses cfg sub.dev sub.urb = true → sub.ts = ctx.now) ∨
      ¬(startTsAfter cfg pre).HasRoom urb.ptr
  | .giveback .. => True

/-- What writes no entry leaves none. -/
theorem WritesNothing.leavesNothing {cfg : UrbConfig} {pre : List UrbOp} {op : UrbOp}
    (h : WritesNothing cfg pre op) : LeavesNothing cfg pre op := by
  cases op with
  | giveback ctx dev urb status => trivial
  | submit ctx dev urb ret => exact fun hret hpass => (h hret hpass).imp_left And.left

/-- The entries are for URBs in flight, and the times of those are recorded. -/
def EntriesReal (cfg : UrbConfig) (ops : List UrbOp) : Prop :=
  OnlyInFlight cfg ops ∧ RecordedInFlight cfg ops

/-- **One hook** records the submission it is at, while there is room for the URBs in
flight and it is no failing one. -/
theorem recordedInFlight_concat {cfg : UrbConfig} {ops : List UrbOp} {op : UrbOp}
    (h : EntriesReal cfg ops) (hwrites : WritesNothing cfg ops op)
    (hcard : (inFlight (ops ++ [op])).card ≤ 16384) : RecordedInFlight cfg (ops ++ [op]) := by
  obtain ⟨honly, h⟩ := h
  intro p hp sub hsub hpass
  rw [startedBy_concat] at hsub
  rw [inFlight_concat] at hp hcard
  rw [startTsAfter, finalState_concat]
  change (urbStep cfg (startTsAfter cfg ops) op).1.lookup p = some sub.ts
  cases op with
  | giveback ctx dev urb status =>
    obtain ⟨hne, hmem⟩ := Finset.mem_erase.mp hp
    rw [(urbStep_giveback cfg _ ctx dev urb status).1, BoundedMap.lookup_delete_of_ne _ hne]
    exact h p hmem sub hsub hpass
  | submit ctx dev urb ret =>
    rw [urbStep_submit]
    by_cases hptr : urb.ptr = p
    · by_cases hret : ret = 0
      · -- the submission succeeds: its time is the one to keep, and there is room for it
        have hsome : started p (.submit ctx dev urb ret) = some ⟨dev, urb, ctx.now⟩ :=
          if_pos ⟨hret, hptr⟩
        rw [hsome, Option.some_or, Option.mem_some_iff] at hsub
        subst hsub
        have hkeys : ∀ k ts, (startTsAfter cfg ops).lookup k = some ts →
            k ∈ flight (inFlight ops) (.submit ctx dev urb ret) := by
          intro k ts hk
          rw [flight, if_pos hret]
          exact Finset.mem_insert_of_mem (honly k ts hk)
        rw [if_pos hpass, hptr]
        exact BoundedMap.lookup_update_self (BoundedMap.hasRoom_of_card hcard hkeys hp) ctx.now
      · -- the submission fails: the URB in flight keeps the time it has
        have hnone : started p (.submit ctx dev urb ret) = none := if_neg fun hc => hret hc.1
        rw [hnone, Option.none_or] at hsub
        rw [flight, if_neg hret] at hp
        have hold := h p hp sub hsub hpass
        cases hurb : urbPasses cfg dev urb with
        | false => exact hold
        | true =>
          rw [if_pos rfl]
          have hroom : (startTsAfter cfg ops).HasRoom urb.ptr :=
            hptr ▸ BoundedMap.hasRoom_of_lookup hold
          rcases hwrites hret hurb with ⟨-, hsame⟩ | hfull
          · rw [hsame sub (by rwa [hptr]) hpass, ← hptr]
            exact BoundedMap.lookup_update_self hroom ctx.now
          · exact absurd hroom hfull
    · have hnone : started p (.submit ctx dev urb ret) = none := if_neg fun hc => hptr hc.2
      rw [hnone, Option.none_or] at hsub
      have hmem : p ∈ inFlight ops := by
        rw [flight] at hp
        split at hp
        · exact Finset.mem_of_mem_insert_of_ne hp (Ne.symm hptr)
        · exact hp
      split
      · rw [BoundedMap.lookup_update_of_ne _ (Ne.symm hptr)]
        exact h p hmem sub hsub hpass
      · exact h p hmem sub hsub hpass

/-- A step that keeps the entries real writes no entry of a failing submission. -/
theorem writesNothing_of_concat {cfg : UrbConfig} {ops : List UrbOp} {op : UrbOp}
    (h : EntriesReal cfg (ops ++ [op])) : WritesNothing cfg ops op := by
  cases op with
  | giveback ctx dev urb status => trivial
  | submit ctx dev urb ret =>
    intro hret hpass
    by_cases hroom : (startTsAfter cfg ops).HasRoom urb.ptr
    · left
      have hstep : startTsAfter cfg (ops ++ [.submit ctx dev urb ret]) =
          (startTsAfter cfg ops).update urb.ptr ctx.now := by
        rw [startTsAfter, finalState_concat]
        exact (urbStep_submit ..).trans (if_pos hpass)
      have hflight : inFlight (ops ++ [.submit ctx dev urb ret]) = inFlight ops := by
        rw [inFlight_concat, flight, if_neg hret]
      have hstart : startedBy urb.ptr (ops ++ [.submit ctx dev urb ret]) =
          startedBy urb.ptr ops := by
        rw [startedBy_concat, started, if_neg fun hc => hret hc.1, Option.none_or]
      have hself : (startTsAfter cfg (ops ++ [.submit ctx dev urb ret])).lookup urb.ptr =
          some ctx.now := by
        rw [hstep]
        exact BoundedMap.lookup_update_self hroom ctx.now
      have hin := h.1 _ _ hself
      refine ⟨hflight ▸ hin, fun sub hsub hsubpass => ?_⟩
      have hrec := h.2 _ hin sub (by rwa [hstart]) hsubpass
      exact Option.some.inj (hrec.symm.trans hself)
    · exact Or.inr hroom

/-- Where no operation leaves an entry, the entries are for URBs in flight. -/
theorem run_onlyInFlight {cfg : UrbConfig} {ops : List UrbOp}
    (h : ∀ pre op post, ops = pre ++ op :: post → LeavesNothing cfg pre op) {pre : List UrbOp}
    (hpre : pre <+: ops) : OnlyInFlight cfg pre := by
  induction pre using List.reverseRecOn with
  | nil => exact fun p ts h => (Option.some_ne_none ts h.symm).elim
  | append_singleton pre op ih =>
    obtain ⟨post, hops⟩ := hpre
    rw [List.append_assoc] at hops
    have hbefore : OnlyInFlight cfg pre := ih ⟨_, hops⟩
    exact (onlyInFlight_concat cfg hbefore op).mpr (h pre op post hops.symm)

/-- And where none writes one, with no more URBs in flight than the map has places, their
times are recorded. -/
theorem run_entriesReal {cfg : UrbConfig} {ops : List UrbOp}
    (h : ∀ pre op post, ops = pre ++ op :: post → WritesNothing cfg pre op)
    (hcard : ∀ pre, pre <+: ops → (inFlight pre).card ≤ 16384) {pre : List UrbOp}
    (hpre : pre <+: ops) : EntriesReal cfg pre := by
  refine ⟨run_onlyInFlight (fun pre op post heq => (h pre op post heq).leavesNothing) hpre, ?_⟩
  induction pre using List.reverseRecOn with
  | nil => exact fun p hp => absurd hp (Finset.notMem_empty p)
  | append_singleton pre op ih =>
    have hbefore : pre <+: ops := (List.prefix_append pre [op]).trans hpre
    have honly := run_onlyInFlight (fun pre op post heq => (h pre op post heq).leavesNothing)
      hbefore
    obtain ⟨post, hops⟩ := hpre
    rw [List.append_assoc] at hops
    exact recordedInFlight_concat ⟨honly, ih hbefore⟩ (h pre op post hops.symm)
      (hcard _ ⟨post, by rw [List.append_assoc]; exact hops⟩)

/-- **In every run** the entries are for URBs in flight, iff no failing submission leaves one.
With at most 16384 URBs in flight, the entries are for URBs in flight and each submission that
passes has its time recorded, iff no failing submission writes one; and then each completion
tells the time since the submission that put the URB in flight.
SOURCE: urb.bpf.c:48-53, 101-189 -/
theorem entries_inFlight_iff (cfg : UrbConfig) (ops : List UrbOp) :
    ((∀ pre, pre <+: ops → OnlyInFlight cfg pre) ↔
        ∀ pre op post, ops = pre ++ op :: post → LeavesNothing cfg pre op) ∧
      ((∀ pre, pre <+: ops → (inFlight pre).card ≤ 16384) →
        ((∀ pre, pre <+: ops → EntriesReal cfg pre) ↔
          ∀ pre op post, ops = pre ++ op :: post → WritesNothing cfg pre op) ∧
        ((∀ pre op post, ops = pre ++ op :: post → WritesNothing cfg pre op) →
          ∀ pre ctx dev urb status post, ops = pre ++ .giveback ctx dev urb status :: post →
            urb.ptr ∈ inFlight pre → urbPasses cfg dev urb = true →
            ∀ sub ∈ startedBy urb.ptr pre, urbPasses cfg sub.dev sub.urb = true →
              ∃ e, (urbStep cfg (startTsAfter cfg pre) (.giveback ctx dev urb status)).2 = [e] ∧
                e.latencyNs = ctx.now - sub.ts)) := by
  refine ⟨⟨?_, fun h pre hpre => run_onlyInFlight h hpre⟩, fun hcard =>
    ⟨⟨?_, fun h pre hpre => run_entriesReal h hcard hpre⟩, ?_⟩⟩
  · rintro hall pre op post rfl
    have hpre : OnlyInFlight cfg pre := hall pre (List.prefix_append _ _)
    refine (onlyInFlight_concat cfg hpre op).mp (hall _ ?_)
    exact ⟨post, by rw [List.append_assoc]; rfl⟩
  · rintro hall pre op post rfl
    exact writesNothing_of_concat (hall (pre ++ [op]) ⟨post, by rw [List.append_assoc]; rfl⟩)
  · rintro h pre ctx dev urb status post rfl hin hpass sub hsub hsubpass
    obtain ⟨e, hout, -, -, hlat⟩ :=
      (urbStep_giveback cfg (startTsAfter cfg pre) ctx dev urb status).2 hpass
    have hrec := (run_entriesReal h hcard (List.prefix_append pre _)).2 urb.ptr hin sub hsub
      hsubpass
    rw [hrec] at hlat
    exact ⟨e, hout, hlat⟩

/-- A webcam. -/
def sampleDevice : UsbDevice := { idVendor := 0x46d, busnum := 1, devnum := 2 }

/-- A failing submission of a device that does not pass `--vid 046d`, and two transfers of the
one URB of a webcam that does. -/
def sampleTransfers : List UrbOp :=
  [.submit { now := 10 } {} sampleUrb (-19), .submit { now := 20 } sampleDevice sampleUrb 0,
    .giveback { now := 50 } sampleDevice sampleUrb 0,
    .submit { now := 60 } sampleDevice sampleUrb 0]

/-- The second transfer of the URB tells its own latency. -/
theorem entries_inFlight_sample :
    ∃ e, (urbStep { filterVid := 0x46d } (startTsAfter { filterVid := 0x46d } sampleTransfers)
        (.giveback { now := 100 } sampleDevice sampleUrb 0)).2 = [e] ∧ e.latencyNs = 100 - 60 := by
  let ops : List UrbOp := sampleTransfers ++ [.giveback { now := 100 } sampleDevice sampleUrb 0]
  have hwrites : ∀ pre op post, ops = pre ++ op :: post →
      WritesNothing { filterVid := 0x46d } pre op := by
    simp only [ops, sampleTransfers, List.cons_append, List.nil_append, forall_split_cons]
    refine ⟨fun _ hpass => absurd hpass (by decide), fun hret => absurd rfl hret, trivial,
      fun hret => absurd rfl hret, trivial, forall_split_nil⟩
  have hcard : ∀ pre, pre <+: ops → (inFlight pre).card ≤ 16384 := fun pre hpre =>
    le_trans (card_inFlight_le pre) (le_trans hpre.length_le (by decide))
  exact ((entries_inFlight_iff { filterVid := 0x46d } ops).2 hcard).2 hwrites sampleTransfers
    { now := 100 } sampleDevice sampleUrb 0 [] rfl (by decide) (by decide)
    ⟨sampleDevice, sampleUrb, 60⟩ rfl (by decide)

/-- **A failed submission stays.**  It leaves an entry for an URB that is not in flight; and of
an URB in flight it overwrites the time, so that a completion after 40 ns tells 30. -/
theorem failed_submission_stays :
    ¬OnlyInFlight {} [.submit { now := 10 } {} sampleUrb (-19)] ∧
      ¬RecordedInFlight {} [.submit { now := 10 } {} sampleUrb 0,
        .submit { now := 20 } {} sampleUrb (-16)] ∧
      (urbStep {} (startTsAfter {} [.submit { now := 10 } {} sampleUrb 0,
        .submit { now := 20 } {} sampleUrb (-16)])
          (.giveback { now := 50 } {} sampleUrb 0)).2.map UrbEvent.latencyNs = [30] := by
  refine ⟨fun h => ?_, fun h => ?_, by decide⟩
  · have hmem := h 0x1000 10 (by decide)
    exact absurd hmem (by decide)
  · have hts := h 0x1000 (by decide) ⟨{}, sampleUrb, 10⟩ rfl (by decide)
    exact absurd hts (by decide)

end UsbTrace.Analysis

import UsbTrace.Model.Pending

/-!
# Entries and exits

An exit probe has the device of a call from a map its entry probe wrote, by thread.  Exits
may be missed and the maps may be full; still a record names the device of the thread's
latest entry into the same function, and without missed exits a map holds only threads
inside its function (`exit_pairs_entry`).
-/

set_option autoImplicit false

namespace UsbTrace.Analysis

open UsbTrace.Model UsbTrace.Library

/-! ## One hook -/

/-- The map of a function. -/
def pendingMap (m : PendingMaps) : ProbedFn → PendingMap
  | .getDesc => m.descPending
  | .setAddr => m.addrPending
  | .setConfig => m.configPending
  | .newDevice => m.newDevPending

/-- The step an exit is reported as. -/
def exitStep : ProbedFn → UInt8
  | .getDesc => enumStepGetDesc
  | .setAddr => enumStepSetAddr
  | .setConfig => enumStepSetConfig
  | .newDevice => 0

/-- The status of an exit, from its return value. -/
def exitStatus (fn : ProbedFn) (rc : UInt64) : Int32 :=
  if fn = .getDesc then usbtraceKretPtrOrInt rc else usbtraceKretInt rc

/-- The record of an exit of a call with the device at `udev`: what the device has at the
exit, and for the enumeration steps the status of the exit; none where the device does not
pass the filter, or the new device failed. -/
def exitRecord (cfg : FilterConfig) (fn : ProbedFn) (ctx : ThreadCtx) (udev rc : UInt64) :
    Option Record :=
  let d := ctx.device udev
  if udev = 0 then none
  else if fn = .newDevice then
    if exitStatus fn rc < 0 then none
    else (lifecycleEmit cfg d.dev lifecycleConnect 0 ctx.now ctx.task).map .lifecycle
  else (emitEnum cfg d.dev d.state d.state (exitStep fn) (exitStatus fn rc) ctx.now
    ctx.task).map .enum

/-- **An entry** keeps its device in the map of its function. -/
theorem pendingMap_enter (m : PendingMaps) (fn fn' : ProbedFn) (ctx : ThreadCtx) (udev : UInt64) :
    pendingMap (onEnter m ctx udev fn) fn' =
      if fn' = fn then stash (pendingMap m fn) ctx.id udev else pendingMap m fn' := by
  cases fn <;> cases fn' <;> rfl

theorem popEmit_lookup (cfg : FilterConfig) (map : PendingMap) (ctx : ThreadCtx) (step : UInt8)
    (rc id : UInt64) :
    (popEmit cfg map ctx step rc).1.lookup id = if id = ctx.id then none else map.lookup id := by
  unfold popEmit
  cases h : map.lookup ctx.id with
  | none => exact BoundedMap.lookup_of_lookup_none h id
  | some udev =>
    dsimp only
    split <;> exact BoundedMap.lookup_delete map ctx.id id

theorem onNewDeviceExit_lookup (cfg : FilterConfig) (map : PendingMap) (ctx : ThreadCtx)
    (rc id : UInt64) :
    (onNewDeviceExit cfg map ctx rc).1.lookup id = if id = ctx.id then none else map.lookup id := by
  unfold onNewDeviceExit
  cases h : map.lookup ctx.id with
  | none => exact BoundedMap.lookup_of_lookup_none h id
  | some udev =>
    dsimp only
    split <;> exact BoundedMap.lookup_delete map ctx.id id

/-- **An exit** takes the entry of its thread out of the map of its function. -/
theorem pendingMap_exit (cfg : FilterConfig) (m : PendingMaps) (fn fn' : ProbedFn)
    (ctx : ThreadCtx) (rc id : UInt64) :
    (pendingMap (onExit cfg m ctx rc fn).1 fn').lookup id =
      if fn' = fn ∧ id = ctx.id then none else (pendingMap m fn').lookup id := by
  have hself : ∀ fn, (pendingMap (onExit cfg m ctx rc fn).1 fn).lookup id =
      if id = ctx.id then none else (pendingMap m fn).lookup id := by
    intro fn
    cases fn with
    | newDevice => exact onNewDeviceExit_lookup cfg m.newDevPending ctx rc id
    | getDesc => exact popEmit_lookup cfg m.descPending ctx enumStepGetDesc rc id
    | setAddr => exact popEmit_lookup cfg m.addrPending ctx enumStepSetAddr rc id
    | setConfig => exact popEmit_lookup cfg m.configPending ctx enumStepSetConfig rc id
  by_cases hfn : fn' = fn
  · rw [hfn, hself fn]
    simp only [true_and]
  · have hother : pendingMap (onExit cfg m ctx rc fn).1 fn' = pendingMap m fn' := by
      cases fn <;> cases fn' <;> first | rfl | exact absurd rfl hfn
    rw [hother, if_neg fun h => hfn h.1]

theorem popEmit_record (cfg : FilterConfig) (map : PendingMap) (ctx : ThreadCtx) (rc : UInt64)
    (fn : ProbedFn) (hfn : fn ≠ .newDevice) :
    (popEmit cfg map ctx (exitStep fn) rc).2.map Record.enum =
      (map.lookup ctx.id).bind fun udev => exitRecord cfg fn ctx udev rc := by
  have hstatus : (if exitStep fn = enumStepGetDesc then usbtraceKretPtrOrInt rc
      else usbtraceKretInt rc) = exitStatus fn rc := by
    cases fn <;> rfl
  unfold popEmit exitRecord
  rw [hstatus]
  cases map.lookup ctx.id with
  | none => rfl
  | some udev =>
    rw [Option.bind_some]
    dsimp only
    rw [if_neg hfn]
    split <;> rfl

theorem onNewDeviceExit_record (cfg : FilterConfig) (map : PendingMap) (ctx : ThreadCtx)
    (rc : UInt64) :
    (onNewDeviceExit cfg map ctx rc).2.map Record.lifecycle =
      (map.lookup ctx.id).bind fun udev => exitRecord cfg .newDevice ctx udev rc := by
  unfold onNewDeviceExit exitRecord
  cases map.lookup ctx.id with
  | none => rfl
  | some udev =>
    have hstatus : exitStatus .newDevice rc = usbtraceKretInt rc := rfl
    rw [Option.bind_some, hstatus]
    dsimp only
    by_cases h0 : udev = 0
    · rw [if_pos (Or.inr h0), if_pos h0]
      rfl
    · by_cases hret : usbtraceKretInt rc < 0
      · rw [if_pos (Or.inl hret), if_neg h0, if_pos rfl, if_pos hret]
        rfl
      · rw [if_neg (by tauto), if_neg h0, if_pos rfl, if_neg hret]

/-- **An exit** reports the device in the map. -/
theorem onExit_record (cfg : FilterConfig) (m : PendingMaps) (fn : ProbedFn) (ctx : ThreadCtx)
    (rc : UInt64) :
    (onExit cfg m ctx rc fn).2 =
      (((pendingMap m fn).lookup ctx.id).bind
        fun udev => exitRecord cfg fn ctx udev rc).toList := by
  cases fn with
  | getDesc =>
    exact congrArg Option.toList (popEmit_record cfg m.descPending ctx rc .getDesc (by decide))
  | setAddr =>
    exact congrArg Option.toList (popEmit_record cfg m.addrPending ctx rc .setAddr (by decide))
  | setConfig =>
    exact congrArg Option.toList (popEmit_record cfg m.configPending ctx rc .setConfig (by decide))
  | newDevice => exact congrArg Option.toList (onNewDeviceExit_record cfg m.newDevPending ctx rc)

/-! ## The session's exits -/

/-- An exit as a session has it: with the device of its call. -/
def exitEvent (fn : ProbedFn) (ctx : ThreadCtx) (udev rc : UInt64) : KernelEvent :=
  { now := ctx.now
    task := ctx.task
    dev := (ctx.device udev).dev
    call := if fn = .newDevice then .newDevice (exitStatus fn rc)
      else .enumExit (exitStep fn) (ctx.device udev).state (exitStatus fn rc) }

/-- **A session's exit** is that of a call with the device. -/
theorem exitRecord_probeStep (cfg : FilterConfig) (m : ProbeMaps) (fn : ProbedFn)
    (ctx : ThreadCtx) {udev : UInt64} (hudev : udev ≠ 0) (rc : UInt64) :
    (probeStep cfg m (exitEvent fn ctx udev rc)).2 = (exitRecord cfg fn ctx udev rc).toList := by
  unfold exitRecord exitEvent probeStep
  rw [if_neg hudev]
  by_cases hfn : fn = .newDevice
  · rw [if_pos hfn, if_pos hfn]
    dsimp only
    split <;> rfl
  · rw [if_neg hfn, if_neg hfn]

/-! ## Runs -/

/-- The device of an entry of the thread into the function. -/
def entryDevice (fn : ProbedFn) (id : UInt64) : PendingOp → Option UInt64
  | .enter fn' ctx udev => if fn' = fn ∧ ctx.id = id then some udev else none
  | _ => none

/-- The device of the thread's latest entry into the function. -/
def latestEntry (fn : ProbedFn) (id : UInt64) (ops : List PendingOp) : Option UInt64 :=
  lastOf (entryDevice fn id) ops

/-- The threads inside the function after an operation. -/
def insideAfter (fn : ProbedFn) (s : Finset UInt64) : PendingOp → Finset UInt64
  | .enter fn' ctx _ => if fn' = fn then insert ctx.id s else s
  | .exit fn' ctx _ => if fn' = fn then s.erase ctx.id else s
  | .missedExit fn' id => if fn' = fn then s.erase id else s

/-- The threads inside the function after a run. -/
def inside (fn : ProbedFn) (ops : List PendingOp) : Finset UInt64 :=
  ops.foldl (insideAfter fn) ∅

theorem inside_concat (fn : ProbedFn) (ops : List PendingOp) (op : PendingOp) :
    inside fn (ops ++ [op]) = insideAfter fn (inside fn ops) op := by
  rw [inside, inside, List.foldl_append]
  rfl

/-- The maps after a run. -/
def pendingAfter (cfg : FilterConfig) (ops : List PendingOp) : PendingMaps :=
  finalState (pendingStep cfg) PendingMaps.empty ops

/-- The functions are called with a device. -/
def WithDevice : PendingOp → Prop
  | .enter _ _ udev => udev ≠ 0
  | _ => True

/-- The maps hold the devices of the latest entries. -/
def HoldsLatest (cfg : FilterConfig) (ops : List PendingOp) : Prop :=
  ∀ fn id udev, (pendingMap (pendingAfter cfg ops) fn).lookup id = some udev →
    latestEntry fn id ops = some udev

theorem holdsLatest_concat {cfg : FilterConfig} {ops : List PendingOp} {op : PendingOp}
    (h : HoldsLatest cfg ops) (hop : WithDevice op) : HoldsLatest cfg (ops ++ [op]) := by
  intro fn id udev hlookup
  rw [latestEntry, lastOf_concat]
  rw [pendingAfter, finalState_concat] at hlookup
  change (pendingMap (pendingStep cfg (pendingAfter cfg ops) op).1 fn).lookup id = some udev
    at hlookup
  cases op with
  | missedExit fn' id' => exact h fn id udev hlookup
  | exit fn' ctx rc =>
    rw [pendingStep, pendingMap_exit] at hlookup
    split at hlookup
    · cases hlookup
    · exact h fn id udev hlookup
  | enter fn' ctx udev' =>
    rw [pendingStep, pendingMap_enter] at hlookup
    by_cases hfn : fn = fn'
    · rw [if_pos hfn, stash, if_neg hop] at hlookup
      by_cases hid : id = ctx.id
      · have hentry : entryDevice fn id (.enter fn' ctx udev') = some udev' :=
          if_pos ⟨hfn.symm, hid.symm⟩
        rw [hid] at hlookup
        rw [hentry, BoundedMap.eq_of_lookup_update hlookup]
        rfl
      · have hentry : entryDevice fn id (.enter fn' ctx udev') = none :=
          if_neg fun h => hid h.2.symm
        rw [BoundedMap.lookup_update_of_ne _ hid, ← hfn] at hlookup
        rw [hentry]
        exact h fn id udev hlookup
    · have hentry : entryDevice fn id (.enter fn' ctx udev') = none :=
        if_neg fun h => hfn h.1.symm
      rw [if_neg hfn] at hlookup
      rw [hentry]
      exact h fn id udev hlookup

/-- **In every run** the maps hold the devices of the latest entries. -/
theorem run_holdsLatest {cfg : FilterConfig} {ops : List PendingOp}
    (h : ∀ op ∈ ops, WithDevice op) : HoldsLatest cfg ops := by
  induction ops using List.reverseRecOn with
  | nil =>
    intro fn id udev hlookup
    cases fn <;> exact (Option.some_ne_none udev hlookup.symm).elim
  | append_singleton ops op ih =>
    have hpre : HoldsLatest cfg ops := ih fun op' hop' => h op' (List.mem_append_left _ hop')
    exact holdsLatest_concat hpre (h op (by simp))

/-- The exit probe is missed at this operation. -/
def Missed : PendingOp → Prop
  | .missedExit .. => True
  | _ => False

/-- The maps hold threads inside their functions. -/
def OnlyInside (cfg : FilterConfig) (ops : List PendingOp) : Prop :=
  ∀ fn id udev, (pendingMap (pendingAfter cfg ops) fn).lookup id = some udev → id ∈ inside fn ops

theorem onlyInside_concat {cfg : FilterConfig} {ops : List PendingOp} {op : PendingOp}
    (h : OnlyInside cfg ops) (hop : ¬Missed op) : OnlyInside cfg (ops ++ [op]) := by
  intro fn id udev hlookup
  rw [inside_concat]
  rw [pendingAfter, finalState_concat] at hlookup
  change (pendingMap (pendingStep cfg (pendingAfter cfg ops) op).1 fn).lookup id = some udev
    at hlookup
  cases op with
  | missedExit fn' id' => exact absurd trivial hop
  | exit fn' ctx rc =>
    rw [pendingStep, pendingMap_exit] at hlookup
    split at hlookup
    · cases hlookup
    · next hother =>
      have hmem := h fn id udev hlookup
      rw [insideAfter]
      split
      · next hfn => exact Finset.mem_erase.mpr ⟨fun hid => hother ⟨hfn.symm, hid⟩, hmem⟩
      · exact hmem
  | enter fn' ctx udev' =>
    rw [pendingStep, pendingMap_enter] at hlookup
    rw [insideAfter]
    by_cases hfn : fn' = fn
    · rw [if_pos hfn]
      rw [if_pos hfn.symm, stash, hfn] at hlookup
      split at hlookup
      · exact Finset.mem_insert_of_mem (h fn id udev hlookup)
      · rcases BoundedMap.lookup_update_cases hlookup with ⟨hid, -⟩ | hold
        · exact hid ▸ Finset.mem_insert_self _ _
        · exact Finset.mem_insert_of_mem (h fn id udev hold)
    · rw [if_neg hfn]
      rw [if_neg (Ne.symm hfn)] at hlookup
      exact h fn id udev hlookup

/-- **In every run without missed exits** the maps hold threads inside their functions. -/
theorem run_onlyInside {cfg : FilterConfig} {ops : List PendingOp} (h : ∀ op ∈ ops, ¬Missed op) :
    OnlyInside cfg ops := by
  induction ops using List.reverseRecOn with
  | nil =>
    intro fn id udev hlookup
    cases fn <;> exact (Option.some_ne_none udev hlookup.symm).elim
  | append_singleton ops op ih =>
    have hpre : OnlyInside cfg ops := ih fun op' hop' => h op' (List.mem_append_left _ hop')
    exact onlyInside_concat hpre (h op (by simp))

/-- **Entries and exits are paired.**  Over every interleaving of threads, an exit reports at
most one record, that of a call with the device of the thread's latest entry into the
function and the exit's own status; and without missed exits the maps hold threads inside
their functions.
SOURCE: enum.bpf.c:85-170, lifecycle.bpf.c:72-100 -/
theorem exit_pairs_entry (cfg : FilterConfig) (ops : List PendingOp)
    (hdev : ∀ op ∈ ops, WithDevice op) :
    (∀ pre fn ctx rc post, ops = pre ++ .exit fn ctx rc :: post →
      let out := (pendingStep cfg (pendingAfter cfg pre) (.exit fn ctx rc)).2
      out.length ≤ 1 ∧ ∀ r ∈ out, ∃ udev,
        latestEntry fn ctx.id pre = some udev ∧ exitRecord cfg fn ctx udev rc = some r) ∧
      ((∀ op ∈ ops, ¬Missed op) → ∀ pre, pre <+: ops → OnlyInside cfg pre) := by
  refine ⟨?_, fun hmiss pre hpre => run_onlyInside fun op hop => hmiss op (hpre.subset hop)⟩
  intro pre fn ctx rc post heq out
  have hlatest : HoldsLatest cfg pre :=
    run_holdsLatest fun op hop => hdev op (by simp [heq, hop])
  have hout : out = (((pendingMap (pendingAfter cfg pre) fn).lookup ctx.id).bind
      fun udev => exitRecord cfg fn ctx udev rc).toList := onExit_record cfg _ fn ctx rc
  rw [hout]
  cases hlookup : (pendingMap (pendingAfter cfg pre) fn).lookup ctx.id with
  | none => exact ⟨Nat.zero_le 1, fun r hr => absurd hr List.not_mem_nil⟩
  | some udev =>
    rw [Option.bind_some]
    refine ⟨Option.length_toList_le, fun r hr => ⟨udev, hlatest fn ctx.id udev hlookup, ?_⟩⟩
    exact Option.mem_toList.mp hr

instance : (op : PendingOp) → Decidable (WithDevice op)
  | .enter _ _ udev => inferInstanceAs (Decidable (udev ≠ 0))
  | .exit .. => inferInstanceAs (Decidable True)
  | .missedExit .. => inferInstanceAs (Decidable True)

/-- The thread 7 in `usb_get_device_descriptor`, with two devices in memory. -/
def sampleThread : ThreadCtx :=
  { id := 7, devices := [(0x10, { dev := { devnum := 1 } }), (0x20, { dev := { devnum := 2 } })] }

/-- It leaves a call with the first device while the exit probe is missed, and enters one with
the second. -/
def sampleCalls : List PendingOp :=
  [.enter .getDesc sampleThread 0x10, .missedExit .getDesc 7, .enter .getDesc sampleThread 0x20]

theorem exit_pairs_entry_sample :
    let out := (pendingStep {} (pendingAfter {} sampleCalls) (.exit .getDesc sampleThread 18)).2
    out.length ≤ 1 ∧ ∀ r ∈ out, ∃ udev,
      latestEntry .getDesc sampleThread.id sampleCalls = some udev ∧
        exitRecord {} .getDesc sampleThread udev 18 = some r :=
  (exit_pairs_entry {} (sampleCalls ++ [.exit .getDesc sampleThread 18]) (by decide)).1
    sampleCalls .getDesc sampleThread 18 [] rfl

example : latestEntry .getDesc 7 sampleCalls = some 0x20 := by decide

end UsbTrace.Analysis

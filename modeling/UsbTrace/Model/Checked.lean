import UsbTrace.Model.Engine
import UsbTrace.Library.CheckedArray

/-!
# The engine with its array accesses

The functions of engine.c once more, each array access with the index the source forms and
the size the array is declared with; an index out of bounds leaves the function without a
result.  A loop over array elements is a loop over indices, as in the source, and the slot
loop of `diag_engine_tick` rewrites the table slot by slot.
-/

set_option autoImplicit false

namespace UsbTrace.Model

open UsbTrace.Library

/-- The length of `state_ts` (engine.c:47). -/
def stateTsLen : ℕ := 9

/-! ## Predicates on an event -/

/-- `match_fields` (engine.c:167-178). -/
def matchFieldsChecked (c : DiagCond) (e : DiagEvent) : Option Bool :=
  (List.range c.matchList.length).allM fun i =>
    (entryAt diagMaxMatch c.matchList i).map fun m => matchOne m (evFieldVal e m.field)

/-- `status_ok` (engine.c:180-191). -/
def statusOkChecked (c : DiagCond) (e : DiagEvent) : Option Bool :=
  if c.statusIn.length = 0 then some true
  else (List.range c.statusIn.length).anyM fun i =>
    (entryAt diagMaxStatus c.statusIn i).map fun s => decide (e.status.toInt = s)

/-- `cond_event_pred` (engine.c:194-203). -/
def condEventPredChecked (c : DiagCond) (e : DiagEvent) : Option Bool :=
  if !kindOk c e then some false
  else do
    if !(← matchFieldsChecked c e) then return false
    if !(← statusOkChecked c e) then return false
    return true

/-- `trigger_match` (engine.c:206-211). -/
def triggerMatchChecked (c : DiagCond) (e : DiagEvent) : Option Bool :=
  if !kindOk c e then some false else matchFieldsChecked c e

/-! ## The ring -/

/-- `win_push` (engine.c:250-256). -/
def winPushChecked (w : Devwin) (ev : DiagEvent) : Option Devwin := do
  let buf ← writeAt winMaxEvents w.ev w.head ev
  return { w with
    ev := buf
    head := (w.head + 1) % winMaxEvents
    count := if w.count < winMaxEvents then w.count + 1 else w.count }

/-- `win_at` (engine.c:259-264). -/
def winAtChecked (w : Devwin) (idx : ℕ) : Option DiagEvent :=
  readAt winMaxEvents w.ev (((w.head : ℤ) - 1 - idx + 2 * winMaxEvents).tmod winMaxEvents)

/-! ## Evaluation -/

/-- The body of the loop of `eval_when` (engine.c:496-522). -/
def evalStepChecked (c : DiagCond) (refNs : UInt64) (a : EvalAcc) (x : DiagEvent) :
    Option EvalAcc :=
  if !inLookback c refNs x then some a
  else do
    if !(← condEventPredChecked c x) then return a
    let a := { a with
      oldest := if x.tsNs < a.oldest then x.tsNs else a.oldest
      newest := if x.tsNs > a.newest then x.tsNs else a.newest
      cnt := a.cnt + 1 }
    let take : Bool := clusterNs c = 0 || a.nclus = 0 || a.prevTs - x.tsNs > clusterNs c
    let a := if clusterNs c = 0 then a
      else { a with prevTs := x.tsNs, nclus := if take then a.nclus + 1 else a.nclus }
    if take && a.ev.length < maxEvidence then
      return { a with ev := ← appendAt maxEvidence a.ev x }
    else return a

/-- `eval_when` (engine.c:485-533). -/
def evalWhenChecked (w : Devwin) (c : DiagCond) (refNs : UInt64) (ev : List DiagEvent) :
    Option (ℤ × List DiagEvent) := do
  let a ← (List.range w.count).foldlM
    (fun a i => (winAtChecked w i).bind (evalStepChecked c refNs a)) { ev := ev }
  let cnt := if clusterNs c ≠ 0 then a.nclus else a.cnt
  match c.minSpanMs with
  | some ms =>
    if cnt < 2 || a.newest - a.oldest < msToNs ms then return (0, a.ev.take ev.length)
    else return (cnt, a.ev)
  | none => return (cnt, a.ev)

/-- `cooldown_ok` (engine.c:535-542). -/
def cooldownOkChecked (w : Devwin) (ridx : ℕ) (now : UInt64) : Option (Option Devwin) := do
  let last ← readAt diagMaxRules w.lastFireNs ridx
  if last ≠ 0 ∧ now - last < cooldownNs then return none
  return some { w with lastFireNs := ← writeAt diagMaxRules w.lastFireNs ridx now }

/-- The loop over the when conditions of a rule, from condition `j` with `todo` left
(engine.c:599-612). -/
def evalWhensChecked (w : Devwin) (refNs : UInt64) (conds : List DiagCond) :
    ℕ → ℕ → Verdict → Option (Option Verdict)
  | 0, _, v => some (some v)
  | todo + 1, j, v => do
    let c ← entryAt diagMaxWhen conds j
    let need := c.countGte.getD 1
    let (n, ev) ← evalWhenChecked w c refNs v.evidence
    if n < need then return none
    evalWhensChecked w refNs conds todo (j + 1)
      { count := if n > v.count then n else v.count
        windowMs := match c.withinMs with
          | some ms => if ms > v.windowMs then ms else v.windowMs
          | none => v.windowMs
        evidence := ev }

/-- An event rule against the window (engine.c:594-612). -/
def evalRuleChecked (w : Devwin) (r : DiagRule) (evt : DiagEvent) : Option (Option Verdict) :=
  if r.type ≠ .event then some none
  else do
    if !(← triggerMatchChecked r.trigger evt) then return none
    evalWhensChecked w evt.tsNs r.whenList r.whenList.length 0 {}

/-- One turn of the rule loop of `diag_engine_ingest` (engine.c:588-616). -/
def ruleStepChecked (evt : DiagEvent) (clock : ℕ → UInt64) (s : Devwin × List Finding)
    (p : DiagRule × ℕ) : Option (Devwin × List Finding) := do
  match ← evalRuleChecked s.1 p.1 evt with
  | none => return s
  | some v =>
    match ← cooldownOkChecked s.1 p.2 (clock p.2) with
    | none => return s
    | some w =>
      return (w, s.2 ++ [{ ridx := p.2, key := w.key, vid := w.vid, pid := w.pid,
                           refNs := evt.tsNs, count := v.count, windowMs := v.windowMs,
                           comm := some evt.comm, evidence := v.evidence }])

/-! ## Ingest -/

/-- A state the device is seen in, with the time of the first sighting (engine.c:579-581). -/
def stampStateChecked (w : Devwin) (evt : DiagEvent) : Option Devwin := do
  let ts ← readAt stateTsLen w.stateTs evt.newState.toNat
  let stateTs ←
    if ts = 0 then writeAt stateTsLen w.stateTs evt.newState.toNat evt.tsNs else some w.stateTs
  return { w with
    seenStates := w.seenStates ||| (1#16 <<< evt.newState.toNat)
    stateTs := stateTs }

/-- The enumeration state kept for deadline rules (engine.c:575-586). -/
def noteStateChecked (w : Devwin) (evt : DiagEvent) : Option Devwin :=
  if evt.kind = evtEnum ∧ evt.step = enumStepState then
    let w := if evt.newState = 0 then devResetEnum w else w
    if evt.newState < 9 then stampStateChecked w evt else some w
  else if evt.kind = evtLifecycle ∧ evt.action = lifecycleDisconnect then some (devResetEnum w)
  else some w

/-- `diag_engine_ingest` on the device's window (engine.c:568-616). -/
def ingestWinChecked (rules : List DiagRule) (w : Devwin) (evt : DiagEvent)
    (clock : ℕ → UInt64) : Option (Devwin × List Finding) := do
  let w := { w with
    lastSeenNs := evt.tsNs
    vid := if evt.vid ≠ 0 then evt.vid else w.vid
    pid := if evt.pid ≠ 0 then evt.pid else w.pid }
  let w ← winPushChecked w evt
  let w ← noteStateChecked w evt
  (List.range rules.length).foldlM
    (fun s ri => (entryAt diagMaxRules rules ri).bind fun r => ruleStepChecked evt clock s (r, ri))
    (w, [])

/-- `emit` (engine.c:544-551), with the evidence loop of `print_finding` (engine.c:405). -/
def emitChecked (e : DiagEngine) (f : Finding) : Option DiagEngine := do
  let _ ← entryAt diagMaxRules e.rules f.ridx
  let _ ← (List.range f.evidence.length).allM fun i =>
    (entryAt maxEvidence f.evidence i).map fun _ => true
  let n ← readAt diagMaxRules e.fireCount f.ridx
  let fireCount ← writeAt diagMaxRules e.fireCount f.ridx (n + 1)
  return { e with fireCount := fireCount, totalFired := e.totalFired + 1 }

/-- `diag_engine_ingest` (engine.c:562-617); without a slot the window pointer is null. -/
def diagEngineIngestChecked (e : DiagEngine) (evt : DiagEvent) (clock : ℕ → UInt64) :
    Option (DiagEngine × List Finding) :=
  match winGet e.devs (diagEventKey evt) true with
  | (none, _) => none
  | (some i, devs) => do
    let (w, fs) ← ingestWinChecked e.rules (devs i) evt clock
    let e ← fs.foldlM emitChecked { e with devs := Function.update devs i w }
    return (e, fs)

/-! ## Tick -/

/-- Whether a deadline rule is due for a window at a tick (engine.c:634-650). -/
def deadlineDueChecked (w : Devwin) (r : DiagRule) (nowNs : UInt64) : Option Bool :=
  if r.type ≠ .deadline then some false
  else if r.dlReachedState < 0 ∨ r.dlReachedState > 8 then some false
  else if w.seenStates &&& (1#16 <<< r.dlReachedState.toNat) = 0 then some false
  else if r.dlWithoutState ≥ 0 ∧ r.dlWithoutState ≤ 8 ∧
      w.seenStates &&& (1#16 <<< r.dlWithoutState.toNat) ≠ 0 then some false
  else do
    let ts ← readAt stateTsLen w.stateTs r.dlReachedState
    if nowNs - ts < msToNs r.dlTimeoutMs then return false
    return true

/-- One turn of the deadline-rule loop of `diag_engine_tick` (engine.c:630-655). -/
def deadlineStepChecked (nowNs : UInt64) (s : Devwin × List Finding) (p : DiagRule × ℕ) :
    Option (Devwin × List Finding) := do
  if !(← deadlineDueChecked s.1 p.1 nowNs) then return s
  if ← readAt diagMaxRules s.1.dlFired p.2 then return s
  let dlFired ← writeAt diagMaxRules s.1.dlFired p.2 true
  return ({ s.1 with dlFired := dlFired },
    s.2 ++ [{ ridx := p.2, key := s.1.key, vid := s.1.vid, pid := s.1.pid, refNs := nowNs,
              count := 0, windowMs := p.1.dlTimeoutMs, comm := none, evidence := [] }])

/-- The turn of the slot loop of `diag_engine_tick` on one slot (engine.c:626-659). -/
def tickWinChecked (rules : List DiagRule) (nowNs : UInt64) (w : Devwin) :
    Option (Devwin × List Finding) :=
  if !w.used then some (w, [])
  else do
    let (w, fs) ← (List.range rules.length).foldlM
      (fun s ri => (entryAt diagMaxRules rules ri).bind fun r => deadlineStepChecked nowNs s (r, ri))
      (w, [])
    return (if nowNs - w.lastSeenNs > retentionNs then { w with used := false } else w, fs)

/-- `diag_engine_tick` (engine.c:619-661), slot by slot. -/
def diagEngineTickChecked (e : DiagEngine) (nowNs : UInt64) :
    Option (DiagEngine × List Finding) := do
  let (devs, fs) ← (List.finRange winMaxDevs).foldlM
    (fun (s : DevTable × List Finding) i =>
      (tickWinChecked e.rules nowNs (s.1 i)).map fun r =>
        (Function.update s.1 i r.1, s.2 ++ r.2))
    (e.devs, [])
  let e ← fs.foldlM emitChecked { e with devs := devs }
  return (e, fs)

/-! ## Runs -/

/-- One operation on the engine. -/
def engineStepChecked (e : DiagEngine) : EngineOp → Option (DiagEngine × List Finding)
  | .ingest evt clock => diagEngineIngestChecked e evt clock
  | .tick nowNs => diagEngineTickChecked e nowNs

/-- A run from the engine `e`: the engine at its end, and every finding printed. -/
def engineRunChecked (e : DiagEngine) : List EngineOp → Option (DiagEngine × List Finding)
  | [] => some (e, [])
  | op :: ops => do
    let (e, fs) ← engineStepChecked e op
    let (e, gs) ← engineRunChecked e ops
    return (e, fs ++ gs)

end UsbTrace.Model

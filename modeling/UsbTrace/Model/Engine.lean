import UsbTrace.Model.Rule
import UsbTrace.Library.CLong
import UsbTrace.Library.Run
import UsbTrace.Library.SlotTable

/-!
# The diag rule engine

The model of engine.c.  A device window (`Devwin`) is a bounded ring of recent events
with the enumeration state, the event-rule cooldown stamps and the deadline latches;
the engine is a fixed table of 128 windows and the finding counters.

`diagEngineIngest` and `diagEngineTick` return the findings they print, in order.  The
clock `diag_now_ns` is read inside the rule loop, once for every rule that holds, so an
ingest is given the reading for each rule index.
-/

set_option autoImplicit false

namespace UsbTrace.Model

open UsbTrace.Library

def winMaxDevs : ℕ := 128
def winMaxEvents : ℕ := 1024
def retentionNs : UInt64 := 10 * 1000000000
def cooldownNs : UInt64 := 2 * 1000000000
def maxEvidence : ℕ := 6

/-- `struct devwin` (engine.c:35-51).  The defaults are those of `memset`; memory
outside an array is never read (`UsbTrace.Analysis.IndexBounds`). -/
structure Devwin where
  used : Bool := false
  key : DiagDevkey := {}
  vid : UInt16 := 0
  pid : UInt16 := 0
  lastSeenNs : UInt64 := 0
  ev : ℕ → DiagEvent := fun _ => {}
  head : ℕ := 0
  count : ℕ := 0
  seenStates : BitVec 16 := 0
  stateTs : ℕ → UInt64 := fun _ => 0
  lastFireNs : ℕ → UInt64 := fun _ => 0
  dlFired : ℕ → Bool := fun _ => false

/-- The table of windows. -/
abbrev DevTable := Fin winMaxDevs → Devwin

/-- `struct diag_engine` (engine.c:53-62). -/
structure DiagEngine where
  rules : List DiagRule
  devs : DevTable
  fireCount : ℕ → ULong
  totalFired : ULong

/-- What one call of `print_finding` is given, next to the rule itself. -/
structure Finding where
  ridx : ℕ
  key : DiagDevkey
  vid : UInt16
  pid : UInt16
  refNs : UInt64
  count : ℤ
  windowMs : ℤ
  comm : Option (List UInt8)
  evidence : List DiagEvent
deriving DecidableEq, Repr

/-- `(uint64_t)ms * 1000000ULL`. -/
def msToNs (ms : ℤ) : UInt64 := UInt64.ofInt ms * 1000000

/-! ## Device windows -/

/-- The window `win_get` leaves in a slot it takes: zeroed, in use, under the key. -/
def freshWin (k : DiagDevkey) : Devwin := { used := true, key := k }

/-- The first loop of `win_get`: the used slot with the key (engine.c:226-229). -/
def winFind (devs : DevTable) (k : DiagDevkey) : Option (Fin winMaxDevs) :=
  SlotTable.find Devwin.used Devwin.key devs k

/-- The second loop of `win_get`: the first free slot, else the least recently seen one
(engine.c:233-242). -/
def winPlace (devs : DevTable) : Option (Fin winMaxDevs) :=
  SlotTable.place Devwin.used (fun w => w.lastSeenNs.toNat) devs

/-- `win_get` (engine.c:220-248): the slot of the key and the table, in which a slot
newly taken for the key has been cleared. -/
def winGet (devs : DevTable) (k : DiagDevkey) (create : Bool) :
    Option (Fin winMaxDevs) × DevTable :=
  match winFind devs k with
  | some i => (some i, devs)
  | none =>
    if create = false then (none, devs)
    else match winPlace devs with
      | none => (none, devs)
      | some i => (some i, Function.update devs i (freshWin k))

/-- `win_push` (engine.c:250-256). -/
def winPush (w : Devwin) (ev : DiagEvent) : Devwin :=
  { w with
    ev := Function.update w.ev w.head ev
    head := (w.head + 1) % winMaxEvents
    count := if w.count < winMaxEvents then w.count + 1 else w.count }

/-- `win_at` (engine.c:259-264): window events newest-first, with C's `int` arithmetic. -/
def winAt (w : Devwin) (idx : ℕ) : DiagEvent :=
  w.ev (((w.head : ℤ) - 1 - idx + 2 * winMaxEvents).tmod winMaxEvents).toNat

/-- The events the lookback loop visits, newest first. -/
def winEvents (w : Devwin) : List DiagEvent := (List.range w.count).map (winAt w)

/-! ## Evaluation -/

/-- The locals of `eval_when`; `ev` is the evidence list it appends to. -/
@[ext] structure EvalAcc where
  cnt : ℤ := 0
  nclus : ℤ := 0
  oldest : UInt64 := UInt64.ofNat (2 ^ 64 - 1)
  newest : UInt64 := 0
  prevTs : UInt64 := 0
  ev : List DiagEvent

/-- The cluster gap of a condition in nanoseconds, 0 when it has none (engine.c:491-494). -/
def clusterNs (c : DiagCond) : UInt64 :=
  match c.clusterMs with
  | some ms => if ms > 0 then msToNs ms else 0
  | none => 0

/-- The two timestamp tests of the lookback: not newer than the reference, and within
`within_ms` of it (engine.c:500-504). -/
def inLookback (c : DiagCond) (refNs : UInt64) (x : DiagEvent) : Bool :=
  if x.tsNs > refNs then false
  else match c.withinMs with
    | some ms => !(decide (refNs - x.tsNs > msToNs ms))
    | none => true

/-- The body of the loop of `eval_when` (engine.c:496-522). -/
def evalStep (c : DiagCond) (refNs : UInt64) (a : EvalAcc) (x : DiagEvent) : EvalAcc :=
  if !inLookback c refNs x then a
  else if !condEventPred c x then a
  else
    let a := { a with
      oldest := if x.tsNs < a.oldest then x.tsNs else a.oldest
      newest := if x.tsNs > a.newest then x.tsNs else a.newest
      cnt := a.cnt + 1 }
    let take : Bool := clusterNs c = 0 || a.nclus = 0 || a.prevTs - x.tsNs > clusterNs c
    let a := if clusterNs c = 0 then a
      else { a with prevTs := x.tsNs, nclus := if take then a.nclus + 1 else a.nclus }
    if take && a.ev.length < maxEvidence then { a with ev := a.ev ++ [x] } else a

/-- `eval_when` (engine.c:485-533): the match count, and the evidence collected so far
with what this condition adds. -/
def evalWhen (w : Devwin) (c : DiagCond) (refNs : UInt64) (ev : List DiagEvent) :
    ℤ × List DiagEvent :=
  let a := (winEvents w).foldl (evalStep c refNs) { ev := ev }
  let cnt := if clusterNs c ≠ 0 then a.nclus else a.cnt
  match c.minSpanMs with
  | some ms =>
    if cnt < 2 || a.newest - a.oldest < msToNs ms then (0, a.ev.take ev.length)
    else (cnt, a.ev)
  | none => (cnt, a.ev)

/-- `cooldown_ok` (engine.c:535-542); the stamp is written when the check passes. -/
def cooldownOk (w : Devwin) (ridx : ℕ) (now : UInt64) : Option Devwin :=
  if w.lastFireNs ridx ≠ 0 ∧ now - w.lastFireNs ridx < cooldownNs then none
  else some { w with lastFireNs := Function.update w.lastFireNs ridx now }

/-- `dev_reset_enum` (engine.c:555-560). -/
def devResetEnum (w : Devwin) : Devwin :=
  { w with seenStates := 0, stateTs := fun _ => 0, dlFired := fun _ => false }

/-- What a rule that holds reports: `count`, `window_ms` and the evidence. -/
structure Verdict where
  count : ℤ := 0
  windowMs : ℤ := 0
  evidence : List DiagEvent := []
deriving DecidableEq, Repr

/-- The loop over the when conditions of a rule (engine.c:599-612). -/
def evalWhens (w : Devwin) (refNs : UInt64) : List DiagCond → Verdict → Option Verdict
  | [], v => some v
  | c :: cs, v =>
    let need := c.countGte.getD 1
    let (n, ev) := evalWhen w c refNs v.evidence
    if n < need then none
    else evalWhens w refNs cs
      { count := if n > v.count then n else v.count
        windowMs := match c.withinMs with
          | some ms => if ms > v.windowMs then ms else v.windowMs
          | none => v.windowMs
        evidence := ev }

/-- An event rule against the window its trigger has just been pushed to, up to the
cooldown (engine.c:594-612). -/
def evalRule (w : Devwin) (r : DiagRule) (evt : DiagEvent) : Option Verdict :=
  if r.type ≠ .event then none
  else if !triggerMatch r.trigger evt then none
  else evalWhens w evt.tsNs r.whenList {}

/-- One turn of the rule loop of `diag_engine_ingest` (engine.c:588-616). -/
def ruleStep (evt : DiagEvent) (clock : ℕ → UInt64) (s : Devwin × List Finding)
    (p : DiagRule × ℕ) : Devwin × List Finding :=
  match evalRule s.1 p.1 evt with
  | none => s
  | some v =>
    match cooldownOk s.1 p.2 (clock p.2) with
    | none => s
    | some w =>
      (w, s.2 ++ [{ ridx := p.2, key := w.key, vid := w.vid, pid := w.pid,
                    refNs := evt.tsNs, count := v.count, windowMs := v.windowMs,
                    comm := some evt.comm, evidence := v.evidence }])

/-- The enumeration state kept for deadline rules (engine.c:575-586). -/
def noteState (w : Devwin) (evt : DiagEvent) : Devwin :=
  if evt.kind = evtEnum ∧ evt.step = enumStepState then
    let w := if evt.newState = 0 then devResetEnum w else w
    if evt.newState < 9 then
      { w with
        seenStates := w.seenStates ||| (1#16 <<< evt.newState.toNat)
        stateTs := if w.stateTs evt.newState.toNat = 0 then
            Function.update w.stateTs evt.newState.toNat evt.tsNs
          else w.stateTs }
    else w
  else if evt.kind = evtLifecycle ∧ evt.action = lifecycleDisconnect then devResetEnum w
  else w

/-- What an ingest notes in the device's window before it looks at rules
(engine.c:568-586). -/
def noteEvent (w : Devwin) (evt : DiagEvent) : Devwin :=
  let w := { w with
    lastSeenNs := evt.tsNs
    vid := if evt.vid ≠ 0 then evt.vid else w.vid
    pid := if evt.pid ≠ 0 then evt.pid else w.pid }
  noteState (winPush w evt) evt

/-- `diag_engine_ingest` on the device's window (engine.c:568-616). -/
def ingestWin (rules : List DiagRule) (w : Devwin) (evt : DiagEvent) (clock : ℕ → UInt64) :
    Devwin × List Finding :=
  rules.zipIdx.foldl (ruleStep evt clock) (noteEvent w evt, [])

/-- `emit`: the counters a finding moves (engine.c:544-551). -/
def emit (e : DiagEngine) (f : Finding) : DiagEngine :=
  { e with
    fireCount := Function.update e.fireCount f.ridx (e.fireCount f.ridx + 1)
    totalFired := e.totalFired + 1 }

/-- `diag_engine_ingest` (engine.c:562-617). -/
def diagEngineIngest (e : DiagEngine) (evt : DiagEvent) (clock : ℕ → UInt64) :
    DiagEngine × List Finding :=
  match winGet e.devs (diagEventKey evt) true with
  | (none, _) => (e, [])  -- never taken: with `create` set there is always a slot
  | (some i, devs) =>
    let (w, fs) := ingestWin e.rules (devs i) evt clock
    (fs.foldl emit { e with devs := Function.update devs i w }, fs)

/-- Whether a deadline rule is due for a window at a tick, its latch aside
(engine.c:634-650). -/
def deadlineDue (w : Devwin) (r : DiagRule) (nowNs : UInt64) : Bool :=
  if r.type ≠ .deadline then false
  else if r.dlReachedState < 0 ∨ r.dlReachedState > 8 then false
  else if w.seenStates &&& (1#16 <<< r.dlReachedState.toNat) = 0 then false
  else if r.dlWithoutState ≥ 0 ∧ r.dlWithoutState ≤ 8 ∧
      w.seenStates &&& (1#16 <<< r.dlWithoutState.toNat) ≠ 0 then false
  else if nowNs - w.stateTs r.dlReachedState.toNat < msToNs r.dlTimeoutMs then false
  else true

/-- One turn of the deadline-rule loop of `diag_engine_tick` (engine.c:630-655). -/
def deadlineStep (nowNs : UInt64) (s : Devwin × List Finding) (p : DiagRule × ℕ) :
    Devwin × List Finding :=
  if !deadlineDue s.1 p.1 nowNs then s
  else if s.1.dlFired p.2 then s
  else
    ({ s.1 with dlFired := Function.update s.1.dlFired p.2 true },
      s.2 ++ [{ ridx := p.2, key := s.1.key, vid := s.1.vid, pid := s.1.pid, refNs := nowNs,
                count := 0, windowMs := p.1.dlTimeoutMs, comm := none, evidence := [] }])

/-- The turn of the slot loop of `diag_engine_tick` on one slot (engine.c:626-659). -/
def tickWin (rules : List DiagRule) (nowNs : UInt64) (w : Devwin) : Devwin × List Finding :=
  if !w.used then (w, [])
  else
    let (w, fs) := rules.zipIdx.foldl (deadlineStep nowNs) (w, [])
    (if nowNs - w.lastSeenNs > retentionNs then { w with used := false } else w, fs)

/-- `diag_engine_tick` (engine.c:619-661); no turn of the slot loop reads another slot. -/
def diagEngineTick (e : DiagEngine) (nowNs : UInt64) : DiagEngine × List Finding :=
  let fs := (List.finRange winMaxDevs).flatMap fun i => (tickWin e.rules nowNs (e.devs i)).2
  (fs.foldl emit { e with devs := fun i => (tickWin e.rules nowNs (e.devs i)).1 }, fs)

/-- `diag_engine_create` (engine.c:690-699). -/
def diagEngineCreate (rules : List DiagRule) : DiagEngine :=
  { rules := rules, devs := fun _ => {}, fireCount := fun _ => 0, totalFired := 0 }

/-! ## Runs -/

/-- What the poll loop of `diag_run` does to the engine: it ingests a record, or ticks
(diag.c:342-350, 503-524). -/
inductive EngineOp where
  | ingest (evt : DiagEvent) (clock : ℕ → UInt64)
  | tick (nowNs : UInt64)

/-- One operation on the engine, with the findings it prints. -/
def engineStep (e : DiagEngine) : EngineOp → DiagEngine × List Finding
  | .ingest evt clock => diagEngineIngest e evt clock
  | .tick nowNs => diagEngineTick e nowNs

/-- The engine after the operations `ops`, started with `rules`. -/
def engineAfter (rules : List DiagRule) (ops : List EngineOp) : DiagEngine :=
  finalState engineStep (diagEngineCreate rules) ops

/-- Every finding printed by the operations `ops`, in order. -/
def engineFindings (rules : List DiagRule) (ops : List EngineOp) : List Finding :=
  outputs engineStep (diagEngineCreate rules) ops

end UsbTrace.Model

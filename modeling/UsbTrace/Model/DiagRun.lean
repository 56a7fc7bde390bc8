import UsbTrace.Model.EventMux
import UsbTrace.Model.RulesParse

/-!
# diag as a process

`diag_run` (diag.c:354-541): it loads the rules, brings the probes up, merges their maps into
one poll loop that ticks the engine every half second, reports, and gives everything back.
What the system answers to each call is given (`DiagWorld`); the kernel side runs along with
the loop.
-/

set_option autoImplicit false

namespace UsbTrace.Model

open UsbTrace.Library

/-! ## The poll loop -/

/-- `TICK_INTERVAL_NS`. -/
def tickIntervalNs : UInt64 := 500 * 1000000

/-- What a turn of the loop does: it hands a record to `on_event`, or ticks. -/
inductive LoopAction where
  | deliver (w : Buffered)
  | tick (nowNs : UInt64)

/-- The engine operation it is (diag.c:342-350, 521). -/
def LoopAction.op : LoopAction → EngineOp
  | .deliver w => w.ingest
  | .tick nowNs => .tick nowNs

/-- One turn: the records the poll hands on, what it returns, and the clock after it. -/
structure PollTurn where
  delivered : List Buffered
  ret : ℤ
  now : UInt64

/-- The locals of the loop; `broken` once it has left at an error. -/
structure LoopState where
  lastTick : UInt64
  err : ℤ := 0
  broken : Bool := false
deriving DecidableEq, Repr

/-- The body of the loop (diag.c:503-524).  An interrupted poll goes on without looking at the
clock. -/
def loopTurn (s : LoopState) (t : PollTurn) : LoopState × List LoopAction :=
  if s.broken then (s, [])
  else
    let out := t.delivered.map LoopAction.deliver
    if t.ret < 0 then
      if transient t.ret then ({ s with err := 0 }, out)
      else ({ s with err := t.ret, broken := true }, out)
    else if t.now - s.lastTick ≥ tickIntervalNs then
      ({ s with err := t.ret, lastTick := t.now }, out ++ [.tick t.now])
    else ({ s with err := t.ret }, out)

/-- What the loop does over several turns. -/
def loopActions (start : UInt64) (turns : List PollTurn) : List LoopAction :=
  outputs loopTurn { lastTick := start } turns

/-! ## The loop beside the kernel -/

/-- The probes that are attached, the filter in their `.rodata`, the consumer, and how the
`events` maps keep their records. -/
structure DiagSetup where
  cfg : FilterConfig
  live : List Source
  mux : Evmux
  buffers : Buffers

/-- What happens while diag runs: a hook fires, on a CPU, with the records its module's buffer
has room for and the clock readings of the ingests they lead to, or the loop polls. -/
inductive DiagInput where
  | hook (ev : KernelEvent) (cpu : ℕ) (room : ℕ → Bool) (clock : ℕ → ℕ → UInt64)
  | vb2 (ctx : HookCtx) (call : Vb2Hook) (cpu : ℕ) (room : ℕ → Bool) (clock : ℕ → ℕ → UInt64)
  | poll (a : PollAnswer) (now : UInt64)

/-- `USBTRACE_EVENT_OUTPUT` on each of a hook's records (events.bpf.h:44-58): one there is no
room for is dropped. -/
def eventOutput (s : Source) (cpu : ℕ) (room : ℕ → Bool) (clock : ℕ → ℕ → UInt64)
    (rs : List Record) : List Buffered :=
  (rs.zipIdx.filter fun r => room r.2).map fun r => ⟨⟨s, r.1, clock r.2⟩, cpu⟩

/-- The records a hook puts into its module's map; one of a module that is not attached puts
none. -/
def emitStep (su : DiagSetup) (m : ProbeMaps) : DiagInput → ProbeMaps × List Buffered
  | .hook ev cpu room clock =>
    if ev.call.source ∈ su.live then
      let (m, rs) := probeStep su.cfg m ev
      (m, eventOutput ev.call.source cpu room clock rs)
    else (m, [])
  | .vb2 ctx call cpu room clock =>
    if Source.uvc ∈ su.live then
      let (uvc, rs) := vb2Step ctx m.uvc call
      ({ m with uvc := uvc }, eventOutput .uvc cpu room clock rs)
    else (m, [])
  | .poll _ _ => (m, [])

/-- The probes' maps, the `events` maps and the loop. -/
structure DiagState where
  maps : ProbeMaps
  queues : Queues
  loop : LoopState

def DiagState.start (now : UInt64) : DiagState :=
  ⟨ProbeMaps.empty, fun _ => [], { lastTick := now }⟩

/-- One step of the kernel or of the loop. -/
def diagStep (su : DiagSetup) (s : DiagState) (i : DiagInput) : DiagState × List LoopAction :=
  match i with
  | .poll a now =>
    if s.loop.broken then (s, [])
    else
      let (qs, out, ret) := usbtraceEvmuxPoll su.buffers su.mux s.queues a
      let (loop, acts) := loopTurn s.loop ⟨out, ret, now⟩
      ({ s with queues := qs, loop := loop }, acts)
  | i =>
    let (maps, ws) := emitStep su s.maps i
    ({ s with maps := maps, queues := su.buffers.put s.queues ws }, [])

/-! ## Loading the rules -/

def RuleText.all : List RuleText := [.id, .name, .conclusion, .fix]

def DiagRule.text (r : DiagRule) : RuleText → Option CStr
  | .id => r.id
  | .name => r.name
  | .conclusion => r.conclusion
  | .fix => r.fix

/-- The texts `parse_rule` duplicates for the `i`-th rule before it looks at anything else
(rules.c:410-413). -/
def dupTexts (alloc : RuleText → Bool) (i : ℕ) (rn : YamlNode) : List Resource :=
  (RuleText.all.filter fun t => (dupScalar alloc rn t).isSome).map (.ruleText i)

/-- The texts the `i`-th rule holds. -/
def heldTexts (i : ℕ) (r : DiagRule) : List Resource :=
  (RuleText.all.filter fun t => (r.text t).isSome).map (.ruleText i)

/-- `diag_rules_free` (engine.c:709-722). -/
def diagRulesFree (rules : List DiagRule) : List (Use Resource) :=
  (rules.zipIdx.flatMap fun p => heldTexts p.2 p.1).map .release ++ [.release .ruleArray]

/-- The loop over the rule nodes (rules.c:500-516): at a rule that does not parse the rules
before it are freed. -/
def rulesLoopUses (long : LongWidth) (texts : ℕ → RuleText → Bool) :
    List DiagRule → List YamlNode → List (Use Resource)
  | _, [] => []
  | arr, rn :: rest =>
    if arr.length ≥ diagMaxRules then []
    else (dupTexts (texts arr.length) arr.length rn).map .acquire ++
      match parseRule long (texts arr.length) rn with
      | .error _ => diagRulesFree arr
      | .ok r => rulesLoopUses long texts (arr ++ [r]) rest

/-- The nodes of the top-level list, if there is one (rules.c:483-491). -/
def rulesNodes (root : Option YamlNode) : Option (List YamlNode) :=
  match root.bind fun n => mapGet (some n) "rules" with
  | some (.sequence items) => some items
  | _ => none

/-- What becomes of the rule array while the document is open (rules.c:493-516). -/
def documentUses (long : LongWidth) (alloc : RulesAlloc) (root : Option YamlNode) :
    List (Use Resource) :=
  match rulesNodes root with
  | some items =>
    if !alloc.array then [] else .acquire .ruleArray :: rulesLoopUses long alloc.texts [] items
  | none => []

/-- `diag_rules_parse` (rules.c:458-526), what it holds on its way. -/
def rulesParseUses (long : LongWidth) (alloc : RulesAlloc)
    (load : Except CStr (Option YamlNode)) : List (Use Resource) :=
  if !alloc.parser then []
  else match load with
    | .error _ => [.acquire .yamlParser, .release .yamlParser]
    | .ok root =>
      [.acquire .yamlParser, .acquire .yamlDocument] ++ documentUses long alloc root ++
        [.release .yamlDocument, .release .yamlParser]

/-- Where the rules come from: the built-in text, or a file that may not open, not tell its
size, or not fit into memory. -/
inductive RulesSource where
  | builtin
  | file (opens sized fits : Bool)
deriving DecidableEq, Repr

/-- `diag_rules_load_default` and `diag_rules_load_file` (rules.c:528-568); `load` is what
libyaml makes of the text. -/
def diagRulesLoad (long : LongWidth) (alloc : RulesAlloc) (src : RulesSource)
    (load : Except CStr (Option YamlNode)) : Option (List DiagRule) × List (Use Resource) :=
  match src with
  | .builtin => ((diagRulesParse long alloc load).out, rulesParseUses long alloc load)
  | .file opens sized fits =>
    if !opens then (none, [])
    else if !sized || !fits then (none, [.acquire .file, .release .file])
    else ((diagRulesParse long alloc load).out,
      [.acquire .file, .acquire .fileText, .release .file] ++ rulesParseUses long alloc load ++
        [.release .fileText])

/-! ## Bringing up and down -/

/-- What bringing a probe up meets: `__open`, how many of its programs are left enabled, and
the results of `__load` and `__attach`. -/
structure ProbeAnswer where
  opens : Bool := true
  hooks : ℕ := 1
  load : ℤ := 0
  attach : ℤ := 0
deriving DecidableEq, Repr

/-- The probes in the order diag brings them up (diag.c:392-460). -/
def diagSources : List Source :=
  [.urb, .enum, .lifecycle, .power, .hub, .uvc, .uac, .hid, .storage]

/-- One probe (diag.c:392-402, 446-462): a probe that does not come up is skipped. -/
def bringUp (s : Source) (a : ProbeAnswer) : List Source × List (Use Resource) :=
  if !a.opens then ([], [])
  else if a.hooks = 0 || a.load ≠ 0 || a.attach ≠ 0 then
    ([], [.acquire (.skeleton s), .release (.skeleton s)])
  else ([s], [.acquire (.skeleton s)])

/-- All probes: those that are up, in order. -/
def bringUpAll (answer : Source → ProbeAnswer) : List Source → List Source × List (Use Resource)
  | [] => ([], [])
  | s :: rest =>
    let (up, uses) := bringUp s (answer s)
    let (ups, uses') := bringUpAll answer rest
    (up ++ ups, uses ++ uses')

/-- The maps of the probes that are up join the consumer (diag.c:471-490). -/
def addSources (answer : Source → AddAnswer) : Evmux → List Source → Evmux × List (Use Resource)
  | m, [] => (m, [])
  | m, s :: rest =>
    let (m, _, uses) := usbtraceEvmuxAdd m s (answer s)
    let (m, uses') := addSources answer m rest
    (m, uses ++ uses')

/-- What the system answers to `diag_run`. -/
structure DiagWorld where
  long : LongWidth := .long64
  cfg : FilterConfig
  transport : Transport
  source : RulesSource
  rulesAlloc : RulesAlloc := {}
  load : Except CStr (Option YamlNode)
  engineAlloc : Bool := true
  probe : Source → ProbeAnswer := fun _ => {}
  muxAlloc : Bool := true
  muxEpoll : Bool := true
  add : Source → AddAnswer := fun _ => {}
  buffers : Buffers := listLanes (Buffered.place transport)
  start : UInt64
  inputs : List DiagInput

/-- What `diag_run` does: its return value, what it holds on its way, what the loop does, and
the engine it reports, where it comes to that. -/
structure DiagExit where
  code : ℤ
  uses : List (Use Resource)
  actions : List LoopAction := []
  report : Option DiagEngine := none

/-- The code after `cleanup:`, in its order (diag.c:530-539). -/
def diagCleanup (mux : Option Evmux) (live : List Source) (rules : List DiagRule) :
    List (Use Resource) :=
  usbtraceEvmuxFree mux ++ live.map (fun s => .release (.skeleton s)) ++
    (diagRulesFree rules ++ [.release .engine])

/-- `diag_run` (diag.c:354-541). -/
def diagRun (w : DiagWorld) : DiagExit :=
  let (loaded, uses) := diagRulesLoad w.long w.rulesAlloc w.source w.load
  match loaded with
  | none => { code := 1, uses := uses }
  | some rules =>
    if !w.engineAlloc then { code := 1, uses := uses ++ diagRulesFree rules }
    else
      let (live, ups) := bringUpAll w.probe diagSources
      let (mux, news) := usbtraceEvmuxNew w.transport w.muxAlloc w.muxEpoll
      let uses := uses ++ [.acquire .engine] ++ ups ++ news
      match mux with
      | none => { code := 1, uses := uses ++ diagCleanup none live rules }
      | some m =>
        let (m, adds) := addSources w.add m live
        let uses := uses ++ adds ++ diagCleanup (some m) live rules
        if m.srcs = [] then { code := 1, uses := uses }
        else
          let su : DiagSetup := ⟨w.cfg, live, m, w.buffers⟩
          let actions := outputs (diagStep su) (DiagState.start w.start) w.inputs
          let err := (finalState (diagStep su) (DiagState.start w.start) w.inputs).loop.err
          { code := if err > 0 then 0 else if err ≠ 0 then 1 else 0
            uses := uses
            actions := actions
            report := some (engineAfter rules (actions.map LoopAction.op)) }

end UsbTrace.Model

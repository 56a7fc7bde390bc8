import UsbTrace.Model.Rule
import UsbTrace.Library.CLong
import UsbTrace.Library.Strtol

/-!
# The rule loader

The model of rules.c: the walk over the YAML document that fills the rule array.  A
document is the tree libyaml returns; a scalar is what the C code sees of it, the string up
to its terminator.  Numbers are read as a `long` of the target.  A parse function that fails
leaves the text it puts in the caller's `err` buffer, here not cut to the buffer's size.
-/

set_option autoImplicit false

namespace UsbTrace.Model

open UsbTrace.Library

/-- A node of a YAML document. -/
inductive YamlNode where
  | scalar (value : CStr)
  | sequence (items : List YamlNode)
  | mapping (pairs : List (YamlNode × YamlNode))

/-! ## Symbols -/

/-- `kind_syms` (rules.c:25-31). -/
def kindSyms : List (CStr × ℤ) := [
  ("urb".toList, 1), ("enum".toList, 2), ("power".toList, 3), ("lifecycle".toList, 4),
  ("class".toList, 5), ("uvc_frame".toList, 6), ("uvc_vb2".toList, 7), ("hub".toList, 9)]

/-- `enum_syms` (rules.c:33-63): action, step, request, state, class and type names. -/
def enumSyms : List (CStr × ℤ) := [
  ("connect".toList, 0), ("disconnect".toList, 1), ("reset".toList, 2),
  ("autosuspend".toList, 0), ("autoresume".toList, 1),
  ("port_suspend".toList, 2), ("port_resume".toList, 3),
  ("hub_reset".toList, 0), ("hub_disable".toList, 1),
  ("hub_power_off".toList, 2), ("hub_power_on".toList, 3),
  ("hub_overcurrent".toList, 4),
  ("enum_state".toList, 0), ("get_descriptor".toList, 1),
  ("set_address".toList, 2), ("set_configuration".toList, 3),
  ("GET_STATUS".toList, 0), ("CLEAR_FEATURE".toList, 1), ("SET_FEATURE".toList, 3),
  ("SET_ADDRESS".toList, 5), ("GET_DESCRIPTOR".toList, 6),
  ("SET_CONFIGURATION".toList, 9), ("GET_INTERFACE".toList, 10),
  ("SET_INTERFACE".toList, 11),
  ("NOTATTACHED".toList, 0), ("ATTACHED".toList, 1), ("POWERED".toList, 2),
  ("RECONNECTING".toList, 3), ("UNAUTHED".toList, 4), ("DEFAULT".toList, 5),
  ("ADDRESS".toList, 6), ("CONFIGURED".toList, 7), ("SUSPENDED".toList, 8),
  ("video".toList, 0), ("audio".toList, 1), ("hid".toList, 2), ("storage".toList, 3),
  ("vb2_done".toList, 0), ("vb2_queue".toList, 1), ("vb2_qbuf".toList, 2),
  ("vb2_dqbuf".toList, 3), ("vb2_starved".toList, 4),
  ("isoc".toList, 0), ("int".toList, 1), ("control".toList, 2), ("bulk".toList, 3)]

/-- `field_syms` (rules.c:65-98). -/
def fieldSyms : List (CStr × DiagField) := [
  ("kind".toList, .kind), ("is_submit".toList, .isSubmit), ("status".toList, .status),
  ("xfer_type".toList, .xferType), ("dir_in".toList, .dirIn), ("ep".toList, .ep),
  ("action".toList, .action), ("old_state".toList, .oldState),
  ("new_state".toList, .newState), ("latency_ns".toList, .latencyNs),
  ("actual".toList, .actual), ("length".toList, .length),
  ("error_count".toList, .errorCount), ("class".toList, .cls),
  ("frame_bytes".toList, .frameBytes), ("frame_interval_ns".toList, .frameInterval),
  ("frame_errored".toList, .frameErrored), ("vb2_sequence".toList, .vb2Sequence),
  ("vb2_seq_gap".toList, .vb2SeqGap), ("vb2_bytesused".toList, .vb2Bytesused),
  ("vb2_interval_ns".toList, .vb2Interval), ("wire_to_vb2_ns".toList, .wireToVb2Ns),
  ("vb2_op".toList, .vb2Op), ("vb2_starved".toList, .vb2Starved),
  ("vb2_num_buffers".toList, .vb2NumBuffers), ("vb2_queued".toList, .vb2Queued),
  ("vb2_drv_owned".toList, .vb2DrvOwned), ("step".toList, .step),
  ("brequest".toList, .brequest), ("wvalue".toList, .wvalue),
  ("reset_resume".toList, .resetResume)]

/-- `sym_lookup` (rules.c:100-109). -/
def symLookup {α : Type} (tab : List (CStr × α)) (name : CStr) : Option α :=
  (tab.find? fun p => p.1 = name).map Prod.snd

/-- `resolve_value` (rules.c:113-132): a number in C's base-0 syntax, else a name. -/
def resolveValue (long : LongWidth) (s : CStr) : Option ℤ :=
  if s = [] then none
  else
    let r := strtol long.bits s
    if r.erange = false ∧ r.rest = [] then some r.value
    else match symLookup kindSyms s with
      | some v => some v
      | none => symLookup enumSyms s

/-! ## Document helpers -/

/-- `node_scalar` (rules.c:136-142). -/
def nodeScalar : Option YamlNode → Option CStr
  | some (.scalar s) => some s
  | _ => none

/-- `map_get` (rules.c:144-160): the value of the first entry with the key. -/
def mapGet (map : Option YamlNode) (key : String) : Option YamlNode :=
  match map with
  | some (.mapping pairs) =>
    (pairs.find? fun p => nodeScalar (some p.1) = some key.toList).map Prod.snd
  | _ => none

/-- `strtol(s, NULL, 0)` of a scalar, if the node is one. -/
def scalarLong (long : LongWidth) (n : Option YamlNode) : Option ℤ :=
  (nodeScalar n).map fun s => (strtol long.bits s).value

/-! ## Conditions -/

/-- One turn of the loop of `parse_status_in` (rules.c:173-188). -/
def statusEntry (long : LongWidth) (c : DiagCond) (e : YamlNode) : Except CStr DiagCond :=
  match (nodeScalar (some e)).bind (resolveValue long) with
  | none => .error "bad status_in entry".toList
  | some v =>
    if c.statusIn.length ≥ diagMaxStatus then .error "too many status_in entries".toList
    else .ok { c with statusIn := c.statusIn ++ [v] }

/-- `parse_status_in` (rules.c:164-190). -/
def parseStatusIn (long : LongWidth) (c : DiagCond) (seq : YamlNode) : Except CStr DiagCond :=
  match seq with
  | .sequence items => items.foldlM (statusEntry long) c
  | _ => .error "status_in must be a list".toList

/-- The operator a value's prefix selects, and the value after it (rules.c:202-212). -/
def splitOp : CStr → DiagOp × CStr
  | '!' :: v => (.ne, v)
  | '>' :: '=' :: v => (.gte, v)
  | '<' :: '=' :: v => (.lte, v)
  | v => (.eq, v)

/-- `add_match` (rules.c:192-227). -/
def addMatch (long : LongWidth) (c : DiagCond) (field valstr : CStr) : Except CStr DiagCond :=
  match symLookup fieldSyms field with
  | none => .error ("unknown field '".toList ++ field ++ "'".toList)
  | some fid =>
    let (op, v) := splitOp valstr
    match resolveValue long v with
    | none =>
      .error ("bad value '".toList ++ v ++ "' for field '".toList ++ field ++ "'".toList)
    | some val =>
      if c.matchList.length ≥ diagMaxMatch then .error "too many match fields".toList
      else .ok { c with matchList := c.matchList ++ [{ field := fid, value := val, op := op }] }

/-- One turn of the loop of `parse_match_map` (rules.c:239-252). -/
def matchEntry (long : LongWidth) (c : DiagCond) (p : YamlNode × YamlNode) :
    Except CStr DiagCond :=
  match nodeScalar (some p.1), nodeScalar (some p.2) with
  | some ks, some vs => addMatch long c ks vs
  | _, _ => .error "match entries must be scalars".toList

/-- `parse_match_map` (rules.c:230-254). -/
def parseMatchMap (long : LongWidth) (c : DiagCond) (map : YamlNode) : Except CStr DiagCond :=
  match map with
  | .mapping pairs => pairs.foldlM (matchEntry long) c
  | _ => .error "match must be a mapping".toList

/-- The kind a scalar selects (rules.c:272-277 and 338-343). -/
def setKind (long : LongWidth) (c : DiagCond) (s : CStr) : Except CStr DiagCond :=
  match resolveValue long s with
  | none => .error ("bad kind '".toList ++ s ++ "'".toList)
  | some v => .ok { c with kind := some (UInt32.ofInt v) }

/-- A part of a mapping that may be left out: `if (n && parse(n, c)) return -1`. -/
def parseOptional {α : Type} (parse : DiagCond → α → Except CStr DiagCond) (n : Option α)
    (c : DiagCond) : Except CStr DiagCond :=
  match n with
  | none => .ok c
  | some n => parse c n

/-- `parse_when` (rules.c:257-312), into a zeroed condition. -/
def parseWhen (long : LongWidth) (item : YamlNode) : Except CStr DiagCond :=
  match item with
  | .mapping _ => do
    let c ← parseOptional (setKind long) (nodeScalar (mapGet (some item) "kind")) {}
    let c ← parseOptional (parseMatchMap long) (mapGet (some item) "match") c
    let c ← parseOptional (parseStatusIn long) (mapGet (some item) "status_in") c
    .ok { c with
      withinMs := scalarLong long (mapGet (some item) "within_ms")
      countGte := scalarLong long (mapGet (some item) "count_gte")
      minSpanMs := scalarLong long (mapGet (some item) "min_span_ms")
      clusterMs := scalarLong long (mapGet (some item) "cluster_ms") }
  | _ => .error "when item must be a mapping".toList

/-- One turn of the loop of `parse_trigger` (rules.c:324-347): the kind, or any other
field as a constraint. -/
def triggerEntry (long : LongWidth) (c : DiagCond) (p : YamlNode × YamlNode) :
    Except CStr DiagCond :=
  match nodeScalar (some p.1), nodeScalar (some p.2) with
  | some ks, some vs => if ks = "kind".toList then setKind long c vs else addMatch long c ks vs
  | _, _ => .error "trigger entries must be scalars".toList

/-- `parse_trigger` (rules.c:315-353). -/
def parseTrigger (long : LongWidth) (map : Option YamlNode) : Except CStr DiagCond :=
  match map with
  | some (.mapping pairs) => do
    let c ← pairs.foldlM (triggerEntry long) {}
    if c.kind = none then .error "trigger requires a kind".toList else .ok c
  | _ => .error "trigger must be a mapping".toList

/-! ## Rules -/

/-- `parse_severity` (rules.c:355-364). -/
def parseSeverity : Option CStr → DiagSeverity
  | some s =>
    if s = "warn".toList ∨ s = "warning".toList then .warn
    else if s = "error".toList ∨ s = "err".toList then .error
    else .info
  | none => .info

/-- The conversion of a `long` to `int`. -/
def toInt (v : ℤ) : ℤ := v.bmod (2 ^ 32)

/-- `parse_deadline` (rules.c:373-401). -/
def parseDeadline (long : LongWidth) (dl : YamlNode) (r : DiagRule) : Except CStr DiagRule :=
  match (nodeScalar (mapGet (some dl) "reached_state")).bind (resolveValue long) with
  | none => .error "deadline needs reached_state".toList
  | some v =>
    let r := { r with
      type := .deadline
      dlReachedState := toInt v
      dlWithoutState :=
        match (nodeScalar (mapGet (some dl) "without_state")).bind (resolveValue long) with
        | none => -1
        | some v => toInt v }
    match scalarLong long (mapGet (some dl) "timeout_ms") with
    | none => .error "deadline needs timeout_ms".toList
    | some ms => .ok { r with dlTimeoutMs := ms }

/-- One turn of the loop over the when items (rules.c:441-453). -/
def whenItem (long : LongWidth) (conds : List DiagCond) (item : YamlNode) :
    Except CStr (List DiagCond) :=
  if conds.length ≥ diagMaxWhen then .error "too many when conditions".toList
  else do
    let c ← parseWhen long item
    .ok (conds ++ [c])

/-- The when list of a rule, if it has one (rules.c:433-454). -/
def parseWhens (long : LongWidth) (n : Option YamlNode) : Except CStr (List DiagCond) :=
  match n with
  | none => .ok []
  | some (.sequence items) => items.foldlM (whenItem long) []
  | some _ => .error "when must be a list".toList

def RuleText.key : RuleText → String
  | .id => "id"
  | .name => "name"
  | .conclusion => "conclusion"
  | .fix => "fix"

/-- `dup_scalar` (rules.c:366-371): the copy of a rule's text, where `strdup` finds memory. -/
def dupScalar (alloc : RuleText → Bool) (rn : YamlNode) (t : RuleText) : Option CStr :=
  if alloc t then nodeScalar (mapGet (some rn) t.key) else none

/-- `parse_rule` (rules.c:403-456). -/
def parseRule (long : LongWidth) (alloc : RuleText → Bool) (rn : YamlNode) :
    Except CStr DiagRule :=
  let r : DiagRule :=
    { id := dupScalar alloc rn .id
      name := dupScalar alloc rn .name
      conclusion := dupScalar alloc rn .conclusion
      fix := dupScalar alloc rn .fix
      severity := parseSeverity (nodeScalar (mapGet (some rn) "severity")) }
  if r.id = none then .error "rule missing id".toList
  else match mapGet (some rn) "deadline" with
    | some dl => parseDeadline long dl r
    | none => do
      let trigger ← parseTrigger long (mapGet (some rn) "trigger")
      let conds ← parseWhens long (mapGet (some rn) "when")
      .ok { r with type := .event, trigger := trigger, whenList := conds }

/-- The loop of `diag_rules_parse` over the rule nodes: at the limit the rest is left
(rules.c:500-516). -/
def parseRules (long : LongWidth) (texts : ℕ → RuleText → Bool) :
    List DiagRule → List YamlNode → Except CStr (List DiagRule)
  | arr, [] => .ok arr
  | arr, rn :: rest =>
    if arr.length ≥ diagMaxRules then .ok arr
    else do
      let r ← parseRule long (texts arr.length) rn
      parseRules long texts (arr ++ [r]) rest

/-- What `diag_rules_parse` leaves its caller: the return value, `*out` and the error. -/
structure ParseOutcome where
  ret : ℤ
  out : Option (List DiagRule)
  err : CStr
deriving DecidableEq, Repr

/-- `goto fail`, with the error text set. -/
def parseFail (err : CStr) : ParseOutcome := { ret := -1, out := none, err := err }

/-- What the loader asks memory for: libyaml's parser, the rule array, and the texts of each
rule. -/
structure RulesAlloc where
  parser : Bool := true
  array : Bool := true
  texts : ℕ → RuleText → Bool := fun _ _ => true

/-- `diag_rules_parse` (rules.c:458-526), given what libyaml makes of the text: its error,
or the document's root node if it has one. -/
def diagRulesParse (long : LongWidth) (alloc : RulesAlloc)
    (load : Except CStr (Option YamlNode)) : ParseOutcome :=
  if !alloc.parser then parseFail "yaml init failed".toList
  else match load with
    | .error problem => parseFail ("YAML parse error at line ".toList ++ problem)
    | .ok none => parseFail "empty document".toList
    | .ok (some root) =>
      match mapGet (some root) "rules" with
      | some (.sequence items) =>
        if !alloc.array then parseFail "out of memory".toList
        else match parseRules long alloc.texts [] items with
          | .error err => parseFail err
          | .ok arr => { ret := arr.length, out := some arr, err := [] }
      | _ => parseFail "top-level 'rules:' list required".toList

end UsbTrace.Model

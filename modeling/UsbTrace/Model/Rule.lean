import UsbTrace.Model.Event

/-!
# Rules and the predicates on single events

`DiagRule` is `struct diag_rule` (engine.h:59-128).  A fixed array with its length
(`match`/`nmatch`, `status_in`/`nstatus`, `when`/`nwhen`) is a list; a value guarded by
a `has_` flag is an option.  A C string is the list of its characters, a byte being
the character with its code.
-/

set_option autoImplicit false

namespace UsbTrace.Model

/-- A NUL-terminated string, without its terminator. -/
abbrev CStr := List Char

/-- `DIAG_MAX_RULES`, `DIAG_MAX_WHEN`, `DIAG_MAX_MATCH`, `DIAG_MAX_STATUS` (engine.h:18-21). -/
def diagMaxRules : ℕ := 64
def diagMaxWhen : ℕ := 8
def diagMaxMatch : ℕ := 8
def diagMaxStatus : ℕ := 16

/-- `enum diag_op`: the comparison a value prefix selects (engine.h:61-68). -/
inductive DiagOp where
  | eq | ne | gte | lte
deriving DecidableEq, Repr

/-- `enum diag_severity`. -/
inductive DiagSeverity where
  | info | warn | error
deriving DecidableEq, Repr

/-- `struct diag_match`: a single constraint `field <op> value`. -/
structure DiagMatch where
  field : DiagField
  value : ℤ
  op : DiagOp
deriving DecidableEq, Repr

/-- `struct diag_cond`: one lookback condition, or a trigger (kind and match only). -/
structure DiagCond where
  kind : Option UInt32 := none
  matchList : List DiagMatch := []
  statusIn : List ℤ := []
  withinMs : Option ℤ := none
  countGte : Option ℤ := none
  minSpanMs : Option ℤ := none
  clusterMs : Option ℤ := none
deriving DecidableEq, Repr

/-- `enum diag_rule_type`. -/
inductive DiagRuleType where
  | event | deadline
deriving DecidableEq, Repr

/-- The texts of a rule the loader duplicates (rules.c:410-413). -/
inductive RuleText where
  | id | name | conclusion | fix
deriving DecidableEq, Repr

/-- `struct diag_rule`.  The defaults are those of the `memset` in `parse_rule`. -/
structure DiagRule where
  id : Option CStr := none
  name : Option CStr := none
  conclusion : Option CStr := none
  fix : Option CStr := none
  severity : DiagSeverity := .info
  type : DiagRuleType := .event
  trigger : DiagCond := {}
  whenList : List DiagCond := []
  dlReachedState : ℤ := 0
  dlWithoutState : ℤ := 0
  dlTimeoutMs : ℤ := 0
deriving DecidableEq, Repr

/-- `match_one` (engine.c:156-165). -/
def matchOne (m : DiagMatch) (v : ℤ) : Bool :=
  match m.op with
  | .ne => v ≠ m.value
  | .gte => v ≥ m.value
  | .lte => v ≤ m.value
  | .eq => v = m.value

/-- `match_fields` (engine.c:167-178). -/
def matchFields (c : DiagCond) (e : DiagEvent) : Bool :=
  c.matchList.all fun m => matchOne m (evFieldVal e m.field)

/-- `status_ok` (engine.c:180-191). -/
def statusOk (c : DiagCond) (e : DiagEvent) : Bool :=
  if c.statusIn.length = 0 then true
  else c.statusIn.any fun s => e.status.toInt = s

/-- The kind test shared by conditions and triggers. -/
def kindOk (c : DiagCond) (e : DiagEvent) : Bool :=
  match c.kind with
  | none => true
  | some k => e.kind = k

/-- `cond_event_pred`: an event satisfies a lookback condition's per-event predicate
(engine.c:194-203). -/
def condEventPred (c : DiagCond) (e : DiagEvent) : Bool :=
  if !kindOk c e then false
  else if !matchFields c e then false
  else if !statusOk c e then false
  else true

/-- `trigger_match`: kind and match only (engine.c:206-211). -/
def triggerMatch (c : DiagCond) (e : DiagEvent) : Bool :=
  if !kindOk c e then false else matchFields c e

end UsbTrace.Model

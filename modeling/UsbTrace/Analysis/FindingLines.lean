import UsbTrace.Interface.JsonText
import UsbTrace.Interface.Device
import UsbTrace.Model.RulesParse

/-!
# The lines of JSON mode are well formed, rule ids aside

Everything `print_finding` and `diag_engine_report` print is well-formed JSON whatever a
rule's texts and an event's `comm` hold, but for the rule's id, which they print as it is.
So a line is one well-formed JSON object exactly when a line that holds nothing but the ids
is one (`jsonLines_iff`), as it is when every id may stand between quotes
(`jsonLines_of_body`).
-/

set_option autoImplicit false

namespace UsbTrace.Analysis

open UsbTrace.Model UsbTrace.Library UsbTrace.Library.Json UsbTrace.Interface

/-! ## Lines of ids -/

/-- An object with a rule's id. -/
def idObject (id : CStr) : CStr := "\x7b\"rule\":\"".toList ++ (id ++ "\"\x7d".toList)

/-- The line `{"rule":"<id>"}` is one well-formed object. -/
def FindingId (id : CStr) : Prop := IsLine (idObject id ++ ['\n'])

/-- The line `{"rules":[{"rule":"<id>"},...]}` is one well-formed object. -/
def SummaryIds (ids : List CStr) : Prop :=
  IsLine ("\x7b\"rules\":[".toList ++ (commaSeparated (ids.map idObject) ++ "]\x7d".toList) ++
    ['\n'])

instance (id : CStr) : Decidable (FindingId id) := inferInstanceAs (Decidable (IsLine _))

instance (ids : List CStr) : Decidable (SummaryIds ids) := inferInstanceAs (Decidable (IsLine _))

/-! ## One finding -/

/-- What `print_finding` writes before the rule's id. -/
def findingHead (r : DiagRule) : CStr :=
  "\x7b\"event\":\"diag\",\"severity\":\"".toList ++ (sevStr r.severity ++ "\",\"rule\":\"".toList)

/-- What `print_finding` writes after the rule's id and a comma, up to the newline. -/
def findingFields (r : DiagRule) (f : Finding) : CStr :=
  "\"vid\":\"0x".toList ++ (hex4 f.vid.toNat ++ ("\",\"pid\":\"0x".toList ++ (hex4 f.pid.toNat ++
  ("\",\"bus\":".toList ++ (decimal f.key.busnum.toNat ++
  (",\"dev\":".toList ++ (decimal f.key.devnum.toNat ++
  (",\"count\":".toList ++ (decimal f.count ++
  (",\"conclusion\":\"".toList ++ (usbtraceJsonEscape (expand f r.conclusion 512) 1024 ++
  ("\",\"fix\":\"".toList ++ (usbtraceJsonEscape (expand f r.fix 512) 1024 ++
  ("\",\"evidence\":[".toList ++ (commaSeparated (f.evidence.map (evidenceRecord f.refNs)) ++
  "]\x7d".toList)))))))))))))))

theorem printFinding_eq (r : DiagRule) (f : Finding) :
    printFinding r f =
      findingHead r ++ (ruleId r ++ '"' :: ',' :: findingFields r f) ++ ['\n'] := by
  delta printFinding findingHead findingFields
  simp only [List.append_assoc, List.cons_append]
  rfl

/-- The fields after the id are members of the finding's object. -/
theorem findingFields_leaves (r : DiagRule) (f : Finding) :
    Leaves .members (findingFields r f) ('}' :: []) := by
  have hevidence : Derives .value
      ('[' :: (commaSeparated (f.evidence.map (evidenceRecord f.refNs)) ++ [']'])) := by
    refine commaSeparated_array fun v hv => ?_
    obtain ⟨x, -, rfl⟩ := List.mem_map.mp hv
    exact evidenceRecord_value f.refNs x
  have hhex (n : ℕ) : StrBody ('0' :: 'x' :: hex4 n) :=
    .plain (by decide) (.plain (by decide) (hex4_body n))
  refine Leaves.strField (name_body "vid" (by decide)) (hhex f.vid.toNat) ?_
  refine Leaves.strField (name_body "pid" (by decide)) (hhex f.pid.toNat) ?_
  refine Leaves.field (name_body "bus" (by decide)) (decimal_value _).1 ?_
  refine Leaves.field (name_body "dev" (by decide)) (decimal_value _).1 ?_
  refine Leaves.field (name_body "count" (by decide)) (decimal_value _).1 ?_
  refine Leaves.strField (name_body "conclusion" (by decide)) (usbtraceJsonEscape_body _ _) ?_
  refine Leaves.strField (name_body "fix" (by decide)) (usbtraceJsonEscape_body _ _) ?_
  exact Leaves.lastArrayField (name_body "evidence" (by decide)) hevidence _

theorem findingFields_noBreak (r : DiagRule) (f : Finding) : '\n' ∉ findingFields r f := by
  have hdecimal v := (decimal_value v).2
  have hhex n := strBody_noBreak (hex4_body n)
  have hescape src dstsz := strBody_noBreak (usbtraceJsonEscape_body src dstsz)
  have hevidence : '\n' ∉ commaSeparated (f.evidence.map (evidenceRecord f.refNs)) := by
    rw [break_commaSeparated]
    rintro ⟨v, hv, hmem⟩
    obtain ⟨x, -, rfl⟩ := List.mem_map.mp hv
    exact evidenceRecord_noBreak f.refNs x hmem
  delta findingFields
  simp only [List.mem_append, not_or]
  and_intros
  all_goals with_reducible
    first | assumption | exact hdecimal _ | exact hhex _ | exact hescape _ _ | decide

theorem findingHead_noBreak (r : DiagRule) : '\n' ∉ findingHead r := by
  delta findingHead
  cases r.severity <;> decide

theorem findingHead_scan (r : DiagRule) :
    scan (.value, []) (findingHead r) = some (.str false .body, [.object]) := by
  delta findingHead
  cases r.severity <;> rfl

/-- An id's line has a newline inside where the id has one. -/
theorem idObject_break (id : CStr) : '\n' ∈ idObject id ↔ '\n' ∈ id := by
  have hbefore : '\n' ∉ "\x7b\"rule\":\"".toList := by decide
  have hbehind : '\n' ∉ "\"\x7d".toList := by decide
  delta idObject
  simp only [List.mem_append, hbefore, hbehind, false_or, or_false]

theorem idObject_scan : scan (.value, []) "\x7b\"rule\":\"".toList =
    some (.str false .body, [.object]) := rfl

/-- **A finding's line** is well formed exactly when its rule's id is.
SOURCE: engine.c:327-395 -/
theorem printFinding_iff (r : DiagRule) (f : Finding) :
    IsLine (printFinding r f) ↔ FindingId (ruleId r) := by
  have htail (cfg : Config) : accepts cfg ('"' :: ',' :: findingFields r f) =
      accepts cfg "\"\x7d".toList := by
    rw [Bool.eq_iff_iff]
    refine (accepts_moreFields (a := 'v') rfl (name_body "vid" (by decide)) (fun _ => rfl)
      (fun _ => rfl) (findingFields_leaves r f) cfg).trans ?_
    exact (accepts_noField (fun _ _ => rfl) cfg).symm
  have hbreak : '\n' ∈ findingHead r ++ (ruleId r ++ '"' :: ',' :: findingFields r f) ↔
      '\n' ∈ idObject (ruleId r) := by
    have hquote : '\n' ≠ '"' := by decide
    have hcomma : '\n' ≠ ',' := by decide
    simp only [idObject_break, List.mem_append, List.mem_cons, findingHead_noBreak,
      findingFields_noBreak, hquote, hcomma, false_or, or_false]
  rw [printFinding_eq]
  refine (isLine_iff _).trans (Iff.trans ?_ (isLine_iff _).symm)
  refine and_congr (not_congr hbreak) ?_
  show accepts (.value, []) (findingHead r ++ _) = true ↔
    accepts (.value, []) ("\x7b\"rule\":\"".toList ++ _) = true
  rw [accepts_scan (findingHead_scan r), accepts_scan idObject_scan, accepts_congr htail]

/-! ## The summary -/

/-- What `diag_engine_report` writes for one rule. -/
def hitsObject (id : CStr) (hits : ℕ) : CStr :=
  "\x7b\"rule\":\"".toList ++ (id ++ ("\",\"hits\":".toList ++ (decimal hits ++ "\x7d".toList)))

theorem hitsObject_break (id : CStr) (hits : ℕ) : '\n' ∈ hitsObject id hits ↔ '\n' ∈ id := by
  have hbefore : '\n' ∉ "\x7b\"rule\":\"".toList := by decide
  have hmiddle : '\n' ∉ "\",\"hits\":".toList := by decide
  have hbehind : '\n' ∉ "\x7d".toList := by decide
  delta hitsObject
  simp only [List.mem_append, hbefore, hmiddle, hbehind, (decimal_value hits).2, false_or,
    or_false]

/-- The hits of a rule do not matter, where a string could not go on after them. -/
theorem hitsObject_congr {t t' : List Char}
    (ht : ∀ st, accepts (.after, st) t = accepts (.after, st) t')
    (hstr : ∀ name st, accepts (.str name .body, st) t' = false) (id : CStr) (hits : ℕ)
    (cfg : Config) : accepts cfg (hitsObject id hits ++ t) = accepts cfg (idObject id ++ t') := by
  have hquote (cfg : Config) :
      accepts cfg ('"' :: ',' :: ("\"hits\":".toList ++ (decimal hits ++ '}' :: t))) =
        accepts cfg ('"' :: '}' :: t') := by
    have hleaves : Leaves .members ("\"hits\":".toList ++ (decimal hits ++ '}' :: t))
        ('}' :: t) := Leaves.lastField (name_body "hits" (by decide)) (decimal_value hits).1 _
    rw [Bool.eq_iff_iff]
    refine (accepts_moreFields (a := 'h') rfl (name_body "hits" (by decide)) (fun _ => rfl)
      (fun _ => rfl) hleaves cfg).trans (Iff.trans ?_ (accepts_noField hstr cfg).symm)
    exact exists_congr fun st => and_congr_right fun _ => by rw [ht]
  have hhits : hitsObject id hits ++ t = "\x7b\"rule\":\"".toList ++
      (id ++ '"' :: ',' :: ("\"hits\":".toList ++ (decimal hits ++ '}' :: t))) := by
    delta hitsObject
    simp only [List.append_assoc]
    rfl
  have hid : idObject id ++ t' = "\x7b\"rule\":\"".toList ++ (id ++ '"' :: '}' :: t') := by
    delta idObject
    simp only [List.append_assoc]
    rfl
  rw [hhits, hid]
  exact accepts_congr (fun cfg => accepts_congr hquote cfg id) cfg _

/-- The rules after the first, and the end of the line, with the hits and without. -/
theorem moreHits_congr (hits : ℕ → ℕ) (ps : List (DiagRule × ℕ)) :
    (∀ st, accepts (.after, st) (((ps.map fun p => hitsObject (ruleId p.1) (hits p.2)).map
        fun u => ',' :: u).flatten ++ "]\x7d".toList) =
      accepts (.after, st) (((ps.map fun p => idObject (ruleId p.1)).map
        fun u => ',' :: u).flatten ++ "]\x7d".toList)) ∧
    ∀ name st, accepts (.str name .body, st) (((ps.map fun p => idObject (ruleId p.1)).map
      fun u => ',' :: u).flatten ++ "]\x7d".toList) = false := by
  induction ps with
  | nil => exact ⟨fun _ => rfl, fun _ _ => rfl⟩
  | cons p ps ih =>
    obtain ⟨hafter, hstr⟩ := ih
    simp only [List.map_cons, List.flatten_cons, List.append_assoc]
    refine ⟨fun st => ?_, fun name st => ?_⟩
    · exact accepts_congr (hitsObject_congr hafter hstr (ruleId p.1) (hits p.2)) (.after, st) [',']
    · cases name <;> rfl

/-- The records of the summary, with the hits and without. -/
theorem hits_congr (hits : ℕ → ℕ) (ps : List (DiagRule × ℕ)) (cfg : Config) :
    accepts cfg (commaSeparated (ps.map fun p => hitsObject (ruleId p.1) (hits p.2)) ++
        "]\x7d".toList) =
      accepts cfg (commaSeparated (ps.map fun p => idObject (ruleId p.1)) ++ "]\x7d".toList) := by
  cases ps with
  | nil => rfl
  | cons p ps =>
    obtain ⟨hafter, hstr⟩ := moreHits_congr hits ps
    rw [List.map_cons, List.map_cons, commaSeparated_cons, commaSeparated_cons,
      List.append_assoc, List.append_assoc]
    exact hitsObject_congr hafter hstr (ruleId p.1) (hits p.2) cfg

/-- What `diag_engine_report` writes before the rules. -/
def reportHead (total : ℕ) : CStr :=
  "\x7b\"event\":\"diag_summary\",\"total\":".toList ++ (decimal total ++ ",\"rules\":[".toList)

theorem diagEngineReport_eq (long : LongWidth) (e : DiagEngine) :
    diagEngineReport long e = reportHead (e.totalFired.toNat long) ++ (commaSeparated
      (e.rules.zipIdx.map fun p => hitsObject (ruleId p.1) ((e.fireCount p.2).toNat long)) ++
        "]\x7d".toList) ++ ['\n'] := by
  delta diagEngineReport reportHead hitsObject
  simp only [List.append_assoc]
  rfl

theorem reportHead_noBreak (total : ℕ) : '\n' ∉ reportHead total := by
  have hbefore : '\n' ∉ "\x7b\"event\":\"diag_summary\",\"total\":".toList := by decide
  have hbehind : '\n' ∉ ",\"rules\":[".toList := by decide
  delta reportHead
  simp only [List.mem_append, hbefore, hbehind, (decimal_value total).2, or_self, not_false_eq_true]

/-- Both heads lead into the array of rules. -/
theorem accepts_reportHead (total : ℕ) (t : List Char) :
    accepts (.value, []) (reportHead total ++ t) =
      accepts (.value, []) ("\x7b\"rules\":[".toList ++ t) := by
  have hbefore : scan (.value, []) "\x7b\"event\":\"diag_summary\",\"total\":".toList =
      some (.value, [.object]) := rfl
  have hbehind : scan (.after, [.object]) ",\"rules\":[".toList =
      some (.firstValue, [.array, .object]) := rfl
  have hshort : scan (.value, []) "\x7b\"rules\":[".toList =
      some (.firstValue, [.array, .object]) := rfl
  have htotal : accepts (.value, [.object]) (decimal total ++ (",\"rules\":[".toList ++ t)) =
      accepts (.after, [.object]) (",\"rules\":[".toList ++ t) :=
    accepts_derives (decimal_value total).1 [.object] (delimited_cons (by decide) _)
  delta reportHead
  rw [List.append_assoc, List.append_assoc, accepts_scan hbefore, htotal, accepts_scan hbehind,
    accepts_scan hshort]

/-- **The summary line** is well formed exactly when a line of the rules' ids is.
SOURCE: engine.c:663-675 -/
theorem diagEngineReport_iff (long : LongWidth) (e : DiagEngine) :
    IsLine (diagEngineReport long e) ↔ SummaryIds (e.rules.map ruleId) := by
  have hids : (e.rules.map ruleId).map idObject =
      e.rules.zipIdx.map fun p => idObject (ruleId p.1) := by
    have hfst := congrArg (List.map fun r => idObject (ruleId r)) (List.zipIdx_map_fst 0 e.rules)
    rw [List.map_map] at hfst
    rw [List.map_map]
    exact hfst.symm
  have hbreak : '\n' ∈ reportHead (e.totalFired.toNat long) ++ (commaSeparated
        (e.rules.zipIdx.map fun p => hitsObject (ruleId p.1) ((e.fireCount p.2).toNat long)) ++
          "]\x7d".toList) ↔
      '\n' ∈ "\x7b\"rules\":[".toList ++ (commaSeparated
        (e.rules.zipIdx.map fun p => idObject (ruleId p.1)) ++ "]\x7d".toList) := by
    have hshort : '\n' ∉ "\x7b\"rules\":[".toList := by decide
    simp only [List.mem_append, reportHead_noBreak, hshort, false_or, break_commaSeparated,
      List.mem_map, exists_exists_and_eq_and, hitsObject_break, idObject_break]
  rw [diagEngineReport_eq, SummaryIds, hids]
  refine (isLine_iff _).trans (Iff.trans ?_ (isLine_iff _).symm)
  refine and_congr (not_congr hbreak) ?_
  show accepts (.value, []) (reportHead (e.totalFired.toNat long) ++ _) = true ↔
    accepts (.value, []) ("\x7b\"rules\":[".toList ++ _) = true
  rw [accepts_reportHead,
    accepts_congr (hits_congr (fun ri => (e.fireCount ri).toNat long) e.rules.zipIdx)]

/-! ## All lines -/

theorem engineAfter_rules (rules : List DiagRule) (ops : List EngineOp) :
    (engineAfter rules ops).rules = rules := by
  refine finalState_induct (I := fun e : DiagEngine => e.rules = rules) (fun e op he => ?_) rfl ops
  rw [engineStep_rules, he]

/-- **JSON mode is well formed up to the rule ids**: after every run each line is one
well-formed JSON object exactly when the lines of the ids alone are, of all of them
together and of each that a finding carries.
SOURCE: engine.c:327-395, 663-675, usbtrace_cli.c:74-117 -/
theorem jsonLines_iff (long : LongWidth) (rules : List DiagRule) (ops : List EngineOp) :
    (∀ line ∈ jsonLines long rules ops, IsLine line) ↔
      SummaryIds (rules.map ruleId) ∧
        ∀ f ∈ engineFindings rules ops, FindingId (ruleId (rules.getD f.ridx {})) := by
  rw [jsonLines, List.forall_mem_append, List.forall_mem_map, List.forall_mem_singleton,
    diagEngineReport_iff, engineAfter_rules, and_comm]
  simp only [printFinding_iff]

theorem idObject_value {id : CStr} (h : StrBody id) : Derives .value (idObject id) := by
  refine derives_of_leaves (Leaves.object ?_)
  exact Leaves.lastStrField (name_body "rule" (by decide)) h _

theorem isLine_of_derives {v : CStr} (hv : Derives .value ('{' :: v)) (hbreak : '\n' ∉ '{' :: v) :
    IsLine ('{' :: v ++ ['\n']) :=
  (isLine_concat _).mpr ⟨hbreak, v, [], hv, isWs_nil, by rw [List.append_nil]⟩

theorem findingId_of_body {id : CStr} (h : StrBody id) : FindingId id := by
  refine isLine_of_derives (idObject_value h) fun hmem => ?_
  exact strBody_noBreak h ((idObject_break id).mp hmem)

theorem summaryIds_of_body {ids : List CStr} (h : ∀ id ∈ ids, StrBody id) : SummaryIds ids := by
  have harray : Derives .value ('[' :: (commaSeparated (ids.map idObject) ++ [']'])) := by
    refine commaSeparated_array fun v hv => ?_
    obtain ⟨id, hid, rfl⟩ := List.mem_map.mp hv
    exact idObject_value (h id hid)
  refine isLine_of_derives (derives_of_leaves (Leaves.object
    (Leaves.lastArrayField (name_body "rules" (by decide)) harray _))) ?_
  have hbefore : '\n' ∉ "\x7b\"rules\":[".toList := by decide
  have hbehind : '\n' ∉ "]\x7d".toList := by decide
  show '\n' ∉ "\x7b\"rules\":[".toList ++ (commaSeparated (ids.map idObject) ++ "]\x7d".toList)
  simp only [List.mem_append, hbefore, hbehind, false_or, or_false, break_commaSeparated,
    List.mem_map, exists_exists_and_eq_and, idObject_break]
  rintro ⟨id, hid, hmem⟩
  exact strBody_noBreak (h id hid) hmem

/-- **Ids that may stand between quotes** leave every line well formed: those without a quote,
a backslash or a control character, and those whose backslashes start escapes. -/
theorem jsonLines_of_body (long : LongWidth) {rules : List DiagRule}
    (h : ∀ r ∈ rules, StrBody (ruleId r)) (ops : List EngineOp) :
    ∀ line ∈ jsonLines long rules ops, IsLine line := by
  have hids : ∀ id ∈ rules.map ruleId, StrBody id := List.forall_mem_map.mpr h
  intro line hline
  rcases List.mem_append.mp hline with hline | hline
  · obtain ⟨f, -, rfl⟩ := List.mem_map.mp hline
    refine (printFinding_iff _ f).mpr (findingId_of_body ?_)
    rw [List.getD_eq_getElem?_getD]
    cases hr : rules[f.ridx]? with
    | some r => exact h r (List.mem_of_getElem? hr)
    | none => exact name_body "(null)" (by decide)
  · rw [List.mem_singleton.mp hline, diagEngineReport_iff, engineAfter_rules]
    exact summaryIds_of_body hids

/-- A rules file whose one rule has a quote in its id. -/
def quoteDoc : YamlNode := .mapping [(.scalar "rules".toList, .sequence [.mapping [
  (.scalar "id".toList, .scalar "a\"b".toList),
  (.scalar "trigger".toList, .mapping [(.scalar "kind".toList, .scalar "lifecycle".toList)])]])]

def quoteRule : DiagRule := { id := some "a\"b".toList, trigger := { kind := some evtLifecycle } }

/-- **A quote in an id** is printed as it is: neither the finding's line nor the summary is
well formed. -/
theorem quote_breaks_lines :
    (diagRulesParse .long64 {} (.ok (some quoteDoc))).out = some [quoteRule] ∧
      (jsonLines .long64 [quoteRule] [.ingest { kind := evtLifecycle } fun _ => 1]).length = 2 ∧
      ∀ line ∈ jsonLines .long64 [quoteRule] [.ingest { kind := evtLifecycle } fun _ => 1],
        ¬IsLine line := by
  decide +kernel

end UsbTrace.Analysis

import UsbTrace.Interface.RuleScalars

/-!
# Reading rules back

A rule list within the schema, written down in any of the ways `RendersRule` allows, is
what the loader reads.  Every parse function has one lemma: on a rendering of its part of
the rule it returns that part.

`rules_roundtrip` is the statement over whole documents.
-/

set_option autoImplicit false

namespace UsbTrace.Analysis

open UsbTrace.Model UsbTrace.Interface UsbTrace.Library

variable {long : LongWidth}

/-! ## Values -/

/-- No field has two meanings under one name. -/
theorem symLookup_fieldSyms : ∀ p ∈ fieldSyms, symLookup fieldSyms p.1 = some p.2 := by
  decide +kernel

/-- The name `kind` stands for the kind only. -/
theorem field_kind : ∀ p ∈ fieldSyms, p.1 = "kind".toList → p.2 = .kind := by
  decide +kernel

/-- A literal in range resolves to its value. -/
theorem resolveValue_literal {v : ℤ} {s : CStr} (h : Literal v s) (hv : long.Holds v) :
    resolveValue long s = some v := by
  refine resolveValue_iff.mpr ⟨?_, hv⟩
  cases h with
  | decimal => exact .number (decimal_literal v)
  | kind h => exact .symbol (List.mem_append_left _ h)
  | symbol h => exact .symbol (List.mem_append_right _ h)

/-- A literal of a symbol table starts with no operator sign, if none of its names does. -/
theorem syms_head {syms : List (CStr × ℤ)}
    (hall : (syms.all fun p => p.1.head?.all fun c => c ≠ '!' && c ≠ '>' && c ≠ '<') = true)
    {s : CStr} {v : ℤ} (h : (s, v) ∈ syms) :
    ∀ c ∈ s.head?, c ≠ '!' ∧ c ≠ '>' ∧ c ≠ '<' := by
  intro c hc
  have hp := List.all_eq_true.mp hall (s, v) h
  simpa [Option.mem_def.mp hc, and_assoc] using hp

/-- No literal starts like an operator. -/
theorem literal_head {v : ℤ} {s : CStr} (h : Literal v s) :
    ∀ c ∈ s.head?, c ≠ '!' ∧ c ≠ '>' ∧ c ≠ '<' := by
  cases h with
  | decimal =>
    obtain ⟨c, cs, hcs, hc⟩ := decimal_head v
    intro c' hc'
    rw [hcs, List.head?_cons, Option.mem_some_iff] at hc'
    subst hc'
    rcases hc with rfl | hdigit
    · decide
    · refine ⟨?_, ?_, ?_⟩ <;> rintro rfl <;> exact absurd hdigit (by decide)
  | kind h =>
    exact syms_head (by decide +kernel) h
  | symbol h =>
    exact syms_head (by decide +kernel) h

/-- An operator and its value are told apart again. -/
theorem splitOp_opPrefix {v : ℤ} {s : CStr} (h : Literal v s) (op : DiagOp) :
    splitOp (opPrefix op ++ s) = (op, s) := by
  cases op with
  | eq =>
    have hhead := literal_head h
    unfold splitOp opPrefix
    split
    · next heq =>
      rw [List.nil_append] at heq
      exact absurd rfl (hhead '!' (by rw [heq]; rfl)).1
    · next heq =>
      rw [List.nil_append] at heq
      exact absurd rfl (hhead '>' (by rw [heq]; rfl)).2.1
    · next heq =>
      rw [List.nil_append] at heq
      exact absurd rfl (hhead '<' (by rw [heq]; rfl)).2.2
    · rfl
  | ne => rfl
  | gte => rfl
  | lte => rfl

/-- The loader's conversion keeps a kind. -/
theorem ofInt_kind (k : UInt32) : UInt32.ofInt k.toNat = k := by
  have := k.toNat_lt
  exact UInt32.toNat_inj.mp (Int.ofNat_inj.mp (toNat_ofInt (by omega) (by omega)))

/-! ## Conditions -/

/-- One constraint is added as it was written. -/
theorem addMatch_renders {m : DiagMatch} {name s : CStr} (hname : (name, m.field) ∈ fieldSyms)
    (hs : Literal m.value s) (hv : long.Holds m.value) {c : DiagCond}
    (hroom : c.matchList.length < diagMaxMatch) :
    addMatch long c name (opPrefix m.op ++ s) = .ok { c with matchList := c.matchList ++ [m] } := by
  have hfield : symLookup fieldSyms name = some m.field := symLookup_fieldSyms _ hname
  have hval : resolveValue long s = some m.value := resolveValue_literal hs hv
  simp only [addMatch, hfield, splitOp_opPrefix hs, hval]
  rw [if_neg (by omega)]

/-- The constraints of a condition are read in order. -/
theorem parseMatchMap_renders {ms : List DiagMatch} {n : Option YamlNode}
    (h : RendersMatches ms n) (hlen : ms.length ≤ diagMaxMatch)
    (hdoc : ∀ m ∈ ms, DocumentedMatch long m) {c : DiagCond} (hc : c.matchList = []) :
    parseOptional (parseMatchMap long) n c = .ok { c with matchList := ms } := by
  have hstart : { c with matchList := [] } = c := by rw [← hc]
  cases h with
  | omitted => rw [hstart, parseOptional]
  | @mapping _ pairs h =>
    have hfold := foldlM_build (matchEntry long) (fun done => { c with matchList := done })
      diagMaxMatch
      (fun done m p hroom ⟨hm, hp⟩ => by
        obtain ⟨name, s, hname, hs, rfl⟩ := hp
        exact addMatch_renders hname hs hm.value hroom)
      ((List.forall₂_and_left ms pairs).mpr ⟨hdoc, h⟩) [] (by simpa using hlen)
    rw [hstart] at hfold
    exact hfold

/-- The statuses of a condition are read in order. -/
theorem parseStatusIn_renders {vs : List ℤ} {n : Option YamlNode}
    (h : RendersStatuses vs n) (hlen : vs.length ≤ diagMaxStatus)
    (hv : ∀ v ∈ vs, long.Holds v) {c : DiagCond} (hc : c.statusIn = []) :
    parseOptional (parseStatusIn long) n c = .ok { c with statusIn := vs } := by
  have hstart : { c with statusIn := [] } = c := by rw [← hc]
  cases h with
  | omitted => rw [hstart, parseOptional]
  | @sequence _ items h =>
    have hfold := foldlM_build (statusEntry long) (fun done => { c with statusIn := done })
      diagMaxStatus
      (fun done v e hroom ⟨hv, he⟩ => by
        obtain ⟨s, hs, rfl⟩ := he
        have hval : resolveValue long s = some v := resolveValue_literal hs hv
        simp only [statusEntry, nodeScalar, Option.bind_some, hval]
        rw [if_neg (by omega)])
      ((List.forall₂_and_left vs items).mpr ⟨hv, h⟩) [] (by simpa using hlen)
    rw [hstart] at hfold
    exact hfold

/-- The kind of a condition is read as it was written. -/
theorem setKind_renders {k : UInt32} {s : CStr} (h : Literal k.toNat s) (hk : long.Holds k.toNat)
    (c : DiagCond) : setKind long c s = .ok { c with kind := some k } := by
  have hval : resolveValue long s = some (k.toNat : ℤ) := resolveValue_literal h hk
  simp only [setKind, hval, ofInt_kind]

/-- The optional kind of a condition is read as it was written. -/
theorem parseKind_renders {o : Option UInt32} {n : Option YamlNode} (h : RendersKind o n)
    (hk : ∀ k, o = some k → long.Holds k.toNat) :
    parseOptional (setKind long) (nodeScalar n) {} = .ok { kind := o } := by
  cases h with
  | omitted => rfl
  | scalar h =>
    obtain ⟨s, hs, rfl⟩ := h
    exact setKind_renders hs (hk _ rfl) {}

/-- An optional number is read as it was written. -/
theorem scalarLong_decimalNode {o : Option ℤ} (h : ∀ v, o = some v → long.Holds v) :
    scalarLong long (decimalNode o) = o := by
  cases o with
  | none => rfl
  | some v =>
    have hread : strtol long.bits (decimal v) = ⟨v, [], false⟩ :=
      strtol_decimal (h v rfl).1 (h v rfl).2
    simp [decimalNode, scalarLong, nodeScalar, hread]

/-- The part of `parse_when` after the check that the item is a mapping. -/
theorem parseWhen_isMapping {n : YamlNode} {es : List (String × Option YamlNode)}
    (h : IsMapping n es) :
    parseWhen long n = (do
      let c ← parseOptional (setKind long) (nodeScalar (mapGet (some n) "kind")) {}
      let c ← parseOptional (parseMatchMap long) (mapGet (some n) "match") c
      let c ← parseOptional (parseStatusIn long) (mapGet (some n) "status_in") c
      .ok { c with
        withinMs := scalarLong long (mapGet (some n) "within_ms")
        countGte := scalarLong long (mapGet (some n) "count_gte")
        minSpanMs := scalarLong long (mapGet (some n) "min_span_ms")
        clusterMs := scalarLong long (mapGet (some n) "cluster_ms") }) := by
  obtain ⟨all, -, -, rfl⟩ := h
  rfl

/-- **A when item** is read as it was written. -/
theorem parseWhen_renders {c : DiagCond} {n : YamlNode} (h : RendersCond c n)
    (hdoc : DocumentedCond long c) : parseWhen long n = .ok c := by
  obtain ⟨kind, pairs, statuses, hkind, hpairs, hstatuses, hmap⟩ := h
  have hgetKind : mapGet (some n) "kind" = kind := hmap.get (by simp)
  have hgetMatch : mapGet (some n) "match" = pairs := hmap.get (by simp)
  have hgetStatus : mapGet (some n) "status_in" = statuses := hmap.get (by simp)
  have hgetWithin : mapGet (some n) "within_ms" = decimalNode c.withinMs := hmap.get (by simp)
  have hgetCount : mapGet (some n) "count_gte" = decimalNode c.countGte := hmap.get (by simp)
  have hgetSpan : mapGet (some n) "min_span_ms" = decimalNode c.minSpanMs := hmap.get (by simp)
  have hgetCluster : mapGet (some n) "cluster_ms" = decimalNode c.clusterMs := hmap.get (by simp)
  rw [parseWhen_isMapping hmap, hgetKind, hgetMatch, hgetStatus, hgetWithin, hgetCount,
    hgetSpan, hgetCluster, parseKind_renders hkind hdoc.kind,
    scalarLong_decimalNode fun v hv => (hdoc.withinMs v hv).2,
    scalarLong_decimalNode fun v hv => (hdoc.countGte v hv).2,
    scalarLong_decimalNode fun v hv => (hdoc.minSpanMs v hv).2,
    scalarLong_decimalNode fun v hv => (hdoc.clusterMs v hv).2]
  -- the three parts in turn, from the condition that has only the kind
  have hmatches := parseMatchMap_renders hpairs hdoc.matches_le hdoc.matches_doc
    (c := { kind := c.kind }) rfl
  have hstatusIn := parseStatusIn_renders hstatuses hdoc.statuses_le hdoc.statuses
    (c := { kind := c.kind, matchList := c.matchList }) rfl
  simp only [bind, Except.bind, hmatches, hstatusIn]

/-- A trigger entry for a field other than the kind is a constraint. -/
theorem triggerEntry_renders {m : DiagMatch} {p : YamlNode × YamlNode} (h : RendersMatch m p)
    (hv : long.Holds m.value) (hfield : m.field ≠ .kind) {c : DiagCond}
    (hroom : c.matchList.length < diagMaxMatch) :
    triggerEntry long c p = .ok { c with matchList := c.matchList ++ [m] } := by
  obtain ⟨name, s, hname, hs, rfl⟩ := h
  have hne : name ≠ "kind".toList := fun hk => hfield (field_kind _ hname hk)
  rw [← addMatch_renders hname hs hv hroom]
  simp only [triggerEntry, nodeScalar, if_neg hne]

/-- **A trigger** is read as it was written. -/
theorem parseTrigger_renders {c : DiagCond} {n : YamlNode} (h : RendersTrigger c n)
    (hdoc : DocumentedTrigger long c) : parseTrigger long (some n) = .ok c := by
  obtain ⟨k, kn, ms₁, ms₂, ps₁, ps₂, hk, ⟨s, hs, hkn⟩, hms, h₁, h₂, rfl⟩ := h
  subst hkn
  obtain ⟨k', hk', hholds⟩ := hdoc.kind
  obtain rfl := Option.some.inj (hk.symm.trans hk')
  have hlen : ms₁.length + ms₂.length ≤ diagMaxMatch := by
    simpa [hms] using hdoc.matches_le
  have hdoc₁ : ∀ m ∈ ms₁, DocumentedMatch long m ∧ m.field ≠ .kind := fun m hm =>
    hdoc.matches_doc m (by rw [hms]; exact List.mem_append_left _ hm)
  have hdoc₂ : ∀ m ∈ ms₂, DocumentedMatch long m ∧ m.field ≠ .kind := fun m hm =>
    hdoc.matches_doc m (by rw [hms]; exact List.mem_append_right _ hm)
  -- the constraints before the kind, the kind, and the constraints after it
  have hbefore := foldlM_build (triggerEntry long) (fun done => { matchList := done }) diagMaxMatch
    (fun done m p hroom ⟨hm, hp⟩ => triggerEntry_renders hp hm.1.value hm.2 hroom)
    ((List.forall₂_and_left ms₁ ps₁).mpr ⟨hdoc₁, h₁⟩) []
    (by rw [List.length_nil]; omega)
  have hkind : triggerEntry long { matchList := [] ++ ms₁ } (.scalar "kind".toList, .scalar s) =
      .ok { kind := some k, matchList := ms₁ } := setKind_renders hs hholds _
  have hafter := foldlM_build (triggerEntry long) (fun done => { kind := some k, matchList := done })
    diagMaxMatch (fun done m p hroom ⟨hm, hp⟩ => triggerEntry_renders hp hm.1.value hm.2 hroom)
    ((List.forall₂_and_left ms₂ ps₂).mpr ⟨hdoc₂, h₂⟩) ms₁ hlen
  have hfold : (ps₁ ++ (YamlNode.scalar "kind".toList, YamlNode.scalar s) :: ps₂).foldlM
      (triggerEntry long) {} = .ok c := by
    rw [hdoc.rest, hk, hms, List.foldlM_append]
    simp only [bind, Except.bind, hbefore, List.foldlM_cons, hkind, hafter]
  simp only [parseTrigger, bind, Except.bind, hfold]
  rw [if_neg (by simp [hk])]

/-! ## Rules -/

/-- **The when list** of a rule is read as it was written. -/
theorem parseWhens_renders {cs : List DiagCond} {n : Option YamlNode} (h : RendersWhens cs n)
    (hlen : cs.length ≤ diagMaxWhen) (hdoc : ∀ c ∈ cs, DocumentedCond long c) :
    parseWhens long n = .ok cs := by
  cases h with
  | omitted => rfl
  | @sequence _ items h =>
    exact foldlM_build (whenItem long) id diagMaxWhen
      (fun done c item hroom ⟨hc, hitem⟩ => by
        simp only [whenItem, id_eq, bind, Except.bind, parseWhen_renders hitem hc]
        rw [if_neg (by omega)])
      ((List.forall₂_and_left cs items).mpr ⟨hdoc, h⟩) [] (by simpa using hlen)

/-- A severity is read as it was written. -/
theorem parseSeverity_renders {v : DiagSeverity} {n : Option YamlNode}
    (h : RendersSeverity v n) : parseSeverity (nodeScalar n) = v := by
  cases h <;> decide

/-- A device state survives the loader's conversion to `int`. -/
theorem toInt_state {v : ℤ} (hlo : -1 ≤ v) (hhi : v ≤ 8) : toInt v = v :=
  toInt_eq (by omega) (by omega)

/-- A value as a scalar resolves to the value. -/
theorem resolveValue_renders {v : ℤ} {n : YamlNode} (h : RendersValue v n) (hv : long.Holds v) :
    (nodeScalar (some n)).bind (resolveValue long) = some v := by
  obtain ⟨s, hs, rfl⟩ := h
  exact resolveValue_literal hs hv

/-- **A deadline block** is read as it was written. -/
theorem parseDeadline_renders {r : DiagRule} {n : YamlNode} (h : RendersDeadline r n)
    (hdoc : Documented long r) (htype : r.type = .deadline) {r₀ : DiagRule} :
    parseDeadline long n r₀ = .ok { r₀ with
      type := .deadline
      dlReachedState := r.dlReachedState
      dlWithoutState := r.dlWithoutState
      dlTimeoutMs := r.dlTimeoutMs } := by
  obtain ⟨reached, without, hreached, hwithout, hmap⟩ := h
  obtain ⟨-, -, ⟨hr0, hr8⟩, ⟨hw1, hw8⟩, htimeout⟩ := hdoc.deadline htype
  have hgetReached : mapGet (some n) "reached_state" = some reached := hmap.get (by simp)
  have hgetWithout : mapGet (some n) "without_state" = without := hmap.get (by simp)
  have hgetTimeout : mapGet (some n) "timeout_ms" = some (.scalar (decimal r.dlTimeoutMs)) :=
    hmap.get (by simp)
  have hreachedVal : (nodeScalar (some reached)).bind (resolveValue long) =
      some r.dlReachedState :=
    resolveValue_renders hreached (LongWidth.holds_of_int (by omega) (by omega))
  have htimeoutVal : scalarLong long (some (.scalar (decimal r.dlTimeoutMs))) =
      some r.dlTimeoutMs :=
    scalarLong_decimalNode (o := some r.dlTimeoutMs) fun v hv => by
      cases hv
      exact htimeout
  simp only [parseDeadline, hgetReached, hgetWithout, hgetTimeout, hreachedVal, htimeoutVal,
    toInt_state (by omega : -1 ≤ r.dlReachedState) hr8]
  generalize r.dlWithoutState = w at hwithout hw1 hw8 ⊢
  cases hwithout with
  | omitted => rfl
  | scalar hw =>
    rw [resolveValue_renders hw (LongWidth.holds_of_int (by omega) (by omega))]
    simp only [toInt_state hw1 hw8]

/-- **A rule** is read as it was written. -/
theorem parseRule_renders {r : DiagRule} {n : YamlNode} (h : RendersRule r n)
    (hdoc : Documented long r) : parseRule long (fun _ => true) n = .ok r := by
  obtain ⟨severity, deadline, trigger, whens, hseverity, hbody, hmap⟩ := h
  have hgetId : mapGet (some n) "id" = r.id.map .scalar := hmap.get (by simp)
  have hgetName : mapGet (some n) "name" = r.name.map .scalar := hmap.get (by simp)
  have hgetConclusion : mapGet (some n) "conclusion" = r.conclusion.map .scalar :=
    hmap.get (by simp)
  have hgetFix : mapGet (some n) "fix" = r.fix.map .scalar := hmap.get (by simp)
  have hgetSeverity : mapGet (some n) "severity" = severity := hmap.get (by simp)
  have hgetDeadline : mapGet (some n) "deadline" = deadline := hmap.get (by simp)
  have hgetTrigger : mapGet (some n) "trigger" = trigger := hmap.get (by simp)
  have hgetWhen : mapGet (some n) "when" = whens := hmap.get (by simp)
  have htext (o : Option CStr) : nodeScalar (o.map .scalar) = o := by cases o <;> rfl
  have hdup (t : RuleText) : dupScalar (fun _ => true) n t = nodeScalar (mapGet (some n) t.key) :=
    if_pos rfl
  simp only [parseRule, hdup, RuleText.key]
  rw [hgetId, hgetName, hgetConclusion, hgetFix, hgetSeverity, hgetDeadline,
    hgetTrigger, hgetWhen, htext, htext, htext, htext, parseSeverity_renders hseverity,
    if_neg hdoc.id]
  obtain ⟨id, name, conclusion, fix, sev, type, trig, whenList, reached, without, timeout⟩ := r
  cases hbody with
  | event ht hw htype =>
    obtain ⟨htrigger, hlen, hconds, hreached, hwithout, htimeout⟩ := hdoc.event htype
    simp only [bind, Except.bind, parseTrigger_renders ht htrigger,
      parseWhens_renders hw hlen hconds]
    simp only at htype hreached hwithout htimeout
    rw [htype, hreached, hwithout, htimeout]
  | deadline hd htype =>
    obtain ⟨htrigger, hwhen, -⟩ := hdoc.deadline htype
    simp only [parseDeadline_renders hd hdoc htype]
    simp only at htype htrigger hwhen
    rw [htype, htrigger, hwhen]

/-- The rules of a list are read in order, behind those read before. -/
theorem parseRules_renders {rules : List DiagRule} {nodes : List YamlNode}
    (h : List.Forall₂ RendersRule rules nodes) (hdoc : ∀ r ∈ rules, Documented long r) :
    ∀ arr, arr.length + rules.length ≤ diagMaxRules →
      parseRules long (fun _ _ => true) arr nodes = .ok (arr ++ rules) := by
  induction h with
  | nil =>
    intro arr _
    rw [parseRules, List.append_nil]
  | @cons r n rules nodes hrn _ ih =>
    intro arr hle
    rw [List.length_cons] at hle
    have hrest := ih (fun r hr => hdoc r (List.mem_cons_of_mem _ hr)) (arr ++ [r])
      (by rw [List.length_append, List.length_singleton]; omega)
    rw [List.append_assoc, List.singleton_append] at hrest
    rw [parseRules, if_neg (by omega)]
    simp only [bind, Except.bind, parseRule_renders hrn (hdoc r (by simp)), hrest]

/-! ## Documents -/

/--
**Reading rules back.**  Every list of at most 64 rules within the schema can be written
down, and whichever way it is written, with the values as decimal literals or under their
names, with each operator as its prefix, with the keys of a mapping in any order and next
to keys the loader does not know, the loader reads exactly these rules, in this order.

SOURCE: rules.c:192-526.
-/
theorem rules_roundtrip (long : LongWidth) {rules : List DiagRule}
    (hlen : rules.length ≤ diagMaxRules)
    (hdoc : ∀ r ∈ rules, Documented long r) :
    (∃ nodes, List.Forall₂ RendersRule rules nodes) ∧
    ∀ nodes, List.Forall₂ RendersRule rules nodes →
      ∀ root, IsMapping root [("rules", some (.sequence nodes))] →
        diagRulesParse long {} (.ok (some root)) =
          { ret := rules.length, out := some rules, err := [] } := by
  refine ⟨exists_forall₂ fun r hr => exists_rendersRule (hdoc r hr), ?_⟩
  intro nodes hnodes root hroot
  have hget : mapGet (some root) "rules" = some (.sequence nodes) := hroot.get (by simp)
  have hparse : parseRules long (fun _ _ => true) [] nodes = .ok rules :=
    parseRules_renders hnodes hdoc [] (by simpa using hlen)
  simp only [diagRulesParse, hget, hparse, Bool.not_true, Bool.false_eq_true, if_false]

/-- A rule of each shape (docs/diag.md:56-91). -/
def sampleEvent : DiagRule where
  id := some "disconnect-after-errors".toList
  severity := .error
  trigger := { kind := some 4, matchList := [⟨.action, 1, .eq⟩] }
  whenList := [{ kind := some 1, matchList := [⟨.errorCount, 0, .ne⟩], statusIn := [-71, -84]
                 withinMs := some 2000, countGte := some 3 }]

def sampleDeadline : DiagRule where
  id := some "enum-stall".toList
  severity := .error
  type := .deadline
  dlReachedState := 6
  dlWithoutState := 7
  dlTimeoutMs := 3000

/-- A name and a number as scalar nodes. -/
def nameNode (s : String) : YamlNode := .scalar s.toList
def numberNode (v : ℤ) : YamlNode := .scalar (decimal v)

/-- `sampleEvent`, as the documentation writes it: its when item and the rule. -/
def sampleWhenNode : YamlNode :=
  mappingOf [("kind", some (nameNode "urb")),
    ("match", some (.mapping [(nameNode "error_count", nameNode "!0")])),
    ("status_in", some (.sequence [numberNode (-71), numberNode (-84)])),
    ("within_ms", some (numberNode 2000)), ("count_gte", some (numberNode 3)),
    ("min_span_ms", none), ("cluster_ms", none)]

def sampleEventNode : YamlNode :=
  mappingOf [("id", some (nameNode "disconnect-after-errors")), ("name", none),
    ("severity", some (nameNode "error")),
    ("trigger", some (.mapping [(nameNode "kind", nameNode "lifecycle"),
      (nameNode "action", nameNode "disconnect")])),
    ("when", some (.sequence [sampleWhenNode])),
    ("conclusion", none), ("fix", none), ("deadline", none)]

/-- `sampleDeadline`, as the documentation writes it: its deadline block and the rule. -/
def sampleBlockNode : YamlNode :=
  mappingOf [("kind", some (nameNode "enum")), ("reached_state", some (nameNode "ADDRESS")),
    ("without_state", some (nameNode "CONFIGURED")), ("timeout_ms", some (numberNode 3000))]

def sampleDeadlineNode : YamlNode :=
  mappingOf [("id", some (nameNode "enum-stall")), ("severity", some (nameNode "error")),
    ("deadline", some sampleBlockNode), ("name", none), ("conclusion", none), ("fix", none),
    ("trigger", none), ("when", none)]

theorem sampleEvent_documented (long : LongWidth) : Documented long sampleEvent := by
  have hsmall : ∀ v : ℤ, -100 ≤ v → v ≤ 2000 → long.Holds v := fun v hlo hhi =>
    LongWidth.holds_of_int (by omega) (by omega)
  have htrigger : DocumentedTrigger long sampleEvent.trigger := by
    refine ⟨⟨4, rfl, hsmall _ (by decide) (by decide)⟩, by decide, ?_, rfl⟩
    simp only [sampleEvent, List.mem_singleton, forall_eq]
    exact ⟨⟨by simp, hsmall _ (by decide) (by decide)⟩, by simp⟩
  refine ⟨by simp [sampleEvent], fun _ => ⟨htrigger, by decide, ?_, rfl, rfl, rfl⟩,
    by simp [sampleEvent]⟩
  simp only [sampleEvent, List.mem_singleton, forall_eq]
  constructor <;> simp [diagMaxMatch, diagMaxStatus, OptNonneg]
  · exact hsmall _ (by decide) (by decide)
  · exact ⟨by simp, hsmall _ (by decide) (by decide)⟩
  · exact ⟨hsmall _ (by decide) (by decide), hsmall _ (by decide) (by decide)⟩
  · exact hsmall _ (by decide) (by decide)
  · exact hsmall _ (by decide) (by decide)

theorem sampleDeadline_documented (long : LongWidth) : Documented long sampleDeadline :=
  ⟨by simp [sampleDeadline], by simp [sampleDeadline], fun _ => ⟨rfl, rfl,
    by norm_num [sampleDeadline], by norm_num [sampleDeadline],
    LongWidth.holds_of_int (by norm_num [sampleDeadline]) (by norm_num [sampleDeadline])⟩⟩

theorem sampleEvent_renders : RendersRule sampleEvent sampleEventNode := by
  have hlifecycle : Literal 4 "lifecycle".toList := .kind (by decide)
  have hurb : Literal 1 "urb".toList := .kind (by decide)
  have hdisconnect : Literal 1 "disconnect".toList := .symbol (by decide)
  have hzero : Literal 0 "0".toList := .decimal
  have htrigger : RendersTrigger sampleEvent.trigger
      (.mapping [(nameNode "kind", nameNode "lifecycle"),
        (nameNode "action", nameNode "disconnect")]) :=
    ⟨4, _, [], _, [], _, rfl, ⟨_, hlifecycle, rfl⟩, rfl, .nil,
      .cons ⟨"action".toList, _, by decide, hdisconnect, rfl⟩ .nil, rfl⟩
  have hmatches : RendersMatches [⟨.errorCount, 0, .ne⟩]
      (some (.mapping [(nameNode "error_count", nameNode "!0")])) :=
    .mapping (.cons ⟨"error_count".toList, _, by decide, hzero, rfl⟩ .nil)
  have hstatuses : RendersStatuses [-71, -84]
      (some (.sequence [numberNode (-71), numberNode (-84)])) :=
    .sequence (.cons (rendersValue_decimal _) (.cons (rendersValue_decimal _) .nil))
  have hkind : RendersKind (some 1) (some (nameNode "urb")) := .scalar ⟨_, hurb, rfl⟩
  have hwhen : List.Forall₂ RendersCond sampleEvent.whenList [sampleWhenNode] :=
    .cons ⟨_, _, _, hkind, hmatches, hstatuses, isMapping_mappingOf (by simp)⟩ .nil
  refine ⟨_, none, _, _, .error, .event htrigger (.sequence hwhen) rfl, _, ?_, ?_, rfl⟩
  · simp
  · simp [sampleEvent, nameNode]

theorem sampleDeadline_renders : RendersRule sampleDeadline sampleDeadlineNode := by
  have haddress : RendersValue 6 (nameNode "ADDRESS") := ⟨_, .symbol (by decide), rfl⟩
  have hconfigured : RendersValue 7 (nameNode "CONFIGURED") := ⟨_, .symbol (by decide), rfl⟩
  have hblock : RendersDeadline sampleDeadline sampleBlockNode := by
    refine ⟨_, _, haddress, .scalar hconfigured, _, ?_, ?_, rfl⟩
    · simp
    · simp [sampleDeadline, numberNode]
  refine ⟨_, _, none, none, .error, .deadline hblock rfl, _, ?_, ?_, rfl⟩
  · simp
  · simp [sampleDeadline, nameNode]

theorem rules_roundtrip_sample :
    (diagRulesParse .long64 {} (.ok (some (mappingOf
      [("rules", some (.sequence [sampleEventNode, sampleDeadlineNode]))])))).out =
      some [sampleEvent, sampleDeadline] := by
  have hdoc : ∀ r ∈ [sampleEvent, sampleDeadline], Documented .long64 r := by
    simpa using ⟨sampleEvent_documented _, sampleDeadline_documented _⟩
  rw [(rules_roundtrip .long64 (by decide) hdoc).2 _
    (.cons sampleEvent_renders (.cons sampleDeadline_renders .nil)) _
    (isMapping_mappingOf (by simp))]

end UsbTrace.Analysis

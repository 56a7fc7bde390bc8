import UsbTrace.Model.RulesParse
import UsbTrace.Library.Fold

/-!
# Rule documents

What it means to write a rule down.  A value is written as a decimal literal or under one
of its names, an operator as the prefix of a value, a condition, trigger, deadline or rule
as a mapping with its keys in any order; optional parts may be left out.  `RendersRule` is
that relation between rules and document nodes, and `Documented` the rules the schema
describes.
-/

set_option autoImplicit false

namespace UsbTrace.Interface

open UsbTrace.Model UsbTrace.Library

variable {long : LongWidth}

/-! ## Scalars -/

/-- The ways to write a value: its decimal literal, or a name from the symbol tables. -/
inductive Literal (v : ℤ) : CStr → Prop
  | decimal : Literal v (decimal v)
  | kind {s : CStr} (h : (s, v) ∈ kindSyms) : Literal v s
  | symbol {s : CStr} (h : (s, v) ∈ enumSyms) : Literal v s

/-- The prefix of an operator. -/
def opPrefix : DiagOp → CStr
  | .eq => []
  | .ne => ['!']
  | .gte => ['>', '=']
  | .lte => ['<', '=']

/-! ## Mappings -/

/-- The mapping with the given entries; an entry without a value is left out. -/
def mappingOf (es : List (String × Option YamlNode)) : YamlNode :=
  .mapping (es.filterMap fun e => e.2.map fun n => (.scalar e.1.toList, n))

/-- The node is a mapping with distinct keys, in some order, and has the entries `es`;
keys with no value in `es` are absent. -/
def IsMapping (n : YamlNode) (es : List (String × Option YamlNode)) : Prop :=
  ∃ all, (all.map Prod.fst).Nodup ∧ es ⊆ all ∧ n = mappingOf all

/-- **Looking up a key** of a mapping with distinct keys. -/
theorem mapGet_mappingOf {es : List (String × Option YamlNode)}
    (hnd : (es.map Prod.fst).Nodup) {key : String} {o : Option YamlNode} (h : (key, o) ∈ es) :
    mapGet (some (mappingOf es)) key = o := by
  induction es with
  | nil => cases h
  | cons e es ih =>
    obtain ⟨k, v⟩ := e
    rw [List.map_cons, List.nodup_cons] at hnd
    rcases List.mem_cons.mp h with heq | hmem
    · obtain ⟨rfl, rfl⟩ := Prod.mk.inj heq
      cases o with
      | some n => simp [mapGet, mappingOf, nodeScalar]
      | none =>
        -- no later entry has the key
        have hnone : (es.filterMap fun e => e.2.map fun n =>
            (YamlNode.scalar e.1.toList, n)).find?
              (fun p => nodeScalar (some p.1) = some key.toList) = none := by
          refine List.find?_eq_none.mpr fun p hp => ?_
          obtain ⟨e, he, hep⟩ := List.mem_filterMap.mp hp
          obtain ⟨n, -, rfl⟩ := Option.map_eq_some_iff.mp hep
          have hne : e.1 ≠ key := fun hk => hnd.1 (List.mem_map.mpr ⟨e, he, hk⟩)
          simpa [nodeScalar, String.toList_inj] using hne
        simpa [mapGet, mappingOf] using hnone
    · have hne : k ≠ key := fun hk => hnd.1 (hk ▸ List.mem_map.mpr ⟨_, hmem, rfl⟩)
      have hrest := ih hnd.2 hmem
      cases v with
      | none => simpa [mapGet, mappingOf] using hrest
      | some n => simpa [mapGet, mappingOf, nodeScalar, String.toList_inj, hne] using hrest

theorem IsMapping.get {n : YamlNode} {es : List (String × Option YamlNode)}
    (h : IsMapping n es) {key : String} {o : Option YamlNode} (hmem : (key, o) ∈ es) :
    mapGet (some n) key = o := by
  obtain ⟨all, hnd, hsub, rfl⟩ := h
  exact mapGet_mappingOf hnd (hsub hmem)

/-! ## Conditions and rules -/

/-- A constraint, as an entry of a match mapping or a trigger. -/
def RendersMatch (m : DiagMatch) (p : YamlNode × YamlNode) : Prop :=
  ∃ name s, (name, m.field) ∈ fieldSyms ∧ Literal m.value s ∧
    p = (.scalar name, .scalar (opPrefix m.op ++ s))

/-- The match mapping of a condition. -/
inductive RendersMatches : List DiagMatch → Option YamlNode → Prop
  | omitted : RendersMatches [] none
  | mapping {ms : List DiagMatch} {pairs : List (YamlNode × YamlNode)}
      (h : List.Forall₂ RendersMatch ms pairs) : RendersMatches ms (some (.mapping pairs))

/-- A scalar that writes a value. -/
def RendersValue (v : ℤ) (n : YamlNode) : Prop := ∃ s, Literal v s ∧ n = .scalar s

/-- The status list of a condition. -/
inductive RendersStatuses : List ℤ → Option YamlNode → Prop
  | omitted : RendersStatuses [] none
  | sequence {vs : List ℤ} {items : List YamlNode} (h : List.Forall₂ RendersValue vs items) :
      RendersStatuses vs (some (.sequence items))

/-- The kind of a condition, if it has one. -/
inductive RendersKind : Option UInt32 → Option YamlNode → Prop
  | omitted : RendersKind none none
  | scalar {k : UInt32} {n : YamlNode} (h : RendersValue k.toNat n) : RendersKind (some k) (some n)

/-- An optional number of a condition; these are read as numbers only. -/
def decimalNode (o : Option ℤ) : Option YamlNode := o.map fun v => .scalar (decimal v)

/-- A when item. -/
def RendersCond (c : DiagCond) (n : YamlNode) : Prop :=
  ∃ kind pairs statuses, RendersKind c.kind kind ∧ RendersMatches c.matchList pairs ∧
    RendersStatuses c.statusIn statuses ∧
    IsMapping n [("kind", kind), ("match", pairs), ("status_in", statuses),
      ("within_ms", decimalNode c.withinMs), ("count_gte", decimalNode c.countGte),
      ("min_span_ms", decimalNode c.minSpanMs), ("cluster_ms", decimalNode c.clusterMs)]

/-- A trigger: its kind among its constraints. -/
def RendersTrigger (c : DiagCond) (n : YamlNode) : Prop :=
  ∃ k kn ms₁ ms₂ ps₁ ps₂, c.kind = some k ∧ RendersValue (k.toNat : ℤ) kn ∧
    c.matchList = ms₁ ++ ms₂ ∧ List.Forall₂ RendersMatch ms₁ ps₁ ∧
    List.Forall₂ RendersMatch ms₂ ps₂ ∧
    n = .mapping (ps₁ ++ (.scalar "kind".toList, kn) :: ps₂)

/-- The when list of a rule. -/
inductive RendersWhens : List DiagCond → Option YamlNode → Prop
  | omitted : RendersWhens [] none
  | sequence {cs : List DiagCond} {items : List YamlNode} (h : List.Forall₂ RendersCond cs items) :
      RendersWhens cs (some (.sequence items))

/-- The severity of a rule; `info` is the default. -/
inductive RendersSeverity : DiagSeverity → Option YamlNode → Prop
  | omitted : RendersSeverity .info none
  | info : RendersSeverity .info (some (.scalar "info".toList))
  | warn : RendersSeverity .warn (some (.scalar "warn".toList))
  | warning : RendersSeverity .warn (some (.scalar "warning".toList))
  | error : RendersSeverity .error (some (.scalar "error".toList))
  | err : RendersSeverity .error (some (.scalar "err".toList))

/-- The state a deadline rule waits for, if it names one. -/
inductive RendersWithout : ℤ → Option YamlNode → Prop
  | omitted : RendersWithout (-1) none
  | scalar {v : ℤ} {n : YamlNode} (h : RendersValue v n) : RendersWithout v (some n)

/-- A deadline block. -/
def RendersDeadline (r : DiagRule) (n : YamlNode) : Prop :=
  ∃ reached without, RendersValue r.dlReachedState reached ∧
    RendersWithout r.dlWithoutState without ∧
    IsMapping n [("reached_state", some reached), ("without_state", without),
      ("timeout_ms", some (.scalar (decimal r.dlTimeoutMs)))]

/-- The body of a rule: a trigger with when conditions, or a deadline. -/
inductive RendersBody (r : DiagRule) :
    Option YamlNode → Option YamlNode → Option YamlNode → Prop
  | event {trigger : YamlNode} {whens : Option YamlNode} (ht : RendersTrigger r.trigger trigger)
      (hw : RendersWhens r.whenList whens) (htype : r.type = .event) :
      RendersBody r none (some trigger) whens
  | deadline {dl : YamlNode} (hd : RendersDeadline r dl) (htype : r.type = .deadline) :
      RendersBody r (some dl) none none

/-- A rule node. -/
def RendersRule (r : DiagRule) (n : YamlNode) : Prop :=
  ∃ severity deadline trigger whens, RendersSeverity r.severity severity ∧
    RendersBody r deadline trigger whens ∧
    IsMapping n [("id", r.id.map .scalar), ("name", r.name.map .scalar),
      ("conclusion", r.conclusion.map .scalar), ("fix", r.fix.map .scalar),
      ("severity", severity), ("deadline", deadline), ("trigger", trigger), ("when", whens)]

/-! ## The schema -/

/-- An optional nonnegative number. -/
def OptNonneg (long : LongWidth) (o : Option ℤ) : Prop :=
  ∀ v, o = some v → 0 ≤ v ∧ long.Holds v

/-- A constraint on a field that has a name, with a `long` to compare with. -/
structure DocumentedMatch (long : LongWidth) (m : DiagMatch) : Prop where
  field : m.field ≠ .none
  value : long.Holds m.value

/-- A when condition within the schema (docs/diag.md:93-103). -/
structure DocumentedCond (long : LongWidth) (c : DiagCond) : Prop where
  kind : ∀ k, c.kind = some k → long.Holds k.toNat
  matches_le : c.matchList.length ≤ diagMaxMatch
  matches_doc : ∀ m ∈ c.matchList, DocumentedMatch long m
  statuses_le : c.statusIn.length ≤ diagMaxStatus
  statuses : ∀ v ∈ c.statusIn, long.Holds v
  withinMs : OptNonneg long c.withinMs
  countGte : OptNonneg long c.countGte
  minSpanMs : OptNonneg long c.minSpanMs
  clusterMs : OptNonneg long c.clusterMs

/-- A trigger within the schema: a kind, and constraints on other fields. -/
structure DocumentedTrigger (long : LongWidth) (c : DiagCond) : Prop where
  kind : ∃ k, c.kind = some k ∧ long.Holds k.toNat
  matches_le : c.matchList.length ≤ diagMaxMatch
  matches_doc : ∀ m ∈ c.matchList, DocumentedMatch long m ∧ m.field ≠ .kind
  rest : c = { kind := c.kind, matchList := c.matchList }

/-- A rule within the schema (docs/diag.md:54-91) with values in the range of a `long`: an event
rule says nothing about deadlines and a deadline rule nothing about triggers. -/
structure Documented (long : LongWidth) (r : DiagRule) : Prop where
  id : r.id ≠ none
  event : r.type = .event → DocumentedTrigger long r.trigger ∧ r.whenList.length ≤ diagMaxWhen ∧
    (∀ c ∈ r.whenList, DocumentedCond long c) ∧
    r.dlReachedState = 0 ∧ r.dlWithoutState = 0 ∧ r.dlTimeoutMs = 0
  deadline : r.type = .deadline → r.trigger = {} ∧ r.whenList = [] ∧
    (0 ≤ r.dlReachedState ∧ r.dlReachedState ≤ 8) ∧
    (-1 ≤ r.dlWithoutState ∧ r.dlWithoutState ≤ 8) ∧
    long.Holds r.dlTimeoutMs

/-! ## Every rule within the schema can be written down -/

theorem fieldSyms_surjective (f : DiagField) (hf : f ≠ .none) : ∃ name, (name, f) ∈ fieldSyms := by
  have hall : ∀ f ∈ fieldSyms.map Prod.snd, ∃ name, (name, f) ∈ fieldSyms := by
    intro f hf
    obtain ⟨p, hp, rfl⟩ := List.mem_map.mp hf
    exact ⟨p.1, hp⟩
  refine hall f ?_
  cases f <;> first | exact absurd rfl hf | decide

/-- The mapping with just the given entries. -/
theorem isMapping_mappingOf {es : List (String × Option YamlNode)}
    (h : (es.map Prod.fst).Nodup) : IsMapping (mappingOf es) es :=
  ⟨es, h, fun _ he => he, rfl⟩

theorem exists_rendersMatch {m : DiagMatch} (h : DocumentedMatch long m) :
    ∃ p, RendersMatch m p := by
  obtain ⟨name, hname⟩ := fieldSyms_surjective m.field h.field
  exact ⟨_, name, _, hname, .decimal, rfl⟩

theorem rendersValue_decimal (v : ℤ) : RendersValue v (.scalar (decimal v)) :=
  ⟨_, .decimal, rfl⟩

theorem exists_rendersCond {c : DiagCond} (h : DocumentedCond long c) : ∃ n, RendersCond c n := by
  have hkind : ∃ kind, RendersKind c.kind kind := by
    cases c.kind with
    | none => exact ⟨_, .omitted⟩
    | some k => exact ⟨_, .scalar (rendersValue_decimal _)⟩
  obtain ⟨kind, hkind⟩ := hkind
  obtain ⟨pairs, hpairs⟩ := exists_forall₂ fun m hm => exists_rendersMatch (h.matches_doc m hm)
  obtain ⟨items, hitems⟩ := exists_forall₂ fun v (_ : v ∈ c.statusIn) =>
    (⟨_, rendersValue_decimal v⟩ : ∃ n, RendersValue v n)
  exact ⟨_, kind, _, _, hkind, .mapping hpairs, .sequence hitems,
    isMapping_mappingOf (by simp)⟩

theorem exists_rendersTrigger {c : DiagCond} (h : DocumentedTrigger long c) :
    ∃ n, RendersTrigger c n := by
  obtain ⟨k, hk, -⟩ := h.kind
  obtain ⟨pairs, hpairs⟩ := exists_forall₂ fun m hm =>
    exists_rendersMatch (h.matches_doc m hm).1
  exact ⟨_, k, _, [], c.matchList, [], pairs, hk, rendersValue_decimal _, rfl, .nil, hpairs, rfl⟩

theorem exists_rendersSeverity (v : DiagSeverity) : ∃ n, RendersSeverity v n := by
  cases v with
  | info => exact ⟨_, .info⟩
  | warn => exact ⟨_, .warn⟩
  | error => exact ⟨_, .error⟩

theorem exists_rendersBody {r : DiagRule} (h : Documented long r) :
    ∃ deadline trigger whens, RendersBody r deadline trigger whens := by
  cases htype : r.type with
  | event =>
    obtain ⟨htrigger, -, hwhens, -⟩ := h.event htype
    obtain ⟨trigger, ht⟩ := exists_rendersTrigger htrigger
    obtain ⟨items, hitems⟩ := exists_forall₂ fun c hc => exists_rendersCond (hwhens c hc)
    exact ⟨_, _, _, .event ht (.sequence hitems) htype⟩
  | deadline =>
    exact ⟨_, _, _, .deadline ⟨_, _, rendersValue_decimal _, .scalar (rendersValue_decimal _),
      isMapping_mappingOf (by simp)⟩ htype⟩

/-- **Every rule within the schema has a rendering.** -/
theorem exists_rendersRule {r : DiagRule} (h : Documented long r) : ∃ n, RendersRule r n := by
  obtain ⟨severity, hseverity⟩ := exists_rendersSeverity r.severity
  obtain ⟨deadline, trigger, whens, hbody⟩ := exists_rendersBody h
  exact ⟨_, severity, deadline, trigger, whens, hseverity, hbody, isMapping_mappingOf (by simp)⟩

end UsbTrace.Interface

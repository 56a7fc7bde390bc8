import UsbTrace.Model.RulesParse
import UsbTrace.Library.Fold

/-!
# What a parse that succeeds has read

One lemma for each function of the loader: where it succeeds, the nodes it has read, what
they resolved to, and its result in these terms.  Results about the loader are derived from
them and do not look into its functions.
-/

set_option autoImplicit false

namespace UsbTrace.Interface

open UsbTrace.Model UsbTrace.Library

/-- A scalar node. -/
theorem nodeScalar_eq_some {n : YamlNode} {s : CStr} :
    nodeScalar (some n) = some s ↔ n = .scalar s := by
  constructor
  · intro h
    cases n with
    | scalar value =>
      cases h
      rfl
    | sequence items => cases h
    | mapping pairs => cases h
  · rintro rfl
    rfl

/-! ## Conditions -/

variable {long : LongWidth} {c c' : DiagCond}

theorem setKind_ok {s : CStr} (h : setKind long c s = .ok c') :
    ∃ v, resolveValue long s = some v ∧ c' = { c with kind := some (UInt32.ofInt v) } := by
  unfold setKind at h
  split at h
  · cases h
  · next v hv =>
    cases h
    exact ⟨v, hv, rfl⟩

/-- A constraint that was added, and the room there was for it. -/
theorem addMatch_ok {field valstr : CStr} (h : addMatch long c field valstr = .ok c') :
    c.matchList.length < diagMaxMatch ∧ ∃ fid v, symLookup fieldSyms field = some fid ∧
      resolveValue long (splitOp valstr).2 = some v ∧
      c' = { c with matchList :=
        c.matchList ++ [{ field := fid, value := v, op := (splitOp valstr).1 }] } := by
  unfold addMatch at h
  split at h
  · cases h
  · next fid hfid =>
    dsimp only at h
    split at h
    · cases h
    · next v hv =>
      split at h
      · cases h
      · next hroom =>
        cases h
        exact ⟨Nat.lt_of_not_le hroom, fid, v, hfid, hv, rfl⟩

theorem matchEntry_ok {p : YamlNode × YamlNode} (h : matchEntry long c p = .ok c') :
    ∃ ks vs, p = (.scalar ks, .scalar vs) ∧ addMatch long c ks vs = .ok c' := by
  unfold matchEntry at h
  split at h
  · next ks vs hk hv =>
    exact ⟨ks, vs, Prod.ext (nodeScalar_eq_some.mp hk) (nodeScalar_eq_some.mp hv), h⟩
  · cases h

theorem parseMatchMap_ok {n : YamlNode} (h : parseMatchMap long c n = .ok c') :
    ∃ pairs, n = .mapping pairs ∧ pairs.foldlM (matchEntry long) c = .ok c' := by
  unfold parseMatchMap at h
  split at h
  · exact ⟨_, rfl, h⟩
  · cases h

/-- A status that was added, and the room there was for it. -/
theorem statusEntry_ok {e : YamlNode} (h : statusEntry long c e = .ok c') :
    c.statusIn.length < diagMaxStatus ∧ ∃ s v, e = .scalar s ∧ resolveValue long s = some v ∧
      c' = { c with statusIn := c.statusIn ++ [v] } := by
  unfold statusEntry at h
  split at h
  · cases h
  · next v hv =>
    split at h
    · cases h
    · next hroom =>
      cases h
      obtain ⟨s, hs, hv⟩ := Option.bind_eq_some_iff.mp hv
      exact ⟨Nat.lt_of_not_le hroom, s, v, nodeScalar_eq_some.mp hs, hv, rfl⟩

theorem parseStatusIn_ok {n : YamlNode} (h : parseStatusIn long c n = .ok c') :
    ∃ items, n = .sequence items ∧ items.foldlM (statusEntry long) c = .ok c' := by
  unfold parseStatusIn at h
  split at h
  · exact ⟨_, rfl, h⟩
  · cases h

/-- A part that may be left out leaves the condition as it is. -/
theorem parseOptional_ok {α : Type} {parse : DiagCond → α → Except CStr DiagCond} {n : Option α}
    (h : parseOptional parse n c = .ok c') :
    n = none ∧ c' = c ∨ ∃ m, n = some m ∧ parse c m = .ok c' := by
  cases n with
  | none =>
    cases h
    exact .inl ⟨rfl, rfl⟩
  | some m => exact .inr ⟨m, rfl, h⟩

/-- The parts of a when item, one after the other. -/
theorem parseWhen_ok {item : YamlNode} (h : parseWhen long item = .ok c) :
    ∃ c₁ c₂ c₃, parseOptional (setKind long) (nodeScalar (mapGet (some item) "kind")) {} = .ok c₁ ∧
      parseOptional (parseMatchMap long) (mapGet (some item) "match") c₁ = .ok c₂ ∧
      parseOptional (parseStatusIn long) (mapGet (some item) "status_in") c₂ = .ok c₃ ∧
      c = { c₃ with
        withinMs := scalarLong long (mapGet (some item) "within_ms")
        countGte := scalarLong long (mapGet (some item) "count_gte")
        minSpanMs := scalarLong long (mapGet (some item) "min_span_ms")
        clusterMs := scalarLong long (mapGet (some item) "cluster_ms") } := by
  unfold parseWhen at h
  split at h
  · obtain ⟨c₁, h₁, h⟩ := bind_eq_ok h
    obtain ⟨c₂, h₂, h⟩ := bind_eq_ok h
    obtain ⟨c₃, h₃, h⟩ := bind_eq_ok h
    cases h
    exact ⟨c₁, c₂, c₃, h₁, h₂, h₃, rfl⟩
  · cases h

/-- An entry of a trigger is its kind or a constraint. -/
theorem triggerEntry_ok {p : YamlNode × YamlNode} (h : triggerEntry long c p = .ok c') :
    ∃ ks vs, p = (.scalar ks, .scalar vs) ∧
      (ks = "kind".toList ∧ setKind long c vs = .ok c' ∨
        ks ≠ "kind".toList ∧ addMatch long c ks vs = .ok c') := by
  unfold triggerEntry at h
  split at h
  · next ks vs hk hv =>
    refine ⟨ks, vs, Prod.ext (nodeScalar_eq_some.mp hk) (nodeScalar_eq_some.mp hv), ?_⟩
    split at h
    · next hkind => exact .inl ⟨hkind, h⟩
    · next hkind => exact .inr ⟨hkind, h⟩
  · cases h

theorem parseTrigger_ok {n : Option YamlNode} (h : parseTrigger long n = .ok c) :
    ∃ pairs, n = some (.mapping pairs) ∧ pairs.foldlM (triggerEntry long) {} = .ok c ∧
      c.kind ≠ none := by
  unfold parseTrigger at h
  split at h
  · obtain ⟨c₁, h₁, h⟩ := bind_eq_ok h
    split at h
    · cases h
    · next hkind =>
      cases h
      exact ⟨_, rfl, h₁, hkind⟩
  · cases h

/-! ## Rules -/

theorem whenItem_ok {conds conds' : List DiagCond} {item : YamlNode}
    (h : whenItem long conds item = .ok conds') :
    conds.length < diagMaxWhen ∧ ∃ c, parseWhen long item = .ok c ∧ conds' = conds ++ [c] := by
  unfold whenItem at h
  split at h
  · cases h
  · next hroom =>
    obtain ⟨c, hc, h⟩ := bind_eq_ok h
    cases h
    exact ⟨Nat.lt_of_not_le hroom, c, hc, rfl⟩

theorem parseWhens_ok {n : Option YamlNode} {cs : List DiagCond} (h : parseWhens long n = .ok cs) :
    n = none ∧ cs = [] ∨
      ∃ items, n = some (.sequence items) ∧ items.foldlM (whenItem long) [] = .ok cs := by
  unfold parseWhens at h
  split at h
  · cases h
    exact .inl ⟨rfl, rfl⟩
  · exact .inr ⟨_, rfl, h⟩
  · cases h

/-- A deadline block sets the deadline fields only; the states are resolved, the second one
where it can be. -/
theorem parseDeadline_ok {dl : YamlNode} {r r' : DiagRule} (h : parseDeadline long dl r = .ok r') :
    ∃ s v t, nodeScalar (mapGet (some dl) "reached_state") = some s ∧ resolveValue long s = some v ∧
      nodeScalar (mapGet (some dl) "timeout_ms") = some t ∧
      r' = { r with
        type := .deadline
        dlReachedState := toInt v
        dlWithoutState :=
          match (nodeScalar (mapGet (some dl) "without_state")).bind (resolveValue long) with
          | none => -1
          | some v => toInt v
        dlTimeoutMs := (strtol long.bits t).value } := by
  unfold parseDeadline at h
  split at h
  · cases h
  · next v hv =>
    obtain ⟨s, hs, hv⟩ := Option.bind_eq_some_iff.mp hv
    dsimp only at h
    split at h
    · cases h
    · next ms hms =>
      obtain ⟨t, ht, rfl⟩ := Option.map_eq_some_iff.mp hms
      cases h
      exact ⟨s, v, t, hs, hv, ht, rfl⟩

/-- A rule has an id, and is a deadline or a trigger with when conditions. -/
theorem parseRule_ok {alloc : RuleText → Bool} {rn : YamlNode} {r : DiagRule}
    (h : parseRule long alloc rn = .ok r) :
    r.id ≠ none ∧
    ((∃ dl r₀, mapGet (some rn) "deadline" = some dl ∧ parseDeadline long dl r₀ = .ok r ∧
        r₀.trigger = {} ∧ r₀.whenList = []) ∨
      (mapGet (some rn) "deadline" = none ∧ r.type = .event ∧
        parseTrigger long (mapGet (some rn) "trigger") = .ok r.trigger ∧
        parseWhens long (mapGet (some rn) "when") = .ok r.whenList)) := by
  unfold parseRule at h
  dsimp only at h
  split at h
  · cases h
  · next hid =>
    split at h
    · next dl hdl =>
      refine ⟨?_, .inl ⟨dl, _, hdl, h, rfl, rfl⟩⟩
      obtain ⟨s, v, t, -, -, -, rfl⟩ := parseDeadline_ok h
      exact hid
    · next hdl =>
      obtain ⟨trigger, htrigger, h⟩ := bind_eq_ok h
      obtain ⟨conds, hconds, h⟩ := bind_eq_ok h
      cases h
      exact ⟨hid, .inr ⟨hdl, rfl, htrigger, hconds⟩⟩

/-- Up to the limit every node becomes a rule. -/
theorem parseRules_ok {texts : ℕ → RuleText → Bool} {arr rules : List DiagRule}
    {nodes : List YamlNode} (h : parseRules long texts arr nodes = .ok rules) :
    ∃ rs, rules = arr ++ rs ∧ List.Forall₂ (fun rn r => ∃ alloc, parseRule long alloc rn = .ok r)
      (nodes.take (diagMaxRules - arr.length)) rs := by
  induction nodes generalizing arr with
  | nil =>
    cases h
    exact ⟨[], (List.append_nil rules).symm, by rw [List.take_nil]; exact .nil⟩
  | cons rn rest ih =>
    rw [parseRules] at h
    split at h
    · next hfull =>
      cases h
      refine ⟨[], (List.append_nil rules).symm, ?_⟩
      rw [Nat.sub_eq_zero_of_le hfull, List.take_zero]
      exact .nil
    · next hroom =>
      obtain ⟨r, hr, h⟩ := bind_eq_ok h
      obtain ⟨rs, rfl, hrs⟩ := ih h
      refine ⟨r :: rs, (List.append_cons arr r rs).symm, ?_⟩
      rw [List.length_append, List.length_singleton] at hrs
      rw [show diagMaxRules - arr.length = diagMaxRules - (arr.length + 1) + 1 by omega,
        List.take_succ_cons]
      exact .cons ⟨_, hr⟩ hrs

/-- A document that is accepted has a list of rules. -/
theorem diagRulesParse_ok {alloc : RulesAlloc} {load : Except CStr (Option YamlNode)}
    {rules : List DiagRule} (h : (diagRulesParse long alloc load).out = some rules) :
    ∃ root items, load = .ok (some root) ∧ mapGet (some root) "rules" = some (.sequence items) ∧
      List.Forall₂ (fun rn r => ∃ alloc, parseRule long alloc rn = .ok r)
        (items.take diagMaxRules) rules := by
  unfold diagRulesParse at h
  split at h
  · cases h
  · split at h
    · cases h
    · cases h
    · next root =>
      split at h
      · next items hitems =>
        split at h
        · cases h
        · split at h
          · cases h
          · next arr harr =>
            cases h
            obtain ⟨rs, rfl, hrs⟩ := parseRules_ok harr
            exact ⟨root, items, rfl, hitems, hrs⟩
      · cases h

end UsbTrace.Interface

import UsbTrace.Interface.RuleParse

/-!
# What the loader promises the engine

The engine indexes the arrays of a rule with the lengths the rule carries and never checks
them.  `BoundedRules` is what it relies on, and `diagRulesParse_bounded` says that the
loader provides it whatever the document is.
-/

set_option autoImplicit false

namespace UsbTrace.Interface

open UsbTrace.Model UsbTrace.Library

variable {long : LongWidth}

/-- The lengths of a condition are within its arrays. -/
structure BoundedCond (c : DiagCond) : Prop where
  matches_le : c.matchList.length ≤ diagMaxMatch
  statuses_le : c.statusIn.length ≤ diagMaxStatus

/-- A rule with an id, with its lengths within its arrays, and with a trigger kind if it is
an event rule. -/
structure BoundedRule (r : DiagRule) : Prop where
  id : r.id ≠ none
  trigger : BoundedCond r.trigger
  whens_le : r.whenList.length ≤ diagMaxWhen
  whens : ∀ c ∈ r.whenList, BoundedCond c
  kind : r.type = .event → r.trigger.kind ≠ none

/-- A rule array within the limits. -/
structure BoundedRules (rules : List DiagRule) : Prop where
  length_le : rules.length ≤ diagMaxRules
  rule : ∀ r ∈ rules, BoundedRule r

/-- What `diag_rules_parse` may leave its caller: a failure without an array, or an array
of as many bounded rules as it returns. -/
def ParseBounded (o : ParseOutcome) : Prop :=
  (o.ret = -1 ∧ o.out = none) ∨
    ∃ rules, o.out = some rules ∧ o.ret = rules.length ∧ BoundedRules rules

/-! ## Conditions -/

theorem boundedCond_empty : BoundedCond {} := ⟨Nat.zero_le _, Nat.zero_le _⟩

/-- A constraint is added only where there is room. -/
theorem addMatch_bounded {c c' : DiagCond} {field valstr : CStr} (hc : BoundedCond c)
    (h : addMatch long c field valstr = .ok c') : BoundedCond c' := by
  obtain ⟨hroom, fid, v, -, -, rfl⟩ := addMatch_ok h
  refine ⟨?_, hc.statuses_le⟩
  rw [List.length_append, List.length_singleton]
  omega

theorem matchEntry_bounded {c c' : DiagCond} {p : YamlNode × YamlNode} (hc : BoundedCond c)
    (h : matchEntry long c p = .ok c') : BoundedCond c' := by
  obtain ⟨ks, vs, -, h⟩ := matchEntry_ok h
  exact addMatch_bounded hc h

theorem parseMatchMap_bounded {c c' : DiagCond} {n : YamlNode} (hc : BoundedCond c)
    (h : parseMatchMap long c n = .ok c') : BoundedCond c' := by
  obtain ⟨pairs, -, h⟩ := parseMatchMap_ok h
  exact foldlM_ok_inv (fun _ _ _ hs hb => matchEntry_bounded hs hb) hc h

/-- A status is added only where there is room. -/
theorem statusEntry_bounded {c c' : DiagCond} {e : YamlNode} (hc : BoundedCond c)
    (h : statusEntry long c e = .ok c') : BoundedCond c' := by
  obtain ⟨hroom, s, v, -, -, rfl⟩ := statusEntry_ok h
  refine ⟨hc.matches_le, ?_⟩
  rw [List.length_append, List.length_singleton]
  omega

theorem parseStatusIn_bounded {c c' : DiagCond} {n : YamlNode} (hc : BoundedCond c)
    (h : parseStatusIn long c n = .ok c') : BoundedCond c' := by
  obtain ⟨items, -, h⟩ := parseStatusIn_ok h
  exact foldlM_ok_inv (fun _ _ _ hs hb => statusEntry_bounded hs hb) hc h

theorem setKind_bounded {c c' : DiagCond} {s : CStr} (hc : BoundedCond c)
    (h : setKind long c s = .ok c') : BoundedCond c' := by
  obtain ⟨v, -, rfl⟩ := setKind_ok h
  exact ⟨hc.matches_le, hc.statuses_le⟩

/-- A part that may be left out keeps the bounds if it does when present. -/
theorem parseOptional_bounded {α : Type} {parse : DiagCond → α → Except CStr DiagCond}
    (hparse : ∀ {c c' n}, BoundedCond c → parse c n = .ok c' → BoundedCond c')
    {n : Option α} {c c' : DiagCond} (hc : BoundedCond c)
    (h : parseOptional parse n c = .ok c') : BoundedCond c' := by
  rcases parseOptional_ok h with ⟨-, rfl⟩ | ⟨m, -, h⟩
  · exact hc
  · exact hparse hc h

/-- **A when condition that parses is bounded.** -/
theorem parseWhen_bounded {item : YamlNode} {c : DiagCond} (h : parseWhen long item = .ok c) :
    BoundedCond c := by
  obtain ⟨c₁, c₂, c₃, h₁, h₂, h₃, rfl⟩ := parseWhen_ok h
  have hb₁ := parseOptional_bounded setKind_bounded boundedCond_empty h₁
  have hb₂ := parseOptional_bounded parseMatchMap_bounded hb₁ h₂
  have hb₃ := parseOptional_bounded parseStatusIn_bounded hb₂ h₃
  exact ⟨hb₃.matches_le, hb₃.statuses_le⟩

theorem triggerEntry_bounded {c c' : DiagCond} {p : YamlNode × YamlNode} (hc : BoundedCond c)
    (h : triggerEntry long c p = .ok c') : BoundedCond c' := by
  obtain ⟨ks, vs, -, ⟨-, h⟩ | ⟨-, h⟩⟩ := triggerEntry_ok h
  · exact setKind_bounded hc h
  · exact addMatch_bounded hc h

/-- **A trigger that parses is bounded and has a kind.** -/
theorem parseTrigger_bounded {n : Option YamlNode} {c : DiagCond}
    (h : parseTrigger long n = .ok c) :
    BoundedCond c ∧ c.kind ≠ none := by
  obtain ⟨pairs, -, h, hkind⟩ := parseTrigger_ok h
  exact ⟨foldlM_ok_inv (fun _ _ _ hs hb => triggerEntry_bounded hs hb) boundedCond_empty h, hkind⟩

/-! ## Rules -/

/-- A when list that parses has at most 8 conditions, all bounded. -/
theorem parseWhens_bounded {n : Option YamlNode} {cs : List DiagCond}
    (h : parseWhens long n = .ok cs) :
    cs.length ≤ diagMaxWhen ∧ ∀ c ∈ cs, BoundedCond c := by
  have hstep : ∀ (cs : List DiagCond) (item : YamlNode) (cs' : List DiagCond),
      (cs.length ≤ diagMaxWhen ∧ ∀ c ∈ cs, BoundedCond c) → whenItem long cs item = .ok cs' →
      cs'.length ≤ diagMaxWhen ∧ ∀ c ∈ cs', BoundedCond c := by
    intro cs item cs' ⟨_, hcs⟩ hitem
    obtain ⟨hroom, c, hc, rfl⟩ := whenItem_ok hitem
    refine ⟨?_, ?_⟩
    · rw [List.length_append, List.length_singleton]
      omega
    · rw [List.forall_mem_append, List.forall_mem_singleton]
      exact ⟨hcs, parseWhen_bounded hc⟩
  rcases parseWhens_ok h with ⟨-, rfl⟩ | ⟨items, -, h⟩
  · exact ⟨Nat.zero_le _, List.forall_mem_nil _⟩
  · exact foldlM_ok_inv hstep ⟨Nat.zero_le _, List.forall_mem_nil _⟩ h

/-- **A rule that parses is bounded.** -/
theorem parseRule_bounded {alloc : RuleText → Bool} {rn : YamlNode} {r : DiagRule}
    (h : parseRule long alloc rn = .ok r) : BoundedRule r := by
  obtain ⟨hid, ⟨dl, r₀, -, hdl, htrigger, hwhens⟩ | ⟨-, -, htrigger, hwhens⟩⟩ := parseRule_ok h
  · obtain ⟨s, v, t, -, -, -, rfl⟩ := parseDeadline_ok hdl
    refine ⟨hid, by rw [htrigger]; exact boundedCond_empty, ?_, ?_, ?_⟩
    · rw [hwhens]
      exact Nat.zero_le _
    · rw [hwhens]
      exact List.forall_mem_nil _
    · intro hevent
      cases hevent
  · obtain ⟨hlen, hall⟩ := parseWhens_bounded hwhens
    obtain ⟨hbounded, hkind⟩ := parseTrigger_bounded htrigger
    exact ⟨hid, hbounded, hlen, hall, fun _ => hkind⟩

/-- The rules of a list that parses are bounded and at most 64, with those read before. -/
theorem parseRules_bounded {texts : ℕ → RuleText → Bool} {arr rules : List DiagRule}
    {nodes : List YamlNode} (harr : BoundedRules arr)
    (h : parseRules long texts arr nodes = .ok rules) : BoundedRules rules := by
  obtain ⟨rs, rfl, hrs⟩ := parseRules_ok h
  have hlen := hrs.length_eq
  have hboth : List.Forall₂
      (fun r rn => BoundedRule r ∧ ∃ alloc, parseRule long alloc rn = .ok r) rs
      (nodes.take (diagMaxRules - arr.length)) := by
    refine hrs.flip.imp fun r rn hr => ?_
    obtain ⟨alloc, hparse⟩ := hr
    exact ⟨parseRule_bounded hparse, alloc, hparse⟩
  have hall : ∀ r ∈ rs, BoundedRule r := ((List.forall₂_and_left rs _).mp hboth).1
  refine ⟨?_, List.forall_mem_append.mpr ⟨harr.rule, hall⟩⟩
  have hroom := harr.length_le
  rw [List.length_take] at hlen
  rw [List.length_append]
  omega

/-- **Whatever the document is, the loader fails or returns a bounded rule array.** -/
theorem diagRulesParse_bounded (long : LongWidth) (alloc : RulesAlloc)
    (load : Except CStr (Option YamlNode)) : ParseBounded (diagRulesParse long alloc load) := by
  unfold diagRulesParse
  split
  · exact .inl ⟨rfl, rfl⟩
  · split
    · exact .inl ⟨rfl, rfl⟩
    · exact .inl ⟨rfl, rfl⟩
    · split
      · split
        · exact .inl ⟨rfl, rfl⟩
        · split
          · exact .inl ⟨rfl, rfl⟩
          · next h =>
            exact .inr ⟨_, rfl, rfl, parseRules_bounded ⟨Nat.zero_le _, by simp⟩ h⟩
      · exact .inl ⟨rfl, rfl⟩

end UsbTrace.Interface

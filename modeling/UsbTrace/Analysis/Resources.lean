import UsbTrace.Model.DiagRun
import UsbTrace.Interface.RuleParse

/-!
# What diag gives back

`diag_run` opens a file, a YAML document, up to nine probes, a consumer and its buffers, and
leaves from many places.  On every way out all of it is released, once, and nothing that is
not held is released, but for one thing: the texts of a rule that does not parse, which
`parse_rule` has duplicated and nobody frees (`diagRun_held`).
-/

set_option autoImplicit false

namespace UsbTrace.Analysis

open UsbTrace.Model UsbTrace.Library UsbTrace.Interface

variable {long : LongWidth}

/-! ## The rules -/

/-- A rule that parses holds the texts `parse_rule` duplicated. -/
theorem parseRule_text {alloc : RuleText → Bool} {rn : YamlNode} {r : DiagRule}
    (h : parseRule long alloc rn = .ok r) (t : RuleText) : r.text t = dupScalar alloc rn t := by
  unfold parseRule at h
  dsimp only at h
  split at h
  · cases h
  · split at h
    · obtain ⟨s, v, ms, -, -, -, rfl⟩ := parseDeadline_ok h
      cases t <;> rfl
    · obtain ⟨trigger, -, h⟩ := bind_eq_ok h
      obtain ⟨conds, -, h⟩ := bind_eq_ok h
      cases h
      cases t <;> rfl

theorem dupTexts_eq {alloc : RuleText → Bool} {rn : YamlNode} {r : DiagRule}
    (h : parseRule long alloc rn = .ok r) (i : ℕ) : dupTexts alloc i rn = heldTexts i r := by
  rw [dupTexts, heldTexts]
  refine congrArg (List.map _) (List.filter_congr fun t _ => ?_)
  rw [parseRule_text h t]

/-- The texts of all rules, from the `i`-th place on. -/
def ruleTexts (i : ℕ) (rules : List DiagRule) : List Resource :=
  (rules.zipIdx i).flatMap fun p => heldTexts p.2 p.1

/-- What a rule array holds. -/
def rulesHeld (rules : List DiagRule) : List Resource := ruleTexts 0 rules ++ [.ruleArray]

theorem diagRulesFree_eq (rules : List DiagRule) :
    diagRulesFree rules = (rulesHeld rules).map .release := by
  rw [rulesHeld, List.map_append]
  rfl

theorem ruleTexts_concat (i : ℕ) (rules : List DiagRule) (r : DiagRule) :
    ruleTexts i (rules ++ [r]) = ruleTexts i rules ++ heldTexts (i + rules.length) r := by
  rw [ruleTexts, List.zipIdx_append, List.flatMap_append, List.zipIdx_singleton,
    List.flatMap_singleton]
  rfl

theorem mem_dupTexts {alloc : RuleText → Bool} {i : ℕ} {rn : YamlNode} {x : Resource}
    (h : x ∈ dupTexts alloc i rn) :
    ∃ t, x = .ruleText i t := by
  obtain ⟨t, -, rfl⟩ := List.mem_map.mp h
  exact ⟨t, rfl⟩

theorem mem_heldTexts {i : ℕ} {r : DiagRule} {x : Resource} (h : x ∈ heldTexts i r) :
    ∃ t, x = .ruleText i t := by
  obtain ⟨t, -, rfl⟩ := List.mem_map.mp h
  exact ⟨t, rfl⟩

theorem mem_ruleTexts {i : ℕ} {rules : List DiagRule} {x : Resource} (h : x ∈ ruleTexts i rules) :
    ∃ j t, i ≤ j ∧ j < i + rules.length ∧ x = .ruleText j t := by
  obtain ⟨p, hp, hx⟩ := List.mem_flatMap.mp h
  obtain ⟨t, rfl⟩ := mem_heldTexts hx
  obtain ⟨hlo, hhi, -⟩ := List.mem_zipIdx hp
  exact ⟨p.2, t, hlo, by omega, rfl⟩

theorem ruleText_injective (i : ℕ) : Function.Injective (Resource.ruleText i) :=
  fun _ _ h => (Resource.ruleText.inj h).2

theorem nodup_dupTexts (alloc : RuleText → Bool) (i : ℕ) (rn : YamlNode) :
    (dupTexts alloc i rn).Nodup :=
  ((by decide : RuleText.all.Nodup).filter _).map (ruleText_injective i)

theorem nodup_heldTexts (i : ℕ) (r : DiagRule) : (heldTexts i r).Nodup :=
  ((by decide : RuleText.all.Nodup).filter _).map (ruleText_injective i)

theorem nodup_rulesHeld (rules : List DiagRule) : (rulesHeld rules).Nodup := by
  have htexts : (ruleTexts 0 rules).Nodup := by
    induction rules using List.reverseRecOn with
    | nil => exact List.nodup_nil
    | append_singleton rules r ih =>
      rw [ruleTexts_concat]
      refine List.nodup_append.mpr ⟨ih, nodup_heldTexts _ r, ?_⟩
      intro x hx y hy heq
      obtain ⟨j, t, -, hlt, rfl⟩ := mem_ruleTexts hx
      obtain ⟨t', rfl⟩ := mem_heldTexts hy
      have := (Resource.ruleText.inj heq).1
      omega
  refine List.nodup_append.mpr ⟨htexts, List.nodup_singleton _, ?_⟩
  intro x hx y hy heq
  obtain ⟨j, t, -, -, rfl⟩ := mem_ruleTexts hx
  obtain rfl := List.mem_singleton.mp hy
  cases heq

/-- The resources of a rule array and its texts. -/
def ofRules : Resource → Bool
  | .ruleArray | .ruleText .. => true
  | _ => false

theorem ofRules_of_held {rules : List DiagRule} {x : Resource} (h : x ∈ rulesHeld rules) :
    ofRules x = true := by
  rcases List.mem_append.mp h with h | h
  · obtain ⟨j, t, -, -, rfl⟩ := mem_ruleTexts h
    rfl
  · rw [List.mem_singleton.mp h]
    rfl

/-- The texts of the first rule that does not parse, if the loader comes to it. -/
def leftTexts (long : LongWidth) (texts : ℕ → RuleText → Bool) (i : ℕ) :
    List YamlNode → List Resource
  | [] => []
  | rn :: rest =>
    if i ≥ diagMaxRules then []
    else match parseRule long (texts i) rn with
      | .error _ => dupTexts (texts i) i rn
      | .ok _ => leftTexts long texts (i + 1) rest

/-- What the loop over the rule nodes holds at its end: the rules, or what it leaves behind. -/
def loopHeld (long : LongWidth) (texts : ℕ → RuleText → Bool) (arr : List DiagRule)
    (items : List YamlNode) : List Resource :=
  match parseRules long texts arr items with
  | .ok rules => rulesHeld rules
  | .error _ => leftTexts long texts arr.length items

/-- The texts of the next rule are none of those held. -/
theorem dupTexts_fresh {F : Finset Resource} (hF : ∀ x ∈ F, ofRules x = false)
    (alloc : RuleText → Bool) (arr : List DiagRule) (rn : YamlNode) :
    ∀ x ∈ dupTexts alloc arr.length rn, x ∉ F ∪ (rulesHeld arr).toFinset := by
  intro x hx hmem
  obtain ⟨t, rfl⟩ := mem_dupTexts hx
  rcases Finset.mem_union.mp hmem with hmem | hmem
  · cases hF _ hmem
  · rcases List.mem_append.mp (List.mem_toFinset.mp hmem) with hmem | hmem
    · obtain ⟨j, t', -, hlt, heq⟩ := mem_ruleTexts hmem
      have := (Resource.ruleText.inj heq).1
      omega
    · cases List.mem_singleton.mp hmem

theorem rulesLoopUses_held {F : Finset Resource} (hF : ∀ x ∈ F, ofRules x = false)
    (texts : ℕ → RuleText → Bool) (arr : List DiagRule) (items : List YamlNode) :
    heldAfter (F ∪ (rulesHeld arr).toFinset) (rulesLoopUses long texts arr items) =
      some (F ∪ (loopHeld long texts arr items).toFinset) := by
  induction items generalizing arr with
  | nil => rfl
  | cons rn rest ih =>
    have hfresh := dupTexts_fresh hF (texts arr.length) arr rn
    rw [rulesLoopUses, loopHeld, parseRules, leftTexts]
    split
    · rfl
    · rw [heldAfter_append (heldAfter_acquires (nodup_dupTexts _ _ rn) hfresh)]
      cases hparse : parseRule long (texts arr.length) rn with
      | error err =>
        -- the texts of the failing rule stay where the rules before it were
        dsimp only [bind, Except.bind]
        rw [diagRulesFree_eq, Finset.union_right_comm]
        refine heldAfter_giveBack (nodup_rulesHeld arr) fun x hx hmem => ?_
        rcases Finset.mem_union.mp hmem with hmem | hmem
        · have := hF x hmem
          rw [ofRules_of_held hx] at this
          cases this
        · exact hfresh x (List.mem_toFinset.mp hmem)
            (Finset.mem_union_right _ (List.mem_toFinset.mpr hx))
      | ok r =>
        have hheld : F ∪ (rulesHeld arr).toFinset ∪
              (dupTexts (texts arr.length) arr.length rn).toFinset =
            F ∪ (rulesHeld (arr ++ [r])).toFinset := by
          rw [dupTexts_eq hparse, rulesHeld, rulesHeld, ruleTexts_concat, Nat.zero_add,
            Finset.union_assoc, ← List.toFinset_append]
          congr 1
          ext x
          simp only [List.mem_toFinset, List.mem_append]
          tauto
        have hrest := ih (arr ++ [r])
        rw [loopHeld, List.length_append] at hrest
        rw [hheld]
        exact hrest

/-- The texts a load leaves behind. -/
def parseLeft (long : LongWidth) (alloc : RulesAlloc) (load : Except CStr (Option YamlNode)) :
    List Resource :=
  if !alloc.parser || !alloc.array then []
  else match load with
    | .error _ => []
    | .ok root => ((rulesNodes root).map (leftTexts long alloc.texts 0)).getD []

/-- The loader's result, read at the top-level list. -/
theorem diagRulesParse_out {alloc : RulesAlloc} (hparser : alloc.parser = true)
    (root : Option YamlNode) :
    (diagRulesParse long alloc (.ok root)).out =
      (rulesNodes root).bind fun items =>
        if alloc.array then (parseRules long alloc.texts [] items).toOption else none := by
  unfold diagRulesParse
  simp only [hparser, Bool.not_true, Bool.false_eq_true, if_false]
  cases root with
  | none => rfl
  | some root =>
    dsimp only
    rw [rulesNodes, Option.bind_some]
    cases mapGet (some root) "rules" with
    | none => rfl
    | some v =>
      cases v with
      | sequence items =>
        dsimp only [Option.bind_some]
        cases alloc.array with
        | false => rfl
        | true => cases parseRules long alloc.texts [] items <;> rfl
      | _ => rfl

theorem ofRules_of_left {texts : ℕ → RuleText → Bool} {i : ℕ} {items : List YamlNode}
    {x : Resource} (h : x ∈ leftTexts long texts i items) : ofRules x = true := by
  induction items generalizing i with
  | nil => exact absurd h List.not_mem_nil
  | cons rn rest ih =>
    rw [leftTexts] at h
    split at h
    · exact absurd h List.not_mem_nil
    · split at h
      · obtain ⟨t, rfl⟩ := mem_dupTexts h
        rfl
      · exact ih h

theorem ofRules_of_parseLeft {alloc : RulesAlloc} {load : Except CStr (Option YamlNode)}
    {x : Resource} (h : x ∈ parseLeft long alloc load) : ofRules x = true := by
  unfold parseLeft at h
  split at h
  · exact absurd h List.not_mem_nil
  · cases load with
    | error problem => exact absurd h List.not_mem_nil
    | ok root =>
      dsimp only at h
      cases hnodes : rulesNodes root with
      | none =>
        rw [hnodes] at h
        exact absurd h List.not_mem_nil
      | some items =>
        rw [hnodes] at h
        exact ofRules_of_left h

/-- What a load holds in the end. -/
def loadHeld (rules : Option (List DiagRule)) (left : List Resource) : List Resource :=
  match rules with
  | some rules => rulesHeld rules
  | none => left

theorem ofRules_of_loadHeld {rules : Option (List DiagRule)} {alloc : RulesAlloc}
    {load : Except CStr (Option YamlNode)} {x : Resource}
    (h : x ∈ loadHeld rules (parseLeft long alloc load)) : ofRules x = true := by
  cases rules with
  | none => exact ofRules_of_parseLeft h
  | some rules => exact ofRules_of_held h

variable (long) in
/-- The part of the load between the document and its end. -/
theorem documentUses_held {F : Finset Resource} (hF : ∀ x ∈ F, ofRules x = false)
    {alloc : RulesAlloc} (hparser : alloc.parser = true) (root : Option YamlNode) :
    heldAfter F (documentUses long alloc root) =
      some (F ∪ (loadHeld (diagRulesParse long alloc (.ok root)).out
        (parseLeft long alloc (.ok root))).toFinset) := by
  rw [documentUses, diagRulesParse_out hparser, parseLeft, hparser]
  cases rulesNodes root with
  | none => cases alloc.array <;> simp [loadHeld]
  | some items =>
    have harray : Resource.ruleArray ∉ F := fun h => by cases hF _ h
    have hstart : insert Resource.ruleArray F = F ∪ (rulesHeld []).toFinset := by
      ext x
      simp [rulesHeld, ruleTexts]
    cases alloc.array with
    | false => simp [loadHeld]
    | true =>
      simp only [Bool.not_true, Bool.false_eq_true, if_false, if_true, Option.bind_some,
        Bool.or_self, Option.map_some, Option.getD_some]
      rw [heldAfter_acquire harray, hstart, rulesLoopUses_held hF, loopHeld]
      cases parseRules long alloc.texts [] items <;> rfl

variable (long) in
theorem rulesParseUses_held {F : Finset Resource} (hF : ∀ x ∈ F, ofRules x = false)
    (hparser : Resource.yamlParser ∉ F) (hdoc : Resource.yamlDocument ∉ F) (alloc : RulesAlloc)
    (load : Except CStr (Option YamlNode)) :
    heldAfter F (rulesParseUses long alloc load) =
      some (F ∪ (loadHeld (diagRulesParse long alloc load).out
        (parseLeft long alloc load)).toFinset) := by
  unfold rulesParseUses
  cases hinit : alloc.parser with
  | false => simp [diagRulesParse, hinit, parseFail, loadHeld, parseLeft]
  | true =>
    simp only [Bool.not_true, Bool.false_eq_true, if_false]
    cases load with
    | error problem =>
      rw [heldAfter_brief hparser]
      simp [diagRulesParse, hinit, parseFail, loadHeld, parseLeft]
    | ok root =>
      have hopen : heldAfter F [.acquire .yamlParser, .acquire .yamlDocument] =
          some (insert .yamlDocument (insert .yamlParser F)) := by
        rw [heldAfter_acquire hparser, heldAfter_acquire (by simp [hdoc])]
        rfl
      have hframe : ∀ x ∈ insert Resource.yamlDocument (insert Resource.yamlParser F),
          ofRules x = false := by
        intro x hx
        rcases Finset.mem_insert.mp hx with rfl | hx
        · rfl
        · rcases Finset.mem_insert.mp hx with rfl | hx
          · rfl
          · exact hF x hx
      have hmid := (heldAfter_append hopen _).trans
        (documentUses_held long hframe hinit root)
      dsimp only
      rw [heldAfter_append hmid]
      have hheld : ∀ held : Finset Resource,
          insert Resource.yamlDocument (insert Resource.yamlParser F) ∪ held =
            F ∪ held ∪ [Resource.yamlDocument, Resource.yamlParser].toFinset := by
        intro held
        ext x
        simp only [Finset.mem_union, Finset.mem_insert, List.mem_toFinset, List.mem_cons,
          List.not_mem_nil, or_false]
        tauto
      rw [hheld]
      refine heldAfter_giveBack (by decide) fun x hx hmem => ?_
      have hnot : ofRules x = false := by
        rcases List.mem_cons.mp hx with rfl | hx
        · rfl
        · rw [List.mem_singleton.mp hx]
          rfl
      rcases Finset.mem_union.mp hmem with hmem | hmem
      · rcases List.mem_cons.mp hx with rfl | hx
        · exact hdoc hmem
        · rw [List.mem_singleton.mp hx] at hmem
          exact hparser hmem
      · rw [ofRules_of_loadHeld (List.mem_toFinset.mp hmem)] at hnot
        cases hnot

/-- Whether a text comes to the parser. -/
def readable : RulesSource → Bool
  | .builtin => true
  | .file opens sized fits => opens && sized && fits

/-- The texts the loader leaves behind. -/
def rulesLeft (long : LongWidth) (alloc : RulesAlloc) (src : RulesSource)
    (load : Except CStr (Option YamlNode)) : List Resource :=
  if readable src then parseLeft long alloc load else []

variable (long) in
theorem diagRulesLoad_held (alloc : RulesAlloc) (src : RulesSource)
    (load : Except CStr (Option YamlNode)) :
    heldAfter ∅ (diagRulesLoad long alloc src load).2 =
      some (loadHeld (diagRulesLoad long alloc src load).1
        (rulesLeft long alloc src load)).toFinset := by
  cases src with
  | builtin =>
    have h := rulesParseUses_held long (F := ∅) (by simp) (by simp) (by simp) alloc load
    rw [Finset.empty_union] at h
    exact h
  | file opens sized fits =>
    rw [diagRulesLoad, rulesLeft, readable]
    cases opens with
    | false => rfl
    | true =>
      by_cases hok : (sized && fits) = true
      · have hbad : (!sized || !fits) = false := by
          rw [← Bool.not_and, hok]
          rfl
        simp only [Bool.not_true, Bool.false_eq_true, if_false, hbad, Bool.true_and, hok, if_true]
        have hopen : heldAfter ∅ [.acquire .file, .acquire .fileText, .release .file] =
            some {Resource.fileText} := rfl
        have hparse := rulesParseUses_held long (F := {.fileText}) (by simp [ofRules])
          (by simp) (by simp) alloc load
        have hmid := (heldAfter_append hopen _).trans hparse
        rw [heldAfter_append hmid, Finset.union_comm]
        refine heldAfter_giveBack (List.nodup_singleton _) fun x hx hmem => ?_
        have hrules := ofRules_of_loadHeld (List.mem_toFinset.mp hmem)
        rw [List.mem_singleton.mp hx] at hrules
        cases hrules
      · have hbad : (!sized || !fits) = true := by
          rw [← Bool.not_and, Bool.eq_false_of_not_eq_true hok]
          rfl
        simp only [Bool.not_true, Bool.false_eq_true, if_false, hbad, if_true, Bool.true_and, hok]
        rfl

/-! ## The probes and the consumer -/

/-- A probe is not opened, is given back at once, or comes up. -/
theorem bringUp_cases (s : Source) (a : ProbeAnswer) :
    bringUp s a = ([], []) ∨
      bringUp s a = ([], [.acquire (.skeleton s), .release (.skeleton s)]) ∨
      bringUp s a = ([s], [.acquire (.skeleton s)]) := by
  rw [bringUp]
  split
  · exact .inl rfl
  · split
    · exact .inr (.inl rfl)
    · exact .inr (.inr rfl)

/-- The probes that come up are some of those tried, in their order. -/
theorem bringUpAll_sublist (answer : Source → ProbeAnswer) (srcs : List Source) :
    (bringUpAll answer srcs).1.Sublist srcs := by
  induction srcs with
  | nil => exact List.Sublist.refl _
  | cons s rest ih =>
    rw [bringUpAll]
    rcases bringUp_cases s (answer s) with heq | heq | heq
    · rw [heq]
      exact ih.cons s
    · rw [heq]
      exact ih.cons s
    · rw [heq]
      exact ih.cons_cons s

/-- A probe that comes up keeps its skeleton, and the others give theirs back. -/
theorem bringUpAll_held (answer : Source → ProbeAnswer) {F : Finset Resource}
    {srcs : List Source} (hnd : srcs.Nodup) (hF : ∀ s ∈ srcs, Resource.skeleton s ∉ F) :
    heldAfter F (bringUpAll answer srcs).2 =
      some (F ∪ ((bringUpAll answer srcs).1.map Resource.skeleton).toFinset) := by
  induction srcs generalizing F with
  | nil => simp [bringUpAll]
  | cons s rest ih =>
    obtain ⟨hs, hrest⟩ := List.nodup_cons.mp hnd
    have hfree : Resource.skeleton s ∉ F := hF s List.mem_cons_self
    have hother : ∀ q ∈ rest, Resource.skeleton q ∉ F :=
      fun q hq => hF q (List.mem_cons_of_mem s hq)
    rw [bringUpAll]
    rcases bringUp_cases s (answer s) with heq | heq | heq
    · rw [heq]
      exact ih hrest hother
    · rw [heq]
      exact (heldAfter_brief hfree _).trans (ih hrest hother)
    · have hnext : ∀ q ∈ rest, Resource.skeleton q ∉ insert (Resource.skeleton s) F := by
        intro q hq hmem
        rcases Finset.mem_insert.mp hmem with hqs | hmem
        · obtain rfl := Resource.skeleton.inj hqs
          exact hs hq
        · exact hother q hq hmem
      rw [heq]
      refine ((heldAfter_acquire hfree _).trans (ih hrest hnext)).trans (congrArg some ?_)
      show _ = F ∪ ((s :: (bringUpAll answer rest).1).map Resource.skeleton).toFinset
      rw [List.map_cons, List.toFinset_cons, Finset.insert_union, Finset.union_insert]

/-- What the consumer holds. -/
def muxHeld : Option Evmux → List Resource
  | none => []
  | some m =>
    match m.transport with
    | .perf => m.srcs.map Resource.perfBuffer ++ [.epoll, .mux]
    | .ringbuf => (if m.srcs = [] then [] else [.ringBuffer]) ++ [.mux]

theorem usbtraceEvmuxFree_eq (mux : Option Evmux) :
    usbtraceEvmuxFree mux = (muxHeld mux).map .release := by
  cases mux with
  | none => rfl
  | some m =>
    obtain ⟨transport, srcs⟩ := m
    cases transport with
    | perf => simp [usbtraceEvmuxFree, muxHeld]
    | ringbuf =>
      cases srcs <;> rfl

/-- The resources of the consumer. -/
def ofMux : Resource → Bool
  | .mux | .epoll | .ringBuffer | .perfBuffer _ => true
  | _ => false

theorem ofMux_of_held {mux : Option Evmux} {x : Resource} (h : x ∈ muxHeld mux) :
    ofMux x = true := by
  cases mux with
  | none => exact absurd h List.not_mem_nil
  | some m =>
    obtain ⟨transport, srcs⟩ := m
    cases transport with
    | perf =>
      rcases List.mem_append.mp h with h | h
      · obtain ⟨s, -, rfl⟩ := List.mem_map.mp h
        rfl
      · rcases List.mem_cons.mp h with rfl | h
        · rfl
        · rw [List.mem_singleton.mp h]
          rfl
    | ringbuf =>
      rcases List.mem_append.mp h with h | h
      · split at h
        · exact absurd h List.not_mem_nil
        · rw [List.mem_singleton.mp h]
          rfl
      · rw [List.mem_singleton.mp h]
        rfl

theorem not_mem_of_ofMux {F : Finset Resource} (hF : ∀ x ∈ F, ofMux x = false) {x : Resource}
    (hx : ofMux x = true) : x ∉ F := by
  intro hmem
  rw [hF x hmem] at hx
  cases hx

theorem usbtraceEvmuxNew_held {F : Finset Resource} (hF : ∀ x ∈ F, ofMux x = false)
    (transport : Transport) (alloc epoll : Bool) :
    heldAfter F (usbtraceEvmuxNew transport alloc epoll).2 =
      some (F ∪ (muxHeld (usbtraceEvmuxNew transport alloc epoll).1).toFinset) := by
  have hmux : Resource.mux ∉ F := not_mem_of_ofMux hF rfl
  have hepoll : Resource.epoll ∉ insert Resource.mux F := by
    simp [not_mem_of_ofMux hF (x := .epoll) rfl]
  unfold usbtraceEvmuxNew
  split
  · simp [muxHeld]
  · cases transport with
    | ringbuf =>
      refine (heldAfter_acquire hmux _).trans (congrArg some ?_)
      ext x
      simp [muxHeld]
    | perf =>
      dsimp only
      split
      · rw [heldAfter_brief hmux]
        simp [muxHeld]
      · rw [heldAfter_acquire hmux, heldAfter_acquire hepoll]
        refine congrArg some ?_
        ext x
        simp [muxHeld]

theorem usbtraceEvmuxNew_srcs {transport : Transport} {alloc epoll : Bool} {m : Evmux}
    (h : (usbtraceEvmuxNew transport alloc epoll).1 = some m) : m.srcs = [] := by
  unfold usbtraceEvmuxNew at h
  split at h
  · cases h
  · cases transport with
    | ringbuf =>
      obtain rfl := Option.some.inj h
      rfl
    | perf =>
      dsimp only at h
      split at h
      · cases h
      · obtain rfl := Option.some.inj h
        rfl

/-- What adding a source does: nothing, a buffer that is given back at once, or the source
joins. -/
theorem usbtraceEvmuxAdd_cases (m : Evmux) (src : Source) (a : AddAnswer) :
    ((usbtraceEvmuxAdd m src a).1 = m ∧
      ((usbtraceEvmuxAdd m src a).2.2 = [] ∨
        (usbtraceEvmuxAdd m src a).2.2 =
          [.acquire (.perfBuffer src), .release (.perfBuffer src)])) ∨
    ((usbtraceEvmuxAdd m src a).1 = { m with srcs := m.srcs ++ [src] } ∧
      (usbtraceEvmuxAdd m src a).2.2 =
        match m.transport with
        | .perf => [.acquire (.perfBuffer src)]
        | .ringbuf => if m.srcs = [] then [.acquire .ringBuffer] else []) := by
  rw [usbtraceEvmuxAdd]
  split
  · exact .inl ⟨rfl, .inl rfl⟩
  · cases m.transport with
    | perf =>
      dsimp only
      split
      · exact .inl ⟨rfl, .inl rfl⟩
      · split
        · exact .inl ⟨rfl, .inl rfl⟩
        · split
          · exact .inl ⟨rfl, .inr rfl⟩
          · exact .inr ⟨rfl, rfl⟩
    | ringbuf =>
      dsimp only
      split
      · exact .inl ⟨rfl, .inl rfl⟩
      · exact .inr ⟨rfl, rfl⟩

theorem usbtraceEvmuxAdd_held {F : Finset Resource} (hF : ∀ x ∈ F, ofMux x = false)
    {m : Evmux} {src : Source} (hsrc : src ∉ m.srcs) (a : AddAnswer) :
    heldAfter (F ∪ (muxHeld (some m)).toFinset) (usbtraceEvmuxAdd m src a).2.2 =
      some (F ∪ (muxHeld (some (usbtraceEvmuxAdd m src a).1)).toFinset) := by
  have hfresh : Resource.perfBuffer src ∉ F ∪ (muxHeld (some m)).toFinset := by
    intro hmem
    rcases Finset.mem_union.mp hmem with hmem | hmem
    · exact not_mem_of_ofMux hF (x := .perfBuffer src) rfl hmem
    · obtain ⟨transport, srcs⟩ := m
      cases transport with
      | perf =>
        simp [muxHeld] at hmem
        exact hsrc hmem
      | ringbuf => cases srcs <;> simp [muxHeld] at hmem
  rcases usbtraceEvmuxAdd_cases m src a with ⟨hm, huses | huses⟩ | ⟨hm, huses⟩
  · rw [hm, huses]
    rfl
  · rw [hm, huses, heldAfter_brief hfresh]
    rfl
  · rw [hm, huses]
    obtain ⟨transport, srcs⟩ := m
    cases transport with
    | perf =>
      refine (heldAfter_acquire hfresh _).trans (congrArg some ?_)
      ext x
      simp [muxHeld]
    | ringbuf =>
      cases srcs with
      | nil =>
        have hring : Resource.ringBuffer ∉ F ∪ (muxHeld (some ⟨.ringbuf, []⟩)).toFinset := by
          simp [muxHeld, not_mem_of_ofMux hF (x := .ringBuffer) rfl]
        refine (heldAfter_acquire hring _).trans (congrArg some ?_)
        ext x
        simp [muxHeld]
      | cons s rest => rfl

theorem addSources_cons (answer : Source → AddAnswer) (m : Evmux) (s : Source)
    (rest : List Source) :
    (addSources answer m (s :: rest)).1 =
      (addSources answer (usbtraceEvmuxAdd m s (answer s)).1 rest).1 := rfl

/-- The sources that join are some of those tried, in their order, after those there. -/
theorem addSources_srcs (answer : Source → AddAnswer) (m : Evmux) (srcs : List Source) :
    ∃ joined, joined.Sublist srcs ∧ (addSources answer m srcs).1.srcs = m.srcs ++ joined := by
  induction srcs generalizing m with
  | nil => exact ⟨[], List.Sublist.refl _, (List.append_nil _).symm⟩
  | cons s rest ih =>
    obtain ⟨joined, hsub, heq⟩ := ih (usbtraceEvmuxAdd m s (answer s)).1
    rcases usbtraceEvmuxAdd_cases m s (answer s) with ⟨hm, -⟩ | ⟨hm, -⟩
    · rw [hm] at heq
      refine ⟨joined, hsub.cons s, ?_⟩
      rw [← heq, addSources_cons, hm]
    · rw [hm] at heq
      refine ⟨s :: joined, hsub.cons_cons s, ?_⟩
      rw [List.append_cons, ← heq, addSources_cons, hm]

theorem addSources_held (answer : Source → AddAnswer) {F : Finset Resource}
    (hF : ∀ x ∈ F, ofMux x = false) {m : Evmux} {srcs : List Source} (hnd : srcs.Nodup)
    (hm : ∀ s ∈ srcs, s ∉ m.srcs) :
    heldAfter (F ∪ (muxHeld (some m)).toFinset) (addSources answer m srcs).2 =
      some (F ∪ (muxHeld (some (addSources answer m srcs).1)).toFinset) := by
  induction srcs generalizing m with
  | nil => rfl
  | cons s rest ih =>
    obtain ⟨hs, hrest⟩ := List.nodup_cons.mp hnd
    have hstep := usbtraceEvmuxAdd_held hF (hm s List.mem_cons_self) (answer s)
    have hnext : ∀ q ∈ rest, q ∉ (usbtraceEvmuxAdd m s (answer s)).1.srcs := by
      intro q hq hmem
      have hold := hm q (List.mem_cons_of_mem s hq)
      rcases usbtraceEvmuxAdd_cases m s (answer s) with ⟨heq, -⟩ | ⟨heq, -⟩
      · rw [heq] at hmem
        exact hold hmem
      · rw [heq] at hmem
        rcases List.mem_append.mp hmem with hmem | hmem
        · exact hold hmem
        · rw [List.mem_singleton.mp hmem] at hq
          exact hs hq
    exact (heldAfter_append hstep _).trans (ih hrest hnext)

/-! ## Every way out -/

/-- A load that succeeds leaves nothing behind. -/
theorem leftTexts_ok {texts : ℕ → RuleText → Bool} {arr rules : List DiagRule}
    {items : List YamlNode} (h : parseRules long texts arr items = .ok rules) :
    leftTexts long texts arr.length items = [] := by
  induction items generalizing arr with
  | nil => rfl
  | cons rn rest ih =>
    rw [parseRules] at h
    rw [leftTexts]
    split
    · rfl
    · next hroom =>
      rw [if_neg hroom] at h
      obtain ⟨r, hr, h⟩ := bind_eq_ok h
      have hrest := ih h
      rw [List.length_append] at hrest
      rw [hr]
      exact hrest

theorem parseLeft_of_parsed {alloc : RulesAlloc} {load : Except CStr (Option YamlNode)}
    {rules : List DiagRule} (h : (diagRulesParse long alloc load).out = some rules) :
    parseLeft long alloc load = [] := by
  unfold parseLeft
  split
  · rfl
  · next halloc =>
    simp only [Bool.or_eq_true, Bool.not_eq_true', not_or, Bool.not_eq_false] at halloc
    cases load with
    | error problem => rfl
    | ok root =>
      rw [diagRulesParse_out halloc.1, halloc.2] at h
      obtain ⟨items, hitems, hrules⟩ := Option.bind_eq_some_iff.mp h
      dsimp only
      rw [hitems]
      rw [if_pos rfl] at hrules
      cases hloop : parseRules long alloc.texts [] items with
      | error err =>
        rw [hloop] at hrules
        cases hrules
      | ok arr => exact leftTexts_ok hloop

theorem rulesLeft_of_loaded {alloc : RulesAlloc} {src : RulesSource}
    {load : Except CStr (Option YamlNode)} {rules : List DiagRule}
    (h : (diagRulesLoad long alloc src load).1 = some rules) :
    rulesLeft long alloc src load = [] := by
  rw [rulesLeft]
  split
  · next hread =>
    have hparsed : (diagRulesParse long alloc load).out = some rules := by
      cases src with
      | builtin => exact h
      | file opens sized fits =>
        simp only [readable, Bool.and_eq_true] at hread
        obtain ⟨⟨rfl, rfl⟩, rfl⟩ := hread
        exact h
    exact parseLeft_of_parsed hparsed
  · rfl

/-- All that is held when the loop is over, in the order it is given back. -/
def allHeld (mux : Option Evmux) (live : List Source) (rules : List DiagRule) : List Resource :=
  muxHeld mux ++ live.map Resource.skeleton ++ (rulesHeld rules ++ [.engine])

theorem diagCleanup_eq (mux : Option Evmux) (live : List Source) (rules : List DiagRule) :
    diagCleanup mux live rules = (allHeld mux live rules).map .release := by
  rw [diagCleanup, allHeld, usbtraceEvmuxFree_eq, diagRulesFree_eq]
  simp

theorem nodup_muxHeld {m : Evmux} (h : m.srcs.Nodup) : (muxHeld (some m)).Nodup := by
  obtain ⟨transport, srcs⟩ := m
  cases transport with
  | perf =>
    have hinj : Function.Injective Resource.perfBuffer := fun _ _ heq => Resource.perfBuffer.inj heq
    refine List.nodup_append.mpr ⟨h.map hinj, by decide, ?_⟩
    intro x hx y hy heq
    obtain ⟨s, -, rfl⟩ := List.mem_map.mp hx
    subst heq
    simp at hy
  | ringbuf => cases srcs <;> simp [muxHeld]

theorem nodup_allHeld {mux : Option Evmux} {live : List Source} (rules : List DiagRule)
    (hmux : (muxHeld mux).Nodup) (hlive : live.Nodup) : (allHeld mux live rules).Nodup := by
  have hinj : Function.Injective Resource.skeleton := fun _ _ heq => Resource.skeleton.inj heq
  have hrules : (rulesHeld rules ++ [Resource.engine]).Nodup := by
    refine List.nodup_append.mpr ⟨nodup_rulesHeld rules, List.nodup_singleton _, ?_⟩
    rintro x hx y hy rfl
    have hof := ofRules_of_held hx
    rw [List.mem_singleton.mp hy] at hof
    cases hof
  -- no resource of the rules or the engine is one of the consumer, or a skeleton
  have hrest : ∀ x ∈ rulesHeld rules ++ [Resource.engine],
      ofMux x = false ∧ ∀ s, x ≠ Resource.skeleton s := by
    intro x hx
    rcases List.mem_append.mp hx with hx | hx
    · have hof := ofRules_of_held hx
      refine ⟨?_, ?_⟩
      · cases x <;> first | rfl | cases hof
      · rintro s rfl
        cases hof
    · rw [List.mem_singleton.mp hx]
      exact ⟨rfl, fun s heq => by cases heq⟩
  refine List.nodup_append.mpr ⟨List.nodup_append.mpr ⟨hmux, hlive.map hinj, ?_⟩, hrules, ?_⟩
  · rintro x hx y hy rfl
    obtain ⟨s, -, rfl⟩ := List.mem_map.mp hy
    cases ofMux_of_held hx
  · rintro x hx y hy rfl
    obtain ⟨hmuxNot, hskelNot⟩ := hrest x hy
    rcases List.mem_append.mp hx with hx | hx
    · rw [ofMux_of_held hx] at hmuxNot
      cases hmuxNot
    · obtain ⟨s, -, rfl⟩ := List.mem_map.mp hx
      exact hskelNot s rfl

/-- With the rules loaded and the engine allocated, the cleanup gives everything back. -/
theorem diagCleanup_held {F : Finset Resource} {mux : Option Evmux} {live : List Source}
    {rules : List DiagRule} (hmux : (muxHeld mux).Nodup) (hlive : live.Nodup)
    (hF : F = (rulesHeld rules).toFinset ∪ {.engine} ∪ (live.map Resource.skeleton).toFinset ∪
      (muxHeld mux).toFinset) :
    heldAfter F (diagCleanup mux live rules) = some ∅ := by
  have hheld : F = ∅ ∪ (allHeld mux live rules).toFinset := by
    rw [hF]
    ext x
    simp only [allHeld, Finset.mem_union, Finset.mem_singleton, List.mem_toFinset,
      List.mem_append, List.mem_singleton, Finset.notMem_empty, false_or]
    tauto
  rw [diagCleanup_eq, hheld]
  exact heldAfter_giveBack (nodup_allHeld rules hmux hlive) fun _ _ => Finset.notMem_empty _

/-- What is held before the sources join the consumer. -/
def broughtUp (rules : List DiagRule) (live : List Source) : Finset Resource :=
  (rulesHeld rules).toFinset ∪ {.engine} ∪ (live.map Resource.skeleton).toFinset

theorem broughtUp_ofMux {rules : List DiagRule} {live : List Source} :
    ∀ x ∈ broughtUp rules live, ofMux x = false := by
  intro x hx
  rcases Finset.mem_union.mp hx with hx | hx
  · rcases Finset.mem_union.mp hx with hx | hx
    · have hof := ofRules_of_held (List.mem_toFinset.mp hx)
      cases x <;> first | rfl | cases hof
    · rw [Finset.mem_singleton.mp hx]
      rfl
  · obtain ⟨s, -, rfl⟩ := List.mem_map.mp (List.mem_toFinset.mp hx)
    rfl

/-- From the loaded rules to the probes. -/
theorem bringUp_held (rules : List DiagRule) (answer : Source → ProbeAnswer) :
    heldAfter (rulesHeld rules).toFinset
        ([.acquire .engine] ++ (bringUpAll answer diagSources).2) =
      some (broughtUp rules (bringUpAll answer diagSources).1) := by
  have hengine : Resource.engine ∉ (rulesHeld rules).toFinset := by
    intro hmem
    cases ofRules_of_held (List.mem_toFinset.mp hmem)
  have hskel : ∀ s ∈ diagSources,
      Resource.skeleton s ∉ (rulesHeld rules).toFinset ∪ {.engine} := by
    intro s _ hmem
    rcases Finset.mem_union.mp hmem with hmem | hmem
    · cases ofRules_of_held (List.mem_toFinset.mp hmem)
    · cases Finset.mem_singleton.mp hmem
  have hup : heldAfter (rulesHeld rules).toFinset [.acquire .engine] =
      some ((rulesHeld rules).toFinset ∪ {.engine}) := by
    rw [heldAfter_acquire hengine, Finset.union_comm]
    rfl
  exact (heldAfter_append hup _).trans (bringUpAll_held answer (by decide) hskel)

/-- What is held when `diag_run` returns. -/
theorem diagRun_held (w : DiagWorld) :
    heldAfter ∅ (diagRun w).uses =
      some (rulesLeft w.long w.rulesAlloc w.source w.load).toFinset := by
  have hload := diagRulesLoad_held w.long w.rulesAlloc w.source w.load
  unfold diagRun
  generalize hloaded : diagRulesLoad w.long w.rulesAlloc w.source w.load = loaded at hload
  obtain ⟨rules, uses⟩ := loaded
  cases rules with
  | none => exact hload
  | some rules =>
    have hleft : rulesLeft w.long w.rulesAlloc w.source w.load = [] :=
      rulesLeft_of_loaded (congrArg Prod.fst hloaded)
    rw [hleft]
    dsimp only [loadHeld] at hload ⊢
    split
    · rw [heldAfter_append hload, diagRulesFree_eq]
      have hgive := heldAfter_giveBack (nodup_rulesHeld rules) fun _ _ => Finset.notMem_empty _
      rw [Finset.empty_union] at hgive
      exact hgive
    · have hup := (heldAfter_append hload _).trans (bringUp_held rules w.probe)
      have hlive : (bringUpAll w.probe diagSources).1.Nodup :=
        (bringUpAll_sublist w.probe diagSources).nodup (by decide)
      have hnew := (heldAfter_append hup _).trans
        (usbtraceEvmuxNew_held broughtUp_ofMux w.transport w.muxAlloc w.muxEpoll)
      generalize hnewEq : usbtraceEvmuxNew w.transport w.muxAlloc w.muxEpoll = new at hnew
      obtain ⟨mux, news⟩ := new
      cases mux with
      | none =>
        dsimp only
        rw [heldAfter_append (by simpa using hnew)]
        exact diagCleanup_held List.nodup_nil hlive rfl
      | some m =>
        have hempty : m.srcs = [] := usbtraceEvmuxNew_srcs (congrArg Prod.fst hnewEq)
        have hadd := (heldAfter_append hnew _).trans
          (addSources_held w.add broughtUp_ofMux hlive fun s _ => by simp [hempty])
        have hsrcs : (addSources w.add m (bringUpAll w.probe diagSources).1).1.srcs.Nodup := by
          obtain ⟨joined, hsub, heq⟩ := addSources_srcs w.add m (bringUpAll w.probe diagSources).1
          rw [heq, hempty]
          exact hsub.nodup hlive
        have hclean := (heldAfter_append hadd _).trans
          (diagCleanup_held (nodup_muxHeld hsrcs) hlive rfl)
        dsimp only
        split
        · simpa using hclean
        · simpa using hclean

/-- **What `diag_run` gives back**: on every way out, whatever fails on the way, nothing is
acquired twice or released that is not held, and each resource is released as often as it is
acquired, but for the texts of the first rule that does not parse, which stay.
SOURCE: diag.c:354-541, rules.c:403-568, evmux.c:79-232, engine.c:690-722 -/
theorem diagRun_balanced (w : DiagWorld) :
    heldAfter ∅ (diagRun w).uses = some (rulesLeft w.long w.rulesAlloc w.source w.load).toFinset ∧
      ∀ r, (diagRun w).uses.count (.acquire r) =
        (diagRun w).uses.count (.release r) +
          if r ∈ rulesLeft w.long w.rulesAlloc w.source w.load then 1 else 0 := by
  refine ⟨diagRun_held w, fun r => ?_⟩
  have hcount := heldAfter_count (diagRun_held w) r
  simpa only [Finset.notMem_empty, if_false, Nat.add_zero, List.mem_toFinset] using hcount

end UsbTrace.Analysis

import UsbTrace.Analysis.RuleRoundTrip

/-!
# Scalars that are not what their place takes

A document that the loader accepts holds the values its scalars mean only where they fit
their places: the numbers of when items and the timeout are read by `strtol` without a look
at where it stopped, the state a deadline waits for is left out where it does not resolve,
kinds and states are cut to 32 bits, and the kind of a deadline block is not read at all.

Nor is an entry whose key stands in the mapping before, and what stands next to a deadline block
or behind the last rule there is room for: there a scalar is held where it happens to mean what
is read in its place.
-/

set_option autoImplicit false

namespace UsbTrace.Analysis

open UsbTrace.Library UsbTrace.Model UsbTrace.Interface

variable {long : LongWidth}

/-! ## Scalars that are read -/

/-- The only value held in a place: it is what the scalar there means if the scalar is held. -/
theorem means_of_held {P : ℤ → Prop} {s : CStr} {v : ℤ} (hP : ∀ u, P u → u = v)
    (h : ∃ u, Means u s ∧ P u) : Means v s := by
  obtain ⟨u, hu, hheld⟩ := h
  exact hP u hheld ▸ hu

/-- A scalar is held where the one value held in its place is what it means. -/
theorem held_iff_means {P : ℤ → Prop} {s : CStr} {v : ℤ} (hP : ∀ u, P u ↔ u = v) :
    (∃ u, Means u s ∧ P u) ↔ Means v s :=
  ⟨means_of_held fun u => (hP u).mp, fun hv => ⟨v, hv, (hP v).mpr rfl⟩⟩

/-- The one number of a condition that its scalar was read as. -/
theorem number_iff {o : Option ℤ} {n : Option YamlNode} (ho : o = scalarLong long n) {s : CStr}
    (hs : n = some (.scalar s)) :
    (∃ v, Means v s ∧ o = some v) ↔ NumberFits long s := by
  rw [← numberFits_iff]
  refine held_iff_means fun u => ?_
  rw [ho, scalarLong_scalar hs, Option.some.injEq]
  exact eq_comm

theorem number_read {o : Option ℤ} {n : Option YamlNode} (ho : o = scalarLong long n) {v : ℤ}
    (hv : o = some v) :
    ∃ s, n = some (.scalar s) ∧ ((∃ u, Means u s ∧ o = some u) → Means v s) := by
  obtain ⟨s, hs, -⟩ := scalarLong_eq_some (ho ▸ hv)
  refine ⟨s, hs, means_of_held fun u hu => ?_⟩
  rw [hv] at hu
  exact (Option.some.inj hu).symm

/-- A kind that a scalar was resolved to. -/
theorem condKind_iff {c : DiagCond} {s : CStr} {v : ℤ} (h : resolveValue long s = some v)
    (hc : c.kind = some (UInt32.ofInt v)) :
    (∃ u, Means u s ∧ CondHolds c .kind u) ↔ KindFits s := by
  rw [← kindFits_iff h]
  refine held_iff_means fun u => ?_
  rw [CondHolds, hc]
  simp [eq_comm]

theorem condKind_unique {c : DiagCond} {u v : ℤ} (hu : CondHolds c .kind u)
    (hv : CondHolds c .kind v) : u = v := by
  obtain ⟨k, hk, rfl⟩ := hu
  obtain ⟨k', hk', rfl⟩ := hv
  rw [hk] at hk'
  rw [Option.some.inj hk']

/-! ## Conditions -/

/-- The numbers of a when item. -/
theorem parseWhen_numbers {item : YamlNode} {c : DiagCond} (h : parseWhen long item = .ok c) :
    c.withinMs = scalarLong long (mapGet (some item) "within_ms") ∧
      c.countGte = scalarLong long (mapGet (some item) "count_gte") ∧
      c.minSpanMs = scalarLong long (mapGet (some item) "min_span_ms") ∧
      c.clusterMs = scalarLong long (mapGet (some item) "cluster_ms") := by
  obtain ⟨c₁, c₂, c₃, -, -, -, rfl⟩ := parseWhen_ok h
  exact ⟨rfl, rfl, rfl, rfl⟩

/-- **A when item**: what is read in one of its places is held exactly if its place takes it.
SOURCE: rules.c:257-312 -/
theorem condRead_iff {item : YamlNode} {c : DiagCond} (h : parseWhen long item = .ok c)
    {place : CondPlace} {s : CStr} (hs : CondRead item place s) :
    (∃ v, Means v s ∧ CondHolds c place v) ↔ CondFits long place s := by
  obtain ⟨hkind, hmatch, hstatus⟩ := parseWhen_parts h
  obtain ⟨hwithin, hcount, hspan, hcluster⟩ := parseWhen_numbers h
  cases place with
  | kind =>
    rcases hkind with ⟨hnone, -⟩ | ⟨s', v, hs', hv, hc⟩
    · exact absurd hs (hnone s)
    · rw [show mapGet (some item) "kind" = some (.scalar s) from hs] at hs'
      cases hs'
      exact condKind_iff hv hc
  | matchValue field op =>
    obtain ⟨m, vs, hm, ⟨pairs, rfl, hmem⟩, hop⟩ := hs
    rcases hmatch with ⟨hnone, -⟩ | ⟨pairs', c₁, c₂, hpairs, hfold, -, hc⟩
    · rw [hm] at hnone
      cases hnone
    · rw [hm] at hpairs
      cases hpairs
      obtain ⟨x, hx, hfrom⟩ := (matchEntries_hold hfold).1 field vs trivial hmem
      exact iff_of_true (hfrom.means (hc ▸ hx) hop) trivial
  | statusIn =>
    obtain ⟨items, hitems, hmem⟩ := hs
    rcases hstatus with ⟨hnone, -⟩ | ⟨items', c₁, c₂, hitems', hfold, -, hc⟩
    · rw [hitems] at hnone
      cases hnone
    · rw [hitems] at hitems'
      cases hitems'
      obtain ⟨v, hv, hres⟩ := (statusEntries_hold hfold).1 s hmem
      refine iff_of_true ⟨v, (resolveValue_iff.mp hres).1, ?_⟩ trivial
      rwa [CondHolds, hc]
  | withinMs => exact number_iff hwithin hs
  | countGte => exact number_iff hcount hs
  | minSpanMs => exact number_iff hspan hs
  | clusterMs => exact number_iff hcluster hs

/-- **What a condition holds was read**, from a scalar that means it if it is held at all. -/
theorem condHolds_read {item : YamlNode} {c : DiagCond} (h : parseWhen long item = .ok c)
    {place : CondPlace} {v : ℤ} (hv : CondHolds c place v) :
    ∃ s, CondRead item place s ∧ ((∃ u, Means u s ∧ CondHolds c place u) → Means v s) := by
  obtain ⟨hkind, hmatch, hstatus⟩ := parseWhen_parts h
  obtain ⟨hwithin, hcount, hspan, hcluster⟩ := parseWhen_numbers h
  cases place with
  | kind =>
    rcases hkind with ⟨-, hnone⟩ | ⟨s, w, hs, -, -⟩
    · obtain ⟨k, hk, -⟩ := hv
      rw [hnone] at hk
      cases hk
    · exact ⟨s, hs, means_of_held fun u hu => condKind_unique hu hv⟩
  | matchValue field op =>
    obtain ⟨fid, hfid, hmem⟩ := hv
    rcases hmatch with ⟨-, hnone⟩ | ⟨pairs, c₁, c₂, hpairs, hfold, hempty, hc⟩
    · rw [hnone] at hmem
      cases hmem
    · rw [hc] at hmem
      rcases (matchEntries_hold hfold).2 _ hmem with hold | ⟨p, hp, ks, vs, rfl, -, hfrom⟩
      · rw [hempty] at hold
        cases hold
      · obtain ⟨rfl, hmeans, rfl⟩ := hfrom.read hfid
        exact ⟨_, ⟨_, vs, hpairs, ⟨pairs, rfl, hp⟩, rfl⟩, fun _ => hmeans⟩
  | statusIn =>
    rcases hstatus with ⟨-, hnone⟩ | ⟨items, c₁, c₂, hitems, hfold, hempty, hc⟩
    · rw [CondHolds, hnone] at hv
      cases hv
    · rw [CondHolds, hc] at hv
      rcases (statusEntries_hold hfold).2 v hv with hold | ⟨e, he, s, rfl, hres⟩
      · rw [hempty] at hold
        cases hold
      · exact ⟨s, ⟨items, hitems, he⟩, fun _ => (resolveValue_iff.mp hres).1⟩
  | withinMs => exact number_read hwithin hv
  | countGte => exact number_read hcount hv
  | minSpanMs => exact number_read hspan hv
  | clusterMs => exact number_read hcluster hv

/-! ## Triggers -/

/-- **The kind of a trigger** is that of its last kind entry. -/
theorem triggerEntries_kind {pairs : List (YamlNode × YamlNode)} {c c' : DiagCond}
    (h : pairs.foldlM (triggerEntry long) c = .ok c') :
    ((∀ n, (.scalar "kind".toList, n) ∉ pairs) ∧ c'.kind = c.kind) ∨
      ∃ before s after v, pairs = before ++ (.scalar "kind".toList, .scalar s) :: after ∧
        (∀ n, (.scalar "kind".toList, n) ∉ after) ∧ resolveValue long s = some v ∧
        c'.kind = some (UInt32.ofInt v) := by
  induction pairs generalizing c with
  | nil =>
    cases h
    exact .inl ⟨fun n => List.not_mem_nil, rfl⟩
  | cons p pairs ih =>
    rw [List.foldlM_cons] at h
    obtain ⟨c₁, hp, h⟩ := bind_eq_ok h
    rcases ih h with ⟨hnone, hsame⟩ | ⟨before, s, after, v, rfl, hafter, hv, hkind⟩
    · obtain ⟨ks, vs, rfl, ⟨rfl, hset⟩ | ⟨hks, hadd⟩⟩ := triggerEntry_ok hp
      · obtain ⟨v, hv, rfl⟩ := setKind_ok hset
        exact .inr ⟨[], vs, pairs, v, rfl, hnone, hv, hsame⟩
      · obtain ⟨-, fid, w, -, -, rfl⟩ := addMatch_ok hadd
        refine .inl ⟨fun n hn => ?_, hsame⟩
        rcases List.mem_cons.mp hn with heq | hn
        · cases heq
          exact hks rfl
        · exact hnone n hn
    · exact .inr ⟨p :: before, s, after, v, rfl, hafter, hv, hkind⟩

/-- A list has one last kind entry. -/
theorem last_kind_unique {before before' after after' : List (YamlNode × YamlNode)} {s s' : CStr}
    (h : before ++ (.scalar "kind".toList, .scalar s) :: after =
      before' ++ (.scalar "kind".toList, .scalar s') :: after')
    (hafter : ∀ n, (.scalar "kind".toList, n) ∉ after)
    (hafter' : ∀ n, (.scalar "kind".toList, n) ∉ after') : s = s' := by
  rcases List.append_eq_append_iff.mp h with ⟨mid, rfl, hmid⟩ | ⟨mid, rfl, hmid⟩
  · cases mid with
    | nil =>
      cases hmid
      rfl
    | cons p mid =>
      obtain ⟨-, rfl⟩ := List.cons.inj hmid
      exact absurd (by simp) (hafter (.scalar s'))
  · cases mid with
    | nil =>
      cases hmid
      rfl
    | cons p mid =>
      obtain ⟨-, rfl⟩ := List.cons.inj hmid
      exact absurd (by simp) (hafter' (.scalar s))

/-! ## Rules -/

variable {alloc : RuleText → Bool} {rn : YamlNode} {r : DiagRule}

/-- A rule with a deadline block is what the block says, and has no trigger and conditions. -/
theorem parseRule_deadline (h : parseRule long alloc rn = .ok r) {dl : YamlNode}
    (hdl : mapGet (some rn) "deadline" = some dl) :
    r.type = .deadline ∧ r.trigger = {} ∧ r.whenList = [] ∧
      ∃ s v t, mapGet (some dl) "reached_state" = some (.scalar s) ∧
        resolveValue long s = some v ∧ mapGet (some dl) "timeout_ms" = some (.scalar t) ∧
        r.dlReachedState = toInt v ∧ r.dlTimeoutMs = (strtol long.bits t).value ∧
        r.dlWithoutState =
          match (nodeScalar (mapGet (some dl) "without_state")).bind (resolveValue long) with
          | none => -1
          | some v => toInt v := by
  have hnode {o : Option YamlNode} {s : CStr} (hs : nodeScalar o = some s) :
      o = some (.scalar s) := by
    cases o with
    | none => cases hs
    | some n => exact congrArg some (nodeScalar_eq_some.mp hs)
  obtain ⟨-, ⟨dl', r₀, hdl', hparse, htrigger, hwhen⟩ | ⟨hnone, -⟩⟩ := parseRule_ok h
  · obtain rfl := Option.some.inj (hdl.symm.trans hdl')
    obtain ⟨s, v, t, hs, hv, ht, rfl⟩ := parseDeadline_ok hparse
    exact ⟨rfl, htrigger, hwhen, s, v, t, hnode hs, hv, hnode ht, rfl, rfl, rfl⟩
  · rw [hdl] at hnone
    cases hnone

/-- A rule without a deadline block is what its trigger and when items say. -/
theorem parseRule_event (h : parseRule long alloc rn = .ok r)
    (hnone : mapGet (some rn) "deadline" = none) :
    r.type = .event ∧
      (∃ pairs, mapGet (some rn) "trigger" = some (.mapping pairs) ∧
        pairs.foldlM (triggerEntry long) {} = .ok r.trigger) ∧
      (mapGet (some rn) "when" = none ∧ r.whenList = [] ∨
        ∃ items, mapGet (some rn) "when" = some (.sequence items) ∧
          List.Forall₂ (fun item c => parseWhen long item = .ok c) items r.whenList) := by
  obtain ⟨-, ⟨dl, r₀, hdl, -⟩ | ⟨-, htype, htrigger, hwhens⟩⟩ := parseRule_ok h
  · rw [hnone] at hdl
    cases hdl
  · obtain ⟨pairs, hpairs, hfold, -⟩ := parseTrigger_ok htrigger
    refine ⟨htype, ⟨pairs, hpairs, hfold⟩, ?_⟩
    rcases parseWhens_ok hwhens with ⟨hmissing, hnil⟩ | ⟨items, hitems, hfold⟩
    · exact .inl ⟨hmissing, hnil⟩
    · obtain ⟨conds, hconds, hall⟩ :=
        foldlM_collect (R := fun item c => parseWhen long item = .ok c)
          (fun as b as' hstep => (whenItem_ok hstep).2) hfold
      rw [hconds, List.nil_append]
      exact .inr ⟨items, hitems, hall⟩

variable (long) in
/-- **The state a deadline waits for** is left out where its scalar does not resolve.
SOURCE: rules.c:390-392 -/
theorem withoutState_iff {s : CStr} :
    Means (match resolveValue long s with | none => -1 | some v => toInt v) s ↔ StateFits s := by
  cases hres : resolveValue long s with
  | none =>
    -- what the scalar means does not fit a long, so it is not the -1 of a missing state
    have hnot : ∀ v, Means v s → ¬ (-2 ^ 31 ≤ v ∧ v < 2 ^ 31) := by
      intro v hv hint
      rw [resolveValue_iff.mpr ⟨hv, LongWidth.holds_of_int hint.1 hint.2⟩] at hres
      cases hres
    constructor
    · intro hv
      exact absurd ⟨by decide, by decide⟩ (hnot _ hv)
    · rintro ⟨v, hv, hint⟩
      exact absurd hint (hnot v hv)
  | some v => exact stateFits_iff hres

/-- **A rule**: what is read in one of its places is held exactly if its place takes it. -/
theorem ruleRead_iff (h : parseRule long alloc rn = .ok r) {place : RulePlace} {s : CStr}
    (hs : RuleRead rn place s) :
    (∃ v, Means v s ∧ RuleHolds r place v) ↔ PlaceFits long place s := by
  cases place with
  | cond j place =>
    obtain ⟨hnone, items, item, hitems, hj, hread⟩ := hs
    obtain ⟨-, -, ⟨hmissing, -⟩ | ⟨items', hitems', hall⟩⟩ := parseRule_event h hnone
    · rw [hitems] at hmissing
      cases hmissing
    · rw [hitems] at hitems'
      cases hitems'
      obtain ⟨c, hc, hparse⟩ := forall₂_getElem? hall hj
      have hholds : ∀ v, RuleHolds r (.cond j place) v ↔ CondHolds c place v := by
        intro v
        constructor
        · rintro ⟨c', hc', hv⟩
          rw [hc] at hc'
          cases hc'
          exact hv
        · exact fun hv => ⟨c, hc, hv⟩
      simp only [hholds]
      exact condRead_iff hparse hread
  | triggerKind =>
    obtain ⟨hnone, before, after, hpairs, hafter⟩ := hs
    obtain ⟨-, ⟨pairs, hpairs', hfold⟩, -⟩ := parseRule_event h hnone
    rw [hpairs] at hpairs'
    cases hpairs'
    rcases triggerEntries_kind hfold with ⟨hno, -⟩ | ⟨before', s', after', v, heq, hafter', hv, hc⟩
    · exact absurd (by simp) (hno (.scalar s))
    · obtain rfl := last_kind_unique heq hafter hafter'
      exact condKind_iff hv hc
  | triggerMatch field op =>
    obtain ⟨hnone, t, vs, ht, hne, ⟨pairs, rfl, hmem⟩, hop⟩ := hs
    obtain ⟨-, ⟨pairs', hpairs', hfold⟩, -⟩ := parseRule_event h hnone
    rw [ht] at hpairs'
    cases hpairs'
    obtain ⟨m, hm, hfrom⟩ := (triggerEntries_hold hfold).1 field vs hne hmem
    exact iff_of_true (hfrom.means hm hop) trivial
  | deadlineKind => exact hs.elim
  | reachedState =>
    obtain ⟨dl, hdl, hscalar⟩ := exists_deadline hs
    obtain ⟨htype, -, -, s', v, t, hs', hv, -, hreached, -⟩ := parseRule_deadline h hdl
    rw [hscalar] at hs'
    cases hs'
    rw [PlaceFits, ← stateFits_iff hv]
    exact held_iff_means fun u => by simp [RuleHolds, htype, hreached, eq_comm]
  | withoutState =>
    obtain ⟨dl, hdl, hscalar⟩ := exists_deadline hs
    obtain ⟨htype, -, -, -, -, -, -, -, -, -, -, hwithout⟩ := parseRule_deadline h hdl
    rw [hscalar] at hwithout
    rw [PlaceFits, ← withoutState_iff long]
    refine held_iff_means fun u => ?_
    rw [RuleHolds, hwithout]
    exact ⟨fun hu => hu.2.symm, fun hu => ⟨htype, hu.symm⟩⟩
  | timeoutMs =>
    obtain ⟨dl, hdl, hscalar⟩ := exists_deadline hs
    obtain ⟨htype, -, -, -, -, t, -, -, ht, -, htimeout, -⟩ := parseRule_deadline h hdl
    rw [hscalar] at ht
    cases ht
    rw [PlaceFits, ← numberFits_iff]
    exact held_iff_means fun u => by simp [RuleHolds, htype, htimeout, eq_comm]

/-- What an event rule holds was read. -/
theorem eventHolds_read (h : parseRule long alloc rn = .ok r)
    (hdl : mapGet (some rn) "deadline" = none) {place : RulePlace} {v : ℤ}
    (hv : RuleHolds r place v) :
    (∃ s, RuleRead rn place s ∧ ((∃ u, Means u s ∧ RuleHolds r place u) → Means v s)) ∨
      Unread rn place v := by
  obtain ⟨htype, ⟨pairs, hpairs, hfold⟩, hwhen⟩ := parseRule_event h hdl
  have hevent : r.type ≠ .deadline := by simp [htype]
  cases place with
  | cond j place =>
    obtain ⟨c, hc, hholds⟩ := hv
    rcases hwhen with ⟨-, hnil⟩ | ⟨items, hitems, hall⟩
    · rw [hnil] at hc
      cases hc
    · obtain ⟨item, hj, hparse⟩ := forall₂_getElem? hall.flip hc
      obtain ⟨s, hs, hmeans⟩ := condHolds_read hparse hholds
      refine .inl ⟨s, ⟨hdl, items, item, hitems, hj, hs⟩, ?_⟩
      rintro ⟨u, hu, c', hc', hholds'⟩
      rw [hc] at hc'
      cases hc'
      exact hmeans ⟨u, hu, hholds'⟩
  | triggerKind =>
    rcases triggerEntries_kind hfold with ⟨-, hnone⟩ | ⟨before, s, after, w, rfl, hafter, -, -⟩
    · obtain ⟨k, hk, -⟩ := hv
      rw [hnone] at hk
      cases hk
    · exact .inl ⟨s, ⟨hdl, before, after, hpairs, hafter⟩,
        means_of_held fun u hu => condKind_unique hu hv⟩
  | triggerMatch field op =>
    obtain ⟨fid, hfid, hmem⟩ := hv
    rcases (triggerEntries_hold hfold).2 _ hmem with hold | ⟨p, hp, ks, vs, rfl, hne, hfrom⟩
    · cases hold
    · obtain ⟨rfl, hmeans, rfl⟩ := hfrom.read hfid
      exact .inl ⟨_, ⟨hdl, _, vs, hpairs, hne, ⟨pairs, rfl, hp⟩, rfl⟩, fun _ => hmeans⟩
  | deadlineKind => exact absurd hv.1 hevent
  | reachedState => exact absurd hv.1 hevent
  | withoutState => exact absurd hv.1 hevent
  | timeoutMs => exact absurd hv.1 hevent

/-- So was what a deadline rule holds. -/
theorem deadlineHolds_read {dl : YamlNode} (h : parseRule long alloc rn = .ok r)
    (hdl : mapGet (some rn) "deadline" = some dl) {place : RulePlace} {v : ℤ}
    (hv : RuleHolds r place v) :
    (∃ s, RuleRead rn place s ∧ ((∃ u, Means u s ∧ RuleHolds r place u) → Means v s)) ∨
      Unread rn place v := by
  obtain ⟨htype, htrigger, hwhen, s, w, t, hs, -, ht, -, -, hwithout⟩ := parseRule_deadline h hdl
  have hgiven : mapGet (some rn) "deadline" ≠ none := by simp [hdl]
  cases place with
  | cond j place =>
    obtain ⟨c, hc, -⟩ := hv
    rw [hwhen] at hc
    cases hc
  | triggerKind =>
    obtain ⟨k, hk, -⟩ := hv
    rw [htrigger] at hk
    cases hk
  | triggerMatch field op =>
    obtain ⟨fid, -, hmem⟩ := hv
    rw [htrigger] at hmem
    cases hmem
  | deadlineKind => exact .inr ⟨hgiven, hv.2⟩
  | reachedState =>
    refine .inl ⟨s, by rw [RuleRead, hdl, hs], means_of_held fun u hu => ?_⟩
    rw [← hu.2, ← hv.2]
  | withoutState =>
    cases hscalar : nodeScalar (mapGet (some dl) "without_state") with
    | none =>
      rw [hscalar] at hwithout
      refine .inr ⟨hgiven, fun s' hs' => ?_, hv.2 ▸ hwithout⟩
      rw [RuleRead, hdl] at hs'
      rw [hs'] at hscalar
      cases hscalar
    | some s' =>
      refine .inl ⟨s', ?_, means_of_held fun u hu => ?_⟩
      · rw [RuleRead, hdl]
        cases hget : mapGet (some dl) "without_state" with
        | none =>
          rw [hget] at hscalar
          cases hscalar
        | some n =>
          rw [hget, nodeScalar_eq_some] at hscalar
          rw [hscalar]
      · rw [← hu.2, ← hv.2]
  | timeoutMs =>
    refine .inl ⟨t, by rw [RuleRead, hdl, ht], means_of_held fun u hu => ?_⟩
    rw [← hu.2, ← hv.2]

/-- **What a rule holds was read**, from a scalar that means it if it is held at all, or goes
unread. -/
theorem ruleHolds_read (h : parseRule long alloc rn = .ok r) {place : RulePlace} {v : ℤ}
    (hv : RuleHolds r place v) :
    (∃ s, RuleRead rn place s ∧ ((∃ u, Means u s ∧ RuleHolds r place u) → Means v s)) ∨
      Unread rn place v := by
  cases hdl : mapGet (some rn) "deadline" with
  | none => exact eventHolds_read h hdl hv
  | some dl => exact deadlineHolds_read h hdl hv

/-- What goes unread is held. -/
theorem unread_holds (h : parseRule long alloc rn = .ok r) {place : RulePlace} {v : ℤ}
    (hv : Unread rn place v) : RuleHolds r place v := by
  cases place with
  | deadlineKind =>
    obtain ⟨dl, hdl⟩ := Option.ne_none_iff_exists'.mp hv.1
    exact ⟨(parseRule_deadline h hdl).1, hv.2⟩
  | withoutState =>
    obtain ⟨hgiven, hnone, rfl⟩ := hv
    obtain ⟨dl, hdl⟩ := Option.ne_none_iff_exists'.mp hgiven
    obtain ⟨htype, -, -, -, -, -, -, -, -, -, -, hwithout⟩ := parseRule_deadline h hdl
    refine ⟨htype, ?_⟩
    rw [hwithout]
    cases hget : mapGet (some dl) "without_state" with
    | none => rfl
    | some n =>
      cases n with
      | scalar s => exact absurd (by rw [RuleRead, hdl, hget]) (hnone s)
      | sequence items => rfl
      | mapping pairs => rfl
  | _ => exact hv.elim

/-- A scalar that stands for what the rule has in its place is held. -/
theorem held_of_ruleFits (h : parseRule long alloc rn = .ok r) {place : RulePlace} {s : CStr}
    (hs : RuleFits long rn place s) : ∃ v, Means v s ∧ RuleHolds r place v := by
  rcases hs with ⟨s₀, v, hread, hfits, hv₀, hv⟩ | ⟨v, hv, hmeans⟩
  · obtain ⟨u, hu, hholds⟩ := (ruleRead_iff h hread).mpr hfits
    obtain rfl := hu.unique hv₀
    exact ⟨u, hv, hholds⟩
  · exact ⟨v, hmeans, unread_holds h hv⟩

/-- **A rule**: if what is read of it is held, a scalar given anywhere is held exactly if it
stands for what the rule has in its place. -/
theorem parseRule_scalar (h : parseRule long alloc rn = .ok r)
    (hread : ∀ place s, RuleRead rn place s → ∃ v, Means v s ∧ RuleHolds r place v)
    (place : RulePlace) (s : CStr) :
    (∃ v, Means v s ∧ RuleHolds r place v) ↔ RuleFits long rn place s := by
  refine ⟨?_, held_of_ruleFits h⟩
  rintro ⟨v, hv, hholds⟩
  rcases ruleHolds_read h hholds with ⟨s₀, hs₀, hmeans⟩ | hunread
  · have hheld := hread place s₀ hs₀
    exact .inl ⟨s₀, v, hs₀, (ruleRead_iff h hs₀).mp hheld, hmeans hheld, hv⟩
  · exact .inr ⟨v, hunread, hv⟩

/-! ## Documents -/

/-- The document has the `i`-th rule node, in this list of rules or in another. -/
def RuleNode (root : YamlNode) (i : ℕ) (rn : YamlNode) : Prop :=
  ∃ items, MapEntry root "rules".toList (.sequence items) ∧ items[i]? = some rn

/-- The loader reads the `i`-th rule node. -/
def ReadNode (root : YamlNode) (i : ℕ) (rn : YamlNode) : Prop :=
  i < diagMaxRules ∧ ∃ items, mapGet (some root) "rules" = some (.sequence items) ∧
    items[i]? = some rn

/-- **Every scalar of the document is held**: it means a value, and the rule that results from
its node holds it. -/
def DocScalarsHeld (root : YamlNode) (rules : List DiagRule) : Prop :=
  ∀ i rn, RuleNode root i rn → ∀ place s, RuleScalar rn place s →
    ∃ r v, rules[i]? = some r ∧ Means v s ∧ RuleHolds r place v

/-- Every scalar of the document stands for what the rule has in its place. -/
def DocScalarsFit (long : LongWidth) (root : YamlNode) : Prop :=
  ∀ i rn, RuleNode root i rn → ∀ place s, RuleScalar rn place s →
    ∃ rn₀, ReadNode root i rn₀ ∧ RuleFits long rn₀ place s

/-- The rules of an accepted document are those of the nodes that are read. -/
theorem diagRulesParse_nodes {alloc : RulesAlloc} {root : YamlNode} {rules : List DiagRule}
    (h : (diagRulesParse long alloc (.ok (some root))).out = some rules) :
    (∀ i rn, ReadNode root i rn →
      ∃ r, rules[i]? = some r ∧ ∃ alloc, parseRule long alloc rn = .ok r) ∧
      ∀ i r, rules[i]? = some r → ∃ rn, ReadNode root i rn ∧ RuleNode root i rn ∧
        ∃ alloc, parseRule long alloc rn = .ok r := by
  obtain ⟨root', items, hroot, hitems, hall⟩ := diagRulesParse_ok h
  cases hroot
  constructor
  · rintro i rn ⟨hi, items', hitems', hrn⟩
    rw [hitems] at hitems'
    cases hitems'
    exact forall₂_getElem? hall (by rwa [List.getElem?_take_of_lt hi])
  · intro i r hr
    obtain ⟨rn, hrn, hparse⟩ := forall₂_getElem? hall.flip hr
    have hi : i < diagMaxRules := by
      by_contra hge
      rw [List.getElem?_take_eq_none (by omega)] at hrn
      cases hrn
    rw [List.getElem?_take_of_lt hi] at hrn
    exact ⟨rn, ⟨hi, items, hitems, hrn⟩, ⟨items, mapEntry_of_mapGet hitems, hrn⟩, hparse⟩

/-- **Accepted documents.**  The rules of a document that is accepted hold what its scalars
mean exactly if every scalar stands for what the rule of its node has in its place: it is the
scalar that is read there, or means the same, and that one is what the place takes, for a kind a
value of 32 bits, for a state an `int`, for a number a literal of a `long` or a symbol for 0;
the kind of a deadline block means `enum`.
SOURCE: rules.c:144-160, 164-190, 192-227, 257-456, 493-516 -/
theorem doc_scalars_iff (long : LongWidth) (alloc : RulesAlloc) (root : YamlNode)
    (rules : List DiagRule) (h : (diagRulesParse long alloc (.ok (some root))).out = some rules) :
    DocScalarsHeld root rules ↔ DocScalarsFit long root := by
  obtain ⟨hnodes, hrules⟩ := diagRulesParse_nodes h
  constructor
  · intro hheld i rn hrn place s hs
    obtain ⟨r, v, hr, hv⟩ := hheld i rn hrn place s hs
    obtain ⟨rn₀, hread, hnode, _, hparse⟩ := hrules i r hr
    refine ⟨rn₀, hread, (parseRule_scalar hparse (fun place s hs => ?_) place s).mp ⟨v, hv⟩⟩
    obtain ⟨r', u, hr', hu⟩ := hheld i rn₀ hnode place s hs.scalar
    rw [hr] at hr'
    cases hr'
    exact ⟨u, hu⟩
  · intro hfit i rn hrn place s hs
    obtain ⟨rn₀, hread, hfits⟩ := hfit i rn hrn place s hs
    obtain ⟨r, hr, _, hparse⟩ := hnodes i rn₀ hread
    obtain ⟨v, hv⟩ := held_of_ruleFits hparse hfits
    exact ⟨r, v, hr, hv⟩

/-- A deadline rule with the given kind and states, in a document of its own. -/
def deadlineNode (kind reached without : String) : YamlNode :=
  .mapping [(nameNode "id", nameNode "enum-stall"),
    (nameNode "deadline", .mapping [(nameNode "kind", nameNode kind),
      (nameNode "reached_state", nameNode reached), (nameNode "without_state", nameNode without),
      (nameNode "timeout_ms", nameNode "3000")])]

def deadlineDoc (kind reached without : String) : YamlNode :=
  .mapping [(nameNode "rules", .sequence [deadlineNode kind reached without])]

/-- The rule of the document, with the states it holds. -/
def deadlineRule (reached without : ℤ) : DiagRule where
  id := some "enum-stall".toList
  type := .deadline
  dlReachedState := reached
  dlWithoutState := without
  dlTimeoutMs := 3000

/-- An entry of a mapping whose keys are names. -/
theorem mapEntry_names {l : List (String × YamlNode)} {key : String} {n : YamlNode}
    (h : MapEntry (.mapping (l.map fun e => (nameNode e.1, e.2))) key.toList n) :
    (key, n) ∈ l := by
  obtain ⟨pairs, heq, hmem⟩ := h
  cases heq
  obtain ⟨⟨k, v⟩, he, heq⟩ := List.mem_map.mp hmem
  obtain ⟨hk, rfl⟩ := Prod.mk.inj heq
  have hk : k.toList = key.toList := YamlNode.scalar.inj hk
  exact String.toList_injective hk ▸ he

/-- The scalars of the document. -/
theorem deadline_scalars {kind reached without : String} {place : RulePlace} {s : CStr}
    (h : RuleScalar (deadlineNode kind reached without) place s) :
    place = .deadlineKind ∧ s = kind.toList ∨ place = .reachedState ∧ s = reached.toList ∨
      place = .withoutState ∧ s = without.toList ∨
      place = .timeoutMs ∧ s = "3000".toList := by
  have hrule {key : String} {n : YamlNode}
      (h : MapEntry (deadlineNode kind reached without) key.toList n) :=
    mapEntry_names (l := [("id", nameNode "enum-stall"), ("deadline", _)]) h
  have hblock {key : String} {s : CStr} {dl : YamlNode}
      (h : MapEntry (deadlineNode kind reached without) "deadline".toList dl ∧
        MapEntry dl key.toList (.scalar s)) :
      (key, YamlNode.scalar s) ∈ [("kind", nameNode kind), ("reached_state", nameNode reached),
        ("without_state", nameNode without), ("timeout_ms", nameNode "3000")] := by
    obtain ⟨hdl, hs⟩ := h
    have hdl := hrule hdl
    simp only [List.mem_cons, Prod.mk.injEq, String.reduceEq, false_and, true_and, false_or,
      List.not_mem_nil, or_false] at hdl
    subst hdl
    exact mapEntry_names hs
  cases place with
  | cond j place =>
    obtain ⟨items, item, hitems, -⟩ := h
    simpa using hrule hitems
  | triggerKind =>
    obtain ⟨t, ht, -⟩ := h
    simpa using hrule ht
  | triggerMatch field op =>
    obtain ⟨t, vs, ht, -⟩ := h
    simpa using hrule ht
  | deadlineKind =>
    obtain ⟨dl, h⟩ := h
    simpa [nameNode] using hblock h
  | reachedState =>
    obtain ⟨dl, h⟩ := h
    simpa [nameNode] using hblock h
  | withoutState =>
    obtain ⟨dl, h⟩ := h
    simpa [nameNode] using hblock h
  | timeoutMs =>
    obtain ⟨dl, h⟩ := h
    simpa [nameNode] using hblock h

/-- A document with the deadline rule only. -/
theorem ruleNode_deadlineDoc {kind reached without : String} {i : ℕ} {rn : YamlNode}
    (h : RuleNode (deadlineDoc kind reached without) i rn) :
    i = 0 ∧ rn = deadlineNode kind reached without := by
  obtain ⟨items, hitems, hi⟩ := h
  have hmem := mapEntry_names (l := [("rules", _)]) hitems
  simp only [List.mem_singleton, Prod.mk.injEq, true_and, YamlNode.sequence.injEq] at hmem
  subst hmem
  rw [List.getElem?_singleton] at hi
  split at hi
  · next hzero =>
    cases hi
    exact ⟨hzero, rfl⟩
  · cases hi

/-- The rule on stalled enumerations as the built-in rules have it (rules.yaml:78-87): it is
accepted, and holds every scalar of its document. -/
theorem doc_scalars_iff_sample :
    (diagRulesParse .long32 {} (.ok (some (deadlineDoc "enum" "ADDRESS" "CONFIGURED")))).out =
      some [deadlineRule 6 7] ∧
    DocScalarsHeld (deadlineDoc "enum" "ADDRESS" "CONFIGURED") [deadlineRule 6 7] := by
  have hparse : (diagRulesParse .long32 {}
      (.ok (some (deadlineDoc "enum" "ADDRESS" "CONFIGURED")))).out = some [deadlineRule 6 7] := by
    decide +kernel
  refine ⟨hparse, (doc_scalars_iff .long32 {} _ _ hparse).mpr ?_⟩
  intro i rn hrn place s hs
  obtain ⟨rfl, rfl⟩ := ruleNode_deadlineDoc hrn
  have haddress : Means 6 "ADDRESS".toList := .symbol (by decide)
  have hconfigured : Means 7 "CONFIGURED".toList := .symbol (by decide)
  have hnumber : IntegerLiteral "3000".toList 3000 := decimal_literal 3000
  refine ⟨_, ⟨by decide, _, rfl, rfl⟩, ?_⟩
  rcases deadline_scalars hs with ⟨rfl, rfl⟩ | ⟨rfl, rfl⟩ | ⟨rfl, rfl⟩ | ⟨rfl, rfl⟩
  · exact .inr ⟨2, ⟨by simp [mapGet, deadlineNode, nameNode, nodeScalar], rfl⟩,
      .symbol (by decide)⟩
  · exact .inl ⟨_, 6, rfl, ⟨6, haddress, by decide, by decide⟩, haddress, haddress⟩
  · exact .inl ⟨_, 7, rfl, ⟨7, hconfigured, by decide, by decide⟩, hconfigured, hconfigured⟩
  · exact .inl ⟨_, 3000, rfl, .inl ⟨3000, hnumber, by decide⟩, .number hnumber, .number hnumber⟩

/-- **What is misspelt is accepted**: for the state a deadline waits for, and the rule waits for
none, and for the kind of a deadline block, and the rule is the one with `enum`. -/
theorem misspelt_state_accepted :
    ((diagRulesParse .long64 {} (.ok (some (deadlineDoc "enum" "ADDRESS" "CONFIGRED")))).out =
        some [deadlineRule 6 (-1)] ∧
      ¬ DocScalarsHeld (deadlineDoc "enum" "ADDRESS" "CONFIGRED") [deadlineRule 6 (-1)]) ∧
    (diagRulesParse .long64 {} (.ok (some (deadlineDoc "enmu" "ADDRESS" "CONFIGURED")))).out =
        some [deadlineRule 6 7] ∧
      ¬ DocScalarsHeld (deadlineDoc "enmu" "ADDRESS" "CONFIGURED") [deadlineRule 6 7] := by
  have hunknown {s : CStr} (hs : resolveValue .long64 s = none) {v : ℤ} (hlo : -2 ^ 31 ≤ v)
      (hhi : v < 2 ^ 31) : ¬ Means v s := by
    intro hv
    rw [resolveValue_iff.mpr ⟨hv, LongWidth.holds_of_int hlo hhi⟩] at hs
    cases hs
  have hnode (kind reached without : String) :
      RuleNode (deadlineDoc kind reached without) 0 (deadlineNode kind reached without) :=
    ⟨_, ⟨_, rfl, List.mem_singleton_self _⟩, rfl⟩
  refine ⟨⟨by decide +kernel, fun hheld => ?_⟩, by decide +kernel, fun hheld => ?_⟩
  · obtain ⟨r, v, hr, hv, -, hholds⟩ := hheld 0 _ (hnode _ _ _) .withoutState "CONFIGRED".toList
      ⟨_, ⟨_, rfl, List.mem_cons_of_mem _ (List.mem_singleton_self _)⟩, _, rfl, by simp [nameNode]⟩
    cases hr
    cases hholds
    exact hunknown (by decide +kernel) (by decide) (by decide) hv
  · obtain ⟨r, v, hr, hv, -, hholds⟩ := hheld 0 _ (hnode _ _ _) .deadlineKind "enmu".toList
      ⟨_, ⟨_, rfl, List.mem_cons_of_mem _ (List.mem_singleton_self _)⟩, _, rfl, by simp [nameNode]⟩
    cases hr
    cases hholds
    exact hunknown (by decide +kernel) (by decide) (by decide) hv

end UsbTrace.Analysis

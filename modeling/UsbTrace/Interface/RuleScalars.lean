import UsbTrace.Interface.RuleDoc
import UsbTrace.Interface.RuleParse
import Mathlib.Data.List.Nodup

/-!
# The scalars of rule documents

Where a rule document gives a value, and what it means for the rule read from it to hold
that value.  `Means` is the meaning of a scalar, a complete integer literal or a known symbol
(rules.c:111-112); `resolve_value` is that meaning for the values of a `long`
(`resolveValue_iff`), `strtol` alone is not (`numberFits_iff`).

A document gives a scalar in a place wherever an entry with the place's key has it
(`RuleScalar`): also where the loader looks up another entry with the key, and in the parts of a
rule it does not look at.  `RuleRead` are the scalars it does read.
-/

set_option autoImplicit false

namespace UsbTrace.Interface

open UsbTrace.Model UsbTrace.Library

variable {long : LongWidth}

/-! ## Scalars -/

/-- The scalar means the value: it is a literal of it, or a symbol for it. -/
inductive Means (v : ℤ) (s : CStr) : Prop
  | number (h : IntegerLiteral s v)
  | symbol (h : (s, v) ∈ kindSyms ++ enumSyms)

/-- Every name of a value resolves to it: no name is read as a number, and no name of an
action is one of a kind with another value. -/
theorem resolveValue_syms (long : LongWidth) :
    ∀ p ∈ kindSyms ++ enumSyms, resolveValue long p.1 = some p.2 := by
  cases long <;> decide +kernel

/-- Symbols are small, and as numbers they are 0, with nothing read. -/
theorem strtol_syms (long : LongWidth) : ∀ p ∈ kindSyms ++ enumSyms,
    (0 ≤ p.2 ∧ p.2 < 16) ∧ (strtol long.bits p.1).value = 0 ∧ (strtol long.bits p.1).rest ≠ [] := by
  cases long <;> decide +kernel

/-- No symbol is a number. -/
theorem not_literal_of_symbol {s : CStr} {v : ℤ} (h : (s, v) ∈ kindSyms ++ enumSyms) (u : ℤ) :
    ¬ IntegerLiteral s u := by
  intro hliteral
  refine (strtol_syms .long64 _ h).2.2 ?_
  rw [strtol_literal hliteral]
  split_ifs <;> rfl

/-- **A scalar means one value.** -/
theorem Means.unique {v v' : ℤ} {s : CStr} (h : Means v s) (h' : Means v' s) : v = v' := by
  rcases h with hnumber | hsymbol
  · rcases h' with hnumber' | hsymbol'
    · exact integerLiteral_unique hnumber hnumber'
    · exact absurd hnumber (not_literal_of_symbol hsymbol' v)
  · rcases h' with hnumber' | hsymbol'
    · exact absurd hnumber' (not_literal_of_symbol hsymbol v')
    · have hv := resolveValue_syms .long64 _ hsymbol
      rw [resolveValue_syms .long64 _ hsymbol'] at hv
      exact (Option.some.inj hv).symm

theorem mem_of_symLookup {α : Type} {tab : List (CStr × α)} {s : CStr} {v : α}
    (h : symLookup tab s = some v) : (s, v) ∈ tab := by
  obtain ⟨⟨name, value⟩, hfind, rfl⟩ := Option.map_eq_some_iff.mp h
  have hname := List.find?_some hfind
  simp only [decide_eq_true_eq] at hname
  rw [← hname]
  exact List.mem_of_find?_eq_some hfind

theorem strtol_holds {s : CStr} {v : ℤ} (h : IntegerLiteral s v) (hv : long.Holds v) :
    strtol long.bits s = ⟨v, [], false⟩ := by
  obtain ⟨hlo, hhi⟩ := hv
  rw [strtol_literal h, if_neg (by omega), if_neg (by omega)]

/-- Out of the range of a `long` the value is another one, and `errno` is set. -/
theorem strtol_not_holds {s : CStr} {v : ℤ} (h : IntegerLiteral s v) (hv : ¬ long.Holds v) :
    (strtol long.bits s).erange = true ∧ (strtol long.bits s).value ≠ v := by
  rw [LongWidth.Holds] at hv
  rw [strtol_literal h]
  split_ifs
  · refine ⟨rfl, ?_⟩
    show (2 ^ (long.bits - 1) - 1 : ℤ) ≠ v
    omega
  · refine ⟨rfl, ?_⟩
    show (-2 ^ (long.bits - 1) : ℤ) ≠ v
    omega
  · omega

theorem integerLiteral_ne_nil {s : CStr} {v : ℤ} (h : IntegerLiteral s v) : s ≠ [] := by
  rintro rfl
  obtain ⟨n, hn, -⟩ := integerLiteral_iff.mp h
  obtain ⟨c, cs, hcs, -⟩ := hn.head
  cases hcs

/-- **`resolve_value`** resolves a scalar to the value it means, where that fits a `long`.
SOURCE: rules.c:113-132 -/
theorem resolveValue_iff {s : CStr} {v : ℤ} :
    resolveValue long s = some v ↔ Means v s ∧ long.Holds v := by
  have hsymbol {v : ℤ} (h : (s, v) ∈ kindSyms ++ enumSyms) : long.Holds v := by
    have hsmall := (strtol_syms long _ h).1
    exact LongWidth.holds_of_int (by omega) (by omega)
  constructor
  · intro h
    unfold resolveValue at h
    dsimp only at h
    split_ifs at h with hnil hread
    · obtain ⟨w, hw⟩ := literal_of_strtol hnil hread.2
      by_cases hlong : long.Holds w
      · rw [strtol_holds hw hlong] at h
        cases h
        exact ⟨.number hw, hlong⟩
      · have herange := (strtol_not_holds hw hlong).1
        rw [hread.1] at herange
        cases herange
    · have hmem : (s, v) ∈ kindSyms ++ enumSyms := by
        split at h
        · next w hkind =>
          cases h
          exact List.mem_append_left _ (mem_of_symLookup hkind)
        · exact List.mem_append_right _ (mem_of_symLookup h)
      exact ⟨.symbol hmem, hsymbol hmem⟩
  · rintro ⟨hnumber | hmem, hlong⟩
    · rw [resolveValue, if_neg (integerLiteral_ne_nil hnumber), strtol_holds hnumber hlong]
      exact if_pos ⟨rfl, rfl⟩
    · exact resolveValue_syms long (s, v) hmem

/-- A scalar that is read right as a number: a literal in the range of a `long`, or one of the
symbols for 0. -/
def NumberFits (long : LongWidth) (s : CStr) : Prop :=
  (∃ v, IntegerLiteral s v ∧ long.Holds v) ∨ (s, 0) ∈ kindSyms ++ enumSyms

/-- **`strtol` alone** reads such scalars right, and no others. -/
theorem numberFits_iff {s : CStr} :
    Means (strtol long.bits s).value s ↔ NumberFits long s := by
  constructor
  · rintro (hnumber | hmem)
    · refine .inl ⟨_, hnumber, ?_⟩
      by_contra hlong
      exact (strtol_not_holds hnumber hlong).2 rfl
    · rw [(strtol_syms long _ hmem).2.1] at hmem
      exact .inr hmem
  · rintro (⟨v, hnumber, hlong⟩ | hmem)
    · rw [strtol_holds hnumber hlong]
      exact .number hnumber
    · rw [(strtol_syms long _ hmem).2.1]
      exact .symbol hmem

/-- A scalar that means a kind of 32 bits. -/
def KindFits (s : CStr) : Prop := ∃ v, Means v s ∧ 0 ≤ v ∧ v < 2 ^ 32

/-- A scalar that means an `int`. -/
def StateFits (s : CStr) : Prop := ∃ v, Means v s ∧ -2 ^ 31 ≤ v ∧ v < 2 ^ 31

theorem toNat_ofInt {v : ℤ} (hlo : 0 ≤ v) (hhi : v < 2 ^ 32) :
    ((UInt32.ofInt v).toNat : ℤ) = v := by
  rw [UInt32.ofInt, UInt32.toNat_ofNat']
  omega

theorem toInt_eq {v : ℤ} (hlo : -2 ^ 31 ≤ v) (hhi : v < 2 ^ 31) : toInt v = v :=
  Int.bmod_eq_of_le (by omega) (by omega)

theorem toInt_range (v : ℤ) : -2 ^ 31 ≤ toInt v ∧ toInt v < 2 ^ 31 := by
  have hlo := Int.le_bmod (x := v) (m := 2 ^ 32) (by decide)
  have hhi := Int.bmod_lt (x := v) (m := 2 ^ 32) (by decide)
  unfold toInt
  omega

/-- A scalar that is resolved to a kind is kept whole if what it means has 32 bits. -/
theorem kindFits_iff {s : CStr} {v : ℤ} (h : resolveValue long s = some v) :
    Means ((UInt32.ofInt v).toNat : ℤ) s ↔ KindFits s := by
  have hmeans := (resolveValue_iff.mp h).1
  constructor
  · intro hkind
    have := (UInt32.ofInt v).toNat_lt
    exact ⟨_, hkind, by omega, by omega⟩
  · rintro ⟨w, hw, hlo, hhi⟩
    obtain rfl := hmeans.unique hw
    rwa [toNat_ofInt hlo hhi]

/-- A scalar that is resolved to a state is kept whole if what it means is an `int`. -/
theorem stateFits_iff {s : CStr} {v : ℤ} (h : resolveValue long s = some v) :
    Means (toInt v) s ↔ StateFits s := by
  have hmeans := (resolveValue_iff.mp h).1
  constructor
  · intro hstate
    exact ⟨_, hstate, toInt_range v⟩
  · rintro ⟨w, hw, hlo, hhi⟩
    obtain rfl := hmeans.unique hw
    rwa [toInt_eq hlo hhi]

/-! ## Places -/

/-- The mapping has an entry with the key, the first or a later one. -/
def MapEntry (n : YamlNode) (key : CStr) (child : YamlNode) : Prop :=
  ∃ pairs, n = .mapping pairs ∧ (.scalar key, child) ∈ pairs

/-- What is looked up is an entry. -/
theorem mapEntry_of_mapGet {n child : YamlNode} {key : String}
    (h : mapGet (some n) key = some child) : MapEntry n key.toList child := by
  unfold mapGet at h
  split at h
  · next pairs hn =>
    cases hn
    obtain ⟨⟨k, v⟩, hfind, rfl⟩ := Option.map_eq_some_iff.mp h
    have hkey := List.find?_some hfind
    simp only [decide_eq_true_eq] at hkey
    rw [nodeScalar_eq_some] at hkey
    exact ⟨pairs, rfl, hkey ▸ List.mem_of_find?_eq_some hfind⟩
  · cases h

/-- The places of a when item that hold a value. -/
inductive CondPlace where
  | kind
  | matchValue (field : CStr) (op : DiagOp)
  | statusIn
  | withinMs
  | countGte
  | minSpanMs
  | clusterMs

/-- The document gives the scalar in a place of the when item. -/
def CondScalar (item : YamlNode) : CondPlace → CStr → Prop
  | .kind, s => MapEntry item "kind".toList (.scalar s)
  | .matchValue field op, s => ∃ m vs, MapEntry item "match".toList m ∧
      MapEntry m field (.scalar vs) ∧ splitOp vs = (op, s)
  | .statusIn, s => ∃ items, MapEntry item "status_in".toList (.sequence items) ∧
      .scalar s ∈ items
  | .withinMs, s => MapEntry item "within_ms".toList (.scalar s)
  | .countGte, s => MapEntry item "count_gte".toList (.scalar s)
  | .minSpanMs, s => MapEntry item "min_span_ms".toList (.scalar s)
  | .clusterMs, s => MapEntry item "cluster_ms".toList (.scalar s)

/-- The loader reads the scalar in a place of the when item. -/
def CondRead (item : YamlNode) : CondPlace → CStr → Prop
  | .kind, s => mapGet (some item) "kind" = some (.scalar s)
  | .matchValue field op, s => ∃ m vs, mapGet (some item) "match" = some m ∧
      MapEntry m field (.scalar vs) ∧ splitOp vs = (op, s)
  | .statusIn, s => ∃ items, mapGet (some item) "status_in" = some (.sequence items) ∧
      .scalar s ∈ items
  | .withinMs, s => mapGet (some item) "within_ms" = some (.scalar s)
  | .countGte, s => mapGet (some item) "count_gte" = some (.scalar s)
  | .minSpanMs, s => mapGet (some item) "min_span_ms" = some (.scalar s)
  | .clusterMs, s => mapGet (some item) "cluster_ms" = some (.scalar s)

theorem CondRead.scalar {item : YamlNode} {place : CondPlace} {s : CStr}
    (h : CondRead item place s) : CondScalar item place s := by
  cases place with
  | matchValue field op =>
    obtain ⟨m, vs, hm, hvs⟩ := h
    exact ⟨m, vs, mapEntry_of_mapGet hm, hvs⟩
  | statusIn =>
    obtain ⟨items, hitems, hs⟩ := h
    exact ⟨items, mapEntry_of_mapGet hitems, hs⟩
  | _ => exact mapEntry_of_mapGet h

/-- The condition holds the value in a place. -/
def CondHolds (c : DiagCond) : CondPlace → ℤ → Prop
  | .kind, v => ∃ k, c.kind = some k ∧ (k.toNat : ℤ) = v
  | .matchValue field op, v => ∃ fid, symLookup fieldSyms field = some fid ∧
      { field := fid, value := v, op := op } ∈ c.matchList
  | .statusIn, v => v ∈ c.statusIn
  | .withinMs, v => c.withinMs = some v
  | .countGte, v => c.countGte = some v
  | .minSpanMs, v => c.minSpanMs = some v
  | .clusterMs, v => c.clusterMs = some v

/-- The places of a rule that hold a value. -/
inductive RulePlace where
  | cond (j : ℕ) (place : CondPlace)
  | triggerKind
  | triggerMatch (field : CStr) (op : DiagOp)
  | deadlineKind
  | reachedState
  | withoutState
  | timeoutMs

/-- The document gives the scalar in a place of the rule node. -/
def RuleScalar (rn : YamlNode) : RulePlace → CStr → Prop
  | .cond j place, s => ∃ items item, MapEntry rn "when".toList (.sequence items) ∧
      items[j]? = some item ∧ CondScalar item place s
  | .triggerKind, s => ∃ t, MapEntry rn "trigger".toList t ∧ MapEntry t "kind".toList (.scalar s)
  | .triggerMatch field op, s => ∃ t vs, MapEntry rn "trigger".toList t ∧
      field ≠ "kind".toList ∧ MapEntry t field (.scalar vs) ∧ splitOp vs = (op, s)
  | .deadlineKind, s => ∃ dl, MapEntry rn "deadline".toList dl ∧
      MapEntry dl "kind".toList (.scalar s)
  | .reachedState, s => ∃ dl, MapEntry rn "deadline".toList dl ∧
      MapEntry dl "reached_state".toList (.scalar s)
  | .withoutState, s => ∃ dl, MapEntry rn "deadline".toList dl ∧
      MapEntry dl "without_state".toList (.scalar s)
  | .timeoutMs, s => ∃ dl, MapEntry rn "deadline".toList dl ∧
      MapEntry dl "timeout_ms".toList (.scalar s)

/-- The loader reads the scalar in a place of the rule node.  Of the kinds of a trigger it keeps
the last; a deadline block is read for no kind, and instead of trigger and when items. -/
def RuleRead (rn : YamlNode) : RulePlace → CStr → Prop
  | .cond j place, s => mapGet (some rn) "deadline" = none ∧ ∃ items item,
      mapGet (some rn) "when" = some (.sequence items) ∧ items[j]? = some item ∧
      CondRead item place s
  | .triggerKind, s => mapGet (some rn) "deadline" = none ∧ ∃ before after,
      mapGet (some rn) "trigger" =
        some (.mapping (before ++ (.scalar "kind".toList, .scalar s) :: after)) ∧
      ∀ n, (.scalar "kind".toList, n) ∉ after
  | .triggerMatch field op, s => mapGet (some rn) "deadline" = none ∧ ∃ t vs,
      mapGet (some rn) "trigger" = some t ∧ field ≠ "kind".toList ∧
      MapEntry t field (.scalar vs) ∧ splitOp vs = (op, s)
  | .deadlineKind, _ => False
  | .reachedState, s => mapGet (mapGet (some rn) "deadline") "reached_state" = some (.scalar s)
  | .withoutState, s => mapGet (mapGet (some rn) "deadline") "without_state" = some (.scalar s)
  | .timeoutMs, s => mapGet (mapGet (some rn) "deadline") "timeout_ms" = some (.scalar s)

/-- A key of the deadline block that is looked up. -/
theorem exists_deadline {rn child : YamlNode} {key : String}
    (h : mapGet (mapGet (some rn) "deadline") key = some child) :
    ∃ dl, mapGet (some rn) "deadline" = some dl ∧ mapGet (some dl) key = some child := by
  cases hdl : mapGet (some rn) "deadline" with
  | none =>
    rw [hdl] at h
    cases h
  | some dl => exact ⟨dl, rfl, hdl ▸ h⟩

/-- What the loader reads, the document gives. -/
theorem RuleRead.scalar {rn : YamlNode} {place : RulePlace} {s : CStr}
    (h : RuleRead rn place s) : RuleScalar rn place s := by
  have hblock {key : String} (h : mapGet (mapGet (some rn) "deadline") key = some (.scalar s)) :
      ∃ dl, MapEntry rn "deadline".toList dl ∧ MapEntry dl key.toList (.scalar s) := by
    obtain ⟨dl, hdl, hs⟩ := exists_deadline h
    exact ⟨dl, mapEntry_of_mapGet hdl, mapEntry_of_mapGet hs⟩
  cases place with
  | cond j place =>
    obtain ⟨-, items, item, hitems, hj, hs⟩ := h
    exact ⟨items, item, mapEntry_of_mapGet hitems, hj, hs.scalar⟩
  | triggerKind =>
    obtain ⟨-, before, after, ht, -⟩ := h
    exact ⟨_, mapEntry_of_mapGet ht, _, rfl, by simp⟩
  | triggerMatch field op =>
    obtain ⟨-, t, vs, ht, hvs⟩ := h
    exact ⟨t, vs, mapEntry_of_mapGet ht, hvs⟩
  | deadlineKind => exact h.elim
  | reachedState => exact hblock h
  | withoutState => exact hblock h
  | timeoutMs => exact hblock h

/-- The rule holds the value in a place.  A deadline rule is one on enumeration events and has no
kind of its own. -/
def RuleHolds (r : DiagRule) : RulePlace → ℤ → Prop
  | .cond j place, v => ∃ c, r.whenList[j]? = some c ∧ CondHolds c place v
  | .triggerKind, v => CondHolds r.trigger .kind v
  | .triggerMatch field op, v => CondHolds r.trigger (.matchValue field op) v
  | .deadlineKind, v => r.type = .deadline ∧ v = evtEnum.toNat
  | .reachedState, v => r.type = .deadline ∧ r.dlReachedState = v
  | .withoutState, v => r.type = .deadline ∧ r.dlWithoutState = v
  | .timeoutMs, v => r.type = .deadline ∧ r.dlTimeoutMs = v

/-! ## Scalars that are held -/

/-- What a scalar that is read in a place of a when item has to be. -/
def CondFits (long : LongWidth) : CondPlace → CStr → Prop
  | .kind, s => KindFits s
  | .matchValue _ _, _ => True
  | .statusIn, _ => True
  | .withinMs, s => NumberFits long s
  | .countGte, s => NumberFits long s
  | .minSpanMs, s => NumberFits long s
  | .clusterMs, s => NumberFits long s

/-- What a scalar that is read in a place of a rule node has to be. -/
def PlaceFits (long : LongWidth) : RulePlace → CStr → Prop
  | .cond _ place, s => CondFits long place s
  | .triggerKind, s => KindFits s
  | .triggerMatch _ _, _ => True
  | .deadlineKind, _ => False
  | .reachedState, s => StateFits s
  | .withoutState, s => StateFits s
  | .timeoutMs, s => NumberFits long s

/-- The values that a deadline rule has where no scalar is read: the kind it is about, and -1
for the state it waits for. -/
def Unread (rn : YamlNode) : RulePlace → ℤ → Prop
  | .deadlineKind, v => mapGet (some rn) "deadline" ≠ none ∧ v = evtEnum.toNat
  | .withoutState, v => mapGet (some rn) "deadline" ≠ none ∧
      (∀ s, ¬ RuleRead rn .withoutState s) ∧ v = -1
  | _, _ => False

/-- The scalar stands for what the rule read from the node has in the place: it means the same
as the scalar that is read there, which is one its place takes, or the value that goes unread. -/
def RuleFits (long : LongWidth) (rn : YamlNode) (place : RulePlace) (s : CStr) : Prop :=
  (∃ s₀ v, RuleRead rn place s₀ ∧ PlaceFits long place s₀ ∧ Means v s₀ ∧ Means v s) ∨
    ∃ v, Unread rn place v ∧ Means v s

/-! ## Conditions -/

variable {c c' : DiagCond}

/-- A match mapping changes the constraints only. -/
theorem matchEntries_frame {pairs : List (YamlNode × YamlNode)}
    (h : pairs.foldlM (matchEntry long) c = .ok c') : ∃ ms, c' = { c with matchList := ms } := by
  refine foldlM_ok_inv (P := fun c' => ∃ ms, c' = { c with matchList := ms }) ?_
    ⟨c.matchList, rfl⟩ h
  rintro _ p c₂ ⟨ms, rfl⟩ hstep
  obtain ⟨ks, vs, -, hadd⟩ := matchEntry_ok hstep
  obtain ⟨-, fid, v, -, -, rfl⟩ := addMatch_ok hadd
  exact ⟨_, rfl⟩

/-- A status list changes the statuses only. -/
theorem statusEntries_frame {items : List YamlNode}
    (h : items.foldlM (statusEntry long) c = .ok c') : ∃ vs, c' = { c with statusIn := vs } := by
  refine foldlM_ok_inv (P := fun c' => ∃ vs, c' = { c with statusIn := vs }) ?_
    ⟨c.statusIn, rfl⟩ h
  rintro _ e c₂ ⟨vs, rfl⟩ hstep
  obtain ⟨-, s, v, -, -, rfl⟩ := statusEntry_ok hstep
  exact ⟨_, rfl⟩

/-- The constraint is the one that the entry resolves to. -/
def FromEntry (long : LongWidth) (field vs : CStr) (m : DiagMatch) : Prop :=
  symLookup fieldSyms field = some m.field ∧ resolveValue long (splitOp vs).2 = some m.value ∧
    (splitOp vs).1 = m.op

/-- The constraint an entry A is the one it resolves to, and the others stay. -/
theorem addMatch_mem {field vs : CStr} (h : addMatch long c field vs = .ok c') :
    (∃ m ∈ c'.matchList, FromEntry long field vs m) ∧
      ∀ m, m ∈ c'.matchList ↔ m ∈ c.matchList ∨ m ∈ c'.matchList ∧ FromEntry long field vs m := by
  obtain ⟨-, fid, v, hfid, hv, rfl⟩ := addMatch_ok h
  have hnew : FromEntry long field vs
      { field := fid, value := v, op := (splitOp vs).1 } := ⟨hfid, hv, rfl⟩
  refine ⟨⟨_, List.mem_append_right _ (List.mem_singleton_self _), hnew⟩, fun m => ?_⟩
  constructor
  · intro hm
    rcases List.mem_append.mp hm with hold | hlast
    · exact .inl hold
    · exact .inr ⟨hm, List.mem_singleton.mp hlast ▸ hnew⟩
  · rintro (hold | ⟨hm, -⟩)
    · exact List.mem_append_left _ hold
    · exact hm

/-- **Constraints and entries.**  A mapping whose entries add constraints, or do other things,
leaves one for each entry that A one, next to those that were there. -/
theorem entries_hold {step : DiagCond → YamlNode × YamlNode → Except CStr DiagCond}
    {A : CStr → Prop}
    (hadd : ∀ c ks vs c', step c (.scalar ks, .scalar vs) = .ok c' → A ks →
      addMatch long c ks vs = .ok c')
    (hkeep : ∀ c p c', step c p = .ok c' → (∃ ks vs, p = (.scalar ks, .scalar vs) ∧ A ks) ∨
      c'.matchList = c.matchList)
    {pairs : List (YamlNode × YamlNode)} (h : pairs.foldlM step c = .ok c') :
    (∀ ks vs, A ks → (.scalar ks, .scalar vs) ∈ pairs →
      ∃ m ∈ c'.matchList, FromEntry long ks vs m) ∧
      ∀ m ∈ c'.matchList, m ∈ c.matchList ∨
        ∃ p ∈ pairs, ∃ ks vs, p = (.scalar ks, .scalar vs) ∧ A ks ∧ FromEntry long ks vs m := by
  constructor
  · intro ks vs hks hmem
    refine foldlM_ok_mem (P := fun c => ∃ m ∈ c.matchList, FromEntry long ks vs m) ?_ hmem ?_ h
    · rintro c₁ p - c₂ ⟨m, hm, hfrom⟩ hstep
      rcases hkeep c₁ p c₂ hstep with ⟨ks', vs', rfl, hks'⟩ | hsame
      · exact ⟨m, ((addMatch_mem (hadd _ _ _ _ hstep hks')).2 m).mpr (.inl hm), hfrom⟩
      · exact ⟨m, hsame ▸ hm, hfrom⟩
    · intro c₁ c₂ hstep
      exact (addMatch_mem (hadd _ _ _ _ hstep hks)).1
  · intro m hm
    refine foldlM_ok_origin (P := fun c => m ∈ c.matchList) ?_ h hm
    intro c₁ p c₂ hstep hm₂
    rcases hkeep c₁ p c₂ hstep with ⟨ks, vs, rfl, hks⟩ | hsame
    · rcases ((addMatch_mem (hadd _ _ _ _ hstep hks)).2 m).mp hm₂ with hold | ⟨-, hfrom⟩
      · exact .inl hold
      · exact .inr ⟨ks, vs, rfl, hks, hfrom⟩
    · exact .inl (hsame ▸ hm₂)

/-- A match mapping: each entry is held, and nothing else. -/
theorem matchEntries_hold {pairs : List (YamlNode × YamlNode)}
    (h : pairs.foldlM (matchEntry long) c = .ok c') :
    (∀ ks vs, True → (.scalar ks, .scalar vs) ∈ pairs →
      ∃ m ∈ c'.matchList, FromEntry long ks vs m) ∧
      ∀ m ∈ c'.matchList, m ∈ c.matchList ∨
        ∃ p ∈ pairs, ∃ ks vs, p = (.scalar ks, .scalar vs) ∧ True ∧ FromEntry long ks vs m := by
  refine entries_hold (A := fun _ => True) (fun c ks vs c' hstep _ => ?_)
    (fun c p c' hstep => ?_) h
  · obtain ⟨ks', vs', heq, hadd⟩ := matchEntry_ok hstep
    cases heq
    exact hadd
  · obtain ⟨ks, vs, hp, -⟩ := matchEntry_ok hstep
    exact .inl ⟨ks, vs, hp, trivial⟩

/-- A trigger: each entry for another field than the kind is held, and nothing else. -/
theorem triggerEntries_hold {pairs : List (YamlNode × YamlNode)}
    (h : pairs.foldlM (triggerEntry long) c = .ok c') :
    (∀ ks vs, ks ≠ "kind".toList → (.scalar ks, .scalar vs) ∈ pairs →
      ∃ m ∈ c'.matchList, FromEntry long ks vs m) ∧
      ∀ m ∈ c'.matchList, m ∈ c.matchList ∨ ∃ p ∈ pairs, ∃ ks vs,
        p = (.scalar ks, .scalar vs) ∧ ks ≠ "kind".toList ∧ FromEntry long ks vs m := by
  refine entries_hold (A := fun ks => ks ≠ "kind".toList) (fun c ks vs c' hstep hks => ?_)
    (fun c p c' hstep => ?_) h
  · obtain ⟨ks', vs', heq, ⟨hkind, -⟩ | ⟨-, hadd⟩⟩ := triggerEntry_ok hstep
    · cases heq
      exact absurd hkind hks
    · cases heq
      exact hadd
  · obtain ⟨ks, vs, hp, ⟨-, hset⟩ | ⟨hks, -⟩⟩ := triggerEntry_ok hstep
    · obtain ⟨v, -, rfl⟩ := setKind_ok hset
      exact .inr rfl
    · exact .inl ⟨ks, vs, hp, hks⟩

/-- Every entry of a status list is held, and nothing else. -/
theorem statusEntries_hold {items : List YamlNode}
    (h : items.foldlM (statusEntry long) c = .ok c') :
    (∀ s, .scalar s ∈ items → ∃ v ∈ c'.statusIn, resolveValue long s = some v) ∧
      ∀ v ∈ c'.statusIn, v ∈ c.statusIn ∨
        ∃ e ∈ items, ∃ s, e = .scalar s ∧ resolveValue long s = some v := by
  constructor
  · intro s hmem
    refine foldlM_ok_mem (P := fun c => ∃ v ∈ c.statusIn, resolveValue long s = some v) ?_ hmem ?_ h
    · rintro c₁ e _ c₂ ⟨v, hin, hv⟩ hstep
      obtain ⟨-, s', v', -, -, rfl⟩ := statusEntry_ok hstep
      exact ⟨v, List.mem_append_left _ hin, hv⟩
    · intro c₁ c₂ hstep
      obtain ⟨-, s', v, heq, hv, rfl⟩ := statusEntry_ok hstep
      cases heq
      exact ⟨v, List.mem_append_right _ (List.mem_singleton_self _), hv⟩
  · intro v hv
    refine foldlM_ok_origin (P := fun c => v ∈ c.statusIn) ?_ h hv
    intro c₁ e c₂ hstep hv₂
    obtain ⟨-, s, v', rfl, hres, rfl⟩ := statusEntry_ok hstep
    rcases List.mem_append.mp hv₂ with hold | hlast
    · exact .inl hold
    · exact .inr ⟨s, rfl, List.mem_singleton.mp hlast ▸ hres⟩

/-- A field has one name. -/
theorem fieldSyms_unique {f f' : CStr} {fid : DiagField} (h : symLookup fieldSyms f = some fid)
    (h' : symLookup fieldSyms f' = some fid) : f = f' := by
  have hnodup : (fieldSyms.map Prod.snd).Nodup := by decide +kernel
  exact congrArg Prod.fst
    (List.inj_on_of_nodup_map hnodup (mem_of_symLookup h) (mem_of_symLookup h') rfl)

/-- What is held of a field is what an entry of it means. -/
theorem FromEntry.means {field vs s : CStr} {op : DiagOp} {m : DiagMatch}
    (h : FromEntry long field vs m) (hm : m ∈ c.matchList) (hop : splitOp vs = (op, s)) :
    ∃ v, Means v s ∧ CondHolds c (.matchValue field op) v := by
  obtain ⟨hfid, hv, hmop⟩ := h
  rw [hop] at hv hmop
  subst hmop
  exact ⟨m.value, (resolveValue_iff.mp hv).1, m.field, hfid, hm⟩

/-- A held constraint of the field is that of an entry. -/
theorem FromEntry.read {field ks vs : CStr} {op : DiagOp} {fid : DiagField} {v : ℤ}
    (h : FromEntry long ks vs { field := fid, value := v, op := op })
    (hfid : symLookup fieldSyms field = some fid) :
    ks = field ∧ Means v (splitOp vs).2 ∧ (splitOp vs).1 = op := by
  obtain ⟨hks, hv, hop⟩ := h
  exact ⟨fieldSyms_unique hks hfid, (resolveValue_iff.mp hv).1, hop⟩

/-- The number a scalar is read as. -/
theorem scalarLong_scalar {n : Option YamlNode} {s : CStr} (h : n = some (.scalar s)) :
    scalarLong long n = some (strtol long.bits s).value := by
  rw [h]
  rfl

theorem scalarLong_eq_some {n : Option YamlNode} {v : ℤ} (h : scalarLong long n = some v) :
    ∃ s, n = some (.scalar s) ∧ v = (strtol long.bits s).value := by
  obtain ⟨s, hs, rfl⟩ := Option.map_eq_some_iff.mp h
  cases n with
  | none => cases hs
  | some n => exact ⟨s, congrArg some (nodeScalar_eq_some.mp hs), rfl⟩

/-- What `parse_when` leaves, part by part: the kind it resolved, the constraints and statuses
of the mappings it went through, and the numbers. -/
theorem parseWhen_parts {item : YamlNode} (h : parseWhen long item = .ok c) :
    ((∀ s, mapGet (some item) "kind" ≠ some (.scalar s)) ∧ c.kind = none ∨
      ∃ s v, mapGet (some item) "kind" = some (.scalar s) ∧ resolveValue long s = some v ∧
        c.kind = some (UInt32.ofInt v)) ∧
    (mapGet (some item) "match" = none ∧ c.matchList = [] ∨
      ∃ pairs c₁ c₂, mapGet (some item) "match" = some (.mapping pairs) ∧
        pairs.foldlM (matchEntry long) c₁ = .ok c₂ ∧ c₁.matchList = [] ∧
        c.matchList = c₂.matchList) ∧
    (mapGet (some item) "status_in" = none ∧ c.statusIn = [] ∨
      ∃ items c₁ c₂, mapGet (some item) "status_in" = some (.sequence items) ∧
        items.foldlM (statusEntry long) c₁ = .ok c₂ ∧ c₁.statusIn = [] ∧
        c.statusIn = c₂.statusIn) := by
  obtain ⟨c₁, c₂, c₃, hkind, hmatch, hstatus, rfl⟩ := parseWhen_ok h
  -- the kind comes first, into an empty condition, and each part leaves the others alone
  have hfirst : c₁ = { ({} : DiagCond) with kind := c₁.kind } := by
    rcases parseOptional_ok hkind with ⟨-, rfl⟩ | ⟨s, -, hset⟩
    · rfl
    · obtain ⟨v, -, rfl⟩ := setKind_ok hset
      rfl
  have hsecond : ∃ ms, c₂ = { c₁ with matchList := ms } := by
    rcases parseOptional_ok hmatch with ⟨-, rfl⟩ | ⟨n, -, hparse⟩
    · exact ⟨c₂.matchList, rfl⟩
    · obtain ⟨pairs, -, hfold⟩ := parseMatchMap_ok hparse
      exact matchEntries_frame hfold
  have hthird : ∃ vs, c₃ = { c₂ with statusIn := vs } := by
    rcases parseOptional_ok hstatus with ⟨-, rfl⟩ | ⟨n, -, hparse⟩
    · exact ⟨c₃.statusIn, rfl⟩
    · obtain ⟨items, -, hfold⟩ := parseStatusIn_ok hparse
      exact statusEntries_frame hfold
  obtain ⟨vs, rfl⟩ := hthird
  refine ⟨?_, ?_, ?_⟩
  · obtain ⟨ms, rfl⟩ := hsecond
    rcases parseOptional_ok hkind with ⟨hnone, rfl⟩ | ⟨s, hs, hset⟩
    · refine .inl ⟨fun s hs => ?_, rfl⟩
      rw [hs] at hnone
      cases hnone
    · obtain ⟨v, hv, rfl⟩ := setKind_ok hset
      cases hget : mapGet (some item) "kind" with
      | none =>
        rw [hget] at hs
        cases hs
      | some n =>
        rw [hget, nodeScalar_eq_some] at hs
        exact .inr ⟨s, v, by rw [hs], hv, rfl⟩
  · rcases parseOptional_ok hmatch with ⟨hnone, rfl⟩ | ⟨n, hn, hparse⟩
    · exact .inl ⟨hnone, by rw [hfirst]⟩
    · obtain ⟨pairs, rfl, hfold⟩ := parseMatchMap_ok hparse
      exact .inr ⟨pairs, c₁, c₂, hn, hfold, by rw [hfirst], rfl⟩
  · have hempty : c₂.statusIn = [] := by
      obtain ⟨ms, rfl⟩ := hsecond
      rw [hfirst]
    rcases parseOptional_ok hstatus with ⟨hnone, hsame⟩ | ⟨n, hn, hparse⟩
    · exact .inl ⟨hnone, (congrArg DiagCond.statusIn hsame).trans hempty⟩
    · obtain ⟨items, rfl, hfold⟩ := parseStatusIn_ok hparse
      exact .inr ⟨items, c₂, _, hn, hfold, hempty, rfl⟩

end UsbTrace.Interface
